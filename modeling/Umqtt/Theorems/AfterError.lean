import Umqtt.Lemmas.Account
import Umqtt.Theorems.Connected

/-!
# After an error

`set_error_callback` reports an error and closes the connection, but nothing is marked as closed that the handling of bytes or of a
completed send looks at: further packets of the same bytes are still delivered, and so is the event of a DISCONNECT. Nothing is delivered
after an error when no such thing arrives.
-/

namespace Umqtt

open Past

/-! ## Deliveries, errors, and what arrives -/

/-- `set_error_callback` has been executed since the latest `mqtt_client_connect`. -/
def Erred (h : List Action) : Prop := Since (·.isConnect) (·.isFatal) h

instance (h : List Action) : Decidable (Erred h) := inferInstanceAs (Decidable (Since _ _ _))

/-- Nothing is delivered after an error, until `mqtt_client_connect` is called. -/
def NothingAfterError (h : List Action) : Prop := Always (fun before a => a.isDelivery = true → ¬Erred before) h

instance (h : List Action) : Decidable (NothingAfterError h) := inferInstanceAs (Decidable (Always _ _))

/-- What a packet says is for the application. -/
def isForApplication : Option Heard → Bool
  | some (.message _) | some (.event _) => true
  | _ => false

/-- Something arrives that is for the application: a packet that says something, or the completion of a send when a DISCONNECT may be
the packet that was asked for last. -/
def Action.Tells (before : List Action) : Action → Prop
  | .packet t flags headerData => isForApplication (heard t flags (bodyOf headerData)) = true
  | .event (.sendComplete .ioSendOk) => (account before).requested ≠ .other
  | _ => False

instance (before : List Action) : (a : Action) → Decidable (a.Tells before)
  | .packet t flags headerData => inferInstanceAs (Decidable (isForApplication (heard t flags (bodyOf headerData)) = true))
  | .event (.sendComplete .ioSendOk) => inferInstanceAs (Decidable (_ ≠ _))
  | .event (.sendComplete .ioSendError) | .event (.sendComplete .ioSendCancelled) | .event (.openComplete _) | .event .ioError
  | .event .closeComplete | .connect _ _ | .connectReturns _ | .disconnect _ | .clearXio | .bytesReceived _ | .xioOpen _ _
  | .xioSend _ _ _ | .sendReturns _ | .xioClose _ | .xioDowork _ | .clock _ | .connPacket _ | .operation _ | .messageRecv _ _
  | .setErrorCallback _ | .onError _ | .disconnected _ => inferInstanceAs (Decidable False)

/-- A SUBACK arrives one of whose return codes is rejected: it is delivered after the error that it is. -/
def Action.isRejectedSuback : Action → Bool
  | .packet .subackType flags headerData => 2 ≤ (bodyOf headerData).length && (heard .subackType flags (bodyOf headerData)).isNone
  | _ => false

/-- No SUBACK is rejected, and nothing that is for the application arrives after an error. -/
def QuietAfterError (h : List Action) : Prop :=
  Always (fun before a => a.isRejectedSuback = false ∧ (Erred before → ¬a.Tells before)) h

instance (h : List Action) : Decidable (QuietAfterError h) := inferInstanceAs (Decidable (Always _ _))

/-! ## The steps that deliver -/

theorem Action.Plain.not_delivery {a : Action} (h : a.Plain) : a.isDelivery = false := by
  cases a with
  | operation actionResult => cases actionResult <;> exact absurd h id
  | messageRecv => exact absurd h id
  | _ => rfl

/-- A step delivers the event of a DISCONNECT, or what a packet says, or nothing. -/
theorem Advance.delivers_or {c c' : MqttClient} {h l : List Action} (ha : Advance c h c' l) :
    (∀ a ∈ l, a.isDelivery = false) ∨
      (c.packetState = .disconnectType ∧ l = [.event (.sendComplete .ioSendOk), .operation .onDisconnect]) ∨ PacketSays h l := by
  rcases ha.inert_or with hinert | hl | htold
  · exact Or.inl fun a ha => (hinert a ha).1
  · exact (entries_local hl).imp (fun hplain a ha => (hplain a ha).not_delivery) Or.inl
  · exact Or.inr (Or.inr htold)

/-! ## Runs -/

/-- An entry that is no error leaves none behind. -/
theorem not_erred_snoc {h : List Action} {a : Action} (hh : ¬Erred h) (ha : a.isFatal = false) : ¬Erred (h ++ [a]) :=
  fun he => hh (he.of_snoc (by rw [ha]; exact Bool.false_ne_true))

/-- The account agrees with the client, and nothing has been delivered after an error if nothing for the application has arrived. -/
structure AfterErrorInv (s : Session) : Prop where
  agrees : (account s.history).Agrees s.client
  quiet : QuietAfterError s.history → NothingAfterError s.history

theorem NothingAfterError.snoc {h : List Action} {a : Action} (hh : NothingAfterError h) (ha : a.isDelivery = true → ¬Erred h) :
    NothingAfterError (h ++ [a]) := always_snoc.mpr ⟨hh, ha⟩

/-- The event of a DISCONNECT is not delivered after an error. -/
theorem nothingAfterError_disconnect {c : MqttClient} {h : List Action} (hstate : c.packetState = .disconnectType)
    (hx : (account h).Agrees c) (hq : QuietAfterError (h ++ [.event (.sendComplete .ioSendOk), .operation .onDisconnect]))
    (hh : NothingAfterError h) : NothingAfterError (h ++ [.event (.sendComplete .ioSendOk), .operation .onDisconnect]) := by
  have hno : ¬Erred h := by
    intro herr
    refine (hq h (.event (.sendComplete .ioSendOk)) [.operation .onDisconnect] rfl).2 herr ?_
    intro hother
    have hallows := hx.requested
    rw [hother] at hallows
    exact hallows hstate
  have hevent : NothingAfterError (h ++ [.event (.sendComplete .ioSendOk)]) := hh.snoc fun hdel => absurd hdel Bool.false_ne_true
  have hboth := hevent.snoc (a := .operation .onDisconnect) fun _ => not_erred_snoc hno rfl
  rwa [List.append_assoc] at hboth

/-- What a packet says is not delivered after an error. -/
theorem nothingAfterError_packet {h l : List Action} (htold : PacketSays h l) (hq : QuietAfterError (h ++ l))
    (hh : NothingAfterError h) : NothingAfterError (h ++ l) := by
  cases htold with
  | @delivers packet flags headerData x a hheard htold hlast =>
    obtain ⟨pre, rfl⟩ := List.getLast?_eq_some_iff.mp hlast
    have hno : ¬Erred pre := by
      intro herr
      refine (hq pre (.packet packet flags headerData) [a] (by simp)).2 herr ?_
      change isForApplication (heard packet flags (bodyOf headerData)) = true
      rw [hheard]
      cases htold <;> rfl
    exact hh.snoc fun _ => not_erred_snoc hno rfl
  | suback flags headerData suback pre post heq hlen hok =>
    subst heq
    have hcond := hq pre (.packet .subackType flags headerData) (post ++ [.operation (.onSubscribeAck suback)]) (by simp)
    have hheard : heard .subackType flags (bodyOf headerData) ≠ none := by
      intro hnone
      have hrejected := hcond.1
      simp [Action.isRejectedSuback, hlen, hnone] at hrejected
    have hno : ¬Erred pre := by
      intro herr
      refine hcond.2 herr ?_
      change isForApplication (heard .subackType flags (bodyOf headerData)) = true
      unfold heard at hheard ⊢
      dsimp only at hheard ⊢
      split at hheard
      · rename_i hcodes
        rw [if_pos hcodes]
        rfl
      · exact absurd rfl hheard
    rw [hok hheard]
    rw [hok hheard] at hh
    exact hh.snoc fun _ => not_erred_snoc hno rfl

theorem afterErrorInv_step (s t : Session) (hstep : AdvanceStep s t) (hs : AfterErrorInv s) : AfterErrorInv t := by
  obtain ⟨l, ha, hh⟩ := hstep
  refine ⟨hh ▸ agrees_advance ha hs.agrees, ?_⟩
  intro hq
  rw [hh] at hq ⊢
  have hold := hs.quiet (always_append_iff.mp hq).1
  rcases ha.delivers_or with hno | ⟨hstate, rfl⟩ | htold
  · exact hold.append fun pre a post heq hdel => absurd ((hno a (by simp [heq])).symm.trans hdel) (by decide)
  · exact nothingAfterError_disconnect hstate hs.agrees hq hold
  · exact nothingAfterError_packet htold hq hold

/-- In every run in which no SUBACK is rejected and nothing that is for the application arrives after an error, nothing is delivered after
an error. -/
theorem nothing_after_error (depth : Nat) (fnOnErrorCallBack : Bool) (env : Env) (heap : Heap) (calls : List Call)
    (h : QuietAfterError (run depth (mqttClientInit fnOnErrorCallBack env heap) calls).callContext.history) :
    NothingAfterError (run depth (mqttClientInit fnOnErrorCallBack env heap) calls).callContext.history := by
  have hbegin : ∀ (w : World) (call : Call), True → AfterErrorInv w.callContext → AfterErrorInv (beginCall w.callContext call) := by
    intro w call _ hw
    refine ⟨agrees_begin call hw.agrees, ?_⟩
    rcases beginCall_cases w.callContext call with ⟨xioHandle, mqttOptions, rfl⟩ | hsame
    · exact fun hq => (hw.quiet (always_append_iff.mp hq).1).snoc (a := .connect xioHandle mqttOptions)
        fun hdel => absurd hdel Bool.false_ne_true
    · rw [hsame]
      exact hw.quiet
  have hends : ∀ (w : World) (call : Call), True → EndsPending w call → AfterErrorInv w.callContext →
      AfterErrorInv w.callContext.endPending := by
    intro w call _ _ hw
    refine ⟨agrees_endPending hw.agrees, ?_⟩
    intro hq
    have hhist : w.callContext.endPending.history = w.callContext.history ++ disconnectedOf w.callContext.client :=
      history_callDisconnectCb w.callContext
    rw [hhist] at hq ⊢
    refine (hw.quiet (always_append_iff.mp hq).1).append ?_
    intro pre a post heq hdel
    have hplain := plain_disconnectedOf w.callContext.client a (by simp [heq])
    exact absurd (hplain.not_delivery.symm.trans hdel) (by decide)
  have hstart : AfterErrorInv (mqttClientInit fnOnErrorCallBack env heap).callContext :=
    ⟨agrees_init fnOnErrorCallBack env heap, fun _ => always_nil⟩
  exact (run_advances afterErrorInv_step hbegin hends (runMeets_of_forall fun _ _ => trivial) hstart).quiet h

/-- An error, after which a packet arrives that says nothing, and another connection. -/
theorem nothing_after_error_reset :
    NothingAfterError (run 1 (mqttClientInit true calmEnv okHeap)
      (openedWith 1 0 ++ [.xio (.io .ioError), .xio (.bytes (some [0xB0, 0x01, 0x00])), .xio (.io .closeComplete)] ++
        openedWith 2 0)).callContext.history :=
  nothing_after_error 1 true calmEnv okHeap _ (by decide +kernel)

/-- Bytes with an UNSUBACK that has no packet id, and a PUBLISH after it. -/
theorem not_nothingAfterError_same_bytes :
    ¬NothingAfterError (run 1 (mqttClientInit true calmEnv okHeap)
      (openedWith 1 0 ++ [.xio (.bytes (some [0xB0, 0x01, 0x00, 0x30, 0x04, 0x00, 0x01, 0x61, 0x62]))])).callContext.history := by
  decide +kernel

end Umqtt
