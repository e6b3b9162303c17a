import Umqtt.Lemmas.CallSteps

/-!
# When the client counts as connected

`mqtt_client_dowork` sends a PINGREQ and `mqtt_client_disconnect` a DISCONNECT when the client counts as connected. The CONNACK
that makes it so is one of the current connection, provided the bit is clear when the connection is begun; the code never clears
it.
-/

namespace Umqtt

open Past

/-! ## Entries -/

/-- A CONNACK is delivered whose return code is `CONNECTION_ACCEPTED`. -/
def Action.isAccepted : Action → Bool
  | .operation (.onConnack connack) => connack.returnCode = .connectionAccepted
  | _ => false

/-- Every PINGREQ and every DISCONNECT is handed over after a CONNACK with `CONNECTION_ACCEPTED` that was received since the latest
`mqtt_client_connect`. -/
def AfterConnack (history : List Action) : Prop :=
  Always (fun before a => a.sendsType .pingreqType ∨ a.sendsType .disconnectType → Since (·.isConnect) (·.isAccepted) before) history

instance (history : List Action) : Decidable (AfterConnack history) := inferInstanceAs (Decidable (Always _ history))

/-- An entry that begins no connection, and sends neither a PINGREQ nor a DISCONNECT. -/
def Action.Quiet (a : Action) : Prop :=
  a.isConnect = false ∧ a.sendsType .pingreqType = false ∧ a.sendsType .disconnectType = false

theorem Action.OfCallback.quiet {a : Action} (h : a.OfCallback) : a.Quiet := by
  cases a with
  | connect => exact absurd h id
  | xioSend x p result => exact ⟨rfl, by simpa [sendsType] using h.1, by simpa [sendsType] using h.2⟩
  | _ => exact ⟨rfl, rfl, rfl⟩

theorem quiet_of_arrival {a : Action} (h : a.Arrival) : a.Quiet := by
  cases a with
  | connect => exact absurd h id
  | xioSend => exact absurd h id
  | _ => exact ⟨rfl, rfl, rfl⟩

/-! ## The invariant -/

/-- A client that counts as connected has received its CONNACK since the latest connect, and every PINGREQ and DISCONNECT so far
was sent after one. -/
structure ConnectedInv (s : Session) : Prop where
  since : s.client.mqttStatus.clientConnected = true → Since (·.isConnect) (·.isAccepted) s.history
  after : AfterConnack s.history

/-- Quiet entries keep the invariant of a client that does not become connected by them. -/
theorem ConnectedInv.quiet {s t : Session} (hs : ConnectedInv s) {added : List Action} (hq : ∀ a ∈ added, a.Quiet)
    (hh : t.history = s.history ++ added)
    (hc : t.client.mqttStatus.clientConnected = true → s.client.mqttStatus.clientConnected = true) : ConnectedInv t where
  since := by
    intro ht
    rw [hh]
    exact (hs.since (hc ht)).append fun a ha => by simp [(hq a ha).1]
  after := by
    rw [hh]
    refine hs.after.append ?_
    intro pre a post ha hsend
    obtain ⟨-, h1, h2⟩ := hq a (by simp [ha])
    simp [h1, h2] at hsend

/-- A PINGREQ or a DISCONNECT of a client that counts as connected keeps the invariant. -/
theorem ConnectedInv.sends {s t : Session} (hs : ConnectedInv s) {a : Action} (hn : a.isConnect = false)
    (hh : t.history = s.history ++ [a]) (hconn : s.client.mqttStatus.clientConnected = true) : ConnectedInv t where
  since := by
    intro _
    rw [hh]
    exact (hs.since hconn).snoc (by simp [hn])
  after := by
    rw [hh]
    exact always_snoc.mpr ⟨hs.after, fun _ => hs.since hconn⟩

theorem connectedInv_step (s t : Session) (hstep : RunStep s t) (hs : ConnectedInv s) : ConnectedInv t := by
  rcases hstep with ((⟨added, hi | ho, hh⟩ | ⟨mqttOptions, hc, hh⟩) | ⟨a, ha, hc, hh⟩)
  · have hq : ∀ a ∈ added, a.Quiet := fun a ha => (hi.ofCallback a ha).quiet
    by_cases hnew : t.client.mqttStatus.clientConnected = true → s.client.mqttStatus.clientConnected = true
    · exact hs.quiet hq hh hnew
    · -- only an accepted CONNACK connects the client
      generalize hct : t.client = c at hi hnew
      cases hi with
      | accepted isSessionPresent =>
        refine ⟨fun _ => ?_, (hs.quiet (t := ⟨s.client, s.env, t.history⟩) hq hh id).after⟩
        rw [hh]
        exact since_snoc_event rfl
      | _ => exact absurd id hnew
  · generalize hct : t.client = c at ho
    cases ho with
    | disconnectPacket callback packet result _ hconn _ => exact hs.sends rfl hh hconn
    | ping packet result hconn _ => exact hs.sends rfl hh hconn
    | disconnect | clear => exact hs.quiet (fun a ha => List.mem_singleton.mp ha ▸ ⟨rfl, rfl, rfl⟩) hh (by rw [hct]; exact id)
    | _ => exact hs.quiet (fun a ha => absurd ha (by simp)) hh (by rw [hct]; exact id)
  · refine hs.quiet (fun a ha => absurd ha (by simp)) (hh.trans (List.append_nil _).symm) ?_
    rw [hc]
    exact id
  · exact hs.quiet (fun b hb => List.mem_singleton.mp hb ▸ quiet_of_arrival ha) hh (by rw [hc]; exact id)

/-! ## Runs -/

/-- `mqtt_client_connect` is called only when the client does not count as connected. -/
def ConnectsClear (w : World) (call : Call) : Prop :=
  call.connects = true → w.callContext.client.mqttStatus.clientConnected = false

instance (w : World) (call : Call) : Decidable (ConnectsClear w call) := inferInstanceAs (Decidable (_ → _))

theorem connectedInv_begin (w : World) (call : Call) (hP : ConnectsClear w call) (hw : ConnectedInv w.callContext) :
    ConnectedInv (beginCall w.callContext call) := by
  rcases beginCall_cases w.callContext call with ⟨xioHandle, mqttOptions, rfl⟩ | hsame
  · refine ⟨fun hc => absurd ((hP rfl).symm.trans hc) (by decide), ?_⟩
    exact always_snoc.mpr ⟨hw.after, fun hsend => by simp [Action.sendsType] at hsend⟩
  · rw [hsame]
    exact hw

/-- In every run of a client that never counts as connected when `mqtt_client_connect` is called, a PINGREQ or a DISCONNECT is
handed over only after an accepted CONNACK of the current connection. -/
theorem sends_after_connack (depth : Nat) (fnOnErrorCallBack : Bool) (env : Env) (heap : Heap) (calls : List Call)
    (h : RunMeets ConnectsClear depth (mqttClientInit fnOnErrorCallBack env heap) calls) :
    AfterConnack (run depth (mqttClientInit fnOnErrorCallBack env heap) calls).callContext.history :=
  (run_preserves connectedInv_step connectedInv_begin h ⟨fun hc => absurd hc Bool.false_ne_true, always_nil⟩).after

/-- The string `a`. -/
def letterA : CString := ⟨[0x61], by decide⟩

/-- Options with a client id and nothing else. -/
def plainOptions : MqttClientOptions :=
  { clientId := some letterA, willTopic := none, willMessage := none, username := none, password := none,
    keepAliveInterval := 20, messageRetain := false, useCleanSession := true, qualityOfServiceValue := .deliverAtMostOnce }

/-- A connection that is opened, and on which a CONNACK with the given return code arrives. -/
def openedWith (xioHandle : XioHandle) (returnCode : UInt8) : List Call :=
  [.connect (some xioHandle) (some plainOptions), .xio (.io (.openComplete .ioOpenOk)),
    .xio (.bytes (some [0x20, 0x02, 0x00, returnCode]))]

/-- A client whose connection is open, and that has received nothing. -/
def openedClient : World :=
  run 1 (mqttClientInit true calmEnv okHeap) [.connect (some 1) (some plainOptions), .xio (.io (.openComplete .ioOpenOk))]

theorem env_openedClient : openedClient.callContext.env = calmEnv := rfl

/-- A first connection that is refused, a second one that is accepted and ended. -/
theorem sends_after_connack_refused :
    AfterConnack (run 1 (mqttClientInit true calmEnv okHeap)
      (openedWith 1 5 ++ [.xio (.io .ioError), .xio (.io .closeComplete)] ++ openedWith 2 0 ++ [.disconnect none])).callContext.history :=
  sends_after_connack 1 true calmEnv okHeap _ (by decide +kernel)

/-- The connection of an accepted CONNACK is lost, and `mqtt_client_disconnect` is called on the next one before its CONNACK. -/
theorem not_afterConnack_second_connection :
    ¬AfterConnack (run 1 (mqttClientInit true calmEnv okHeap)
      (openedWith 1 0 ++ [.xio (.io .ioError), .xio (.io .closeComplete), .connect (some 2) (some plainOptions),
        .xio (.io (.openComplete .ioOpenOk)), .disconnect none])).callContext.history := by
  decide +kernel

end Umqtt
