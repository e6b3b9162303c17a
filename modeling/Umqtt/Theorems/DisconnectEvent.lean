import Umqtt.Lemmas.Account
import Umqtt.Theorems.Reconnect

/-!
# The event of a DISCONNECT

All sends complete through one callback, and `sendComplete` takes the completion of any packet for that of a DISCONNECT when
`packetState` says DISCONNECT. Sends complete in the order in which they were made (`inFlight`), so which packet has completed is known
from the history. The event is the one of the DISCONNECT when at each completion `packetState` fits the packet that completes.
-/

namespace Umqtt

open Past

/-! ## Packets in flight -/

/-- The packets in flight after one more entry. -/
def flight (packets : List Buffer) : Action → List Buffer
  | .connect _ _ => []
  | .xioSend _ packet result => if result = .zero then packets ++ [packet] else packets
  | .event (.sendComplete _) => packets.tail
  | _ => packets

/-- The packets of the current connection that have been accepted by `xio_send` and have not completed, oldest first. -/
def inFlight (h : List Action) : List Buffer := h.foldl flight []

theorem inFlight_snoc (h : List Action) (a : Action) : inFlight (h ++ [a]) = flight (inFlight h) a := List.foldl_concat ..

/-- A send completes. -/
def Action.isCompletion : Action → Bool
  | .event (.sendComplete _) => true
  | _ => false

/-- `MQTT_CLIENT_ON_DISCONNECT` is delivered. -/
def Action.isOnDisconnect (a : Action) : Bool := a = .operation .onDisconnect

/-- A DISCONNECT. -/
def isDisconnect (packet : Buffer) : Bool := packet.packetType = some .disconnectType

/-- A DISCONNECT is handed to `xio_send`, which accepts it. -/
def Action.isDisconnectSent : Action → Bool
  | .xioSend _ p result => result = .zero && isDisconnect p
  | _ => false

/-- Sends complete only when a packet is in flight. -/
def Orderly (h : List Action) : Prop := Always (fun before a => a.isCompletion = true → inFlight before ≠ []) h

instance (h : List Action) : Decidable (Orderly h) := inferInstanceAs (Decidable (Always _ _))

/-- The packet that completes next is a DISCONNECT. -/
def CompletesDisconnect (h : List Action) : Prop := (inFlight h).head?.any isDisconnect = true

instance (h : List Action) : Decidable (CompletesDisconnect h) := inferInstanceAs (Decidable (_ = _))

/-! ## The event and the packet -/

/-- A DISCONNECT has just completed. -/
def JustCompleted (h : List Action) : Prop := h.getLast?.any Action.isSendOk = true ∧ CompletesDisconnect h.dropLast

instance (h : List Action) : Decidable (JustCompleted h) := inferInstanceAs (Decidable (_ ∧ _))

/-- The event is delivered only when a DISCONNECT has just completed, always then, and at most once for each DISCONNECT that was handed
over. -/
structure EventOfDisconnect (h : List Action) : Prop where
  only : Always (fun before a => a.isOnDisconnect = true → JustCompleted before) h
  always : Followed (fun before a => a.isSendOk = true ∧ CompletesDisconnect before) (·.isOnDisconnect = true) h
  once : h.countP Action.isOnDisconnect ≤ h.countP Action.isDisconnectSent

/-- What was asked for last is a DISCONNECT. -/
def Requested.isDisconnect : Requested → Bool
  | disconnect _ => true
  | _ => false

/-- When a DISCONNECT completes, it is what was asked for last, and when another packet completes, it is not. -/
def CompletesAsAsked (h : List Action) : Prop :=
  Always (fun before a => a.isSendOk = true →
    if CompletesDisconnect before then (account before).requested.isDisconnect = true else (account before).requested = .other) h

instance (h : List Action) : Decidable (CompletesAsAsked h) := inferInstanceAs (Decidable (Always _ _))

theorem justCompleted_snoc {h : List Action} {a : Action} : JustCompleted (h ++ [a]) ↔ a.isSendOk = true ∧ CompletesDisconnect h := by
  unfold JustCompleted
  rw [List.getLast?_concat, List.dropLast_concat]
  rfl

/-- The oldest packet leaves. -/
theorem countP_tail (packets : List Buffer) :
    packets.tail.countP isDisconnect + (if packets.head?.any isDisconnect = true then 1 else 0) ≤ packets.countP isDisconnect := by
  cases packets with
  | nil => simp
  | cons p rest => rcases hp : isDisconnect p <;> simp [hp]

/-- Each event takes a DISCONNECT out of flight, and only a send puts one into flight. -/
theorem count_onDisconnect {h : List Action} (honly : Always (fun before a => a.isOnDisconnect = true → JustCompleted before) h) :
    h.countP Action.isOnDisconnect + (inFlight h).countP isDisconnect + (if JustCompleted h then 1 else 0) ≤
      h.countP Action.isDisconnectSent := by
  induction h using List.reverseRecOn with
  | nil => simp [inFlight, JustCompleted]
  | append_singleton h a ih =>
    obtain ⟨hold, hnew⟩ := always_snoc.mp honly
    have hih := ih hold
    rw [List.countP_append, List.countP_append, inFlight_snoc]
    -- an entry that is not the completion of a send
    have hnot : a.isSendOk = false → ¬JustCompleted (h ++ [a]) := by
      intro ha hjust
      rw [justCompleted_snoc, ha] at hjust
      exact absurd hjust.1 Bool.false_ne_true
    cases a with
    | connect =>
      rw [if_neg (hnot rfl)]
      simp only [flight, List.countP_nil, List.countP_singleton, Action.isOnDisconnect, Action.isDisconnectSent]
      simp
      omega
    | xioSend x p r =>
      rw [if_neg (hnot rfl)]
      cases r with
      | zero =>
        rcases hp : isDisconnect p
        · simp [flight, Action.isOnDisconnect, Action.isDisconnectSent, hp]
          omega
        · simp [flight, Action.isOnDisconnect, Action.isDisconnectSent, hp]
          omega
      | muFailure =>
        simp [flight, Action.isOnDisconnect, Action.isDisconnectSent]
        omega
    | event e =>
      cases e with
      | sendComplete r =>
        have htail := countP_tail (inFlight h)
        have hcredit : (if JustCompleted (h ++ [.event (.sendComplete r)]) then 1 else 0) ≤
            (if (inFlight h).head?.any isDisconnect = true then 1 else 0) := by
          by_cases hjust : JustCompleted (h ++ [.event (.sendComplete r)])
          · have hcompletes : (inFlight h).head?.any isDisconnect = true := (justCompleted_snoc.mp hjust).2
            rw [if_pos hjust, if_pos hcompletes]
          · rw [if_neg hjust]
            exact Nat.zero_le _
        simp only [flight, Action.isOnDisconnect, Action.isDisconnectSent, List.countP_singleton]
        simp
        omega
      | _ =>
        rw [if_neg (hnot rfl)]
        simp [flight, Action.isOnDisconnect, Action.isDisconnectSent]
        omega
    | operation e =>
      rw [if_neg (hnot rfl)]
      by_cases he : e = .onDisconnect
      · have hjust := hnew (decide_eq_true (by rw [he]))
        rw [if_pos hjust] at hih
        simp [flight, Action.isOnDisconnect, Action.isDisconnectSent, he]
        omega
      · simp [flight, Action.isOnDisconnect, Action.isDisconnectSent, he]
        omega
    | _ =>
      rw [if_neg (hnot rfl)]
      simp [flight, Action.isOnDisconnect, Action.isDisconnectSent]
      omega

/-! ## The steps that complete a send -/

/-- What a callback does at once. -/
theorem completes_local {c c' : MqttClient} {h l : List Action} (hl : Local c h c' l) :
    (∀ a ∈ l, a.isSendOk = false ∧ a.isOnDisconnect = false) ∨
      (c.packetState ≠ .disconnectType ∧ l = [.event (.sendComplete .ioSendOk)]) ∨
      (c.packetState = .disconnectType ∧ l = [.event (.sendComplete .ioSendOk), .operation .onDisconnect]) := by
  have hreport : ∀ e, ∀ a ∈ reportOf c e, a.isSendOk = false ∧ a.isOnDisconnect = false := by
    intro e a ha
    rcases mem_reportOf ha with rfl | rfl <;> exact ⟨rfl, rfl⟩
  have hdisconnected : ∀ a ∈ disconnectedOf c, a.isSendOk = false ∧ a.isOnDisconnect = false := by
    intro a ha
    obtain ⟨b, -, rfl⟩ := List.mem_map.mp ha
    exact ⟨rfl, rfl⟩
  cases hl with
  | sent hstate => exact Or.inr (Or.inr ⟨hstate, rfl⟩)
  | notSent sendResult hstate =>
    cases sendResult with
    | ioSendOk => exact Or.inr (Or.inl ⟨hstate rfl, rfl⟩)
    | ioSendError | ioSendCancelled => exact Or.inl fun a ha => List.mem_singleton.mp ha ▸ ⟨rfl, rfl⟩
  | idle => exact Or.inl (by simp)
  | working | ioError => exact Or.inl fun a ha => List.mem_singleton.mp ha ▸ ⟨rfl, rfl⟩
  | openNoPacket =>
    refine Or.inl ?_
    intro a ha
    simp only [List.mem_cons, List.not_mem_nil, or_false] at ha
    rcases ha with rfl | rfl <;> exact ⟨rfl, rfl⟩
  | openRefused =>
    refine Or.inl ?_
    intro a ha
    rcases List.mem_cons.mp ha with rfl | ha
    · exact ⟨rfl, rfl⟩
    · split at ha
      · exact absurd ha (by simp)
      · rw [mem_onErrorOf ha]
        exact ⟨rfl, rfl⟩
  | connectFailed => exact Or.inl fun a ha => mem_onErrorOf ha ▸ ⟨rfl, rfl⟩
  | closed =>
    refine Or.inl ?_
    intro a ha
    rcases List.mem_cons.mp ha with rfl | ha
    · exact ⟨rfl, rfl⟩
    · exact hdisconnected a ha
  | failed e => exact Or.inl fun a ha => (List.mem_append.mp ha).elim (hreport e a) (hdisconnected a)

theorem not_onDisconnect_of_inert {a : Action} (h : a.Inert) : a.isOnDisconnect = false := by
  cases a with
  | operation => exact absurd h.1 (by simp [Action.isDelivery])
  | _ => rfl

/-- A step completes a send with `IO_SEND_OK`, with the event or without it, or it does neither. -/
theorem Advance.completes_or {c c' : MqttClient} {h l : List Action} (ha : Advance c h c' l) :
    (∀ a ∈ l, a.isSendOk = false ∧ a.isOnDisconnect = false) ∨
      (c.packetState ≠ .disconnectType ∧ l = [.event (.sendComplete .ioSendOk)]) ∨
      (c.packetState = .disconnectType ∧ l = [.event (.sendComplete .ioSendOk), .operation .onDisconnect]) := by
  rcases ha.inert_or with hinert | hl | htold
  · exact Or.inl fun a ha => ⟨(hinert a ha).2, not_onDisconnect_of_inert (hinert a ha)⟩
  · exact completes_local hl
  · refine Or.inl ?_
    intro a ha
    cases htold with
    | delivers packet flags headerData hx htold =>
      obtain rfl := List.mem_singleton.mp ha
      rcases said_cases hx htold with ⟨-, rfl⟩ | ⟨-, -, hne⟩
      · exact ⟨rfl, rfl⟩
      · refine ⟨?_, decide_eq_false hne⟩
        cases htold <;> rfl
    | suback => exact List.mem_singleton.mp ha ▸ ⟨rfl, rfl⟩

/-! ## Runs -/

/-- The account agrees with the client, and the events go with the DISCONNECTs if the sends complete as asked. -/
structure DisconnectInv (s : Session) : Prop where
  agrees : (account s.history).Agrees s.client
  only : CompletesAsAsked s.history → Always (fun before a => a.isOnDisconnect = true → JustCompleted before) s.history
  always : CompletesAsAsked s.history →
    Followed (fun before a => a.isSendOk = true ∧ CompletesDisconnect before) (·.isOnDisconnect = true) s.history

/-- Entries that neither complete a send nor deliver the event. -/
theorem DisconnectInv.inert {s t : Session} (hs : DisconnectInv s) {l : List Action} (hh : t.history = s.history ++ l)
    (hx : (account t.history).Agrees t.client) (hl : ∀ a ∈ l, a.isSendOk = false ∧ a.isOnDisconnect = false) : DisconnectInv t where
  agrees := hx
  only := by
    rw [hh]
    intro hq
    refine (hs.only (always_append_iff.mp hq).1).append ?_
    intro pre a post heq hon
    exact absurd ((hl a (by simp [heq])).2.symm.trans hon) (by decide)
  always := by
    rw [hh]
    intro hq
    refine (hs.always (always_append_iff.mp hq).1).append ?_
    intro pre a post heq hP
    exact absurd ((hl a (by simp [heq])).1.symm.trans hP.1) (by decide)

/-- What a client that has asked for a DISCONNECT, or not, says about the packet that completes. -/
theorem completesDisconnect_iff {c : MqttClient} {h l : List Action} (hx : (account h).Agrees c)
    (hq : CompletesAsAsked (h ++ .event (.sendComplete .ioSendOk) :: l)) : CompletesDisconnect h ↔ c.packetState = .disconnectType := by
  have hcond := hq h (.event (.sendComplete .ioSendOk)) l rfl rfl
  have hallows := hx.requested
  split at hcond
  · rename_i hcompletes
    refine iff_of_true hcompletes ?_
    generalize (account h).requested = r at hcond hallows
    cases r with
    | disconnect => exact hallows
    | other | unsure => exact absurd hcond Bool.false_ne_true
  · rename_i hcompletes
    rw [hcond] at hallows
    exact iff_of_false hcompletes hallows

theorem disconnectInv_step (s t : Session) (hstep : AdvanceStep s t) (hs : DisconnectInv s) : DisconnectInv t := by
  obtain ⟨l, ha, hh⟩ := hstep
  have hx : (account t.history).Agrees t.client := hh ▸ agrees_advance ha hs.agrees
  rcases ha.completes_or with hl | ⟨hstate, rfl⟩ | ⟨hstate, rfl⟩
  · exact hs.inert hh hx hl
  · refine ⟨hx, fun hq => ?_, fun hq => ?_⟩
    all_goals rw [hh] at hq ⊢
    · exact always_snoc.mpr ⟨hs.only (always_append_iff.mp hq).1, fun hon => absurd hon (by decide)⟩
    · refine (hs.always (always_append_iff.mp hq).1).append fun pre a post heq hP => hstate ?_
      have hpre : pre = [] := by
        rcases pre with _ | ⟨b, pre⟩
        · rfl
        · exact absurd heq (by simp)
      subst hpre
      rw [List.append_nil] at hP
      exact (completesDisconnect_iff hs.agrees hq).mp hP.2
  · refine ⟨hx, fun hq => ?_, fun hq => ?_⟩
    all_goals rw [hh] at hq ⊢
    · have hok : Always (fun before a => a.isOnDisconnect = true → JustCompleted before)
          (s.history ++ [.event (.sendComplete .ioSendOk)]) :=
        always_snoc.mpr ⟨hs.only (always_append_iff.mp hq).1, fun hon => absurd hon (by decide)⟩
      have hjust : JustCompleted (s.history ++ [.event (.sendComplete .ioSendOk)]) :=
        justCompleted_snoc.mpr ⟨rfl, (completesDisconnect_iff hs.agrees hq).mpr hstate⟩
      have hboth := always_snoc (a := .operation .onDisconnect).mpr ⟨hok, fun _ => hjust⟩
      rwa [List.append_assoc] at hboth
    · exact (hs.always (always_append_iff.mp hq).1).pair (fun hP => absurd hP.1 (by decide)) rfl

/-- Every open completes with `IO_OPEN_OK` when no socket is connected, and every packet is sent. -/
def OpensWell (h : List Action) : Prop :=
  Always (fun before a => (a.isOpen = true → a = .event (.openComplete .ioOpenOk) ∧ (account before).socketConnected = false) ∧
    a ≠ .sendReturns .muFailure) h

instance (h : List Action) : Decidable (OpensWell h) := inferInstanceAs (Decidable (Always _ _))

/-- A step makes a close pending when it delivers the event, or when an open or a send fails. -/
theorem Advance.pending_or {c c' : MqttClient} {h l : List Action} (ha : Advance c h c' l)
    (hpend : c'.mqttStatus.pendingClose = true) :
    c.mqttStatus.pendingClose = true ∨ (∃ a ∈ l, a.isOnDisconnect = true) ∨
      (∃ r rest, l = .event (.openComplete r) :: rest ∧ (r ≠ .ioOpenOk ∨ c.mqttStatus.socketConnected = true)) ∨
      h.getLast? = some (.sendReturns .muFailure) := by
  cases ha with
  | callback hl =>
    cases hl with
    | sent => exact Or.inr (Or.inl ⟨.operation .onDisconnect, by simp, rfl⟩)
    | openRefused r hr => exact Or.inr (Or.inr (Or.inl ⟨r, _, rfl, hr⟩))
    | connectFailed hfail => exact Or.inr (Or.inr (Or.inr hfail))
    | _ => exact Or.inl hpend
  | finishes result returned hf => cases hf <;> exact Or.inl hpend
  | pingFails result _ hf => cases hf <;> exact Or.inl hpend
  | call hl => cases hl <;> exact Or.inl hpend
  | sends own result hs => cases hs <;> exact Or.inl hpend
  | delivers packet flags headerData =>
    refine Or.inl ?_
    unfold MqttClient.told at hpend
    split at hpend
    · split at hpend <;> exact hpend
    · exact hpend
    · exact hpend
  | pendingDone => exact absurd hpend Bool.false_ne_true
  | _ => exact Or.inl hpend

/-- `MQTT_STATUS_PENDING_CLOSE` is not set, or it was set before, or the event has been delivered since. -/
def PendsWithEvent (s t : Session) : Prop :=
  ∃ l, t.history = s.history ++ l ∧
    (OpensWell t.history → t.client.mqttStatus.pendingClose = true →
      s.client.mqttStatus.pendingClose = true ∨ ∃ a ∈ l, a.isOnDisconnect = true)

theorem PendsWithEvent.refl (s : Session) : PendsWithEvent s s := ⟨[], (List.append_nil _).symm, fun _ hpend => Or.inl hpend⟩

theorem PendsWithEvent.step {s t u : Session} (h : PendsWithEvent s t) (hx : (account t.history).Agrees t.client)
    (hstep : AdvanceStep t u) : PendsWithEvent s u := by
  obtain ⟨l, hl, hpends⟩ := h
  obtain ⟨more, ha, hh⟩ := hstep
  refine ⟨l ++ more, by rw [hh, hl, List.append_assoc], ?_⟩
  intro hopens hpend
  rw [hh] at hopens
  have hbefore : t.client.mqttStatus.pendingClose = true →
      s.client.mqttStatus.pendingClose = true ∨ ∃ a ∈ l ++ more, a.isOnDisconnect = true := by
    intro hp
    exact (hpends (always_append_iff.mp hopens).1 hp).imp_right fun ⟨a, ha, hon⟩ => ⟨a, List.mem_append_left _ ha, hon⟩
  rcases ha.pending_or hpend with hp | ⟨a, ha, hon⟩ | ⟨r, rest, rfl, hfails⟩ | hlast
  · exact hbefore hp
  · exact Or.inr ⟨a, List.mem_append_right _ ha, hon⟩
  · -- an open that fails, or that finds a socket connected
    have hwell := (hopens t.history (.event (.openComplete r)) rest rfl).1 rfl
    rcases hfails with hr | hs
    · cases hwell.1
      exact absurd rfl hr
    · rw [hx.socketConnected, hwell.2] at hs
      exact absurd hs Bool.false_ne_true
  · -- a CONNECT that is not sent
    obtain ⟨pre, hpre⟩ := List.getLast?_eq_some_iff.mp hlast
    exact absurd rfl (hopens pre (.sendReturns .muFailure) more (by rw [hpre, List.append_assoc]; rfl)).2

/-- A call sets `MQTT_STATUS_PENDING_CLOSE` only with the event. -/
theorem pendsWithEvent_runCall (depth : Nat) (w : World) (call : Call) (hx : (account w.callContext.history).Agrees w.callContext.client) :
    PendsWithEvent w.callContext (runCall depth w call).callContext := by
  by_cases hends : EndsPending w call
  · rw [(pingRun_runCall depth w call).2 hends]
    exact ⟨disconnectedOf w.callContext.client, history_callDisconnectCb w.callContext, fun _ hpend => absurd hpend Bool.false_ne_true⟩
  · have hbegin : PendsWithEvent w.callContext (beginCall w.callContext call) := by
      rcases beginCall_cases w.callContext call with ⟨xioHandle, mqttOptions, rfl⟩ | hsame
      · exact ⟨[.connect xioHandle mqttOptions], rfl, fun _ hpend => Or.inl hpend⟩
      · rw [hsame]
        exact .refl _
    have hsteps := (advances_runCall depth hends).preserves
      (P := fun t => (account t.history).Agrees t.client ∧ PendsWithEvent w.callContext t)
      (fun t u hstep ht => by
        have hafter : (account u.history).Agrees u.client := by
          obtain ⟨l, ha, hh⟩ := hstep
          exact hh ▸ agrees_advance ha ht.1
        exact ⟨hafter, ht.2.step ht.1 hstep⟩)
      ⟨agrees_begin call hx, hbegin⟩
    exact hsteps.2

theorem disconnectInv_run (depth : Nat) (fnOnErrorCallBack : Bool) (env : Env) (heap : Heap) (calls : List Call) :
    DisconnectInv (run depth (mqttClientInit fnOnErrorCallBack env heap) calls).callContext := by
  have hbegin : ∀ (w : World) (call : Call), True → DisconnectInv w.callContext → DisconnectInv (beginCall w.callContext call) := by
    intro w call _ hw
    rcases beginCall_cases w.callContext call with ⟨xioHandle, mqttOptions, rfl⟩ | hsame
    · exact hw.inert (l := [.connect xioHandle mqttOptions]) rfl (agrees_begin _ hw.agrees)
        fun a ha => List.mem_singleton.mp ha ▸ ⟨rfl, rfl⟩
    · rw [hsame]
      exact hw
  have hends : ∀ (w : World) (call : Call), True → EndsPending w call → DisconnectInv w.callContext →
      DisconnectInv w.callContext.endPending := by
    intro w call _ _ hw
    refine hw.inert (history_callDisconnectCb w.callContext) (agrees_endPending hw.agrees) ?_
    intro a ha
    obtain ⟨b, -, rfl⟩ := List.mem_map.mp ha
    exact ⟨rfl, rfl⟩
  have hstart : DisconnectInv (mqttClientInit fnOnErrorCallBack env heap).callContext :=
    ⟨agrees_init fnOnErrorCallBack env heap, fun _ => always_nil, fun _ => followed_nil⟩
  exact run_advances disconnectInv_step hbegin hends (runMeets_of_forall fun _ _ => trivial) hstart

/-- In every run in which each packet that completes is a DISCONNECT if and only if one was asked for last, the event is the one of a
DISCONNECT that has just completed, the next call sets `MQTT_STATUS_PENDING_CLOSE` only with the event, and the event always sets it. -/
theorem event_of_disconnect (depth : Nat) (fnOnErrorCallBack : Bool) (env : Env) (heap : Heap) (calls : List Call)
    (h : CompletesAsAsked (run depth (mqttClientInit fnOnErrorCallBack env heap) calls).callContext.history) :
    EventOfDisconnect (run depth (mqttClientInit fnOnErrorCallBack env heap) calls).callContext.history ∧
      (∀ call, PendsWithEvent (run depth (mqttClientInit fnOnErrorCallBack env heap) calls).callContext
        (runCall depth (run depth (mqttClientInit fnOnErrorCallBack env heap) calls) call).callContext) ∧
      ∀ (dispatch : List IoEvent → Session → Session) (s : Session),
        (sendComplete dispatch s .ioSendOk).history.getLast? = some (.operation .onDisconnect) →
          (sendComplete dispatch s .ioSendOk).client.mqttStatus.pendingClose = true := by
  have hinv := disconnectInv_run depth fnOnErrorCallBack env heap calls
  refine ⟨⟨hinv.only h, hinv.always h, ?_⟩, fun call => pendsWithEvent_runCall depth _ call hinv.agrees, ?_⟩
  · have hcount := count_onDisconnect (hinv.only h)
    omega
  · intro dispatch s hlast
    unfold sendComplete at hlast ⊢
    dsimp only at hlast ⊢
    split
    · rfl
    · rename_i hstate
      rw [if_neg hstate] at hlast
      exact absurd hlast (by simp [Session.log])

/-- A connection on which a SUBSCRIBE is sent and completes, and then a DISCONNECT. -/
def subscribedAndEnded : List Call :=
  openedWith 1 0 ++ [.xio (.io (.sendComplete .ioSendOk)), .subscribe 5 [⟨letterA, .deliverAtLeastOnce⟩],
    .xio (.io (.sendComplete .ioSendOk)), .disconnect (some 7), .xio (.io (.sendComplete .ioSendOk)), .dowork []]

/-- A SUBSCRIBE completes before the DISCONNECT is sent, and the DISCONNECT after it. -/
theorem event_of_disconnect_subscribed :
    EventOfDisconnect (run 1 (mqttClientInit true calmEnv okHeap) subscribedAndEnded).callContext.history :=
  (event_of_disconnect 1 true calmEnv okHeap subscribedAndEnded (by decide +kernel)).1

/-- A connection on which the DISCONNECT is sent while a SUBSCRIBE is in flight; both complete, in this order. -/
def endedWhileSubscribing : List Call :=
  openedWith 1 0 ++ [.xio (.io (.sendComplete .ioSendOk)), .subscribe 5 [⟨letterA, .deliverAtLeastOnce⟩],
    .disconnect (some 7), .xio (.io (.sendComplete .ioSendOk)), .xio (.io (.sendComplete .ioSendOk))]

/-- The completion of the SUBSCRIBE delivers the event, and the one of the DISCONNECT delivers it again. -/
theorem not_eventOfDisconnect_subscribing :
    Orderly (run 1 (mqttClientInit true calmEnv okHeap) endedWhileSubscribing).callContext.history ∧
      ¬EventOfDisconnect (run 1 (mqttClientInit true calmEnv okHeap) endedWhileSubscribing).callContext.history := by
  refine ⟨by decide +kernel, ?_⟩
  intro h
  have hcount : ¬(run 1 (mqttClientInit true calmEnv okHeap) endedWhileSubscribing).callContext.history.countP Action.isOnDisconnect ≤
      (run 1 (mqttClientInit true calmEnv okHeap) endedWhileSubscribing).callContext.history.countP Action.isDisconnectSent := by
    decide +kernel
  exact hcount h.once

end Umqtt
