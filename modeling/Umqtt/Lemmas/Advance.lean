import Umqtt.Lemmas.CallRuns

/-!
# The client in small steps

The runs of `IoRun`, `CallRun` and `PingRun` are taken apart into single steps (`Advance`). What follows a call into the xio is a step
of its own, with what is known then: that the session has been told to close, or that a PINGREQ has been handed over. A statement about
all runs is checked on these steps, on the start of a connection and on the end of one that was to be closed (`run_advances`).
-/

namespace Umqtt

open Past Alloc

/-! ## The steps -/

/-- `xio_open` has failed or `xio_close` has been called since the latest `mqtt_client_connect`. -/
def Leaving (h : List Action) : Prop := Since (·.isConnect) (·.isClose) h ∨ Since (·.isConnect) (·.isFailedOpen) h

/-- What `mqtt_client_dowork` resets when a ping is not answered or not sent. -/
def MqttClient.resetPing (c : MqttClient) : MqttClient :=
  { c with timeSincePing := 0, packetSendTimeMs := 0, packetState := .unknownType }

/-- A step of the client, from a client and a history: the client after it, and the entries it adds. -/
inductive Advance (c : MqttClient) (h : List Action) : MqttClient → List Action → Prop
  | callback {c' : MqttClient} {l : List Action} : Local c h c' l → Advance c h c' l
  | fails (errorType : MqttClientEventError) : c.mqttStatus.socketConnected = true →
      Advance c h c (reportOf c errorType ++ [.xioClose c.xioHandle])
  | detach : Leaving h → Advance c h { c with xioHandle := none } []
  | opens (packet : Buffer) (result : MuResult) : c.mqttStatus.socketConnected = false →
      (mqttCodecConnect c.mqttOptions).Produces packet →
      Advance c h { c with packetState := .connectType, mqttStatus := { c.mqttStatus with socketConnected := true } }
        [.event (.openComplete .ioOpenOk), .connPacket (some packet), .xioSend c.xioHandle packet result]
  | finishes {c' : MqttClient} {l : List Action} (result returned : MuResult) : Finishes c result c' l returned → Advance c h c' l
  | reply (packet : Buffer) (t : ControlPacketType) (result : MuResult) : packet.packetType = some t → ReplyType t →
      Advance c h c [.xioSend c.xioHandle packet result]
  | packet (packet : ControlPacketType) (flags : UInt8) (headerData : Option Buffer) :
      Advance c h c [.packet packet flags headerData]
  | delivers (packet : ControlPacketType) (flags : UInt8) (headerData : Option Buffer) {x : Heard} {a : Action} :
      heard packet flags (bodyOf headerData) = some x → x.Says a → h.getLast? = some (.packet packet flags headerData) →
      Advance c h (c.told a) [a]
  | suback (flags : UInt8) (headerData : Option Buffer) (suback : SubscribeAck) (pre post : List Action) :
      h = pre ++ .packet .subackType flags headerData :: post → 2 ≤ (bodyOf headerData).length →
      (heard .subackType flags (bodyOf headerData) ≠ none → post = []) → Advance c h c [.operation (.onSubscribeAck suback)]
  | call {c' : MqttClient} {l : List Action} : CallLocal c c' l → Advance c h c' l
  | sends {c' : MqttClient} {l : List Action} {packet : Buffer} (own : List ControlPacketType) (result : MuResult) :
      CallSends own c c' l packet → Advance c h c' (l ++ [.xioSend c'.xioHandle packet result])
  | openFails (xioHandle : XioHandle) (result : MuResult) : result ≠ .zero → Advance c h c [.xioOpen xioHandle result]
  | disconnects (callback : Option DisconnectedCallback) : c.mqttStatus.clientConnected = false →
      c.mqttStatus.socketConnected = true →
      Advance c h { c with disconnectCb := callback } [.disconnect callback, .xioClose c.xioHandle]
  | closePending : c.mqttStatus.pendingClose = true → c.mqttStatus.socketConnected = true → Advance c h c [.xioClose c.xioHandle]
  | pendingDone : Advance c h { c with mqttStatus := { c.mqttStatus with pendingClose := false } } []
  | clock (currentMs : Option UInt64) : Advance c h c [.clock currentMs]
  | ping (packet : Buffer) (result : MuResult) : c.mqttStatus.clientConnected = true → packet.packetType = some .pingreqType →
      Advance c h c [.xioSend c.xioHandle packet result]
  | pingFails {c' : MqttClient} {l : List Action} (result : MuResult) :
      Since (·.sendsType .disconnectType) (·.sendsType .pingreqType) h → Finishes c result c' l .muFailure →
      Advance c h c'.resetPing l
  | pingSent (currentMs : UInt64) : Advance c h { c with timeSincePing := currentMs } []
  | noPingDone : Since (·.sendsType .disconnectType) (· = .setErrorCallback .noPingResponse) h → Advance c h c.resetPing []

/-- The session moves by such a step. -/
def AdvanceStep (s t : Session) : Prop := ∃ l, Advance s.client s.history t.client l ∧ t.history = s.history ++ l

/-- A step, as a run of steps. -/
theorem Advance.steps {s t : Session} {l : List Action} (h : Advance s.client s.history t.client l)
    (hh : t.history = s.history ++ l) : Steps AdvanceStep s t := .single ⟨l, h, hh⟩

/-! ## What the steps leave -/

/-- `fnOperationCallback` or `fnMessageRecv` is called. -/
def Action.isDelivery : Action → Bool
  | .operation _ | .messageRecv _ _ => true
  | _ => false

/-- `set_error_callback` is called. -/
def Action.isFatal : Action → Bool
  | .setErrorCallback _ => true
  | _ => false

/-- A send completes with `IO_SEND_OK`. -/
def Action.isSendOk (a : Action) : Bool := a = .event (.sendComplete .ioSendOk)

/-- An entry that neither delivers something nor completes a send. -/
def Action.Inert (a : Action) : Prop := a.isDelivery = false ∧ a.isSendOk = false

/-- What a packet says is delivered. -/
inductive PacketSays (h : List Action) : List Action → Prop
  | delivers (packet : ControlPacketType) (flags : UInt8) (headerData : Option Buffer) {x : Heard} {a : Action} :
      heard packet flags (bodyOf headerData) = some x → x.Says a → h.getLast? = some (.packet packet flags headerData) →
      PacketSays h [a]
  | suback (flags : UInt8) (headerData : Option Buffer) (suback : SubscribeAck) (pre post : List Action) :
      h = pre ++ .packet .subackType flags headerData :: post → 2 ≤ (bodyOf headerData).length →
      (heard .subackType flags (bodyOf headerData) ≠ none → post = []) → PacketSays h [.operation (.onSubscribeAck suback)]

theorem inert_of_finishes {c c' : MqttClient} {result returned : MuResult} {l : List Action} (h : Finishes c result c' l returned) :
    ∀ a ∈ l, a.Inert := by
  intro a ha
  rcases mem_finishes h ha with ⟨_, rfl⟩ | ⟨_, rfl⟩ <;> exact ⟨rfl, rfl⟩

theorem inert_of_callLocal {c c' : MqttClient} {l : List Action} (h : CallLocal c c' l) : ∀ a ∈ l, a.Inert := by
  intro a ha
  cases h with
  | options => exact absurd ha (by simp)
  | disconnectClosed =>
    rcases List.mem_cons.mp ha with rfl | ha
    · exact ⟨rfl, rfl⟩
    · obtain ⟨b, -, rfl⟩ := List.mem_map.mp ha
      exact ⟨rfl, rfl⟩
  | _ => exact List.mem_singleton.mp ha ▸ ⟨rfl, rfl⟩

/-- Only a callback completes a send, and only a callback and a packet deliver something. -/
theorem Advance.inert_or {c c' : MqttClient} {h l : List Action} (ha : Advance c h c' l) :
    (∀ a ∈ l, a.Inert) ∨ Local c h c' l ∨ PacketSays h l := by
  cases ha with
  | callback hl => exact Or.inr (Or.inl hl)
  | delivers packet flags headerData hx htold hlast => exact Or.inr (Or.inr (.delivers packet flags headerData hx htold hlast))
  | suback flags headerData suback pre post heq hlen hok =>
    exact Or.inr (Or.inr (.suback flags headerData suback pre post heq hlen hok))
  | call hl => exact Or.inl (inert_of_callLocal hl)
  | finishes result returned hf => exact Or.inl (inert_of_finishes hf)
  | pingFails result _ hf => exact Or.inl (inert_of_finishes hf)
  | detach | pendingDone | pingSent | noPingDone => exact Or.inl fun a ha => absurd ha (by simp)
  | reply | packet | openFails | closePending | clock | ping => exact Or.inl fun a ha => List.mem_singleton.mp ha ▸ ⟨rfl, rfl⟩
  | fails e =>
    refine Or.inl ?_
    intro a ha
    rcases List.mem_append.mp ha with ha | ha
    · rcases mem_reportOf ha with rfl | rfl <;> exact ⟨rfl, rfl⟩
    · exact List.mem_singleton.mp ha ▸ ⟨rfl, rfl⟩
  | opens =>
    refine Or.inl ?_
    intro a ha
    simp only [List.mem_cons, List.not_mem_nil, or_false] at ha
    rcases ha with rfl | rfl | rfl <;> exact ⟨rfl, rfl⟩
  | disconnects =>
    refine Or.inl ?_
    intro a ha
    simp only [List.mem_cons, List.not_mem_nil, or_false] at ha
    rcases ha with rfl | rfl <;> exact ⟨rfl, rfl⟩
  | sends own result hs =>
    refine Or.inl ?_
    intro a ha
    cases hs with
    | request => exact List.mem_singleton.mp ha ▸ ⟨rfl, rfl⟩
    | disconnect =>
      simp only [List.singleton_append, List.mem_cons, List.not_mem_nil, or_false] at ha
      rcases ha with rfl | rfl <;> exact ⟨rfl, rfl⟩

/-! ## Runs are steps -/

theorem Action.OfCallback.not_sendsType {a : Action} (h : a.OfCallback) : ¬a.sendsType .disconnectType = true := by
  cases a with
  | xioSend x p r => simpa [sendsType] using h.2
  | _ => exact Bool.false_ne_true

/-- After `xio_close` and a run of callbacks, the xio is being left. -/
theorem leaving_of_close {s t : Session} {x : Option XioHandle} {l : List Action} (hs : s.history = l ++ [.xioClose x])
    (h : IoRun s t) : Leaving t.history := by
  obtain ⟨more, hh, hmore⟩ := added_ioRun h
  have hclose : Since (·.isConnect) (·.isClose) (l ++ [.xioClose x]) := since_snoc_event rfl
  rw [hh, hs]
  exact Or.inl (hclose.append fun a ha => (hmore a ha).ofCallback.not_connect)

theorem advances_detached {s : Session} (h : Leaving s.history) : Steps AdvanceStep s s.detached :=
  Advance.steps (t := s.detached) (.detach h) (List.append_nil _).symm

theorem advances_fails {s : Session} (e : MqttClientEventError) (h : s.client.mqttStatus.socketConnected = true) :
    Steps AdvanceStep s (s.failing e) := by
  refine Advance.steps (l := reportOf s.client e ++ [.xioClose s.client.xioHandle]) ?_ (history_failing s e)
  rw [client_failing]
  exact .fails e h

/-- What `set_error_callback` does on a socket that is connected, once it has called `xio_close`. -/
theorem leaving_failing {s t : Session} {e : MqttClientEventError} (h : IoRun (s.failing e) t) : Leaving t.history := by
  refine leaving_of_close (x := s.client.xioHandle) (l := s.history ++ reportOf s.client e) ?_ h
  rw [history_failing, List.append_assoc]

theorem advances_finishSend (s : Session) (result : MuResult) : Steps AdvanceStep s (finishSend s result).1 := by
  obtain ⟨l, hf, hh⟩ := finishes s result
  exact Advance.steps (.finishes result _ hf) hh

theorem advances_ioRun {s t : Session} (h : IoRun s t) : Steps AdvanceStep s t := by
  induction h with
  | refl => exact .refl
  | trans _ _ ih ih' => exact ih.trans ih'
  | direct hl hh _ => exact Advance.steps (.callback hl) hh
  | fail e _ hs hrun ih => exact ((advances_fails e hs).trans ih).trans (advances_detached (leaving_failing hrun))
  | @connect s u t packet hs hp hc hh _ _ ih =>
    have hopen : Steps AdvanceStep s (u.handOver packet) := by
      refine Advance.steps
        (l := [.event (.openComplete .ioOpenOk), .connPacket (some packet), .xioSend s.client.xioHandle packet u.env.send.head]) ?_ ?_
      · change Advance s.client s.history u.client _
        rw [hc]
        exact .opens packet _ hs hp
      · rw [Session.handOver, Session.log, hh, hc]
        simp
    exact (hopen.trans ih).trans (advances_finishSend t _)

/-- A packet that is handed over, with what is called back, and the rest of `sendPacketItem`. -/
theorem advances_send {s t : Session} {packet : Buffer} (h : IoRun (s.handOver packet) t)
    (hstep : Advance s.client s.history s.client [.xioSend s.client.xioHandle packet s.env.send.head]) :
    Steps AdvanceStep s (finishSend t s.env.send.head).1 := by
  have hhand : Steps AdvanceStep s (s.handOver packet) := Advance.steps (t := s.handOver packet) hstep rfl
  exact (hhand.trans (advances_ioRun h)).trans (advances_finishSend t _)

theorem advances_replyRun {types : List ControlPacketType} {s t : Session} (h : ReplyRun types s t) : Steps AdvanceStep s t := by
  induction h with
  | io hrun => exact advances_ioRun hrun
  | trans _ _ ih ih' => exact ih.trans ih'
  | send hp ht _ hrun => exact advances_send hrun (.reply _ _ _ hp ht)

theorem advances_packet {s t : Session} {packet : ControlPacketType} {flags : UInt8} {headerData : Option Buffer}
    (h : Serves packet flags (bodyOf headerData) (s.log (.packet packet flags headerData)) t) : Steps AdvanceStep s t := by
  have hentry : Steps AdvanceStep s (s.log (.packet packet flags headerData)) :=
    Advance.steps (t := s.log (.packet packet flags headerData)) (.packet packet flags headerData) rfl
  refine hentry.trans ?_
  cases h with
  | silent _ hrun => exact advances_ioRun hrun
  | @delivers u _ x a hx ha hc hh _ hrun =>
    refine Relation.ReflTransGen.trans ?_ (advances_replyRun hrun)
    refine Advance.steps (t := u) (l := [a]) ?_ hh
    rw [hc]
    exact .delivers packet flags headerData hx ha (getLast?_log s _)
  | @suback t suback hp hlen hrun hok =>
    subst hp
    obtain ⟨l, hh, -⟩ := added_ioRun hrun
    refine (advances_ioRun hrun).trans ?_
    refine Advance.steps (t := t.log (.operation (.onSubscribeAck suback))) ?_ rfl
    refine .suback flags headerData suback s.history l ?_ hlen ?_
    · rw [hh, Session.log, List.append_assoc]
      rfl
    · intro hheard
      have hsame := (hok hheard).2
      rw [hh] at hsame
      exact List.append_right_eq_self.mp hsame

theorem advances_callRun {own : List ControlPacketType} {s t : Session} (h : CallRun own s t) : Steps AdvanceStep s t := by
  induction h with
  | io hrun => exact advances_ioRun hrun
  | trans _ _ ih ih' => exact ih.trans ih'
  | direct hl hh _ => exact Advance.steps (.call hl) hh
  | reply hrun => exact advances_replyRun hrun
  | packet packet flags headerData hserves => exact advances_packet hserves
  | @send s u t l packet hs hh _ hrun =>
    have hhand : Steps AdvanceStep s (u.handOver packet) := by
      refine Advance.steps (t := u.handOver packet) (.sends own u.env.send.head hs) ?_
      rw [Session.handOver, Session.log, hh, List.append_assoc]
    exact (hhand.trans (advances_ioRun hrun)).trans (advances_finishSend t _)
  | @openFails s u t x r hr hc hh _ hrun =>
    have hopen : Steps AdvanceStep s u := Advance.steps (hc ▸ .openFails x r hr) hh
    obtain ⟨more, hh', hmore⟩ := added_ioRun hrun
    have hleave : Leaving t.history := by
      rw [hh', hh]
      refine Or.inr ((since_snoc_event ?_).append fun a ha => (hmore a ha).ofCallback.not_connect)
      exact decide_eq_true hr
    exact (hopen.trans (advances_ioRun hrun)).trans (advances_detached hleave)
  | @disconnect s t callback hc hs hrun =>
    have hclose : Steps AdvanceStep s ((s.disconnecting callback).log (.xioClose s.client.xioHandle)) := by
      refine Advance.steps (l := [.disconnect callback, .xioClose s.client.xioHandle]) (.disconnects callback hc hs) ?_
      simp [Session.disconnecting, Session.log]
    exact (hclose.trans (advances_ioRun hrun)).trans (advances_detached (leaving_of_close rfl hrun))
  | @closePending s t hpend hs hrun =>
    have hclose : Steps AdvanceStep s (s.log (.xioClose s.client.xioHandle)) :=
      Advance.steps (t := s.log (.xioClose s.client.xioHandle)) (.closePending hpend hs) rfl
    have hdone : Steps AdvanceStep t.detached (t.detached.setStatus fun status => { status with pendingClose := false }) :=
      Advance.steps (t := t.detached.setStatus fun status => { status with pendingClose := false }) .pendingDone
        (List.append_nil _).symm
    exact ((hclose.trans (advances_ioRun hrun)).trans (advances_detached (leaving_of_close rfl hrun))).trans hdone

theorem advances_pingRun {own : List ControlPacketType} {s t : Session} (h : PingRun own s t) : Steps AdvanceStep s t := by
  induction h with
  | call hrun => exact advances_callRun hrun
  | trans _ _ ih ih' => exact ih.trans ih'
  | clock s => exact Advance.steps (t := s.askClock.2) (.clock s.env.clock.head) rfl
  | @noPing s t hs hrun =>
    obtain ⟨more, hh, hmore⟩ := added_ioRun hrun
    have hfail : Since (·.sendsType .disconnectType) (· = .setErrorCallback .noPingResponse) (s.failing .noPingResponse).history := by
      refine ⟨s.history, .setErrorCallback .noPingResponse, onErrorOf s.client .noPingResponse ++ [.xioClose s.client.xioHandle], ?_, rfl, ?_⟩
      · rw [history_failing]
        rfl
      · intro a ha
        rcases List.mem_append.mp ha with ha | ha
        · rw [mem_onErrorOf ha]
          exact Bool.false_ne_true
        · rw [List.mem_singleton.mp ha]
          exact Bool.false_ne_true
    have hsince : Since (·.sendsType .disconnectType) (· = .setErrorCallback .noPingResponse) t.history := by
      rw [hh]
      exact hfail.append fun a ha => (hmore a ha).ofCallback.not_sendsType
    have hreset : Steps AdvanceStep t.detached (resetPing t.detached) :=
      Advance.steps (t := resetPing t.detached) (.noPingDone hsince) (List.append_nil _).symm
    exact (((advances_fails .noPingResponse hs).trans (advances_ioRun hrun)).trans (advances_detached (leaving_failing hrun))).trans hreset
  | ping hc hp hrun => exact advances_send hrun (.ping _ _ hc hp)
  | @pingFails s t packet hc hp hrun hfail =>
    have hhand : Steps AdvanceStep s (s.handOver packet) := Advance.steps (t := s.handOver packet) (.ping packet _ hc hp) rfl
    obtain ⟨more, hh, hmore⟩ := added_ioRun hrun
    have hsince : Since (·.sendsType .disconnectType) (·.sendsType .pingreqType) t.history := by
      have hping : Since (·.sendsType .disconnectType) (·.sendsType .pingreqType) (s.handOver packet).history :=
        since_snoc_event (decide_eq_true hp)
      rw [hh]
      exact hping.append fun a ha => (hmore a ha).ofCallback.not_sendsType
    obtain ⟨l, hf, hh'⟩ := finishes t s.env.send.head
    have hreturned : (finishSend t s.env.send.head).2 = .muFailure := by
      generalize (finishSend t s.env.send.head).2 = r at hfail
      cases r with
      | zero => exact absurd rfl hfail
      | muFailure => rfl
    rw [hreturned] at hf
    have hreset : Steps AdvanceStep t (resetPing (finishSend t s.env.send.head).1) :=
      Advance.steps (t := resetPing (finishSend t s.env.send.head).1) (.pingFails _ hsince hf) hh'
    exact (hhand.trans (advances_ioRun hrun)).trans hreset
  | pingSent s currentMs =>
    exact Advance.steps (t := { s with client := { s.client with timeSincePing := currentMs } }) (.pingSent currentMs)
      (List.append_nil _).symm

/-! ## Runs -/

/-- Every call is such steps after the first thing it does, unless it ends a connection that was to be closed. -/
theorem advances_runCall (depth : Nat) {w : World} {call : Call} (h : ¬EndsPending w call) :
    Steps AdvanceStep (beginCall w.callContext call) (runCall depth w call).callContext :=
  advances_pingRun ((pingRun_runCall depth w call).1 h)

/-- What the steps preserve, what the first thing that a call does preserves, and what the end of a connection that was to be closed
preserves, both in a world that meets the condition, a run whose calls meet the condition preserves. -/
theorem run_advances {I : Session → Prop} {P : World → Call → Prop} (hstep : ∀ s t, AdvanceStep s t → I s → I t)
    (hbegin : ∀ w call, P w call → I w.callContext → I (beginCall w.callContext call))
    (hends : ∀ w call, P w call → EndsPending w call → I w.callContext → I w.callContext.endPending) {depth : Nat} {w : World}
    {calls : List Call} (h : RunMeets P depth w calls) (hw : I w.callContext) : I (run depth w calls).callContext := by
  induction calls generalizing w with
  | nil => exact hw
  | cons call calls ih =>
    obtain ⟨hP, hrest⟩ := h
    refine ih hrest ?_
    by_cases hpend : EndsPending w call
    · rw [(pingRun_runCall depth w call).2 hpend]
      exact hends w call hP hpend hw
    · exact (advances_runCall depth hpend).preserves hstep (hbegin w call hP hw)

end Umqtt
