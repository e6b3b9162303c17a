import Umqtt.Theorems.Connected

/-!
# A new connection after an old one

`MQTT_STATUS_PENDING_CLOSE` and `MQTT_STATUS_SOCKET_CONNECTED` are bits of the client, not of a connection. A connection that is
begun when neither is left over, or when the close completion of the previous xio still comes before the new xio is open, hands one
CONNECT to `xio_send` and is not closed, as long as nothing on it fails.
-/

namespace Umqtt

open Past

/-! ## What a connection is promised, and what it then does -/

/-- The xio reports that it is open, or that it could not be opened. -/
def Action.isOpen : Action → Bool
  | .event (.openComplete _) => true
  | _ => false

/-- Nothing fails by this call of a callback. -/
def IoEvent.succeeds : IoEvent → Bool
  | .openComplete openResult => openResult = .ioOpenOk
  | .sendComplete sendResult => sendResult ≠ .ioSendError
  | .ioError => false
  | .closeComplete => true

/-- Nothing fails by this entry, and the application does not disconnect. -/
def Action.succeeds : Action → Bool
  | .connectReturns result | .xioOpen _ result | .xioSend _ _ result | .sendReturns result => result = .zero
  | .clock currentMs => currentMs.isSome
  | .connPacket p => p.isSome
  | .event e => e.succeeds
  | .setErrorCallback _ | .disconnect _ => false
  | _ => true

/-- The connect returns 0, its xio is opened once, with `IO_OPEN_OK`, the CONNECT packet can be built, all sends, clock reads and
parsing succeed, no ping times out and `mqtt_client_disconnect` is not called. -/
structure Undisturbed (added : List Action) : Prop where
  succeeds : ∀ a ∈ added, a.succeeds = true
  opens : added.filter Action.isOpen = [.event (.openComplete .ioOpenOk)]

/-- Exactly one CONNECT is handed to `xio_send`, on the new xio unless the application has taken it away, and no xio is closed. -/
structure ConnectsOnce (xioHandle : XioHandle) (added : List Action) : Prop where
  connect : ∃ h p, added.filter (Action.sendsType .connectType) = [.xioSend h p .zero] ∧ (.clearXio ∉ added → h = some xioHandle)
  noClose : ∀ h, .xioClose h ∉ added

/-- Every open completion comes after a close completion. -/
def ClosedBeforeOpen (added : List Action) : Prop := Always (fun pre a => a.isOpen = true → .event .closeComplete ∈ pre) added

instance (added : List Action) : Decidable (ClosedBeforeOpen added) := inferInstanceAs (Decidable (Always _ added))

/-- No bit is left over: no close is pending, and no socket counts as connected, or it does until the close completion comes, which
comes first. -/
def NoLeftoverBits (status : MqttStatus) (added : List Action) : Prop :=
  status.pendingClose = false ∧ (status.socketConnected = true → ClosedBeforeOpen added)

/-! ## The invariant -/

/-- What the log of a connection promises at any time. -/
structure Promise (leftover : Bool) (log : List Action) : Prop where
  succeeds : ∀ a ∈ log, a.succeeds = true
  opens : (log.filter Action.isOpen).length ≤ 1
  closed : leftover = true → ClosedBeforeOpen log

theorem Promise.of_append {leftover : Bool} {log more : List Action} (h : Promise leftover (log ++ more)) : Promise leftover log where
  succeeds := fun a ha => h.succeeds a (List.mem_append_left _ ha)
  opens := by
    have := h.opens
    rw [List.filter_append, List.length_append] at this
    omega
  closed := fun hl => (always_append_iff.mp (h.closed hl)).1

/-- An open completion is the first one. -/
theorem Promise.first_open {leftover : Bool} {log more : List Action} {r : IoOpenResult}
    (h : Promise leftover (log ++ .event (.openComplete r) :: more)) : log.filter Action.isOpen = [] := by
  have hopens := h.opens
  rw [List.filter_append, List.length_append, List.filter_cons_of_pos (show Action.isOpen (.event (.openComplete r)) = true from rfl),
    List.length_cons] at hopens
  exact List.length_eq_zero_iff.mp (by omega)

/-- Where a connection is that keeps to its course: `leftover` is whether a socket counted as connected when it was begun. -/
structure OnCourse (xioHandle : XioHandle) (leftover : Bool) (c : MqttClient) (log : List Action) : Prop where
  pendingClose : c.mqttStatus.pendingClose = false
  packetState : c.packetState ≠ .disconnectType
  noClose : ∀ a ∈ log, a.isClose = false
  handle : .clearXio ∉ log → c.xioHandle = some xioHandle
  waiting : log.filter Action.isOpen = [] → log.filter (Action.sendsType .connectType) = [] ∧
    (c.mqttStatus.socketConnected = true → leftover = true ∧ .event .closeComplete ∉ log)
  opened : log.filter Action.isOpen ≠ [] →
    ∃ h p, log.filter (Action.sendsType .connectType) = [.xioSend h p .zero] ∧ (.clearXio ∉ log → h = some xioHandle)

/-- An entry that neither opens nor closes and sends no CONNECT. -/
def Action.Neutral (a : Action) : Prop := a.isOpen = false ∧ a.sendsType .connectType = false ∧ a.isClose = false

section

variable {xioHandle : XioHandle} {leftover : Bool} {c c' : MqttClient} {log more : List Action}

/-- Neutral entries keep to the course, when no close becomes pending and no socket connected. -/
theorem OnCourse.append (h : OnCourse xioHandle leftover c log) (hn : ∀ a ∈ more, a.Neutral)
    (hpending : c'.mqttStatus.pendingClose = false) (hstate : c'.packetState ≠ .disconnectType)
    (hsocket : c'.mqttStatus.socketConnected = true → c.mqttStatus.socketConnected = true ∧ .event .closeComplete ∉ more)
    (hhandle : .clearXio ∉ more → c'.xioHandle = c.xioHandle) : OnCourse xioHandle leftover c' (log ++ more) := by
  have hopens : (log ++ more).filter Action.isOpen = log.filter Action.isOpen := by
    have hnil : more.filter Action.isOpen = [] := List.filter_eq_nil_iff.mpr fun a ha => by simp [(hn a ha).1]
    rw [List.filter_append, hnil, List.append_nil]
  have hsends : (log ++ more).filter (Action.sendsType .connectType) = log.filter (Action.sendsType .connectType) := by
    have hnil : more.filter (Action.sendsType .connectType) = [] :=
      List.filter_eq_nil_iff.mpr fun a ha => by simp [(hn a ha).2.1]
    rw [List.filter_append, hnil, List.append_nil]
  refine ⟨hpending, hstate, ?_, ?_, ?_, ?_⟩
  · intro a ha
    rcases List.mem_append.mp ha with ha | ha
    · exact h.noClose a ha
    · exact (hn a ha).2.2
  · intro hc
    rw [List.mem_append, not_or] at hc
    rw [hhandle hc.2, h.handle hc.1]
  · intro ho
    rw [hopens] at ho
    rw [hsends]
    refine ⟨(h.waiting ho).1, ?_⟩
    intro hs
    obtain ⟨hl, hclose⟩ := (h.waiting ho).2 (hsocket hs).1
    exact ⟨hl, by simp [hclose, (hsocket hs).2]⟩
  · intro ho
    rw [hopens] at ho
    rw [hsends]
    obtain ⟨x, p, hx, hcl⟩ := h.opened ho
    exact ⟨x, p, hx, fun hc => hcl fun hin => hc (List.mem_append_left _ hin)⟩

/-- Entries that change nothing that matters. -/
theorem OnCourse.same (h : OnCourse xioHandle leftover c log) (hn : ∀ a ∈ more, a.Neutral) (hclosed : .event .closeComplete ∉ more)
    (hstatus : c'.mqttStatus = c.mqttStatus) (hstate : c'.packetState ≠ .disconnectType) (hhandle : c'.xioHandle = c.xioHandle) :
    OnCourse xioHandle leftover c' (log ++ more) :=
  h.append hn (hstatus ▸ h.pendingClose) hstate (fun hs => ⟨hstatus ▸ hs, hclosed⟩) fun _ => hhandle

/-! ## The entries of a step -/

/-- Why a close is called, seen from a connection that keeps to its course: something has failed on it. -/
theorem failed_of_closeReason {before : List Action} {x : XioHandle} {o : MqttClientOptions} (hc : c.mqttStatus.pendingClose = false)
    (hreason : CloseReason c (before ++ .connect x o :: log)) : ∃ a ∈ .connect x o :: log, a.succeeds = false := by
  have hlast : ∀ a : Action, (before ++ .connect x o :: log).getLast? = some a → a ∈ .connect x o :: log := by
    intro a ha
    rw [List.getLast?_append_of_ne_nil _ (by simp)] at ha
    exact List.mem_of_getLast? ha
  rcases hreason with hpend | ⟨pre, e, heq⟩ | ⟨pre, callback, heq⟩
  · exact absurd (hc.symm.trans hpend) Bool.false_ne_true
  · refine ⟨.setErrorCallback e, ?_, rfl⟩
    rcases List.append_eq_append_iff.mp heq with ⟨rest, -, h⟩ | ⟨rest, -, h⟩
    · rw [h, reportOf]
      simp
    · -- the connect would be an entry of the report
      have hin : Action.connect x o ∈ reportOf c e := by
        rw [h]
        simp
      rw [reportOf, onErrorOf] at hin
      split at hin <;> simp at hin
  · refine ⟨.disconnect callback, hlast _ ?_, rfl⟩
    rw [heq, List.getLast?_concat]

theorem neutral_disconnectedOf : ∀ a ∈ disconnectedOf c, a.Neutral := by
  rw [disconnectedOf]
  rcases c.disconnectCb <;> simp [Action.Neutral, Action.isOpen, Action.sendsType, Action.isClose]

theorem neutral_of_free {a : Action} (h : a.Free) : a.Neutral := by
  cases a with
  | xioSend => exact absurd h id
  | xioClose => exact absurd h id
  | event e =>
    cases e with
    | openComplete => exact absurd h id
    | _ => exact ⟨rfl, rfl, rfl⟩
  | _ => exact ⟨rfl, rfl, rfl⟩

theorem neutral_of_arrival {a : Action} (h : a.Arrival) : a.Neutral := by
  cases a with
  | bytesReceived => exact ⟨rfl, rfl, rfl⟩
  | packet => exact ⟨rfl, rfl, rfl⟩
  | _ => exact absurd h id

theorem neutral_xioSend {h : Option XioHandle} {p : Buffer} {r : MuResult} {t : ControlPacketType} (hp : p.packetType = some t)
    (ht : t ≠ .connectType) : (Action.xioSend h p r).Neutral := by
  refine ⟨rfl, ?_, rfl⟩
  simp [Action.sendsType, hp, ht]

/-- The open of the new xio hands over the CONNECT. -/
theorem OnCourse.open (h : OnCourse xioHandle leftover c log) {packet : Buffer} {result : MuResult}
    (hp : packet.packetType = some .connectType)
    (hpromise : Promise leftover (log ++
      [.event (.openComplete .ioOpenOk), .connPacket (some packet), .xioSend c.xioHandle packet result])) :
    OnCourse xioHandle leftover
      { c with packetState := .connectType, mqttStatus := { c.mqttStatus with socketConnected := true } }
      (log ++ [.event (.openComplete .ioOpenOk), .connPacket (some packet), .xioSend c.xioHandle packet result]) := by
  have hfirst := hpromise.first_open
  have hresult : result = .zero := by
    simpa [Action.succeeds, IoEvent.succeeds] using hpromise.succeeds (.xioSend c.xioHandle packet result) (by simp)
  refine ⟨h.pendingClose, by simp, ?_, ?_, ?_, ?_⟩
  · intro a ha
    rcases List.mem_append.mp ha with ha | ha
    · exact h.noClose a ha
    · simp only [List.mem_cons, List.not_mem_nil, or_false] at ha
      rcases ha with rfl | rfl | rfl <;> rfl
  · intro hc
    exact h.handle fun hin => hc (List.mem_append_left _ hin)
  · intro ho
    simp [Action.isOpen] at ho
  · intro _
    refine ⟨c.xioHandle, packet, ?_, fun hc => h.handle fun hin => hc (List.mem_append_left _ hin)⟩
    rw [List.filter_append, (h.waiting hfirst).1, hresult]
    simp [Action.sendsType, hp]

/-- A step of a callback keeps to the course. -/
theorem OnCourse.inner {before : List Action} {x : XioHandle} {o : MqttClientOptions}
    (h : OnCourse xioHandle leftover c (.connect x o :: log)) (hi : Inner c (before ++ .connect x o :: log) c' more)
    (hpromise : Promise leftover ((.connect x o :: log) ++ more)) :
    OnCourse xioHandle leftover c' ((.connect x o :: log) ++ more) := by
  have hlog := hpromise.of_append.succeeds
  have hmore : ∀ a ∈ more, a.succeeds = true := fun a ha => hpromise.succeeds a (List.mem_append_right _ ha)
  have hno : ∀ a ∈ Action.connect x o :: log, a.succeeds ≠ false := fun a ha => by rw [hlog a ha]; simp
  have hlast : ∀ a : Action, (before ++ .connect x o :: log).getLast? = some a → a.succeeds ≠ false := by
    intro a ha
    rw [List.getLast?_append_of_ne_nil _ (by simp)] at ha
    exact hno a (List.mem_of_getLast? ha)
  have hnil : ∀ a ∈ ([] : List Action), a.Neutral := fun a ha => absurd ha (by simp)
  cases hi with
  | idle | stamp | pingAnswered => exact h.same hnil (by simp) rfl h.packetState rfl
  | note a ha =>
    refine h.same (fun b hb => List.mem_singleton.mp hb ▸ neutral_of_free ha) (fun hc => ?_) rfl h.packetState rfl
    exact absurd ha (List.mem_singleton.mp hc ▸ id)
  | send packet t result hp ht =>
    exact h.same (fun b hb => List.mem_singleton.mp hb ▸ neutral_xioSend hp ht.1) (by simp) rfl h.packetState rfl
  | accepted =>
    refine h.append (fun b hb => List.mem_singleton.mp hb ▸ ⟨rfl, rfl, rfl⟩) h.pendingClose h.packetState ?_ fun _ => rfl
    exact fun hs => ⟨hs, by simp⟩
  | sent hstate => exact absurd hstate h.packetState
  | openNoPacket => exact absurd (hmore (.connPacket none) (by simp)) (by simp [Action.succeeds])
  | openPacket packet result _ hbuilt =>
    exact h.open ((packetType_mqttCodecConnect c.mqttOptions).of_produces hbuilt) hpromise
  | openRefused r hr =>
    -- the open completes with `IO_OPEN_OK`, so a socket is left over; but its close has completed
    exfalso
    have hok : r = .ioOpenOk := by simpa [Action.succeeds, IoEvent.succeeds] using hmore (.event (.openComplete r)) List.mem_cons_self
    have hsocket := hr.resolve_left (not_not_intro hok)
    obtain ⟨hleft, hclosed⟩ := (h.waiting hpromise.first_open).2 hsocket
    exact hclosed (hpromise.closed hleft _ _ _ rfl rfl)
  | connectFailed hfail => exact absurd rfl (hlast _ hfail)
  | closed =>
    refine h.append (fun b hb => ?_) h.pendingClose h.packetState (fun hs => absurd hs Bool.false_ne_true) fun _ => rfl
    rcases List.mem_cons.mp hb with rfl | hb
    · exact ⟨rfl, rfl, rfl⟩
    · exact neutral_disconnectedOf b hb
  | report e => exact absurd (hmore (.setErrorCallback e) (by simp [reportOf])) (by simp [Action.succeeds])
  | close hreason =>
    obtain ⟨a, ha, hfail⟩ := failed_of_closeReason h.pendingClose hreason
    exact absurd hfail (hno a ha)
  | notOpen hreason =>
    obtain ⟨a, ha, hfail⟩ := failed_of_closeReason h.pendingClose hreason
    exact absurd hfail (hno a ha)
  | detach hsince =>
    obtain ⟨a, ha, hclose⟩ := hsince.after_mark rfl
    exact absurd hclose (by simp [h.noClose a ha])

/-- A step of a function keeps to the course. -/
theorem OnCourse.outer {before : List Action} {x : XioHandle} {o : MqttClientOptions}
    (h : OnCourse xioHandle leftover c (.connect x o :: log)) (ho : Outer c (before ++ .connect x o :: log) c' more)
    (hpromise : Promise leftover ((.connect x o :: log) ++ more)) :
    OnCourse xioHandle leftover c' ((.connect x o :: log) ++ more) := by
  have hlog := hpromise.of_append.succeeds
  have hlast : ∀ a : Action, (before ++ .connect x o :: log).getLast? = some a → a.succeeds = true := by
    intro a ha
    rw [List.getLast?_append_of_ne_nil _ (by simp)] at ha
    exact hlog a (List.mem_of_getLast? ha)
  have hnil : ∀ a ∈ ([] : List Action), a.Neutral := fun a ha => absurd ha (by simp)
  cases ho with
  | openFailed hsince =>
    obtain ⟨a, ha, hfail⟩ := hsince.after_mark rfl
    cases a <;> simp [Action.isFailedOpen] at hfail
    exact absurd (hlog _ ha) (by simp [Action.succeeds, hfail])
  | clear =>
    refine h.append (fun b hb => List.mem_singleton.mp hb ▸ ⟨rfl, rfl, rfl⟩) h.pendingClose h.packetState ?_ (by simp)
    exact fun hs => ⟨hs, by simp⟩
  | request t ht =>
    refine h.same hnil (by simp) rfl ?_ rfl
    rintro rfl
    exact absurd ht (by decide)
  | disconnect callback => exact absurd (hpromise.succeeds (.disconnect callback) (by simp)) (by simp [Action.succeeds])
  | disconnectNoPacket => exact h.same hnil (by simp) rfl (by simp) rfl
  | disconnectPacket callback packet result hcall => exact absurd (hlast _ hcall) (by simp [Action.succeeds])
  | disconnectPlain callback hcall => exact absurd (hlast _ hcall) (by simp [Action.succeeds])
  | ping packet result _ hp =>
    exact h.same (fun b hb => List.mem_singleton.mp hb ▸ neutral_xioSend hp (by simp)) (by simp) rfl h.packetState rfl
  | pingSent => exact h.same hnil (by simp) rfl h.packetState rfl
  | pingReset => exact h.same hnil (by simp) rfl (by simp) rfl
  | pendingDone => exact h.append hnil rfl h.packetState (fun hs => ⟨hs, by simp⟩) fun _ => rfl

end

/-! ## Runs -/

/-- The session is in the connection that `mqtt_client_connect` began after the history `before`, and keeps to its course as long as
its log keeps the promise. -/
def KeepsCourse (before : List Action) (xioHandle : XioHandle) (mqttOptions : MqttClientOptions) (leftover : Bool) (s : Session) :
    Prop :=
  ∃ log, s.history = before ++ .connect xioHandle mqttOptions :: log ∧
    (Promise leftover (.connect xioHandle mqttOptions :: log) →
      OnCourse xioHandle leftover s.client (.connect xioHandle mqttOptions :: log))

theorem keepsCourse_step {before : List Action} {xioHandle : XioHandle} {mqttOptions : MqttClientOptions} {leftover : Bool}
    (s t : Session) (hst : RunStep s t) (hs : KeepsCourse before xioHandle mqttOptions leftover s) :
    KeepsCourse before xioHandle mqttOptions leftover t := by
  obtain ⟨log, hhist, hcourse⟩ := hs
  have hadd : ∀ more, t.history = s.history ++ more →
      (Promise leftover ((.connect xioHandle mqttOptions :: log) ++ more) →
        OnCourse xioHandle leftover t.client ((.connect xioHandle mqttOptions :: log) ++ more)) →
      KeepsCourse before xioHandle mqttOptions leftover t := by
    intro more hh h
    exact ⟨log ++ more, by rw [hh, hhist, List.append_assoc, List.cons_append], h⟩
  rcases hst with ((⟨more, hi | ho, hh⟩ | ⟨stored, hc, hh⟩) | ⟨a, ha, hc, hh⟩)
  · exact hadd more hh fun hp => (hcourse hp.of_append).inner (hhist ▸ hi) hp
  · exact hadd more hh fun hp => (hcourse hp.of_append).outer (hhist ▸ ho) hp
  · refine hadd [] (by rw [hh, List.append_nil]) ?_
    intro hp
    have h := hcourse hp.of_append
    exact h.same (by simp) (by simp) (by rw [hc]) (by rw [hc]; exact h.packetState) (by rw [hc])
  · refine hadd [a] hh ?_
    intro hp
    have h := hcourse hp.of_append
    refine h.same (fun b hb => List.mem_singleton.mp hb ▸ neutral_of_arrival ha) (fun hb => ?_) (by rw [hc])
      (by rw [hc]; exact h.packetState) (by rw [hc])
    exact absurd ha (List.mem_singleton.mp hb ▸ id)

/-- A connect with no close pending begins on course. -/
theorem keepsCourse_begin (s : Session) (xioHandle : XioHandle) (mqttOptions : MqttClientOptions)
    (h : s.client.mqttStatus.pendingClose = false) :
    KeepsCourse s.history xioHandle mqttOptions s.client.mqttStatus.socketConnected
      (beginConnect (s.log (.connect xioHandle mqttOptions)) xioHandle mqttOptions) := by
  refine ⟨[], rfl, fun _ => ⟨h, by simp [beginConnect], fun a ha => List.mem_singleton.mp ha ▸ rfl, fun _ => rfl, ?_, ?_⟩⟩
  · intro _
    exact ⟨rfl, fun hs => ⟨hs, by simp⟩⟩
  · exact fun ho => absurd rfl ho

/-- A connection that is begun with no bit left over, and on which nothing fails, hands over one CONNECT and is not closed. -/
theorem connects_once (depth : Nat) (w : World) (xioHandle : XioHandle) (mqttOptions : MqttClientOptions) (calls : List Call)
    (hcalls : ∀ call ∈ calls, call.connects = false) (added : List Action)
    (hadded : (run depth w (.connect (some xioHandle) (some mqttOptions) :: calls)).callContext.history =
      w.callContext.history ++ added)
    (hundisturbed : Undisturbed added) (hbits : NoLeftoverBits w.callContext.client.mqttStatus added) :
    ConnectsOnce xioHandle added := by
  have hfirst : KeepsCourse w.callContext.history xioHandle mqttOptions w.callContext.client.mqttStatus.socketConnected
      (runCall depth w (.connect (some xioHandle) (some mqttOptions))).callContext :=
    (steps_runCall depth w (.connect (some xioHandle) (some mqttOptions))).preserves keepsCourse_step
      (keepsCourse_begin w.callContext xioHandle mqttOptions hbits.1)
  have hmeets : RunMeets (fun _ call => call.connects = false) depth (runCall depth w (.connect (some xioHandle) (some mqttOptions)))
      calls := runMeets_of_forall hcalls
  have hrun := run_preserves keepsCourse_step
    (fun v call hcall hv => (beginCall_of_not_connects v.callContext hcall).symm ▸ hv) hmeets hfirst
  obtain ⟨log, hhist, hcourse⟩ := hrun
  have heq : added = .connect xioHandle mqttOptions :: log := List.append_cancel_left (hadded.symm.trans hhist)
  have hpromise : Promise w.callContext.client.mqttStatus.socketConnected added :=
    ⟨hundisturbed.succeeds, by simp [hundisturbed.opens], hbits.2⟩
  have hcourse := hcourse (heq ▸ hpromise)
  rw [← heq] at hcourse
  refine ⟨hcourse.opened (by simp [hundisturbed.opens]), ?_⟩
  intro x hx
  exact absurd (hcourse.noClose _ hx) (by simp [Action.isClose])

/-- A connection that `mqtt_client_disconnect` has ended: its xio has been told to close. -/
def endedConnection : List Call :=
  openedWith 1 0 ++ [.disconnect (some 7), .xio (.io (.sendComplete .ioSendOk)), .dowork []]

/-- What a connect and the calls after it add to the history of that run. -/
def addedAfterEnd (calls : List Call) : List Action :=
  let w := run 1 (mqttClientInit true calmEnv okHeap) endedConnection
  (run 1 w (.connect (some 2) (some plainOptions) :: calls)).callContext.history.drop w.callContext.history.length

/-- The close of the previous xio completes before the new xio is open. -/
theorem connects_once_after_close :
    ConnectsOnce 2 (addedAfterEnd [.xio (.io .closeComplete), .xio (.io (.openComplete .ioOpenOk)), .dowork []]) :=
  connects_once 1 (run 1 (mqttClientInit true calmEnv okHeap) endedConnection) 2 plainOptions
    [.xio (.io .closeComplete), .xio (.io (.openComplete .ioOpenOk)), .dowork []] (by decide) _ (by decide +kernel)
    ⟨by decide +kernel, by decide +kernel⟩ ⟨by decide +kernel, fun _ => by decide +kernel⟩

/-- The new xio is open before the close of the previous one completes: no CONNECT is sent. -/
theorem not_connectsOnce_before_close :
    let w := run 1 (mqttClientInit true calmEnv okHeap) endedConnection
    let calls := [.xio (.io (.openComplete .ioOpenOk)), .xio (.io .closeComplete), .dowork []]
    w.callContext.client.xioHandle = none ∧
      (run 1 w (.connect (some 2) (some plainOptions) :: calls)).callContext.history =
        w.callContext.history ++ addedAfterEnd calls ∧
      Undisturbed (addedAfterEnd calls) ∧ ¬ConnectsOnce 2 (addedAfterEnd calls) := by
  refine ⟨by decide +kernel, by decide +kernel, ⟨by decide +kernel, by decide +kernel⟩, ?_⟩
  rintro ⟨⟨h, p, hsends, -⟩, -⟩
  have hnone : (addedAfterEnd [.xio (.io (.openComplete .ioOpenOk)), .xio (.io .closeComplete), .dowork []]).filter
      (Action.sendsType .connectType) = [] := by decide +kernel
  exact absurd (hnone.symm.trans hsends) (by simp)

end Umqtt
