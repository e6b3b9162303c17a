import Umqtt.Client.Api
import Umqtt.Lemmas.Encoders
import Umqtt.Lib.Past

/-!
# The steps of the client

Every function of the client moves its session by small steps: it changes some fields of the client and adds some entries to the
history. `Inner` lists the steps that the callbacks make, with what the code has checked before each; `Outer` lists the further
steps of the functions that the application calls, changes of the options and what `mqtt_client_connect` sets before it copies them
apart. Bytes add entries of their own (`Action.Arrival`). Each function is then a sequence of such steps, whatever the xio does in between (`steps_deliver`,
`steps_runCall`), and a statement about all runs is checked on the steps only.
-/

namespace Umqtt

open Past Alloc

/-! ## The steps -/

/-- The entry of `fnOnErrorCallBack`, if it is set. -/
def onErrorOf (c : MqttClient) (errorType : MqttClientEventError) : List Action :=
  if c.fnOnErrorCallBack then [.onError errorType] else []

/-- The entry of `set_error_callback`, and the one of `fnOnErrorCallBack`. -/
def reportOf (c : MqttClient) (errorType : MqttClientEventError) : List Action :=
  .setErrorCallback errorType :: onErrorOf c errorType

/-- The entry of `disconnect_cb`, if it is set. -/
def disconnectedOf (c : MqttClient) : List Action := c.disconnectCb.toList.map .disconnected

/-- Why `close_connection` is called: a close is pending, an error has just been reported, or `mqtt_client_disconnect` has just
been called. -/
def CloseReason (c : MqttClient) (h : List Action) : Prop :=
  c.mqttStatus.pendingClose = true ∨ (∃ pre e, h = pre ++ reportOf c e) ∨ ∃ pre callback, h = pre ++ [.disconnect callback]

/-- The entries that say nothing about the state of the connection. -/
def Action.Free : Action → Prop
  | .xioOpen _ _ | .xioDowork _ | .clock _ | .sendReturns _ | .messageRecv _ _ | .connectReturns _ | .event .ioError
  | .event (.sendComplete _) => True
  | .operation .onDisconnect => False
  | .operation (.onConnack connack) => connack.returnCode ≠ .connectionAccepted
  | .operation _ => True
  | _ => False

/-- The entries that bytes leave: `onBytesReceived` is called, `recvCompleteCallback` is called. -/
def Action.Arrival : Action → Prop
  | .bytesReceived _ | .packet _ _ _ => True
  | _ => False

/-- `mqtt_client_connect` is called. -/
def Action.isConnect : Action → Bool
  | .connect _ _ => true
  | _ => false

/-- `xio_close` is called. -/
def Action.isClose : Action → Bool
  | .xioClose _ => true
  | _ => false

/-- `xio_open` is called, and fails. -/
def Action.isFailedOpen : Action → Bool
  | .xioOpen _ result => result ≠ .zero
  | _ => false

/-- A packet of the given type is handed to `xio_send`. -/
def Action.sendsType (t : ControlPacketType) : Action → Bool
  | .xioSend _ p _ => p.packetType = some t
  | _ => false

/-- The entries that the callbacks of an xio leave. -/
def Action.OfCallback : Action → Prop
  | .connect _ _ | .disconnect _ | .clearXio | .bytesReceived _ | .packet _ _ _ => False
  | .xioSend _ p _ => p.packetType ≠ some .pingreqType ∧ p.packetType ≠ some .disconnectType
  | _ => True

/-- The types of the packets that the client sends at any time: replies and requests. -/
def PlainType (t : ControlPacketType) : Prop := t ≠ .connectType ∧ t ≠ .pingreqType ∧ t ≠ .disconnectType

instance (t : ControlPacketType) : Decidable (PlainType t) := inferInstanceAs (Decidable (_ ∧ _ ∧ _))

/-- A step of a callback, from a client and a history: the client after it, and the entries it adds. -/
inductive Inner (c : MqttClient) (h : List Action) : MqttClient → List Action → Prop
  | idle : Inner c h c []
  | note (a : Action) : a.Free → Inner c h c [a]
  | stamp (t : UInt64) : Inner c h { c with packetSendTimeMs := t } []
  | pingAnswered : Inner c h { c with timeSincePing := 0 } []
  | send (packet : Buffer) (t : ControlPacketType) (result : MuResult) : packet.packetType = some t → PlainType t →
      Inner c h c [.xioSend c.xioHandle packet result]
  | accepted (isSessionPresent : Bool) :
      Inner c h { c with mqttStatus := { c.mqttStatus with clientConnected := true } }
        [.operation (.onConnack { isSessionPresent := isSessionPresent, returnCode := .connectionAccepted })]
  | sent : c.packetState = .disconnectType → h.getLast? = some (.event (.sendComplete .ioSendOk)) →
      Inner c h { c with mqttStatus := { c.mqttStatus with pendingClose := true } } [.operation .onDisconnect]
  | openNoPacket : c.mqttStatus.socketConnected = false →
      Inner c h { c with packetState := .connectType, mqttStatus := { c.mqttStatus with socketConnected := true } }
        [.event (.openComplete .ioOpenOk), .connPacket none]
  | openPacket (packet : Buffer) (result : MuResult) : c.mqttStatus.socketConnected = false →
      (mqttCodecConnect c.mqttOptions).Produces packet →
      Inner c h { c with packetState := .connectType, mqttStatus := { c.mqttStatus with socketConnected := true } }
        [.event (.openComplete .ioOpenOk), .connPacket (some packet), .xioSend c.xioHandle packet result]
  | openRefused (openResult : IoOpenResult) : openResult ≠ .ioOpenOk ∨ c.mqttStatus.socketConnected = true →
      Inner c h { c with mqttStatus := { c.mqttStatus with pendingClose := true } }
        (.event (.openComplete openResult) :: if c.mqttStatus.socketConnected then [] else onErrorOf c .connectionError)
  | connectFailed : h.getLast? = some (.sendReturns .muFailure) →
      Inner c h { c with mqttStatus := { c.mqttStatus with pendingClose := true } } (onErrorOf c .connectionError)
  | closed :
      Inner c h { c with mqttStatus := { c.mqttStatus with socketConnected := false } }
        (.event .closeComplete :: disconnectedOf c)
  | report (errorType : MqttClientEventError) : Inner c h c (reportOf c errorType)
  | close : CloseReason c h → c.mqttStatus.socketConnected = true → Inner c h c [.xioClose c.xioHandle]
  | notOpen : CloseReason c h → c.mqttStatus.socketConnected = false → Inner c h c (disconnectedOf c)
  | detach : Since (·.isConnect) (·.isClose) h → Inner c h { c with xioHandle := none } []

/-- A further step, of a function that the application calls. -/
inductive Outer (c : MqttClient) (h : List Action) : MqttClient → List Action → Prop
  | openFailed : Since (·.isConnect) (·.isFailedOpen) h → Outer c h { c with xioHandle := none } []
  | clear : Outer c h { c with xioHandle := none } [.clearXio]
  | request (t : ControlPacketType) : t ∈ [ControlPacketType.publishType, .subscribeType, .unsubscribeType] →
      Outer c h { c with packetState := t } []
  | disconnect (callback : Option DisconnectedCallback) : Outer c h c [.disconnect callback]
  | disconnectNoPacket : Outer c h { c with packetState := .packetTypeError } []
  | disconnectPacket (callback : Option DisconnectedCallback) (packet : Buffer) (result : MuResult) :
      h.getLast? = some (.disconnect callback) → c.mqttStatus.clientConnected = true →
      packet.packetType = some .disconnectType →
      Outer c h { c with disconnectCb := callback, packetState := .disconnectType } [.xioSend c.xioHandle packet result]
  | disconnectPlain (callback : Option DisconnectedCallback) : h.getLast? = some (.disconnect callback) →
      Outer c h { c with disconnectCb := callback } []
  | ping (packet : Buffer) (result : MuResult) : c.mqttStatus.clientConnected = true →
      packet.packetType = some .pingreqType → Outer c h c [.xioSend c.xioHandle packet result]
  | pingSent (t : UInt64) : Outer c h { c with timeSincePing := t } []
  | pingReset : Outer c h { c with timeSincePing := 0, packetSendTimeMs := 0, packetState := .unknownType } []
  | pendingDone : Outer c h { c with mqttStatus := { c.mqttStatus with pendingClose := false } } []

/-- The session moves by a step of a callback. -/
def InnerStep (s s' : Session) : Prop :=
  ∃ added, Inner s.client s.history s'.client added ∧ s'.history = s.history ++ added

/-- The session moves by a step of a callback, or bytes leave an entry. -/
def WorkStep (s s' : Session) : Prop :=
  InnerStep s s' ∨ ∃ a, a.Arrival ∧ s'.client = s.client ∧ s'.history = s.history ++ [a]

/-- The session moves by a step of a callback or of a function. -/
def ClientStep (s s' : Session) : Prop :=
  ∃ added, (Inner s.client s.history s'.client added ∨ Outer s.client s.history s'.client added) ∧
    s'.history = s.history ++ added

/-- The session moves by such a step, or the options are changed. -/
def SessionStep (s s' : Session) : Prop :=
  ClientStep s s' ∨
    ∃ mqttOptions, s'.client = { s.client with mqttOptions := mqttOptions } ∧ s'.history = s.history

/-- The session moves by a step that keeps the options, or bytes leave an entry. -/
def KeepStep (s s' : Session) : Prop :=
  ClientStep s s' ∨ ∃ a, a.Arrival ∧ s'.client = s.client ∧ s'.history = s.history ++ [a]

/-- The session moves by any step, or bytes leave an entry. -/
def RunStep (s s' : Session) : Prop :=
  SessionStep s s' ∨ ∃ a, a.Arrival ∧ s'.client = s.client ∧ s'.history = s.history ++ [a]

/-- A step of a callback, as a run of such steps. -/
theorem Inner.steps {s : Session} (t : Session) (added : List Action) (h : Inner s.client s.history t.client added)
    (hh : t.history = s.history ++ added) : Steps InnerStep s t := .single ⟨added, h, hh⟩

/-- A step of a function, as a run of such steps. -/
theorem Outer.steps {s : Session} (t : Session) (added : List Action) (h : Outer s.client s.history t.client added)
    (hh : t.history = s.history ++ added) : Steps ClientStep s t := .single ⟨added, Or.inr h, hh⟩

/-- Steps of callbacks are steps of the client. -/
theorem inner_steps {s t : Session} (h : Steps InnerStep s t) : Steps ClientStep s t :=
  h.mono fun _ _ ⟨added, hi, hh⟩ => ⟨added, Or.inl hi, hh⟩

theorem work_steps {s t : Session} (h : Steps InnerStep s t) : Steps WorkStep s t := h.mono fun _ _ => Or.inl

theorem keep_steps {s t : Session} (h : Steps ClientStep s t) : Steps KeepStep s t := h.mono fun _ _ => Or.inl

/-- Steps of callbacks and entries of bytes keep the options. -/
theorem keep_steps_of_work {s t : Session} (h : Steps WorkStep s t) : Steps KeepStep s t :=
  h.mono fun _ _ hst => hst.imp (fun ⟨added, hi, hh⟩ => ⟨added, Or.inl hi, hh⟩) id

theorem session_steps {s t : Session} (h : Steps ClientStep s t) : Steps SessionStep s t := h.mono fun _ _ => Or.inl

theorem session_steps_of_inner {s t : Session} (h : Steps InnerStep s t) : Steps SessionStep s t := session_steps (inner_steps h)

theorem run_steps {s t : Session} (h : Steps SessionStep s t) : Steps RunStep s t := h.mono fun _ _ => Or.inl

/-- Steps that keep the options are steps of a run. -/
theorem run_steps_of_keep {s t : Session} (h : Steps KeepStep s t) : Steps RunStep s t :=
  h.mono fun _ _ hst => hst.imp Or.inl id

/-- The entries of a callback's step are entries of callbacks. -/
theorem Inner.ofCallback {c c' : MqttClient} {h added : List Action} (hi : Inner c h c' added) : ∀ a ∈ added, a.OfCallback := by
  have honError : ∀ e, ∀ a ∈ onErrorOf c e, a.OfCallback := by
    intro e
    rw [onErrorOf]
    split <;> simp [Action.OfCallback]
  have hdisconnected : ∀ a ∈ disconnectedOf c, a.OfCallback := by
    rw [disconnectedOf]
    rcases c.disconnectCb <;> simp [Action.OfCallback]
  have hsend : ∀ x p r t, Buffer.packetType p = some t → t ≠ .pingreqType → t ≠ .disconnectType →
      (Action.xioSend x p r).OfCallback := by
    intro x p r t hp h1 h2
    simp [Action.OfCallback, hp, h1, h2]
  intro a ha
  cases hi with
  | idle | stamp | pingAnswered | detach => exact absurd ha (by simp)
  | note b hb =>
    obtain rfl := List.mem_singleton.mp ha
    cases a <;> trivial
  | send packet t result hp ht => exact List.mem_singleton.mp ha ▸ hsend _ _ _ t hp ht.2.1 ht.2.2
  | accepted => exact List.mem_singleton.mp ha ▸ trivial
  | sent => exact List.mem_singleton.mp ha ▸ trivial
  | openNoPacket =>
    simp only [List.mem_cons, List.not_mem_nil, or_false] at ha
    rcases ha with rfl | rfl <;> trivial
  | openPacket packet result _ hp =>
    have htype := (packetType_mqttCodecConnect c.mqttOptions).of_produces hp
    simp only [List.mem_cons, List.not_mem_nil, or_false] at ha
    rcases ha with rfl | rfl | rfl
    · trivial
    · trivial
    · exact hsend _ _ _ _ htype (by decide) (by decide)
  | openRefused r =>
    rcases List.mem_cons.mp ha with rfl | ha
    · trivial
    · split at ha
      · exact absurd ha (by simp)
      · exact honError _ a ha
  | connectFailed => exact honError _ a ha
  | closed =>
    rcases List.mem_cons.mp ha with rfl | ha
    · trivial
    · exact hdisconnected a ha
  | report e =>
    rcases List.mem_cons.mp ha with rfl | ha
    · trivial
    · exact honError _ a ha
  | close => exact List.mem_singleton.mp ha ▸ trivial
  | notOpen => exact hdisconnected a ha

theorem Action.OfCallback.not_connect {a : Action} (h : a.OfCallback) : ¬a.isConnect = true := by
  cases a with
  | connect => exact absurd h id
  | _ => exact Bool.false_ne_true

theorem Action.OfCallback.not_arrival {a : Action} (h : a.OfCallback) : ¬a.Arrival := by
  cases a with
  | bytesReceived => exact absurd h id
  | packet => exact absurd h id
  | _ => exact id

/-- What has happened since `mqtt_client_connect` was called has happened since after steps of callbacks. -/
theorem since_inner {event : Action → Prop} {s t : Session} (hst : Steps InnerStep s t)
    (hs : Since (·.isConnect) event s.history) : Since (·.isConnect) event t.history :=
  hst.preserves (P := fun u => Since (·.isConnect) event u.history)
    (fun _ _ ⟨_, hi, hh⟩ hu => hh ▸ hu.append fun a ha => (hi.ofCallback a ha).not_connect) hs

/-- The entry of bytes. -/
theorem steps_arrival (s : Session) (a : Action) (ha : a.Arrival) : Steps WorkStep s (s.log a) :=
  .single (Or.inr ⟨a, ha, rfl, rfl⟩)

/-- Nothing but the answers to come has changed. -/
theorem steps_env (s t : Session) (hc : t.client = s.client) (hh : t.history = s.history) : Steps InnerStep s t :=
  Inner.steps t [] (hc ▸ Inner.idle) (by rw [hh, List.append_nil])

/-- An entry that says nothing about the state. -/
theorem steps_log (s : Session) (a : Action) (ha : a.Free) : Steps InnerStep s (s.log a) :=
  Inner.steps (s.log a) _ (.note a ha) rfl

/-- A change of the client that adds no entry. -/
theorem steps_client (s : Session) (c : MqttClient) (h : Inner s.client s.history c []) :
    Steps InnerStep s { s with client := c } :=
  Inner.steps { s with client := c } _ h (List.append_nil _).symm

theorem steps_alloc {α : Type} (s : Session) (m : Alloc α) : Steps InnerStep s (s.alloc m).2 := steps_env s _ rfl rfl

/-- A packet that a session has built is one that its encoder produces. -/
theorem alloc_produces {α : Type} {m : Alloc α} {s t : Session} {a : α} (h : s.alloc m = (some a, t)) : m.Produces a :=
  ⟨s.env.heap, congrArg Prod.fst h⟩

/-- A computation that takes memory uses up answers of the allocator, and nothing else changes. -/
theorem client_of_alloc {α : Type} {m : Alloc α} {s t : Session} {result : Option α} (h : s.alloc m = (result, t)) :
    t.client = s.client := congrArg (fun r => Session.client r.2) h.symm

theorem history_of_alloc {α : Type} {m : Alloc α} {s t : Session} {result : Option α} (h : s.alloc m = (result, t)) :
    t.history = s.history := congrArg (fun r => Session.history r.2) h.symm

theorem client_of_askClock {s t : Session} {currentMs : Option UInt64} (h : s.askClock = (currentMs, t)) : t.client = s.client :=
  congrArg (fun r => Session.client r.2) h.symm

theorem steps_askClock (s : Session) : Steps InnerStep s s.askClock.2 :=
  Inner.steps s.askClock.2 _ (.note (.clock s.env.clock.head) trivial) rfl

theorem getLast?_log (s : Session) (a : Action) : (s.log a).history.getLast? = some a := by simp [Session.log]

theorem client_callOnError (s : Session) (e : MqttClientEventError) : (callOnError s e).client = s.client := by
  rw [callOnError]
  split <;> rfl

theorem history_callOnError (s : Session) (e : MqttClientEventError) :
    (callOnError s e).history = s.history ++ onErrorOf s.client e := by
  rw [callOnError, onErrorOf]
  split <;> simp [Session.log]

theorem client_callDisconnectCb (s : Session) : (callDisconnectCb s).client = s.client := by
  rw [callDisconnectCb]
  split <;> rfl

theorem history_callDisconnectCb (s : Session) :
    (callDisconnectCb s).history = s.history ++ disconnectedOf s.client := by
  rw [callDisconnectCb, disconnectedOf]
  rcases s.client.disconnectCb <;> simp [Session.log]

/-- What `set_error_callback` adds before it closes the connection. -/
theorem steps_report (s : Session) (e : MqttClientEventError) :
    Steps InnerStep s (callOnError (s.log (.setErrorCallback e)) e) ∧
      CloseReason (callOnError (s.log (.setErrorCallback e)) e).client (callOnError (s.log (.setErrorCallback e)) e).history := by
  have hclient : (callOnError (s.log (.setErrorCallback e)) e).client = s.client := client_callOnError _ e
  have hhist : (callOnError (s.log (.setErrorCallback e)) e).history = s.history ++ reportOf s.client e := by
    rw [history_callOnError, Session.log, List.append_assoc]
    rfl
  refine ⟨Inner.steps _ (reportOf s.client e) ?_ hhist, Or.inr (Or.inl ⟨s.history, e, ?_⟩)⟩
  · rw [hclient]
    exact .report e
  · rw [hclient, hhist]

/-! ## The functions make steps -/

section

variable {dispatch : List IoEvent → Session → Session}

/-- `sendPacketItem` after its `xio_send`. -/
theorem steps_sendPacketItem_rest (s : Session) (packet : Buffer) :
    Steps InnerStep (xioSend dispatch s packet).1 (sendPacketItem dispatch s packet).1 ∧
      ((sendPacketItem dispatch s packet).2 ≠ .zero →
        (sendPacketItem dispatch s packet).1.history.getLast? = some (.sendReturns .muFailure)) := by
  simp only [sendPacketItem]
  by_cases hr : (xioSend dispatch s packet).2 ≠ .zero
  · simp only [if_pos hr]
    exact ⟨steps_log _ _ trivial, fun _ => getLast?_log _ _⟩
  · simp only [if_neg hr]
    have hclock := steps_askClock (xioSend dispatch s packet).1
    rcases hc : (xioSend dispatch s packet).1.askClock with ⟨_ | currentMs, t⟩
    · rw [hc] at hclock
      exact ⟨hclock.trans (steps_log _ _ trivial), fun _ => getLast?_log _ _⟩
    · rw [hc] at hclock
      refine ⟨hclock.trans (.trans ?_ (steps_log _ _ trivial)), fun h => absurd rfl h⟩
      exact steps_client t _ (.stamp currentMs)

/-- What the xio's callbacks do is steps of callbacks. -/
def MakesSteps (dispatch : List IoEvent → Session → Session) : Prop := ∀ events s, Steps InnerStep s (dispatch events s)

variable (hd : MakesSteps dispatch)

include hd

theorem steps_callBack (s : Session) : Steps InnerStep s (callBack dispatch s) := by
  have henv : Steps InnerStep s { s with env := { s.env with sync := s.env.sync.tail } } := steps_env s _ rfl rfl
  exact henv.trans (hd _ _)

/-- A packet that may be sent at any time. -/
theorem steps_xioSend (s : Session) {packet : Buffer} {t : ControlPacketType} (hp : packet.packetType = some t)
    (ht : PlainType t) : Steps InnerStep s (xioSend dispatch s packet).1 := by
  have hsend : Steps InnerStep s ({ s with env := { s.env with send := s.env.send.tail } }.log
      (.xioSend s.client.xioHandle packet s.env.send.head)) :=
    Inner.steps _ _ (.send packet t s.env.send.head hp ht) rfl
  exact hsend.trans (steps_callBack hd _)

theorem steps_sendPacketItem (s : Session) {packet : Buffer} {t : ControlPacketType} (hp : packet.packetType = some t)
    (ht : PlainType t) : Steps InnerStep s (sendPacketItem dispatch s packet).1 :=
  (steps_xioSend hd s hp ht).trans (steps_sendPacketItem_rest s packet).1

theorem steps_closeLoop (rounds : Nat) (s : Session) : Steps InnerStep s (closeLoop dispatch rounds s) := by
  induction rounds generalizing s with
  | zero => exact .refl
  | succ rounds ih =>
    have hwork : Steps InnerStep s (xioDowork dispatch s) := (steps_log s (.xioDowork _) trivial).trans (steps_callBack hd _)
    simp only [closeLoop]
    split
    · exact hwork.trans (ih _)
    · exact hwork

theorem steps_closeConnection (s : Session) (hr : CloseReason s.client s.history) :
    Steps InnerStep s (closeConnection dispatch s) := by
  rw [closeConnection]
  by_cases hs : s.client.mqttStatus.socketConnected = true
  · simp only [if_pos hs]
    have hlog : Steps InnerStep s (s.log (.xioClose s.client.xioHandle)) := Inner.steps _ _ (.close hr hs) rfl
    have hafter : Steps InnerStep (s.log (.xioClose s.client.xioHandle))
        (if (xioClose dispatch s).client.disconnectCb.isNone then closeLoop dispatch maxCloseRetries (xioClose dispatch s)
        else xioClose dispatch s) := by
      have hclose := steps_callBack hd (s.log (.xioClose s.client.xioHandle))
      split
      · exact hclose.trans (steps_closeLoop hd _ _)
      · exact hclose
    exact (hlog.trans hafter).trans (steps_client _ _ (.detach (since_inner hafter (since_snoc_event rfl))))
  · simp only [if_neg hs]
    refine Inner.steps _ (disconnectedOf s.client) ?_ (history_callDisconnectCb s)
    rw [client_callDisconnectCb]
    exact .notOpen hr (by simpa using hs)

theorem steps_setErrorCallback (s : Session) (e : MqttClientEventError) : Steps InnerStep s (setErrorCallback dispatch s e) :=
  (steps_report s e).1.trans (steps_closeConnection hd _ (steps_report s e).2)

theorem steps_sendComplete (s : Session) (r : IoSendResult) : Steps InnerStep s (sendComplete dispatch s r) := by
  have hlog : Steps InnerStep s (s.log (.event (.sendComplete r))) := steps_log s _ trivial
  cases r with
  | ioSendOk =>
    simp only [sendComplete]
    split
    · rename_i ht
      exact hlog.trans (Inner.steps _ _ (.sent ht (getLast?_log _ _)) rfl)
    · exact hlog
  | ioSendError => exact hlog.trans (steps_setErrorCallback hd _ _)
  | ioSendCancelled => exact hlog

/-- The open of a socket when none is connected: the CONNECT packet is built, and handed to `xio_send` if that succeeds. -/
theorem steps_openOk (s : Session) (hs : s.client.mqttStatus.socketConnected = false) :
    Steps InnerStep s (sendConnPacket dispatch (beginOpen (s.log (.event (.openComplete .ioOpenOk))))) := by
  generalize hs1 : beginOpen (s.log (.event (.openComplete .ioOpenOk))) = s1
  have hc1 : s1.client =
      { s.client with packetState := .connectType, mqttStatus := { s.client.mqttStatus with socketConnected := true } } := by
    rw [← hs1]
    rfl
  have hh1 : s1.history = s.history ++ [.event (.openComplete .ioOpenOk)] := by
    rw [← hs1]
    rfl
  rw [sendConnPacket]
  rcases halloc : s1.alloc (mqttCodecConnect s1.client.mqttOptions) with ⟨_ | packet, s2⟩
  all_goals
    have hc2 : s2.client = s1.client := client_of_alloc halloc
    have hh2 : s2.history = s1.history := history_of_alloc halloc
  · refine Inner.steps (s2.log (.connPacket none)) [.event (.openComplete .ioOpenOk), .connPacket none] ?_ ?_
    · rw [show (s2.log (.connPacket none)).client = s2.client from rfl, hc2, hc1]
      exact .openNoPacket hs
    · rw [Session.log, hh2, hh1, List.append_assoc]
      rfl
  · have hbuilt : (mqttCodecConnect s.client.mqttOptions).Produces packet := by
      have := alloc_produces halloc
      rwa [hc1] at this
    -- up to the call of `xio_send` it is one step, then the xio calls back
    have hsend : Steps InnerStep s (({ s2.log (.connPacket (some packet)) with
        env := { s2.env with send := s2.env.send.tail } } : Session).log
          (.xioSend s2.client.xioHandle packet s2.env.send.head)) := by
      refine Inner.steps _ [.event (.openComplete .ioOpenOk), .connPacket (some packet),
        .xioSend s2.client.xioHandle packet s2.env.send.head] ?_ ?_
      · have hx : s2.client.xioHandle = s.client.xioHandle := by rw [hc2, hc1]
        simp only [Session.log, hx]
        rw [hc2, hc1]
        exact .openPacket packet _ hs hbuilt
      · simp only [Session.log, hh2, hh1, List.append_assoc]
        rfl
    have hopen : Steps InnerStep s (xioSend dispatch (s2.log (.connPacket (some packet))) packet).1 :=
      hsend.trans (steps_callBack hd _)
    obtain ⟨hrest, hfail⟩ := @steps_sendPacketItem_rest dispatch (s2.log (.connPacket (some packet))) packet
    simp only
    split
    · rename_i hne
      refine (hopen.trans hrest).trans (Inner.steps _ (onErrorOf _ .connectionError) ?_ (history_callOnError _ _))
      rw [Session.setPendingClose, Session.setStatus, client_callOnError]
      exact .connectFailed (hfail hne)
    · exact hopen.trans hrest

omit hd in
theorem steps_onConnectionClosed (s : Session) : Steps InnerStep s (onConnectionClosed s) := by
  refine Inner.steps _ (.event .closeComplete :: disconnectedOf s.client) ?_ ?_
  · rw [onConnectionClosed, client_callDisconnectCb]
    exact .closed
  · rw [onConnectionClosed, history_callDisconnectCb]
    simp only [Session.setStatus, Session.log, List.append_assoc, List.singleton_append]
    rfl

omit hd in
/-- The open of a socket that fails, or that comes when a socket is already connected. -/
theorem steps_openRefused (s : Session) (r : IoOpenResult) (hr : r ≠ .ioOpenOk ∨ s.client.mqttStatus.socketConnected = true) :
    Steps InnerStep s
      (if s.client.mqttStatus.socketConnected = false then
        callOnError (s.log (.event (.openComplete r))) .connectionError
      else s.log (.event (.openComplete r))).setPendingClose := by
  refine Inner.steps _ (.event (.openComplete r) ::
    if s.client.mqttStatus.socketConnected then [] else onErrorOf s.client .connectionError) ?_ ?_
  · have hclient : (if s.client.mqttStatus.socketConnected = false then
        callOnError (s.log (.event (.openComplete r))) .connectionError else s.log (.event (.openComplete r))).client =
        s.client := by
      split
      · exact client_callOnError _ _
      · rfl
    rw [Session.setPendingClose, Session.setStatus, hclient]
    exact .openRefused r hr
  · have hset : ∀ t : Session, t.setPendingClose.history = t.history := fun _ => rfl
    rw [hset]
    rcases s.client.mqttStatus.socketConnected
    · rw [if_pos rfl, history_callOnError, Session.log, List.append_assoc]
      rfl
    · rfl

theorem steps_onOpenComplete (s : Session) (r : IoOpenResult) : Steps InnerStep s (onOpenComplete dispatch s r) := by
  by_cases h : r = .ioOpenOk ∧ s.client.mqttStatus.socketConnected = false
  · obtain ⟨rfl, hs⟩ := h
    have heq : onOpenComplete dispatch s .ioOpenOk =
        sendConnPacket dispatch (beginOpen (s.log (.event (.openComplete .ioOpenOk)))) := if_pos ⟨rfl, hs⟩
    rw [heq]
    exact steps_openOk hd s hs
  · have hr : r ≠ .ioOpenOk ∨ s.client.mqttStatus.socketConnected = true := by
      rcases hsc : s.client.mqttStatus.socketConnected
      · exact Or.inl fun h1 => h ⟨h1, hsc⟩
      · exact Or.inr rfl
    have heq : onOpenComplete dispatch s r = (if s.client.mqttStatus.socketConnected = false then
        callOnError (s.log (.event (.openComplete r))) .connectionError
      else s.log (.event (.openComplete r))).setPendingClose := if_neg h
    rw [heq]
    exact steps_openRefused s r hr

theorem steps_handleEvent (s : Session) (e : IoEvent) : Steps InnerStep s (handleEvent dispatch s e) := by
  cases e with
  | openComplete r => exact steps_onOpenComplete hd s r
  | ioError => exact (steps_log s (.event .ioError) trivial).trans (steps_setErrorCallback hd _ _)
  | sendComplete r => exact steps_sendComplete hd s r
  | closeComplete => exact steps_onConnectionClosed s

end

/-- The callbacks make steps, however deep they are nested. -/
theorem steps_deliver (depth : Nat) : MakesSteps (deliver depth) := by
  induction depth with
  | zero => exact fun _ _ => .refl
  | succ depth ih => exact fun events s => Steps.foldl (fun s e => steps_handleEvent ih s e) s events

end Umqtt
