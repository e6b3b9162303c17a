import Umqtt.Lemmas.IoRuns

/-!
# What is nested in a call

Every call into the xio may call back before it returns, and so may the calls that are made then. What is nested in this way sends CONNECT
packets only, delivers no message and no event but that of a DISCONNECT, and reports no errors but those of the connection
(`nested_deliver`): what a function of the client makes of a packet or of its arguments is not mixed with it.
-/

namespace Umqtt

open Alloc

/-- An error of the connection. -/
def MqttClientEventError.OfConnection (e : MqttClientEventError) : Prop := e = .connectionError ∨ e = .communicationError

/-- The entries that nested callbacks leave. -/
def Action.Nested : Action → Prop
  | .event _ | .xioDowork _ | .xioClose _ | .clock _ | .connPacket _ | .sendReturns _ | .disconnected _ => True
  | .xioSend _ p _ => p.packetType = some .connectType
  | .operation actionResult => actionResult = .onDisconnect
  | .setErrorCallback errorType | .onError errorType => errorType.OfConnection
  | _ => False

/-- The history grows by entries of a kind. -/
def Adds (P : Action → Prop) (s t : Session) : Prop := ∃ added, t.history = s.history ++ added ∧ ∀ a ∈ added, P a

section

variable {P : Action → Prop} {s t u : Session}

theorem Adds.refl (s : Session) : Adds P s s := ⟨[], (List.append_nil _).symm, by simp⟩

theorem Adds.trans (h : Adds P s t) (h' : Adds P t u) : Adds P s u := by
  obtain ⟨added, hh, hadded⟩ := h
  obtain ⟨more, hh', hmore⟩ := h'
  exact ⟨added ++ more, by rw [hh', hh, List.append_assoc], fun a ha => (List.mem_append.mp ha).elim (hadded a) (hmore a)⟩

theorem adds_log (s : Session) {a : Action} (ha : P a) : Adds P s (s.log a) := ⟨[a], rfl, fun _ hb => List.mem_singleton.mp hb ▸ ha⟩

theorem Adds.mono {Q : Action → Prop} (h : Adds P s t) (hPQ : ∀ a, P a → Q a) : Adds Q s t := by
  obtain ⟨added, hadded, hP⟩ := h
  exact ⟨added, hadded, fun a ha => hPQ a (hP a ha)⟩

/-- The history alone counts. -/
theorem Adds.of_history (h : Adds P s t) (hh : u.history = t.history) : Adds P s u := by
  obtain ⟨added, hadded, hP⟩ := h
  exact ⟨added, hh.trans hadded, hP⟩

end

/-! ## The functions -/

theorem nested_callDisconnectCb (s : Session) : Adds Action.Nested s (callDisconnectCb s) := by
  unfold callDisconnectCb
  split
  · exact .refl s
  · exact adds_log s trivial

theorem adds_callOnError {P : Action → Prop} (s : Session) {e : MqttClientEventError} (he : P (.onError e)) :
    Adds P s (callOnError s e) := by
  unfold callOnError
  split
  · exact adds_log s he
  · exact .refl s

theorem nested_finishes {c c' : MqttClient} {result returned : MuResult} {l : List Action} (h : Finishes c result c' l returned) :
    ∀ a ∈ l, a.Nested := by
  intro a ha
  rcases mem_finishes h ha with ⟨_, rfl⟩ | ⟨_, rfl⟩ <;> trivial

theorem nested_finishSend (s : Session) (result : MuResult) : Adds Action.Nested s (finishSend s result).1 := by
  obtain ⟨added, hf, hh⟩ := finishes s result
  exact ⟨added, hh, nested_finishes hf⟩

section

variable {dispatch : List IoEvent → Session → Session} (hd : ∀ events s, Adds Action.Nested s (dispatch events s))

include hd

theorem nested_callBack (s : Session) : Adds Action.Nested s (callBack dispatch s) :=
  hd s.env.sync.head { s with env := { s.env with sync := s.env.sync.tail } }

theorem nested_closeLoop (rounds : Nat) (s : Session) : Adds Action.Nested s (closeLoop dispatch rounds s) := by
  induction rounds generalizing s with
  | zero => exact .refl s
  | succ rounds ih =>
    have hwork : Adds Action.Nested s (xioDowork dispatch s) := (adds_log s trivial).trans (nested_callBack hd _)
    simp only [closeLoop]
    split
    · exact hwork.trans (ih _)
    · exact hwork

theorem nested_closeConnection (s : Session) : Adds Action.Nested s (closeConnection dispatch s) := by
  unfold closeConnection
  split
  · have hclose : Adds Action.Nested s (xioClose dispatch s) := (adds_log s trivial).trans (nested_callBack hd _)
    dsimp only
    split
    · exact (hclose.trans (nested_closeLoop hd _ _)).of_history rfl
    · exact hclose.of_history rfl
  · exact nested_callDisconnectCb s

/-- What follows the entry of `set_error_callback`. -/
theorem adds_setErrorCallback {P : Action → Prop} (hP : ∀ a, a.Nested → P a) (s : Session) {e : MqttClientEventError}
    (he : P (.onError e)) : Adds P (s.log (.setErrorCallback e)) (setErrorCallback dispatch s e) :=
  (adds_callOnError _ he).trans ((nested_closeConnection hd _).mono hP)

theorem nested_setErrorCallback (s : Session) {e : MqttClientEventError} (he : e.OfConnection) :
    Adds Action.Nested s (setErrorCallback dispatch s e) :=
  (adds_log s he).trans (adds_setErrorCallback hd (fun _ => id) s he)

/-- What follows the entry of a packet that is handed over. -/
theorem nested_sendPacketItem (s : Session) (packet : Buffer) :
    Adds Action.Nested (s.handOver packet) (sendPacketItem dispatch s packet).1 := by
  rw [sendPacketItem_eq]
  exact (nested_callBack hd _).trans (nested_finishSend _ _)

theorem nested_sendComplete (s : Session) (sendResult : IoSendResult) : Adds Action.Nested s (sendComplete dispatch s sendResult) := by
  have hlog : Adds Action.Nested s (s.log (.event (.sendComplete sendResult))) := adds_log s trivial
  unfold sendComplete
  cases sendResult with
  | ioSendOk =>
    dsimp only
    split
    · exact (hlog.trans (adds_log (a := .operation .onDisconnect) _ rfl)).of_history rfl
    · exact hlog
  | ioSendError => exact hlog.trans (nested_setErrorCallback hd _ (Or.inr rfl))
  | ioSendCancelled => exact hlog

theorem nested_sendConnPacket (s : Session) : Adds Action.Nested s (sendConnPacket dispatch s) := by
  unfold sendConnPacket
  rcases halloc : s.alloc (mqttCodecConnect s.client.mqttOptions) with ⟨_ | packet, s'⟩
  all_goals
    have hhist : s'.history = s.history := history_of_alloc halloc
    have hstart : Adds Action.Nested s s' := (Adds.refl s).of_history hhist
  · exact hstart.trans (adds_log (a := .connPacket none) s' trivial)
  · have htype : packet.packetType = some .connectType := (packetType_mqttCodecConnect _).of_produces (alloc_produces halloc)
    have hhand : Adds Action.Nested s ((s'.log (.connPacket (some packet))).handOver packet) :=
      (hstart.trans (adds_log (a := .connPacket (some packet)) s' trivial)).trans (adds_log _ htype)
    have hsend := hhand.trans (nested_sendPacketItem hd _ packet)
    dsimp only
    split
    · exact (hsend.trans (adds_callOnError (P := Action.Nested) _ (Or.inl rfl))).of_history rfl
    · exact hsend

theorem nested_onOpenComplete (s : Session) (openResult : IoOpenResult) :
    Adds Action.Nested s (onOpenComplete dispatch s openResult) := by
  have hlog : Adds Action.Nested s (s.log (.event (.openComplete openResult))) := adds_log s trivial
  unfold onOpenComplete
  dsimp only
  split
  · exact (hlog.of_history rfl).trans (nested_sendConnPacket hd _)
  · split
    · exact (hlog.trans (adds_callOnError (P := Action.Nested) _ (Or.inl rfl))).of_history rfl
    · exact hlog.of_history rfl

theorem nested_handleEvent (s : Session) (e : IoEvent) : Adds Action.Nested s (handleEvent dispatch s e) := by
  cases e with
  | openComplete openResult => exact nested_onOpenComplete hd s openResult
  | ioError => exact (adds_log s trivial).trans (nested_setErrorCallback hd _ (Or.inl rfl))
  | sendComplete sendResult => exact nested_sendComplete hd s sendResult
  | closeComplete =>
    have hlog : Adds Action.Nested s ((s.log (.event .closeComplete)).setStatus fun status => { status with socketConnected := false }) :=
      (adds_log s trivial).of_history rfl
    exact hlog.trans (nested_callDisconnectCb _)

theorem nested_handleEvents (events : List IoEvent) (s : Session) : Adds Action.Nested s (events.foldl (handleEvent dispatch) s) := by
  induction events generalizing s with
  | nil => exact .refl s
  | cons e events ih => exact (nested_handleEvent hd s e).trans (ih _)

end

/-- However deep the calls are nested. -/
theorem nested_deliver (depth : Nat) : ∀ events s, Adds Action.Nested s (deliver depth events s) := by
  induction depth with
  | zero => exact fun _ s => .refl s
  | succ depth ih => exact fun events s => nested_handleEvents ih events s

end Umqtt
