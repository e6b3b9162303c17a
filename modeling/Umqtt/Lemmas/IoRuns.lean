import Umqtt.Lemmas.ClientSteps

/-!
# What the callbacks of an xio do

A callback changes the client and adds entries to the history, and it calls into the xio, which calls back before it returns. `IoRun`
says so: what is done at once (`Local`), an error that closes the connection, and the CONNECT of an open, the last two with a run of
callbacks inside. Every callback is such a run, however deep the calls are nested (`ioRun_deliver`), and a statement about what
callbacks do is proved by induction on it.
-/

namespace Umqtt

open Past Alloc

/-! ## Runs of callbacks -/

/-- The answers of `xio_send` and of the tick counter are the same. -/
def SameAnswers (s t : Session) : Prop := t.env.clock = s.env.clock ∧ t.env.send = s.env.send

/-- What is done at once, from a client and a history: the client after it, and the entries it adds. -/
inductive Local (c : MqttClient) (h : List Action) : MqttClient → List Action → Prop
  | idle : Local c h c []
  | working : Local c h c [.xioDowork c.xioHandle]
  | ioError : Local c h c [.event .ioError]
  | notSent (sendResult : IoSendResult) : (sendResult = .ioSendOk → c.packetState ≠ .disconnectType) →
      Local c h c [.event (.sendComplete sendResult)]
  | sent : c.packetState = .disconnectType →
      Local c h { c with mqttStatus := { c.mqttStatus with pendingClose := true } }
        [.event (.sendComplete .ioSendOk), .operation .onDisconnect]
  | openNoPacket : c.mqttStatus.socketConnected = false →
      Local c h { c with packetState := .connectType, mqttStatus := { c.mqttStatus with socketConnected := true } }
        [.event (.openComplete .ioOpenOk), .connPacket none]
  | openRefused (openResult : IoOpenResult) : openResult ≠ .ioOpenOk ∨ c.mqttStatus.socketConnected = true →
      Local c h { c with mqttStatus := { c.mqttStatus with pendingClose := true } }
        (.event (.openComplete openResult) :: if c.mqttStatus.socketConnected then [] else onErrorOf c .connectionError)
  | connectFailed : h.getLast? = some (.sendReturns .muFailure) →
      Local c h { c with mqttStatus := { c.mqttStatus with pendingClose := true } } (onErrorOf c .connectionError)
  | closed :
      Local c h { c with mqttStatus := { c.mqttStatus with socketConnected := false } }
        (.event .closeComplete :: disconnectedOf c)
  | failed (errorType : MqttClientEventError) : errorType ≠ .noPingResponse → c.mqttStatus.socketConnected = false →
      Local c h c (reportOf c errorType ++ disconnectedOf c)

/-- The session once `xio_send` has been called with a packet. -/
def Session.handOver (s : Session) (packet : Buffer) : Session :=
  { s with env := { s.env with send := s.env.send.tail } }.log (.xioSend s.client.xioHandle packet s.env.send.head)

/-- `sendPacketItem` once `xio_send` has returned. -/
def finishSend (s : Session) (result : MuResult) : Session × MuResult :=
  if result ≠ .zero then (s.log (.sendReturns .muFailure), .muFailure)
  else
    match s.askClock with
    | (none, s) => (s.log (.sendReturns .muFailure), .muFailure)
    | (some currentMs, s) =>
      ({ s with client := { s.client with packetSendTimeMs := currentMs } }.log (.sendReturns .zero), .zero)

/-- The session once `set_error_callback` has called `xio_close`. -/
def Session.failing (s : Session) (errorType : MqttClientEventError) : Session :=
  (callOnError (s.log (.setErrorCallback errorType)) errorType).log (.xioClose s.client.xioHandle)

/-- The session once `close_connection` has forgotten the xio. -/
def Session.detached (s : Session) : Session := { s with client := { s.client with xioHandle := none } }

/-- A run of callbacks. -/
inductive IoRun : Session → Session → Prop
  | refl (s : Session) : IoRun s s
  | trans {s t u : Session} : IoRun s t → IoRun t u → IoRun s u
  | direct {s t : Session} {l : List Action} : Local s.client s.history t.client l →
      t.history = s.history ++ l → SameAnswers s t → IoRun s t
  | fail {s t : Session} (errorType : MqttClientEventError) : errorType ≠ .noPingResponse →
      s.client.mqttStatus.socketConnected = true → IoRun (s.failing errorType) t → IoRun s t.detached
  | connect {s u t : Session} {packet : Buffer} : s.client.mqttStatus.socketConnected = false →
      (mqttCodecConnect s.client.mqttOptions).Produces packet →
      u.client =
        { s.client with packetState := .connectType, mqttStatus := { s.client.mqttStatus with socketConnected := true } } →
      u.history = s.history ++ [.event (.openComplete .ioOpenOk), .connPacket (some packet)] → SameAnswers s u →
      IoRun (u.handOver packet) t → IoRun s (finishSend t u.env.send.head).1

/-! ## The functions -/

/-- Nothing but answers that are not about sends or times has been used up. -/
theorem ioRun_env (s t : Session) (hc : t.client = s.client) (hh : t.history = s.history) (he : SameAnswers s t) : IoRun s t :=
  .direct (l := []) (hc ▸ .idle) (by rw [hh, List.append_nil]) he

theorem ioRun_alloc {α : Type} (s : Session) (m : Alloc α) : IoRun s (s.alloc m).2 := ioRun_env s _ rfl rfl ⟨rfl, rfl⟩

theorem history_failing (s : Session) (e : MqttClientEventError) :
    (s.failing e).history = s.history ++ (reportOf s.client e ++ [.xioClose s.client.xioHandle]) := by
  have hreport : (callOnError (s.log (.setErrorCallback e)) e).history = s.history ++ reportOf s.client e := by
    rw [history_callOnError, Session.log, List.append_assoc]
    rfl
  unfold Session.failing
  rw [Session.log, hreport, List.append_assoc]

theorem client_failing (s : Session) (e : MqttClientEventError) : (s.failing e).client = s.client :=
  client_callOnError (s.log (.setErrorCallback e)) e

theorem env_callOnError (s : Session) (e : MqttClientEventError) : (callOnError s e).env = s.env := by
  unfold callOnError
  split <;> rfl

theorem env_callDisconnectCb (s : Session) : (callDisconnectCb s).env = s.env := by
  unfold callDisconnectCb
  split <;> rfl

section

variable {dispatch : List IoEvent → Session → Session}

theorem sendPacketItem_eq (s : Session) (packet : Buffer) :
    sendPacketItem dispatch s packet = finishSend (callBack dispatch (s.handOver packet)) s.env.send.head := rfl

/-- What `sendPacketItem` does once `xio_send` has returned: the client, the entries it adds, and what it returns. -/
inductive Finishes (c : MqttClient) (result : MuResult) : MqttClient → List Action → MuResult → Prop
  | refused : result ≠ .zero → Finishes c result c [.sendReturns .muFailure] .muFailure
  | noTime : result = .zero → Finishes c result c [.clock none, .sendReturns .muFailure] .muFailure
  | stamped (currentMs : UInt64) : result = .zero →
      Finishes c result { c with packetSendTimeMs := currentMs } [.clock (some currentMs), .sendReturns .zero] .zero

theorem finishes (s : Session) (result : MuResult) :
    ∃ added, Finishes s.client result (finishSend s result).1.client added (finishSend s result).2 ∧
      (finishSend s result).1.history = s.history ++ added := by
  unfold finishSend
  split
  · rename_i hr
    exact ⟨_, .refused hr, rfl⟩
  · rename_i hr
    have hzero : result = .zero := not_not.mp hr
    unfold Session.askClock
    rcases hclock : s.env.clock.head with _ | currentMs
    · exact ⟨_, .noTime hzero, by simp [Session.log]⟩
    · exact ⟨_, .stamped currentMs hzero, by simp [Session.log]⟩

/-- The last entry of a send that fails. -/
theorem getLast?_finishSend {s : Session} {result : MuResult} (h : (finishSend s result).2 ≠ .zero) :
    (finishSend s result).1.history.getLast? = some (.sendReturns .muFailure) := by
  obtain ⟨added, hf, hh⟩ := finishes s result
  rw [hh]
  generalize (finishSend s result).2 = returned at h hf
  generalize (finishSend s result).1.client = c at hf
  cases hf with
  | refused => exact List.getLast?_concat
  | noTime => simp
  | stamped => exact absurd rfl h

/-- What the xio's callbacks do is runs of callbacks. -/
def MakesRuns (dispatch : List IoEvent → Session → Session) : Prop := ∀ events s, IoRun s (dispatch events s)

variable (hd : MakesRuns dispatch)

include hd

theorem ioRun_callBack (s : Session) : IoRun s (callBack dispatch s) := by
  have henv : IoRun s { s with env := { s.env with sync := s.env.sync.tail } } := ioRun_env s _ rfl rfl ⟨rfl, rfl⟩
  exact henv.trans (hd _ _)

theorem ioRun_closeLoop (rounds : Nat) (s : Session) : IoRun s (closeLoop dispatch rounds s) := by
  induction rounds generalizing s with
  | zero => exact .refl s
  | succ rounds ih =>
    have hlog : IoRun s (s.log (.xioDowork s.client.xioHandle)) := .direct .working rfl ⟨rfl, rfl⟩
    have hwork : IoRun s (xioDowork dispatch s) := hlog.trans (ioRun_callBack hd _)
    simp only [closeLoop]
    split
    · exact hwork.trans (ih _)
    · exact hwork

/-- `close_connection` on a socket that is connected, after its call of `xio_close`. -/
theorem closeConnection_open {s : Session} (hs : s.client.mqttStatus.socketConnected = true) :
    ∃ t, IoRun (s.log (.xioClose s.client.xioHandle)) t ∧ closeConnection dispatch s = t.detached := by
  refine ⟨_, ?_, if_pos hs⟩
  have hclose : IoRun (s.log (.xioClose s.client.xioHandle)) (xioClose dispatch s) := ioRun_callBack hd _
  split
  · exact hclose.trans (ioRun_closeLoop hd _ _)
  · exact hclose

omit hd in
theorem closeConnection_closed {s : Session} (hs : s.client.mqttStatus.socketConnected = false) :
    closeConnection dispatch s = callDisconnectCb s := if_neg (by rw [hs]; exact Bool.false_ne_true)

theorem ioRun_setErrorCallback (s : Session) {e : MqttClientEventError} (he : e ≠ .noPingResponse) :
    IoRun s (setErrorCallback dispatch s e) := by
  have hclient : (callOnError (s.log (.setErrorCallback e)) e).client = s.client := client_callOnError _ e
  unfold setErrorCallback
  rcases hs : s.client.mqttStatus.socketConnected
  · rw [closeConnection_closed (by rw [hclient]; exact hs)]
    refine .direct (l := reportOf s.client e ++ disconnectedOf s.client) ?_ ?_ ?_
    · rw [client_callDisconnectCb, hclient]
      exact .failed e he hs
    · rw [history_callDisconnectCb, hclient, history_callOnError, Session.log]
      simp [reportOf]
    · rw [SameAnswers, env_callDisconnectCb, env_callOnError]
      exact ⟨rfl, rfl⟩
  · obtain ⟨t, hrun, heq⟩ := closeConnection_open hd (s := callOnError (s.log (.setErrorCallback e)) e) (by rw [hclient]; exact hs)
    rw [heq]
    rw [hclient] at hrun
    exact .fail e he hs hrun

theorem ioRun_sendComplete (s : Session) (r : IoSendResult) : IoRun s (sendComplete dispatch s r) := by
  unfold sendComplete
  cases r with
  | ioSendOk =>
    dsimp only
    split
    · rename_i hstate
      exact .direct (.sent hstate) (by simp [Session.log, Session.setPendingClose, Session.setStatus]) ⟨rfl, rfl⟩
    · rename_i hstate
      exact .direct (.notSent .ioSendOk fun _ => hstate) rfl ⟨rfl, rfl⟩
  | ioSendError =>
    have hlog : IoRun s (s.log (.event (.sendComplete .ioSendError))) :=
      .direct (.notSent .ioSendError IoSendResult.noConfusion) rfl ⟨rfl, rfl⟩
    exact hlog.trans (ioRun_setErrorCallback hd _ MqttClientEventError.noConfusion)
  | ioSendCancelled => exact .direct (.notSent .ioSendCancelled IoSendResult.noConfusion) rfl ⟨rfl, rfl⟩

/-- The open of a socket when none is connected: the CONNECT packet is built, and sent if that succeeds. -/
theorem ioRun_openOk (s : Session) (hs : s.client.mqttStatus.socketConnected = false) :
    IoRun s (sendConnPacket dispatch (beginOpen (s.log (.event (.openComplete .ioOpenOk))))) := by
  unfold sendConnPacket
  generalize hbegin : beginOpen (s.log (.event (.openComplete .ioOpenOk))) = b
  have hclient : b.client =
      { s.client with packetState := .connectType, mqttStatus := { s.client.mqttStatus with socketConnected := true } } := by
    rw [← hbegin]
    rfl
  have hhist : b.history = s.history ++ [.event (.openComplete .ioOpenOk)] := by
    rw [← hbegin]
    rfl
  have hansw : SameAnswers s b := by
    rw [← hbegin]
    exact ⟨rfl, rfl⟩
  rcases halloc : b.alloc (mqttCodecConnect b.client.mqttOptions) with ⟨_ | packet, b'⟩
  all_goals
    have hclient' : b'.client = b.client := client_of_alloc halloc
    have hhist' : b'.history = b.history := history_of_alloc halloc
    have hansw' : SameAnswers s b' := by
      rw [show b' = (b.alloc (mqttCodecConnect b.client.mqttOptions)).2 by rw [halloc]]
      exact hansw
  · refine .direct (l := [.event (.openComplete .ioOpenOk), .connPacket none]) ?_ ?_ hansw'
    · change Local s.client s.history b'.client _
      rw [hclient', hclient]
      exact .openNoPacket hs
    · change b'.history ++ _ = _
      rw [hhist', hhist, List.append_assoc]
      rfl
  · have hbuilt : (mqttCodecConnect s.client.mqttOptions).Produces packet := by
      have := alloc_produces halloc
      rwa [hclient] at this
    have hsend : IoRun s (sendPacketItem dispatch (b'.log (.connPacket (some packet))) packet).1 := by
      rw [sendPacketItem_eq]
      refine .connect hs hbuilt (hclient'.trans hclient) ?_ hansw' (ioRun_callBack hd _)
      change b'.history ++ _ = _
      rw [hhist', hhist, List.append_assoc]
      rfl
    dsimp only
    split
    · rename_i hfail
      refine hsend.trans (.direct (l := onErrorOf _ .connectionError) ?_ (history_callOnError _ _) ?_)
      · rw [Session.setPendingClose, Session.setStatus, client_callOnError]
        exact .connectFailed (getLast?_finishSend hfail)
      · change SameAnswers _ (callOnError _ _)
        rw [SameAnswers, env_callOnError]
        exact ⟨rfl, rfl⟩
    · exact hsend

omit hd in
theorem ioRun_onConnectionClosed (s : Session) : IoRun s (onConnectionClosed s) := by
  unfold onConnectionClosed
  refine .direct (l := .event .closeComplete :: disconnectedOf s.client) ?_ ?_ ?_
  · rw [client_callDisconnectCb]
    exact .closed
  · rw [history_callDisconnectCb]
    simp only [Session.setStatus, Session.log, List.append_assoc, List.singleton_append]
    rfl
  · rw [SameAnswers, env_callDisconnectCb]
    exact ⟨rfl, rfl⟩

omit hd in
/-- The open of a socket that fails, or that comes when a socket is already connected. -/
theorem ioRun_openRefused (s : Session) {r : IoOpenResult} (hr : r ≠ .ioOpenOk ∨ s.client.mqttStatus.socketConnected = true) :
    IoRun s (if s.client.mqttStatus.socketConnected = false then callOnError (s.log (.event (.openComplete r))) .connectionError
      else s.log (.event (.openComplete r))).setPendingClose := by
  have hrefused := Local.openRefused (h := s.history) r hr
  rcases hs : s.client.mqttStatus.socketConnected
  · rw [hs, if_neg Bool.false_ne_true] at hrefused
    rw [if_pos rfl]
    refine .direct (l := .event (.openComplete r) :: onErrorOf s.client .connectionError) ?_ ?_ ?_
    · rw [Session.setPendingClose, Session.setStatus, client_callOnError]
      exact hrefused
    · change (callOnError _ _).history = _
      rw [history_callOnError, Session.log, List.append_assoc]
      rfl
    · change SameAnswers s (callOnError _ _)
      rw [SameAnswers, env_callOnError]
      exact ⟨rfl, rfl⟩
  · rw [hs, if_pos rfl] at hrefused
    rw [if_neg (by simp)]
    exact .direct hrefused rfl ⟨rfl, rfl⟩

theorem ioRun_onOpenComplete (s : Session) (r : IoOpenResult) : IoRun s (onOpenComplete dispatch s r) := by
  unfold onOpenComplete
  dsimp only
  split
  · rename_i h
    obtain ⟨rfl, hs⟩ := h
    exact ioRun_openOk hd s hs
  · rename_i h
    have hr : r ≠ .ioOpenOk ∨ s.client.mqttStatus.socketConnected = true := by
      rcases hs : s.client.mqttStatus.socketConnected
      · exact Or.inl fun hr => h ⟨hr, hs⟩
      · exact Or.inr rfl
    exact ioRun_openRefused s hr

theorem ioRun_handleEvent (s : Session) (e : IoEvent) : IoRun s (handleEvent dispatch s e) := by
  cases e with
  | openComplete r => exact ioRun_onOpenComplete hd s r
  | ioError =>
    have hlog : IoRun s (s.log (.event .ioError)) := .direct .ioError rfl ⟨rfl, rfl⟩
    exact hlog.trans (ioRun_setErrorCallback hd _ MqttClientEventError.noConfusion)
  | sendComplete r => exact ioRun_sendComplete hd s r
  | closeComplete => exact ioRun_onConnectionClosed s

theorem ioRun_handleEvents (events : List IoEvent) (s : Session) : IoRun s (events.foldl (handleEvent dispatch) s) := by
  induction events generalizing s with
  | nil => exact .refl s
  | cons e events ih => exact (ioRun_handleEvent hd s e).trans (ih _)

end

/-- The callbacks are runs of callbacks, however deep they are nested. -/
theorem ioRun_deliver (depth : Nat) : MakesRuns (deliver depth) := by
  induction depth with
  | zero => exact fun _ s => .refl s
  | succ depth ih => exact fun events s => ioRun_handleEvents ih events s

/-! ## The entries -/

/-- The entries that callbacks leave, but for the event of a DISCONNECT and the calls of `xio_close` and `xio_send`. -/
def Action.Plain : Action → Prop
  | .event _ | .xioDowork _ | .clock _ | .connPacket _ | .sendReturns _ | .disconnected _ => True
  | .setErrorCallback errorType | .onError errorType => errorType ≠ .noPingResponse
  | _ => False

/-- The entries that callbacks leave: the only packet that they send is CONNECT. -/
def Action.OfIo (a : Action) : Prop :=
  a.Plain ∨ a = .operation .onDisconnect ∨ (∃ x, a = .xioClose x) ∨ ∃ x p r, a = .xioSend x p r ∧ p.packetType = some .connectType

theorem mem_onErrorOf {c : MqttClient} {e : MqttClientEventError} {a : Action} (h : a ∈ onErrorOf c e) : a = .onError e := by
  unfold onErrorOf at h
  split at h
  · exact List.mem_singleton.mp h
  · exact absurd h (by simp)

theorem mem_reportOf {c : MqttClient} {e : MqttClientEventError} {a : Action} (h : a ∈ reportOf c e) :
    a = .setErrorCallback e ∨ a = .onError e := (List.mem_cons.mp h).imp id mem_onErrorOf

/-- After `xio_send` the clock is asked at most, and a result returned. -/
theorem mem_finishes {c c' : MqttClient} {result returned : MuResult} {l : List Action} {a : Action}
    (h : Finishes c result c' l returned) (ha : a ∈ l) : (∃ currentMs, a = .clock currentMs) ∨ ∃ r, a = .sendReturns r := by
  cases h with
  | refused => exact Or.inr ⟨_, List.mem_singleton.mp ha⟩
  | noTime | stamped =>
    simp only [List.mem_cons, List.not_mem_nil, or_false] at ha
    exact ha.imp (⟨_, ·⟩) (⟨_, ·⟩)

theorem plain_onErrorOf (c : MqttClient) {e : MqttClientEventError} (he : e ≠ .noPingResponse) : ∀ a ∈ onErrorOf c e, a.Plain := by
  intro a ha
  rw [mem_onErrorOf ha]
  exact he

theorem plain_disconnectedOf (c : MqttClient) : ∀ a ∈ disconnectedOf c, a.Plain := by
  intro a ha
  obtain ⟨callback, -, rfl⟩ := List.mem_map.mp ha
  trivial

theorem plain_reportOf (c : MqttClient) {e : MqttClientEventError} (he : e ≠ .noPingResponse) : ∀ a ∈ reportOf c e, a.Plain := by
  intro a ha
  rcases mem_reportOf ha with rfl | rfl <;> exact he

theorem plain_finishes {c c' : MqttClient} {result returned : MuResult} {l : List Action} (h : Finishes c result c' l returned) :
    ∀ a ∈ l, a.Plain := by
  intro a ha
  rcases mem_finishes h ha with ⟨_, rfl⟩ | ⟨_, rfl⟩ <;> trivial

/-- What is done at once leaves plain entries, unless a DISCONNECT has been sent. -/
theorem entries_local {c c' : MqttClient} {h l : List Action} (hl : Local c h c' l) :
    (∀ a ∈ l, a.Plain) ∨
      (c.packetState = .disconnectType ∧ l = [.event (.sendComplete .ioSendOk), .operation .onDisconnect]) := by
  cases hl with
  | sent hstate => exact Or.inr ⟨hstate, rfl⟩
  | idle => exact Or.inl (by simp)
  | working | ioError | notSent => exact Or.inl fun a ha => List.mem_singleton.mp ha ▸ trivial
  | openNoPacket =>
    refine Or.inl ?_
    intro a ha
    simp only [List.mem_cons, List.not_mem_nil, or_false] at ha
    rcases ha with rfl | rfl <;> trivial
  | openRefused =>
    refine Or.inl ?_
    intro a ha
    rcases List.mem_cons.mp ha with rfl | ha
    · trivial
    · split at ha
      · exact absurd ha (by simp)
      · exact plain_onErrorOf c MqttClientEventError.noConfusion a ha
  | connectFailed => exact Or.inl (plain_onErrorOf c MqttClientEventError.noConfusion)
  | closed =>
    refine Or.inl ?_
    intro a ha
    rcases List.mem_cons.mp ha with rfl | ha
    · trivial
    · exact plain_disconnectedOf c a ha
  | failed e he => exact Or.inl fun a ha => (List.mem_append.mp ha).elim (plain_reportOf c he a) (plain_disconnectedOf c a)

theorem ofIo_local {c c' : MqttClient} {h l : List Action} (hl : Local c h c' l) : ∀ a ∈ l, a.OfIo := by
  rcases entries_local hl with hplain | ⟨-, rfl⟩
  · exact fun a ha => Or.inl (hplain a ha)
  · intro a ha
    simp only [List.mem_cons, List.not_mem_nil, or_false] at ha
    rcases ha with rfl | rfl
    · exact Or.inl trivial
    · exact Or.inr (Or.inl rfl)

theorem added_ioRun {s t : Session} (h : IoRun s t) : ∃ l, t.history = s.history ++ l ∧ ∀ a ∈ l, a.OfIo := by
  induction h with
  | refl s => exact ⟨[], by simp, by simp⟩
  | trans _ _ ih ih' =>
    obtain ⟨l, hh, hl⟩ := ih
    obtain ⟨l', hh', hl'⟩ := ih'
    exact ⟨l ++ l', by rw [hh', hh, List.append_assoc], fun a ha => (List.mem_append.mp ha).elim (hl a) (hl' a)⟩
  | direct hl hh _ => exact ⟨_, hh, ofIo_local hl⟩
  | @fail s t e he _ _ ih =>
    obtain ⟨l, hh, hl⟩ := ih
    rw [history_failing, List.append_assoc] at hh
    refine ⟨_, hh, ?_⟩
    intro a ha
    simp only [List.mem_append, List.mem_cons, List.not_mem_nil, or_false] at ha
    rcases ha with (ha | rfl) | ha
    · exact Or.inl (plain_reportOf s.client he a ha)
    · exact Or.inr (Or.inr (Or.inl ⟨_, rfl⟩))
    · exact hl a ha
  | @connect s u t packet _ hp _ hh _ _ ih =>
    obtain ⟨l, hh', hl⟩ := ih
    obtain ⟨more, hf, hmore⟩ := finishes t u.env.send.head
    refine ⟨[.event (.openComplete .ioOpenOk), .connPacket (some packet)] ++
      .xioSend u.client.xioHandle packet u.env.send.head :: (l ++ more), ?_, fun a ha => ?_⟩
    · rw [hmore, hh', Session.handOver, Session.log, hh]
      simp
    · simp only [List.mem_append, List.mem_cons, List.not_mem_nil, or_false] at ha
      rcases ha with (rfl | rfl) | rfl | ha | ha
      · exact Or.inl trivial
      · exact Or.inl trivial
      · exact Or.inr (Or.inr (Or.inr ⟨_, _, _, rfl, (packetType_mqttCodecConnect s.client.mqttOptions).of_produces hp⟩))
      · exact hl a ha
      · exact Or.inl (plain_finishes hf a ha)

theorem Action.OfIo.ofCallback {a : Action} (h : a.OfIo) : a.OfCallback := by
  rcases h with h | rfl | ⟨x, rfl⟩ | ⟨x, p, r, rfl, hp⟩
  · cases a with
    | connect | disconnect | clearXio | bytesReceived | packet | xioSend => exact absurd h id
    | _ => trivial
  · trivial
  · trivial
  · simp [OfCallback, hp]

end Umqtt
