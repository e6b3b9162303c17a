import Umqtt.Lemmas.Heard

/-!
# What a received packet makes the client report

The reports of a history are its errors, events and messages: the calls of `set_error_callback`, of `fnOperationCallback` and of
`fnMessageRecv`. In surroundings in which all memory is there, all sends succeed and the clock runs (`Ready`), the reports that a
packet leads to are a function of the packet (`reportsOf`), whatever sends and closes complete in the meantime.
-/

namespace Umqtt

open Alloc

/-! ## Reports -/

/-- `set_error_callback`, `fnOperationCallback` or `fnMessageRecv` is called. The event of a DISCONNECT that has been sent belongs to a
send, and is left out. -/
def Action.isReport : Action → Bool
  | .setErrorCallback _ | .messageRecv _ _ => true
  | .operation actionResult => actionResult ≠ .onDisconnect
  | _ => false

/-- A send that was accepted, or a close, has completed: no error is reported for it. -/
def IoEvent.isHarmless : IoEvent → Bool
  | .sendComplete sendResult => sendResult ≠ .ioSendError
  | .closeComplete => true
  | _ => false

/-- All memory is there, every send is accepted and the clock runs; what is called back before a call returns is that a send or a close
has completed. -/
structure Ready (env : Env) : Prop where
  heap : env.heap = okHeap
  send : ∀ n, env.send n = .zero
  clock : ∀ n, env.clock n ≠ none
  sync : ∀ n, ∀ e ∈ env.sync n, e.isHarmless = true

/-- The session moves on in such surroundings, and `out` are the new reports. -/
structure Reports (s t : Session) (out : List Action) : Prop where
  ready : Ready t.env
  trace : ∃ added, t.history = s.history ++ added ∧ added.filter Action.isReport = out

theorem Reports.refl {s : Session} (h : Ready s.env) : Reports s s [] := ⟨h, [], by simp, rfl⟩

theorem Reports.trans {s t u : Session} {out out' : List Action} (h : Reports s t out) (h' : Reports t u out') :
    Reports s u (out ++ out') := by
  obtain ⟨added, h1, h2⟩ := h.trace
  obtain ⟨more, h3, h4⟩ := h'.trace
  exact ⟨h'.ready, added ++ more, by rw [h3, h1, List.append_assoc], by rw [List.filter_append, h2, h4]⟩

/-- A move without reports, before another one. -/
theorem Reports.after {s t u : Session} {out : List Action} (h : Reports s t []) (h' : Reports t u out) : Reports s u out := h.trans h'

/-- A move without reports, after another one. -/
theorem Reports.before {s t u : Session} {out : List Action} (h : Reports s t out) (h' : Reports t u []) : Reports s u out := by
  have := h.trans h'
  rwa [List.append_nil] at this

/-- A change of the client alone. -/
theorem reports_client {s : Session} (h : Ready s.env) (c : MqttClient) : Reports s { s with client := c } [] :=
  ⟨h, [], by simp, rfl⟩

/-- An entry. -/
theorem reports_log {s : Session} (h : Ready s.env) (a : Action) :
    Reports s (s.log a) (if a.isReport then [a] else []) := by
  refine ⟨h, [a], rfl, ?_⟩
  split
  · rename_i ha
    exact List.filter_cons_of_pos ha
  · rename_i ha
    exact List.filter_cons_of_neg ha

/-! ## The functions -/

/-- What completes is not reported. -/
def Silently (dispatch : List IoEvent → Session → Session) : Prop :=
  ∀ events s, Ready s.env → (∀ e ∈ events, e.isHarmless = true) → Reports s (dispatch events s) []

theorem reports_callDisconnectCb {s : Session} (h : Ready s.env) : Reports s (callDisconnectCb s) [] := by
  unfold callDisconnectCb
  split
  · exact Reports.refl h
  · exact reports_log h (.disconnected _)

theorem reports_callOnError {s : Session} (h : Ready s.env) (e : MqttClientEventError) : Reports s (callOnError s e) [] := by
  unfold callOnError
  split
  · exact reports_log h (.onError e)
  · exact Reports.refl h

theorem reports_completion (dispatch : List IoEvent → Session → Session) {s : Session} (h : Ready s.env) {e : IoEvent}
    (he : e.isHarmless = true) : Reports s (handleEvent dispatch s e) [] := by
  cases e with
  | sendComplete sendResult =>
    have hlog : Reports s (s.log (.event (.sendComplete sendResult))) [] := reports_log h _
    unfold handleEvent sendComplete
    cases sendResult with
    | ioSendOk =>
      dsimp only
      split
      · have hdone := hlog.after (reports_log hlog.ready (.operation .onDisconnect))
        exact hdone.after (reports_client hdone.ready _)
      · exact hlog
    | ioSendError => exact absurd he (by decide)
    | ioSendCancelled => exact hlog
  | closeComplete =>
    have hlog : Reports s (s.log (.event .closeComplete)) [] := reports_log h _
    have hstatus : Reports s ((s.log (.event .closeComplete)).setStatus fun status => { status with socketConnected := false }) [] :=
      hlog.after (reports_client hlog.ready _)
    exact hstatus.after (reports_callDisconnectCb hstatus.ready)
  | _ => exact absurd he Bool.false_ne_true

/-- Completions are not reported, however deep they are nested. -/
theorem silently_deliver (depth : Nat) : Silently (deliver depth) := by
  cases depth with
  | zero => exact fun _ _ h _ => Reports.refl h
  | succ depth =>
    intro events
    induction events with
    | nil => exact fun _ h _ => Reports.refl h
    | cons e events ih =>
      intro s h he
      have hfirst := reports_completion (deliver depth) h (he e List.mem_cons_self)
      exact hfirst.after (ih _ hfirst.ready fun x hx => he x (List.mem_cons_of_mem _ hx))

section

variable {dispatch : List IoEvent → Session → Session} (hd : Silently dispatch) {s : Session}

include hd

theorem reports_callBack (h : Ready s.env) : Reports s (callBack dispatch s) [] := by
  have henv : Reports s { s with env := { s.env with sync := s.env.sync.tail } } [] :=
    ⟨⟨h.heap, h.send, h.clock, fun n => h.sync (n + 1)⟩, [], by simp, rfl⟩
  exact henv.after (hd _ _ henv.ready (h.sync 0))

/-- `sendPacketItem` succeeds. -/
theorem reports_sendPacketItem (h : Ready s.env) (packet : Buffer) :
    Reports s (sendPacketItem dispatch s packet).1 [] ∧ (sendPacketItem dispatch s packet).2 = .zero := by
  have hsend : Reports s ({ s with env := { s.env with send := s.env.send.tail } }.log
      (.xioSend s.client.xioHandle packet s.env.send.head)) [] :=
    ⟨⟨h.heap, fun n => h.send (n + 1), h.clock, h.sync⟩, _, rfl, rfl⟩
  have hxio : Reports s (xioSend dispatch s packet).1 [] := hsend.after (reports_callBack hd hsend.ready)
  have hzero : (xioSend dispatch s packet).2 = .zero := h.send 0
  have hclock : Reports s (xioSend dispatch s packet).1.askClock.2 [] :=
    hxio.after ⟨⟨hxio.ready.heap, hxio.ready.send, fun n => hxio.ready.clock (n + 1), hxio.ready.sync⟩, _, rfl, rfl⟩
  simp only [sendPacketItem, hzero, ne_eq, not_true_eq_false, if_false]
  rcases hc : (xioSend dispatch s packet).1.askClock with ⟨_ | currentMs, t⟩
  · exact absurd (congrArg Prod.fst hc) (hxio.ready.clock 0)
  · rw [hc] at hclock
    have hstamp := hclock.after (reports_client hclock.ready { t.client with packetSendTimeMs := currentMs })
    exact ⟨hstamp.after (reports_log hstamp.ready (.sendReturns .zero)), rfl⟩

theorem reports_closeLoop (rounds : Nat) (h : Ready s.env) : Reports s (closeLoop dispatch rounds s) [] := by
  induction rounds generalizing s with
  | zero => exact Reports.refl h
  | succ rounds ih =>
    have hlog : Reports s (s.log (.xioDowork s.client.xioHandle)) [] := reports_log h _
    have hwork : Reports s (xioDowork dispatch s) [] := hlog.after (reports_callBack hd hlog.ready)
    unfold closeLoop
    dsimp only
    split
    · exact hwork.after (ih hwork.ready)
    · exact hwork

theorem reports_closeConnection (h : Ready s.env) : Reports s (closeConnection dispatch s) [] := by
  unfold closeConnection
  split
  · have hlog : Reports s (s.log (.xioClose s.client.xioHandle)) [] := reports_log h _
    have hclose : Reports s (xioClose dispatch s) [] := hlog.after (reports_callBack hd hlog.ready)
    dsimp only
    split
    · have hloop := hclose.after (reports_closeLoop hd maxCloseRetries hclose.ready)
      exact hloop.after (reports_client hloop.ready _)
    · exact hclose.after (reports_client hclose.ready _)
  · exact reports_callDisconnectCb h

/-- `set_error_callback` is one report. -/
theorem reports_setErrorCallback (h : Ready s.env) (e : MqttClientEventError) :
    Reports s (setErrorCallback dispatch s e) [.setErrorCallback e] := by
  have hlog : Reports s (s.log (.setErrorCallback e)) [.setErrorCallback e] := reports_log h _
  have hcall := hlog.before (reports_callOnError hlog.ready e)
  exact hcall.before (reports_closeConnection hd hcall.ready)

/-- A reply that is built is sent. -/
theorem reports_sendReply (h : Ready s.env) {reply : Alloc Buffer} {packet : Buffer} (hr : reply.Gives packet) :
    Reports s (sendReply dispatch s reply) [] := by
  obtain ⟨hsend, hzero⟩ := reports_sendPacketItem hd h packet
  simp only [sendReply, alloc_okHeap h.heap hr, hzero, ne_eq, not_true_eq_false, if_false]
  exact hsend

theorem reports_sendMessageAck (h : Ready s.env) (packetId : UInt16) (qosValue : QosValue) :
    Reports s (sendMessageAck dispatch s packetId qosValue) [] := by
  cases qosValue with
  | deliverExactlyOnce => exact reports_sendReply hd h (gives_constructPublishReply .pubrecType 0 packetId)
  | deliverAtLeastOnce => exact reports_sendReply hd h (gives_constructPublishReply .pubackType 0 packetId)
  | _ => exact Reports.refl h

omit hd in
/-- A message is handed to the application. -/
theorem reports_fnMessageRecv (h : Ready s.env) (m : MqttMessage) :
    Reports s (fnMessageRecv s m).2 [.messageRecv m s.env.ack.head] :=
  ⟨⟨h.heap, h.send, h.clock, h.sync⟩, [.messageRecv m s.env.ack.head], rfl, rfl⟩

/-! ## Packets -/

/-- A PUBLISH is reported as its message, or as an error. -/
theorem reports_processPublishMessage (h : Ready s.env) (flags : UInt8) (body : List UInt8) :
    Reports s (processPublishMessage dispatch s body flags)
      (match publishMessage flags body with
      | none => [.setErrorCallback .parseError]
      | some m => [.messageRecv m s.env.ack.head]) := by
  have hmet : Meets s.env.heap 2 := h.heap ▸ meets_okHeap 2
  obtain ⟨n, heq⟩ := @processPublishMessage_met dispatch s hmet flags body
  rw [takeAnswers_okHeap h.heap] at heq
  rw [heq]
  rcases publishMessage flags body with _ | m
  · exact reports_setErrorCallback hd h _
  · have hmessage := reports_fnMessageRecv h m
    dsimp only
    split
    · exact hmessage.before (reports_sendMessageAck hd hmessage.ready _ _)
    · exact hmessage

/-- The reports of a SUBACK: an error when the memory for its return codes cannot be counted, otherwise the event with the return codes up
to the first that does not pass the check, after an error if there is one. -/
def subackReports (body : List UInt8) : List Action :=
  if safeMultiplySizeT sizeofQosValue (subackRemainLen body.length) ≠ sizeMax then
    (if ∀ code ∈ body.drop 2, code &&& 0x7C = 0 then [] else [.setErrorCallback .communicationError]) ++
      [.operation (.onSubscribeAck
        { packetId := idOf body, qosReturn := ((body.drop 2).takeWhile (· &&& 0x7C = 0)).map subackQosValue })]
  else [.setErrorCallback .memoryError]

omit hd in
/-- A body shorter than a packet id has more return codes than memory can be counted for. -/
theorem le_of_safeMultiplySizeT {packetLength : Nat}
    (h : safeMultiplySizeT sizeofQosValue (subackRemainLen packetLength) ≠ sizeMax) : 2 ≤ packetLength := by
  by_contra hlt
  have hcases : packetLength = 0 ∨ packetLength = 1 := by omega
  rcases hcases with rfl | rfl <;> exact h (by decide)

/-- The return codes of a SUBACK, when there are as many as the body has bytes after the packet id. -/
theorem reports_processSubackCodes (h : Ready s.env) {body : List UInt8} (packetId : UInt16) {iterator remainLen : Nat}
    (hloop : safeMultiplySizeT sizeofQosValue remainLen ≠ sizeMax → iterator + remainLen = body.length) :
    Reports s (processSubackCodes dispatch s body packetId iterator remainLen)
      (if safeMultiplySizeT sizeofQosValue remainLen ≠ sizeMax then
        (if ∀ code ∈ body.drop iterator, code &&& 0x7C = 0 then [] else [.setErrorCallback .communicationError]) ++
          [.operation (.onSubscribeAck
            { packetId := packetId, qosReturn := ((body.drop iterator).takeWhile (· &&& 0x7C = 0)).map subackQosValue })]
      else [.setErrorCallback .memoryError]) := by
  unfold processSubackCodes
  split
  · rename_i hsize
    rw [alloc_okHeap h.heap gives_takeMemory]
    simp only [subackLoop_takeWhile body _ iterator [] (hloop hsize), List.nil_append]
    split
    · exact reports_log h (.operation (.onSubscribeAck _))
    · have herror := reports_setErrorCallback hd h .communicationError
      exact herror.trans (reports_log herror.ready (.operation (.onSubscribeAck _)))
  · exact reports_setErrorCallback hd h _

theorem reports_processSuback (h : Ready s.env) {body : List UInt8} (hle : body.length ≤ sizeMax) :
    Reports s (processSuback dispatch s body) (subackReports body) := by
  by_cases hsize : safeMultiplySizeT sizeofQosValue (subackRemainLen body.length) ≠ sizeMax
  · have hge := le_of_safeMultiplySizeT hsize
    have hid : byteutilReadUint16 body 0 body.length = (idOf body, 2) := by
      rw [idOf, byteutilReadUint16, if_pos hge]
    have hloop : 2 + subackRemainLen body.length = body.length := by
      rw [subackRemainLen_eq hge hle]
      omega
    rw [processSuback, hid, subackReports]
    exact reports_processSubackCodes hd h _ fun _ => hloop
  · have hnone : safeMultiplySizeT sizeofQosValue (subackRemainLen body.length) ≠ sizeMax →
        (byteutilReadUint16 body 0 body.length).2 + subackRemainLen body.length = body.length := fun hne => absurd hne hsize
    have hcodes := reports_processSubackCodes hd h (byteutilReadUint16 body 0 body.length).1 hnone
    rw [if_neg hsize] at hcodes
    rw [subackReports, if_neg hsize]
    exact hcodes

/-- What is reported when the packet says this to the application, which answers a message with `ack`; none is an error of the given
type. -/
def heardReports (errorType : MqttClientEventError) (ack : MqttClientAckOption) : Option Heard → List Action
  | some (.message m) => [.messageRecv m ack]
  | some (.event actionResult) => [.operation actionResult]
  | some .nothing => []
  | none => [.setErrorCallback errorType]

/-- What a packet is reported as, when the application answers a message with `ack`. -/
def reportsOf (packet : ControlPacketType) (flags : UInt8) (body : List UInt8) (ack : MqttClientAckOption) : List Action :=
  match packet with
  | .subackType => subackReports body
  | .publishType => heardReports .parseError ack (heard packet flags body)
  | _ => heardReports .communicationError ack (heard packet flags body)

/-- A PUBACK, PUBREC, PUBREL or PUBCOMP is reported as its event, or as an error. -/
theorem reports_processPublishAck (h : Ready s.env) (packet : ControlPacketType) (body : List UInt8) :
    Reports s (processPublishAck dispatch s packet body)
      (if body.length = 2 then [.operation (publishAckAction packet (idOf body))] else [.setErrorCallback .communicationError]) := by
  have hevent : Reports s (s.log (.operation (publishAckAction packet (idOf body)))) [.operation (publishAckAction packet (idOf body))] := by
    have hreport : (Action.operation (publishAckAction packet (idOf body))).isReport = true := by
      unfold publishAckAction
      repeat' split
      all_goals rfl
    have := reports_log h (.operation (publishAckAction packet (idOf body)))
    rwa [if_pos hreport] at this
  unfold processPublishAck
  by_cases hlen : body.length = 2
  · rw [if_neg (not_not_intro hlen), if_pos hlen]
    dsimp only
    split
    · exact hevent.before (reports_sendReply hd hevent.ready (gives_constructPublishReply .pubrelType 2 _))
    · split
      · exact hevent.before (reports_sendReply hd hevent.ready (gives_constructPublishReply .pubcompType 0 _))
      · exact hevent
  · rw [if_pos hlen, if_neg hlen]
    exact reports_setErrorCallback hd h _

/-- What a packet makes the client report is a function of the packet. -/
theorem reports_processPacket (h : Ready s.env) (packet : ControlPacketType) (flags : UInt8) {body : List UInt8}
    (hle : body.length ≤ sizeMax) :
    Reports s (processPacket dispatch s packet flags body) (reportsOf packet flags body s.env.ack.head) := by
  have herror := reports_setErrorCallback hd h .communicationError
  cases packet with
  | connackType =>
    have hevent := fun connack => reports_log h (.operation (.onConnack connack))
    simp only [processPacket, processConnack, reportsOf, heard]
    by_cases hlen : body.length = 2
    · by_cases hflags : (byteutilReadByte body 0).1 &&& 0xFE = 0
      · have hok : body.length = 2 ∧ (byteutilReadByte body 0).1 &&& 0xFE = 0 := ⟨hlen, hflags⟩
        rw [if_neg (not_not_intro hlen), if_neg (not_not_intro hflags), if_pos hok]
        split
        · exact (hevent _).before (reports_client (hevent _).ready _)
        · exact hevent _
      · rw [if_neg (not_not_intro hlen), if_pos hflags, if_neg fun hok => hflags hok.2]
        exact herror
    · rw [if_pos hlen, if_neg fun hok => hlen hok.1]
      exact herror
  | publishType =>
    have hpublish := reports_processPublishMessage hd h flags body
    simp only [processPacket, reportsOf, heard]
    rcases hm : publishMessage flags body with _ | m
    · rw [hm] at hpublish
      exact hpublish
    · rw [hm] at hpublish
      exact hpublish
  | pubackType | pubrecType | pubrelType | pubcompType =>
    have hack := fun packet => reports_processPublishAck hd h packet body
    simp only [processPacket, reportsOf, heard]
    by_cases hlen : body.length = 2
    · simp only [if_pos hlen] at hack ⊢
      exact hack _
    · simp only [if_neg hlen] at hack ⊢
      exact hack _
  | subackType => exact reports_processSuback hd h hle
  | unsubackType =>
    simp only [processPacket, processUnsuback, reportsOf, heard]
    by_cases hlen : body.length = 2
    · rw [if_neg (not_not_intro hlen), if_pos hlen]
      exact reports_log h (.operation (.onUnsubscribeAck _))
    · rw [if_pos hlen, if_neg hlen]
      exact herror
  | pingrespType =>
    have hreset := reports_client h { s.client with timeSincePing := 0 }
    exact hreset.after (reports_log hreset.ready (.operation .onPingResponse))
  | controlPacketTypeInvalid | connectType | subscribeType | unsubscribeType | pingreqType | disconnectType | packetTypeError
  | unknownType | packetInvalid1Type | packetInvalid2Type => exact Reports.refl h

end

end Umqtt
