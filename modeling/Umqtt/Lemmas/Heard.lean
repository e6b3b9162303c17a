import Umqtt.Lemmas.Exchanges
import Umqtt.Lemmas.Frames
import Umqtt.Lemmas.Memory

/-!
# What a received packet says, and what is answered

`heard` is what a packet says to the application, none when the client takes the packet for an error, and `replyTo` the packet that
a callback is answered with. In calm surroundings the client's handling of a packet is these two (`emits_processPacket`).
-/

namespace Umqtt

open Alloc

/-! ## Replies -/

/-- A packet of four bytes that is sent in reply. -/
structure Reply where
  type : ControlPacketType
  flags : UInt8
  packetId : UInt16
  deriving DecidableEq

/-- Its bytes. -/
def Reply.bytes (r : Reply) : List UInt8 := replyBytes r.type r.flags r.packetId

/-- The reply to a callback: a PUBACK or a PUBREC for a message that the application has answered with `MQTT_CLIENT_ACK_SYNC`, a
PUBREL for a PUBREC, a PUBCOMP for a PUBREL. -/
def replyTo : Exchange → Option Reply
  | .message m .ackSync =>
    match m.qosInfo with
    | .deliverAtLeastOnce => some ⟨.pubackType, 0, m.packetId⟩
    | .deliverExactlyOnce => some ⟨.pubrecType, 0, m.packetId⟩
    | _ => none
  | .event (.onPublishRecv packetId) => some ⟨.pubrelType, 2, packetId⟩
  | .event (.onPublishRel packetId) => some ⟨.pubcompType, 0, packetId⟩
  | _ => none

/-- The reply, as what is sent. -/
def repliesTo (x : Exchange) : List Exchange := (replyTo x).toList.map fun r => .sent (Buffer.ofBytes r.bytes)

/-- A callback and its reply, which is sent after the callback has returned. -/
def answered (x : Exchange) : List Exchange := x :: repliesTo x

/-! ## Packets -/

/-- What a packet says to the application. -/
inductive Heard where
  | message (m : MqttMessage)
  | event (actionResult : MqttClientEventResult)
  | nothing
  deriving DecidableEq

/-- The callback it is said with, when the application answers a message with `ack`. -/
def Heard.callback (ack : MqttClientAckOption) : Heard → Option Exchange
  | .message m => some (.message m ack)
  | .event actionResult => some (.event actionResult)
  | .nothing => none

/-- Whether the application is asked for an answer. -/
def Heard.asks : Heard → Nat
  | .message _ => 1
  | _ => 0

/-- The packet id at the start of a body. -/
def idOf (body : List UInt8) : UInt16 := (byteutilReadUint16 body 0 body.length).1

/-- The packet id of a PUBLISH, 0 when its quality of service has none, and where its payload starts. -/
def publishPacketId (qosValue : QosValue) (body : List UInt8) (iterator : Nat) : UInt16 × Nat :=
  if qosValue ≠ .deliverAtMostOnce then byteutilReadUint16 body iterator (body.length - iterator) else (0, iterator)

/-- The message that the flags and the body of a PUBLISH stand for. -/
def publishMessage (flags : UInt8) (body : List UInt8) : Option MqttMessage :=
  let stringLen := byteutilReadUint16 body 0 body.length
  let packetId := publishPacketId (publishQosValue flags) body (stringLen.2 + stringLen.1.toNat)
  if stringLen.1.toNat > 0 ∧ stringLen.1.toNat + stringLen.2 ≤ body.length then
    if publishQosValue flags ≠ .deliverAtMostOnce ∧ packetId.1 = 0 then none
    else some
      { packetId := packetId.1, qosInfo := publishQosValue flags, topicName := none, appPayload := [],
        constTopicName := some ((body.drop stringLen.2).take stringLen.1.toNat), constPayload := body.drop packetId.2,
        isDuplicateMsg := flags &&& duplicateFlagMask ≠ 0, isMessageRetained := flags &&& retainFlagMask ≠ 0 }
  else none

/-- What a packet says, none when it is an error. -/
def heard (packet : ControlPacketType) (flags : UInt8) (body : List UInt8) : Option Heard :=
  match packet with
  | .connackType =>
    if body.length = 2 ∧ (byteutilReadByte body 0).1 &&& 0xFE = 0 then
      some (.event (.onConnack { isSessionPresent := (byteutilReadByte body 0).1 = 0x1,
                                 returnCode := connackReturnCode (byteutilReadByte body 1).1 }))
    else none
  | .publishType => (publishMessage flags body).map .message
  | .pubackType | .pubrecType | .pubrelType | .pubcompType =>
    if body.length = 2 then some (.event (publishAckAction packet (idOf body))) else none
  | .subackType =>
    if 2 ≤ body.length ∧ ∀ code ∈ body.drop 2, code &&& 0x7C = 0 then
      some (.event (.onSubscribeAck { packetId := idOf body, qosReturn := (body.drop 2).map subackQosValue }))
    else none
  | .unsubackType => if body.length = 2 then some (.event (.onUnsubscribeAck (idOf body))) else none
  | .pingrespType => some (.event .onPingResponse)
  | _ => some .nothing

theorem publishMessage_qosInfo {flags : UInt8} {body : List UInt8} {m : MqttMessage} (h : publishMessage flags body = some m) :
    m.qosInfo = publishQosValue flags := by
  simp only [publishMessage] at h
  generalize publishPacketId (publishQosValue flags) body _ = packetId at h
  split at h
  · split at h
    · exact absurd h (by simp)
    · rw [← Option.some.inj h]
  · exact absurd h (by simp)

/-! ## The message of an encoded PUBLISH -/

/-- The body of a PUBLISH. -/
def publishBody (qosValue : QosValue) (packetId : UInt16) (topicName : CString) (msgBuffer : List UInt8) : List UInt8 :=
  publishHeader topicName packetId qosValue ++ msgBuffer

/-- The two bytes of a packet id are read back as the packet id. -/
theorem idOf_bytes (packetId : UInt16) : idOf [(packetId / 256).toUInt8, (packetId % 256).toUInt8] = packetId := by
  have hlt := packetId.toNat_lt
  have h : 256 * (packetId / 256).toUInt8.toUInt16 + (packetId % 256).toUInt8.toUInt16 = packetId := by
    apply UInt16.toNat.inj
    simp only [UInt16.toNat_add, UInt16.toNat_mul, UInt8.toNat_toUInt16, UInt16.toNat_toUInt8, UInt16.toNat_div, UInt16.toNat_mod,
      UInt16.reduceToNat]
    omega
  simpa [idOf, byteutilReadUint16] using h

/-- A 16-bit number is read back where it was written. -/
theorem byteutilReadUint16_append (before : List UInt8) (value : UInt16) (rest : List UInt8) {byteLen : Nat} (h : 2 ≤ byteLen) :
    byteutilReadUint16 (before ++ (uint16Bytes value ++ rest)) before.length byteLen = (value, before.length + 2) := by
  have hid := idOf_bytes value
  simp only [idOf, byteutilReadUint16, List.length_cons, List.length_nil] at hid
  rw [byteutilReadUint16, if_pos h]
  have h0 : (before ++ (uint16Bytes value ++ rest))[before.length]? = some (value / 256).toUInt8 := by simp [uint16Bytes]
  have h1 : (before ++ (uint16Bytes value ++ rest))[before.length + 1]? = some (value % 256).toUInt8 := by
    rw [List.getElem?_append_right (by omega)]
    simp [uint16Bytes]
  rw [h0, h1]
  simpa using hid

/-- The packet id is read where the topic ends. -/
theorem publishPacketId_append {qosValue : QosValue} (hq : qosValue ≠ .deliverAtMostOnce) (before : List UInt8) (packetId : UInt16)
    (msgBuffer : List UInt8) :
    publishPacketId qosValue (before ++ (uint16Bytes packetId ++ msgBuffer)) before.length = (packetId, before.length + 2) := by
  rw [publishPacketId, if_pos hq]
  exact byteutilReadUint16_append before packetId msgBuffer (by simp [uint16Bytes])

/-- The message of a body that starts with a topic and its length. -/
theorem publishMessage_topic (flags : UInt8) {len : UInt16} {topicName : List UInt8} (hlen : len.toNat = topicName.length)
    (hpos : 0 < topicName.length) (rest : List UInt8) :
    publishMessage flags (uint16Bytes len ++ topicName ++ rest) =
      let packetId := publishPacketId (publishQosValue flags) (uint16Bytes len ++ topicName ++ rest) (uint16Bytes len ++ topicName).length
      if publishQosValue flags ≠ .deliverAtMostOnce ∧ packetId.1 = 0 then none
      else some
        { packetId := packetId.1, qosInfo := publishQosValue flags, topicName := none, appPayload := [],
          constTopicName := some topicName, constPayload := (uint16Bytes len ++ topicName ++ rest).drop packetId.2,
          isDuplicateMsg := flags &&& duplicateFlagMask ≠ 0, isMessageRetained := flags &&& retainFlagMask ≠ 0 } := by
  have hread : byteutilReadUint16 (uint16Bytes len ++ topicName ++ rest) 0 (uint16Bytes len ++ topicName ++ rest).length = (len, 2) := by
    rw [List.append_assoc]
    exact byteutilReadUint16_append [] len (topicName ++ rest) (by simp [uint16Bytes])
  have hend : 2 + len.toNat = (uint16Bytes len ++ topicName).length := by
    rw [List.length_append, hlen]
    rfl
  have hwithin : len.toNat > 0 ∧ len.toNat + 2 ≤ (uint16Bytes len ++ topicName ++ rest).length := by
    simp only [List.length_append, hlen, uint16Bytes, List.length_cons, List.length_nil]
    omega
  have htopic : ((uint16Bytes len ++ topicName ++ rest).drop 2).take len.toNat = topicName := by
    simp [uint16Bytes, hlen]
  simp only [publishMessage, hread, hend, if_pos hwithin, htopic]

/-- The message that a PUBLISH is read as, when the flags are read as the quality of service it was written with. -/
theorem publishMessage_publishBody {flags : UInt8} {qosValue : QosValue} (hq : publishQosValue flags = qosValue) {packetId : UInt16}
    (hid : qosValue ≠ .deliverAtMostOnce → packetId ≠ 0) {topicName : CString} (hpos : 0 < strlen topicName)
    (hle : strlen topicName ≤ ushrtMax) (msgBuffer : List UInt8) :
    publishMessage flags (publishBody qosValue packetId topicName msgBuffer) = some
      { packetId := if qosValue = .deliverAtMostOnce then 0 else packetId, qosInfo := qosValue, topicName := none, appPayload := [],
        constTopicName := some topicName.val, constPayload := msgBuffer, isDuplicateMsg := flags &&& duplicateFlagMask ≠ 0,
        isMessageRetained := flags &&& retainFlagMask ≠ 0 } := by
  have hlen : (UInt16.ofNat (strlen topicName)).toNat = topicName.val.length := toNat_ofNat_strlen hle
  rw [publishBody, publishHeader, List.append_assoc, publishMessage_topic flags hlen hpos]
  subst hq
  by_cases hmost : publishQosValue flags = .deliverAtMostOnce
  · simp [hmost, publishPacketId]
  · rw [if_pos hmost]
    generalize uint16Bytes (UInt16.ofNat (strlen topicName)) ++ topicName.val = before
    have hdrop : (before ++ (uint16Bytes packetId ++ msgBuffer)).drop (before.length + 2) = msgBuffer := by
      simp [uint16Bytes]
    simp only [publishPacketId_append hmost, hdrop, hid hmost, and_false, if_false, if_neg hmost]

/-! ## Memory that is there -/

/-- The session once the allocator has given `n` answers. -/
def Session.takeAnswers (s : Session) (n : Nat) : Session := { s with env := { s.env with heap := s.env.heap.drop n } }

theorem takeAnswers_add (s : Session) (n k : Nat) : (s.takeAnswers n).takeAnswers k = s.takeAnswers (n + k) := by
  simp only [Session.takeAnswers, Stream'.drop_drop]

theorem takeAnswers_okHeap {s : Session} (h : s.env.heap = okHeap) (n : Nat) : s.takeAnswers n = s := by
  unfold Session.takeAnswers
  rw [h, drop_okHeap, ← h]

/-- A computation returns what it ensures, when the memory that it asks for is there. -/
theorem alloc_met {α : Type} {s : Session} {m : Alloc α} {n : Nat} {a : α} (hm : m.Needs n) (ha : m.Ensures (· = a))
    (h : Meets s.env.heap n) : s.alloc m = (some a, s.takeAnswers n) := by
  obtain ⟨b, hb⟩ := hm.met s.env.heap h
  rw [Session.alloc, hb, ha _ _ _ hb]
  rfl

/-! ## Handling a packet -/

section

variable {dispatch : List IoEvent → Session → Session} (hd : Mild dispatch) {s : Session} (h : Calm s.env)

include h in
theorem moves_fnMessageRecv (m : MqttMessage) :
    (fnMessageRecv s m).1 = s.env.ack.head ∧ Moves s (fnMessageRecv s m).2 1 [.message m s.env.ack.head] := by
  refine ⟨rfl, ⟨h.heap, h.send, h.sync⟩, id, rfl, ?_⟩
  simp [fnMessageRecv, Session.askAck, Session.log, exchanges, Action.asExchange]

include hd h

theorem emits_sendMessageAck (m : MqttMessage) :
    Emits s (sendMessageAck dispatch s m.packetId m.qosInfo) 0 (repliesTo (.message m .ackSync)) := by
  have hnone : Emits s s 0 [] := (Moves.refl h).emits (by simp)
  rcases hq : m.qosInfo
  all_goals simp only [sendMessageAck, repliesTo, replyTo, hq]
  · exact hnone
  · exact hnone
  · exact emits_sendReply hd h (gives_constructPublishReply .pubackType 0 m.packetId)
  · exact emits_sendReply hd h (gives_constructPublishReply .pubrecType 0 m.packetId)
  · exact hnone

/-- A message is handed to the application, and then acknowledged if it says so. -/
theorem emits_message (m : MqttMessage) :
    Emits s
      (if (fnMessageRecv s m).1 = .ackSync then sendMessageAck dispatch (fnMessageRecv s m).2 m.packetId m.qosInfo
        else (fnMessageRecv s m).2) 1
      (answered (.message m s.env.ack.head)) := by
  obtain ⟨hack, hmove⟩ := moves_fnMessageRecv h m
  have hemit : Emits s (fnMessageRecv s m).2 1 [.message m s.env.ack.head] := hmove.emits (by simp [Exchange.isError])
  rw [hack]
  split
  · rename_i hsync
    have := hemit.trans (emits_sendMessageAck hd hmove.calm m)
    rwa [← hsync] at this
  · rename_i hno
    have hreply : repliesTo (.message m s.env.ack.head) = [] := by
      rcases ha : s.env.ack.head
      · exact absurd ha hno
      · rfl
      · rfl
    rw [answered, hreply]
    exact hemit

omit hd h in
/-- A topic that is there is read, if there is memory for it. -/
theorem byteutilReadUTF_met (hmet : Meets s.env.heap 1) (body : List UInt8) :
    byteutilReadUTF body 0 body.length s =
      if (byteutilReadUint16 body 0 body.length).1.toNat > 0 ∧
          (byteutilReadUint16 body 0 body.length).1.toNat + (byteutilReadUint16 body 0 body.length).2 ≤ body.length then
        ((some ((body.drop (byteutilReadUint16 body 0 body.length).2).take (byteutilReadUint16 body 0 body.length).1.toNat),
          (byteutilReadUint16 body 0 body.length).2 + (byteutilReadUint16 body 0 body.length).1.toNat), s.takeAnswers 1)
      else ((none, (byteutilReadUint16 body 0 body.length).2), s) := by
  generalize hr : byteutilReadUint16 body 0 body.length = r
  have hsafe : safeAddSizeT r.1.toNat 1 ≠ sizeMax := by
    have hlt := r.1.toNat_lt
    have hmax : sizeMax = 18446744073709551615 := rfl
    rw [safeAddSizeT, hmax, if_neg (by omega)]
    omega
  have htake : s.alloc takeMemory = (some (), s.takeAnswers 1) := alloc_met needs_takeMemory (fun _ _ _ _ => rfl) hmet
  simp only [byteutilReadUTF, hr, Nat.sub_zero, if_pos hsafe, htake]

omit hd h in
theorem needs_mqttmessageCreateInPlace (packetId : UInt16) (topicName : List UInt8) (qosValue : QosValue) (appMsg : List UInt8) :
    (mqttmessageCreateInPlace packetId (some topicName) qosValue appMsg).Needs 1 :=
  Needs.then (k := 0) (needs_takeMemory_pure _) fun _ => needs_pure _

omit hd h in
/-- A message is made of its parts, if there is memory for it. -/
theorem ensures_mqttmessageCreateInPlace (packetId : UInt16) (topicName : List UInt8) (qosValue : QosValue) (appMsg : List UInt8) :
    (mqttmessageCreateInPlace packetId (some topicName) qosValue appMsg).Ensures
      (· = { packetId := packetId, qosInfo := qosValue, topicName := none, appPayload := [], constTopicName := some topicName,
             constPayload := appMsg, isDuplicateMsg := false, isMessageRetained := false }) := by
  have hobj : (createMsgObject packetId qosValue).Ensures
      (· = { packetId := packetId, qosInfo := qosValue, topicName := none, appPayload := [], constTopicName := none,
             constPayload := [], isDuplicateMsg := false, isMessageRetained := false }) :=
    ensures_bind fun _ => ensures_pure rfl
  exact hobj.bind fun result hresult => ensures_pure (by rw [hresult])

omit hd h in
/-- A PUBLISH, when there is memory for its topic and its message: an error, or its message, which is handed to the application and then
acknowledged if it says so. -/
theorem processPublishMessage_met (hmet : Meets s.env.heap 2) (flags : UInt8) (body : List UInt8) :
    ∃ n, processPublishMessage dispatch s body flags =
      match publishMessage flags body with
      | none => setErrorCallback dispatch (s.takeAnswers n) .parseError
      | some m =>
        if (fnMessageRecv (s.takeAnswers n) m).1 = .ackSync then
          sendMessageAck dispatch (fnMessageRecv (s.takeAnswers n) m).2 m.packetId m.qosInfo
        else (fnMessageRecv (s.takeAnswers n) m).2 := by
  obtain ⟨hfirst, hsecond⟩ := (meets_add s.env.heap 1 1).mp hmet
  simp only [publishMessage, processPublishMessage, byteutilReadUTF_met hfirst]
  generalize byteutilReadUint16 body 0 body.length = r
  by_cases htopic : r.1.toNat > 0 ∧ r.1.toNat + r.2 ≤ body.length
  · have hid : (if publishQosValue flags ≠ .deliverAtMostOnce then
        byteutilReadUint16 body (r.2 + r.1.toNat) (body.length - (r.2 + r.1.toNat)) else (0, r.2 + r.1.toNat)) =
        publishPacketId (publishQosValue flags) body (r.2 + r.1.toNat) := rfl
    simp only [if_pos htopic, hid]
    generalize publishPacketId (publishQosValue flags) body (r.2 + r.1.toNat) = packetId
    by_cases hzero : publishQosValue flags ≠ .deliverAtMostOnce ∧ packetId.1 = 0
    · simp only [if_pos hzero]
      exact ⟨1, rfl⟩
    · have hpayload : (body.drop packetId.2).take (body.length - packetId.2) = body.drop packetId.2 :=
        List.take_of_length_le (by simp)
      have hmessage := alloc_met (s := s.takeAnswers 1) (needs_mqttmessageCreateInPlace packetId.1
        ((body.drop r.2).take r.1.toNat) (publishQosValue flags) (body.drop packetId.2))
        (ensures_mqttmessageCreateInPlace packetId.1 _ (publishQosValue flags) _) hsecond
      simp only [if_neg hzero, hpayload, hmessage, takeAnswers_add]
      exact ⟨2, rfl⟩
  · simp only [if_neg htopic]
    exact ⟨0, rfl⟩

/-- A PUBLISH: an error, or its message. -/
theorem emits_processPublishMessage (flags : UInt8) (body : List UInt8) :
    (publishMessage flags body = none → Fails s (processPublishMessage dispatch s body flags)) ∧
      ∀ m, publishMessage flags body = some m →
        Emits s (processPublishMessage dispatch s body flags) 1 (answered (.message m s.env.ack.head)) := by
  have hmet : Meets s.env.heap 2 := h.heap ▸ meets_okHeap 2
  obtain ⟨n, heq⟩ := @processPublishMessage_met dispatch s hmet flags body
  rw [takeAnswers_okHeap h.heap] at heq
  rw [heq]
  refine ⟨?_, ?_⟩
  · intro hm
    rw [hm]
    exact fails_setErrorCallback hd h _
  · intro m hm
    rw [hm]
    exact emits_message hd h m

omit hd in
/-- An entry of an event. -/
theorem emits_operation {actionResult : MqttClientEventResult} (hr : actionResult ≠ .onDisconnect) :
    Emits s (s.log (.operation actionResult)) 0 [.event actionResult] := by
  have hexchange : (Action.operation actionResult).asExchange = some (.event actionResult) := by
    cases actionResult with
    | onDisconnect => exact absurd rfl hr
    | _ => rfl
  exact (moves_exchange h hexchange).emits (by simp [Exchange.isError])

omit hd h in
/-- An event that is not answered. -/
theorem answered_event {actionResult : MqttClientEventResult} (hr : replyTo (.event actionResult) = none) :
    answered (.event actionResult) = [.event actionResult] := by
  simp [answered, repliesTo, hr]

/-- A PUBACK, PUBREC, PUBREL or PUBCOMP. -/
theorem emits_processPublishAck {packet : ControlPacketType} {body : List UInt8} (hlen : body.length = 2) :
    Emits s (processPublishAck dispatch s packet body) 0 (answered (.event (publishAckAction packet (idOf body)))) := by
  have hne : publishAckAction packet (idOf body) ≠ .onDisconnect := by
    rw [publishAckAction]
    repeat' split
    all_goals simp
  have hevent := emits_operation h hne
  simp only [processPublishAck, hlen, ne_eq, not_true_eq_false, if_false]
  rw [← hlen]
  by_cases hrec : packet = .pubrecType
  · subst hrec
    exact hevent.trans (emits_sendReply hd hevent.calm (gives_constructPublishReply .pubrelType 2 (idOf body)))
  · by_cases hrel : packet = .pubrelType
    · subst hrel
      exact hevent.trans (emits_sendReply hd hevent.calm (gives_constructPublishReply .pubcompType 0 (idOf body)))
    · have hreply : replyTo (.event (publishAckAction packet (idOf body))) = none := by
        rw [publishAckAction, if_neg hrec, if_neg hrel]
        split <;> rfl
      rw [if_neg hrec, if_neg hrel, answered_event hreply]
      exact hevent

omit hd h in
/-- The loop stores the return codes up to the first that does not pass the check, which is an error. -/
theorem subackLoop_takeWhile (body : List UInt8) (remainLen iterator : Nat) (qosReturn : List QosValue)
    (hlen : iterator + remainLen = body.length) :
    subackLoop dispatch body remainLen iterator qosReturn s =
      (qosReturn ++ ((body.drop iterator).takeWhile (· &&& 0x7C = 0)).map subackQosValue,
        if ∀ code ∈ body.drop iterator, code &&& 0x7C = 0 then s else setErrorCallback dispatch s .communicationError) := by
  induction remainLen generalizing iterator qosReturn with
  | zero => simp [subackLoop, List.drop_of_length_le (show body.length ≤ iterator by omega)]
  | succ remainLen ih =>
    have hlt : iterator < body.length := by omega
    have hdrop : body.drop iterator = body[iterator] :: body.drop (iterator + 1) := List.drop_eq_getElem_cons hlt
    simp only [subackLoop, byteutilReadByte, List.getElem?_eq_getElem hlt, Option.getD_some]
    rw [hdrop]
    by_cases hcode : body[iterator] &&& 0x7C = 0
    · rw [if_neg (not_not_intro hcode), ih (iterator + 1) _ (by omega), List.takeWhile_cons_of_pos (by simpa using hcode)]
      simp only [List.forall_mem_cons, hcode, true_and, List.map_cons, List.append_assoc, List.singleton_append]
    · rw [if_pos hcode, List.takeWhile_cons_of_neg (by simpa using hcode), if_neg fun hall => hcode (hall _ List.mem_cons_self),
        List.map_nil, List.append_nil]

omit hd h in
/-- Return codes that pass the check are stored one after another. -/
theorem subackLoop_eq (body : List UInt8) (remainLen iterator : Nat) (qosReturn : List QosValue)
    (hlen : iterator + remainLen = body.length) (hcodes : ∀ code ∈ body.drop iterator, code &&& 0x7C = 0) :
    subackLoop dispatch body remainLen iterator qosReturn s = (qosReturn ++ (body.drop iterator).map subackQosValue, s) := by
  rw [subackLoop_takeWhile body remainLen iterator qosReturn hlen, if_pos hcodes,
    List.takeWhile_eq_self_iff.mpr fun code hc => decide_eq_true (hcodes code hc)]

omit hd h in
theorem subackRemainLen_eq {packetLength : Nat} (hge : 2 ≤ packetLength) (hle : packetLength ≤ sizeMax) :
    subackRemainLen packetLength = packetLength - 2 := by
  rw [subackRemainLen]
  generalize sizeMax = m at hle
  rw [show packetLength + (m + 1) - 2 = packetLength - 2 + (m + 1) by omega, Nat.add_mod_right, Nat.mod_eq_of_lt (by omega)]

omit hd in
/-- The return codes of a SUBACK. -/
theorem emits_processSubackCodes (body : List UInt8) (packetId : UInt16) (hge : 2 ≤ body.length) (hle : body.length ≤ 268435455)
    (hcodes : ∀ code ∈ body.drop 2, code &&& 0x7C = 0) :
    Emits s (processSubackCodes dispatch s body packetId 2 (subackRemainLen body.length)) 0
      (answered (.event (.onSubscribeAck { packetId := packetId, qosReturn := (body.drop 2).map subackQosValue }))) := by
  have hmax : sizeMax = 18446744073709551615 := rfl
  have hsize : safeMultiplySizeT sizeofQosValue (body.length - 2) ≠ sizeMax := by
    rw [safeMultiplySizeT, sizeofQosValue, hmax, if_neg (by omega)]
    omega
  rw [subackRemainLen_eq hge (by rw [hmax]; omega), processSubackCodes, if_pos hsize, alloc_calm h gives_takeMemory]
  simp only [subackLoop_eq body (body.length - 2) 2 [] (by omega) hcodes, List.nil_append]
  exact emits_operation h (by simp)

/-- A packet that is not an error is handled as it says. -/
theorem emits_processPacket {packet : ControlPacketType} {flags : UInt8} {body : List UInt8} {x : Heard}
    (hx : heard packet flags body = some x) (hle : body.length ≤ 268435455) :
    Emits s (processPacket dispatch s packet flags body) x.asks ((x.callback s.env.ack.head).toList.flatMap answered) := by
  have hsingle : ∀ y : Exchange, (some y).toList.flatMap answered = answered y := fun y => by simp
  cases packet with
  | connackType =>
    simp only [heard] at hx
    split at hx
    · rename_i hok
      obtain rfl := Option.some.inj hx
      simp only [processPacket, processConnack, Heard.callback, Heard.asks, hsingle]
      rw [if_neg (not_not_intro hok.1), if_neg (not_not_intro hok.2), answered_event rfl]
      have hevent : Emits s _ 0 [.event (.onConnack { isSessionPresent := (byteutilReadByte body 0).1 = 0x1,
                                                      returnCode := connackReturnCode (byteutilReadByte body 1).1 })] :=
        emits_operation h (by simp)
      split
      · exact hevent.trans ((moves_client hevent.calm _).emits (by simp))
      · exact hevent
    · exact absurd hx (by simp)
  | publishType =>
    obtain ⟨m, hm, rfl⟩ := Option.map_eq_some_iff.mp hx
    rw [Heard.callback, hsingle]
    exact (emits_processPublishMessage hd h flags body).2 m hm
  | pubackType | pubrecType | pubrelType | pubcompType =>
    simp only [heard] at hx
    split at hx
    · rename_i hlen
      obtain rfl := Option.some.inj hx
      rw [Heard.callback, hsingle]
      exact emits_processPublishAck hd h hlen
    · exact absurd hx (by simp)
  | subackType =>
    simp only [heard] at hx
    split at hx
    · rename_i hok
      obtain rfl := Option.some.inj hx
      rw [Heard.callback, hsingle]
      have hid : byteutilReadUint16 body 0 body.length = (idOf body, 2) := by
        rw [idOf, byteutilReadUint16, if_pos hok.1]
      simp only [processPacket, processSuback, hid]
      exact emits_processSubackCodes h body (idOf body) hok.1 hle hok.2
    · exact absurd hx (by simp)
  | unsubackType =>
    simp only [heard] at hx
    split at hx
    · rename_i hlen
      obtain rfl := Option.some.inj hx
      rw [Heard.callback, hsingle, answered_event rfl]
      simp only [processPacket, processUnsuback]
      rw [if_neg (not_not_intro hlen)]
      exact emits_operation h (by simp)
    · exact absurd hx (by simp)
  | pingrespType =>
    obtain rfl := Option.some.inj hx
    rw [Heard.callback, hsingle, answered_event rfl]
    have hreset := moves_client h { s.client with timeSincePing := 0 }
    exact (hreset.emits (by simp)).trans (emits_operation hreset.calm (by simp))
  | controlPacketTypeInvalid | connectType | subscribeType | unsubscribeType | pingreqType | disconnectType | packetTypeError
  | unknownType | packetInvalid1Type | packetInvalid2Type =>
    obtain rfl := Option.some.inj hx
    exact (Moves.refl h).emits (by simp)

end

end Umqtt
