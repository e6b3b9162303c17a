import Umqtt.Lemmas.Heard
import Umqtt.Lemmas.Nested
import Umqtt.Theorems.Connected

/-!
# The body of a PUBLISH

A body is a topic that is not empty, behind its length, a packet id that is not 0 unless the quality of service has none, and a payload
(`PublishParts`). `ProcessPublishMessage` accepts exactly these bodies, hands their parts to the application, and loses no byte.
-/

namespace Umqtt

open Alloc

/-! ## The grammar -/

/-- The parts of the body of a PUBLISH. -/
structure PublishParts (qosValue : QosValue) where
  topic : List UInt8
  packetId : Option UInt16
  payload : List UInt8
  topic_pos : 1 ≤ topic.length
  topic_le : topic.length ≤ ushrtMax
  packetId_none_iff : packetId = none ↔ qosValue = .deliverAtMostOnce
  packetId_ne_zero : packetId ≠ some 0

namespace PublishParts

variable {qosValue : QosValue}

/-- The bytes of the packet id. -/
def idBytes (x : PublishParts qosValue) : List UInt8 := (x.packetId.map uint16Bytes).getD []

/-- The body. -/
def bytes (x : PublishParts qosValue) : List UInt8 := uint16Bytes (UInt16.ofNat x.topic.length) ++ x.topic ++ x.idBytes ++ x.payload

/-- The message that the parts are handed over as, with the bits of the flags. -/
def message (flags : UInt8) (x : PublishParts qosValue) : MqttMessage :=
  { packetId := x.packetId.getD 0, qosInfo := qosValue, topicName := none, appPayload := [], constTopicName := some x.topic,
    constPayload := x.payload, isDuplicateMsg := flags &&& duplicateFlagMask ≠ 0, isMessageRetained := flags &&& retainFlagMask ≠ 0 }

end PublishParts

/-- Any two bytes are those of a number. -/
theorem uint16Bytes_of_bytes (b c : UInt8) : uint16Bytes (256 * b.toUInt16 + c.toUInt16) = [b, c] := by
  have hb := b.toNat_lt
  have hc := c.toNat_lt
  have hvalue : (256 * b.toUInt16 + c.toUInt16).toNat = 256 * b.toNat + c.toNat := by
    simp only [UInt16.toNat_add, UInt16.toNat_mul, UInt8.toNat_toUInt16, UInt16.reduceToNat]
    omega
  have hhigh : ((256 * b.toUInt16 + c.toUInt16) / 256).toUInt8 = b := by
    apply UInt8.toNat.inj
    simp only [UInt16.toNat_toUInt8, UInt16.toNat_div, hvalue, UInt16.reduceToNat]
    omega
  have hlow : ((256 * b.toUInt16 + c.toUInt16) % 256).toUInt8 = c := by
    apply UInt8.toNat.inj
    simp only [UInt16.toNat_toUInt8, UInt16.toNat_mod, hvalue, UInt16.reduceToNat]
    omega
  rw [uint16Bytes, hhigh, hlow]

/-- Two bytes or more start with those of a number. -/
theorem exists_uint16Bytes {l : List UInt8} (h : 2 ≤ l.length) : ∃ value rest, l = uint16Bytes value ++ rest := by
  obtain ⟨b, c, rest, rfl⟩ : ∃ b c rest, l = b :: c :: rest := by
    rcases l with _ | ⟨b, _ | ⟨c, rest⟩⟩
    · exact absurd h (by simp)
    · exact absurd h (by simp)
    · exact ⟨b, c, rest, rfl⟩
  exact ⟨256 * b.toUInt16 + c.toUInt16, rest, by rw [uint16Bytes_of_bytes]; rfl⟩

/-! ## The message of a body -/

/-- The parts are read as their message. -/
theorem publishMessage_bytes (flags : UInt8) (x : PublishParts (publishQosValue flags)) :
    publishMessage flags x.bytes = some (x.message flags) := by
  have hlen : (UInt16.ofNat x.topic.length).toNat = x.topic.length := by
    have := x.topic_le
    rw [UInt16.toNat_ofNat', Nat.mod_eq_of_lt (by simpa [ushrtMax] using Nat.lt_succ_of_le this)]
  rw [PublishParts.bytes, List.append_assoc, publishMessage_topic flags hlen x.topic_pos]
  generalize uint16Bytes (UInt16.ofNat x.topic.length) ++ x.topic = before
  rcases hid : x.packetId with _ | packetId
  · have hmost := x.packetId_none_iff.mp hid
    simp [hmost, publishPacketId, PublishParts.idBytes, PublishParts.message, hid]
  · have hq : publishQosValue flags ≠ .deliverAtMostOnce := by
      intro hq
      rw [x.packetId_none_iff.mpr hq] at hid
      exact absurd hid (by simp)
    have hzero : packetId ≠ 0 := fun hz => x.packetId_ne_zero (by rw [hid, hz])
    have hbytes : x.idBytes = uint16Bytes packetId := by
      rw [PublishParts.idBytes, hid]
      rfl
    have hdrop : (before ++ (uint16Bytes packetId ++ x.payload)).drop (before.length + 2) = x.payload := by simp [uint16Bytes]
    simp only [hbytes, publishPacketId_append hq, hdrop, hzero, and_false, if_false, PublishParts.message, hid, Option.getD_some]

/-- A body that is read as a message has parts, and they are those of the message. -/
theorem exists_parts {flags : UInt8} {body : List UInt8} {m : MqttMessage} (h : publishMessage flags body = some m) :
    ∃ x : PublishParts (publishQosValue flags), x.bytes = body := by
  -- the length of the topic
  have htwo : 2 ≤ body.length := by
    by_contra hshort
    have hread : byteutilReadUint16 body 0 body.length = (0, 0) := if_neg hshort
    simp only [publishMessage, hread] at h
    exact absurd h (by simp)
  obtain ⟨len, rest, rfl⟩ := exists_uint16Bytes htwo
  have hread : byteutilReadUint16 (uint16Bytes len ++ rest) 0 (uint16Bytes len ++ rest).length = (len, 2) :=
    byteutilReadUint16_append [] len rest htwo
  have hwithin : 0 < len.toNat ∧ len.toNat ≤ rest.length := by
    by_contra hnot
    have hneg : ¬(len.toNat > 0 ∧ len.toNat + 2 ≤ (uint16Bytes len ++ rest).length) := by
      simp only [List.length_append, uint16Bytes, List.length_cons, List.length_nil]
      omega
    simp only [publishMessage, hread, if_neg hneg] at h
    exact absurd h (by simp)
  -- the topic
  obtain ⟨topic, rest, htopic, rfl⟩ : ∃ topic rest', topic.length = len.toNat ∧ rest = topic ++ rest' :=
    ⟨rest.take len.toNat, rest.drop len.toNat, by simp [hwithin.2], (List.take_append_drop _ _).symm⟩
  have hlen : UInt16.ofNat topic.length = len := by rw [htopic, UInt16.ofNat_toNat]
  have hle : topic.length ≤ ushrtMax := by
    rw [htopic]
    exact Nat.le_of_lt_succ len.toNat_lt
  rw [← List.append_assoc, publishMessage_topic flags htopic.symm (by omega)] at h
  -- the packet id
  by_cases hq : publishQosValue flags = .deliverAtMostOnce
  · refine ⟨⟨topic, none, rest, by omega, hle, iff_of_true rfl hq, by simp⟩, ?_⟩
    simp [PublishParts.bytes, PublishParts.idBytes, hlen]
  · have hid : 2 ≤ rest.length := by
      by_contra hshort
      have hnone : publishPacketId (publishQosValue flags) (uint16Bytes len ++ topic ++ rest) (uint16Bytes len ++ topic).length =
          (0, (uint16Bytes len ++ topic).length) := by
        rw [publishPacketId, if_pos hq]
        refine if_neg ?_
        rw [@List.length_append _ (uint16Bytes len ++ topic) rest]
        omega
      simp only [hnone, ne_eq, hq, not_false_eq_true, and_self, if_true] at h
      exact absurd h (by simp)
    obtain ⟨packetId, payload, rfl⟩ := exists_uint16Bytes hid
    have hzero : packetId ≠ 0 := by
      intro hz
      simp only [publishPacketId_append hq, if_pos (And.intro hq hz)] at h
      exact absurd h (by simp)
    refine ⟨⟨topic, some packetId, payload, by omega, hle, iff_of_false (by simp) hq, by simpa using hzero⟩, ?_⟩
    simp [PublishParts.bytes, PublishParts.idBytes, hlen]

/-- The bodies that are read as a message are those that have parts. -/
theorem publishMessage_eq_none_iff (flags : UInt8) (body : List UInt8) :
    publishMessage flags body = none ↔ ¬∃ x : PublishParts (publishQosValue flags), x.bytes = body := by
  constructor
  · rintro hnone ⟨x, rfl⟩
    exact absurd ((publishMessage_bytes flags x).symm.trans hnone) (by simp)
  · intro hno
    rcases h : publishMessage flags body with _ | m
    · rfl
    · exact absurd (exists_parts h) hno

/-! ## What is handed to the application -/

/-- The message that is handed to the application. -/
def Action.received : Action → Option MqttMessage
  | .messageRecv m _ => some m
  | _ => none

/-- The messages that some entries hand to the application. -/
def received (l : List Action) : List MqttMessage := l.filterMap Action.received

theorem Action.Nested.received {a : Action} (h : a.Nested) : a.received = none := by
  cases a with
  | messageRecv => exact absurd h id
  | _ => rfl

/-- Entries that hand over nothing. -/
theorem received_eq_nil {l : List Action} (h : ∀ a ∈ l, a.received = none) : received l = [] :=
  List.filterMap_eq_nil_iff.mpr h

section

variable {dispatch : List IoEvent → Session → Session} (hd : ∀ events s, Adds Action.Nested s (dispatch events s))

include hd

/-- An acknowledgement hands over no message. -/
theorem adds_sendReply (s : Session) (reply : Alloc Buffer) : Adds (·.received = none) s (sendReply dispatch s reply) := by
  have herror : ∀ (s : Session) (e : MqttClientEventError), Adds (·.received = none) s (setErrorCallback dispatch s e) :=
    fun s e => (adds_log (P := (·.received = none)) s rfl).trans (adds_setErrorCallback hd (fun a => Action.Nested.received) s rfl)
  unfold sendReply
  rcases halloc : s.alloc reply with ⟨_ | packet, s'⟩
  all_goals
    have hstart : Adds (·.received = none) s s' := (Adds.refl s).of_history (history_of_alloc halloc)
  · exact hstart.trans (herror s' _)
  · have hhand : Adds (·.received = none) s (s'.handOver packet) := hstart.trans ((adds_log (P := (·.received = none)) s' rfl).of_history rfl)
    have hsend := hhand.trans ((nested_sendPacketItem hd s' packet).mono fun a => Action.Nested.received)
    dsimp only
    split
    · exact hsend.trans (herror _ _)
    · exact hsend

theorem adds_sendMessageAck (s : Session) (packetId : UInt16) (qosValue : QosValue) :
    Adds (·.received = none) s (sendMessageAck dispatch s packetId qosValue) := by
  cases qosValue with
  | deliverAtLeastOnce | deliverExactlyOnce => exact adds_sendReply hd s _
  | _ => exact .refl s

/-- A message is handed over once. -/
theorem received_message (s : Session) (m : MqttMessage) :
    ∃ added, (if (fnMessageRecv s m).1 = .ackSync then sendMessageAck dispatch (fnMessageRecv s m).2 m.packetId m.qosInfo
        else (fnMessageRecv s m).2).history = s.history ++ added ∧ received added = [m] := by
  have hrest : Adds (·.received = none) (fnMessageRecv s m).2
      (if (fnMessageRecv s m).1 = .ackSync then sendMessageAck dispatch (fnMessageRecv s m).2 m.packetId m.qosInfo
        else (fnMessageRecv s m).2) := by
    split
    · exact adds_sendMessageAck hd _ _ _
    · exact .refl _
  obtain ⟨added, hh, hadded⟩ := hrest
  refine ⟨.messageRecv m s.env.ack.head :: added, by rw [hh]; simp [fnMessageRecv, Session.askAck, Session.log], ?_⟩
  rw [received, List.filterMap_cons]
  exact congrArg (m :: ·) (received_eq_nil hadded)

/-- An error of a packet is reported once, and hands over no message. -/
theorem reported_parseError (s : Session) :
    ∃ added, (setErrorCallback dispatch s .parseError).history = s.history ++ added ∧ received added = [] ∧
      added.count (.setErrorCallback .parseError) = 1 := by
  have hrest : Adds (fun a => a.received = none ∧ a ≠ .setErrorCallback .parseError) (s.log (.setErrorCallback .parseError))
      (setErrorCallback dispatch s .parseError) := by
    refine adds_setErrorCallback hd (fun a ha => ⟨ha.received, ?_⟩) s ⟨rfl, Action.noConfusion⟩
    rintro rfl
    exact absurd ha (by simp [Action.Nested, MqttClientEventError.OfConnection])
  obtain ⟨added, hh, hadded⟩ := hrest
  refine ⟨.setErrorCallback .parseError :: added, by rw [hh]; simp [Session.log], received_eq_nil ?_, ?_⟩
  · exact List.forall_mem_cons.mpr ⟨rfl, fun a ha => (hadded a ha).1⟩
  · rw [List.count_cons_self, List.count_eq_zero.mpr fun hmem => (hadded _ hmem).2 rfl]

end

/-! ## The parser -/

/-- What `ProcessPublishMessage` should add for the body: a message exactly when the body has parts, made of these parts, and otherwise
one report of `MQTT_CLIENT_PARSE_ERROR`. -/
structure ParsesBody (flags : UInt8) (body : List UInt8) (added : List Action) : Prop where
  accepts : received added ≠ [] ↔ ∃ x : PublishParts (publishQosValue flags), x.bytes = body
  message : ∀ x : PublishParts (publishQosValue flags), x.bytes = body → received added = [x.message flags]
  rejects : (¬∃ x : PublishParts (publishQosValue flags), x.bytes = body) →
    received added = [] ∧ added.count (.setErrorCallback .parseError) = 1

/-- The body of a PUBLISH is parsed exactly. Whatever the xio does, when there is memory for the topic and the message. -/
theorem publish_body_parsed (depth : Nat) {s : Session} (hmet : Meets s.env.heap 2) (flags : UInt8) (body : List UInt8) :
    ∃ added, (processPublishMessage (deliver depth) s body flags).history = s.history ++ added ∧ ParsesBody flags body added := by
  obtain ⟨n, heq⟩ := @processPublishMessage_met (deliver depth) s hmet flags body
  rw [heq]
  rcases hm : publishMessage flags body with _ | m
  · have hno := (publishMessage_eq_none_iff flags body).mp hm
    obtain ⟨added, hh, hnone, hcount⟩ := reported_parseError (nested_deliver depth) (s.takeAnswers n)
    exact ⟨added, hh, iff_of_false (not_not_intro hnone) hno, fun x hx => absurd ⟨x, hx⟩ hno, fun _ => ⟨hnone, hcount⟩⟩
  · have hparts := exists_parts hm
    obtain ⟨added, hh, hone⟩ := received_message (nested_deliver depth) (s.takeAnswers n) m
    refine ⟨added, hh, iff_of_true (by rw [hone]; simp) hparts, fun x hx => ?_, fun hno => absurd hparts hno⟩
    rw [← hx, publishMessage_bytes] at hm
    rw [hone, Option.some.inj hm]

/-- A PUBLISH with the quality of service 1, for the topic `a`, with the packet id 5. -/
theorem publish_body_parsed_one :
    ∃ added, (processPublishMessage (deliver 1) openedClient.callContext [0, 1, 97, 0, 5, 98] 2).history =
      openedClient.callContext.history ++ added ∧ ParsesBody 2 [0, 1, 97, 0, 5, 98] added :=
  publish_body_parsed 1 (meets_okHeap 2) 2 [0, 1, 97, 0, 5, 98]

end Umqtt
