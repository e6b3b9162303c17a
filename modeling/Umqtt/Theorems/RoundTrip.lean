import Umqtt.Theorems.Acknowledge

/-!
# PUBLISH round trips

What `mqtt_codec_publish` writes and what `ProcessPublishMessage` reads agree on everything but the flags: the reader takes any flag
for a sign that the quality of service is not `DELIVER_AT_MOST_ONCE`.
-/

namespace Umqtt

open Alloc

/-! ## The packet -/

/-- The packet that `mqtt_codec_publish` writes. -/
def publishPacket (qosValue : QosValue) (duplicateMsg serverRetain : Bool) (packetId : UInt16) (topicName : CString)
    (msgBuffer : List UInt8) : Packet :=
  ⟨ControlPacketType.publishType.toByte ||| publishHeaderFlags qosValue duplicateMsg serverRetain,
    publishBody qosValue packetId topicName msgBuffer⟩

section

variable {qosValue : QosValue} (hqos : qosValue ∈ [.deliverAtMostOnce, .deliverAtLeastOnce, .deliverExactlyOnce])
  (duplicateMsg serverRetain : Bool)

include hqos

/-- The first byte holds type and flags. -/
theorem first_publishPacket (packetId : UInt16) (topicName : CString) (msgBuffer : List UInt8) :
    (publishPacket qosValue duplicateMsg serverRetain packetId topicName msgBuffer).type = .publishType ∧
      (publishPacket qosValue duplicateMsg serverRetain packetId topicName msgBuffer).flags =
        publishHeaderFlags qosValue duplicateMsg serverRetain := by
  have hall : ∀ q ∈ [QosValue.deliverAtMostOnce, .deliverAtLeastOnce, .deliverExactlyOnce], ∀ d r : Bool,
      packetTypeByte (ControlPacketType.publishType.toByte ||| publishHeaderFlags q d r) = .publishType ∧
        flagValueByte (ControlPacketType.publishType.toByte ||| publishHeaderFlags q d r) = publishHeaderFlags q d r := by decide
  exact hall qosValue hqos duplicateMsg serverRetain

/-- The flags of the message are the arguments. -/
theorem masks_publishHeaderFlags :
    (decide (publishHeaderFlags qosValue duplicateMsg serverRetain &&& duplicateFlagMask ≠ 0) = duplicateMsg) ∧
      (decide (publishHeaderFlags qosValue duplicateMsg serverRetain &&& retainFlagMask ≠ 0) = serverRetain) := by
  have hall : ∀ q ∈ [QosValue.deliverAtMostOnce, .deliverAtLeastOnce, .deliverExactlyOnce], ∀ d r : Bool,
      (decide (publishHeaderFlags q d r &&& duplicateFlagMask ≠ 0) = d) ∧
        (decide (publishHeaderFlags q d r &&& retainFlagMask ≠ 0) = r) := by decide
  exact hall qosValue hqos duplicateMsg serverRetain

/-- The quality of service is read as it was written, unless it is `DELIVER_AT_MOST_ONCE` and one of the two flags is set. -/
theorem publishQosValue_publishHeaderFlags :
    publishQosValue (publishHeaderFlags qosValue duplicateMsg serverRetain) = qosValue ↔
      ¬(qosValue = .deliverAtMostOnce ∧ (duplicateMsg = true ∨ serverRetain = true)) := by
  have hall : ∀ q ∈ [QosValue.deliverAtMostOnce, .deliverAtLeastOnce, .deliverExactlyOnce], ∀ d r : Bool,
      publishQosValue (publishHeaderFlags q d r) = q ↔ ¬(q = .deliverAtMostOnce ∧ (d = true ∨ r = true)) := by decide
  exact hall qosValue hqos duplicateMsg serverRetain

/-- The decoder frames the packet. -/
theorem framed_publishPacket (packetId : UInt16) (topicName : CString) {msgBuffer : List UInt8}
    (hlen : (publishBody qosValue packetId topicName msgBuffer).length ≤ 2097151) :
    (publishPacket qosValue duplicateMsg serverRetain packetId topicName msgBuffer).Framed := by
  obtain ⟨htype, -⟩ := first_publishPacket hqos duplicateMsg serverRetain packetId topicName msgBuffer
  refine ⟨by rw [Packet.Accepted, htype]; rfl, ?_⟩
  rw [htype, if_neg (by decide)]
  exact ⟨by simp [publishPacket, publishBody, publishHeader, uint16Bytes], hlen⟩

end

theorem gives_publishPacket (qosValue : QosValue) (duplicateMsg serverRetain : Bool) (packetId : UInt16) {topicName : CString}
    (hle : strlen topicName ≤ ushrtMax) {msgBuffer : List UInt8}
    (hlen : (publishBody qosValue packetId topicName msgBuffer).length ≤ 2097151) :
    (mqttCodecPublish qosValue duplicateMsg serverRetain packetId (some topicName) msgBuffer).Gives
      (Buffer.ofBytes (publishPacket qosValue duplicateMsg serverRetain packetId topicName msgBuffer).wire) := by
  have hmsg : msgBuffer.length ≤ maxSendSize := by
    have hmax : 2097151 ≤ maxSendSize := by decide
    rw [publishBody, List.length_append] at hlen
    omega
  have hgives := gives_mqttCodecPublish qosValue duplicateMsg serverRetain packetId topicName msgBuffer hle hmsg
  have hbody : publishHeader topicName packetId qosValue ++ msgBuffer = publishBody qosValue packetId topicName msgBuffer := rfl
  rw [hbody, remainSize_eq (Nat.lt_of_le_of_lt hlen (by decide))] at hgives
  exact hgives

/-! ## The round trip -/

/-- A message of the application. -/
def Exchange.isMessage : Exchange → Bool
  | .message _ _ => true
  | _ => false

/-- The message has what `mqtt_codec_publish` was given. -/
structure Carries (m : MqttMessage) (qosValue : QosValue) (duplicateMsg serverRetain : Bool) (packetId : UInt16) (topicName : CString)
    (msgBuffer : List UInt8) : Prop where
  topicName : mqttmessageGetTopicName m = some topicName.val
  applicationMsg : mqttmessageGetApplicationMsg m = msgBuffer
  qosType : mqttmessageGetQosType m = qosValue
  isDuplicateMsg : mqttmessageGetIsDuplicateMsg m = duplicateMsg
  isRetained : mqttmessageGetIsRetained m = serverRetain
  packetId : mqttmessageGetPacketId m = if qosValue = .deliverAtMostOnce then 0 else packetId

/-- The message that is read from what was written. -/
theorem carries_message (qosValue : QosValue) (duplicateMsg serverRetain : Bool) (packetId : UInt16) (topicName : CString)
    (msgBuffer : List UInt8) :
    Carries { packetId := if qosValue = .deliverAtMostOnce then 0 else packetId, qosInfo := qosValue, topicName := none, appPayload := [],
              constTopicName := some topicName.val, constPayload := msgBuffer, isDuplicateMsg := duplicateMsg,
              isMessageRetained := serverRetain }
      qosValue duplicateMsg serverRetain packetId topicName msgBuffer where
  topicName := rfl
  applicationMsg := by
    simp only [mqttmessageGetApplicationMsg]
    by_cases hpos : msgBuffer.length > 0
    · rw [if_pos hpos]
    · rw [if_neg hpos, List.eq_nil_of_length_eq_zero (Nat.eq_zero_of_not_pos hpos)]
  qosType := rfl
  isDuplicateMsg := rfl
  isRetained := rfl
  packetId := rfl

/-- A reply is no message and no error. -/
theorem mem_repliesTo {x y : Exchange} (h : y ∈ repliesTo x) : y.isMessage = false ∧ y.isError = false := by
  obtain ⟨r, -, rfl⟩ := List.mem_map.mp h
  exact ⟨rfl, rfl⟩

theorem filter_answered_message (m : MqttMessage) (ack : MqttClientAckOption) :
    (answered (.message m ack)).filter Exchange.isMessage = [.message m ack] := by
  have hreplies : (repliesTo (.message m ack)).filter Exchange.isMessage = [] :=
    List.filter_eq_nil_iff.mpr fun y hy => by simp [(mem_repliesTo hy).1]
  rw [answered, List.filter_cons_of_pos rfl, hreplies]

theorem isError_answered_message {m : MqttMessage} {ack : MqttClientAckOption} {x : Exchange} (h : x ∈ answered (.message m ack)) :
    x.isError = false := by
  rcases List.mem_cons.mp h with rfl | hreply
  · rfl
  · exact (mem_repliesTo hreply).2

/-- `mqtt_codec_publish` gives a packet. Its bytes, received in any cut, make the client hand one message to the application, which
has what was published, and report no error. -/
def RoundTrips (depth : Nat) (w : World) (qosValue : QosValue) (duplicateMsg serverRetain : Bool) (packetId : UInt16)
    (topicName : CString) (msgBuffer : List UInt8) : Prop :=
  ∃ bytes, (mqttCodecPublish qosValue duplicateMsg serverRetain packetId (some topicName) msgBuffer).Gives (Buffer.ofBytes bytes) ∧
    ∀ chunks : List (List UInt8), (∀ chunk ∈ chunks, chunk ≠ []) → chunks.flatten = bytes →
      ∃ out, exchanges (receive depth w chunks).callContext.history = exchanges w.callContext.history ++ out ∧
        (∃ m ack, out.filter Exchange.isMessage = [.message m ack] ∧
          Carries m qosValue duplicateMsg serverRetain packetId topicName msgBuffer) ∧
        ∀ x ∈ out, x.isError = false

section

variable (depth : Nat) {w : World} (hinst : w.inst = mqttCodecCreate) (hheap : w.heap = okHeap) (hcalm : Calm w.callContext.env)
  {p : Packet} (hframed : p.Framed) (htype : p.type = .publishType)

include hinst hheap hcalm hframed htype

/-- A PUBLISH that is read as a message is handed over and answered, and nothing else happens. -/
theorem exchanges_receive_publish (hclock : ClockRuns w.callContext.env) {m : MqttMessage}
    (hm : publishMessage p.flags p.body = some m) {chunks : List (List UInt8)} (hne : ∀ chunk ∈ chunks, chunk ≠ [])
    (hcut : chunks.flatten = p.wire) :
    exchanges (receive depth w chunks).callContext.history =
      exchanges w.callContext.history ++ answered (.message m w.callContext.env.ack.head) := by
  have hheard : p.heard = some (.message m) := by rw [Packet.heard, htype, Umqtt.heard, hm, Option.map_some]
  have hbody : 1 ≤ p.body.length ∧ p.body.length ≤ 2097151 := by
    have h := hframed.2
    rwa [htype, if_neg (by decide)] at h
  have hps : ∀ q ∈ [p], q.WellFormed ∧ q.Taken := by
    intro q hq
    obtain rfl := List.mem_singleton.mp hq
    refine ⟨⟨hframed.1, by omega, fun ht => absurd (htype.symm.trans ht) (by decide), by simp [hheard]⟩, hbody.2, ?_⟩
    intro he
    simp [he] at hbody
  have hwire : chunks.flatten = wireOf [p] := by simp [hcut, wireOf]
  obtain ⟨hzero, hreplay⟩ := replay_framed (fun q hq => (hps q hq).1.framed (hps q hq).2) hne hwire
  obtain ⟨real, hmove, -, hreal⟩ := shows_stream True depth hinst hheap hcalm hps (fun _ => hzero) hreplay
  rw [hmove.trace, hreal trivial hclock]
  simp [callbacksOf, hheard, callbacks, Heard.callback]

/-- A PUBLISH that is read as none is an error. -/
theorem fails_receive_publish (hm : publishMessage p.flags p.body = none) :
    ∃ errs, exchanges (receive depth w [p.wire]).callContext.history = exchanges w.callContext.history ++ errs ∧
      ∀ x ∈ errs, x.isError = true := by
  have hbody : p.body ≠ [] := by
    have h := hframed.2
    rw [htype, if_neg (by decide)] at h
    exact List.length_pos_iff.mp h.1
  obtain ⟨off, hfeed⟩ := feed_packet (recvCompleteCallback (deliver depth)) hframed 0
    (w.callContext.log (.bytesReceived (some p.wire)))
  rw [startAt_zero, ← hinst, ← hheap] at hfeed
  have hlog : Moves w.callContext (w.callContext.log (.bytesReceived (some p.wire))) 0 [] := moves_log hcalm rfl
  have hmore : Moves (w.callContext.log (.bytesReceived (some p.wire)))
      ((w.callContext.log (.bytesReceived (some p.wire))).log (.packet p.type p.flags p.headerData)) 0 [] := moves_log hlog.calm rfl
  have hfails := hlog.fails.trans (hmore.fails.trans
    ((emits_processPublishMessage (mild_deliver depth) hmore.calm p.flags p.body).1 hm))
  have hreceive : (receive depth w [p.wire]).callContext = processPublishMessage (deliver depth)
      ((w.callContext.log (.bytesReceived (some p.wire))).log (.packet p.type p.flags p.headerData)) p.body p.flags := by
    have hcall : mqttCodecBytesReceived (recvCompleteCallback (deliver depth))
        ({ w with callContext := w.callContext.log (.bytesReceived (some p.wire)) } : World) (some p.wire) = _ :=
      (bytesReceived_of_ne_nil _ (by simp [Packet.wire]) _).trans hfeed
    simp only [receive, List.foldl_cons, List.foldl_nil, onBytesReceived, hcall, ne_eq, not_true_eq_false, if_false]
    rw [Packet.deliver, recvCompleteCallback, p.bodyOf_headerData, if_pos (Or.inl (List.length_pos_iff.mpr hbody)), htype]
    rfl
  obtain ⟨errs, hmove, herr⟩ := hfails
  exact ⟨errs, by rw [hreceive]; exact hmove.trace, herr⟩

end

section

variable (depth : Nat) {w : World} (hinst : w.inst = mqttCodecCreate) (hheap : w.heap = okHeap) (hcalm : Calm w.callContext.env)
  (hclock : ClockRuns w.callContext.env) {qosValue : QosValue}
  (hqos : qosValue ∈ [.deliverAtMostOnce, .deliverAtLeastOnce, .deliverExactlyOnce]) {duplicateMsg serverRetain : Bool}
  {packetId : UInt16} {topicName : CString} (hle : strlen topicName ≤ ushrtMax) {msgBuffer : List UInt8}
  (hlen : (publishBody qosValue packetId topicName msgBuffer).length ≤ 2097151)

include hinst hheap hcalm hclock hqos hle hlen

/-- A PUBLISH whose flags are read as its quality of service round trips. -/
theorem roundTrips_of_publishQosValue (hid : qosValue ≠ .deliverAtMostOnce → packetId ≠ 0) (hpos : 0 < strlen topicName)
    (hq : publishQosValue (publishHeaderFlags qosValue duplicateMsg serverRetain) = qosValue) :
    RoundTrips depth w qosValue duplicateMsg serverRetain packetId topicName msgBuffer := by
  have hframed := framed_publishPacket hqos duplicateMsg serverRetain packetId topicName hlen
  obtain ⟨htype, hflags⟩ := first_publishPacket hqos duplicateMsg serverRetain packetId topicName msgBuffer
  obtain ⟨hdup, hretain⟩ := masks_publishHeaderFlags hqos duplicateMsg serverRetain
  have hread := publishMessage_publishBody hq hid hpos hle msgBuffer
  rw [hdup, hretain, ← hflags] at hread
  refine ⟨_, gives_publishPacket qosValue duplicateMsg serverRetain packetId hle hlen, ?_⟩
  intro chunks hne hcut
  exact ⟨_, exchanges_receive_publish depth hinst hheap hcalm hframed htype hclock hread hne hcut,
    ⟨_, _, filter_answered_message _ _, carries_message _ _ _ _ _ _⟩, fun x => isError_answered_message⟩

/-- A PUBLISH that round trips in one call has flags that are read as its quality of service. -/
theorem publishQosValue_of_roundTrips
    (h : RoundTrips depth w qosValue duplicateMsg serverRetain packetId topicName msgBuffer) :
    publishQosValue (publishHeaderFlags qosValue duplicateMsg serverRetain) = qosValue := by
  have hframed := framed_publishPacket hqos duplicateMsg serverRetain packetId topicName hlen
  obtain ⟨htype, hflags⟩ := first_publishPacket hqos duplicateMsg serverRetain packetId topicName msgBuffer
  have hgives := gives_publishPacket qosValue duplicateMsg serverRetain packetId hle hlen
  generalize publishPacket qosValue duplicateMsg serverRetain packetId topicName msgBuffer = p at hgives hframed htype hflags
  obtain ⟨bytes, hbytes, hall⟩ := h
  have hwire : bytes = p.wire := by
    have heq : Buffer.ofBytes bytes = Buffer.ofBytes p.wire := Option.some.inj (Prod.mk.inj (hbytes.symm.trans hgives)).1
    rw [← bytes_ofBytes bytes, heq, bytes_ofBytes]
  subst hwire
  obtain ⟨out, hout, ⟨m, ack, hfilter, hcarries⟩, -⟩ := hall [p.wire] (by simp [Packet.wire]) (by simp)
  rcases hread : publishMessage p.flags p.body with _ | m'
  · obtain ⟨errs, herrs, herr⟩ := fails_receive_publish depth hinst hheap hcalm hframed htype hread
    have heq : out = errs := List.append_cancel_left (hout.symm.trans herrs)
    have hmem : .message m ack ∈ out := (List.mem_filter.mp (hfilter ▸ List.mem_singleton_self _)).1
    exact absurd (herr _ (heq ▸ hmem)) (by simp [Exchange.isError])
  · have hmsg := exchanges_receive_publish depth hinst hheap hcalm hframed htype hclock hread (by simp [Packet.wire])
      (show [p.wire].flatten = p.wire by simp)
    rw [List.append_cancel_left (hout.symm.trans hmsg), filter_answered_message] at hfilter
    obtain ⟨rfl, -⟩ := Exchange.message.inj (List.cons.inj hfilter).1
    rw [← hflags, ← publishMessage_qosInfo hread]
    exact hcarries.qosType

end

/-- PUBLISH round trips. From a created codec, in calm surroundings with a running clock, a PUBLISH round trips if and only if
it is not one of quality of service `DELIVER_AT_MOST_ONCE` with the duplicate or the retain flag. -/
theorem publish_round_trips_iff (depth : Nat) {w : World} (hinst : w.inst = mqttCodecCreate) (hheap : w.heap = okHeap)
    (hcalm : Calm w.callContext.env) (hclock : ClockRuns w.callContext.env) {qosValue : QosValue}
    (hqos : qosValue ∈ [.deliverAtMostOnce, .deliverAtLeastOnce, .deliverExactlyOnce]) (duplicateMsg serverRetain : Bool)
    {packetId : UInt16} (hid : qosValue ≠ .deliverAtMostOnce → packetId ≠ 0) {topicName : CString} (hpos : 0 < strlen topicName)
    (hle : strlen topicName ≤ ushrtMax) {msgBuffer : List UInt8}
    (hlen : (publishBody qosValue packetId topicName msgBuffer).length ≤ 2097151) :
    RoundTrips depth w qosValue duplicateMsg serverRetain packetId topicName msgBuffer ↔
      ¬(qosValue = .deliverAtMostOnce ∧ (duplicateMsg = true ∨ serverRetain = true)) := by
  rw [← publishQosValue_publishHeaderFlags hqos duplicateMsg serverRetain]
  constructor
  · intro h
    exact publishQosValue_of_roundTrips depth hinst hheap hcalm hclock hqos hle hlen h
  · intro hq
    exact roundTrips_of_publishQosValue depth hinst hheap hcalm hclock hqos hle hlen hid hpos hq

/-- A retained message of quality of service `DELIVER_AT_LEAST_ONCE` on the topic "a/b". -/
theorem publish_round_trips_iff_retained :
    RoundTrips 1 openedClient .deliverAtLeastOnce false true 513 ⟨[97, 47, 98], by decide⟩ [1, 2, 3] ↔
      ¬(QosValue.deliverAtLeastOnce = .deliverAtMostOnce ∧ (false = true ∨ true = true)) :=
  publish_round_trips_iff 1 rfl rfl (env_openedClient ▸ calm_calmEnv) (env_openedClient ▸ clockRuns_calmEnv) (by decide) false true
    (by decide) (by decide) (by decide) (by decide)

/-- A retained message of quality of service `DELIVER_AT_MOST_ONCE` does not come back: its first two payload bytes are taken for a
packet id. -/
theorem not_roundTrips_retained_most :
    ¬RoundTrips 1 openedClient .deliverAtMostOnce false true 0 ⟨[97], by decide⟩ [18, 52, 86] := by
  intro h
  have hq := publishQosValue_of_roundTrips 1 rfl rfl (env_openedClient ▸ calm_calmEnv) (env_openedClient ▸ clockRuns_calmEnv)
    (by decide) (by decide) (by decide) h
  exact absurd hq (by decide)

end Umqtt
