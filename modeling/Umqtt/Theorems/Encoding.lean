import Umqtt.Lemmas.Bodies
import Umqtt.Lemmas.Frames

/-!
# What the encoders write is a packet

Every encoder that writes a body, with the fixed header it is meant to have. What it returns is one packet of the decoder, delivered
on its last byte (`encoders_decode`). The encoders with a body of any length (`Request`) end with `constructFixedHeader`.
-/

namespace Umqtt

open Cells Alloc

/-! ## The encoders -/

/-- A call of an encoder that ends with `constructFixedHeader`. -/
inductive Request where
  | connect (mqttOptions : MqttClientOptions)
  | publish (qosValue : QosValue) (duplicateMsg serverRetain : Bool) (packetId : UInt16) (topicName : Option CString)
      (msgBuffer : List UInt8)
  | subscribe (packetId : UInt16) (subscribeList : List SubscribePayload)
  | unsubscribe (packetId : UInt16) (unsubscribeList : List CString)

namespace Request

/-- What the encoder returns. -/
def packet : Request → Alloc Buffer
  | connect mqttOptions => mqttCodecConnect mqttOptions
  | publish qosValue duplicateMsg serverRetain packetId topicName msgBuffer =>
    mqttCodecPublish qosValue duplicateMsg serverRetain packetId topicName msgBuffer
  | subscribe packetId subscribeList => mqttCodecSubscribe packetId subscribeList
  | unsubscribe packetId unsubscribeList => mqttCodecUnsubscribe packetId unsubscribeList

/-- What the encoder hands to `constructFixedHeader`. -/
def ctrlPacket : Request → Alloc Buffer
  | connect mqttOptions => do
    let result ← bufferNew
    let result ← constructConnectVariableHeader result mqttOptions
    constructConnPayload result mqttOptions
  | publish qosValue _ _ packetId topicName msgBuffer =>
    match topicName with
    | none => giveUp
    | some topicName =>
      if msgBuffer.length > maxSendSize then giveUp
      else do
        let result ← bufferNew
        let result ← constructPublishVariableHeader result topicName packetId qosValue
        appendMsgBuffer result msgBuffer
  | subscribe packetId subscribeList =>
    if subscribeList = [] then giveUp
    else do
      let result ← bufferNew
      let result ← constructSubscibeTypeVariableHeader result packetId
      addListItemsToSubscribePacket result subscribeList
  | unsubscribe packetId unsubscribeList =>
    if unsubscribeList = [] then giveUp
    else do
      let result ← bufferNew
      let result ← constructSubscibeTypeVariableHeader result packetId
      addListItemsToUnsubscribePacket result unsubscribeList

/-- The type of the packet. -/
def type : Request → ControlPacketType
  | connect _ => .connectType
  | publish .. => .publishType
  | subscribe _ _ => .subscribeType
  | unsubscribe _ _ => .unsubscribeType

/-- The quality of service as MQTT counts it. -/
def qosLevel : QosValue → UInt8
  | .deliverAtMostOnce => 0
  | .deliverAtLeastOnce => 1
  | _ => 2

/-- The flags that MQTT gives the packet: DUP, the quality of service and RETAIN for a PUBLISH. -/
def flags : Request → UInt8
  | connect _ => 0
  | publish qosValue duplicateMsg serverRetain _ _ _ =>
    (if duplicateMsg then 8 else 0) + 2 * qosLevel qosValue + (if serverRetain then 1 else 0)
  | subscribe _ _ | unsubscribe _ _ => 2

/-- The variable header and the payload. -/
def body : Request → List UInt8
  | connect mqttOptions => connectBody mqttOptions
  | publish qosValue _ _ packetId topicName msgBuffer =>
    (topicName.map fun topicName => publishHeader topicName packetId qosValue ++ msgBuffer).getD []
  | subscribe packetId subscribeList => subscribeBody packetId subscribeList
  | unsubscribe packetId unsubscribeList => unsubscribeBody packetId unsubscribeList

/-- The options of a CONNECT have a client id, and no other string that is empty. -/
def Filled : Request → Prop
  | connect mqttOptions => OptionsFilled mqttOptions
  | _ => True

/-- The flags that `mqtt_codec_publish` computes are the flags of a PUBLISH. -/
theorem publishHeaderFlags_eq (qosValue : QosValue) (duplicateMsg serverRetain : Bool) :
    publishHeaderFlags qosValue duplicateMsg serverRetain =
      (if duplicateMsg then 8 else 0) + 2 * qosLevel qosValue + (if serverRetain then 1 else 0) := by
  cases qosValue <;> cases duplicateMsg <;> cases serverRetain <;> decide

/-- The encoder ends with `constructFixedHeader`. -/
theorem packet_eq (r : Request) : r.packet = r.ctrlPacket >>= fun ctrlPacket => constructFixedHeader ctrlPacket r.type r.flags := by
  cases r with
  | connect mqttOptions => simp only [packet, ctrlPacket, mqttCodecConnect, bind_assoc, type, flags]
  | publish qosValue duplicateMsg serverRetain packetId topicName msgBuffer =>
    simp only [packet, ctrlPacket, mqttCodecPublish, type, flags, publishHeaderFlags_eq]
    rcases topicName with _ | topicName
    · rfl
    · dsimp only
      split
      · rfl
      · simp only [bind_assoc]
  | subscribe packetId subscribeList =>
    simp only [packet, ctrlPacket, mqttCodecSubscribe, type, flags]
    split
    · rfl
    · simp only [bind_assoc]
  | unsubscribe packetId unsubscribeList =>
    simp only [packet, ctrlPacket, mqttCodecUnsubscribe, type, flags]
    split
    · rfl
    · simp only [bind_assoc]

/-- What is handed to `constructFixedHeader` is the body. -/
theorem ensures_ctrlPacket (r : Request) (h : r.Filled) : r.ctrlPacket.Ensures (· = Buffer.ofBytes r.body) := by
  cases r with
  | connect mqttOptions =>
    refine ensures_bufferNew.bind ?_
    intro result hr
    subst hr
    refine (ensures_constructConnectVariableHeader mqttOptions).bind ?_
    intro result hr
    subst hr
    exact ensures_constructConnPayload h
  | publish qosValue duplicateMsg serverRetain packetId topicName msgBuffer =>
    rcases topicName with _ | topicName
    · exact ensures_giveUp
    · simp only [ctrlPacket]
      split
      · exact ensures_giveUp
      · refine ensures_bufferNew.bind ?_
        intro result hr
        subst hr
        refine (ensures_constructPublishVariableHeader topicName packetId qosValue).bind ?_
        intro result hr
        subst hr
        exact ensures_appendMsgBuffer _ msgBuffer
  | subscribe packetId subscribeList =>
    simp only [ctrlPacket]
    split
    · exact ensures_giveUp
    · refine ensures_bufferNew.bind ?_
      intro result hr
      subst hr
      refine (ensures_constructSubscibeTypeVariableHeader packetId).bind ?_
      intro result hr
      subst hr
      exact ensures_addListItemsToSubscribePacket _ subscribeList
  | unsubscribe packetId unsubscribeList =>
    simp only [ctrlPacket]
    split
    · exact ensures_giveUp
    · refine ensures_bufferNew.bind ?_
      intro result hr
      subst hr
      refine (ensures_constructSubscibeTypeVariableHeader packetId).bind ?_
      intro result hr
      subst hr
      exact ensures_addListItemsToUnsubscribePacket _ unsubscribeList

end Request

/-- A call of an encoder that writes a body. -/
inductive EncoderCall where
  | request (r : Request)
  | publishAck (packetId : UInt16)
  | publishReceived (packetId : UInt16)
  | publishRelease (packetId : UInt16)
  | publishComplete (packetId : UInt16)

namespace EncoderCall

/-- What the encoder returns. -/
def packet : EncoderCall → Alloc Buffer
  | request r => r.packet
  | publishAck packetId => mqttCodecPublishAck packetId
  | publishReceived packetId => mqttCodecPublishReceived packetId
  | publishRelease packetId => mqttCodecPublishRelease packetId
  | publishComplete packetId => mqttCodecPublishComplete packetId

/-- The type of the packet. -/
def type : EncoderCall → ControlPacketType
  | request r => r.type
  | publishAck _ => .pubackType
  | publishReceived _ => .pubrecType
  | publishRelease _ => .pubrelType
  | publishComplete _ => .pubcompType

/-- The flags that MQTT gives the packet. -/
def flags : EncoderCall → UInt8
  | request r => r.flags
  | publishRelease _ => 2
  | publishAck _ | publishReceived _ | publishComplete _ => 0

/-- The variable header and the payload. -/
def body : EncoderCall → List UInt8
  | request r => r.body
  | publishAck packetId | publishReceived packetId | publishRelease packetId | publishComplete packetId => uint16Bytes packetId

/-- The options of a CONNECT have a client id, and no other string that is empty. -/
def Filled : EncoderCall → Prop
  | request r => r.Filled
  | _ => True

/-- The first byte of the packet: its type and its flags. -/
def first (e : EncoderCall) : UInt8 := e.type.toByte ||| e.flags

/-- The first byte is read as the type and the flags, and passes the check of the decoder. -/
theorem first_spec (e : EncoderCall) :
    packetTypeByte e.first = e.type ∧ flagValueByte e.first = e.flags ∧ firstByteAccepted e.type e.flags = true := by
  rcases e with r | _ | _ | _ | _
  · cases r with
    | publish qosValue duplicateMsg serverRetain packetId topicName msgBuffer =>
      simp only [first, type, flags, Request.type, Request.flags]
      cases qosValue <;> cases duplicateMsg <;> cases serverRetain <;> decide
    | _ =>
      simp only [first, type, flags, Request.type, Request.flags]
      decide
  all_goals
    simp only [first, type, flags]
    decide

/-- The length byte of a reply is the length of its body. -/
theorem ensures_reply (t : ControlPacketType) (flags : UInt8) (packetId : UInt16) :
    (constructPublishReply t flags packetId).Ensures
      (· = Buffer.ofBytes ((t.toByte ||| flags) :: (remainSize (uint16Bytes packetId).length ++ uint16Bytes packetId))) := by
  have hremain : remainSize (uint16Bytes packetId).length = [0x2] := by
    rw [show (uint16Bytes packetId).length = 2 from rfl]
    decide
  rw [hremain]
  exact ensures_constructPublishReply t flags packetId

/-- What an encoder returns is its first byte, the length of the body and the body. -/
theorem ensures_packet (e : EncoderCall) (h : e.Filled) :
    e.packet.Ensures (· = Buffer.ofBytes (e.first :: (remainSize e.body.length ++ e.body))) := by
  rcases e with r | packetId | packetId | packetId | packetId
  · rw [packet, Request.packet_eq]
    exact (r.ensures_ctrlPacket h).fixedHeader r.type r.flags
  all_goals exact ensures_reply _ _ packetId

/-- A packet that is returned has a body. -/
theorem body_ne_nil (e : EncoderCall) {built : Buffer} (h : e.packet.Produces built) : e.body ≠ [] := by
  have huint16 : ∀ value : UInt16, uint16Bytes value ≠ [] := fun value hn => List.cons_ne_nil _ _ hn
  rcases e with r | packetId | packetId | packetId | packetId
  · cases r with
    | connect mqttOptions => simp [body, Request.body, connectBody, connectHeader, utfField, uint16Bytes]
    | publish qosValue duplicateMsg serverRetain packetId topicName msgBuffer =>
      rcases topicName with _ | topicName
      · obtain ⟨heap, hnone⟩ := h
        exact absurd hnone (by simp [packet, Request.packet, mqttCodecPublish])
      · simp [body, Request.body, publishHeader, uint16Bytes]
    | subscribe packetId subscribeList => simp [body, Request.body, subscribeBody, uint16Bytes]
    | unsubscribe packetId unsubscribeList => simp [body, Request.body, unsubscribeBody, uint16Bytes]
  all_goals exact huint16 packetId

end EncoderCall

/-! ## What is written is read -/

/-- Feeding the packet to a created codec returns 0 and invokes `packetComplete` once, on the last byte. -/
def DecodesTo (packet : Buffer) (d : Delivery) : Prop :=
  ∃ before last, packet = Buffer.ofBytes (before ++ [last]) ∧
    (mqttCodecBytesReceived record ⟨mqttCodecCreate, okHeap, []⟩ (some before)).1.callContext = [] ∧
    (mqttCodecBytesReceived record ⟨mqttCodecCreate, okHeap, []⟩ (some (before ++ [last]))).2 = .zero ∧
    (mqttCodecBytesReceived record ⟨mqttCodecCreate, okHeap, []⟩ (some (before ++ [last]))).1.callContext = [d]

/-- A framed packet with a body is delivered on its last byte. -/
theorem decodesTo_of_framed {p : Packet} (h : p.Framed) (ht : p.type ≠ .pingrespType) :
    DecodesTo (Buffer.ofBytes p.wire) ⟨p.type, p.flags, some (Buffer.ofBytes p.body)⟩ := by
  have hbody : p.body ≠ [] := by
    have hrange := h.2
    rw [if_neg ht] at hrange
    exact List.ne_nil_of_length_pos hrange.1
  obtain ⟨init, last, hinit⟩ := (List.eq_nil_or_concat p.body).resolve_left hbody
  rw [List.concat_eq_append] at hinit
  have hwire : p.wire = (p.first :: (lenField p.body.length ++ init)) ++ [last] := by
    conv_lhs => rw [Packet.wire, hinit]
    rw [hinit, List.cons_append, List.append_assoc]
  obtain ⟨off, hfeed⟩ := feed_packet record h 0 []
  have hpart := feed_packet_part record h ht hinit 0 []
  rw [startAt_zero] at hfeed hpart
  refine ⟨_, last, by rw [hwire], ?_, ?_⟩
  · rw [bytesReceived_of_ne_nil _ (by simp), hpart]
  · rw [← hwire, bytesReceived_of_ne_nil _ (by simp [Packet.wire]), hfeed]
    refine ⟨rfl, ?_⟩
    rw [Packet.deliver, Packet.headerData, if_neg hbody]
    rfl

/-- Every packet with a body that an encoder returns is a packet for the decoder, up to a remaining length of three bytes: it is
delivered once, on its last byte, with the type, the flags and the body that were written. -/
theorem encoders_decode (e : EncoderCall) (hfilled : e.Filled) {packet : Buffer} (hp : e.packet.Produces packet)
    (hlen : e.body.length ≤ 2097151) :
    packet = Buffer.ofBytes (e.first :: (lenField e.body.length ++ e.body)) ∧
      DecodesTo packet ⟨e.type, e.flags, some (Buffer.ofBytes e.body)⟩ := by
  obtain ⟨htype, hflags, haccepted⟩ := e.first_spec
  have hpacket := (e.ensures_packet hfilled).of_produces hp
  rw [remainSize_eq (Nat.lt_of_le_of_lt hlen (by decide))] at hpacket
  have ht : e.type ≠ .pingrespType := by
    rcases e with r | _ | _ | _ | _
    · cases r <;> exact ControlPacketType.noConfusion
    all_goals exact ControlPacketType.noConfusion
  have hframed : (⟨e.first, e.body⟩ : Packet).Framed := by
    refine ⟨?_, ?_⟩
    · rw [Packet.Accepted, Packet.type, Packet.flags, htype, hflags]
      exact haccepted
    · rw [Packet.type, htype, if_neg ht]
      exact ⟨List.length_pos_iff.mpr (e.body_ne_nil hp), hlen⟩
  refine ⟨hpacket, ?_⟩
  have hdecodes := decodesTo_of_framed hframed (by rw [Packet.type, htype]; exact ht)
  rw [Packet.type, Packet.flags, htype, hflags] at hdecodes
  rw [hpacket]
  exact hdecodes

/-- A SUBSCRIBE to the topic "a". -/
theorem encoders_decode_subscribe :
    let e : EncoderCall := .request (.subscribe 5 [⟨⟨[97], by decide⟩, .deliverAtLeastOnce⟩])
    Buffer.ofBytes [0x82, 6, 0, 5, 0, 1, 97, 1] = Buffer.ofBytes (e.first :: (lenField e.body.length ++ e.body)) ∧
      DecodesTo (Buffer.ofBytes [0x82, 6, 0, 5, 0, 1, 97, 1]) ⟨e.type, e.flags, some (Buffer.ofBytes e.body)⟩ :=
  encoders_decode (.request (.subscribe 5 [⟨⟨[97], by decide⟩, .deliverAtLeastOnce⟩])) trivial ⟨okHeap, by decide⟩ (by decide)

end Umqtt
