import Umqtt.Frame

/-!
# What the encoders write

Whatever the allocator answers, a packet that an encoder returns starts with its type (`packetType`). With memory at hand, the
packets that the client's own decoder reads back are written out: a PUBLISH, and the replies to received packets.
-/

namespace Umqtt

open Cells Alloc

/-! ## The type of a packet -/

/-- The type in the first byte of a packet, none when nothing has been written there. -/
def Buffer.packetType (packet : Buffer) : Option ControlPacketType :=
  match packet.cells.head? with
  | some (some first) => some (packetTypeByte first)
  | _ => none

/-- A packet whose first byte is made up of a type and flags has that type. -/
theorem packetType_cons (first : UInt8) (rest : List (Option UInt8)) :
    (⟨some first :: rest⟩ : Buffer).packetType = some (packetTypeByte first) := rfl

/-- Flags are in the low nibble, and do not change the type. -/
theorem packetTypeByte_or_flags (flags : UInt8) (h : flags &&& 0xf0 = 0) :
    ∀ t ∈ [ControlPacketType.connectType, .publishType, .pubackType, .pubrecType, .pubrelType, .pubcompType, .subscribeType,
      .unsubscribeType, .pingreqType, .disconnectType], packetTypeByte (t.toByte ||| flags) = t := by
  revert flags
  decide +kernel

/-- The memory of a fixed header after its stores. -/
theorem cells_fixedHeader (first : UInt8) (remain : List UInt8) :
    (((Buffer.start ⟨List.replicate (remain.length + 1) none⟩).put first).putAll remain).cells = (first :: remain).map some := by
  have hput : (Buffer.start ⟨List.replicate (remain.length + 1) none⟩).put first =
      ⟨[some first] ++ List.replicate remain.length none, 1⟩ := rfl
  rw [hput]
  exact Cursor.cells_putAll_replicate [some first] remain

/-- A fixed header followed by the rest of the packet. -/
theorem ensures_constructFixedHeader (ctrlPacket : Buffer) (t : ControlPacketType) (flags : UInt8) :
    (constructFixedHeader ctrlPacket t flags).Ensures
      (· = ⟨((t.toByte ||| flags) :: remainSize (bufferLength ctrlPacket)).map some ++ ctrlPacket.cells⟩) := by
  refine ensures_bufferNew.bind fun _ _ => (ensures_bufferPreBuild _ _).bind ?_
  intro fixedHeader hf
  subst hf
  rw [← cells_fixedHeader]
  exact ensures_bufferPrepend ctrlPacket _

theorem gives_constructFixedHeader (body : List UInt8) (t : ControlPacketType) (flags : UInt8) :
    (constructFixedHeader (Buffer.ofBytes body) t flags).Gives
      (Buffer.ofBytes ((t.toByte ||| flags) :: (remainSize body.length ++ body))) := by
  refine gives_bufferNew.bind ((gives_bufferPreBuild _ _).bind ?_)
  rw [bufferLength_ofBytes]
  have hcells : (Buffer.ofBytes ((t.toByte ||| flags) :: (remainSize body.length ++ body))) =
      ⟨((t.toByte ||| flags) :: remainSize body.length).map some ++ (Buffer.ofBytes body).cells⟩ := by
    simp [Buffer.ofBytes]
  rw [hcells, ← cells_fixedHeader]
  exact gives_bufferPrepend (Buffer.ofBytes body) _

/-- A packet that ends with its fixed header has the type given to it. -/
theorem packetType_constructFixedHeader (ctrlPacket : Buffer) (t : ControlPacketType) (flags : UInt8)
    (ht : packetTypeByte (t.toByte ||| flags) = t) :
    (constructFixedHeader ctrlPacket t flags).Ensures (·.packetType = some t) := by
  intro heap p heap' hp
  rw [ensures_constructFixedHeader ctrlPacket t flags _ _ _ hp, List.map_cons, List.cons_append, packetType_cons, ht]

theorem packetType_mqttCodecConnect (mqttOptions : MqttClientOptions) :
    (mqttCodecConnect mqttOptions).Ensures (·.packetType = some .connectType) :=
  ensures_bind fun _ => ensures_bind fun _ => ensures_bind fun _ => packetType_constructFixedHeader _ _ _ (by decide)

theorem publishHeaderFlags_low (qosValue : QosValue) (duplicateMsg serverRetain : Bool) :
    publishHeaderFlags qosValue duplicateMsg serverRetain &&& 0xf0 = 0 := by
  cases qosValue <;> cases duplicateMsg <;> cases serverRetain <;> decide

theorem packetType_mqttCodecPublish (qosValue : QosValue) (duplicateMsg serverRetain : Bool) (packetId : UInt16)
    (topicName : Option CString) (msgBuffer : List UInt8) :
    (mqttCodecPublish qosValue duplicateMsg serverRetain packetId topicName msgBuffer).Ensures
      (·.packetType = some .publishType) := by
  have hflags := packetTypeByte_or_flags _ (publishHeaderFlags_low qosValue duplicateMsg serverRetain) .publishType (by simp)
  unfold mqttCodecPublish
  split
  · exact ensures_giveUp
  · split
    · exact ensures_giveUp
    · exact ensures_bind fun _ => ensures_bind fun _ => ensures_bind fun _ => packetType_constructFixedHeader _ _ _ hflags

theorem packetType_mqttCodecSubscribe (packetId : UInt16) (subscribeList : List SubscribePayload) :
    (mqttCodecSubscribe packetId subscribeList).Ensures (·.packetType = some .subscribeType) := by
  rw [mqttCodecSubscribe]
  split
  · exact ensures_giveUp
  · exact ensures_bind fun _ => ensures_bind fun _ => ensures_bind fun _ => packetType_constructFixedHeader _ _ _ (by decide)

theorem packetType_mqttCodecUnsubscribe (packetId : UInt16) (unsubscribeList : List CString) :
    (mqttCodecUnsubscribe packetId unsubscribeList).Ensures (·.packetType = some .unsubscribeType) := by
  rw [mqttCodecUnsubscribe]
  split
  · exact ensures_giveUp
  · exact ensures_bind fun _ => ensures_bind fun _ => ensures_bind fun _ => packetType_constructFixedHeader _ _ _ (by decide)

/-! ## A PUBLISH -/

/-- The two bytes of a 16-bit number, the high byte first. -/
def uint16Bytes (value : UInt16) : List UInt8 := [(value / 256).toUInt8, (value % 256).toUInt8]

/-- What a PUBLISH has before its payload: the topic, and the packet id unless the quality of service has none. -/
def publishHeader (topicName : CString) (packetId : UInt16) (qosValue : QosValue) : List UInt8 :=
  uint16Bytes (UInt16.ofNat (strlen topicName)) ++ topicName.val ++
    if qosValue ≠ .deliverAtMostOnce then uint16Bytes packetId else []

theorem byteutilWriteInt_eq (buffer : Cursor UInt8) (value : UInt16) : byteutilWriteInt buffer value = buffer.putAll (uint16Bytes value) :=
  rfl

theorem byteutilWriteUTF_eq (buffer : Cursor UInt8) (stringData : List UInt8) (len : UInt16) (h : len.toNat = stringData.length) :
    byteutilWriteUTF buffer stringData len = buffer.putAll (uint16Bytes len ++ stringData) := by
  rw [byteutilWriteUTF, byteutilWriteInt_eq, h, List.take_length, Cursor.putAll_append]

theorem toNat_ofNat_strlen {s : CString} (h : strlen s ≤ ushrtMax) : (UInt16.ofNat (strlen s)).toNat = strlen s := by
  rw [UInt16.toNat_ofNat']
  exact Nat.mod_eq_of_lt (Nat.lt_of_le_of_lt h (by decide))

/-- Stores that fill a block behind what it holds. -/
theorem ofBytes_putAll (done more : List UInt8) :
    (⟨((⟨(Buffer.ofBytes done).cells ++ List.replicate more.length none, bufferLength (Buffer.ofBytes done)⟩ : Cursor UInt8).putAll
      more).cells⟩ : Buffer) = Buffer.ofBytes (done ++ more) := by
  have hcells := Cursor.cells_putAll_replicate (done.map some) more
  rw [List.length_map] at hcells
  rw [bufferLength_ofBytes, Buffer.ofBytes, hcells, Buffer.ofBytes, List.map_append]

/-- `constructPublishVariableHeader` takes memory once, and writes the header. -/
theorem constructPublishVariableHeader_eq (topicName : CString) (packetId : UInt16) (qosValue : QosValue)
    (h : strlen topicName ≤ ushrtMax) :
    constructPublishVariableHeader (Buffer.ofBytes []) topicName packetId qosValue =
      takeMemory >>= fun _ => pure (Buffer.ofBytes (publishHeader topicName packetId qosValue)) := by
  have hlen : strlen topicName + (if qosValue ≠ .deliverAtMostOnce then 2 else 0) + 2 =
      (publishHeader topicName packetId qosValue).length := by
    rw [publishHeader, strlen]
    split <;> simp [uint16Bytes]
  have hne : ¬((Buffer.ofBytes []).cells ++
      List.replicate (publishHeader topicName packetId qosValue).length (none : Option UInt8) = []) := by
    simp [publishHeader, uint16Bytes]
  have hpos : 0 < (publishHeader topicName packetId qosValue).length := by simp [publishHeader, uint16Bytes]
  -- the stores are one after another from the start of the block
  have hstores : ∀ c : Cursor UInt8,
      (if (if qosValue ≠ .deliverAtMostOnce then 2 else 0) > 0 then
        byteutilWriteInt (byteutilWriteUTF c topicName.val (UInt16.ofNat (strlen topicName))) packetId
      else byteutilWriteUTF c topicName.val (UInt16.ofNat (strlen topicName))) =
      c.putAll (publishHeader topicName packetId qosValue) := by
    intro c
    rw [byteutilWriteUTF_eq _ _ _ (toNat_ofNat_strlen h), byteutilWriteInt_eq, ← Cursor.putAll_append]
    by_cases hq : qosValue = .deliverAtMostOnce <;> simp [publishHeader, hq]
  have hall := ofBytes_putAll [] (publishHeader topicName packetId qosValue)
  rw [List.nil_append] at hall
  unfold constructPublishVariableHeader
  simp only [if_neg (Nat.not_lt.mpr h), hlen, bufferEnlarge_pos _ hpos, bind_assoc, pure_bind, bufferUChar, if_neg hne, Buffer.start,
    hstores]
  rw [← hall]

/-- `appendMsgBuffer` takes memory unless the message is empty, and appends the message. -/
theorem appendMsgBuffer_eq (header msgBuffer : List UInt8) :
    appendMsgBuffer (Buffer.ofBytes header) msgBuffer =
      if msgBuffer.length > 0 then takeMemory >>= fun _ => pure (Buffer.ofBytes (header ++ msgBuffer))
      else pure (Buffer.ofBytes (header ++ msgBuffer)) := by
  unfold appendMsgBuffer
  split
  · rename_i hpos
    have hne : ¬((Buffer.ofBytes header).cells ++ List.replicate msgBuffer.length (none : Option UInt8) = []) := by
      intro he
      simp [List.append_eq_nil_iff] at he
      simp [he.2] at hpos
    simp only [bufferEnlarge_pos _ hpos, bind_assoc, pure_bind, bufferUChar, if_neg hne, Buffer.start]
    rw [← ofBytes_putAll]
  · rename_i hpos
    have hnil : msgBuffer = [] := List.eq_nil_of_length_eq_zero (by omega)
    rw [hnil, List.append_nil]

theorem gives_appendMsgBuffer (header msgBuffer : List UInt8) :
    (appendMsgBuffer (Buffer.ofBytes header) msgBuffer).Gives (Buffer.ofBytes (header ++ msgBuffer)) := by
  rw [appendMsgBuffer_eq]
  split
  · exact Gives.afterMemory rfl
  · exact gives_pure _

/-- The bytes of a PUBLISH. -/
theorem gives_mqttCodecPublish (qosValue : QosValue) (duplicateMsg serverRetain : Bool) (packetId : UInt16) (topicName : CString)
    (msgBuffer : List UInt8) (ht : strlen topicName ≤ ushrtMax) (hm : msgBuffer.length ≤ maxSendSize) :
    (mqttCodecPublish qosValue duplicateMsg serverRetain packetId (some topicName) msgBuffer).Gives
      (Buffer.ofBytes ((ControlPacketType.publishType.toByte ||| publishHeaderFlags qosValue duplicateMsg serverRetain) ::
        (remainSize (publishHeader topicName packetId qosValue ++ msgBuffer).length ++
          (publishHeader topicName packetId qosValue ++ msgBuffer)))) := by
  simp only [mqttCodecPublish, if_neg (Nat.not_lt.mpr hm)]
  refine gives_bufferNew.bind (Gives.bind (a := Buffer.ofBytes (publishHeader topicName packetId qosValue)) ?_ ?_)
  · rw [show (⟨[]⟩ : Buffer) = Buffer.ofBytes [] from rfl, constructPublishVariableHeader_eq topicName packetId qosValue ht]
    exact Gives.afterMemory rfl
  · exact (gives_appendMsgBuffer _ msgBuffer).bind (gives_constructFixedHeader _ _ _)

/-! ## Packets of a fixed size -/

/-- The four bytes of a reply. -/
def replyBytes (t : ControlPacketType) (flags : UInt8) (packetId : UInt16) : List UInt8 :=
  [t.toByte ||| flags, 0x2, (packetId / 256).toUInt8, (packetId % 256).toUInt8]

theorem ensures_constructPublishReply (t : ControlPacketType) (flags : UInt8) (packetId : UInt16) :
    (constructPublishReply t flags packetId).Ensures (· = Buffer.ofBytes (replyBytes t flags packetId)) := by
  refine ensures_bufferNew.bind fun _ _ => (ensures_bufferPreBuild _ _).bind ?_
  intro result hr
  subst hr
  exact ensures_pure rfl

theorem gives_constructPublishReply (t : ControlPacketType) (flags : UInt8) (packetId : UInt16) :
    (constructPublishReply t flags packetId).Gives (Buffer.ofBytes (replyBytes t flags packetId)) :=
  gives_bufferNew.bind ((gives_bufferPreBuild _ _).bind rfl)

theorem ensures_emptyPacket (t : ControlPacketType) : (emptyPacket t).Ensures (· = Buffer.ofBytes [t.toByte, 0]) := by
  refine ensures_bufferNew.bind fun _ hn => (ensures_bufferEnlarge _ _).bind ?_
  intro result hr
  subst hn hr
  exact ensures_pure rfl

/-- The type of a reply. -/
theorem packetType_constructPublishReply (t : ControlPacketType) (flags : UInt8) (packetId : UInt16)
    (ht : packetTypeByte (t.toByte ||| flags) = t) : (constructPublishReply t flags packetId).Ensures (·.packetType = some t) := by
  intro heap p heap' hp
  rw [ensures_constructPublishReply t flags packetId _ _ _ hp]
  exact congrArg some ht

/-- The type of a packet of two bytes. -/
theorem packetType_emptyPacket (t : ControlPacketType) (ht : packetTypeByte t.toByte = t) :
    (emptyPacket t).Ensures (·.packetType = some t) := by
  intro heap p heap' hp
  rw [ensures_emptyPacket t _ _ _ hp]
  exact congrArg some ht

theorem packetType_mqttCodecPublishAck (packetId : UInt16) :
    (mqttCodecPublishAck packetId).Ensures (·.packetType = some .pubackType) :=
  packetType_constructPublishReply .pubackType 0 packetId (by decide)

theorem packetType_mqttCodecPublishReceived (packetId : UInt16) :
    (mqttCodecPublishReceived packetId).Ensures (·.packetType = some .pubrecType) :=
  packetType_constructPublishReply .pubrecType 0 packetId (by decide)

theorem packetType_mqttCodecPublishRelease (packetId : UInt16) :
    (mqttCodecPublishRelease packetId).Ensures (·.packetType = some .pubrelType) :=
  packetType_constructPublishReply .pubrelType 2 packetId (by decide)

theorem packetType_mqttCodecPublishComplete (packetId : UInt16) :
    (mqttCodecPublishComplete packetId).Ensures (·.packetType = some .pubcompType) :=
  packetType_constructPublishReply .pubcompType 0 packetId (by decide)

theorem packetType_mqttCodecDisconnect : mqttCodecDisconnect.Ensures (·.packetType = some .disconnectType) :=
  packetType_emptyPacket .disconnectType (by decide)

theorem packetType_mqttCodecPing : mqttCodecPing.Ensures (·.packetType = some .pingreqType) :=
  packetType_emptyPacket .pingreqType (by decide)

end Umqtt
