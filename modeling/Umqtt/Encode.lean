import Umqtt.Buffer

/-!
# The encoders of `mqtt_codec.c`

Each function keeps the source's name and the order of its stores. An iterator is a `Cursor` into the memory of the packet under
construction, so that a store past the end of what was reserved is visible as a position past the end. The trace logs are left
out.
-/

namespace Umqtt

open Cells

/-! ## The constants of `mqtt_codec.c` -/

/-- `MAX_SEND_SIZE`. -/
def maxSendSize : Nat := 0xFFFFFF7F

/-- `PROTOCOL_NUMBER`. -/
def protocolNumber : UInt8 := 4

/-- `CONN_FLAG_BYTE_OFFSET`. -/
def connFlagByteOffset : Nat := 7

/-- `CONNECT_VARIABLE_HEADER_SIZE`. -/
def connectVariableHeaderSize : Nat := 10

/-- `NEXT_128_CHUNK`. -/
def next128Chunk : UInt8 := 0x80

/-! ## Writing bytes -/

/-- `byteutil_writeByte`. -/
def byteutilWriteByte (buffer : Cursor UInt8) (value : UInt8) : Cursor UInt8 := buffer.put value

/-- `byteutil_writeInt`: the high byte first. -/
def byteutilWriteInt (buffer : Cursor UInt8) (value : UInt16) : Cursor UInt8 :=
  (buffer.put (value / 256).toUInt8).put (value % 256).toUInt8

/-- `byteutil_writeUTF`. -/
def byteutilWriteUTF (buffer : Cursor UInt8) (stringData : List UInt8) (len : UInt16) : Cursor UInt8 :=
  (byteutilWriteInt buffer len).putAll (stringData.take len.toNat)

/-! ## The parts of a packet -/

/-- The `do`/`while` loop of `constructFixedHeader`: the bytes it stores into `remainSize`. A `size_t` of 64 bits gives at most ten
of them, so ten rounds are as many as the loop makes. -/
def remainSizeLoop : Nat → Nat → List UInt8
  | 0, _ => []
  | rounds + 1, packetLen =>
    let encode := UInt8.ofNat (packetLen % 128)
    if packetLen / 128 > 0 then (encode ||| next128Chunk) :: remainSizeLoop rounds (packetLen / 128) else [encode]

/-- What `constructFixedHeader` writes as the remaining length of a packet. Its array has four cells: for a length above 268435455 the
code stores past the end of it, and these bytes are not what is written. -/
def remainSize (packetLen : Nat) : List UInt8 := remainSizeLoop 10 packetLen

/-- `constructFixedHeader`. -/
def constructFixedHeader (ctrlPacket : Buffer) (packetType : ControlPacketType) (flags : UInt8) : Alloc Buffer := do
  let remain := remainSize (bufferLength ctrlPacket)
  let fixedHeader ← bufferNew
  let fixedHeader ← bufferPreBuild fixedHeader (remain.length + 1)
  let iterator := fixedHeader.start.put (packetType.toByte ||| flags)
  bufferPrepend ctrlPacket ⟨(iterator.putAll remain).cells⟩

/-- The loop of `addListItemsToUnsubscribePacket`. -/
def addListItemsToUnsubscribePacket (ctrlPacket : Buffer) : List CString → Alloc Buffer
  | [] => return ctrlPacket
  | topic :: payloadList =>
    let offsetLen := bufferLength ctrlPacket
    let topicLen := strlen topic
    if topicLen > ushrtMax then giveUp
    else do
      let ctrlPacket ← bufferEnlarge ctrlPacket (topicLen + 2)
      let iterator : Cursor UInt8 := ⟨ctrlPacket.cells, offsetLen⟩
      let iterator := byteutilWriteUTF iterator topic.val (UInt16.ofNat topicLen)
      addListItemsToUnsubscribePacket ⟨iterator.cells⟩ payloadList

/-- The loop of `addListItemsToSubscribePacket`. -/
def addListItemsToSubscribePacket (ctrlPacket : Buffer) : List SubscribePayload → Alloc Buffer
  | [] => return ctrlPacket
  | item :: payloadList =>
    let offsetLen := bufferLength ctrlPacket
    let topicLen := strlen item.subscribeTopic
    if topicLen > ushrtMax then giveUp
    else do
      let ctrlPacket ← bufferEnlarge ctrlPacket (topicLen + 2 + 1)
      let iterator : Cursor UInt8 := ⟨ctrlPacket.cells, offsetLen⟩
      let iterator := byteutilWriteUTF iterator item.subscribeTopic.val (UInt16.ofNat topicLen)
      addListItemsToSubscribePacket ⟨(iterator.put item.qosReturn.toByte).cells⟩ payloadList

/-- `constructConnectVariableHeader`. The flags byte is entered later. -/
def constructConnectVariableHeader (ctrlPacket : Buffer) (mqttOptions : MqttClientOptions) : Alloc Buffer := do
  let ctrlPacket ← bufferEnlarge ctrlPacket connectVariableHeaderSize
  match bufferUChar ctrlPacket with
  | none => giveUp
  | some iterator =>
    let iterator := byteutilWriteUTF iterator [0x4D, 0x51, 0x54, 0x54] 4
    let iterator := byteutilWriteByte iterator protocolNumber
    let iterator := byteutilWriteByte iterator 0
    let iterator := byteutilWriteInt iterator mqttOptions.keepAliveInterval
    return ⟨iterator.cells⟩

/-- `constructPublishVariableHeader`. -/
def constructPublishVariableHeader (ctrlPacket : Buffer) (topicName : CString) (packetId : UInt16)
    (qualityOfServiceValue : QosValue) : Alloc Buffer := do
  let currLen := bufferLength ctrlPacket
  let topicLen := strlen topicName
  let spaceLen := 2
  let idLen := if qualityOfServiceValue ≠ .deliverAtMostOnce then 2 else 0
  if topicLen > ushrtMax then giveUp
  else do
    let ctrlPacket ← bufferEnlarge ctrlPacket (topicLen + idLen + spaceLen)
    match bufferUChar ctrlPacket with
    | none => giveUp
    | some start =>
      let iterator := byteutilWriteUTF { start with pos := currLen } topicName.val (UInt16.ofNat topicLen)
      let iterator := if idLen > 0 then byteutilWriteInt iterator packetId else iterator
      return ⟨iterator.cells⟩

/-- `constructSubscibeTypeVariableHeader`. -/
def constructSubscibeTypeVariableHeader (ctrlPacket : Buffer) (packetId : UInt16) : Alloc Buffer := do
  let ctrlPacket ← bufferEnlarge ctrlPacket 2
  match bufferUChar ctrlPacket with
  | none => giveUp
  | some iterator => return ⟨(byteutilWriteInt iterator packetId).cells⟩

/-- `constructPublishReply`. -/
def constructPublishReply (type : ControlPacketType) (flags : UInt8) (packetId : UInt16) : Alloc Buffer := do
  let result ← bufferNew
  let result ← bufferPreBuild result 4
  match bufferUChar result with
  | none => giveUp
  | some iterator =>
    let iterator := (iterator.put (type.toByte ||| flags)).put 0x2
    return ⟨(byteutilWriteInt iterator packetId).cells⟩

/-- `packet[CONN_FLAG_BYTE_OFFSET] |= flag`. -/
def orConnFlag (packet : Cursor UInt8) (flag : UInt8) : Cursor UInt8 :=
  { packet with cells := packet.cells.modify connFlagByteOffset (Option.map (· ||| flag)) }

/-- The stores of `constructConnPayload` after the client id: the fields present, each with its flag. -/
def writeConnFields (mqttOptions : MqttClientOptions) (iterator : Cursor UInt8) : Cursor UInt8 :=
  let willMessageLen := strlenOpt mqttOptions.willMessage
  let willTopicLen := strlenOpt mqttOptions.willTopic
  let usernameLen := strlenOpt mqttOptions.username
  let passwordLen := strlenOpt mqttOptions.password
  let iterator :=
    if willMessageLen > 0 ∧ willTopicLen > 0 then
      let iterator := orConnFlag iterator 0x04
      let iterator := byteutilWriteUTF iterator (bytesOpt mqttOptions.willTopic) (UInt16.ofNat willTopicLen)
      let iterator := orConnFlag iterator (mqttOptions.qualityOfServiceValue.toByte <<< 3)
      let iterator := if mqttOptions.messageRetain then orConnFlag iterator 0x20 else iterator
      byteutilWriteUTF iterator (bytesOpt mqttOptions.willMessage) (UInt16.ofNat willMessageLen)
    else iterator
  let iterator :=
    if usernameLen > 0 then
      byteutilWriteUTF (orConnFlag iterator 0x80) (bytesOpt mqttOptions.username) (UInt16.ofNat usernameLen)
    else iterator
  let iterator :=
    if passwordLen > 0 then
      byteutilWriteUTF (orConnFlag iterator 0x40) (bytesOpt mqttOptions.password) (UInt16.ofNat passwordLen)
    else iterator
  if mqttOptions.useCleanSession then orConnFlag iterator 0x02 else iterator

/-- The bytes `constructConnPayload` reserves: two for every string that is not NULL, and the strings. -/
def connPayloadLen (mqttOptions : MqttClientOptions) : Nat :=
  let space (s : Option CString) := if s.isSome then 2 else 0
  let spaceLen := space mqttOptions.clientId + space mqttOptions.username + space mqttOptions.password +
    space mqttOptions.willMessage + space mqttOptions.willTopic
  strlenOpt mqttOptions.clientId + strlenOpt mqttOptions.username + strlenOpt mqttOptions.password +
    strlenOpt mqttOptions.willMessage + strlenOpt mqttOptions.willTopic + spaceLen

/-- `constructConnPayload`. -/
def constructConnPayload (ctrlPacket : Buffer) (mqttOptions : MqttClientOptions) : Alloc Buffer :=
  let clientLen := strlenOpt mqttOptions.clientId
  let usernameLen := strlenOpt mqttOptions.username
  let passwordLen := strlenOpt mqttOptions.password
  let willMessageLen := strlenOpt mqttOptions.willMessage
  let willTopicLen := strlenOpt mqttOptions.willTopic
  let currLen := bufferLength ctrlPacket
  if clientLen > ushrtMax then giveUp
  else if usernameLen = 0 ∧ passwordLen > 0 then giveUp
  else if (willMessageLen > 0 ∧ willTopicLen = 0) ∨ (willTopicLen > 0 ∧ willMessageLen = 0) then giveUp
  else do
    let ctrlPacket ← bufferEnlarge ctrlPacket (connPayloadLen mqttOptions)
    let iterator : Cursor UInt8 := ⟨ctrlPacket.cells, currLen⟩
    let iterator := byteutilWriteUTF iterator (bytesOpt mqttOptions.clientId) (UInt16.ofNat clientLen)
    if willMessageLen > ushrtMax ∨ willTopicLen > ushrtMax ∨ usernameLen > ushrtMax ∨ passwordLen > ushrtMax then giveUp
    else return ⟨(writeConnFields mqttOptions iterator).cells⟩

/-! ## The packets -/

/-- `mqtt_codec_connect`. -/
def mqttCodecConnect (mqttOptions : MqttClientOptions) : Alloc Buffer := do
  let result ← bufferNew
  let result ← constructConnectVariableHeader result mqttOptions
  let result ← constructConnPayload result mqttOptions
  constructFixedHeader result .connectType 0

/-- A packet of two bytes, its type and a remaining length of 0: the body that `mqtt_codec_disconnect` and `mqtt_codec_ping` share. -/
def emptyPacket (type : ControlPacketType) : Alloc Buffer := do
  let result ← bufferNew
  let result ← bufferEnlarge result 2
  match bufferUChar result with
  | none => giveUp
  | some iterator => return ⟨((iterator.put type.toByte).put 0).cells⟩

/-- `mqtt_codec_disconnect`. -/
def mqttCodecDisconnect : Alloc Buffer := emptyPacket .disconnectType

/-- `mqtt_codec_ping`. -/
def mqttCodecPing : Alloc Buffer := emptyPacket .pingreqType

/-- The flags of a PUBLISH packet, as `mqtt_codec_publish` computes them. -/
def publishHeaderFlags (qosValue : QosValue) (duplicateMsg serverRetain : Bool) : UInt8 :=
  (if duplicateMsg then 0x8 else 0) ||| (if serverRetain then 0x1 else 0) |||
    (if qosValue = .deliverAtMostOnce then 0 else if qosValue = .deliverAtLeastOnce then 0x2 else 0x4)

/-- The part of `mqtt_codec_publish` that appends the message. -/
def appendMsgBuffer (result : Buffer) (msgBuffer : List UInt8) : Alloc Buffer :=
  let payloadOffset := bufferLength result
  if msgBuffer.length > 0 then do
    let result ← bufferEnlarge result msgBuffer.length
    match bufferUChar result with
    | none => giveUp
    | some start => return ⟨(Cursor.putAll { start with pos := payloadOffset } msgBuffer).cells⟩
  else return result

/-- `mqtt_codec_publish`; `buffLen` is the length of `msgBuffer`. -/
def mqttCodecPublish (qosValue : QosValue) (duplicateMsg serverRetain : Bool) (packetId : UInt16)
    (topicName : Option CString) (msgBuffer : List UInt8) : Alloc Buffer :=
  match topicName with
  | none => giveUp
  | some topicName =>
    if msgBuffer.length > maxSendSize then giveUp
    else do
      let headerFlags := publishHeaderFlags qosValue duplicateMsg serverRetain
      let result ← bufferNew
      let result ← constructPublishVariableHeader result topicName packetId qosValue
      let result ← appendMsgBuffer result msgBuffer
      constructFixedHeader result .publishType headerFlags

/-- `mqtt_codec_publishAck`. -/
def mqttCodecPublishAck (packetId : UInt16) : Alloc Buffer := constructPublishReply .pubackType 0 packetId

/-- `mqtt_codec_publishReceived`. -/
def mqttCodecPublishReceived (packetId : UInt16) : Alloc Buffer := constructPublishReply .pubrecType 0 packetId

/-- `mqtt_codec_publishRelease`. -/
def mqttCodecPublishRelease (packetId : UInt16) : Alloc Buffer := constructPublishReply .pubrelType 2 packetId

/-- `mqtt_codec_publishComplete`. -/
def mqttCodecPublishComplete (packetId : UInt16) : Alloc Buffer := constructPublishReply .pubcompType 0 packetId

/-- `mqtt_codec_subscribe`: an empty list stands for `subscribeList == NULL` and for `count == 0`. -/
def mqttCodecSubscribe (packetId : UInt16) (subscribeList : List SubscribePayload) : Alloc Buffer :=
  if subscribeList = [] then giveUp
  else do
    let result ← bufferNew
    let result ← constructSubscibeTypeVariableHeader result packetId
    let result ← addListItemsToSubscribePacket result subscribeList
    constructFixedHeader result .subscribeType 0x2

/-- `mqtt_codec_unsubscribe`: an empty list stands for `unsubscribeList == NULL` and for `count == 0`. -/
def mqttCodecUnsubscribe (packetId : UInt16) (unsubscribeList : List CString) : Alloc Buffer :=
  if unsubscribeList = [] then giveUp
  else do
    let result ← bufferNew
    let result ← constructSubscibeTypeVariableHeader result packetId
    let result ← addListItemsToUnsubscribePacket result unsubscribeList
    constructFixedHeader result .unsubscribeType 0x2

end Umqtt
