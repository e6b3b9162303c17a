import Umqtt.Client.Connection

/-!
# Received packets

`recvCompleteCallback` and what it calls. A body is the bytes behind `headerData`, an iterator the offset of the next byte to read.
-/

namespace Umqtt

/-! ## Masks and sizes -/

/-- `DUPLICATE_FLAG_MASK`. -/
def duplicateFlagMask : UInt8 := 0x8

/-- `RETAIN_FLAG_MASK`. -/
def retainFlagMask : UInt8 := 0x1

/-- `QOS_LEAST_ONCE_FLAG_MASK`. -/
def qosLeastOnceFlagMask : UInt8 := 0x2

/-- `sizeof(QOS_VALUE)`. -/
def sizeofQosValue : Nat := 4

/-- `safe_add_size_t`: `SIZE_MAX` on overflow. -/
def safeAddSizeT (a b : Nat) : Nat := if a + b > sizeMax then sizeMax else a + b

/-- `safe_multiply_size_t`: `SIZE_MAX` on overflow. -/
def safeMultiplySizeT (a b : Nat) : Nat := if a * b > sizeMax then sizeMax else a * b

/-! ## Reading a body -/

/-- `byteutil_readByte`: the byte, and the iterator after it. -/
def byteutilReadByte (body : List UInt8) (iterator : Nat) : UInt8 × Nat := (body[iterator]?.getD 0, iterator + 1)

/-- `byteutil_read_uint16`. -/
def byteutilReadUint16 (body : List UInt8) (iterator byteLen : Nat) : UInt16 × Nat :=
  if byteLen ≥ 2 then
    (256 * (body[iterator]?.getD 0).toUInt16 + (body[iterator + 1]?.getD 0).toUInt16, iterator + 2)
  else (0, iterator)

/-- `byteutil_readUTF`: the string, and the iterator after it. The bytes stored before the terminator are returned; a 0 among
them is not looked for. -/
def byteutilReadUTF (body : List UInt8) (iterator byteLen : Nat) (s : Session) : (Option (List UInt8) × Nat) × Session :=
  let (stringLen, next) := byteutilReadUint16 body iterator byteLen
  if stringLen.toNat > 0 ∧ stringLen.toNat + (next - iterator) ≤ byteLen then
    if safeAddSizeT stringLen.toNat 1 ≠ sizeMax then
      match s.alloc takeMemory with
      | (none, s) => ((none, next), s)
      | (some _, s) => ((some ((body.drop next).take stringLen.toNat), next + stringLen.toNat), s)
    else ((none, next), s)
  else ((none, next), s)

section

variable (dispatch : List IoEvent → Session → Session)

/-! ## PUBLISH -/

/-- Send a reply that was built, or report that it was not: what `SendMessageAck` and `recvCompleteCallback` both do. -/
def sendReply (s : Session) (reply : Alloc Buffer) : Session :=
  match s.alloc reply with
  | (none, s) => setErrorCallback dispatch s .memoryError
  | (some pubRel, s) =>
    let (s, result) := sendPacketItem dispatch s pubRel
    if result ≠ .zero then setErrorCallback dispatch s .communicationError else s

/-- `SendMessageAck`. -/
def sendMessageAck (s : Session) (packetId : UInt16) (qosValue : QosValue) : Session :=
  match qosValue with
  | .deliverExactlyOnce => sendReply dispatch s (mqttCodecPublishReceived packetId)
  | .deliverAtLeastOnce => sendReply dispatch s (mqttCodecPublishAck packetId)
  | _ => s

/-- The quality of service that `ProcessPublishMessage` reads from the flags. -/
def publishQosValue (flags : UInt8) : QosValue :=
  if flags = 0 then .deliverAtMostOnce
  else if flags &&& qosLeastOnceFlagMask ≠ 0 then .deliverAtLeastOnce
  else .deliverExactlyOnce

/-- `fnMessageRecv`. -/
def fnMessageRecv (s : Session) (message : MqttMessage) : MqttClientAckOption × Session :=
  let (ack, s) := s.askAck
  (ack, s.log (.messageRecv message ack))

/-- `ProcessPublishMessage`. -/
def processPublishMessage (s : Session) (body : List UInt8) (flags : UInt8) : Session :=
  let isDuplicateMsg : Bool := flags &&& duplicateFlagMask ≠ 0
  let isRetainMsg : Bool := flags &&& retainFlagMask ≠ 0
  let qosValue := publishQosValue flags
  let packetLength := body.length
  match byteutilReadUTF body 0 packetLength s with
  | ((none, _), s) => setErrorCallback dispatch s .parseError
  | ((some topicName, iterator), s) =>
    let numberOfBytesToBeRead := packetLength - iterator
    let (packetId, iterator) :=
      if qosValue ≠ .deliverAtMostOnce then byteutilReadUint16 body iterator numberOfBytesToBeRead else (0, iterator)
    if qosValue ≠ .deliverAtMostOnce ∧ packetId = 0 then setErrorCallback dispatch s .parseError
    else
      let numberOfBytesToBeRead := packetLength - iterator
      match s.alloc (mqttmessageCreateInPlace packetId (some topicName) qosValue
        ((body.drop iterator).take numberOfBytesToBeRead)) with
      | (none, s) => setErrorCallback dispatch s .memoryError
      | (some msgHandle, s) =>
        let msgHandle := mqttmessageSetIsRetained (mqttmessageSetIsDuplicateMsg msgHandle isDuplicateMsg) isRetainMsg
        let (ackOption, s) := fnMessageRecv s msgHandle
        if ackOption = .ackSync then sendMessageAck dispatch s packetId qosValue else s

/-! ## The other packets -/

/-- `(CONNECT_RETURN_CODE)rc`, for a value below `CONN_REFUSED_UNKNOWN`, and `CONN_REFUSED_UNKNOWN` otherwise. -/
def connackReturnCode (rc : UInt8) : ConnectReturnCode :=
  match rc with
  | 0 => .connectionAccepted
  | 1 => .connRefusedUnacceptableVersion
  | 2 => .connRefusedIdRejected
  | 3 => .connRefusedServerUnavail
  | 4 => .connRefusedBadUsernamePassword
  | 5 => .connRefusedNotAuthorized
  | _ => .connRefusedUnknown

/-- A CONNACK. -/
def processConnack (s : Session) (body : List UInt8) : Session :=
  if body.length ≠ 2 then setErrorCallback dispatch s .communicationError
  else
    let (connectAcknowledgeFlags, iterator) := byteutilReadByte body 0
    if connectAcknowledgeFlags &&& 0xFE ≠ 0 then setErrorCallback dispatch s .communicationError
    else
      let (rc, _) := byteutilReadByte body iterator
      let connack : ConnectAck := { isSessionPresent := connectAcknowledgeFlags = 0x1, returnCode := connackReturnCode rc }
      let s := s.log (.operation (.onConnack connack))
      if connack.returnCode = .connectionAccepted then s.setStatus fun status => { status with clientConnected := true }
      else s

/-- The event that a PUBACK, PUBREC, PUBREL or PUBCOMP is delivered as. -/
def publishAckAction (packet : ControlPacketType) (packetId : UInt16) : MqttClientEventResult :=
  if packet = .pubackType then .onPublishAck packetId
  else if packet = .pubrecType then .onPublishRecv packetId
  else if packet = .pubrelType then .onPublishRel packetId
  else .onPublishComp packetId

/-- A PUBACK, PUBREC, PUBREL or PUBCOMP. -/
def processPublishAck (s : Session) (packet : ControlPacketType) (body : List UInt8) : Session :=
  if body.length ≠ 2 then setErrorCallback dispatch s .communicationError
  else
    let (packetId, _) := byteutilReadUint16 body 0 body.length
    let s := s.log (.operation (publishAckAction packet packetId))
    if packet = .pubrecType then sendReply dispatch s (mqttCodecPublishRelease packetId)
    else if packet = .pubrelType then sendReply dispatch s (mqttCodecPublishComplete packetId)
    else s

/-- The quality of service that a return code of a SUBACK stands for. -/
def subackQosValue (qosRet : UInt8) : QosValue :=
  match qosRet with
  | 0 => .deliverAtMostOnce
  | 1 => .deliverAtLeastOnce
  | 2 => .deliverExactlyOnce
  | _ => .deliverFailure

/-- The loop over the return codes of a SUBACK: the ones stored, and the session after an error that ends the loop. -/
def subackLoop (body : List UInt8) : Nat → Nat → List QosValue → Session → List QosValue × Session
  | 0, _, qosReturn, s => (qosReturn, s)
  | remainLen + 1, iterator, qosReturn, s =>
    let (qosRet, iterator) := byteutilReadByte body iterator
    if qosRet &&& 0x7C ≠ 0 then (qosReturn, setErrorCallback dispatch s .communicationError)
    else subackLoop body remainLen iterator (qosReturn ++ [subackQosValue qosRet]) s

/-- `remainLen` of a SUBACK: a `size_t`, whose subtraction of 2 wraps around. -/
def subackRemainLen (packetLength : Nat) : Nat := (packetLength + (sizeMax + 1) - 2) % (sizeMax + 1)

/-- The part of a SUBACK after its packet id: `remainLen` return codes from `iterator` on. -/
def processSubackCodes (s : Session) (body : List UInt8) (packetId : UInt16) (iterator remainLen : Nat) : Session :=
  if safeMultiplySizeT sizeofQosValue remainLen ≠ sizeMax then
    match s.alloc takeMemory with
    | (none, s) => setErrorCallback dispatch s .memoryError
    | (some _, s) =>
      let (qosReturn, s) := subackLoop dispatch body remainLen iterator [] s
      s.log (.operation (.onSubscribeAck { packetId := packetId, qosReturn := qosReturn }))
  else setErrorCallback dispatch s .memoryError

/-- A SUBACK. -/
def processSuback (s : Session) (body : List UInt8) : Session :=
  let (packetId, iterator) := byteutilReadUint16 body 0 body.length
  processSubackCodes dispatch s body packetId iterator (subackRemainLen body.length)

/-- An UNSUBACK. -/
def processUnsuback (s : Session) (body : List UInt8) : Session :=
  if body.length ≠ 2 then setErrorCallback dispatch s .communicationError
  else s.log (.operation (.onUnsubscribeAck (byteutilReadUint16 body 0 body.length).1))

/-- A PINGRESP. -/
def processPingresp (s : Session) : Session :=
  ({ s with client := { s.client with timeSincePing := 0 } }).log (.operation .onPingResponse)

/-- The `switch` of `recvCompleteCallback`. -/
def processPacket (s : Session) (packet : ControlPacketType) (flags : UInt8) (body : List UInt8) : Session :=
  match packet with
  | .connackType => processConnack dispatch s body
  | .publishType => processPublishMessage dispatch s body flags
  | .pubackType | .pubrecType | .pubrelType | .pubcompType => processPublishAck dispatch s packet body
  | .subackType => processSuback dispatch s body
  | .unsubackType => processUnsuback dispatch s body
  | .pingrespType => processPingresp s
  | _ => s

/-- The body behind `headerData`: no bytes for NULL. -/
def bodyOf : Option Buffer → List UInt8
  | none => []
  | some headerData => headerData.bytes

/-- `recvCompleteCallback`, as the codec's `packetComplete`. -/
def recvCompleteCallback : OnPacketCompleteCallback Session := fun packet flags headerData s =>
  let s := s.log (.packet packet flags headerData)
  let body := bodyOf headerData
  if body.length > 0 ∨ packet = .pingrespType then processPacket dispatch s packet flags body else s

/-- `onBytesReceived`. -/
def onBytesReceived (w : World) (buffer : Option (List UInt8)) : World :=
  let w := { w with callContext := w.callContext.log (.bytesReceived buffer) }
  let (w, result) := mqttCodecBytesReceived (recvCompleteCallback dispatch) w buffer
  if result ≠ .zero then
    { w with inst := mqttCodecReset w.inst, callContext := setErrorCallback dispatch w.callContext .parseError }
  else w

end

end Umqtt
