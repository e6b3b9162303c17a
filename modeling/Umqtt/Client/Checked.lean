import Umqtt.Client.Receive

/-!
# Received packets, with every access to memory checked

The functions of `mqtt_client.c` that read a received packet, once more, as functions that give nothing when an access leaves the block
that it is meant for: a byte that is read, a range that is copied or handed on, an element that is stored. Lengths are `size_t` and
their subtraction wraps around.
-/

namespace Umqtt

namespace Checked

/-- Subtraction of `size_t`. -/
def subSizeT (a b : Nat) : Nat := (a + (sizeMax + 1) - b) % (sizeMax + 1)

/-- The range lies inside a block of the given size. -/
def inside (size position length : Nat) : Option Unit := if position + length ≤ size then some () else none

/-- The bytes of a range of the body. -/
def slice (body : List UInt8) (position length : Nat) : Option (List UInt8) := do
  inside body.length position length
  return (body.drop position).take length

/-! ## Reading a body -/

/-- `byteutil_readByte`. -/
def byteutilReadByte (body : List UInt8) (iterator : Nat) : Option (UInt8 × Nat) := do
  let result ← body[iterator]?
  return (result, iterator + 1)

/-- `byteutil_read_uint16`. -/
def byteutilReadUint16 (body : List UInt8) (iterator byteLen : Nat) : Option (UInt16 × Nat) :=
  if byteLen ≥ 2 then do
    let high ← body[iterator]?
    let low ← body[iterator + 1]?
    return (256 * high.toUInt16 + low.toUInt16, iterator + 2)
  else some (0, iterator)

/-- `byteutil_readUTF`. The copy is made into a block of `malloc_size` bytes, and the terminator is stored after it. -/
def byteutilReadUTF (body : List UInt8) (iterator byteLen : Nat) (s : Session) :
    Option ((Option (List UInt8) × Nat) × Session) := do
  let (stringLen, next) ← byteutilReadUint16 body iterator byteLen
  if stringLen.toNat > 0 ∧ stringLen.toNat + (next - iterator) ≤ byteLen then
    let mallocSize := safeAddSizeT stringLen.toNat 1
    if mallocSize ≠ sizeMax then
      match s.alloc takeMemory with
      | (none, s) => return ((none, next), s)
      | (some _, s) =>
        let result ← slice body next stringLen.toNat
        inside mallocSize 0 stringLen.toNat
        inside mallocSize stringLen.toNat 1
        return ((some result, next + stringLen.toNat), s)
    else return ((none, next), s)
  else return ((none, next), s)

section

variable (dispatch : List IoEvent → Session → Session)

/-! ## The packets -/

/-- `ProcessPublishMessage`. -/
def processPublishMessage (s : Session) (body : List UInt8) (flags : UInt8) : Option Session := do
  let isDuplicateMsg : Bool := flags &&& duplicateFlagMask ≠ 0
  let isRetainMsg : Bool := flags &&& retainFlagMask ≠ 0
  let qosValue := publishQosValue flags
  let packetLength := body.length
  match ← byteutilReadUTF body 0 packetLength s with
  | ((none, _), s) => return setErrorCallback dispatch s .parseError
  | ((some topicName, iterator), s) =>
    let numberOfBytesToBeRead := subSizeT packetLength iterator
    let (packetId, iterator) ←
      (if qosValue ≠ .deliverAtMostOnce then byteutilReadUint16 body iterator numberOfBytesToBeRead else some (0, iterator))
    if qosValue ≠ .deliverAtMostOnce ∧ packetId = 0 then return setErrorCallback dispatch s .parseError
    else
      let numberOfBytesToBeRead := subSizeT packetLength iterator
      let appMsg ← slice body iterator numberOfBytesToBeRead
      match s.alloc (mqttmessageCreateInPlace packetId (some topicName) qosValue appMsg) with
      | (none, s) => return setErrorCallback dispatch s .memoryError
      | (some msgHandle, s) =>
        let msgHandle := mqttmessageSetIsRetained (mqttmessageSetIsDuplicateMsg msgHandle isDuplicateMsg) isRetainMsg
        let (ackOption, s) := fnMessageRecv s msgHandle
        return if ackOption = .ackSync then sendMessageAck dispatch s packetId qosValue else s

/-- A CONNACK. -/
def processConnack (s : Session) (body : List UInt8) : Option Session :=
  if body.length ≠ 2 then some (setErrorCallback dispatch s .communicationError)
  else do
    let (connectAcknowledgeFlags, iterator) ← byteutilReadByte body 0
    if connectAcknowledgeFlags &&& 0xFE ≠ 0 then return setErrorCallback dispatch s .communicationError
    else
      let (rc, _) ← byteutilReadByte body iterator
      let connack : ConnectAck := { isSessionPresent := connectAcknowledgeFlags = 0x1, returnCode := connackReturnCode rc }
      let s := s.log (.operation (.onConnack connack))
      return if connack.returnCode = .connectionAccepted then s.setStatus fun status => { status with clientConnected := true }
        else s

/-- A PUBACK, PUBREC, PUBREL or PUBCOMP. -/
def processPublishAck (s : Session) (packet : ControlPacketType) (body : List UInt8) : Option Session :=
  if body.length ≠ 2 then some (setErrorCallback dispatch s .communicationError)
  else do
    let (packetId, _) ← byteutilReadUint16 body 0 body.length
    let s := s.log (.operation (publishAckAction packet packetId))
    return if packet = .pubrecType then sendReply dispatch s (mqttCodecPublishRelease packetId)
      else if packet = .pubrelType then sendReply dispatch s (mqttCodecPublishComplete packetId)
      else s

/-- The loop over the return codes of a SUBACK, which stores into a block of `mallocSize` bytes. -/
def subackLoop (body : List UInt8) (mallocSize : Nat) : Nat → Nat → List QosValue → Session → Option (List QosValue × Session)
  | 0, _, qosReturn, s => some (qosReturn, s)
  | remainLen + 1, iterator, qosReturn, s => do
    let (qosRet, iterator) ← byteutilReadByte body iterator
    if qosRet &&& 0x7C ≠ 0 then return (qosReturn, setErrorCallback dispatch s .communicationError)
    else
      inside mallocSize (sizeofQosValue * qosReturn.length) sizeofQosValue
      subackLoop body mallocSize remainLen iterator (qosReturn ++ [subackQosValue qosRet]) s

/-- The part of a SUBACK after its packet id. -/
def processSubackCodes (s : Session) (body : List UInt8) (packetId : UInt16) (iterator remainLen : Nat) : Option Session :=
  let mallocSize := safeMultiplySizeT sizeofQosValue remainLen
  if mallocSize ≠ sizeMax then
    match s.alloc takeMemory with
    | (none, s) => some (setErrorCallback dispatch s .memoryError)
    | (some _, s) => do
      let (qosReturn, s) ← subackLoop dispatch body mallocSize remainLen iterator [] s
      return s.log (.operation (.onSubscribeAck { packetId := packetId, qosReturn := qosReturn }))
  else some (setErrorCallback dispatch s .memoryError)

/-- A SUBACK. -/
def processSuback (s : Session) (body : List UInt8) : Option Session := do
  let (packetId, iterator) ← byteutilReadUint16 body 0 body.length
  processSubackCodes dispatch s body packetId iterator (subSizeT body.length 2)

/-- An UNSUBACK. -/
def processUnsuback (s : Session) (body : List UInt8) : Option Session :=
  if body.length ≠ 2 then some (setErrorCallback dispatch s .communicationError)
  else do
    let (packetId, _) ← byteutilReadUint16 body 0 body.length
    return s.log (.operation (.onUnsubscribeAck packetId))

/-- The `switch` of `recvCompleteCallback`. -/
def processPacket (s : Session) (packet : ControlPacketType) (flags : UInt8) (body : List UInt8) : Option Session :=
  match packet with
  | .connackType => processConnack dispatch s body
  | .publishType => processPublishMessage dispatch s body flags
  | .pubackType | .pubrecType | .pubrelType | .pubcompType => processPublishAck dispatch s packet body
  | .subackType => processSuback dispatch s body
  | .unsubackType => processUnsuback dispatch s body
  | .pingrespType => some (processPingresp s)
  | _ => some s

/-- `recvCompleteCallback`. -/
def recvCompleteCallback (packet : ControlPacketType) (flags : UInt8) (headerData : Option Buffer) (s : Session) :
    Option Session :=
  let s := s.log (.packet packet flags headerData)
  let body := bodyOf headerData
  if body.length > 0 ∨ packet = .pingrespType then processPacket dispatch s packet flags body else some s

end

end Checked

end Umqtt
