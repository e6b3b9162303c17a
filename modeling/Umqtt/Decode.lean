import Umqtt.Encode
import Umqtt.Lib.Feed

/-!
# The decoder of `mqtt_codec.c`

The codec object is `MqttCodecInstance`. Its `packetComplete` and `callContext` are a function and the state of the object the
function acts on: a completed packet is given to `packetComplete`, which may change that state and nothing of the codec. A NULL
callback is the function that changes nothing. `Codec` puts the three things a call reads and changes together: the object, the
answers the allocator will give it, and the state behind `callContext`.

`receiveByte` is the body of the `for` loop of `mqtt_codec_bytesReceived`, and `lenLoop` the `do`/`while` loop of
`prepareheaderDataInfo`, as the list of its rounds: a round is what the loop reads and computes, so that a statement about the
indices it uses or the sums it forms is a statement about that list.
-/

namespace Umqtt

open Cells

/-- `MAX_3_DIGIT_PACKET_SIZE`. -/
def max3DigitPacketSize : Nat := 2097152

/-- `INT_MAX`, for an `int` of 32 bits. -/
def intMax : Nat := 2147483647

/-- `CODEC_STATE_RESULT`. -/
inductive CodecStateResult where
  | codecStateFixedHeader | codecStateVarHeader | codecStatePayload
  deriving DecidableEq, Repr

/-- `MQTTCODEC_INSTANCE`, without its callback. -/
structure MqttCodecInstance where
  currPacket : ControlPacketType
  codecState : CodecStateResult
  bufferOffset : Nat
  headerFlags : UInt8
  headerData : Option Buffer
  storeRemainLen : Vector UInt8 4
  remainLenIndex : Nat
  deriving DecidableEq, Repr

/-- `storeRemainLen` after `memset` to 0. -/
def clearedRemainLen : Vector UInt8 4 := Vector.replicate 4 0

/-- `clear_codec_data`, which sets every field. -/
def clearCodecData : MqttCodecInstance :=
  { currPacket := .unknownType, codecState := .codecStateFixedHeader, bufferOffset := 0, headerFlags := 0, headerData := none,
    storeRemainLen := clearedRemainLen, remainLenIndex := 0 }

/-- `mqtt_codec_create`, as to the object it makes. -/
def mqttCodecCreate : MqttCodecInstance := clearCodecData

/-- `mqtt_codec_reset`. -/
def mqttCodecReset (_handle : MqttCodecInstance) : MqttCodecInstance := clearCodecData

/-! ## The first byte -/

/-- `PACKET_TYPE_BYTE`. -/
def packetTypeByte (p : UInt8) : ControlPacketType :=
  match p &&& 0xf0 with
  | 0x10 => .connectType
  | 0x20 => .connackType
  | 0x30 => .publishType
  | 0x40 => .pubackType
  | 0x50 => .pubrecType
  | 0x60 => .pubrelType
  | 0x70 => .pubcompType
  | 0x80 => .subscribeType
  | 0x90 => .subackType
  | 0xA0 => .unsubscribeType
  | 0xB0 => .unsubackType
  | 0xC0 => .pingreqType
  | 0xD0 => .pingrespType
  | 0xE0 => .disconnectType
  | 0xF0 => .packetInvalid2Type
  | _ => .packetInvalid1Type

/-- `FLAG_VALUE_BYTE`. -/
def flagValueByte (p : UInt8) : UInt8 := p &&& 0xf

/-- `processControlPacketType`: the type and the flags of a first byte. -/
def processControlPacketType (pktByte : UInt8) : ControlPacketType × UInt8 := (packetTypeByte pktByte, flagValueByte pktByte)

/-- The `switch` of `mqtt_codec_bytesReceived` on a first byte: whether the type and its reserved flags are accepted. -/
def firstByteAccepted (currPacket : ControlPacketType) (headerFlags : UInt8) : Bool :=
  match currPacket with
  | .packetInvalid1Type | .packetInvalid2Type => false
  | .connectType | .connackType | .pubackType | .pubrecType | .pubcompType | .subackType | .unsubackType | .pingreqType
  | .pingrespType | .disconnectType => (headerFlags &&& 0x0F) == 0
  | .pubrelType | .subscribeType | .unsubscribeType => (headerFlags &&& 0x0F) == 0x02
  | .publishType | .controlPacketTypeInvalid | .packetTypeError | .unknownType => true

/-! ## The remaining length -/

/-- One round of the `do`/`while` loop of `prepareheaderDataInfo`: the index it reads `storeRemainLen` at, and `encodeByte`,
`totalLen` and `multiplier` after it. -/
structure LenRound where
  index : Nat
  encodeByte : UInt8
  totalLen : Nat
  multiplier : Nat
  deriving DecidableEq, Repr

/-- The rounds of the loop, from the given `index`, `totalLen` and `multiplier` on. The multiplier passes
`MAX_3_DIGIT_PACKET_SIZE` in the fourth round, so four rounds are as many as the loop makes. -/
def lenLoop (storeRemainLen : Vector UInt8 4) : Nat → Nat → Nat → Nat → List LenRound
  | 0, _, _, _ => []
  | rounds + 1, index, totalLen, multiplier =>
    let encodeByte := storeRemainLen[index]?.getD 0
    let totalLen := totalLen + (encodeByte &&& 127).toNat * multiplier
    let multiplier := multiplier * next128Chunk.toNat
    let round : LenRound := ⟨index, encodeByte, totalLen, multiplier⟩
    if multiplier > max3DigitPacketSize then [round]
    else if encodeByte &&& next128Chunk ≠ 0 then round :: lenLoop storeRemainLen rounds (index + 1) totalLen multiplier
    else [round]

/-- The loop as `prepareheaderDataInfo` runs it. -/
def lenRounds (storeRemainLen : Vector UInt8 4) : List LenRound := lenLoop storeRemainLen 4 0 0 1

/-- The remaining length the loop computes, none when it bails out (`result = MU_FAILURE; break`) or the length is above
`MAX_SEND_SIZE`. -/
def decodedLen (storeRemainLen : Vector UInt8 4) : Option Nat :=
  match (lenRounds storeRemainLen).getLast? with
  | none => none
  | some last => if last.multiplier > max3DigitPacketSize ∨ last.totalLen > maxSendSize then none else some last.totalLen

/-- The codec object after the store of a length byte, `storeRemainLen[remainLenIndex++] = remainLen`; the guard of
`prepareheaderDataInfo` has found the index below 4. -/
def storeLenByte (codecData : MqttCodecInstance) (remainLen : UInt8) : MqttCodecInstance :=
  { codecData with
    storeRemainLen := codecData.storeRemainLen.setIfInBounds codecData.remainLenIndex remainLen
    remainLenIndex := codecData.remainLenIndex + 1 }

/-- The codec object once the remaining length is known: the body is awaited and the length bytes are cleared. -/
def enterVarHeader (codecData : MqttCodecInstance) : MqttCodecInstance :=
  { codecData with codecState := .codecStateVarHeader, remainLenIndex := 0, storeRemainLen := clearedRemainLen }

/-- The buffer `prepareheaderDataInfo` takes for a body of `totalLen` bytes: NULL when `BUFFER_new` fails, and still empty when
`BUFFER_pre_build` does. -/
def takeHeaderData (totalLen : Nat) (heap : Heap) : Option Buffer × MuResult × Heap :=
  match bufferNew.answer heap with
  | (none, heap) => (none, .muFailure, heap)
  | (some headerData, heap) =>
    match (bufferPreBuild headerData totalLen).answer heap with
    | (none, heap) => (some headerData, .muFailure, heap)
    | (some headerData, heap) => (some headerData, .zero, heap)

/-- `prepareheaderDataInfo`. -/
def prepareheaderDataInfo (codecData : MqttCodecInstance) (remainLen : UInt8) (heap : Heap) :
    MqttCodecInstance × MuResult × Heap :=
  if codecData.remainLenIndex ≥ 4 then (codecData, .muFailure, heap)
  else
    let codecData := storeLenByte codecData remainLen
    if remainLen ≤ 0x7f then
      match decodedLen codecData.storeRemainLen with
      | none => (codecData, .muFailure, heap)
      | some totalLen =>
        let codecData := enterVarHeader codecData
        if totalLen > 0 then
          let (headerData, result, heap) := takeHeaderData totalLen heap
          ({ codecData with bufferOffset := 0, headerData := headerData }, result, heap)
        else (codecData, .zero, heap)
    else if codecData.remainLenIndex = 4 then (codecData, .muFailure, heap)
    else (codecData, .zero, heap)

/-! ## Bytes -/

/-- The codec object, the answers the allocator will give it, and the state behind `callContext`. -/
structure Codec (σ : Type) where
  inst : MqttCodecInstance
  heap : Heap
  callContext : σ

/-- `ON_PACKET_COMPLETE_CALLBACK`: what the callback does to the state behind `callContext`. -/
abbrev OnPacketCompleteCallback (σ : Type) : Type := ControlPacketType → UInt8 → Option Buffer → σ → σ

section

variable {σ : Type} (packetComplete : OnPacketCompleteCallback σ)

/-- `codec_Data->currPacket = PACKET_TYPE_ERROR; result = MU_FAILURE`. -/
def Codec.fail (c : Codec σ) : Codec σ × MuResult :=
  ({ c with inst := { c.inst with currPacket := .packetTypeError } }, .muFailure)

/-- `completePacketData`. -/
def completePacketData (c : Codec σ) : Codec σ :=
  { c with
    inst := { c.inst with
      currPacket := .unknownType, codecState := .codecStateFixedHeader, headerFlags := 0, headerData := none }
    callContext := packetComplete c.inst.currPacket c.inst.headerFlags c.inst.headerData c.callContext }

/-- The first byte of a packet. -/
def receiveFirstByte (c : Codec σ) (iterator : UInt8) : Codec σ × MuResult :=
  let (currPacket, headerFlags) := processControlPacketType iterator
  let c := { c with inst := { c.inst with currPacket := currPacket, headerFlags := headerFlags } }
  if firstByteAccepted currPacket headerFlags then (c, .zero) else c.fail

/-- A byte of the remaining length. -/
def receiveLenByte (c : Codec σ) (iterator : UInt8) : Codec σ × MuResult :=
  let (inst, result, heap) := prepareheaderDataInfo c.inst iterator c.heap
  let c := { c with inst := inst, heap := heap }
  if result ≠ .zero then c.fail
  else if c.inst.currPacket = .pingrespType then
    if iterator = 0 then (completePacketData packetComplete c, .zero) else c.fail
  else (c, .zero)

/-- A byte of the body. -/
def receiveBodyByte (c : Codec σ) (iterator : UInt8) : Codec σ × MuResult :=
  match c.inst.headerData with
  | none => ({ c with inst := { c.inst with codecState := .codecStatePayload } }, .zero)
  | some headerData =>
    match bufferUChar headerData with
    | none => c.fail
    | some dataBytes =>
      let headerData : Buffer := ⟨dataBytes.cells.set c.inst.bufferOffset (some iterator)⟩
      let c := { c with inst := { c.inst with bufferOffset := c.inst.bufferOffset + 1, headerData := some headerData } }
      if c.inst.bufferOffset ≥ bufferLength headerData then (completePacketData packetComplete c, .zero) else (c, .zero)

/-- The body of the `for` loop of `mqtt_codec_bytesReceived`. -/
def receiveByte (c : Codec σ) (iterator : UInt8) : Codec σ × MuResult :=
  match c.inst.codecState with
  | .codecStateFixedHeader =>
    if c.inst.currPacket = .unknownType then receiveFirstByte c iterator else receiveLenByte packetComplete c iterator
  | .codecStateVarHeader => receiveBodyByte packetComplete c iterator
  | .codecStatePayload => c.fail

/-- `mqtt_codec_bytesReceived`: the buffer may be NULL, and `size` is its length. -/
def mqttCodecBytesReceived (c : Codec σ) (buffer : Option (List UInt8)) : Codec σ × MuResult :=
  match buffer with
  | none | some [] => c.fail
  | some bytes => Feed.feed .zero (receiveByte packetComplete) c bytes

/-- One call of `mqtt_codec_bytesReceived` for each chunk, and what the calls return. -/
def receiveChunks (c : Codec σ) : List (List UInt8) → Codec σ × List MuResult
  | [] => (c, [])
  | chunk :: chunks =>
    let r := mqttCodecBytesReceived packetComplete c (some chunk)
    let rest := receiveChunks r.1 chunks
    (rest.1, r.2 :: rest.2)

/-- A call on a created codec. -/
inductive CodecCall where
  | bytesReceived (buffer : Option (List UInt8))
  | reset

/-- What a call does to the codec. -/
def Codec.call (c : Codec σ) : CodecCall → Codec σ
  | .bytesReceived buffer => (mqttCodecBytesReceived packetComplete c buffer).1
  | .reset => { c with inst := mqttCodecReset c.inst }

end

/-- One invocation of `packetComplete`. -/
structure Delivery where
  packet : ControlPacketType
  flags : UInt8
  headerData : Option Buffer
  deriving DecidableEq, Repr

/-- The callback that keeps what it is called with. -/
def record : OnPacketCompleteCallback (List Delivery) := fun packet flags headerData log => log ++ [⟨packet, flags, headerData⟩]

end Umqtt
