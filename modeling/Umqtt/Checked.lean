import Umqtt.Decode

/-!
# The decoder, with every access to memory checked

The functions of `mqtt_codec.c` that receive bytes, once more, as functions that give nothing when an access leaves the block that it
is meant for or an `int` does not hold what it is given: a length byte that is stored into `storeRemainLen` or read from it, a sum of
`prepareheaderDataInfo`, a body byte that is stored into `headerData`. The `do`/`while` loop gives nothing either when it has not come
to its end after `rounds` rounds.
-/

namespace Umqtt

namespace Checked

/-- A value that an `int` holds. -/
def int (n : Nat) : Option Nat := if n ≤ intMax then some n else none

/-- `storeRemainLen[remainLenIndex++] = remainLen`. -/
def storeLenByte (codecData : MqttCodecInstance) (remainLen : UInt8) : Option MqttCodecInstance :=
  if h : codecData.remainLenIndex < 4 then
    some { codecData with
      storeRemainLen := codecData.storeRemainLen.set codecData.remainLenIndex remainLen h
      remainLenIndex := codecData.remainLenIndex + 1 }
  else none

/-- The rounds of the loop, from the given `index`, `totalLen` and `multiplier` on. -/
def lenLoop (storeRemainLen : Vector UInt8 4) : Nat → Nat → Nat → Nat → Option (List LenRound)
  | 0, _, _, _ => none
  | rounds + 1, index, totalLen, multiplier => do
    let encodeByte ← storeRemainLen[index]?
    let product ← int ((encodeByte &&& 127).toNat * multiplier)
    let totalLen ← int (totalLen + product)
    let multiplier ← int (multiplier * next128Chunk.toNat)
    let round : LenRound := ⟨index, encodeByte, totalLen, multiplier⟩
    if multiplier > max3DigitPacketSize then some [round]
    else if encodeByte &&& next128Chunk ≠ 0 then (lenLoop storeRemainLen rounds (index + 1) totalLen multiplier).map (round :: ·)
    else some [round]

section

variable (rounds : Nat)

/-- The remaining length the loop computes, and none when it bails out or the length is above `MAX_SEND_SIZE`. -/
def decodedLen (storeRemainLen : Vector UInt8 4) : Option (Option Nat) := do
  let made ← lenLoop storeRemainLen rounds 0 0 1
  match made.getLast? with
  | none => return none
  | some last => return if last.multiplier > max3DigitPacketSize ∨ last.totalLen > maxSendSize then none else some last.totalLen

/-- `prepareheaderDataInfo`. -/
def prepareheaderDataInfo (codecData : MqttCodecInstance) (remainLen : UInt8) (heap : Heap) :
    Option (MqttCodecInstance × MuResult × Heap) :=
  if codecData.remainLenIndex ≥ 4 then some (codecData, .muFailure, heap)
  else do
    let codecData ← storeLenByte codecData remainLen
    if remainLen ≤ 0x7f then
      match ← decodedLen rounds codecData.storeRemainLen with
      | none => return (codecData, .muFailure, heap)
      | some totalLen =>
        let codecData := enterVarHeader codecData
        if totalLen > 0 then
          let (headerData, result, heap) := takeHeaderData totalLen heap
          return ({ codecData with bufferOffset := 0, headerData := headerData }, result, heap)
        else return (codecData, .zero, heap)
    else if codecData.remainLenIndex = 4 then return (codecData, .muFailure, heap)
    else return (codecData, .zero, heap)

variable {σ : Type} (packetComplete : OnPacketCompleteCallback σ)

/-- A byte of the remaining length. -/
def receiveLenByte (c : Codec σ) (iterator : UInt8) : Option (Codec σ × MuResult) := do
  let (inst, result, heap) ← prepareheaderDataInfo rounds c.inst iterator c.heap
  let c := { c with inst := inst, heap := heap }
  if result ≠ .zero then return c.fail
  else if c.inst.currPacket = .pingrespType then
    return if iterator = 0 then (completePacketData packetComplete c, .zero) else c.fail
  else return (c, .zero)

/-- A byte of the body. -/
def receiveBodyByte (c : Codec σ) (iterator : UInt8) : Option (Codec σ × MuResult) :=
  match c.inst.headerData with
  | none => some ({ c with inst := { c.inst with codecState := .codecStatePayload } }, .zero)
  | some headerData =>
    match bufferUChar headerData with
    | none => some c.fail
    | some dataBytes =>
      if c.inst.bufferOffset < dataBytes.cells.length then
        let headerData : Buffer := ⟨dataBytes.cells.set c.inst.bufferOffset (some iterator)⟩
        let c := { c with inst := { c.inst with bufferOffset := c.inst.bufferOffset + 1, headerData := some headerData } }
        some (if c.inst.bufferOffset ≥ bufferLength headerData then (completePacketData packetComplete c, .zero) else (c, .zero))
      else none

/-- The body of the `for` loop of `mqtt_codec_bytesReceived`. -/
def receiveByte (c : Codec σ) (iterator : UInt8) : Option (Codec σ × MuResult) :=
  match c.inst.codecState with
  | .codecStateFixedHeader =>
    if c.inst.currPacket = .unknownType then some (receiveFirstByte c iterator) else receiveLenByte rounds packetComplete c iterator
  | .codecStateVarHeader => receiveBodyByte packetComplete c iterator
  | .codecStatePayload => some c.fail

/-- `mqtt_codec_bytesReceived`. -/
def mqttCodecBytesReceived (c : Codec σ) (buffer : Option (List UInt8)) : Option (Codec σ × MuResult) :=
  match buffer with
  | none | some [] => some c.fail
  | some bytes => Feed.feedM .zero (receiveByte rounds packetComplete) c bytes

/-- What a call does to the codec. -/
def call (c : Codec σ) : CodecCall → Option (Codec σ)
  | .bytesReceived buffer => (mqttCodecBytesReceived rounds packetComplete c buffer).map Prod.fst
  | .reset => some { c with inst := mqttCodecReset c.inst }

end

end Checked

end Umqtt
