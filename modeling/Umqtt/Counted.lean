import Umqtt.Decode

/-!
# The decoder, with its buffers counted

The functions of `mqtt_codec.c` that receive bytes, once more, with the handles counted that they obtain from `BUFFER_new` and pass to
`BUFFER_delete`. `BUFFER_delete` does nothing with NULL.
-/

namespace Umqtt

namespace Counted

/-- The handles obtained from `BUFFER_new`, and those passed to `BUFFER_delete`. -/
structure Ledger where
  created : Nat
  deleted : Nat
  deriving DecidableEq, Repr

/-- `BUFFER_delete`. -/
def bufferDelete (handle : Option Buffer) (ledger : Ledger) : Ledger :=
  if handle.isSome then { ledger with deleted := ledger.deleted + 1 } else ledger

/-- The buffer `prepareheaderDataInfo` takes for a body of `totalLen` bytes. -/
def takeHeaderData (totalLen : Nat) (heap : Heap) (ledger : Ledger) : (Option Buffer × MuResult × Heap) × Ledger :=
  match bufferNew.answer heap with
  | (none, heap) => ((none, .muFailure, heap), ledger)
  | (some headerData, heap) =>
    let ledger := { ledger with created := ledger.created + 1 }
    match (bufferPreBuild headerData totalLen).answer heap with
    | (none, heap) => ((some headerData, .muFailure, heap), ledger)
    | (some headerData, heap) => ((some headerData, .zero, heap), ledger)

/-- `prepareheaderDataInfo`. -/
def prepareheaderDataInfo (codecData : MqttCodecInstance) (remainLen : UInt8) (heap : Heap) (ledger : Ledger) :
    (MqttCodecInstance × MuResult × Heap) × Ledger :=
  if codecData.remainLenIndex ≥ 4 then ((codecData, .muFailure, heap), ledger)
  else
    let codecData := storeLenByte codecData remainLen
    if remainLen ≤ 0x7f then
      match decodedLen codecData.storeRemainLen with
      | none => ((codecData, .muFailure, heap), ledger)
      | some totalLen =>
        let codecData := enterVarHeader codecData
        if totalLen > 0 then
          let ((headerData, result, heap), ledger) := takeHeaderData totalLen heap ledger
          (({ codecData with bufferOffset := 0, headerData := headerData }, result, heap), ledger)
        else ((codecData, .zero, heap), ledger)
    else if codecData.remainLenIndex = 4 then ((codecData, .muFailure, heap), ledger)
    else ((codecData, .zero, heap), ledger)

/-- The codec with its ledger. -/
structure Codec (σ : Type) where
  codec : Umqtt.Codec σ
  ledger : Ledger

section

variable {σ : Type} (packetComplete : OnPacketCompleteCallback σ)

/-- `codec_Data->currPacket = PACKET_TYPE_ERROR; result = MU_FAILURE`. -/
def Codec.fail (c : Codec σ) : Codec σ × MuResult := (⟨c.codec.fail.1, c.ledger⟩, .muFailure)

/-- `completePacketData`. -/
def completePacketData (c : Codec σ) : Codec σ :=
  ⟨Umqtt.completePacketData packetComplete c.codec, bufferDelete c.codec.inst.headerData c.ledger⟩

/-- The first byte of a packet. -/
def receiveFirstByte (c : Codec σ) (iterator : UInt8) : Codec σ × MuResult :=
  let (codec, result) := Umqtt.receiveFirstByte c.codec iterator
  (⟨codec, c.ledger⟩, result)

/-- A byte of the remaining length. -/
def receiveLenByte (c : Codec σ) (iterator : UInt8) : Codec σ × MuResult :=
  let ((inst, result, heap), ledger) := prepareheaderDataInfo c.codec.inst iterator c.codec.heap c.ledger
  let c : Codec σ := ⟨{ c.codec with inst := inst, heap := heap }, ledger⟩
  if result ≠ .zero then c.fail
  else if c.codec.inst.currPacket = .pingrespType then
    if iterator = 0 then (completePacketData packetComplete c, .zero) else c.fail
  else (c, .zero)

/-- A byte of the body. -/
def receiveBodyByte (c : Codec σ) (iterator : UInt8) : Codec σ × MuResult :=
  match c.codec.inst.headerData with
  | none => (⟨{ c.codec with inst := { c.codec.inst with codecState := .codecStatePayload } }, c.ledger⟩, .zero)
  | some headerData =>
    match bufferUChar headerData with
    | none => c.fail
    | some dataBytes =>
      let headerData : Buffer := ⟨dataBytes.cells.set c.codec.inst.bufferOffset (some iterator)⟩
      let c : Codec σ :=
        ⟨{ c.codec with
            inst := { c.codec.inst with bufferOffset := c.codec.inst.bufferOffset + 1, headerData := some headerData } }, c.ledger⟩
      if c.codec.inst.bufferOffset ≥ bufferLength headerData then (completePacketData packetComplete c, .zero) else (c, .zero)

/-- The body of the `for` loop of `mqtt_codec_bytesReceived`. -/
def receiveByte (c : Codec σ) (iterator : UInt8) : Codec σ × MuResult :=
  match c.codec.inst.codecState with
  | .codecStateFixedHeader =>
    if c.codec.inst.currPacket = .unknownType then receiveFirstByte c iterator else receiveLenByte packetComplete c iterator
  | .codecStateVarHeader => receiveBodyByte packetComplete c iterator
  | .codecStatePayload => c.fail

/-- `mqtt_codec_bytesReceived`. -/
def mqttCodecBytesReceived (c : Codec σ) (buffer : Option (List UInt8)) : Codec σ × MuResult :=
  match buffer with
  | none | some [] => c.fail
  | some bytes => Feed.feed .zero (receiveByte packetComplete) c bytes

/-- What a call does to the codec. `mqtt_codec_reset` sets `headerData` to NULL and deletes nothing. -/
def Codec.call (c : Codec σ) : CodecCall → Codec σ
  | .bytesReceived buffer => (mqttCodecBytesReceived packetComplete c buffer).1
  | .reset => ⟨{ c.codec with inst := mqttCodecReset c.codec.inst }, c.ledger⟩

end

/-- `mqtt_codec_destroy`: what the ledger says after it. -/
def mqttCodecDestroy {σ : Type} (c : Codec σ) : Ledger := bufferDelete c.codec.inst.headerData c.ledger

end Counted

end Umqtt
