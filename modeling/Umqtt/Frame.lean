import Umqtt.Lemmas.LenField

/-!
# Packets of a byte stream

What the decoder is for, said without its state: a stream is a list of packets, each its first byte, the length of its body in the
shortest continued form, and its body. `Framed` are the packets that the decoder frames, and `Packet.deliver` is the one call of
`packetComplete` that a packet stands for. `InitialParsing` is the state a codec is in between two packets.
-/

namespace Umqtt

/-- A packet: its first byte and what follows the remaining length. -/
structure Packet where
  first : UInt8
  body : List UInt8
  deriving DecidableEq, Repr

namespace Packet

/-- The type of a packet: the high nibble of its first byte. -/
def type (p : Packet) : ControlPacketType := packetTypeByte p.first

/-- The flags of a packet: the low nibble of its first byte. -/
def flags (p : Packet) : UInt8 := flagValueByte p.first

/-- The bytes of a packet. -/
def wire (p : Packet) : List UInt8 := p.first :: (lenField p.body.length ++ p.body)

/-- The buffer a packet is delivered with: its body, NULL when there is none. -/
def headerData (p : Packet) : Option Buffer := if p.body = [] then none else some (Buffer.ofBytes p.body)

/-- The first byte passes the check of type and flags. -/
def Accepted (p : Packet) : Prop := firstByteAccepted p.type p.flags = true

/-- The packets the decoder frames: a PINGRESP without a body, and any other accepted packet whose body has at least one byte and
whose length takes at most three. -/
def Framed (p : Packet) : Prop :=
  p.Accepted ∧ if p.type = .pingrespType then p.body = [] else 1 ≤ p.body.length ∧ p.body.length ≤ 2097151

instance (p : Packet) : Decidable p.Accepted := inferInstanceAs (Decidable (_ = _))

instance (p : Packet) : Decidable p.Framed := inferInstanceAs (Decidable (_ ∧ _))

/-- The call of `packetComplete` that a packet stands for. -/
def deliver {σ : Type} (packetComplete : OnPacketCompleteCallback σ) (s : σ) (p : Packet) : σ :=
  packetComplete p.type p.flags p.headerData s

end Packet

/-- The bytes of a stream of packets. -/
def wireOf (ps : List Packet) : List UInt8 := (ps.map Packet.wire).flatten

/-- The state between two packets. -/
structure MqttCodecInstance.InitialParsing (codecData : MqttCodecInstance) : Prop where
  currPacket : codecData.currPacket = .unknownType
  codecState : codecData.codecState = .codecStateFixedHeader
  headerData : codecData.headerData = none
  remainLenIndex : codecData.remainLenIndex = 0
  storeRemainLen : codecData.storeRemainLen = clearedRemainLen

instance (codecData : MqttCodecInstance) : Decidable codecData.InitialParsing :=
  decidable_of_iff (codecData.currPacket = .unknownType ∧ codecData.codecState = .codecStateFixedHeader ∧
      codecData.headerData = none ∧ codecData.remainLenIndex = 0 ∧ codecData.storeRemainLen = clearedRemainLen)
    ⟨fun ⟨h1, h2, h3, h4, h5⟩ => ⟨h1, h2, h3, h4, h5⟩, fun ⟨h1, h2, h3, h4, h5⟩ => ⟨h1, h2, h3, h4, h5⟩⟩

/-- The state of a created codec is the state between two packets. -/
theorem initialParsing_create : mqttCodecCreate.InitialParsing := ⟨rfl, rfl, rfl, rfl, rfl⟩

/-- No first byte has one of the types the code keeps for itself. -/
theorem packetTypeByte_ne_unknownType : ∀ b : UInt8, packetTypeByte b ≠ .unknownType := by decide +kernel

end Umqtt
