import Umqtt.Lib.Mqtt

/-!
# What a server reads

The packets that a client of MQTT 3.1.1 may send, and what the stream of a connection means: packets one after another, each of a type
that a client sends, with the flags of its type and a body that is read to its end. The reader of the stream knows nothing of how it was
written.
-/

namespace Reader

variable {α : Type}

/-- All that is left. -/
def rest : Reader α (List α) := fun xs => some (xs, [])

theorem readsAll_rest (xs : List α) : ReadsAll rest xs xs := rfl

end Reader

namespace Mqtt

open Reader

/-! ## The packets -/

/-- A PUBLISH: its flags, the topic, the packet id of one that is acknowledged, and the message. -/
structure Publish where
  duplicate : Bool
  qos : UInt8
  retain : Bool
  topic : List UInt8
  packetId : Option UInt16
  payload : List UInt8
  deriving DecidableEq

/-- The body of a PUBLISH with the given flags. -/
def publish (flags : UInt8) : Reader UInt8 Publish := do
  let qos := (flags >>> 1) &&& 3
  check (qos ≤ 2)
  let topic ← string
  let packetId ← optional (decide (qos ≠ 0)) uint16
  let payload ← rest
  return { topic, qos, packetId, payload, duplicate := decide (flags &&& 8 ≠ 0), retain := decide (flags &&& 1 ≠ 0) }

/-- A packet that a client sends. -/
inductive ClientPacket where
  | connect (fields : Connect)
  | publish (fields : Publish)
  | puback (packetId : UInt16)
  | pubrec (packetId : UInt16)
  | pubrel (packetId : UInt16)
  | pubcomp (packetId : UInt16)
  | subscribe (packetId : UInt16) (topics : List (List UInt8 × UInt8))
  | unsubscribe (packetId : UInt16) (topics : List (List UInt8))
  | pingreq
  | disconnect
  deriving DecidableEq

/-- The packet is a PUBLISH, a SUBSCRIBE or an UNSUBSCRIBE. -/
def ClientPacket.isRequest : ClientPacket → Bool
  | publish _ | subscribe .. | unsubscribe .. => true
  | _ => false

/-- The body of a packet, as its first byte says. -/
def clientBody (first : UInt8) : Reader UInt8 ClientPacket :=
  if first = 0x10 then do return .connect (← connect)
  else if first >>> 4 = 3 then do return .publish (← publish (first &&& 0x0F))
  else if first = 0x40 then do return .puback (← uint16)
  else if first = 0x50 then do return .pubrec (← uint16)
  else if first = 0x62 then do return .pubrel (← uint16)
  else if first = 0x70 then do return .pubcomp (← uint16)
  else if first = 0x82 then do
    let fields ← subscribe
    return .subscribe fields.1 fields.2
  else if first = 0xA2 then do
    let fields ← unsubscribe
    return .unsubscribe fields.1 fields.2
  else if first = 0xC0 then return .pingreq
  else if first = 0xE0 then return .disconnect
  else failure

/-- A packet whose body is read to its end. -/
def clientPacket : Reader UInt8 ClientPacket := do
  let p ← packet
  match whole (clientBody p.1) p.2 with
  | some fields => return fields
  | none => failure

/-- The packets of a stream, which are all that it holds. -/
def clientPackets (bytes : List UInt8) : Option (List ClientPacket) := whole (untilEnd clientPacket) bytes

/-! ## Streams -/

/-- A packet is read when its body is. -/
theorem reads_clientPacket {bytes body : List UInt8} {first : UInt8} {p : ClientPacket} (h : Reads packet bytes (first, body))
    (hbody : ReadsAll (clientBody first) body p) : Reads clientPacket bytes p := by
  intro rest
  rw [clientPacket, StateT.run_bind, h]
  simp only [Option.bind_eq_bind, Option.bind_some, hbody.whole_eq]
  rfl

/-- Nothing is no packet. -/
theorem ne_nil_of_reads {bytes : List UInt8} {p : ClientPacket} (h : Reads clientPacket bytes p) : bytes ≠ [] := by
  rintro rfl
  cases h []

/-- Packets that are written so that each is read are read from the stream that they make up. -/
theorem clientPackets_flatMap {γ : Type} {enc : γ → List UInt8} {meaning : γ → ClientPacket} {cs : List γ}
    (h : ∀ c ∈ cs, Reads clientPacket (enc c) (meaning c)) : clientPackets (cs.flatMap enc) = some (cs.map meaning) :=
  (readsAll_untilEnd cs h fun c hc => ne_nil_of_reads (h c hc)).whole_eq

end Mqtt
