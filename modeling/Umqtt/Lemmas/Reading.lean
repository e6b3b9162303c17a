import Umqtt.Lib.Mqtt
import Umqtt.Lemmas.Memory
import Umqtt.Theorems.Encoding

/-!
# What a reader of MQTT makes of the bytes that are written

Each part of a packet is read as what it was written for: numbers, strings, remaining lengths, and the whole packet when its body is.
-/

namespace Umqtt

open Cells Groups Alloc Reader

/-- A number is read as it was written. -/
theorem reads_uint16Bytes (value : UInt16) : Reads Mqtt.uint16 (uint16Bytes value) value := by
  intro rest
  have hvalue : (value / 256).toUInt8.toUInt16 * 256 + (value % 256).toUInt8.toUInt16 = value := by
    apply UInt16.toNat_inj.mp
    have hlt := value.toNat_lt
    simp only [UInt16.toNat_add, UInt16.toNat_mul, UInt8.toNat_toUInt16, UInt16.toNat_toUInt8, UInt16.toNat_div, UInt16.toNat_mod,
      UInt16.reduceToNat]
    omega
  exact congrArg (fun v => some (v, rest)) hvalue

/-- A string is read as it was written, when its length fits. -/
theorem reads_utfField {bytes : List UInt8} (h : bytes.length ≤ ushrtMax) : Reads Mqtt.string (utfField bytes) bytes := by
  refine (reads_uint16Bytes _).bind ?_
  rw [toNat_ofNat_le_ushrtMax h]
  exact reads_take bytes

/-- A remaining length is read as it was written, when its bytes are allowed. -/
theorem reads_lenField {rounds n : Nat} (h : n < 128 ^ rounds) (hr : 0 < rounds) : Reads (Mqtt.remainingLength rounds) (lenField n) n := by
  induction rounds generalizing n with
  | zero => exact absurd hr (Nat.lt_irrefl 0)
  | succ rounds ih =>
    intro rest
    have hmask : ∀ d : UInt8, d &&& 0x80 = 0 ↔ d.toNat < 128 := by
      intro d
      have := and_chunk_ne_zero d
      rw [next128Chunk] at this
      rw [← Nat.not_le, ← this, not_not]
    by_cases hn : n < 128
    · have hd : UInt8.ofNat n &&& 0x80 = 0 := by
        rw [hmask, UInt8.toNat_ofNat', Nat.mod_eq_of_lt (by omega)]
        exact hn
      rw [lenField_lt hn]
      change (if UInt8.ofNat n &&& 0x80 = 0 then pure (UInt8.ofNat n).toNat else _ : Reader UInt8 Nat).run rest = _
      rw [if_pos hd, UInt8.toNat_ofNat', Nat.mod_eq_of_lt (by omega)]
      rfl
    · have hlast : n / 128 < 128 ^ rounds := by
        rw [Nat.div_lt_iff_lt_mul (by decide), ← Nat.pow_succ]
        exact h
      have hrounds : 0 < rounds := by
        rcases Nat.eq_zero_or_pos rounds with rfl | hpos
        · rw [Nat.zero_add, Nat.pow_one] at h
          exact absurd h hn
        · exact hpos
      have hdigit : (UInt8.ofNat (n % 128 + 128)).toNat = n % 128 + 128 := by
        rw [UInt8.toNat_ofNat']
        omega
      have hd : ¬UInt8.ofNat (n % 128 + 128) &&& 0x80 = 0 := by
        rw [hmask, hdigit]
        omega
      have hlow : (UInt8.ofNat (n % 128 + 128) &&& 0x7F).toNat = n % 128 := by
        rw [and_127_toNat, hdigit]
        omega
      have hcons : lenField n = UInt8.ofNat (n % 128 + 128) :: lenField (n / 128) := by
        rw [lenField, encode_ge (by decide) (by omega)]
        rfl
      rw [hcons]
      change (if UInt8.ofNat (n % 128 + 128) &&& 0x80 = 0 then _
        else do return (UInt8.ofNat (n % 128 + 128) &&& 0x7F).toNat + 128 * (← Mqtt.remainingLength rounds) : Reader UInt8 Nat).run
          (lenField (n / 128) ++ rest) = _
      rw [if_neg hd, StateT.run_bind, ih hlast hrounds rest, hlow]
      exact congrArg (fun v => some (v, rest)) (Nat.mod_add_div n 128)

/-- A packet is read as it was written, up to a remaining length of four bytes. -/
theorem reads_packet {body : List UInt8} (hlen : body.length < 268435456) (first : UInt8) :
    Reads Mqtt.packet (first :: (lenField body.length ++ body)) (first, body) := by
  have hrest : Reads (take body.length >>= fun bytes => pure (first, bytes)) (body ++ []) (first, body) :=
    (reads_take body).bind (reads_pure _)
  rw [List.append_nil] at hrest
  exact (reads_next first).bind ((reads_lenField hlen (by decide)).bind hrest)

/-- A packet whose body is read is read. -/
theorem decode_of_readsAll {β : Type} {r : Reader UInt8 β} {body : List UInt8} {b : β} (hbody : ReadsAll r body b)
    (hlen : body.length < 268435456) (first : UInt8) : Mqtt.decode first r (first :: (lenField body.length ++ body)) = some b := by
  rw [Mqtt.decode, (reads_packet hlen first).readsAll.whole_eq]
  exact (if_pos rfl).trans hbody.whole_eq

/-- An encoder whose arguments are out of order returns NULL; otherwise, with its requests met, it returns a packet that is read as its
body is. -/
theorem Request.decodes {β : Type} (r : Request) {rejected : Prop} {n : Nat} {reader : Reader UInt8 β} {b : β} {heap : Heap}
    {first : UInt8} (hfirst : r.type.toByte ||| r.flags = first) (hfilled : r.Filled) (hheap : Meets heap n)
    (hnever : rejected → r.packet.Never) (hneeds : ¬rejected → r.packet.Needs n) (hread : ¬rejected → ReadsAll reader r.body b)
    (hlen : ¬rejected → r.body.length < 268435456) :
    ((r.packet.answer heap).1 = none ↔ rejected) ∧ ∀ packet, (r.packet.answer heap).1 = some packet →
      ∃ bytes, packet = Buffer.ofBytes bytes ∧ Mqtt.decode first reader bytes = some b := by
  by_cases hrejected : rejected
  · rw [hnever hrejected heap]
    exact ⟨iff_of_true rfl hrejected, fun packet hp => absurd hp (by simp)⟩
  · obtain ⟨packet, hpacket⟩ := (hneeds hrejected).met heap hheap
    have hbytes := (EncoderCall.request r).ensures_packet hfilled _ _ _ hpacket
    simp only [EncoderCall.body, remainSize_eq (Nat.lt_trans (hlen hrejected) (by decide))] at hbytes
    rw [EncoderCall.first, EncoderCall.type, EncoderCall.flags, hfirst] at hbytes
    rw [hpacket]
    refine ⟨iff_of_false (by simp) hrejected, fun packet' hp => ⟨_, ?_, decode_of_readsAll (hread hrejected) (hlen hrejected) first⟩⟩
    exact (Option.some.inj hp).symm.trans hbytes

end Umqtt
