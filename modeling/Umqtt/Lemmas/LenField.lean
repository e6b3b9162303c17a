import Umqtt.Decode
import Umqtt.Lib.Groups
import Mathlib.Data.UInt
import Mathlib.Data.Fintype.Basic
import Mathlib.Data.FinEnum

/-!
# The remaining length of a packet

`constructFixedHeader` writes it and `prepareheaderDataInfo` reads it. Both are the continued form of `Groups` in base 128, one
byte a digit: the writer's bytes are `lenField`, and the reader's loop over stored bytes computes their `value`, within its limit
of three digits.
-/

namespace Umqtt

open Groups

/-! ## Bytes as digits -/

theorem and_127_toNat : ∀ b : UInt8, (b &&& 127).toNat = b.toNat % 128 := by decide +kernel

theorem and_chunk_ne_zero : ∀ b : UInt8, b &&& next128Chunk ≠ 0 ↔ 128 ≤ b.toNat := by decide +kernel

theorem le_0x7f_iff : ∀ b : UInt8, b ≤ 0x7f ↔ b.toNat < 128 := by decide +kernel

/-- The bytes of a remaining length: the shortest continued form in base 128. -/
def lenField (n : Nat) : List UInt8 := (encode 128 n).map UInt8.ofNat

/-- The bytes are the digits: none is 256 or more. -/
theorem map_toNat_lenField (n : Nat) : (lenField n).map UInt8.toNat = encode 128 n := by
  obtain ⟨ds, d, e, hds, hd⟩ := encode_shape (b := 128) (by decide) n
  have hid : ∀ x ∈ ds ++ [d], (UInt8.toNat ∘ UInt8.ofNat) x = id x := by
    intro x hx
    have hx' : x < 256 := by
      rcases List.mem_append.mp hx with h | h
      · have := (hds x h).2
        omega
      · rw [List.mem_singleton.mp h]
        omega
    simp only [Function.comp_apply, UInt8.toNat_ofNat', id_eq]
    omega
  rw [lenField, e, List.map_map, List.map_congr_left hid, List.map_id]

/-- A remaining length is bytes that carry the mark and a last one that does not. -/
theorem lenField_shape (n : Nat) :
    ∃ es d, lenField n = es ++ [d] ∧ (∀ e ∈ es, 128 ≤ e.toNat) ∧ d.toNat < 128 ∧
      value 128 ((es ++ [d]).map UInt8.toNat) = n := by
  obtain ⟨ds, d, e, hds, hd⟩ := encode_shape (b := 128) (by decide) n
  refine ⟨ds.map UInt8.ofNat, UInt8.ofNat d, by rw [lenField, e]; simp, ?_, ?_, ?_⟩
  · intro x hx
    obtain ⟨y, hy, rfl⟩ := List.mem_map.mp hx
    obtain ⟨h1, h2⟩ := hds y hy
    rw [UInt8.toNat_ofNat']
    omega
  · rw [UInt8.toNat_ofNat']
    omega
  · have : ds.map UInt8.ofNat ++ [UInt8.ofNat d] = lenField n := by rw [lenField, e]; simp
    rw [this, map_toNat_lenField, value_encode (by decide)]

theorem length_lenField (n : Nat) : (lenField n).length = (encode 128 n).length := by
  rw [lenField, List.length_map]

/-- A remaining length takes at most `k` bytes exactly when it is below `128 ^ k`. -/
theorem length_lenField_le_iff {k n : Nat} (hk : 0 < k) : (lenField n).length ≤ k ↔ n < 128 ^ k := by
  rw [length_lenField, length_encode_le_iff (by decide) hk]

/-- A remaining length below 128 takes one byte. -/
theorem lenField_lt {n : Nat} (h : n < 128) : lenField n = [UInt8.ofNat n] := by
  rw [lenField, encode_lt h]
  rfl

@[simp] theorem lenField_zero : lenField 0 = [0] := lenField_lt (by decide)

/-! ## The writer -/

theorem or_chunk : ∀ m : Fin 128, UInt8.ofNat m.val ||| next128Chunk = UInt8.ofNat (m.val + 128) := by decide +kernel

/-- With rounds to spare, the loop of `constructFixedHeader` writes the shortest continued form. -/
theorem remainSizeLoop_eq (rounds n : Nat) (h : n < 128 ^ rounds) (hr : 0 < rounds) :
    remainSizeLoop rounds n = lenField n := by
  induction rounds generalizing n with
  | zero => omega
  | succ rounds ih =>
    by_cases hn : n < 128
    · have h0 : n / 128 = 0 := Nat.div_eq_of_lt hn
      simp only [remainSizeLoop, h0, Nat.lt_irrefl, if_false, Nat.mod_eq_of_lt hn, lenField, encode_lt hn, List.map_cons,
        List.map_nil, gt_iff_lt]
    · have hd : n / 128 < 128 ^ rounds := by
        rw [Nat.div_lt_iff_lt_mul (by decide), ← Nat.pow_succ]
        exact h
      have hr' : 0 < rounds := by
        rcases Nat.eq_zero_or_pos rounds with rfl | hr'
        · rw [Nat.zero_add, Nat.pow_one] at h
          exact absurd h hn
        · exact hr'
      have h0 : n / 128 > 0 := by omega
      have hm := or_chunk ⟨n % 128, Nat.mod_lt _ (by decide)⟩
      simp only at hm
      have he : encode 128 n = (n % 128 + 128) :: encode 128 (n / 128) := encode_ge (by decide) (by omega)
      simp only [remainSizeLoop, if_pos h0, hm, ih _ hd hr', lenField, he, List.map_cons]

/-- The bytes `constructFixedHeader` writes for a packet whose length is a `size_t`. -/
theorem remainSize_eq {n : Nat} (h : n < 2 ^ 64) : remainSize n = lenField n :=
  remainSizeLoop_eq 10 n (Nat.lt_trans h (by decide)) (by decide)

/-! ## The reader's loop -/

/-- The loop comes to its end in the fourth round: rounds beyond that change nothing. -/
theorem lenLoop_more (v : Vector UInt8 4) (rounds more index totalLen : Nat) (hi : index < 4) (hr : 4 ≤ index + rounds) :
    lenLoop v (rounds + more) index totalLen (128 ^ index) = lenLoop v rounds index totalLen (128 ^ index) := by
  induction rounds generalizing index totalLen with
  | zero => omega
  | succ rounds ih =>
    have hmul : 128 ^ index * next128Chunk.toNat = 128 ^ (index + 1) := rfl
    rw [Nat.add_right_comm]
    simp only [lenLoop, hmul]
    by_cases hbig : 128 ^ (index + 1) > max3DigitPacketSize
    · simp only [if_pos hbig]
    · -- a multiplier that is not past the limit has an index below 3
      have hi' : index + 1 < 4 := by
        by_contra hge
        exact hbig (Nat.lt_of_lt_of_le (by decide : max3DigitPacketSize < 128 ^ 4) (Nat.pow_le_pow_right (by decide) (by omega)))
      simp only [if_neg hbig, ih (index + 1) _ hi' (by omega)]

/-- The rounds of the loop over bytes that carry the mark and a last one that does not: the last round has read the last byte and
summed up the value. -/
theorem getLast_lenLoop (v : Vector UInt8 4) (es : List UInt8) (d : UInt8) (rounds index totalLen : Nat)
    (hes : ∀ e ∈ es, 128 ≤ e.toNat) (hd : d.toNat < 128)
    (hv : ∀ i (h : i < (es ++ [d]).length), v[index + i]?.getD 0 = (es ++ [d])[i])
    (hlen : index + es.length ≤ 3) (hr : es.length < rounds) :
    (lenLoop v rounds index totalLen (128 ^ index)).getLast? =
      some ⟨index + es.length, d, totalLen + 128 ^ index * value 128 ((es ++ [d]).map UInt8.toNat),
        128 ^ (index + es.length + 1)⟩ := by
  have hmul : ∀ k, 128 ^ k * next128Chunk.toNat = 128 ^ (k + 1) := fun k => rfl
  induction es generalizing rounds index totalLen with
  | nil =>
    obtain ⟨rounds, rfl⟩ : ∃ r, rounds = r + 1 := ⟨rounds - 1, by simp at hr; omega⟩
    have h0 : v[index]?.getD 0 = d := hv 0 (by simp)
    have hd' : ¬(d &&& next128Chunk ≠ 0) := by
      rw [and_chunk_ne_zero]
      omega
    have hval : (d &&& 127).toNat = d.toNat := by
      rw [and_127_toNat, Nat.mod_eq_of_lt hd]
    simp only [lenLoop, h0, hmul, hval, if_neg hd', ite_self, List.getLast?_singleton, List.length_nil, Nat.add_zero,
      List.nil_append, List.map_cons, List.map_nil, value_cons, value_nil, Nat.mod_eq_of_lt hd, Nat.mul_comm, Nat.zero_mul]
  | cons e es ih =>
    obtain ⟨rounds, rfl⟩ : ∃ r, rounds = r + 1 := ⟨rounds - 1, by simp at hr; omega⟩
    have h0 : v[index]?.getD 0 = e := hv 0 (by simp)
    have he : e &&& next128Chunk ≠ 0 := by
      rw [and_chunk_ne_zero]
      exact hes e List.mem_cons_self
    have hlen' : index + 1 + es.length ≤ 3 := by
      rw [List.length_cons] at hlen
      omega
    have hsmall : ¬(128 ^ (index + 1) > max3DigitPacketSize) := by
      have : 128 ^ (index + 1) ≤ 128 ^ 3 := Nat.pow_le_pow_right (by decide) (by omega)
      exact Nat.not_lt.mpr this
    have htail : ∀ i (_ : i < (es ++ [d]).length), v[index + 1 + i]?.getD 0 = (es ++ [d])[i] := by
      intro i hi
      have := hv (i + 1) (by simpa using hi)
      simpa [Nat.add_assoc, Nat.add_comm 1 i] using this
    have hrest := ih rounds (index + 1) (totalLen + (e &&& 127).toNat * 128 ^ index)
      (fun x hx => hes x (List.mem_cons_of_mem _ hx)) htail hlen' (by simp at hr; omega)
    simp only [lenLoop, h0, hmul, if_neg hsmall, if_pos he]
    rw [List.getLast?_cons, hrest, Option.getD_some]
    simp only [List.length_cons, List.cons_append, List.map_cons, value_cons, and_127_toNat, Nat.pow_succ, Option.some.injEq,
      LenRound.mk.injEq, true_and]
    refine ⟨by omega, by ring, by rw [show index + 1 + es.length = index + (es.length + 1) by omega]⟩

/-! ## Stored length bytes -/

/-- `storeRemainLen` after the given bytes have been stored into it. -/
def storeOf (ds : List UInt8) : Vector UInt8 4 := Vector.ofFn (fun i => ds[i.val]?.getD 0)

@[simp] theorem storeOf_nil : storeOf [] = clearedRemainLen := by decide

theorem getD_storeOf (ds : List UInt8) {i : Nat} (hi : i < 4) : (storeOf ds)[i]?.getD 0 = ds[i]?.getD 0 := by
  simp [storeOf, hi]

/-- Storing one more byte. -/
theorem set_storeOf (ds : List UInt8) (b : UInt8) :
    (storeOf ds).setIfInBounds ds.length b = storeOf (ds ++ [b]) := by
  ext i hi
  rw [Vector.getElem_setIfInBounds hi]
  by_cases hib : ds.length = i
  · simp [storeOf, hib]
  · rw [if_neg hib]
    rcases Nat.lt_or_gt_of_ne hib with hlt | hgt
    · simp [storeOf, List.getElem?_eq_none (Nat.le_of_lt hlt), List.getElem?_eq_none (l := ds ++ [b]) (i := i) (by simp; omega)]
    · simp [storeOf, List.getElem?_append_left hgt]

/-- The remaining length read from stored bytes that carry the mark and a last one that does not: their value, within three
bytes; with a fourth byte the loop bails out, whatever the value. -/
theorem decodedLen_storeOf {es : List UInt8} {d : UInt8} (hes : ∀ e ∈ es, 128 ≤ e.toNat) (hd : d.toNat < 128)
    (hlen : es.length ≤ 3) :
    decodedLen (storeOf (es ++ [d])) = if es.length < 3 then some (value 128 ((es ++ [d]).map UInt8.toNat)) else none := by
  have hread : ∀ i (_ : i < (es ++ [d]).length), (storeOf (es ++ [d]))[0 + i]?.getD 0 = (es ++ [d])[i] := by
    intro i hi
    rw [Nat.zero_add, getD_storeOf _ (by simp at hi; omega), List.getElem?_eq_getElem hi, Option.getD_some]
  have hlast := getLast_lenLoop _ es d 4 0 0 hes hd hread (by omega) (by omega)
  have hvalue : value 128 ((es ++ [d]).map UInt8.toNat) < 128 ^ (es.length + 1) := by
    have := value_lt (b := 128) (by decide) ((es ++ [d]).map UInt8.toNat)
    simpa using this
  rw [Nat.pow_zero] at hlast
  simp only [decodedLen, lenRounds, hlast, Nat.zero_add, Nat.one_mul]
  by_cases h3 : es.length < 3
  · have h1 : 128 ^ (es.length + 1) ≤ 128 ^ 3 := Nat.pow_le_pow_right (by decide) (by omega)
    have h2 : (128 : Nat) ^ 3 = max3DigitPacketSize := rfl
    have h4 : max3DigitPacketSize ≤ maxSendSize := by decide
    rw [if_pos h3, if_neg (by omega)]
  · have h1 : es.length = 3 := by omega
    have h2 : (128 : Nat) ^ 4 > max3DigitPacketSize := by decide
    rw [if_neg h3, if_pos (Or.inl (by rw [h1]; exact h2))]

end Umqtt
