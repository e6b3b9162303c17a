import Umqtt.Frame
import Umqtt.Lib.Scan

/-!
# Packets read off a stream

What the decoder is for, for any stream: a packet is read off the front of what has arrived, as a whole or not at all (`readPacket`).
Here a stream is not expected to be made up of packets. It may end inside one, and it may hold bytes that no packet starts with, a
length of more than three bytes, or a body that there is no memory for. The lengths that are read need not be the shortest.
-/

namespace Umqtt

open Scan

/-- What is read at the front as a remaining length. -/
inductive LenReading where
  | more
  | tooLong
  | length (n : Nat) (rest : List UInt8)
  deriving DecidableEq

/-- Read a remaining length of at most `room` bytes: seven bits a byte, the low ones first, and a mark on every byte but the last. -/
def readLength : Nat → List UInt8 → LenReading
  | _, [] => .more
  | 0, _ :: _ => .tooLong
  | room + 1, b :: bytes =>
    if b.toNat < 128 then .length b.toNat bytes
    else
      match readLength room bytes with
      | .length n rest => .length (b.toNat % 128 + 128 * n) rest
      | other => other

/-- Whether there is memory for a body, which takes two requests, and the answers that are left. -/
def bodyMemory (heap : Heap) : Bool × Heap := if heap.head then (heap.tail.head, heap.tail.tail) else (false, heap.tail)

/-- Read a body of `n` bytes. Its memory is asked for before any of it is read. -/
def readBody (first : UInt8) (n : Nat) (heap : Heap) (bytes : List UInt8) : Reading Heap UInt8 Packet :=
  if (bodyMemory heap).1 then
    if bytes.length < n then .more (bodyMemory heap).2
    else .item ⟨first, bytes.take n⟩ (bytes.drop n) (bodyMemory heap).2
  else .refused (bodyMemory heap).2

/-- Read the rest of a PINGRESP: a length of 0, in one byte. Memory is asked for, for another length of one byte, before it is refused. -/
def readPingresp (first : UInt8) (heap : Heap) : List UInt8 → Reading Heap UInt8 Packet
  | [] => .more heap
  | b :: bytes =>
    if b = 0 then .item ⟨first, []⟩ bytes heap
    else .refused (if b.toNat < 128 then (bodyMemory heap).2 else heap)

/-- Read the rest of any other packet. A length of 0 is not refused before two more bytes have arrived. -/
def readRest (first : UInt8) (heap : Heap) (bytes : List UInt8) : Reading Heap UInt8 Packet :=
  match readLength 3 bytes with
  | .more => .more heap
  | .tooLong => .refused heap
  | .length 0 rest => if rest.length < 2 then .more heap else .refused heap
  | .length (n + 1) rest => readBody first (n + 1) heap rest

/-- Read a packet. -/
def readPacket (heap : Heap) : List UInt8 → Reading Heap UInt8 Packet
  | [] => .more heap
  | first :: bytes =>
    if firstByteAccepted (packetTypeByte first) (flagValueByte first) then
      if packetTypeByte first = .pingrespType then readPingresp first heap bytes else readRest first heap bytes
    else .refused heap

/-! ## Lengths -/

/-- Every byte carries the mark. -/
def Marked (es : List UInt8) : Prop := ∀ e ∈ es, 128 ≤ e.toNat

/-- The bytes of a remaining length of at most three bytes: all but the last carry the mark. -/
structure LenBytes (bytes : List UInt8) (n : Nat) : Prop where
  length_le : bytes.length ≤ 3
  shape : ∃ es d, bytes = es ++ [d] ∧ Marked es ∧ d.toNat < 128
  value_eq : Groups.value 128 (bytes.map UInt8.toNat) = n

/-- What a remaining length is read as: only marked bytes have arrived, or one too many of them, or the length is there. -/
inductive ReadsLength (room : Nat) : List UInt8 → LenReading → Prop
  | more {bytes : List UInt8} : Marked bytes → bytes.length ≤ room → ReadsLength room bytes .more
  | tooLong {es : List UInt8} (b : UInt8) (rest : List UInt8) : Marked es → es.length = room →
      ReadsLength room (es ++ b :: rest) .tooLong
  | length {es : List UInt8} {d : UInt8} (rest : List UInt8) : Marked es → d.toNat < 128 → es.length < room →
      ReadsLength room (es ++ d :: rest) (.length (Groups.value 128 ((es ++ [d]).map UInt8.toNat)) rest)

theorem marked_nil : Marked [] := fun _ he => absurd he List.not_mem_nil

theorem Marked.cons {e : UInt8} {es : List UInt8} (h : Marked es) (he : 128 ≤ e.toNat) : Marked (e :: es) := by
  intro x hx
  rcases List.mem_cons.mp hx with rfl | hx
  · exact he
  · exact h x hx

theorem readLength_spec (room : Nat) (bytes : List UInt8) : ReadsLength room bytes (readLength room bytes) := by
  induction bytes generalizing room with
  | nil => cases room <;> exact .more marked_nil (Nat.zero_le _)
  | cons b bytes ih =>
    cases room with
    | zero => exact @ReadsLength.tooLong _ [] b bytes marked_nil rfl
    | succ room =>
      rw [readLength]
      by_cases hb : b.toNat < 128
      · rw [if_pos hb]
        have hlast := @ReadsLength.length (room + 1) [] _ bytes marked_nil hb (Nat.succ_pos room)
        simpa [Groups.value_cons, Nat.mod_eq_of_lt hb] using hlast
      · have hmark : 128 ≤ b.toNat := Nat.le_of_not_lt hb
        have hrest := ih room
        rw [if_neg hb]
        generalize readLength room bytes = reading at hrest
        cases hrest with
        | more hes hlen => exact .more (hes.cons hmark) (Nat.succ_le_succ hlen)
        | tooLong b' rest hes hlen => exact @ReadsLength.tooLong _ (b :: _) b' rest (hes.cons hmark) (congrArg Nat.succ hlen)
        | length rest hes hd hlen => exact @ReadsLength.length _ (b :: _) _ rest (hes.cons hmark) hd (Nat.succ_lt_succ hlen)

/-- A length that is there is read, whatever follows it. -/
theorem readLength_append {es : List UInt8} (hes : Marked es) {d : UInt8} (hd : d.toNat < 128) {room : Nat} (hlen : es.length < room)
    (rest : List UInt8) :
    readLength room (es ++ d :: rest) = .length (Groups.value 128 ((es ++ [d]).map UInt8.toNat)) rest := by
  induction es generalizing room with
  | nil =>
    obtain ⟨room, rfl⟩ : ∃ k, room = k + 1 := ⟨room - 1, by omega⟩
    simp [readLength, hd, Groups.value_cons, Nat.mod_eq_of_lt hd]
  | cons e es ih =>
    obtain ⟨room, rfl⟩ : ∃ k, room = k + 1 := ⟨room - 1, by omega⟩
    have he : ¬e.toNat < 128 := Nat.not_lt.mpr (hes e List.mem_cons_self)
    have hrest := ih (fun x hx => hes x (List.mem_cons_of_mem _ hx)) (Nat.lt_of_succ_lt_succ hlen)
    rw [List.cons_append, readLength, if_neg he, hrest]
    rfl

/-- With room for three bytes, a length is read exactly when its bytes come first. -/
theorem readLength_iff (bytes : List UInt8) (n : Nat) (rest : List UInt8) :
    readLength 3 bytes = .length n rest ↔ ∃ len, LenBytes len n ∧ bytes = len ++ rest := by
  constructor
  · intro h
    have hspec := readLength_spec 3 bytes
    rw [h] at hspec
    cases hspec with
    | @length es d rest hes hd hlen =>
      refine ⟨es ++ [d], ⟨?_, ⟨es, d, rfl, hes, hd⟩, rfl⟩, by simp⟩
      rw [List.length_append, List.length_singleton]
      exact hlen
  · rintro ⟨len, ⟨hle, ⟨es, d, rfl, hes, hd⟩, hvalue⟩, rfl⟩
    rw [List.length_append, List.length_singleton] at hle
    rw [List.append_assoc, List.singleton_append, readLength_append hes hd hle, hvalue]

/-- What follows a length is a part of what has been read. -/
theorem length_rest_lt {room n : Nat} {bytes rest : List UInt8} (h : readLength room bytes = .length n rest) :
    rest.length < bytes.length := by
  have hspec := readLength_spec room bytes
  rw [h] at hspec
  cases hspec with
  | length rest hes hd hlen =>
    rw [List.length_append, List.length_cons]
    omega

/-! ## Packets -/

theorem shorter_readBody {first : UInt8} {n : Nat} {heap left : Heap} {bytes rest : List UInt8} {p : Packet}
    (h : readBody first n heap bytes = .item p rest left) : rest.length ≤ bytes.length := by
  unfold readBody at h
  split at h
  · split at h
    · cases h
    · obtain ⟨-, rfl, -⟩ := Reading.item.inj h
      rw [List.length_drop]
      exact Nat.sub_le _ _
  · cases h

theorem shorter_readPacket {heap left : Heap} {bytes rest : List UInt8} {p : Packet}
    (h : readPacket heap bytes = .item p rest left) : rest.length < bytes.length := by
  rcases bytes with _ | ⟨first, bytes⟩
  · cases h
  · have hlt : rest.length ≤ bytes.length := by
      rw [readPacket] at h
      split at h
      · split at h
        · rcases bytes with _ | ⟨b, bytes⟩
          · cases h
          · rw [readPingresp] at h
            split at h
            · obtain ⟨-, rfl, -⟩ := Reading.item.inj h
              exact Nat.le_succ _
            · cases h
        · rw [readRest] at h
          split at h
          · cases h
          · cases h
          · split at h <;> cases h
          · rename_i n rest' hlen
            exact (shorter_readBody h).trans (length_rest_lt hlen).le
      · cases h
    exact Nat.lt_succ_of_le hlt

/-- The reader of packets; its resource is the answers of the allocator. -/
def packets : Reader Heap UInt8 Packet where
  read := readPacket
  read_nil _ := rfl
  shorter := shorter_readPacket

end Umqtt
