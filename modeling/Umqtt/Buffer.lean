import Umqtt.Const
import Umqtt.Lib.Cells
import Mathlib.Data.Stream.Init

/-!
# Memory: the allocator and the `BUFFER` of c-utility

`BUFFER` belongs to c-utility, which is not part of the repository. The sources rely on this of it: a buffer is a block of
memory that is new and empty, is built once with a given size, is enlarged at its end and prepended to, keeps the bytes it
holds, and whose fresh bytes hold nothing the code has written; each call that takes memory may fail, and then leaves the buffer
as it was. `BUFFER_enlarge` by 0 fails, and `BUFFER_u_char` gives NULL for a buffer of size 0.

Which calls fail is not the code's choice: it is read, one answer a call, from a `Heap`. Every encoder gives up at the first
failure and returns NULL, deleting what it has built; `Alloc` is that discipline.
-/

namespace Umqtt

open Cells

/-- The answers the allocator will give, one a call: whether the call gets its memory. -/
abbrev Heap : Type := Stream' Bool

/-- The allocator that never fails. -/
def okHeap : Heap := Stream'.const true

/-- A computation that takes memory and returns NULL at the first failure: run against the allocator, its result, NULL or not,
and the answers that are left. -/
def Alloc (α : Type) : Type := Heap → Option α × Heap

namespace Alloc

/-- Run a computation against the allocator. -/
def answer {α : Type} (m : Alloc α) (h : Heap) : Option α × Heap := m h

instance : Monad Alloc where
  pure a := fun h => (some a, h)
  bind m f := fun h =>
    match m h with
    | (none, h') => (none, h')
    | (some a, h') => f a h'

end Alloc

/-- One request for memory. -/
def takeMemory : Alloc Unit := fun h => (if h.head then some () else none, h.tail)

/-- Give up: the function returns NULL. -/
def giveUp {α : Type} : Alloc α := fun h => (none, h)

/-- `BUFFER`: the bytes behind the handle, `none` a byte that nothing has written. -/
structure Buffer where
  cells : List (Option UInt8)
  deriving DecidableEq, Repr

/-- `BUFFER_new`. -/
def bufferNew : Alloc Buffer := do
  takeMemory
  return ⟨[]⟩

/-- `BUFFER_pre_build`, on a new buffer. -/
def bufferPreBuild (_handle : Buffer) (size : Nat) : Alloc Buffer := do
  takeMemory
  return ⟨List.replicate size none⟩

/-- `BUFFER_enlarge`. -/
def bufferEnlarge (handle : Buffer) (enlargeSize : Nat) : Alloc Buffer :=
  if enlargeSize = 0 then giveUp
  else do
    takeMemory
    return ⟨handle.cells ++ List.replicate enlargeSize none⟩

/-- `BUFFER_prepend`. -/
def bufferPrepend (handle1 handle2 : Buffer) : Alloc Buffer := do
  takeMemory
  return ⟨handle2.cells ++ handle1.cells⟩

/-- `BUFFER_length`. -/
def bufferLength (handle : Buffer) : Nat := handle.cells.length

/-- The start of the memory behind a handle, as an iterator. -/
def Buffer.start (handle : Buffer) : Cursor UInt8 := ⟨handle.cells, 0⟩

/-- `BUFFER_u_char`: NULL for a buffer of size 0. -/
def bufferUChar (handle : Buffer) : Option (Cursor UInt8) :=
  if handle.cells = [] then none else some handle.start

/-- The bytes of a buffer as the receiving code reads them. A byte that nothing has written is indeterminate; it reads as 0. -/
def Buffer.bytes (handle : Buffer) : List UInt8 := handle.cells.map (fun c => c.getD 0)

/-- A buffer of which every byte has been written. -/
def Buffer.ofBytes (bs : List UInt8) : Buffer := ⟨bs.map some⟩

@[simp] theorem bytes_ofBytes (bs : List UInt8) : (Buffer.ofBytes bs).bytes = bs := by
  simp [Buffer.bytes, Buffer.ofBytes, Function.comp_def]

@[simp] theorem bufferLength_ofBytes (bs : List UInt8) : bufferLength (Buffer.ofBytes bs) = bs.length := by
  simp [bufferLength, Buffer.ofBytes]

/-! ## What a computation gives, whatever the allocator answers -/

namespace Alloc

@[simp] theorem answer_pure {α : Type} (a : α) (h : Heap) : (pure a : Alloc α).answer h = (some a, h) := rfl

@[simp] theorem answer_giveUp {α : Type} (h : Heap) : (giveUp : Alloc α).answer h = (none, h) := rfl

/-- A sequence: the second part runs on the answers the first leaves, unless the first returned NULL. -/
theorem answer_bind {α β : Type} (m : Alloc α) (f : α → Alloc β) (h : Heap) :
    (m >>= f).answer h = match m.answer h with
      | (none, h') => (none, h')
      | (some a, h') => (f a).answer h' := rfl

instance : LawfulMonad Alloc :=
  LawfulMonad.mk' Alloc
    (fun m => funext fun h => by
      change (match m h with | (none, h') => (none, h') | (some a, h') => (some a, h')) = m h
      rcases m h with ⟨_ | a, h'⟩ <;> rfl)
    (fun _ _ => rfl)
    (fun m f g => funext fun h => by
      change _ = match m h with | (none, h') => (none, h') | (some a, h') => (f a >>= g) h'
      change (match (match m h with | (none, h') => (none, h') | (some a, h') => f a h') with
        | (none, h') => (none, h') | (some b, h') => g b h') = _
      rcases m h with ⟨_ | a, h'⟩ <;> rfl)

/-- A request for memory: the rest runs if it is met. -/
theorem answer_takeMemory_bind {β : Type} (f : Unit → Alloc β) (h : Heap) :
    (takeMemory >>= f).answer h = if h.head then (f ()).answer h.tail else (none, h.tail) := by
  rw [answer_bind]
  rcases hh : h.head <;> simp [answer, takeMemory, hh]

/-- Whatever the allocator answers, a result that is not NULL satisfies `P`. -/
def Ensures {α : Type} (m : Alloc α) (P : α → Prop) : Prop := ∀ h a h', m.answer h = (some a, h') → P a

/-- The computation returns this result, if the allocator gives the right answers. -/
def Produces {α : Type} (m : Alloc α) (a : α) : Prop := ∃ h, (m.answer h).1 = some a

theorem Ensures.of_produces {α : Type} {m : Alloc α} {P : α → Prop} {a : α} (hm : m.Ensures P) (ha : m.Produces a) : P a := by
  obtain ⟨h, ha⟩ := ha
  exact hm h a (m.answer h).2 (by rw [← ha])

theorem ensures_pure {α : Type} {P : α → Prop} {a : α} (h : P a) : (pure a : Alloc α).Ensures P := by
  intro heap b heap' hb
  rw [answer_pure, Prod.mk.injEq, Option.some.injEq] at hb
  exact hb.1 ▸ h

theorem ensures_giveUp {α : Type} {P : α → Prop} : (giveUp : Alloc α).Ensures P := by
  intro heap b heap' hb
  exact absurd hb (by simp)

theorem Ensures.mono {α : Type} {m : Alloc α} {P Q : α → Prop} (hm : m.Ensures P) (h : ∀ a, P a → Q a) : m.Ensures Q :=
  fun heap a heap' hr => h a (hm heap a heap' hr)

/-- In a sequence, the second part may rely on what the first ensures. -/
theorem Ensures.bind {α β : Type} {m : Alloc α} {f : α → Alloc β} {Q : α → Prop} {P : β → Prop} (hm : m.Ensures Q)
    (hf : ∀ a, Q a → (f a).Ensures P) : (m >>= f).Ensures P := by
  intro heap b heap' hb
  rw [answer_bind] at hb
  rcases ha : m.answer heap with ⟨_ | a, heap₁⟩
  · rw [ha] at hb
    exact absurd hb (by simp)
  · rw [ha] at hb
    exact hf a (hm _ _ _ ha) _ _ _ hb

/-- A sequence ensures what its second part ensures in any case. -/
theorem ensures_bind {α β : Type} {m : Alloc α} {f : α → Alloc β} {P : β → Prop} (hf : ∀ a, (f a).Ensures P) :
    (m >>= f).Ensures P :=
  Ensures.bind (Q := fun _ => True) (fun _ _ _ _ => trivial) (fun a _ => hf a)

end Alloc

theorem ensures_bufferNew : bufferNew.Ensures (· = ⟨[]⟩) := Alloc.ensures_bind fun _ => Alloc.ensures_pure rfl

theorem ensures_bufferPreBuild (b : Buffer) (n : Nat) : (bufferPreBuild b n).Ensures (· = ⟨List.replicate n none⟩) :=
  Alloc.ensures_bind fun _ => Alloc.ensures_pure rfl

theorem bufferEnlarge_pos (b : Buffer) {n : Nat} (h : 0 < n) :
    bufferEnlarge b n = takeMemory >>= fun _ => pure ⟨b.cells ++ List.replicate n none⟩ := if_neg (Nat.ne_of_gt h)

theorem ensures_bufferEnlarge (b : Buffer) (n : Nat) : (bufferEnlarge b n).Ensures (· = ⟨b.cells ++ List.replicate n none⟩) := by
  unfold bufferEnlarge
  split
  · exact Alloc.ensures_giveUp
  · exact Alloc.ensures_bind fun _ => Alloc.ensures_pure rfl

theorem ensures_bufferPrepend (b b' : Buffer) : (bufferPrepend b b').Ensures (· = ⟨b'.cells ++ b.cells⟩) :=
  Alloc.ensures_bind fun _ => Alloc.ensures_pure rfl

/-! ## The allocator that never fails -/

@[simp] theorem okHeap_head : okHeap.head = true := rfl

@[simp] theorem okHeap_tail : okHeap.tail = okHeap := Stream'.tail_const true

namespace Alloc

/-- A computation gives a value when the allocator never fails. -/
def Gives {α : Type} (m : Alloc α) (a : α) : Prop := m.answer okHeap = (some a, okHeap)

theorem gives_pure {α : Type} (a : α) : (pure a : Alloc α).Gives a := rfl

theorem gives_takeMemory : takeMemory.Gives () := by
  simp [Gives, answer, takeMemory]

theorem Gives.bind {α β : Type} {m : Alloc α} {f : α → Alloc β} {a : α} {b : β} (hm : m.Gives a) (hf : (f a).Gives b) :
    (m >>= f).Gives b := by
  rw [Gives, answer_bind, hm]
  exact hf

/-- After a request for memory that is met, the rest decides. -/
theorem Gives.afterMemory {β : Type} {f : Unit → Alloc β} {b : β} (hf : (f ()).Gives b) : (takeMemory >>= f).Gives b :=
  gives_takeMemory.bind hf

end Alloc

theorem gives_bufferNew : bufferNew.Gives ⟨[]⟩ := Alloc.Gives.afterMemory rfl

theorem gives_bufferPreBuild (b : Buffer) (n : Nat) : (bufferPreBuild b n).Gives ⟨List.replicate n none⟩ :=
  Alloc.Gives.afterMemory rfl

theorem gives_bufferPrepend (b b' : Buffer) : (bufferPrepend b b').Gives ⟨b'.cells ++ b.cells⟩ :=
  Alloc.Gives.afterMemory rfl

end Umqtt
