import Mathlib.Data.List.Basic

/-!
# Blocks of memory that are written piece by piece

A block is a list of cells, `none` a cell that no store has reached. A `Cursor` is a block with the place of the next store, as
an iterator that is moved past what it wrote. The rules say what a sequence of stores leaves: the cells before the cursor stay,
the next cells hold the values, the cells after them stay (`putAll_eq`). A cursor that runs past the end changes nothing there,
only its position; `Cursor.Room` says that it has the room it needs.
-/

namespace Cells

variable {α : Type*}

/-- Every cell has been written. -/
def Written (cs : List (Option α)) : Prop := ∀ c ∈ cs, c.isSome

instance (cs : List (Option α)) : Decidable (Written cs) := inferInstanceAs (Decidable (∀ c ∈ cs, c.isSome))

theorem written_map_some (vs : List α) : Written (vs.map some) := by
  intro c hc
  obtain ⟨v, -, rfl⟩ := List.mem_map.mp hc
  rfl

/-- Storing into the first unwritten cell of a partly written block. -/
theorem set_done (done : List α) (todo : List (Option α)) (v : α) (h : todo ≠ []) :
    (done.map some ++ todo).set done.length (some v) = (done ++ [v]).map some ++ todo.tail := by
  cases todo with
  | nil => exact absurd rfl h
  | cons c todo => simp

/-- A block and the place of the next store. -/
structure Cursor (α : Type*) where
  cells : List (Option α)
  pos : Nat

namespace Cursor

/-- Store a value and move past it. -/
def put (c : Cursor α) (v : α) : Cursor α := ⟨c.cells.set c.pos (some v), c.pos + 1⟩

/-- Store values one after another. -/
def putAll (c : Cursor α) (vs : List α) : Cursor α := vs.foldl put c

/-- The block has room for `n` stores from the cursor on. -/
def Room (c : Cursor α) (n : Nat) : Prop := c.pos + n ≤ c.cells.length

@[simp] theorem putAll_nil (c : Cursor α) : c.putAll [] = c := rfl

@[simp] theorem putAll_cons (c : Cursor α) (v : α) (vs : List α) : c.putAll (v :: vs) = (c.put v).putAll vs := rfl

theorem putAll_append (c : Cursor α) (vs ws : List α) : c.putAll (vs ++ ws) = (c.putAll vs).putAll ws := by
  simp [putAll, List.foldl_append]

@[simp] theorem pos_putAll (c : Cursor α) (vs : List α) : (c.putAll vs).pos = c.pos + vs.length := by
  induction vs generalizing c with
  | nil => rfl
  | cons v vs ih => simp only [putAll_cons, ih, List.length_cons, put]; omega

@[simp] theorem length_cells_putAll (c : Cursor α) (vs : List α) : (c.putAll vs).cells.length = c.cells.length := by
  induction vs generalizing c with
  | nil => rfl
  | cons v vs ih => rw [putAll_cons, ih, put, List.length_set]

/-- Stores into a block with room for them: what lies before the cursor stays, the values follow, and the rest stays. -/
theorem putAll_eq (done : List (Option α)) (todo : List (Option α)) (vs : List α) (h : vs.length ≤ todo.length) :
    (⟨done ++ todo, done.length⟩ : Cursor α).putAll vs =
      ⟨done ++ vs.map some ++ todo.drop vs.length, done.length + vs.length⟩ := by
  induction vs generalizing done todo with
  | nil => simp
  | cons v vs ih =>
    cases todo with
    | nil => simp at h
    | cons c todo =>
      have hput : (⟨done ++ c :: todo, done.length⟩ : Cursor α).put v = ⟨(done ++ [some v]) ++ todo, (done ++ [some v]).length⟩ := by
        simp [put]
      rw [putAll_cons, hput, ih _ _ (by simpa using h)]
      simp only [List.map_cons, List.append_assoc, List.singleton_append, List.length_append, List.length_cons,
        List.length_nil, List.drop_succ_cons, Cursor.mk.injEq, true_and]
      omega

/-- No cell from `start` to the cursor is unwritten. -/
def WrittenFrom (c : Cursor α) (start : Nat) : Prop := ∀ i, start ≤ i → i < c.pos → c.cells[i]? ≠ some none

/-- Nothing lies between a place and itself. -/
theorem writtenFrom_pos (c : Cursor α) : c.WrittenFrom c.pos := fun _ hstart hpos => absurd hpos (Nat.not_lt.mpr hstart)

theorem WrittenFrom.put {c : Cursor α} {start : Nat} (h : c.WrittenFrom start) (v : α) : (c.put v).WrittenFrom start := by
  intro i hstart hpos hnone
  rw [Cursor.put, List.getElem?_set] at hnone
  split at hnone
  · split at hnone <;> simp at hnone
  · rename_i hne
    have hlt : i < c.pos + 1 := hpos
    exact h i hstart (by omega) hnone

theorem WrittenFrom.putAll {c : Cursor α} {start : Nat} (h : c.WrittenFrom start) (vs : List α) : (c.putAll vs).WrittenFrom start := by
  induction vs generalizing c with
  | nil => exact h
  | cons v vs ih => exact ih (h.put v)

/-- A cursor that has reached the end of the block leaves no cell from `start` on unwritten. -/
theorem WrittenFrom.written_drop {c : Cursor α} {start : Nat} (h : c.WrittenFrom start) (hend : c.cells.length ≤ c.pos) :
    Written (c.cells.drop start) := by
  intro cell hcell
  obtain ⟨i, hi, rfl⟩ := List.getElem_of_mem hcell
  rw [List.length_drop] at hi
  rw [List.getElem_drop, Option.isSome_iff_ne_none]
  intro hnone
  exact h (start + i) (by omega) (by omega) (by rw [List.getElem?_eq_getElem (by omega), hnone])

/-- Filling a fresh part of a block exactly leaves what was before it and the values. -/
theorem cells_putAll_replicate (done : List (Option α)) (vs : List α) :
    ((⟨done ++ List.replicate vs.length none, done.length⟩ : Cursor α).putAll vs).cells = done ++ vs.map some := by
  rw [putAll_eq _ _ _ (by simp)]
  simp

end Cursor

end Cells
