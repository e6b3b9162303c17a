import Mathlib.Data.List.Basic

/-!
# Readers of sequences

A reader takes a value from the front of a sequence and leaves the rest, or gives up. `Reads r xs b` says that `r` reads exactly `xs`,
as `b`, whatever follows; readers that run one after another read what their parts read, one after another. `ReadsAll` is the same for
a reader that goes to the end.
-/

/-- A computation that reads from the front of a sequence, and may give up. -/
abbrev Reader (α β : Type) : Type := StateT (List α) Option β

namespace Reader

variable {α β γ : Type}

/-- One element. -/
def next : Reader α α
  | [] => none
  | x :: xs => some (x, xs)

/-- The next `n` elements. -/
def take (n : Nat) : Reader α (List α) := fun xs => if n ≤ xs.length then some (xs.take n, xs.drop n) else none

/-- Go on only when something holds. -/
def check (p : Prop) [Decidable p] : Reader α Unit := if p then pure () else failure

/-- Read only when something announces it. -/
def optional (announced : Bool) (r : Reader α β) : Reader α (Option β) := if announced then some <$> r else pure none

/-- `untilEnd`, for at most `rounds` rounds. -/
def untilEndLoop (r : Reader α β) : Nat → Reader α (List β)
  | _, [] => some ([], [])
  | 0, _ :: _ => none
  | rounds + 1, xs => (do return (← r) :: (← untilEndLoop r rounds) : Reader α (List β)) xs

/-- Read again and again until nothing is left. A reader that takes something each time makes at most as many rounds as there are
elements. -/
def untilEnd (r : Reader α β) : Reader α (List β) := fun xs => untilEndLoop r xs.length xs

/-- What is read from a sequence that holds nothing else. -/
def whole (r : Reader α β) (xs : List α) : Option β :=
  match r.run xs with
  | some (b, []) => some b
  | _ => none

/-! ## What a reader reads -/

/-- The reader reads exactly these elements, whatever follows. -/
def Reads (r : Reader α β) (xs : List α) (b : β) : Prop := ∀ rest, r.run (xs ++ rest) = some (b, rest)

/-- The reader reads these elements when nothing follows. -/
def ReadsAll (r : Reader α β) (xs : List α) (b : β) : Prop := r.run xs = some (b, [])

theorem Reads.readsAll {r : Reader α β} {xs : List α} {b : β} (h : Reads r xs b) : ReadsAll r xs b := by
  have := h []
  rwa [List.append_nil] at this

theorem ReadsAll.whole_eq {r : Reader α β} {xs : List α} {b : β} (h : ReadsAll r xs b) : whole r xs = some b := by
  rw [whole, show r.run xs = some (b, []) from h]

theorem reads_pure (b : β) : Reads (pure b : Reader α β) [] b := fun _ => rfl

theorem reads_next (x : α) : Reads next [x] x := fun _ => rfl

theorem reads_check {p : Prop} [Decidable p] (h : p) : Reads (check p : Reader α Unit) [] () := by
  rw [check, if_pos h]
  exact reads_pure ()

theorem reads_take (xs : List α) : Reads (take xs.length) xs xs := by
  intro rest
  have hle : xs.length ≤ (xs ++ rest).length := by simp
  change (if xs.length ≤ (xs ++ rest).length then some ((xs ++ rest).take xs.length, (xs ++ rest).drop xs.length) else none) = _
  rw [if_pos hle, List.take_left, List.drop_left]

/-- Readers one after another read what they read, one after another. -/
theorem Reads.bind {r : Reader α β} {f : β → Reader α γ} {xs ys : List α} {b : β} {c : γ} (hr : Reads r xs b) (hf : Reads (f b) ys c) :
    Reads (r >>= f) (xs ++ ys) c := by
  intro rest
  rw [StateT.run_bind, List.append_assoc, hr]
  exact hf rest

theorem Reads.bindAll {r : Reader α β} {f : β → Reader α γ} {xs ys : List α} {b : β} {c : γ} (hr : Reads r xs b)
    (hf : ReadsAll (f b) ys c) : ReadsAll (r >>= f) (xs ++ ys) c := by
  rw [ReadsAll, StateT.run_bind, hr]
  exact hf

theorem Reads.map {r : Reader α β} {xs : List α} {b : β} (h : Reads r xs b) (f : β → γ) : Reads (f <$> r) xs (f b) := by
  intro rest
  rw [StateT.run_map, h]
  rfl

theorem ReadsAll.map {r : Reader α β} {xs : List α} {b : β} (h : ReadsAll r xs b) (f : β → γ) :
    ReadsAll (r >>= fun b => pure (f b)) xs (f b) := by
  rw [ReadsAll, StateT.run_bind, h]
  rfl

/-- A list of which every element is written as something is written as at least as many elements. -/
theorem length_le_flatMap {enc : β → List α} (bs : List β) (hne : ∀ b ∈ bs, enc b ≠ []) : bs.length ≤ (bs.flatMap enc).length := by
  induction bs with
  | nil => exact Nat.zero_le _
  | cons b bs ih =>
    have hpos := List.length_pos_of_ne_nil (hne b List.mem_cons_self)
    have hrest := ih fun x hx => hne x (List.mem_cons_of_mem _ hx)
    rw [List.flatMap_cons, List.length_append, List.length_cons]
    omega

/-- A list of which every element has been written as something is read again until the end. -/
theorem readsAll_untilEnd {r : Reader α β} {enc : γ → List α} {meaning : γ → β} (cs : List γ)
    (h : ∀ c ∈ cs, Reads r (enc c) (meaning c)) (hne : ∀ c ∈ cs, enc c ≠ []) :
    ReadsAll (untilEnd r) (cs.flatMap enc) (cs.map meaning) := by
  suffices hloop : ∀ rounds, cs.length ≤ rounds → ReadsAll (untilEndLoop r rounds) (cs.flatMap enc) (cs.map meaning) by
    exact hloop _ (length_le_flatMap cs hne)
  induction cs with
  | nil =>
    intro rounds _
    cases rounds <;> rfl
  | cons c cs ih =>
    intro rounds hrounds
    obtain ⟨rounds, rfl⟩ : ∃ n, rounds = n + 1 := ⟨rounds - 1, by simp at hrounds; omega⟩
    have hrest := ih (fun x hx => h x (List.mem_cons_of_mem _ hx)) (fun x hx => hne x (List.mem_cons_of_mem _ hx)) rounds
      (by simpa using hrounds)
    have hstep : ReadsAll (do return (← r) :: (← untilEndLoop r rounds)) (enc c ++ cs.flatMap enc) (meaning c :: cs.map meaning) := by
      refine (h c List.mem_cons_self).bindAll ?_
      rw [ReadsAll, StateT.run_bind, hrest]
      rfl
    rw [List.flatMap_cons, List.map_cons]
    obtain ⟨x, xs, hcons⟩ := List.exists_cons_of_ne_nil (hne c List.mem_cons_self)
    rw [hcons, List.cons_append] at hstep ⊢
    exact hstep

end Reader
