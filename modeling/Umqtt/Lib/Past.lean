import Mathlib.Logic.Relation
import Mathlib.Data.List.Induction

/-!
# Step relations, and statements about the past of a log

A system moves by steps and keeps a log. `Steps` is any number of steps; what one step preserves, a run preserves
(`Steps.preserves`), and a function that makes steps on each item of a list makes steps on the list (`Steps.foldl`). Two past-time
statements about a log are kept by looking at one entry at a time: `Since mark event` (the event has happened, and no mark after
its last occurrence) and `Always P` (at every entry, `P` held of the entry and of the log before it).
-/

namespace Past

variable {σ α : Type*}

/-- Any number of steps. -/
abbrev Steps (step : σ → σ → Prop) : σ → σ → Prop := Relation.ReflTransGen step

namespace Steps

variable {step : σ → σ → Prop}

/-- What one step preserves, a run preserves. -/
theorem preserves {P : σ → Prop} (h : ∀ s t, step s t → P s → P t) {s t : σ} (hst : Steps step s t) (hs : P s) : P t := by
  induction hst with
  | refl => exact hs
  | tail _ hbc ih => exact h _ _ hbc ih

/-- A value that no step changes is the same after a run. -/
theorem eq_of_const {β : Type*} (f : σ → β) (h : ∀ s t, step s t → f t = f s) {s t : σ} (hst : Steps step s t) : f t = f s :=
  preserves (P := fun u => f u = f s) (fun a b hab ha => (h a b hab).trans ha) hst rfl

/-- Steps of one kind are steps of any kind that includes it. -/
theorem mono {step' : σ → σ → Prop} (h : ∀ s t, step s t → step' s t) {s t : σ} (hst : Steps step s t) : Steps step' s t :=
  Relation.ReflTransGen.mono h s t hst

/-- A function that makes steps on each item makes steps on a list of items. -/
theorem foldl {β : Type*} {f : σ → β → σ} (h : ∀ s b, Steps step s (f s b)) (s : σ) (bs : List β) :
    Steps step s (bs.foldl f s) := by
  induction bs generalizing s with
  | nil => exact .refl
  | cons b bs ih => exact (h s b).trans (ih (f s b))

end Steps

/-! ## The past of a log -/

/-- The event has happened, and the mark has not since. -/
def Since (mark event : α → Prop) (log : List α) : Prop :=
  ∃ pre e post, log = pre ++ e :: post ∧ event e ∧ ∀ x ∈ post, ¬mark x

/-- At every entry of the log, `P` holds of the log before it and of the entry. -/
def Always (P : List α → α → Prop) (log : List α) : Prop := ∀ pre e post, log = pre ++ e :: post → P pre e

theorem not_since_nil {mark event : α → Prop} : ¬Since mark event [] := by
  rintro ⟨pre, e, post, h, -, -⟩
  exact absurd h (by simp)

/-- An event at the end of the log has happened since the mark. -/
theorem since_snoc_event {mark event : α → Prop} {log : List α} {a : α} (h : event a) : Since mark event (log ++ [a]) :=
  ⟨log, a, [], rfl, h, by simp⟩

/-- Any entry that is not the mark keeps what has happened since the mark. -/
theorem Since.snoc {mark event : α → Prop} {log : List α} {a : α} (h : Since mark event log) (ha : ¬mark a) :
    Since mark event (log ++ [a]) := by
  obtain ⟨pre, e, post, rfl, he, hpost⟩ := h
  refine ⟨pre, e, post ++ [a], by simp, he, ?_⟩
  intro x hx
  rcases List.mem_append.mp hx with hx | hx
  · exact hpost x hx
  · rw [List.mem_singleton.mp hx]
    exact ha

theorem always_nil {P : List α → α → Prop} : Always P [] := by
  intro pre e post h
  exact absurd h (by simp)

/-- One more entry: the old entries stay as they were, and the new one is judged by the log before it. -/
theorem always_snoc {P : List α → α → Prop} {log : List α} {a : α} :
    Always P (log ++ [a]) ↔ Always P log ∧ P log a := by
  constructor
  · intro h
    exact ⟨fun pre e post hl => h pre e (post ++ [a]) (by rw [hl]; simp), h log a [] rfl⟩
  · rintro ⟨h, ha⟩ pre e post hl
    rcases List.eq_nil_or_concat post with rfl | ⟨post, x, rfl⟩
    · obtain ⟨rfl, hx⟩ := List.append_inj' hl rfl
      rw [← (List.cons.inj hx).1]
      exact ha
    · rw [List.concat_eq_append, ← List.cons_append, ← List.append_assoc] at hl
      exact h pre e post (List.append_inj' hl rfl).1

/-- Entries that are not the mark keep what has happened since the mark. -/
theorem Since.append {mark event : α → Prop} {log : List α} (h : Since mark event log) {added : List α}
    (ha : ∀ a ∈ added, ¬mark a) : Since mark event (log ++ added) := by
  induction added generalizing log with
  | nil => rwa [List.append_nil]
  | cons a added ih =>
    have := ih (h.snoc (ha a List.mem_cons_self)) (fun x hx => ha x (List.mem_cons_of_mem _ hx))
    rwa [List.append_assoc, List.singleton_append] at this

/-- More entries: the old ones stay as they were, and each new one is judged by the log before it. -/
theorem Always.append {P : List α → α → Prop} {log added : List α} (h : Always P log)
    (ha : ∀ pre a post, added = pre ++ a :: post → P (log ++ pre) a) : Always P (log ++ added) := by
  induction added generalizing log with
  | nil => rwa [List.append_nil]
  | cons a added ih =>
    have hone : Always P (log ++ [a]) := always_snoc.mpr ⟨h, by simpa using ha [] a added rfl⟩
    have := ih hone (fun pre b post hb => by
      have := ha (a :: pre) b post (by rw [hb]; rfl)
      rwa [List.append_assoc, List.singleton_append])
    rwa [List.append_assoc, List.singleton_append] at this

/-- What has happened since the mark has happened after any occurrence of the mark. -/
theorem Since.after_mark {mark event : α → Prop} {log added : List α} {m : α} (h : Since mark event (log ++ m :: added))
    (hm : mark m) : ∃ e ∈ m :: added, event e := by
  obtain ⟨pre, e, post, heq, he, hpost⟩ := h
  rcases List.append_eq_append_iff.mp heq with ⟨more, rfl, h1⟩ | ⟨more, rfl, h1⟩
  · exact ⟨e, h1 ▸ by simp, he⟩
  · rcases more with _ | ⟨x, more⟩
    · exact ⟨e, (List.cons.inj h1).1 ▸ by simp, he⟩
    · -- the mark would be among the later entries
      have hin : m ∈ post := by
        rw [(List.cons.inj h1).2]
        simp
      exact absurd hm (hpost m hin)

/-- Every entry of which `P` holds, with the log before it, is directly followed by one of which `Q` holds. -/
def Followed (P : List α → α → Prop) (Q : α → Prop) (log : List α) : Prop :=
  ∀ pre e post, log = pre ++ e :: post → P pre e → ∃ x rest, post = x :: rest ∧ Q x

theorem followed_nil {P : List α → α → Prop} {Q : α → Prop} : Followed P Q [] := by
  intro pre e post h
  exact absurd h (by simp)

/-- An entry lies before more entries, or is one of them. -/
theorem append_eq_append_cons {log added pre post : List α} {e : α} (h : log ++ added = pre ++ e :: post) :
    (∃ more, log = pre ++ e :: more ∧ post = more ++ added) ∨ ∃ more, pre = log ++ more ∧ added = more ++ e :: post := by
  rcases List.append_eq_append_iff.mp h with ⟨more, rfl, h1⟩ | ⟨more, rfl, h1⟩
  · exact Or.inr ⟨more, rfl, h1⟩
  · rcases more with _ | ⟨x, more⟩
    · exact Or.inr ⟨[], (List.append_nil _).symm.trans (List.append_nil _).symm, h1.symm⟩
    · obtain ⟨rfl, rfl⟩ := List.cons.inj h1
      exact Or.inl ⟨more, rfl, rfl⟩

/-- More entries, of which `P` does not hold. -/
theorem Followed.append {P : List α → α → Prop} {Q : α → Prop} {log added : List α} (h : Followed P Q log)
    (hl : ∀ pre e post, added = pre ++ e :: post → ¬P (log ++ pre) e) : Followed P Q (log ++ added) := by
  intro pre e post heq hP
  rcases append_eq_append_cons heq with ⟨more, rfl, rfl⟩ | ⟨more, rfl, hadded⟩
  · obtain ⟨x, rest, rfl, hQ⟩ := h pre e more rfl hP
    exact ⟨x, rest ++ added, rfl, hQ⟩
  · exact absurd hP (hl more e post hadded)

/-- An entry with the one that follows it. -/
theorem Followed.pair {P : List α → α → Prop} {Q : α → Prop} {log : List α} {a x : α} (h : Followed P Q log)
    (hx : ¬P (log ++ [a]) x) (hQ : Q x) : Followed P Q (log ++ [a, x]) := by
  intro pre e post heq hP
  rcases append_eq_append_cons heq with ⟨more, rfl, rfl⟩ | ⟨more, rfl, hadded⟩
  · obtain ⟨y, rest, rfl, hQ'⟩ := h pre e more rfl hP
    exact ⟨y, rest ++ [a, x], rfl, hQ'⟩
  · rcases more with _ | ⟨b, _ | ⟨b', more⟩⟩
    · exact ⟨x, [], (List.cons.inj hadded).2.symm, hQ⟩
    · obtain ⟨rfl, hrest⟩ := List.cons.inj hadded
      exact absurd ((List.cons.inj hrest).1 ▸ hP) hx
    · exact absurd hadded (by simp)

/-! ## Checking a log -/

/-- `Since`, read backwards from the end of the log. -/
def SinceBack (mark event : α → Prop) : List α → Prop
  | [] => False
  | a :: as => event a ∨ (¬mark a ∧ SinceBack mark event as)

instance decidableSinceBack (mark event : α → Prop) [DecidablePred mark] [DecidablePred event] :
    (as : List α) → Decidable (SinceBack mark event as)
  | [] => inferInstanceAs (Decidable False)
  | a :: as =>
    have := decidableSinceBack mark event as
    inferInstanceAs (Decidable (event a ∨ (¬mark a ∧ SinceBack mark event as)))

theorem since_iff_back {mark event : α → Prop} (log : List α) : Since mark event log ↔ SinceBack mark event log.reverse := by
  induction log using List.reverseRecOn with
  | nil => exact iff_of_false not_since_nil id
  | append_singleton log a ih =>
    rw [List.reverse_append, List.reverse_singleton, List.singleton_append, SinceBack, ← ih]
    constructor
    · rintro ⟨pre, e, post, hl, he, hpost⟩
      rcases List.eq_nil_or_concat post with rfl | ⟨post, x, rfl⟩
      · exact Or.inl ((List.cons.inj (List.append_inj' hl rfl).2).1 ▸ he)
      · rw [List.concat_eq_append, ← List.cons_append, ← List.append_assoc] at hl
        obtain ⟨h1, h2⟩ := List.append_inj' hl rfl
        refine Or.inr ⟨?_, pre, e, post, h1, he, fun y hy => hpost y (by simp [hy])⟩
        rw [(List.cons.inj h2).1]
        exact hpost x (by simp)
    · rintro (he | ⟨ha, h⟩)
      · exact since_snoc_event he
      · exact h.snoc ha

/-- What has happened since the mark had happened before an entry that is not the event. -/
theorem Since.of_snoc {mark event : α → Prop} {log : List α} {a : α} (h : Since mark event (log ++ [a])) (ha : ¬event a) :
    Since mark event log := by
  rw [since_iff_back, List.reverse_append, List.reverse_singleton, List.singleton_append, SinceBack] at h
  rcases h with he | ⟨-, h⟩
  · exact absurd he ha
  · exact (since_iff_back log).mpr h

instance (mark event : α → Prop) [DecidablePred mark] [DecidablePred event] (log : List α) :
    Decidable (Since mark event log) := decidable_of_iff _ (since_iff_back log).symm

/-- `Always`, for the entries that follow a log. -/
def AlwaysFrom (P : List α → α → Prop) : List α → List α → Prop
  | _, [] => True
  | pre, a :: as => P pre a ∧ AlwaysFrom P (pre ++ [a]) as

instance decidableAlwaysFrom (P : List α → α → Prop) [∀ pre a, Decidable (P pre a)] :
    (pre as : List α) → Decidable (AlwaysFrom P pre as)
  | _, [] => inferInstanceAs (Decidable True)
  | pre, a :: as =>
    have := decidableAlwaysFrom P (pre ++ [a]) as
    inferInstanceAs (Decidable (P pre a ∧ AlwaysFrom P (pre ++ [a]) as))

theorem always_append_iff {P : List α → α → Prop} {pre as : List α} :
    Always P (pre ++ as) ↔ Always P pre ∧ AlwaysFrom P pre as := by
  induction as generalizing pre with
  | nil => simp [AlwaysFrom]
  | cons a as ih =>
    rw [← List.singleton_append, ← List.append_assoc, ih, always_snoc, and_assoc]
    rfl

instance (P : List α → α → Prop) [∀ pre a, Decidable (P pre a)] (log : List α) : Decidable (Always P log) :=
  decidable_of_iff (AlwaysFrom P [] log) ⟨fun h => always_append_iff.mpr ⟨always_nil, h⟩, fun h => (always_append_iff.mp h).2⟩

end Past
