import Mathlib.Data.List.Basic

/-!
# Incremental consumers

A consumer takes a sequence one item at a time and answers each item; it stops at the first answer that is not the good one,
as a `for` loop with the result in its condition does. `feed` is the loop over one sequence, `feedAll` is one call per piece of a
sequence that was cut into pieces. When the whole sequence is answered well, the cut does not matter (`feedAll_of_flatten`), and up to
the first failure it never does (`feedUntil_eq_feed`). `feedM` is the loop with a step that may give nothing; where an invariant
keeps the step from that, it is the plain loop (`feedM_eq_feed`).
-/

namespace Feed

variable {σ α ρ : Type*} [DecidableEq ρ] (good : ρ) (step : σ → α → σ × ρ)

/-- Consume a list item by item, stopping after the first item that is not answered `good`. -/
def feed : σ → List α → σ × ρ
  | s, [] => (s, good)
  | s, a :: as => if (step s a).2 = good then feed (step s a).1 as else step s a

/-- One call of `feed` for each piece, whatever the calls before it answered, and the answers in order. -/
def feedAll : σ → List (List α) → σ × List ρ
  | s, [] => (s, [])
  | s, p :: ps =>
    let r := feed good step s p
    let rest := feedAll r.1 ps
    (rest.1, r.2 :: rest.2)

/-- One call of `feed` for each piece, up to and including the first that is not answered `good`. -/
def feedUntil : σ → List (List α) → σ × ρ
  | s, [] => (s, good)
  | s, p :: ps => if (feed good step s p).2 = good then feedUntil (feed good step s p).1 ps else feed good step s p

/-- The loop over one sequence, with a step that may give nothing: then the loop gives nothing. -/
def feedM (step : σ → α → Option (σ × ρ)) : σ → List α → Option (σ × ρ)
  | s, [] => some (s, good)
  | s, a :: as => do
    let r ← step s a
    if r.2 = good then feedM step r.1 as else return r

variable {good step}

@[simp] theorem feed_nil (s : σ) : feed good step s [] = (s, good) := rfl

/-- An item answered `good` hands the rest of the list to the state it leaves. -/
theorem feed_cons_good {s : σ} {a : α} (as : List α) (h : (step s a).2 = good) :
    feed good step s (a :: as) = feed good step (step s a).1 as := by
  simp [feed, h]

/-- An item answered otherwise ends the loop: the rest of the list is not looked at. -/
theorem feed_cons_bad {s : σ} {a : α} (as : List α) (h : (step s a).2 ≠ good) :
    feed good step s (a :: as) = step s a := by
  simp [feed, h]

/-- After a list that is answered `good` throughout, a longer list goes on from the state it leaves. -/
theorem feed_append {s : σ} {as : List α} (bs : List α) (h : (feed good step s as).2 = good) :
    feed good step s (as ++ bs) = feed good step (feed good step s as).1 bs := by
  induction as generalizing s with
  | nil => rfl
  | cons a as ih =>
    by_cases ha : (step s a).2 = good
    · rw [feed_cons_good as ha] at h ⊢
      rw [List.cons_append, feed_cons_good _ ha, ih h]
    · rw [feed_cons_bad as ha] at h
      exact absurd h ha

/-- A list that is answered `good` throughout is answered `good` on every first part of it. -/
theorem feed_good_of_append {s : σ} {as bs : List α} (h : (feed good step s (as ++ bs)).2 = good) :
    (feed good step s as).2 = good := by
  induction as generalizing s with
  | nil => rfl
  | cons a as ih =>
    by_cases ha : (step s a).2 = good
    · rw [List.cons_append, feed_cons_good _ ha] at h
      rw [feed_cons_good as ha]
      exact ih h
    · rw [List.cons_append, feed_cons_bad _ ha] at h
      exact absurd h ha

/-- The cut does not matter: a sequence answered `good` as a whole is answered `good` piece by piece, and the pieces leave the
state the whole leaves. -/
theorem feedAll_of_flatten {s : σ} {ps : List (List α)} (h : (feed good step s ps.flatten).2 = good) :
    feedAll good step s ps = ((feed good step s ps.flatten).1, List.replicate ps.length good) := by
  induction ps generalizing s with
  | nil => rfl
  | cons p ps ih =>
    rw [List.flatten_cons] at h
    have hp := feed_good_of_append h
    rw [feed_append _ hp] at h
    simp only [feedAll, List.flatten_cons, feed_append _ hp, ih h, hp, List.length_cons, List.replicate_succ]

/-- A list that is not answered `good` throughout is not looked at any further. -/
theorem feed_append_bad {s : σ} {as : List α} (bs : List α) (h : (feed good step s as).2 ≠ good) :
    feed good step s (as ++ bs) = feed good step s as := by
  induction as generalizing s with
  | nil => exact absurd rfl h
  | cons a as ih =>
    by_cases ha : (step s a).2 = good
    · rw [feed_cons_good as ha] at h ⊢
      rw [List.cons_append, feed_cons_good _ ha, ih h]
    · rw [List.cons_append, feed_cons_bad _ ha, feed_cons_bad as ha]

/-- Nor does the cut matter up to the first failure: the calls that are made leave what the whole leaves. -/
theorem feedUntil_eq_feed (s : σ) (ps : List (List α)) : feedUntil good step s ps = feed good step s ps.flatten := by
  induction ps generalizing s with
  | nil => rfl
  | cons p ps ih =>
    rw [feedUntil, List.flatten_cons]
    split
    · rename_i hp
      rw [ih, feed_append _ hp]
    · rename_i hp
      rw [feed_append_bad _ hp]

/-- What every item preserves, the loop preserves, whether it stops early or not. -/
theorem feed_preserves {P : σ → Prop} (hstep : ∀ s a, P s → P (step s a).1) {s : σ} (hs : P s) (as : List α) :
    P (feed good step s as).1 := by
  induction as generalizing s with
  | nil => exact hs
  | cons a as ih =>
    by_cases ha : (step s a).2 = good
    · rw [feed_cons_good as ha]
      exact ih (hstep s a hs)
    · rw [feed_cons_bad as ha]
      exact hstep s a hs

/-- A step that gives what `step` gives, wherever what every item preserves holds, makes the same loop. -/
theorem feedM_eq_feed {stepM : σ → α → Option (σ × ρ)} {P : σ → Prop} (hkeep : ∀ s a, P s → P (step s a).1)
    (hstep : ∀ s a, P s → stepM s a = some (step s a)) {s : σ} (hs : P s) (as : List α) :
    feedM good stepM s as = some (feed good step s as) := by
  induction as generalizing s with
  | nil => rfl
  | cons a as ih =>
    rw [feedM, hstep s a hs, Option.bind_eq_bind, Option.bind_some]
    by_cases ha : (step s a).2 = good
    · rw [if_pos ha, feed_cons_good as ha, ih (hkeep s a hs)]
    · rw [if_neg ha, feed_cons_bad as ha]
      rfl

/-- The same for calls that are made one after the other. -/
theorem foldlM_eq_foldl {call : σ → α → σ} {callM : σ → α → Option σ} {P : σ → Prop} (hkeep : ∀ s a, P s → P (call s a))
    (hcall : ∀ s a, P s → callM s a = some (call s a)) {s : σ} (hs : P s) (as : List α) :
    as.foldlM callM s = some (as.foldl call s) := by
  induction as generalizing s with
  | nil => rfl
  | cons a as ih =>
    rw [List.foldlM_cons, List.foldl_cons, hcall s a hs, Option.bind_eq_bind, Option.bind_some, ih (hkeep s a hs)]

/-- Two consumers that answer alike on related states, and stay related, answer a whole list alike. -/
theorem feed_related {τ : Type*} {step' : τ → α → τ × ρ} {R : σ → τ → Prop}
    (hstep : ∀ s t a, R s t → (step s a).2 = (step' t a).2 ∧ R (step s a).1 (step' t a).1) {s : σ} {t : τ} (h : R s t)
    (as : List α) :
    (feed good step s as).2 = (feed good step' t as).2 ∧ R (feed good step s as).1 (feed good step' t as).1 := by
  induction as generalizing s t with
  | nil => exact ⟨rfl, h⟩
  | cons a as ih =>
    obtain ⟨hr, hR⟩ := hstep s t a h
    by_cases ha : (step s a).2 = good
    · rw [feed_cons_good as ha, feed_cons_good as (hr ▸ ha)]
      exact ih hR
    · rw [feed_cons_bad as ha, feed_cons_bad as (hr ▸ ha)]
      exact ⟨hr, hR⟩

end Feed
