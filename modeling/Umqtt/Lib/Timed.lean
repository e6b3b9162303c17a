import Mathlib.Data.List.Induction

/-!
# Logs whose entries have times

A timed log is a list of entries with the times at which they were made. `lastTime event` is the time of the latest event, and
`waiting event answer` the time of the latest event that no answer has followed. What is done at one time is added with that time
(`stamp`), and the rules say what it changes.
-/

namespace Timed

variable {τ α : Type*}

/-- Entries made at one time. -/
def stamp (now : τ) (added : List α) : List (τ × α) := added.map fun a => (now, a)

/-- The time of the latest event. -/
def lastTime (event : α → Bool) (log : List (τ × α)) : Option τ :=
  log.foldl (fun last e => if event e.2 then some e.1 else last) none

/-- The time of the latest event, if no answer has followed it. -/
def waiting (event answer : α → Bool) (log : List (τ × α)) : Option τ :=
  log.foldl (fun since e => if event e.2 then some e.1 else if answer e.2 then none else since) none

@[simp] theorem stamp_nil (now : τ) : stamp now ([] : List α) = [] := rfl

theorem stamp_append (now : τ) (as bs : List α) : stamp now (as ++ bs) = stamp now as ++ stamp now bs := List.map_append

theorem mem_stamp {now : τ} {added : List α} {e : τ × α} (h : e ∈ stamp now added) : e.1 = now ∧ e.2 ∈ added := by
  obtain ⟨a, ha, rfl⟩ := List.mem_map.mp h
  exact ⟨rfl, ha⟩

theorem lastTime_snoc (event : α → Bool) (log : List (τ × α)) (e : τ × α) :
    lastTime event (log ++ [e]) = if event e.2 then some e.1 else lastTime event log := by
  rw [lastTime, List.foldl_append]
  rfl

theorem waiting_snoc (event answer : α → Bool) (log : List (τ × α)) (e : τ × α) :
    waiting event answer (log ++ [e]) =
      if event e.2 then some e.1 else if answer e.2 then none else waiting event answer log := by
  rw [waiting, List.foldl_append]
  rfl

/-- An event now is the latest. -/
theorem lastTime_stamp (event : α → Bool) (log : List (τ × α)) (now : τ) (added : List α) :
    lastTime event (log ++ stamp now added) = if added.any event then some now else lastTime event log := by
  induction added generalizing log with
  | nil => simp
  | cons a added ih =>
    have hcons : log ++ stamp now (a :: added) = log ++ [(now, a)] ++ stamp now added := by simp [stamp]
    rw [hcons, ih, lastTime_snoc, List.any_cons]
    rcases event a
    · rw [Bool.false_or, if_neg Bool.false_ne_true]
    · simp

/-- Without an event now, an answer now ends the wait. -/
theorem waiting_stamp {event : α → Bool} (answer : α → Bool) (log : List (τ × α)) (now : τ) {added : List α}
    (h : ∀ a ∈ added, event a = false) :
    waiting event answer (log ++ stamp now added) = if added.any answer then none else waiting event answer log := by
  induction added generalizing log with
  | nil => simp
  | cons a added ih =>
    have hcons : log ++ stamp now (a :: added) = log ++ [(now, a)] ++ stamp now added := by simp [stamp]
    have hrest : ∀ b ∈ added, event b = false := fun b hb => h b (List.mem_cons_of_mem _ hb)
    rw [hcons, ih _ hrest, waiting_snoc, h a List.mem_cons_self, if_neg Bool.false_ne_true, List.any_cons]
    rcases answer a
    · rw [Bool.false_or, if_neg Bool.false_ne_true]
    · simp

/-- The time of the latest event is one at which something was done. -/
theorem exists_mem_of_lastTime {event : α → Bool} {log : List (τ × α)} {t : τ} (h : lastTime event log = some t) :
    ∃ e ∈ log, e.1 = t := by
  induction log using List.reverseRecOn with
  | nil => exact absurd h (by simp [lastTime])
  | append_singleton log e ih =>
    rw [lastTime_snoc] at h
    split at h
    · exact ⟨e, by simp, Option.some.inj h⟩
    · obtain ⟨e', he', ht⟩ := ih h
      exact ⟨e', List.mem_append_left _ he', ht⟩

end Timed
