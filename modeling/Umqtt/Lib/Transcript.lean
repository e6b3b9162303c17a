import Mathlib.Data.List.Forall2

/-!
# Transcripts

A system keeps a log, of which only some entries are observed. What it says on the way from one state to another (`Says`) is given by
scripts, one for each item it is given (`Scripts`): a function that says a script for each item says scripts for a list of items
(`says_foldl`), and scripts for some of the items are read off scripts for all (`Scripts.select`).
-/

namespace Transcript

variable {σ α β γ δ : Type*}

/-! ## Scripts -/

/-- A script for each item, one after another. -/
inductive Scripts (Script : β → List α → Prop) : List β → List α → Prop
  | nil : Scripts Script [] []
  | cons {b : β} {bs : List β} {l more : List α} : Script b l → Scripts Script bs more → Scripts Script (b :: bs) (l ++ more)

section

variable {Script : β → List α → Prop} {b : β} {bs bs' : List β} {l l' : List α}

theorem Scripts.one (h : Script b l) : Scripts Script [b] l := by
  have := Scripts.cons h .nil
  rwa [List.append_nil] at this

theorem Scripts.append (h : Scripts Script bs l) (h' : Scripts Script bs' l') : Scripts Script (bs ++ bs') (l ++ l') := by
  induction h with
  | nil => exact h'
  | cons hfirst _ ih =>
    rw [List.append_assoc]
    exact .cons hfirst ih

theorem Scripts.snoc (h : Scripts Script bs l) (h' : Script b l') : Scripts Script (bs ++ [b]) (l ++ l') := h.append (.one h')

theorem Scripts.of_one (h : Scripts Script [b] l) : Script b l := by
  cases h with
  | cons hfirst hrest =>
    cases hrest
    rwa [List.append_nil]

/-- What is said is known when each script is. -/
theorem Scripts.eq_flatMap {P : β → Prop} {f : β → List α} (h : Scripts (fun b l => P b → l = f b) bs l) (hP : ∀ b ∈ bs, P b) :
    l = bs.flatMap f := by
  induction h with
  | nil => rfl
  | cons hfirst _ ih =>
    rw [List.flatMap_cons, hfirst (hP _ List.mem_cons_self), ih fun b hb => hP b (List.mem_cons_of_mem _ hb)]

/-- The items, read as others. -/
theorem scripts_map {f : γ → β} {cs : List γ} : Scripts Script (cs.map f) l ↔ Scripts (fun c => Script (f c)) cs l := by
  constructor
  · intro h
    induction cs generalizing l with
    | nil =>
      cases h
      exact .nil
    | cons c cs ih =>
      cases h with
      | cons hfirst hrest => exact .cons hfirst (ih hrest)
  · intro h
    induction h with
    | nil => exact .nil
    | cons hfirst _ ih => exact .cons hfirst ih

/-- What is closed under appending holds of scripts if it holds of each. -/
theorem Scripts.closed {P : List α → Prop} (h : Scripts Script bs l) (hnil : P []) (happend : ∀ l l', P l → P l' → P (l ++ l'))
    (hscript : ∀ b l, Script b l → P l) : P l := by
  induction h with
  | nil => exact hnil
  | cons hfirst _ ih => exact happend _ _ (hscript _ _ hfirst) ih

/-- What holds of the entries of each script holds of them all. -/
theorem Scripts.forall_mem {P : α → Prop} (h : Scripts Script bs l) (hscript : ∀ b ∈ bs, ∀ l, Script b l → ∀ a ∈ l, P a) :
    ∀ a ∈ l, P a := by
  induction h with
  | nil => exact fun a ha => absurd ha List.not_mem_nil
  | cons hfirst _ ih =>
    intro a ha
    rcases List.mem_append.mp ha with ha | ha
    · exact hscript _ List.mem_cons_self _ hfirst a ha
    · exact ih (fun b hb => hscript b (List.mem_cons_of_mem _ hb)) a ha

/-- Scripts of some of the items, when those of the others are read as nothing. -/
theorem Scripts.select {Script' : γ → List δ → Prop} {f : β → Option γ} {g : List α → List δ} (h : Scripts Script bs l)
    (hnil : g [] = []) (hg : ∀ a b, g (a ++ b) = g a ++ g b) (hscript : ∀ b l, Script b l → Scripts Script' (f b).toList (g l)) :
    Scripts Script' (bs.filterMap f) (g l) := by
  induction h with
  | nil =>
    rw [hnil]
    exact .nil
  | @cons b bs l more hfirst _ ih =>
    have hsplit : (b :: bs).filterMap f = (f b).toList ++ bs.filterMap f := by
      rw [List.filterMap_cons]
      cases f b <;> rfl
    rw [hsplit, hg]
    exact (hscript _ _ hfirst).append ih

end

/-! ## What is said -/

section

variable (log : σ → List α) (seen : α → Bool)

/-- The log grows, and these are the new entries that are observed. -/
def Says (s t : σ) (l : List α) : Prop := ∃ added, log t = log s ++ added ∧ added.filter seen = l

variable {log seen} {s t u : σ} {l l' : List α}

theorem Says.refl (s : σ) : Says log seen s s [] := ⟨[], (List.append_nil _).symm, rfl⟩

theorem Says.trans (h : Says log seen s t l) (h' : Says log seen t u l') : Says log seen s u (l ++ l') := by
  obtain ⟨added, hadded, rfl⟩ := h
  obtain ⟨more, hmore, rfl⟩ := h'
  exact ⟨added ++ more, by rw [hmore, hadded, List.append_assoc], List.filter_append _ _⟩

/-- The log grows by entries that are not observed. -/
theorem says_nil {added : List α} (h : log t = log s ++ added) (hadded : ∀ a ∈ added, seen a = false) : Says log seen s t [] :=
  ⟨added, h, List.filter_eq_nil_iff.mpr fun a ha => by rw [hadded a ha]; exact Bool.false_ne_true⟩

/-- The log grows by one entry that is observed. -/
theorem says_one {a : α} (h : log t = log s ++ [a]) (ha : seen a = true) : Says log seen s t [a] :=
  ⟨[a], h, List.filter_cons_of_pos ha⟩

theorem Says.after (h : Says log seen s t []) (h' : Says log seen t u l) : Says log seen s u l := h.trans h'

theorem Says.before (h : Says log seen s t l) (h' : Says log seen t u []) : Says log seen s u l := by
  have := h.trans h'
  rwa [List.append_nil] at this

/-- The log alone counts. -/
theorem Says.of_log {σ' : Type*} {log' : σ' → List α} {s' t' : σ'} (h : Says log seen s t l) (hs : log' s' = log s)
    (ht : log' t' = log t) : Says log' seen s' t' l := by
  obtain ⟨added, hadded, hl⟩ := h
  exact ⟨added, by rw [ht, hadded, hs], hl⟩

/-- All that has been observed. -/
theorem Says.filter_eq (h : Says log seen s t l) : (log t).filter seen = (log s).filter seen ++ l := by
  obtain ⟨added, hadded, rfl⟩ := h
  rw [hadded, List.filter_append]

/-- A function that says a script for each item says scripts for a list of items. -/
theorem says_foldl {f : σ → β → σ} {Script : β → List α → Prop} (h : ∀ s b, ∃ l, Script b l ∧ Says log seen s (f s b) l) (s : σ)
    (bs : List β) : ∃ l, Scripts Script bs l ∧ Says log seen s (bs.foldl f s) l := by
  induction bs generalizing s with
  | nil => exact ⟨[], .nil, .refl s⟩
  | cons b bs ih =>
    obtain ⟨first, hscript, hfirst⟩ := h s b
    obtain ⟨rest, hscripts, hrest⟩ := ih (f s b)
    exact ⟨first ++ rest, .cons hscript hscripts, hfirst.trans hrest⟩

end

end Transcript
