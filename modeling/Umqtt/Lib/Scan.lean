import Umqtt.Lib.Feed

/-!
# Readers of a stream

A reader looks at the front of a sequence: it takes an item off, refuses what is there, or waits for more, and it uses up a resource on
the way. `scan` takes items off until the reader waits or refuses. A `Scanner` does so with a sequence that arrives in pieces: it keeps
what is not used up yet, and reads it again together with the next piece.

A consumer that looks at one element at a time, and keeps no element, `Implements` a reader when it treats each item as the reader does.
It then treats a whole sequence as `scan` does (`Implements.of_waiting`, `Implements.of_refused`), and one that arrives in pieces as the
scanner does (`Holds.take`, `Holds.refused`).
-/

namespace Scan

open Feed

/-- What a reader makes of the front of a sequence, with the resource that is left. -/
inductive Reading (η α β : Type*) where
  | more (left : η)
  | refused (left : η)
  | item (b : β) (rest : List α) (left : η)

/-- A reader. It waits when there is nothing to read, and an item is not empty. -/
structure Reader (η α β : Type*) where
  read : η → List α → Reading η α β
  read_nil : ∀ h, read h [] = .more h
  shorter : ∀ {h as b rest left}, read h as = .item b rest left → rest.length < as.length

/-- How a scan ends: it waits, with a rest and the resource before the rest and after it, or something is refused. -/
inductive Ending (η α : Type*) where
  | waiting (pending : List α) (resource left : η)
  | refused (left : η)

/-- Something is refused. -/
def Ending.isRefused {η α : Type*} : Ending η α → Bool
  | waiting _ _ _ => false
  | refused _ => true

section

variable {η α β : Type*} (r : Reader η α β)

/-- Take items off until the reader waits or refuses. -/
def scan (h : η) (as : List α) : List β × Ending η α :=
  match _hr : r.read h as with
  | .more left => ([], .waiting as h left)
  | .refused left => ([], .refused left)
  | .item b rest left =>
    let s := scan left rest
    (b :: s.1, s.2)
termination_by as.length
decreasing_by exact r.shorter _hr

variable {r} {h left : η} {as : List α}

theorem scan_more (hr : r.read h as = .more left) : scan r h as = ([], .waiting as h left) := by
  rw [scan]
  split <;> simp_all

theorem scan_refused (hr : r.read h as = .refused left) : scan r h as = ([], .refused left) := by
  rw [scan]
  split <;> simp_all

theorem scan_item {b : β} {rest : List α} (hr : r.read h as = .item b rest left) :
    scan r h as = (b :: (scan r left rest).1, (scan r left rest).2) := by
  rw [scan]
  split <;> simp_all

/-- What holds of every item that is read holds of every item of a scan. -/
theorem forall_scan {P : β → Prop} (hP : ∀ {h as b rest left}, r.read h as = .item b rest left → P b) : ∀ b ∈ (scan r h as).1, P b := by
  induction as using WellFounded.induction (measure List.length).wf generalizing h with
  | _ as ih =>
    rcases hr : r.read h as with left | left | ⟨b, rest, left⟩
    · rw [scan_more hr]
      exact fun b hb => absurd hb List.not_mem_nil
    · rw [scan_refused hr]
      exact fun b hb => absurd hb List.not_mem_nil
    · rw [scan_item hr]
      exact List.forall_mem_cons.mpr ⟨hP hr, ih rest (r.shorter hr)⟩

/-- A reader for a grammar, with a resource that it does not use up: it takes an item off exactly when the front spells the item. -/
def Exact (r : Reader η α β) (h : η) (Spells : β → List α → Prop) : Prop :=
  ∀ as b rest left, r.read h as = .item b rest left ↔ left = h ∧ ∃ front, as = front ++ rest ∧ Spells b front

/-- It does not use the resource up. -/
theorem Exact.resource_eq {Spells : β → List α → Prop} (he : Exact r h Spells) {items : List β} {pending : List α} {resource : η}
    (hs : scan r h as = (items, .waiting pending resource left)) : resource = h := by
  induction as using WellFounded.induction (measure List.length).wf generalizing items with
  | _ as ih =>
    rcases hr : r.read h as with left' | left' | ⟨b, rest, left'⟩
    · rw [scan_more hr] at hs
      exact (Ending.waiting.inj (Prod.mk.inj hs).2).2.1.symm
    · rw [scan_refused hr] at hs
      cases (Prod.mk.inj hs).2
    · obtain ⟨rfl, -⟩ := (he as b rest left').mp hr
      rw [scan_item hr] at hs
      exact ih rest (r.shorter hr) (Prod.ext rfl (Prod.mk.inj hs).2)

/-- A sequence is scanned to its end exactly when it is made up of what spells the items. -/
theorem scan_eq_iff {Spells : β → List α → Prop} (he : Exact r h Spells) (items : List β) (as : List α) :
    scan r h as = (items, .waiting [] h h) ↔ ∃ fronts, List.Forall₂ Spells items fronts ∧ as = fronts.flatten := by
  constructor
  · intro hs
    induction as using WellFounded.induction (measure List.length).wf generalizing items with
    | _ as ih =>
      rcases hr : r.read h as with left | left | ⟨b, rest, left⟩
      · rw [scan_more hr] at hs
        obtain ⟨rfl, hend⟩ := Prod.mk.inj hs
        exact ⟨[], .nil, (Ending.waiting.inj hend).1⟩
      · rw [scan_refused hr] at hs
        cases (Prod.mk.inj hs).2
      · obtain ⟨rfl, front, hfront, hspells⟩ := (he as b rest left).mp hr
        rw [scan_item hr] at hs
        obtain ⟨rfl, hend⟩ := Prod.mk.inj hs
        obtain ⟨fronts, hall, hrest⟩ := ih rest (r.shorter hr) _ (Prod.ext rfl hend)
        exact ⟨front :: fronts, .cons hspells hall, by rw [hfront, hrest, List.flatten_cons]⟩
  · rintro ⟨fronts, hall, rfl⟩
    induction hall with
    | nil => exact scan_more (r.read_nil h)
    | @cons b front items fronts hspells _ ih =>
      have hr : r.read h (front :: fronts).flatten = .item b fronts.flatten h :=
        (he _ _ _ _).mpr ⟨rfl, front, List.flatten_cons, hspells⟩
      rw [scan_item hr, ih]

end

/-! ## Pieces -/

/-- The items so far, what is not used up yet, and the resource before it and after it. -/
structure Scanner (η α β : Type*) where
  items : List β
  pending : List α
  resource : η
  left : η

namespace Scanner

variable {η α β : Type*}

/-- Nothing has arrived. -/
def start (h : η) : Scanner η α β := ⟨[], [], h, h⟩

/-- What is pending is dropped, and what it has used up is lost. -/
def drop (s : Scanner η α β) : Scanner η α β := ⟨s.items, [], s.left, s.left⟩

/-- One more piece: it is read behind what is pending. After a refusal nothing of it is kept. -/
def take (r : Reader η α β) (s : Scanner η α β) (piece : List α) : Scanner η α β :=
  match scan r s.resource (s.pending ++ piece) with
  | (items, .waiting pending resource left) => ⟨s.items ++ items, pending, resource, left⟩
  | (items, .refused left) => ⟨s.items ++ items, [], left, left⟩

/-- What holds of every item that is read holds of the items after one more piece. -/
theorem forall_take {r : Reader η α β} {P : β → Prop} (hP : ∀ {h as b rest left}, r.read h as = .item b rest left → P b)
    {s : Scanner η α β} (hs : ∀ b ∈ s.items, P b) (piece : List α) : ∀ b ∈ (s.take r piece).items, P b := by
  have hscan : ∀ b ∈ (scan r s.resource (s.pending ++ piece)).1, P b := forall_scan hP
  unfold take
  rcases hread : scan r s.resource (s.pending ++ piece) with ⟨items, ⟨pending, resource, left⟩ | ⟨left⟩⟩
  all_goals
    rw [hread] at hscan
    intro b hb
    rcases List.mem_append.mp hb with hb | hb
    · exact hs b hb
    · exact hscan b hb

/-- The piece holds something that is refused. -/
def refuses (r : Reader η α β) (s : Scanner η α β) (piece : List α) : Bool :=
  (scan r s.resource (s.pending ++ piece)).2.isRefused

end Scanner

/-! ## Consumers -/

section

variable {η α β σ ρ τ : Type*} [DecidableEq ρ] (r : Reader η α β) (good : ρ) (step : σ → α → σ × ρ) (between : η → σ → Prop)
  (resource : σ → η) (out : σ → τ) (emit : τ → β → τ)

/-- A consumer treats the front of a sequence as the reader does, whenever it starts `between` two items with the reader's resource: it
emits an item and is between two items again, or it emits nothing. -/
structure Implements : Prop where
  more : ∀ {h left s as}, between h s → r.read h as = .more left →
    (feed good step s as).2 = good ∧ resource (feed good step s as).1 = left ∧ out (feed good step s as).1 = out s
  refused : ∀ {h left s as}, between h s → r.read h as = .refused left →
    (feed good step s as).2 ≠ good ∧ resource (feed good step s as).1 = left ∧ out (feed good step s as).1 = out s
  item : ∀ {h left s as b rest}, between h s → r.read h as = .item b rest left →
    ∃ t, between left t ∧ out t = emit (out s) b ∧ feed good step s as = feed good step t rest

variable {r good step between resource out emit} (hi : Implements r good step between resource out emit) {h left res : η} {s : σ}
  {as pending : List α} {items : List β}

include hi

/-- A scan that waits: the items are emitted, and the consumer is inside what is pending. -/
theorem Implements.of_waiting (hb : between h s) (hs : scan r h as = (items, .waiting pending res left)) :
    ∃ t, between res t ∧ out t = items.foldl emit (out s) ∧ feed good step s as = feed good step t pending ∧
      r.read res pending = .more left := by
  induction as using WellFounded.induction (measure List.length).wf generalizing h s items with
  | _ as ih =>
    rcases hr : r.read h as with left' | left' | ⟨b, rest, left'⟩
    · rw [scan_more hr] at hs
      obtain ⟨rfl, hend⟩ := Prod.mk.inj hs
      cases hend
      exact ⟨s, hb, rfl, rfl, hr⟩
    · rw [scan_refused hr] at hs
      cases (Prod.mk.inj hs).2
    · rw [scan_item hr] at hs
      obtain ⟨rfl, hend⟩ := Prod.mk.inj hs
      obtain ⟨t, hbt, hout, hfeed⟩ := hi.item hb hr
      obtain ⟨u, hbu, houtu, hfeedu, hread⟩ := ih rest (r.shorter hr) hbt (Prod.ext rfl hend)
      exact ⟨u, hbu, by rw [houtu, hout, List.foldl_cons], hfeed.trans hfeedu, hread⟩

/-- A scan that refuses something: the items before it are emitted, and the consumer fails. -/
theorem Implements.of_refused (hb : between h s) (hs : scan r h as = (items, .refused left)) :
    (feed good step s as).2 ≠ good ∧ resource (feed good step s as).1 = left ∧
      out (feed good step s as).1 = items.foldl emit (out s) := by
  induction as using WellFounded.induction (measure List.length).wf generalizing h s items with
  | _ as ih =>
    rcases hr : r.read h as with left' | left' | ⟨b, rest, left'⟩
    · rw [scan_more hr] at hs
      cases (Prod.mk.inj hs).2
    · rw [scan_refused hr] at hs
      obtain ⟨rfl, hend⟩ := Prod.mk.inj hs
      cases hend
      exact hi.refused hb hr
    · rw [scan_item hr] at hs
      obtain ⟨rfl, hend⟩ := Prod.mk.inj hs
      obtain ⟨t, hbt, hout, hfeed⟩ := hi.item hb hr
      rw [hfeed, List.foldl_cons, ← hout]
      exact ih rest (r.shorter hr) hbt (Prod.ext rfl hend)

/-- A whole sequence: what is emitted is what is scanned, and the consumer fails exactly when the scan refuses something. -/
theorem Implements.of_scan (hb : between h s) (as : List α) :
    out (feed good step s as).1 = (scan r h as).1.foldl emit (out s) ∧
      ((feed good step s as).2 = good ↔ (scan r h as).2.isRefused = false) := by
  rcases hs : scan r h as with ⟨items, ⟨pending, res, left⟩ | ⟨left⟩⟩
  · obtain ⟨t, hbt, hout, hfeed, hread⟩ := hi.of_waiting hb hs
    obtain ⟨hgood, -, hsame⟩ := hi.more hbt hread
    rw [hfeed]
    exact ⟨hsame.trans hout, iff_of_true hgood rfl⟩
  · obtain ⟨hbad, -, hout⟩ := hi.of_refused hb hs
    exact ⟨hout, iff_of_false hbad Bool.noConfusion⟩

omit hi

variable (r good step between out emit) in
/-- The consumer is where the scanner is, and has emitted its items to `t₀`: it was between two items before what is pending. -/
def Holds (t₀ : τ) (sc : Scanner η α β) (s : σ) : Prop :=
  ∃ t, between sc.resource t ∧ out t = sc.items.foldl emit t₀ ∧ feed good step t sc.pending = (s, good) ∧
    r.read sc.resource sc.pending = .more sc.left

variable {t₀ : τ} {sc : Scanner η α β}

/-- A consumer between two items. -/
theorem holds_between (hb : between h s) (hout : out s = items.foldl emit t₀) :
    Holds r good step between out emit t₀ ⟨items, [], h, h⟩ s := ⟨s, hb, hout, rfl, r.read_nil h⟩

include hi

/-- What the consumer has emitted, and the resource it has left. -/
theorem Holds.spec (hh : Holds r good step between out emit t₀ sc s) :
    out s = sc.items.foldl emit t₀ ∧ resource s = sc.left := by
  obtain ⟨t, hb, hout, hfeed, hread⟩ := hh
  obtain ⟨-, hleft, hsame⟩ := hi.more hb hread
  rw [hfeed] at hleft hsame
  exact ⟨hsame.trans hout, hleft⟩

/-- A piece of which nothing is refused. -/
theorem Holds.take (hh : Holds r good step between out emit t₀ sc s) {piece : List α} (hok : sc.refuses r piece = false) :
    (feed good step s piece).2 = good ∧ Holds r good step between out emit t₀ (sc.take r piece) (feed good step s piece).1 := by
  obtain ⟨t, hb, hout, hfeed, -⟩ := hh
  have hwhole : feed good step t (sc.pending ++ piece) = feed good step s piece := by
    rw [feed_append _ (by rw [hfeed]), hfeed]
  unfold Scanner.refuses at hok
  unfold Scanner.take
  rcases hs : scan r sc.resource (sc.pending ++ piece) with ⟨items, ⟨pending, res, left⟩ | ⟨left⟩⟩
  · obtain ⟨u, hbu, houtu, hfeedu, hread⟩ := hi.of_waiting hb hs
    obtain ⟨hgood, -, -⟩ := hi.more hbu hread
    rw [← hwhole, hfeedu]
    exact ⟨hgood, u, hbu, by rw [houtu, hout, List.foldl_append], Prod.ext rfl hgood, hread⟩
  · rw [hs] at hok
    exact absurd hok (by simp [Ending.isRefused])

/-- A piece of which something is refused. -/
theorem Holds.refused (hh : Holds r good step between out emit t₀ sc s) {piece : List α} (hbad : sc.refuses r piece = true) :
    (feed good step s piece).2 ≠ good ∧ out (feed good step s piece).1 = (sc.take r piece).items.foldl emit t₀ ∧
      sc.take r piece = ⟨(sc.take r piece).items, [], resource (feed good step s piece).1, resource (feed good step s piece).1⟩ := by
  obtain ⟨t, hb, hout, hfeed, -⟩ := hh
  have hwhole : feed good step t (sc.pending ++ piece) = feed good step s piece := by
    rw [feed_append _ (by rw [hfeed]), hfeed]
  unfold Scanner.refuses at hbad
  unfold Scanner.take
  rcases hs : scan r sc.resource (sc.pending ++ piece) with ⟨items, ⟨pending, res, left⟩ | ⟨left⟩⟩
  · rw [hs] at hbad
    exact absurd hbad (by simp [Ending.isRefused])
  · obtain ⟨hne, hleft, houtu⟩ := hi.of_refused hb hs
    rw [← hwhole]
    exact ⟨hne, by rw [houtu, hout, List.foldl_append], by rw [hleft]⟩

end

end Scan
