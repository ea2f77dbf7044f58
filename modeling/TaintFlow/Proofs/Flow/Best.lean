import TaintFlow.Flow.State
import TaintFlow.Proofs.Text.Order

/-!
# The order of chains, and what a collection of best chains holds

The order of chains is a preorder, as it compares one key after another.  So a collection that
keeps the best chain per key never gets worse: once it holds a chain at least as good as `c`, it
does so for ever, whatever else it is offered.

## Main definitions

* `Best.Has m k` — some chain is held for `k`.
* `Best.Covers m k c` — the chain held for `k` is at least as good as `c`.
* `Best.CoversAll m other` — `m` covers all that another collection holds.
* `Best.offerAll` — one offer after another; all collections of the analysis are built this way.

## Main results

* `transCmp_compareChains` — the order of chains is transitive and total.
* `Best.has_offerAll`, `Best.mem_offerAll` — what a collection holds after a list of offers.
* `Best.covers_offerAll`, `Best.Covers.offerAll` — offers are covered, and stay covered.
* `Best.coversAll_iff_improvedBy` — the test for an improvement is the negation of covering.
-/

namespace TaintFlow

open Std (TransCmp OrientedCmp)

namespace Flow

instance transCmp_compareSteps : TransCmp compareSteps := by
  have hkind := transCmp_onKey compareText fun s : Step => s.kind.name
  have hfunction := transCmp_onKey compareInt Step.function
  have hblock := transCmp_onKey compareInt Step.block
  have hposition := transCmp_onKey compareInt Step.position
  have hline := transCmp_onKey compareInt Step.line
  have hfile := transCmp_onKey compareText Step.file
  have hdetail := transCmp_onKey compareText Step.detail
  exact transCmp_then hkind <| transCmp_then hfunction <| transCmp_then hblock <|
    transCmp_then hposition <| transCmp_then hline <| transCmp_then hfile hdetail

/-- **The order of chains is a total preorder.** -/
instance transCmp_compareChains : TransCmp compareChains := by
  have htruncated := transCmp_onKey compareBool Chain.truncated
  have hlength := transCmp_onKey (compare : Nat → Nat → Ordering) Chain.length
  have hdepth := transCmp_onKey (compare : Nat → Nat → Ordering) Chain.depth
  have hsteps := transCmp_onKey (compareLists compareSteps) Chain.newestFirst
  exact transCmp_then htruncated <| transCmp_then hlength <| transCmp_then hdepth hsteps

theorem isLE_compareChains_self (c : Chain) : (compareChains c c).isLE :=
  Ordering.isLE_of_eq_eq Std.ReflCmp.compare_self

theorem better_eq_false_iff {c : Chain} {current : Option Chain} :
    better c current = false ↔ ∃ d, current = some d ∧ (compareChains d c).isLE := by
  cases current with
  | none => simp [better]
  | some d =>
    simp only [better, Option.some.injEq, exists_eq_left', beq_eq_false_iff_ne, ne_eq]
    constructor
    · intro h
      rw [← OrientedCmp.isGE_iff_isLE]
      cases hc : compareChains c d <;> simp_all
    · intro h hlt
      exact OrientedCmp.not_lt_of_isLE h (by simpa using hlt)

/-! ### Collections of best chains -/

namespace Best

variable {κ : Type}

/-- Some chain is held for a key. -/
def Has (m : Best κ) (k : κ) : Prop :=
  ∃ c, (k, c) ∈ m.entries

@[simp] theorem not_has_empty (k : κ) : ¬ ({} : Best κ).Has k := by
  rintro ⟨c, hc⟩
  exact List.not_mem_nil hc

variable [BEq κ]

/-- The chain held for a key is at least as good as a given one. -/
def Covers (m : Best κ) (k : κ) (c : Chain) : Prop :=
  ∃ d, m.get? k = some d ∧ (compareChains d c).isLE

/-- All that another collection holds is covered. -/
def CoversAll (m other : Best κ) : Prop :=
  ∀ k c, (k, c) ∈ other.entries → m.Covers k c

/-- Offers one chain after another. -/
def offerAll (m : Best κ) (offers : List (κ × Chain)) : Best κ :=
  offers.foldl (fun m e => m.offer e.1 e.2) m

@[simp] theorem offerAll_nil (m : Best κ) : m.offerAll [] = m := rfl

@[simp] theorem offerAll_cons (m : Best κ) (e : κ × Chain) (es : List (κ × Chain)) :
    m.offerAll (e :: es) = (m.offer e.1 e.2).offerAll es := rfl

theorem offerAll_append (m : Best κ) (es fs : List (κ × Chain)) :
    m.offerAll (es ++ fs) = (m.offerAll es).offerAll fs := by
  rw [offerAll, List.foldl_append]
  rfl

theorem join_eq_offerAll (m other : Best κ) : m.join other = m.offerAll other.entries := rfl

theorem mem_put {k : κ} {c : Chain} {e : κ × Chain} :
    ∀ {es : List (κ × Chain)}, e ∈ put k c es → e = (k, c) ∨ e ∈ es := by
  intro es
  induction es with
  | nil => intro h; exact Or.inl (by simpa [put] using h)
  | cons d es ih =>
    intro h
    rw [put] at h
    split at h
    · rcases List.mem_cons.mp h with h | h
      · exact Or.inl h
      · exact Or.inr (List.mem_cons_of_mem _ h)
    · rcases List.mem_cons.mp h with h | h
      · exact Or.inr (h ▸ List.mem_cons_self)
      · rcases ih h with h | h
        · exact Or.inl h
        · exact Or.inr (List.mem_cons_of_mem _ h)

theorem mem_offer {m : Best κ} {k : κ} {c : Chain} {e : κ × Chain}
    (h : e ∈ (m.offer k c).entries) : e = (k, c) ∨ e ∈ m.entries := by
  unfold offer at h
  split at h
  · exact mem_put h
  · exact Or.inr h

theorem mem_offerAll {m : Best κ} {es : List (κ × Chain)} {e : κ × Chain}
    (h : e ∈ (m.offerAll es).entries) : e ∈ m.entries ∨ e ∈ es := by
  induction es generalizing m with
  | nil => exact Or.inl h
  | cons d es ih =>
    rcases ih h with h | h
    · rcases mem_offer h with rfl | h
      · exact Or.inr List.mem_cons_self
      · exact Or.inl h
    · exact Or.inr (List.mem_cons_of_mem _ h)

theorem coversAll_iff_improvedBy {m other : Best κ} :
    m.CoversAll other ↔ m.improvedBy other = false := by
  have hcovers : ∀ k c, m.Covers k c ↔ better c (m.get? k) = false :=
    fun k c => better_eq_false_iff.symm
  simp only [improvedBy, List.any_eq_false, CoversAll, hcovers, Prod.forall,
    Bool.not_eq_true]

/-- Joining what is covered changes nothing. -/
theorem CoversAll.join_eq {m other : Best κ} (h : m.CoversAll other) : m.join other = m := by
  have hoffer : ∀ e ∈ other.entries, m.offer e.1 e.2 = m := by
    intro e he
    have hb := better_eq_false_iff.mpr (h e.1 e.2 he)
    simp [offer, hb]
  rw [join_eq_offerAll]
  generalize other.entries = es at hoffer
  induction es with
  | nil => rfl
  | cons d es ih =>
    rw [offerAll_cons, hoffer d List.mem_cons_self]
    exact ih fun e he => hoffer e (List.mem_cons_of_mem _ he)

variable [LawfulBEq κ]

theorem mem_entries_of_get? {m : Best κ} {k : κ} {c : Chain} (h : m.get? k = some c) :
    (k, c) ∈ m.entries := by
  rw [get?, Option.map_eq_some_iff] at h
  obtain ⟨e, he, rfl⟩ := h
  have hk : e.1 = k := by simpa using List.find?_some he
  rw [← hk]
  exact List.mem_of_find?_eq_some he

theorem has_iff_get? {m : Best κ} {k : κ} : m.Has k ↔ ∃ c, m.get? k = some c := by
  constructor
  · rintro ⟨c, hc⟩
    cases h : m.entries.find? (·.1 == k) with
    | none =>
      have := List.find?_eq_none.mp h _ hc
      simp at this
    | some e => exact ⟨e.2, by rw [get?, h]; rfl⟩
  · rintro ⟨c, hc⟩
    exact ⟨c, mem_entries_of_get? hc⟩

theorem get?_put_self (k : κ) (c : Chain) (es : List (κ × Chain)) :
    (⟨put k c es⟩ : Best κ).get? k = some c := by
  induction es with
  | nil => simp [get?, put]
  | cons d es ih =>
    rw [put]
    split
    · simp [get?]
    · next h =>
      simp only [get?, List.find?_cons, h]
      exact ih

theorem get?_put_of_ne {k k' : κ} (hk : k ≠ k') (c : Chain) (es : List (κ × Chain)) :
    (⟨put k c es⟩ : Best κ).get? k' = (⟨es⟩ : Best κ).get? k' := by
  induction es with
  | nil => simp [get?, put, hk]
  | cons d es ih =>
    rw [put]
    split
    · next h =>
      have hd : d.1 = k := by simpa using h
      simp [get?, hd, hk]
    · simp only [get?, List.find?_cons]
      split
      · rfl
      · exact ih

/-! ### One offer -/

theorem get?_offer_of_ne (m : Best κ) {k k' : κ} (hk : k ≠ k') (c : Chain) :
    (m.offer k c).get? k' = m.get? k' := by
  unfold offer
  split
  · exact get?_put_of_ne hk c m.entries
  · rfl

/-- An offer is held, or something at least as good is. -/
theorem get?_offer_self (m : Best κ) (k : κ) (c : Chain) :
    (better c (m.get? k) = true ∧ (m.offer k c).get? k = some c) ∨
      (better c (m.get? k) = false ∧ (m.offer k c).get? k = m.get? k) := by
  unfold offer
  cases hb : better c (m.get? k) with
  | true => exact Or.inl ⟨rfl, get?_put_self k c m.entries⟩
  | false => exact Or.inr ⟨rfl, rfl⟩

theorem covers_offer (m : Best κ) (k : κ) (c : Chain) : (m.offer k c).Covers k c := by
  rcases get?_offer_self m k c with ⟨-, h⟩ | ⟨hb, h⟩
  · exact ⟨c, h, isLE_compareChains_self c⟩
  · obtain ⟨d, hd, hle⟩ := better_eq_false_iff.mp hb
    exact ⟨d, h.trans hd, hle⟩

/-- What is covered stays covered. -/
theorem Covers.offer {m : Best κ} {k : κ} {c : Chain} (h : m.Covers k c) (k' : κ) (c' : Chain) :
    (m.offer k' c').Covers k c := by
  obtain ⟨d, hd, hle⟩ := h
  by_cases hk : k' = k
  · subst hk
    rcases get?_offer_self m k' c' with ⟨hb, h'⟩ | ⟨-, h'⟩
    · refine ⟨c', h', TransCmp.isLE_trans ?_ hle⟩
      have hlt : compareChains c' d = .lt := by simpa [better, hd] using hb
      rw [hlt]
      rfl
    · exact ⟨d, h'.trans hd, hle⟩
  · exact ⟨d, (get?_offer_of_ne m hk c').trans hd, hle⟩

theorem Covers.has {m : Best κ} {k : κ} {c : Chain} (h : m.Covers k c) : m.Has k := by
  obtain ⟨d, hd, -⟩ := h
  exact ⟨d, mem_entries_of_get? hd⟩

/-- A key is covered by the chain held for it. -/
theorem Has.covers {m : Best κ} {k : κ} (h : m.Has k) : ∃ c, m.Covers k c := by
  obtain ⟨c, hc⟩ := has_iff_get?.mp h
  exact ⟨c, c, hc, isLE_compareChains_self c⟩

theorem Has.offer {m : Best κ} {k : κ} (h : m.Has k) (k' : κ) (c' : Chain) :
    (m.offer k' c').Has k := by
  obtain ⟨c, hc⟩ := h.covers
  exact (hc.offer k' c').has

/-! ### Many offers -/

theorem Covers.offerAll {m : Best κ} {k : κ} {c : Chain} (h : m.Covers k c)
    (es : List (κ × Chain)) : (m.offerAll es).Covers k c := by
  induction es generalizing m with
  | nil => exact h
  | cons d es ih => exact ih (h.offer d.1 d.2)

theorem covers_offerAll (m : Best κ) {es : List (κ × Chain)} {k : κ} {c : Chain}
    (h : (k, c) ∈ es) : (m.offerAll es).Covers k c := by
  induction es generalizing m with
  | nil => exact absurd h List.not_mem_nil
  | cons d es ih =>
    rcases List.mem_cons.mp h with rfl | h
    · exact (covers_offer m k c).offerAll es
    · exact ih (m.offer d.1 d.2) h

theorem has_offerAll {m : Best κ} {es : List (κ × Chain)} {k : κ} :
    (m.offerAll es).Has k ↔ m.Has k ∨ ∃ c, (k, c) ∈ es := by
  constructor
  · rintro ⟨c, hc⟩
    rcases mem_offerAll hc with h | h
    · exact Or.inl ⟨c, h⟩
    · exact Or.inr ⟨c, h⟩
  · rintro (h | ⟨c, hc⟩)
    · obtain ⟨c, hc⟩ := h.covers
      exact (hc.offerAll es).has
    · exact (covers_offerAll m hc).has

/-! ### Joins -/

theorem coversAll_join (m other : Best κ) : (m.join other).CoversAll other := by
  intro k c h
  exact covers_offerAll m h

theorem CoversAll.has {m other : Best κ} (h : m.CoversAll other) {k : κ} (hk : other.Has k) :
    m.Has k := by
  obtain ⟨c, hc⟩ := hk
  exact (h k c hc).has

end Best

end Flow

end TaintFlow
