import TaintFlow.Text.Order

/-!
# The laws of orders, sorting and distinct elements

Every order of keys is a total preorder, and orders that compare one key after another are built
from such orders.  Sorting and removing repetitions keep the elements of a list.

## Main results

* `transCmp_compareLists`, `transCmp_compareText`, `transCmp_compareInt`, `transCmp_compareBool` —
  the orders of keys are transitive and total.
* `eq_of_compareText`, `eq_of_compareBool` — keys that are not told apart are equal.
* `mem_firsts`, `mem_sortBy` — the elements of a list without repetitions, and of a sorted list.
* `pairwise_sortBy` — a sorted list is ascending.
* `pairwise_sortBy_of_pairwise`, `filter_sortBy` — sorting is stable.
-/

namespace TaintFlow

open Std (TransCmp OrientedCmp)

/-! ### Orders -/

/-- Comparing by a key keeps a comparison transitive. -/
theorem transCmp_onKey {α β : Type} (cmp : β → β → Ordering) [TransCmp cmp] (key : α → β) :
    TransCmp fun a b => cmp (key a) (key b) where
  eq_swap := OrientedCmp.eq_swap
  isLE_trans := TransCmp.isLE_trans

/-- Comparing by one comparison after another keeps them transitive. -/
theorem transCmp_then {α : Type} {f g : α → α → Ordering} (hf : TransCmp f) (hg : TransCmp g) :
    TransCmp fun a b => (f a b).then (g a b) :=
  inferInstanceAs (TransCmp (compareLex f g))

theorem compareLists_eq_compareLex {α : Type} (cmp : α → α → Ordering) (as bs : List α) :
    compareLists cmp as bs = List.compareLex cmp as bs := by
  induction as generalizing bs with
  | nil => cases bs <;> rfl
  | cons a as ih =>
    cases bs with
    | nil => rfl
    | cons b bs => rw [compareLists, List.compareLex_cons_cons, ih]

theorem compareChars_eq_compareLists (as bs : List Char) :
    compareChars as bs = compareLists (fun a b => compare a.toNat b.toNat) as bs := by
  induction as generalizing bs with
  | nil => cases bs <;> rfl
  | cons a as ih =>
    cases bs with
    | nil => rfl
    | cons b bs => rw [compareChars, compareLists, ih]

instance transCmp_compareLists {α : Type} (cmp : α → α → Ordering) [TransCmp cmp] :
    TransCmp (compareLists cmp) := by
  have h : compareLists cmp = List.compareLex cmp :=
    funext fun as => funext fun bs => compareLists_eq_compareLex cmp as bs
  rw [h]
  infer_instance

instance transCmp_compareText : TransCmp compareText := by
  have : TransCmp fun a b : Char => compare a.toNat b.toNat := transCmp_onKey compare Char.toNat
  have h : compareText = fun a b => compareLists (fun a b : Char => compare a.toNat b.toNat)
      a.toList b.toList :=
    funext fun a => funext fun b => compareChars_eq_compareLists a.toList b.toList
  rw [h]
  exact transCmp_onKey _ String.toList

instance transCmp_compareInt : TransCmp compareInt :=
  inferInstanceAs (TransCmp fun a b : Int => compare a b)

instance transCmp_compareBool : TransCmp compareBool :=
  transCmp_onKey compare Bool.toNat

/-- Lists that a comparison does not tell apart show the same, if their elements do. -/
theorem map_eq_of_compareLists {α β : Type} {cmp : α → α → Ordering} {f : α → β}
    (hcmp : ∀ a b, cmp a b = .eq → f a = f b) :
    ∀ as bs : List α, compareLists cmp as bs = .eq → as.map f = bs.map f := by
  intro as
  induction as with
  | nil =>
    intro bs h
    cases bs with
    | nil => rfl
    | cons b bs => cases h
  | cons a as ih =>
    intro bs h
    cases bs with
    | nil => cases h
    | cons b bs =>
      rw [compareLists, Ordering.then_eq_eq] at h
      rw [List.map_cons, List.map_cons, hcmp a b h.1, ih bs h.2]

theorem eq_of_compareText {a b : String} (h : compareText a b = .eq) : a = b := by
  rw [compareText, compareChars_eq_compareLists] at h
  have heq := map_eq_of_compareLists (f := id)
    (fun x y hxy => Char.toNat_inj.mp (Nat.compare_eq_eq.mp hxy)) _ _ h
  rw [List.map_id, List.map_id] at heq
  exact String.toList_inj.mp heq

theorem eq_of_compareBool {a b : Bool} (h : compareBool a b = .eq) : a = b := by
  revert h
  revert a b
  decide

/-! ### Distinct elements and sorting -/

section

variable {α : Type}

theorem mem_addNew [BEq α] [LawfulBEq α] {l : List α} {a b : α} :
    b ∈ addNew l a ↔ b ∈ l ∨ b = a := by
  unfold addNew
  split
  · next h =>
    constructor
    · exact Or.inl
    · rintro (h' | rfl)
      · exact h'
      · simpa using h
  · simp

theorem mem_foldl_addNew [BEq α] [LawfulBEq α] {l kept : List α} {a : α} :
    a ∈ l.foldl addNew kept ↔ a ∈ kept ∨ a ∈ l := by
  induction l generalizing kept with
  | nil => simp
  | cons b l ih => rw [List.foldl_cons, ih, mem_addNew, List.mem_cons, or_assoc]

theorem mem_firsts [BEq α] [LawfulBEq α] {l : List α} {a : α} : a ∈ firsts l ↔ a ∈ l := by
  rw [firsts, mem_foldl_addNew]
  simp

theorem mem_sortBy {cmp : α → α → Ordering} {l : List α} {a : α} : a ∈ sortBy cmp l ↔ a ∈ l := by
  rw [sortBy, List.mem_mergeSort]

theorem isAscending_total (cmp : α → α → Ordering) [TransCmp cmp] (a b : α) :
    (isAscending cmp a b || isAscending cmp b a) = true := by
  have hswap : (cmp b a).isLE = (cmp a b).isGE := OrientedCmp.isGE_eq_isLE.symm
  rw [isAscending, isAscending, hswap]
  cases cmp a b <;> rfl

theorem isAscending_trans (cmp : α → α → Ordering) [TransCmp cmp] (a b c : α)
    (hab : isAscending cmp a b = true) (hbc : isAscending cmp b c = true) :
    isAscending cmp a c = true :=
  TransCmp.isLE_trans hab hbc

theorem pairwise_sortBy (cmp : α → α → Ordering) [TransCmp cmp] (l : List α) :
    (sortBy cmp l).Pairwise fun a b => (cmp a b).isLE = true :=
  List.pairwise_mergeSort (isAscending_trans cmp) (isAscending_total cmp) l

/-- An element is put right after those that it may not stand before. -/
theorem exists_sortBy_cons (cmp : α → α → Ordering) [TransCmp cmp] (a : α) (l : List α) :
    ∃ front back, sortBy cmp (a :: l) = front ++ a :: back ∧ sortBy cmp l = front ++ back ∧
      (∀ b ∈ front, isAscending cmp a b = false) ∧ ∀ b ∈ back, isAscending cmp a b = true := by
  obtain ⟨front, back, hcons, hl, hfront⟩ :=
    List.mergeSort_cons (isAscending_trans cmp) (isAscending_total cmp) a l
  refine ⟨front, back, hcons, hl, fun b hb => by simpa using hfront b hb, ?_⟩
  have hsorted := pairwise_sortBy cmp (a :: l)
  rw [sortBy, hcons, List.pairwise_append, List.pairwise_cons] at hsorted
  exact hsorted.2.1.1

/-- **Sorting keeps the order of elements that compare equal**: they are related as they were. -/
theorem pairwise_sortBy_of_pairwise (cmp : α → α → Ordering) [TransCmp cmp] {R : α → α → Prop}
    {l : List α} (h : l.Pairwise R) :
    (sortBy cmp l).Pairwise fun a b => cmp a b = .lt ∨ cmp a b = .eq ∧ R a b := by
  induction l with
  | nil => simp [sortBy]
  | cons a l ih =>
    obtain ⟨ha, hl⟩ := List.pairwise_cons.mp h
    obtain ⟨front, back, hcons, hsorted, hfront, hback⟩ := exists_sortBy_cons cmp a l
    have hrest := ih hl
    rw [hsorted, List.pairwise_append] at hrest
    obtain ⟨hpfront, hpback, hcross⟩ := hrest
    rw [hcons, List.pairwise_append, List.pairwise_cons]
    refine ⟨hpfront, ⟨fun b hb => ?_, hpback⟩, fun b hb c hc => ?_⟩
    · -- what comes after the new element was after it before
      have hmem : b ∈ l := mem_sortBy.mp (hsorted ▸ List.mem_append_right front hb)
      have hle := hback b hb
      rw [isAscending, Ordering.isLE_iff_eq_lt_or_eq_eq] at hle
      exact hle.imp_right fun heq => ⟨heq, ha b hmem⟩
    · rcases List.mem_cons.mp hc with rfl | hc
      · have hgt : cmp c b = .gt := by
          have hnot := hfront b hb
          rw [isAscending] at hnot
          cases hcmp : cmp c b <;> simp [hcmp] at hnot ⊢
        exact Or.inl (OrientedCmp.lt_of_gt hgt)
      · exact hcross b hb c hc

/-- Sorting commutes with a function that the comparison looks through. -/
theorem map_sortBy {β : Type} (cmp : β → β → Ordering) (f : α → β) (l : List α) :
    (sortBy (fun a b => cmp (f a) (f b)) l).map f = sortBy cmp (l.map f) :=
  List.map_mergeSort fun _ _ _ _ => rfl

/-- A list is split in one way into elements that fail a test and elements that pass it. -/
theorem append_inj_of_forall {q : α → Bool} {l₁ l₂ m₁ m₂ : List α} (h : l₁ ++ l₂ = m₁ ++ m₂)
    (hl₁ : ∀ a ∈ l₁, q a = false) (hl₂ : ∀ a ∈ l₂, q a = true) (hm₁ : ∀ a ∈ m₁, q a = false)
    (hm₂ : ∀ a ∈ m₂, q a = true) : l₁ = m₁ ∧ l₂ = m₂ := by
  have hback : ∀ l₁ l₂ : List α, (∀ a ∈ l₁, q a = false) → (∀ a ∈ l₂, q a = true) →
      (l₁ ++ l₂).filter q = l₂ := by
    intro l₁ l₂ hl₁ hl₂
    rw [List.filter_append, List.filter_eq_nil_iff.mpr fun a ha => by rw [hl₁ a ha]; decide,
      List.filter_eq_self.mpr hl₂, List.nil_append]
  have hsame : l₂ = m₂ := by
    rw [← hback l₁ l₂ hl₁ hl₂, h, hback m₁ m₂ hm₁ hm₂]
  subst hsame
  exact ⟨List.append_cancel_right h, rfl⟩

/-- **Sorting is stable**: elements that are left out do not change the order of the others. -/
theorem filter_sortBy (cmp : α → α → Ordering) [TransCmp cmp] (q : α → Bool) (l : List α) :
    (sortBy cmp l).filter q = sortBy cmp (l.filter q) := by
  induction l with
  | nil => rw [List.filter_nil, sortBy, List.mergeSort_nil, List.filter_nil]
  | cons a l ih =>
    obtain ⟨front, back, hcons, hl, hfront, hback⟩ := exists_sortBy_cons cmp a l
    rw [hl, List.filter_append] at ih
    rw [hcons, List.filter_append, List.filter_cons, List.filter_cons]
    split
    · -- both lists are split at the element in the same way
      obtain ⟨front', back', hcons', hl', hfront', hback'⟩ :=
        exists_sortBy_cons cmp a (l.filter q)
      obtain ⟨rfl, rfl⟩ := append_inj_of_forall (ih.trans hl')
        (fun b hb => hfront b (List.mem_filter.mp hb).1)
        (fun b hb => hback b (List.mem_filter.mp hb).1) hfront' hback'
      exact hcons'.symm
    · exact ih

end

end TaintFlow
