import TaintFlow.Flow.Transfer
import TaintFlow.Proofs.Flow.Best

/-!
# The order of chains, key by key

What the order of chains compares, and what it makes of longer chains.  Chains that it does not
tell apart show the same: kinds of steps are told apart by their names.  One more step on two
chains keeps their order.  A call keeps the order of chains that are alike as to the hop limit; of
other chains it need not, as the better one may be the one that goes beyond the limit.

## Main definitions

* `Step.fields`, `Chain.view` — what a step and a chain show.
* `Scope.Alike` — two chains that stay within the hop limit, or go beyond it, together.

## Main results

* `isLE_compareChains_iff` — the order of chains, key by key.
* `view_eq_of_isLE`, `compareChains_eq_of_view` — chains that are at least as good as each other
  are those that show the same.
* `compareChains_push`, `Scope.Alike.isLE_compose` — which longer chains keep the order.
-/

namespace TaintFlow

open Std (ReflCmp)

/-- A common start does not count. -/
theorem compareLists_append {α : Type} {cmp : α → α → Ordering} [ReflCmp cmp] (l as bs : List α) :
    compareLists cmp (l ++ as) (l ++ bs) = compareLists cmp as bs := by
  induction l with
  | nil => rfl
  | cons a l ih =>
    have hself : cmp a a = .eq := ReflCmp.compare_self
    rw [List.cons_append, List.cons_append, compareLists, hself, ih]
    rfl

/-- Lists whose elements show the same are not told apart. -/
theorem compareLists_eq_of_map {α β : Type} {cmp : α → α → Ordering} {f : α → β}
    (hcmp : ∀ a b, f a = f b → cmp a b = .eq) :
    ∀ as bs : List α, as.map f = bs.map f → compareLists cmp as bs = .eq := by
  intro as
  induction as with
  | nil =>
    intro bs h
    cases bs with
    | nil => rfl
    | cons b bs => cases h
  | cons a as ih =>
    intro bs h
    cases bs with
    | nil => cases h
    | cons b bs =>
      rw [List.map_cons, List.map_cons, List.cons.injEq] at h
      rw [compareLists, hcmp a b h.1, ih bs h.2]
      rfl

namespace Flow

/-! ### What chains show -/

/-- What a step shows: all its fields, its kind by its name. -/
def Step.fields (s : Step) : String × Int × Int × Int × Int × String × String :=
  (s.kind.name, s.function, s.block, s.position, s.line, s.file, s.detail)

/-- What a chain shows: whether steps were left out, how many calls it crosses, and its steps. -/
def Chain.view (c : Chain) : Bool × Nat × List (String × Int × Int × Int × Int × String × String) :=
  (c.truncated, c.depth, c.newestFirst.map Step.fields)

/-- Steps that the order does not tell apart show the same. -/
theorem fields_eq_of_compareSteps {a b : Step} (h : compareSteps a b = .eq) :
    a.fields = b.fields := by
  simp only [compareSteps, Ordering.then_eq_eq, compareInt, Int.compare_eq_eq] at h
  obtain ⟨hkind, hfunction, hblock, hposition, hline, hfile, hdetail⟩ := h
  rw [Step.fields, eq_of_compareText hkind, hfunction, hblock, hposition, hline,
    eq_of_compareText hfile, eq_of_compareText hdetail]
  rfl

theorem view_eq_of_compareChains {c d : Chain} (h : compareChains c d = .eq) :
    c.view = d.view := by
  simp only [compareChains, Ordering.then_eq_eq, Nat.compare_eq_eq] at h
  obtain ⟨htruncated, -, hdepth, hsteps⟩ := h
  have hfields : c.newestFirst.map Step.fields = d.newestFirst.map Step.fields :=
    map_eq_of_compareLists (fun _ _ h => fields_eq_of_compareSteps h) _ _ hsteps
  rw [Chain.view, eq_of_compareBool htruncated, hdepth, hfields]
  rfl

/-- **Chains that are at least as good as each other show the same.** -/
theorem view_eq_of_isLE {c d : Chain} (h : (compareChains c d).isLE)
    (h' : (compareChains d c).isLE) : c.view = d.view := by
  refine view_eq_of_compareChains ?_
  rw [← Std.OrientedCmp.isGE_iff_isLE] at h'
  exact Ordering.eq_eq_of_isLE_of_isGE h h'

theorem compareSteps_eq_of_fields {a b : Step} (h : a.fields = b.fields) :
    compareSteps a b = .eq := by
  have hself : compareSteps b b = .eq := Std.ReflCmp.compare_self
  simp only [Step.fields, Prod.mk.injEq] at h
  obtain ⟨hkind, hfunction, hblock, hposition, hline, hfile, hdetail⟩ := h
  rw [compareSteps, hkind, hfunction, hblock, hposition, hline, hfile, hdetail]
  exact hself

/-- Chains that show the same are not told apart. -/
theorem compareChains_eq_of_view {c d : Chain} (h : c.view = d.view) :
    compareChains c d = .eq := by
  simp only [Chain.view, Prod.mk.injEq] at h
  obtain ⟨htruncated, hdepth, hsteps⟩ := h
  have hlength : c.length = d.length := by
    have := congrArg List.length hsteps
    rw [List.length_map, List.length_map] at this
    exact this
  have hflag : compareBool d.truncated d.truncated = .eq := Std.ReflCmp.compare_self
  rw [compareChains, htruncated, hlength, hdepth, hflag,
    compareLists_eq_of_map (fun _ _ => compareSteps_eq_of_fields) _ _ hsteps,
    Nat.compare_eq_eq.mpr rfl, Nat.compare_eq_eq.mpr rfl]
  rfl

theorem isLE_of_view {c d : Chain} (h : c.view = d.view) : (compareChains c d).isLE :=
  Ordering.isLE_of_eq_eq (compareChains_eq_of_view h)

/-! ### The order, key by key -/

/-- **The order of chains**: complete before truncated, then shorter, then fewer calls, then by the
steps. -/
theorem isLE_compareChains_iff {c d : Chain} : (compareChains c d).isLE ↔
    (c.truncated = false ∧ d.truncated = true) ∨ c.truncated = d.truncated ∧
      (c.length < d.length ∨ c.length = d.length ∧
        (c.depth < d.depth ∨ c.depth = d.depth ∧
          (compareLists compareSteps c.newestFirst d.newestFirst).isLE)) := by
  have hlt : compareBool c.truncated d.truncated = .lt ↔
      c.truncated = false ∧ d.truncated = true := by
    cases c.truncated <;> cases d.truncated <;> decide
  have heq : compareBool c.truncated d.truncated = .eq ↔ c.truncated = d.truncated := by
    cases c.truncated <;> cases d.truncated <;> decide
  rw [compareChains, Ordering.isLE_then_iff_or, Ordering.isLE_then_iff_or,
    Ordering.isLE_then_iff_or, hlt, heq, Nat.compare_eq_lt, Nat.compare_eq_eq, Nat.compare_eq_lt,
    Nat.compare_eq_eq]

/-- What is at least as good as a complete chain is complete. -/
theorem not_truncated_of_isLE {c d : Chain} (h : (compareChains c d).isLE)
    (hd : d.truncated = false) : c.truncated = false := by
  rcases isLE_compareChains_iff.mp h with ⟨hc, -⟩ | ⟨heq, -⟩
  · exact hc
  · rw [heq, hd]

/-- What is at least as good as a complete chain is shorter, or crosses no more calls. -/
theorem length_lt_or_depth_le_of_isLE {c d : Chain} (h : (compareChains c d).isLE)
    (hd : d.truncated = false) : c.length < d.length ∨ c.depth ≤ d.depth := by
  rcases isLE_compareChains_iff.mp h with ⟨-, hd'⟩ | ⟨-, hlt | ⟨-, hlt | ⟨heq, -⟩⟩⟩
  · rw [hd] at hd'
    cases hd'
  · exact Or.inl hlt
  · exact Or.inr (Nat.le_of_lt hlt)
  · exact Or.inr (Nat.le_of_eq heq)

/-! ### Longer chains -/

/-- **One more step does not change how chains compare.** -/
theorem compareChains_push (c d : Chain) (s : Step) :
    compareChains (c.push s) (d.push s) = compareChains c d := by
  have hsteps : compareLists compareSteps (c.push s).newestFirst (d.push s).newestFirst =
      compareLists compareSteps c.newestFirst d.newestFirst :=
    compareLists_append [s] c.newestFirst d.newestFirst
  have hlength : compare (c.push s).length (d.push s).length = compare c.length d.length := by
    show compare (c.length + 1) (d.length + 1) = compare c.length d.length
    rw [Nat.compare_eq_ite_lt, Nat.compare_eq_ite_lt]
    simp only [Nat.add_lt_add_iff_right]
  rw [compareChains, hsteps, hlength]
  rfl

/-- One more step keeps the order of chains. -/
theorem isLE_push {c d : Chain} (h : (compareChains c d).isLE) (s : Step) :
    (compareChains (c.push s) (d.push s)).isLE := by
  rwa [compareChains_push]

/-- A common continuation keeps the order of chains that are equally complete. -/
theorem isLE_append {c d : Chain} (h : (compareChains c d).isLE)
    (htruncated : c.truncated = d.truncated) (tail : Chain) (n : Nat) :
    (compareChains (c.append tail (c.depth + n)) (d.append tail (d.depth + n))).isLE := by
  have hsteps : compareLists compareSteps (c.append tail (c.depth + n)).newestFirst
        (d.append tail (d.depth + n)).newestFirst =
      compareLists compareSteps c.newestFirst d.newestFirst :=
    compareLists_append tail.newestFirst c.newestFirst d.newestFirst
  have hlength : ∀ (c : Chain) (depth : Nat),
      (c.append tail depth).length = c.length + tail.length := by
    intro c depth
    simp only [Chain.length, Chain.append, Chain.newestFirst, List.length_append, List.length_cons]
    omega
  have hdepth : ∀ (c : Chain) (depth : Nat), (c.append tail depth).depth = depth := fun _ _ => rfl
  have hflag : (c.append tail (c.depth + n)).truncated =
      (d.append tail (d.depth + n)).truncated := by
    simp only [Chain.append, htruncated]
  rw [isLE_compareChains_iff] at h ⊢
  rw [hsteps, hlength, hlength, hdepth, hdepth]
  refine Or.inr ⟨hflag, ?_⟩
  rcases h with ⟨hc, hd⟩ | ⟨-, hlt | ⟨heq, hlt | ⟨heq', hle⟩⟩⟩
  · rw [hc, hd] at htruncated
    cases htruncated
  · exact Or.inl (by omega)
  · exact Or.inr ⟨by omega, Or.inl (by omega)⟩
  · exact Or.inr ⟨by omega, Or.inr ⟨by omega, hle⟩⟩

/-- Two chains are alike as to the hop limit when a callee goes on from them by a third one: they
are equally complete, and they cross equally many calls or neither goes beyond the limit. -/
def Scope.Alike (s : Scope) (tail c d : Chain) : Prop :=
  c.truncated = d.truncated ∧
    (c.depth = d.depth ∨ c.depth + tail.depth < s.maxHops ∧ d.depth + tail.depth < s.maxHops)

/-- **A call keeps the order of chains that are alike as to the hop limit.** -/
theorem Scope.Alike.isLE_compose {s : Scope} {tail c d : Chain} (halike : s.Alike tail c d)
    (h : (compareChains c d).isLE) (call : Step) :
    (compareChains (s.compose c call tail) (s.compose d call tail)).isLE := by
  obtain ⟨htruncated, hdepth⟩ := halike
  have hcut : c.depth + tail.depth + 1 ≤ s.maxHops ↔ d.depth + tail.depth + 1 ≤ s.maxHops := by
    omega
  unfold compose
  dsimp only
  by_cases hc : c.depth + tail.depth + 1 ≤ s.maxHops
  · rw [if_pos hc, if_pos (hcut.mp hc), Nat.add_assoc, Nat.add_assoc]
    exact isLE_append (isLE_push h call) htruncated tail (tail.depth + 1)
  · -- all that differs is what stands before the call
    rw [if_neg hc, if_neg fun hd => hc (hcut.mpr hd)]
    have hpush := isLE_push (isLE_push (isLE_push h call)
      (truncationMark call.line call.file call.detail)) tail.last
    rw [isLE_compareChains_iff] at hpush ⊢
    rcases hpush with ⟨hc', hd'⟩ | ⟨-, hlt | ⟨heq, hlt | ⟨-, hle⟩⟩⟩
    · have hne : c.truncated ≠ d.truncated := by
        have hc' : c.truncated = false := hc'
        have hd' : d.truncated = true := hd'
        simp [hc', hd']
      exact absurd htruncated hne
    · exact Or.inr ⟨rfl, Or.inl hlt⟩
    · have hlt : c.depth < d.depth := hlt
      omega
    · exact Or.inr ⟨rfl, Or.inr ⟨heq, Or.inr ⟨rfl, hle⟩⟩⟩

end Flow

end TaintFlow
