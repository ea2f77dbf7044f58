import Mathlib.Data.DFinsupp.WellFounded
import Mathlib.Data.Prod.Lex
import TaintFlow.Proofs.Flow.Chains
import TaintFlow.Proofs.Flow.Collections

/-!
# Better chains for ever

There is no infinite sequence of chains each of which is better than the one before, as long as
their steps are taken from a finite list.  Steps are compared by texts and integers, whose orders
are not well founded, and a complete chain replaces a truncated one however long it is.  So a chain
is weighed by whether steps were left out, then by its length, then by the calls it crosses, and
last by its steps, read as the digits of a number: the digit of a step is its rank in the list.

## Main definitions

* `Step.rank`, `rankValue` — the rank of a step, and the number that steps stand for.
* `Chain.Over` — a chain whose steps are taken from a list.
* `Chain.weight`, `weightOf` — the weight of a chain, and of what is held for a key.
* `Best.Improves` — a better chain, or one for a new key, is held.

## Main results

* `weight_lt_of_compareChains` — a better chain weighs less.
* `weightOf_lt_of_better`, `Best.weightOf_le_of_grows` — collections that get better weigh less.
-/

namespace TaintFlow.Flow

open Std (TransCmp OrientedCmp ReflCmp)

/-! ### Ranks of steps -/

/-- The rank of a step in an alphabet: how many steps of it come before. -/
def Step.rank (alphabet : List Step) (s : Step) : Nat :=
  alphabet.countP fun a => compareSteps a s == .lt

/-- The number whose digits are the ranks of steps. -/
def rankValue (alphabet : List Step) : List Step → Nat
  | [] => 0
  | s :: ss => s.rank alphabet * (alphabet.length + 1) ^ ss.length + rankValue alphabet ss

section

variable {alphabet : List Step}

theorem Step.rank_le (s : Step) : s.rank alphabet ≤ alphabet.length :=
  List.countP_le_length

theorem rank_eq_of_compareSteps {s t : Step} (h : compareSteps s t = .eq) :
    s.rank alphabet = t.rank alphabet := by
  refine List.countP_congr fun a _ => ?_
  rw [TransCmp.congr_right h]

/-- A step of the alphabet has a smaller rank than all steps that it comes before. -/
theorem rank_lt_of_compareSteps {s t : Step} (hs : s ∈ alphabet) (h : compareSteps s t = .lt) :
    s.rank alphabet < t.rank alphabet := by
  have hself : (compareSteps s s == .lt) = false := by
    have hrefl : compareSteps s s = .eq := ReflCmp.compare_self
    rw [hrefl]
    rfl
  have hother : (compareSteps s t == .lt) = true := by
    rw [h]
    rfl
  obtain ⟨front, rest, rfl⟩ := List.append_of_mem hs
  -- what comes before `s` comes before `t`, and `s` itself is one more
  have hmono : ∀ l : List Step, l.countP (fun a => compareSteps a s == .lt) ≤
      l.countP (fun a => compareSteps a t == .lt) := by
    intro l
    refine List.countP_mono_left fun a _ ha => ?_
    rw [beq_iff_eq] at ha ⊢
    exact TransCmp.lt_trans ha h
  have hfront := hmono front
  have hrest := hmono rest
  simp only [Step.rank, List.countP_append, List.countP_cons, hself, hother, if_true,
    Bool.false_eq_true, if_false]
  omega

theorem rankValue_lt (ss : List Step) :
    rankValue alphabet ss < (alphabet.length + 1) ^ ss.length := by
  induction ss with
  | nil => exact Nat.one_pos
  | cons s ss ih =>
    have hdigit : s.rank alphabet * (alphabet.length + 1) ^ ss.length ≤
        alphabet.length * (alphabet.length + 1) ^ ss.length :=
      Nat.mul_le_mul_right _ s.rank_le
    rw [rankValue, List.length_cons, Nat.pow_succ', Nat.add_mul, Nat.one_mul]
    omega

/-- Lists of steps that are not told apart stand for the same number. -/
theorem rankValue_eq_of_compareLists : ∀ {ss ts : List Step},
    compareLists compareSteps ss ts = .eq → rankValue alphabet ss = rankValue alphabet ts := by
  intro ss
  induction ss with
  | nil =>
    intro ts h
    cases ts with
    | nil => rfl
    | cons t ts => cases h
  | cons s ss ih =>
    intro ts h
    cases ts with
    | nil => cases h
    | cons t ts =>
      have hlength := congrArg List.length
        (map_eq_of_compareLists (fun _ _ h => fields_eq_of_compareSteps h) _ _ h)
      rw [List.length_map, List.length_map, List.length_cons, List.length_cons] at hlength
      rw [compareLists, Ordering.then_eq_eq] at h
      have hlength : ss.length = ts.length := by omega
      rw [rankValue, rankValue, rank_eq_of_compareSteps h.1, ih h.2, hlength]

/-- Of two lists with equally many steps the one that comes first stands for the smaller number. -/
theorem rankValue_lt_of_compareLists : ∀ {ss ts : List Step}, ss.length = ts.length →
    (∀ s ∈ ss, s ∈ alphabet) → compareLists compareSteps ss ts = .lt →
    rankValue alphabet ss < rankValue alphabet ts := by
  intro ss
  induction ss with
  | nil =>
    intro ts hlength _ h
    cases ts with
    | nil => cases h
    | cons t ts => cases hlength
  | cons s ss ih =>
    intro ts hlength hmem h
    cases ts with
    | nil => cases hlength
    | cons t ts =>
      have hlength : ss.length = ts.length := by simpa using hlength
      rw [compareLists, Ordering.then_eq_lt] at h
      rw [rankValue, rankValue, hlength]
      rcases h with hlt | ⟨heq, hlt⟩
      · -- the first digit decides
        have hrank : s.rank alphabet + 1 ≤ t.rank alphabet :=
          rank_lt_of_compareSteps (hmem s List.mem_cons_self) hlt
        have hdigit := Nat.mul_le_mul_right ((alphabet.length + 1) ^ ts.length) hrank
        have hvalue : rankValue alphabet ss < (alphabet.length + 1) ^ ts.length :=
          hlength ▸ rankValue_lt ss
        rw [Nat.add_mul, Nat.one_mul] at hdigit
        omega
      · have hvalue := ih hlength (fun s' hs' => hmem s' (List.mem_cons_of_mem _ hs')) hlt
        rw [rank_eq_of_compareSteps heq]
        omega

end

/-! ### Weights of chains -/

/-- All steps of a chain are taken from an alphabet. -/
def Chain.Over (alphabet : List Step) (c : Chain) : Prop :=
  ∀ s ∈ c.steps, s ∈ alphabet

/-- What chains weigh, one key after another; nothing at all weighs most. -/
abbrev Weight := WithTop (ℕ ×ₗ ℕ ×ₗ ℕ ×ₗ ℕ)

/-- The weight of a chain. -/
def Chain.weight (alphabet : List Step) (c : Chain) : ℕ ×ₗ ℕ ×ₗ ℕ ×ₗ ℕ :=
  toLex (c.truncated.toNat, toLex (c.length, toLex (c.depth, rankValue alphabet c.newestFirst)))

/-- The weight of what is held for a key. -/
def weightOf (alphabet : List Step) : Option Chain → Weight
  | none => ⊤
  | some c => c.weight alphabet

section

variable {alphabet : List Step} {c d : Chain}

theorem weight_eq_of_compareChains (h : compareChains c d = .eq) :
    c.weight alphabet = d.weight alphabet := by
  simp only [compareChains, Ordering.then_eq_eq, Nat.compare_eq_eq] at h
  obtain ⟨htruncated, hlength, hdepth, hsteps⟩ := h
  rw [Chain.weight, Chain.weight, eq_of_compareBool htruncated, hlength, hdepth,
    rankValue_eq_of_compareLists hsteps]

/-- **A better chain weighs less.** -/
theorem weight_lt_of_compareChains (hc : c.Over alphabet) (h : compareChains c d = .lt) :
    c.weight alphabet < d.weight alphabet := by
  simp only [compareChains, Ordering.then_eq_lt, Nat.compare_eq_lt, Nat.compare_eq_eq] at h
  rw [Chain.weight, Chain.weight, Prod.Lex.toLex_lt_toLex, Prod.Lex.toLex_lt_toLex,
    Prod.Lex.toLex_lt_toLex]
  rcases h with hlt | ⟨heq, hlt | ⟨hlength, hlt | ⟨hdepth, hlt⟩⟩⟩
  · exact Or.inl (Nat.compare_eq_lt.mp hlt)
  · exact Or.inr ⟨congrArg Bool.toNat (eq_of_compareBool heq), Or.inl hlt⟩
  · exact Or.inr ⟨congrArg Bool.toNat (eq_of_compareBool heq), Or.inr ⟨hlength, Or.inl hlt⟩⟩
  · refine Or.inr ⟨congrArg Bool.toNat (eq_of_compareBool heq), Or.inr ⟨hlength, Or.inr
      ⟨hdepth, rankValue_lt_of_compareLists hlength (fun s hs => ?_) hlt⟩⟩⟩
    exact hc s (List.mem_reverse.mpr hs)

theorem weight_le_of_isLE (hc : c.Over alphabet) (h : (compareChains c d).isLE) :
    c.weight alphabet ≤ d.weight alphabet := by
  cases hcmp : compareChains c d with
  | lt => exact le_of_lt (weight_lt_of_compareChains hc hcmp)
  | eq => exact le_of_eq (weight_eq_of_compareChains hcmp)
  | gt => rw [hcmp] at h; cases h

/-- What is better than what is held weighs less. -/
theorem weightOf_lt_of_better {current : Option Chain} (hc : c.Over alphabet)
    (h : better c current = true) : weightOf alphabet (some c) < weightOf alphabet current := by
  cases current with
  | none => exact WithTop.coe_lt_top _
  | some d =>
    rw [better, beq_iff_eq] at h
    exact WithTop.coe_lt_coe.mpr (weight_lt_of_compareChains hc h)

end

/-! ### Chains over an alphabet -/

namespace Chain

variable {alphabet : List Step} {c tail : Chain} {s : Step}

theorem Over.mono {alphabet' : List Step} (hc : c.Over alphabet)
    (hsub : ∀ s ∈ alphabet, s ∈ alphabet') : c.Over alphabet' :=
  fun s hs => hsub s (hc s hs)

theorem over_single (hs : s ∈ alphabet) : (single s).Over alphabet := by
  intro s' hs'
  rw [List.mem_singleton.mp hs']
  exact hs

theorem Over.push (hc : c.Over alphabet) (hs : s ∈ alphabet) : (c.push s).Over alphabet := by
  intro s' hs'
  rw [steps_push, List.mem_append, List.mem_singleton] at hs'
  rcases hs' with hs' | rfl
  · exact hc s' hs'
  · exact hs

theorem Over.last (hc : c.Over alphabet) : c.last ∈ alphabet :=
  hc c.last (List.mem_of_getLast? (getLast?_steps c))

theorem Over.first (hc : c.Over alphabet) : c.first ∈ alphabet :=
  hc c.first (List.mem_of_mem_head? (head?_steps c))

/-- A chain that crosses a call has the steps of both chains, the call and perhaps a mark. -/
theorem Over.compose (hc : c.Over alphabet) (htail : tail.Over alphabet) (scope : Scope)
    {call : Step} (hcall : call ∈ alphabet)
    (hmark : truncationMark call.line call.file call.detail ∈ alphabet) :
    (scope.compose c call tail).Over alphabet := by
  intro s hs
  rcases scope.compose_cases c call tail with ⟨-, hsteps, -⟩ | ⟨-, hsteps, -⟩
  · rw [hsteps, List.mem_append, List.mem_cons] at hs
    rcases hs with hs | rfl | hs
    · exact hc s hs
    · exact hcall
    · exact htail s hs
  · rw [hsteps, List.mem_append, List.mem_cons, List.mem_cons, List.mem_singleton] at hs
    rcases hs with hs | rfl | rfl | rfl
    · exact hc s hs
    · exact hcall
    · exact hmark
    · exact htail.last

theorem Over.lift (htail : tail.Over alphabet) (scope : Scope) {site : CallSite}
    (hmark : truncationMark site.line site.file site.name ∈ alphabet) :
    (scope.lift tail site).Over alphabet := by
  intro s hs
  rcases scope.lift_cases tail site with ⟨-, hsteps, -⟩ | ⟨-, hsteps, -⟩
  · rw [hsteps] at hs
    exact htail s hs
  · rw [hsteps, List.mem_cons, List.mem_cons, List.mem_singleton] at hs
    rcases hs with rfl | rfl | rfl
    · exact htail.first
    · exact hmark
    · exact htail.last

end Chain

/-! ### Collections that get better -/

theorem better_of_isLE {c d : Chain} {current : Option Chain} (h : better d current = true)
    (hle : (compareChains c d).isLE) : better c current = true := by
  cases current with
  | none => rfl
  | some e =>
    rw [better, beq_iff_eq] at h ⊢
    exact TransCmp.lt_of_isLE_of_lt hle h

namespace Best

variable {κ : Type} [BEq κ]

/-- A better chain than before is held for some key, or one for a new key. -/
def Improves (m m' : Best κ) : Prop :=
  ∃ k c, m'.get? k = some c ∧ better c (m.get? k) = true

theorem Improves.trans_grows {m m' m'' : Best κ} (h : m.Improves m') (h' : m'.Grows m'') :
    m.Improves m'' := by
  obtain ⟨k, c, hc, hbetter⟩ := h
  obtain ⟨d, hd, hle⟩ := h' k c ⟨c, hc, isLE_compareChains_self c⟩
  exact ⟨k, d, hd, better_of_isLE hbetter hle⟩

theorem Grows.trans_improves {m m' m'' : Best κ} (h : m.Grows m') (h' : m'.Improves m'') :
    m.Improves m'' := by
  obtain ⟨k, c, hc, hbetter⟩ := h'
  refine ⟨k, c, hc, ?_⟩
  cases hold : m.get? k with
  | none => rfl
  | some e =>
    obtain ⟨d, hd, hle⟩ := h k e ⟨e, hold, isLE_compareChains_self e⟩
    rw [hd, better, beq_iff_eq] at hbetter
    rw [better, beq_iff_eq]
    exact TransCmp.lt_of_lt_of_isLE hbetter hle

theorem weightOf_le_of_grows {alphabet : List Step} {m m' : Best κ} (h : m.Grows m') {k : κ}
    (hover : ∀ c, m'.get? k = some c → c.Over alphabet) :
    weightOf alphabet (m'.get? k) ≤ weightOf alphabet (m.get? k) := by
  cases hold : m.get? k with
  | none => exact le_top
  | some c =>
    obtain ⟨d, hd, hle⟩ := h k c ⟨c, hold, isLE_compareChains_self c⟩
    rw [hd]
    exact WithTop.coe_le_coe.mpr (weight_le_of_isLE (hover d hd) hle)

variable [LawfulBEq κ]

/-- Joining a collection that has something better is an improvement. -/
theorem improves_join {m other : Best κ} (h : m.improvedBy other = true) :
    m.Improves (m.join other) := by
  obtain ⟨⟨k, c⟩, hmem, hbetter⟩ := List.any_eq_true.mp h
  obtain ⟨d, hd, hle⟩ := coversAll_join m other k c hmem
  exact ⟨k, d, hd, better_of_isLE hbetter hle⟩

end Best

end TaintFlow.Flow
