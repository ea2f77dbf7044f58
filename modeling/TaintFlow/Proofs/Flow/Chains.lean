import Mathlib.Data.List.Basic
import TaintFlow.Proofs.Flow.Rules

/-!
# Steps of chains

Chains by their steps, oldest first: what pushing a step, appending a chain, and crossing a call
make of them.  A chain that crosses a call keeps all steps or marks where it leaves some out; in
both cases it starts as the chain of the caller does and ends as the chain of the callee does.

## Main results

* `Chain.steps_push`, `Chain.steps_append` — the steps of longer chains.
* `Scope.compose_cases`, `Scope.lift_cases` — chains that cross a call, with all steps or without.
-/

namespace TaintFlow.Flow

namespace Chain

@[simp] theorem steps_single (s : Step) : (single s).steps = [s] := rfl

@[simp] theorem steps_push (c : Chain) (s : Step) : (c.push s).steps = c.steps ++ [s] := by
  rw [steps, newestFirst, List.reverse_cons]
  rfl

@[simp] theorem steps_append (c tail : Chain) (depth : Nat) :
    (c.append tail depth).steps = c.steps ++ tail.steps := by
  simp [steps, newestFirst, append]

theorem getLast?_steps (c : Chain) : c.steps.getLast? = some c.last := by
  rw [steps, List.getLast?_reverse, newestFirst, List.head?_cons]

theorem head?_steps (c : Chain) : c.steps.head? = some c.first := by
  rw [steps, List.head?_reverse, newestFirst, List.getLast?_cons]
  rfl

/-- A chain starts with its first step. -/
theorem steps_eq_cons (c : Chain) : c.steps = c.first :: c.steps.tail :=
  List.eq_cons_of_mem_head? (head?_steps c)

/-- The first step is that of any chain whose steps start the same way. -/
theorem first_eq_of_steps {c d : Chain} {rest : List Step} (h : d.steps = c.steps ++ rest) :
    d.first = c.first := by
  have hd := head?_steps d
  rw [h, steps_eq_cons c, List.cons_append, List.head?_cons] at hd
  exact (Option.some.inj hd).symm

theorem first_push (c : Chain) (s : Step) : (c.push s).first = c.first :=
  first_eq_of_steps (steps_push c s)

end Chain

namespace Scope

@[simp] theorem kind_stepAt (s : Scope) (block pos : Nat) (line : Int) (kind : StepKind)
    (file detail : String) : (s.stepAt block pos line kind file detail).kind = kind := rfl

@[simp] theorem kind_paramStep (s : Scope) (name : String) :
    (s.paramStep name).kind = .parameter := rfl

@[simp] theorem kind_endpointStep (s : Scope) (src : Discovery.Source) :
    (s.endpointStep src).kind = .source := rfl

/-- A chain that crosses a call keeps all steps of the callee, or only the last one after a mark. -/
theorem compose_cases (s : Scope) (caller : Chain) (call : Step) (tail : Chain) :
    (caller.depth + tail.depth + 1 ≤ s.maxHops ∧
      (s.compose caller call tail).steps = caller.steps ++ call :: tail.steps ∧
      (s.compose caller call tail).depth = caller.depth + tail.depth + 1 ∧
      (s.compose caller call tail).truncated = (caller.truncated || tail.truncated)) ∨
    (s.maxHops < caller.depth + tail.depth + 1 ∧
      (s.compose caller call tail).steps =
        caller.steps ++ [call, truncationMark call.line call.file call.detail, tail.last] ∧
      (s.compose caller call tail).depth = s.maxHops + 1 ∧
      (s.compose caller call tail).truncated = true) := by
  by_cases h : caller.depth + tail.depth + 1 ≤ s.maxHops
  · refine Or.inl ⟨h, ?_⟩
    simp only [compose, h, if_true]
    refine ⟨?_, rfl, rfl⟩
    rw [Chain.steps_append, Chain.steps_push, List.append_assoc]
    rfl
  · refine Or.inr ⟨Nat.lt_of_not_le h, ?_⟩
    simp only [compose, h, if_false]
    refine ⟨?_, trivial, trivial⟩
    show (((caller.push call).push _).push tail.last).steps = _
    simp

/-- A chain of a callee seen from its caller keeps all steps, or only the first and last ones
around a mark. -/
theorem lift_cases (s : Scope) (tail : Chain) (site : CallSite) :
    (tail.depth + 1 ≤ s.maxHops ∧ (s.lift tail site).steps = tail.steps ∧
      (s.lift tail site).depth = tail.depth + 1 ∧
      (s.lift tail site).truncated = tail.truncated) ∨
    (s.maxHops < tail.depth + 1 ∧
      (s.lift tail site).steps =
        [tail.first, truncationMark site.line site.file site.name, tail.last] ∧
      (s.lift tail site).depth = s.maxHops + 1 ∧ (s.lift tail site).truncated = true) := by
  by_cases h : tail.depth + 1 ≤ s.maxHops
  · refine Or.inl ⟨h, ?_⟩
    simp only [lift, h, if_true]
    exact ⟨rfl, trivial, trivial⟩
  · refine Or.inr ⟨Nat.lt_of_not_le h, ?_⟩
    simp only [lift, h, if_false]
    exact ⟨rfl, trivial, trivial⟩

theorem last_compose (s : Scope) (caller : Chain) (call : Step) (tail : Chain) :
    (s.compose caller call tail).last = tail.last := by
  unfold compose
  dsimp only
  split <;> rfl

theorem last_lift (s : Scope) (tail : Chain) (site : CallSite) :
    (s.lift tail site).last = tail.last := by
  unfold lift
  dsimp only
  split <;> rfl

theorem first_compose (s : Scope) (caller : Chain) (call : Step) (tail : Chain) :
    (s.compose caller call tail).first = caller.first := by
  rcases s.compose_cases caller call tail with ⟨-, h, -⟩ | ⟨-, h, -⟩
  · exact Chain.first_eq_of_steps h
  · exact Chain.first_eq_of_steps h

theorem first_lift (s : Scope) (tail : Chain) (site : CallSite) :
    (s.lift tail site).first = tail.first := by
  have h : (s.lift tail site).steps.head? = some tail.first := by
    rcases s.lift_cases tail site with ⟨-, h, -⟩ | ⟨-, h, -⟩
    · rw [h, Chain.head?_steps]
    · rw [h, List.head?_cons]
  rw [Chain.head?_steps] at h
  exact Option.some.inj h

end Scope

end TaintFlow.Flow
