import TaintFlow.Proofs.Flow.Executable

/-!
# Calls and returns along a chain

The calls and returns of a chain that no steps were left out of are bracketed: a return closes the
innermost call that is open, leaves the function which that call entered, and leads to the
assignment that takes the result, at the very place of the call.  Returns that close no call stand
before all calls that stay open, and the depth of the chain counts the calls and these returns.

A chain that stems from a parameter has no such returns: taint can only leave a function by a
return that no call matches when it arose inside.  So the chains of parameters can be put between a
call and the assignment of its result, and this is how all brackets come about.

## Main definitions

* `Brackets`, `Brackets.scan` — the calls and returns of steps, matched with a stack of open calls.
* `Returns steps i j` — the return at position `j` matches the call at position `i` in all respects.
* `Descends` — steps without a return that closes no call; `Level` — and without an open call.
* `Rises` — steps without an open call.
* `Chain.Limited` — depth, mark and flag agree on whether steps were left out.

## Main results

* `Program.Derives.limited` — depth, mark and flag agree on all derived chains.
* `Program.Derives.bracketed` — derived chains without left out steps are bracketed.
* `Program.bracketed_flows` — both of the chains of all flows.
-/

namespace TaintFlow.Flow

open Facts (Cache)
open Discovery (Source Sink)

/-! ### Matching calls and returns -/

/-- The calls and returns of a list of steps, by position. -/
structure Brackets where
  /-- The calls that have not returned, innermost first. -/
  opened : List Nat := []
  /-- The calls that have returned, with their returns. -/
  pairs : List (Nat × Nat) := []
  /-- The returns that close no call. -/
  stray : List Nat := []
  deriving DecidableEq, Repr

namespace Brackets

/-- Goes on with the step at position `n`.  A return closes the innermost call that is open. -/
def next (br : Brackets) (n : Nat) (s : Step) : Brackets :=
  match s.kind, br.opened with
  | .call, _ => { br with opened := n :: br.opened }
  | .ret, [] => { br with stray := br.stray ++ [n] }
  | .ret, i :: rest => { br with opened := rest, pairs := br.pairs ++ [(i, n)] }
  | _, _ => br

/-- Goes on with steps, the first one having position `n`. -/
def scan (br : Brackets) (n : Nat) : List Step → Brackets
  | [] => br
  | s :: l => (br.next n s).scan (n + 1) l

/-- The calls and returns of a list of steps. -/
def ofSteps (l : List Step) : Brackets :=
  ({} : Brackets).scan 0 l

theorem scan_append (br : Brackets) (n : Nat) (l l' : List Step) :
    br.scan n (l ++ l') = (br.scan n l).scan (n + l.length) l' := by
  induction l generalizing br n with
  | nil => rfl
  | cons s l ih =>
    rw [List.cons_append, scan, ih, scan, List.length_cons]
    congr 1
    omega

theorem next_call (br : Brackets) (n : Nat) {s : Step} (hs : s.kind = .call) :
    br.next n s = { br with opened := n :: br.opened } := by
  simp [next, hs]

theorem next_ret {br : Brackets} {i : Nat} {rest : List Nat} (n : Nat) {s : Step}
    (hs : s.kind = .ret) (hbr : br.opened = i :: rest) :
    br.next n s = { br with opened := rest, pairs := br.pairs ++ [(i, n)] } := by
  simp [next, hs, hbr]

theorem next_stray {br : Brackets} (n : Nat) {s : Step} (hs : s.kind = .ret)
    (hbr : br.opened = []) : br.next n s = { br with stray := br.stray ++ [n] } := by
  simp [next, hs, hbr]

theorem next_plain (br : Brackets) (n : Nat) {s : Step} (hcall : s.kind ≠ .call)
    (hret : s.kind ≠ .ret) : br.next n s = br := by
  unfold next
  cases hs : s.kind <;> simp_all

end Brackets

/-- The number of calls. -/
def callCount (l : List Step) : Nat :=
  l.countP (·.kind == .call)

theorem callCount_append (l l' : List Step) :
    callCount (l ++ l') = callCount l + callCount l' := by
  rw [callCount, List.countP_append]
  rfl

theorem callCount_cons (s : Step) (l : List Step) :
    callCount (s :: l) = callCount l + if s.kind = .call then 1 else 0 := by
  rw [callCount, List.countP_cons]
  simp [callCount]

theorem callCount_plain {s : Step} (hs : s.kind ≠ .call) : callCount [s] = 0 := by
  simp [callCount, hs]

/-- The return at position `j` matches the call at position `i`: it leaves the function that the
call entered, and leads to an assignment at the place of the call. -/
def Returns (steps : List Step) (i j : Nat) : Prop :=
  ∃ call enter ret assign : Step,
    steps[i]? = some call ∧ steps[i + 1]? = some enter ∧ steps[j]? = some ret ∧
    steps[j + 1]? = some assign ∧ call.kind = .call ∧ enter.kind = .parameter ∧
    ret.kind = .ret ∧ assign.kind = .assignment ∧ ret.function = enter.function ∧
    assign.function = call.function ∧ assign.block = call.block ∧
    assign.position = call.position ∧ assign.line = call.line

theorem Returns.append_right {l : List Step} {i j : Nat} (h : Returns l i j) (l' : List Step) :
    Returns (l ++ l') i j := by
  have hlift : ∀ {n : Nat} {s : Step}, l[n]? = some s → (l ++ l')[n]? = some s := by
    intro n s hs
    obtain ⟨hlt, -⟩ := List.getElem?_eq_some_iff.mp hs
    rw [List.getElem?_append_left hlt]
    exact hs
  obtain ⟨call, enter, ret, assign, hcall, henter, hret, hassign, hrest⟩ := h
  exact ⟨call, enter, ret, assign, hlift hcall, hlift henter, hlift hret, hlift hassign, hrest⟩

theorem Returns.append_left {l : List Step} {i j : Nat} (h : Returns l i j) (l' : List Step) :
    Returns (l' ++ l) (l'.length + i) (l'.length + j) := by
  have hlift : ∀ n : Nat, (l' ++ l)[l'.length + n]? = l[n]? := by
    intro n
    rw [List.getElem?_append_right (Nat.le_add_right _ _), Nat.add_sub_cancel_left]
  obtain ⟨call, enter, ret, assign, hcall, henter, hret, hassign, hrest⟩ := h
  refine ⟨call, enter, ret, assign, ?_, ?_, ?_, ?_, hrest⟩
  · rw [hlift]; exact hcall
  · rw [Nat.add_assoc, hlift]; exact henter
  · rw [hlift]; exact hret
  · rw [Nat.add_assoc, hlift]; exact hassign

/-! ### Steps without stray returns -/

/-- Positions of calls and returns, counted from `n` on. -/
def shifted (n : Nat) (ps : List (Nat × Nat)) : List (Nat × Nat) :=
  ps.map fun e => (n + e.1, n + e.2)

/-- Steps none of whose returns closes a call before them: they leave the calls `os` open and close
the pairs `ps`, whatever comes before. -/
structure Descends (l : List Step) (os : List Nat) (ps : List (Nat × Nat)) : Prop where
  scan : ∀ (br : Brackets) (n : Nat), br.scan n l =
    { opened := os.map (n + ·) ++ br.opened, pairs := br.pairs ++ shifted n ps, stray := br.stray }
  returns : ∀ e ∈ ps, Returns l e.1 e.2

theorem Descends.append {l l' : List Step} {os os' : List Nat} {ps ps' : List (Nat × Nat)}
    (h : Descends l os ps) (h' : Descends l' os' ps') :
    Descends (l ++ l') (os'.map (l.length + ·) ++ os) (ps ++ shifted l.length ps') where
  scan br n := by
    rw [Brackets.scan_append, h.scan, h'.scan]
    simp [shifted, Function.comp_def, Nat.add_assoc]
  returns e he := by
    rcases List.mem_append.mp he with he | he
    · exact (h.returns e he).append_right l'
    · obtain ⟨e', he', rfl⟩ := List.mem_map.mp he
      exact (h'.returns e' he').append_left l

theorem descends_plain {s : Step} (hcall : s.kind ≠ .call) (hret : s.kind ≠ .ret) :
    Descends [s] [] [] where
  scan br n := by
    rw [Brackets.scan, Brackets.scan, br.next_plain n hcall hret]
    simp [shifted]
  returns e he := absurd he List.not_mem_nil

theorem descends_call {s : Step} (hs : s.kind = .call) : Descends [s] [0] [] where
  scan br n := by
    rw [Brackets.scan, Brackets.scan, br.next_call n hs]
    simp [shifted]
  returns e he := absurd he List.not_mem_nil

/-- Steps whose calls have all returned, and whose returns all close a call of theirs. -/
def Level (l : List Step) : Prop :=
  ∃ ps, Descends l [] ps

/-- Steps whose returns all close a call of theirs. -/
def Down (l : List Step) : Prop :=
  ∃ os ps, Descends l os ps

theorem Level.append {l l' : List Step} (h : Level l) (h' : Level l') : Level (l ++ l') := by
  obtain ⟨ps, hps⟩ := h
  obtain ⟨ps', hps'⟩ := h'
  exact ⟨_, hps.append hps'⟩

theorem Level.down {l : List Step} (h : Level l) : Down l := by
  obtain ⟨ps, hps⟩ := h
  exact ⟨[], ps, hps⟩

theorem Down.append {l l' : List Step} (h : Down l) (h' : Down l') : Down (l ++ l') := by
  obtain ⟨os, ps, hps⟩ := h
  obtain ⟨os', ps', hps'⟩ := h'
  exact ⟨_, _, hps.append hps'⟩

theorem level_plain {s : Step} (hcall : s.kind ≠ .call) (hret : s.kind ≠ .ret) : Level [s] :=
  ⟨[], descends_plain hcall hret⟩

/-- **A call, the steps of its callee, its return and the assignment of its result** are level. -/
theorem level_bracket {call enter ret assign : Step} {body : List Step}
    (hbody : Level (enter :: body)) (hcall : call.kind = .call) (henter : enter.kind = .parameter)
    (hret : ret.kind = .ret) (hassign : assign.kind = .assignment)
    (hleave : ret.function = enter.function) (hfunction : assign.function = call.function)
    (hblock : assign.block = call.block) (hposition : assign.position = call.position)
    (hline : assign.line = call.line) :
    Level (call :: ((enter :: body) ++ [ret, assign])) := by
  obtain ⟨ps, hps⟩ := hbody
  refine ⟨shifted 1 ps ++ [(0, body.length + 2)], fun br n => ?_, fun e he => ?_⟩
  · -- the body leaves the call on top of the open ones, so the return closes it
    rw [Brackets.scan, br.next_call n hcall, Brackets.scan_append, hps.scan, Brackets.scan,
      Brackets.next_ret _ hret rfl, Brackets.scan, Brackets.scan,
      Brackets.next_plain _ _ (by simp [hassign]) (by simp [hassign])]
    simp [shifted, Function.comp_def, Nat.add_assoc, Nat.add_comm 1]
  · -- a pair of the body, or the new one
    rcases List.mem_append.mp he with he | he
    · obtain ⟨e', he', rfl⟩ := List.mem_map.mp he
      exact ((hps.returns e' he').append_right [ret, assign]).append_left [call]
    · obtain rfl := List.mem_singleton.mp he
      refine ⟨call, enter, ret, assign, rfl, rfl, ?_, ?_, hcall, henter, hret, hassign, hleave,
        hfunction, hblock, hposition, hline⟩
      · simp
      · simp

/-! ### Steps without open calls -/

/-- Steps without open calls, whose calls and stray returns are `n` in number. -/
structure Rises (l : List Step) (n : Nat) : Prop where
  opened : (Brackets.ofSteps l).opened = []
  returns : ∀ e ∈ (Brackets.ofSteps l).pairs, Returns l e.1 e.2
  stray : ∀ j ∈ (Brackets.ofSteps l).stray, j < l.length
  count : n = callCount l + (Brackets.ofSteps l).stray.length

theorem rises_nil : Rises [] 0 where
  opened := rfl
  returns _ he := absurd he List.not_mem_nil
  stray _ hj := absurd hj List.not_mem_nil
  count := rfl

theorem ofSteps_append {l l' : List Step} {os : List Nat} {ps : List (Nat × Nat)}
    (h : Descends l' os ps) : Brackets.ofSteps (l ++ l') =
      { opened := os.map (l.length + ·) ++ (Brackets.ofSteps l).opened,
        pairs := (Brackets.ofSteps l).pairs ++ shifted l.length ps,
        stray := (Brackets.ofSteps l).stray } := by
  rw [Brackets.ofSteps, Brackets.scan_append, Nat.zero_add, h.scan]
  rfl

theorem returns_append {l l' : List Step} {ps : List (Nat × Nat)}
    (hl : ∀ e ∈ (Brackets.ofSteps l).pairs, Returns l e.1 e.2)
    (hl' : ∀ e ∈ ps, Returns l' e.1 e.2) :
    ∀ e ∈ (Brackets.ofSteps l).pairs ++ shifted l.length ps, Returns (l ++ l') e.1 e.2 := by
  intro e he
  rcases List.mem_append.mp he with he | he
  · exact (hl e he).append_right l'
  · obtain ⟨e', he', rfl⟩ := List.mem_map.mp he
    exact (hl' e' he').append_left l

theorem Rises.append {l l' : List Step} {n : Nat} (h : Rises l n) (h' : Level l') :
    Rises (l ++ l') (n + callCount l') := by
  obtain ⟨ps, hps⟩ := h'
  have heq := ofSteps_append (l := l) hps
  refine ⟨?_, ?_, ?_, ?_⟩
  · rw [heq, h.opened]
    rfl
  · rw [heq]
    exact returns_append h.returns hps.returns
  · rw [heq]
    intro j hj
    rw [List.length_append]
    exact Nat.lt_add_right _ (h.stray j hj)
  · rw [heq, callCount_append, h.count]
    dsimp only
    omega

/-- A return without a call to close leads into the assignment of its result. -/
theorem Rises.leave {l : List Step} {n : Nat} (h : Rises l n) {ret assign : Step}
    (hret : ret.kind = .ret) (hassign : assign.kind = .assignment) :
    Rises (l ++ [ret, assign]) (n + 1) := by
  have heq : Brackets.ofSteps (l ++ [ret, assign]) =
      { Brackets.ofSteps l with stray := (Brackets.ofSteps l).stray ++ [l.length] } := by
    have hnext := Brackets.next_stray l.length hret h.opened
    rw [Brackets.ofSteps] at hnext ⊢
    rw [Brackets.scan_append, Nat.zero_add, Brackets.scan, hnext, Brackets.scan, Brackets.scan,
      Brackets.next_plain _ _ (by simp [hassign]) (by simp [hassign])]
    rfl
  refine ⟨by rw [heq]; exact h.opened, ?_, ?_, ?_⟩
  · rw [heq]
    exact fun e he => (h.returns e he).append_right _
  · rw [heq]
    intro j hj
    rw [List.length_append]
    rcases List.mem_append.mp hj with hj | hj
    · exact Nat.lt_add_right _ (h.stray j hj)
    · rw [List.mem_singleton.mp hj]
      exact Nat.lt_add_of_pos_right (Nat.succ_pos 1)
  · rw [heq, callCount_append, callCount_cons, callCount_cons, h.count, List.length_append]
    simp [hret, hassign, callCount]
    omega

/-- Calls and returns are bracketed, and `n` counts the calls and the returns that close none. -/
structure Bracketed (l : List Step) (n : Nat) : Prop where
  /-- Every return that closes a call matches it. -/
  returns : ∀ e ∈ (Brackets.ofSteps l).pairs, Returns l e.1 e.2
  /-- Returns that close no call stand before the calls that stay open. -/
  before : ∀ i ∈ (Brackets.ofSteps l).opened, ∀ j ∈ (Brackets.ofSteps l).stray, j < i
  count : n = callCount l + (Brackets.ofSteps l).stray.length

theorem Rises.bracketed {l l' : List Step} {n : Nat} (h : Rises l n) (h' : Down l') :
    Bracketed (l ++ l') (n + callCount l') := by
  obtain ⟨os, ps, hps⟩ := h'
  have heq := ofSteps_append (l := l) hps
  refine ⟨?_, ?_, ?_⟩
  · rw [heq]
    exact returns_append h.returns hps.returns
  · rw [heq, h.opened, List.append_nil]
    intro i hi j hj
    obtain ⟨o, -, rfl⟩ := List.mem_map.mp hi
    exact Nat.lt_add_right _ (h.stray j hj)
  · rw [heq, callCount_append, h.count]
    dsimp only
    omega

/-! ### Left out steps -/

/-- Depth, mark and flag agree on whether steps were left out, where chains cross at most `h` calls
before that. -/
structure Chain.Limited (h : Nat) (c : Chain) : Prop where
  mark : c.truncated = true ↔ ∃ s ∈ c.steps, s.kind = .truncated
  depth : c.truncated = true ↔ c.depth = h + 1
  bound : c.depth ≤ h + 1

namespace Chain

variable {h : Nat} {c tail : Chain} {s call : Step}

theorem limited_single (h : Nat) (hs : s.kind ≠ .truncated) : (single s).Limited h where
  mark := by simp [single, steps, newestFirst, hs]
  depth := by simp [single]
  bound := by simp [single]

theorem Limited.push (hc : c.Limited h) (hs : s.kind ≠ .truncated) : (c.push s).Limited h where
  mark := by
    rw [steps_push]
    simp only [List.mem_append, List.mem_singleton, or_and_right, exists_or, exists_eq_left, hs,
      or_false]
    exact hc.mark
  depth := hc.depth
  bound := hc.bound

/-- A chain that keeps within the limit has no steps left out. -/
theorem Limited.not_truncated (hc : c.Limited h) (hd : c.depth ≤ h) : c.truncated = false := by
  cases htr : c.truncated with
  | false => rfl
  | true =>
    have := hc.depth.mp htr
    omega

theorem Limited.compose (hc : c.Limited h) (scope : Scope) (hscope : scope.maxHops = h)
    (htail : tail.Limited h) (hcall : call.kind ≠ .truncated) :
    (scope.compose c call tail).Limited h := by
  rcases scope.compose_cases c call tail with ⟨hle, hsteps, hdepth, htr⟩ | ⟨-, hsteps, hdepth, htr⟩
  · -- within the limit neither part has steps left out
    rw [hscope] at hle
    have hc' := hc.not_truncated (by omega)
    have htail' := htail.not_truncated (by omega)
    rw [hc', htail', Bool.or_false] at htr
    have hnone : ¬ ∃ s ∈ c.steps, s.kind = .truncated := by
      rw [← hc.mark, hc']
      exact Bool.false_ne_true
    have hnone' : ¬ ∃ s ∈ tail.steps, s.kind = .truncated := by
      rw [← htail.mark, htail']
      exact Bool.false_ne_true
    refine ⟨?_, ?_, by omega⟩
    · rw [htr, hsteps]
      simp only [Bool.false_eq_true, false_iff]
      rintro ⟨s, hs, hkind⟩
      rcases List.mem_append.mp hs with hs | hs
      · exact hnone ⟨s, hs, hkind⟩
      · rcases List.mem_cons.mp hs with rfl | hs
        · exact hcall hkind
        · exact hnone' ⟨s, hs, hkind⟩
    · rw [htr]
      simp only [Bool.false_eq_true, false_iff]
      omega
  · -- beyond the limit the mark stands among the steps
    rw [hscope] at hdepth
    refine ⟨?_, by simp [htr, hdepth], by omega⟩
    rw [htr, hsteps]
    simp only [true_iff]
    exact ⟨truncationMark call.line call.file call.detail, by simp, rfl⟩

theorem Limited.lift (htail : tail.Limited h) (scope : Scope) (hscope : scope.maxHops = h)
    (site : CallSite) : (scope.lift tail site).Limited h := by
  rcases scope.lift_cases tail site with ⟨hle, hsteps, hdepth, htr⟩ | ⟨-, hsteps, hdepth, htr⟩
  · rw [hscope] at hle
    have htail' := htail.not_truncated (by omega)
    refine ⟨?_, ?_, by omega⟩
    · rw [htr, hsteps]
      exact htail.mark
    · rw [htr, htail']
      simp only [Bool.false_eq_true, false_iff]
      omega
  · rw [hscope] at hdepth
    refine ⟨?_, by simp [htr, hdepth], by omega⟩
    rw [htr, hsteps]
    simp [truncationMark]

/-- A chain across a call has no steps left out only when its parts have none and it keeps within
the limit. -/
theorem compose_complete {scope : Scope}
    (h : (scope.compose c call tail).truncated = false) :
    c.truncated = false ∧ tail.truncated = false ∧
      (scope.compose c call tail).steps = c.steps ++ call :: tail.steps ∧
      (scope.compose c call tail).depth = c.depth + tail.depth + 1 := by
  rcases scope.compose_cases c call tail with ⟨-, hsteps, hdepth, htr⟩ | ⟨-, -, -, htr⟩
  · rw [htr, Bool.or_eq_false_iff] at h
    exact ⟨h.1, h.2, hsteps, hdepth⟩
  · rw [htr] at h
    cases h

theorem lift_complete {scope : Scope} {site : CallSite}
    (h : (scope.lift tail site).truncated = false) :
    tail.truncated = false ∧ (scope.lift tail site).steps = tail.steps ∧
      (scope.lift tail site).depth = tail.depth + 1 := by
  rcases scope.lift_cases tail site with ⟨-, hsteps, hdepth, htr⟩ | ⟨-, -, -, htr⟩
  · rw [htr] at h
    exact ⟨h, hsteps, hdepth⟩
  · rw [htr] at h
    cases h

end Chain

/-! ### Derived chains -/

/-- Steps up to a place, by the root of their taint: those from a parameter are level, those from a
source may leave functions. -/
def Root.Balanced (l : List Step) (n : Nat) : Root → Prop
  | .param _ => Level l ∧ n = callCount l
  | .source _ => Rises l n

/-- Steps up to a sink, by the root of their taint. -/
def Root.Nested (l : List Step) (n : Nat) : Root → Prop
  | .param _ => Down l ∧ n = callCount l
  | .source _ => Bracketed l n

theorem Root.Balanced.append {r : Root} {l l' : List Step} {n : Nat} (h : r.Balanced l n)
    (h' : Level l') : r.Balanced (l ++ l') (n + callCount l') := by
  cases r with
  | param i =>
    obtain ⟨hl, hn⟩ := h
    exact ⟨hl.append h', by rw [callCount_append, hn]⟩
  | source i => exact Rises.append h h'

/-- A step that is neither a call nor a return changes nothing. -/
theorem Root.Balanced.plain {r : Root} {l : List Step} {n : Nat} (h : r.Balanced l n) {s : Step}
    (hcall : s.kind ≠ .call) (hret : s.kind ≠ .ret) : r.Balanced (l ++ [s]) n := by
  have happend := h.append (level_plain hcall hret)
  rwa [callCount_plain hcall] at happend

theorem Root.balanced_nil (r : Root) : r.Balanced [] 0 := by
  cases r with
  | param i => exact ⟨⟨[], fun br n => by simp [Brackets.scan, shifted], by simp⟩, rfl⟩
  | source i => exact rises_nil

theorem Root.balanced_single (r : Root) {s : Step} (hcall : s.kind ≠ .call)
    (hret : s.kind ≠ .ret) : r.Balanced (Chain.single s).steps (Chain.single s).depth :=
  r.balanced_nil.plain hcall hret

theorem Root.Balanced.push {r : Root} {c : Chain} (h : r.Balanced c.steps c.depth) {s : Step}
    (hcall : s.kind ≠ .call) (hret : s.kind ≠ .ret) :
    r.Balanced (c.push s).steps (c.push s).depth := by
  rw [Chain.steps_push]
  exact h.plain hcall hret

theorem Root.Balanced.nested {r : Root} {l l' : List Step} {n : Nat} (h : r.Balanced l n)
    (h' : Down l') : r.Nested (l ++ l') (n + callCount l') := by
  cases r with
  | param i =>
    obtain ⟨hl, hn⟩ := h
    exact ⟨hl.down.append h', by rw [callCount_append, hn]⟩
  | source i => exact Rises.bracketed h h'

/-- How the calls and returns of a chain are bracketed that is derived for a fact.  The return that
a chain ends with is not counted. -/
def Fact.Bracketed (c : Chain) : Fact → Prop
  | .tainted _ _ _ _ r => r.Balanced c.steps c.depth
  | .receives _ _ => True
  | .reachesSink _ r _ => r.Nested c.steps c.depth
  | .reachesReturn _ r => ∃ l, c.steps = l ++ [c.last] ∧ r.Balanced l c.depth

namespace Program

variable {p : Program} {h : Nat}

/-- **Depth, mark and flag agree on all derived chains.** -/
theorem Derives.limited {fact : Fact} {c : Chain} (d : p.Derives h fact c) : c.Limited h := by
  induction d with
  | enterParam _ _ _ _ _ _ => exact Chain.limited_single h (by simp)
  | enterHandler _ _ _ _ _ _ => exact (Chain.limited_single h (by simp)).push (by simp)
  | edge _ _ _ _ ih => exact ih
  | keep _ _ _ ih => exact ih
  | seed _ _ _ => exact Chain.limited_single h (by simp)
  | assign _ _ _ ih => exact ih.push (by simp)
  | assignBound _ _ _ _ _ _ _ ih ihret =>
    exact (ih.compose (p.bare h _) rfl ihret (by simp)).push (by simp)
  | assignIntrinsic _ _ _ _ _ ihret => exact (ihret.lift (p.bare h _) rfl _).push (by simp)
  | call _ _ _ _ _ ih => exact ih
  | callSink _ _ _ _ _ _ ih ihsink => exact ih.compose (p.bare h _) rfl ihsink (by simp)
  | sink _ _ _ _ ih => exact ih.push (by simp)
  | ret _ _ _ ih => exact ih.push (by simp)

/-- A chain that stems from a parameter and ends with a return starts with another step. -/
theorem exists_enter {c : Chain} {l : List Step} {g i : Nat} (hsteps : c.steps = l ++ [c.last])
    (henter : c.first.Enters p g (.param i)) (hret : c.last.kind = .ret) :
    ∃ body, l = c.first :: body := by
  have hfirst := c.head?_steps
  rw [hsteps] at hfirst
  cases l with
  | nil =>
    -- then one step would be a parameter and a return
    have heq : c.last = c.first := Option.some.inj hfirst
    rw [heq, henter.1] at hret
    cases hret
  | cons s body =>
    obtain rfl : s = c.first := Option.some.inj hfirst
    exact ⟨body, rfl⟩

/-- A chain across a call whose result is assigned is level from the call on. -/
theorem Derives.level_of_return (hp : p.WellFormed) {g i : Nat} {tail : Chain}
    (d : p.Derives h (.reachesReturn g (.param i)) tail)
    (hb : (Fact.reachesReturn g (.param i)).Bracketed tail) (f b pos : Nat) (line : Int)
    (file detail target : String) :
    Level ((p.bare h f).stepAt b pos line .call file detail :: (tail.steps ++
      [(p.bare h f).stepAt b pos line .assignment file target])) ∧
      tail.depth = callCount tail.steps := by
  obtain ⟨l, hsteps, hlevel, hdepth⟩ := hb
  obtain ⟨-, henter, hret, gn, hgn⟩ := d.shown hp
  obtain ⟨body, rfl⟩ := exists_enter hsteps henter hret
  obtain ⟨hkind, gn', hin, -⟩ := henter
  constructor
  · rw [hsteps, List.append_assoc]
    exact level_bracket hlevel rfl hkind hret rfl (hgn.1.trans hin.1.symm) rfl rfl rfl rfl
  · rw [hsteps, callCount_append, callCount_plain (by simp [hret])]
    exact hdepth

/-- **Derived chains without left out steps are bracketed.**  By induction on the derivation: the
rules add plain steps, a call with all steps of its callee, or a return that no call matches. -/
theorem Derives.bracketed (hp : p.WellFormed) {fact : Fact} {c : Chain} (d : p.Derives h fact c) :
    c.truncated = false → fact.Bracketed c := by
  induction d with
  | enterParam _ _ _ _ _ _ =>
    intro _
    rw [Fact.Bracketed]
    exact Root.balanced_single _ (by simp) (by simp)
  | enterHandler _ _ _ _ _ _ =>
    intro _
    rw [Fact.Bracketed]
    exact (Root.balanced_single _ (by simp) (by simp)).push (by simp) (by simp)
  | edge _ _ _ _ ih => exact ih
  | keep _ _ _ ih => exact ih
  | seed _ _ _ =>
    intro _
    rw [Fact.Bracketed]
    exact Root.balanced_single _ (by simp) (by simp)
  | assign _ _ _ ih =>
    intro htr
    rw [Fact.Bracketed]
    exact Root.Balanced.push (ih htr) (by simp) (by simp)
  | @assignBound f b pos i line file target x names calls site bound r c tail _ _ _ _ _ _ dret ih
      ihret =>
    -- the call, the steps of the callee and the assignment are level
    intro htr
    obtain ⟨hc, htail, hsteps, hdepth⟩ := Chain.compose_complete htr
    obtain ⟨hlevel, htdepth⟩ := dret.level_of_return hp (ihret htail) f b pos line file site.name
      target
    have hcount : ((p.bare h f).compose c ((p.bare h f).stepAt b pos line .call file site.name)
          tail).depth = c.depth + callCount ((p.bare h f).stepAt b pos line .call file site.name ::
        (tail.steps ++ [(p.bare h f).stepAt b pos line .assignment file target])) := by
      rw [hdepth, htdepth, callCount_cons, callCount_append, callCount_plain (by simp)]
      simp only [Scope.kind_stepAt, if_true]
      omega
    have happend := (ih hc).append hlevel
    rw [← hcount] at happend
    rw [Fact.Bracketed, Chain.steps_push, hsteps, List.append_assoc]
    exact happend
  | @assignIntrinsic f b pos i s fn line file target names calls site tail _ _ _ _ dret ihret =>
    -- taint arose in the callee, whose return closes no call
    intro htr
    obtain ⟨htail, hsteps, hdepth⟩ := Chain.lift_complete htr
    obtain ⟨-, -, hret, -⟩ := dret.shown hp
    obtain ⟨l, hl, hrises⟩ := ihret htail
    have hassign : ((p.bare h f).stepAt b pos line .assignment file target).kind = .assignment :=
      rfl
    have hleave := Rises.leave hrises hret hassign
    rw [← hdepth] at hleave
    rw [Fact.Bracketed, Chain.steps_push, hsteps, hl, List.append_assoc]
    exact hleave
  | call _ _ _ _ _ _ => exact fun _ => trivial
  | @callSink f b pos i k line site bound x r c tail _ _ _ _ _ _ ih ihsink =>
    -- the call stays open, and the chain of the callee goes further down
    intro htr
    obtain ⟨hc, htail, hsteps, hdepth⟩ := Chain.compose_complete htr
    obtain ⟨hdown, htdepth⟩ := ihsink htail
    have hcount : ((p.bare h f).compose c
          ((p.bare h f).stepAt b pos line .call site.file site.name) tail).depth =
        c.depth + callCount ((p.bare h f).stepAt b pos line .call site.file site.name ::
          tail.steps) := by
      rw [hdepth, htdepth, callCount_cons]
      simp only [Scope.kind_stepAt, if_true]
      omega
    have hcall : Down [(p.bare h f).stepAt b pos line .call site.file site.name] :=
      ⟨_, _, descends_call rfl⟩
    rw [Fact.Bracketed, hsteps, hcount]
    exact (ih hc).nested (hcall.append hdown)
  | @sink f b pos k line names snk x r c _ _ _ _ ih =>
    intro htr
    have hplain : Level [(p.bare h f).stepAt b pos line .sink snk.location.file snk.name] :=
      level_plain (by simp) (by simp)
    have hnested := Root.Balanced.nested (ih htr) hplain.down
    rw [callCount_plain (by simp)] at hnested
    rw [Fact.Bracketed, Chain.steps_push]
    exact hnested
  | ret _ _ _ ih => exact fun htr => ⟨_, Chain.steps_push _ _, ih htr⟩

/-- **Chains are valid interprocedural paths, and their depth counts the crossings.**  For every
program that is built, every hop limit, every limit of rounds and every budget, and for the chain
`c` of every flow from source `s` to sink `t`: it starts at the source and ends at the sink; the
flag, a mark among the steps, and a depth beyond the limit all say whether steps were left out; and
otherwise its calls and returns are bracketed and counted by its depth. -/
theorem bracketed_flows (cache : Cache) (sources : List Source) (sinks : List Sink)
    (san : Sanitizers) (maxHops maxRounds : Nat) (b : Budget) (s t : Nat) (c : Chain)
    (hc : ((s, t), c) ∈
      ((build cache sources sinks san).rounds maxHops maxRounds b).1.knowledge.flows.entries) :
    (∃ first src, c.steps.head? = some first ∧ sources[s]? = some src ∧ first.kind = .source ∧
      first.file = src.location.file ∧ first.line = src.location.line) ∧
    (∃ last snk, c.steps.getLast? = some last ∧ sinks[t]? = some snk ∧ last.kind = .sink ∧
      last.file = snk.location.file ∧ last.line = snk.location.line) ∧
    (c.truncated = true ↔ ∃ q ∈ c.steps, q.kind = .truncated) ∧
    (c.truncated = true ↔ c.depth = maxHops + 1) ∧
    (c.truncated = false → c.depth ≤ maxHops ∧ Bracketed c.steps c.depth) := by
  have hp := wellFormed_build cache sources sinks san
  obtain ⟨f, d⟩ := (derived_rounds _ maxHops maxRounds b).flows s t c hc
  obtain ⟨-, ⟨hsource, src, hsrc, hfile, hline⟩, hsink, snk, hsnk, hfile', hline'⟩ := d.shown hp
  have hlimited := d.limited
  refine ⟨⟨c.first, src, c.head?_steps, by simpa using hsrc, hsource, hfile, hline⟩,
    ⟨c.last, snk, c.getLast?_steps, by simpa using hsnk, hsink, hfile', hline'⟩,
    hlimited.mark, hlimited.depth, fun htr => ⟨?_, d.bracketed hp htr⟩⟩
  have hne : c.depth ≠ maxHops + 1 := fun hd => by
    rw [hlimited.depth.mpr hd] at htr
    cases htr
  have := hlimited.bound
  omega

/-- In the sample the call of `wrap` and its return are a pair, and the call of `run` stays open. -/
theorem bracketed_flows_sample :
    ((0, 0), sampleChain) ∈ (sample.rounds 5 100 Budget.unlimited).1.knowledge.flows.entries ∧
      Brackets.ofSteps sampleChain.steps = ⟨[5], [(1, 3)], []⟩ ∧
      Bracketed sampleChain.steps sampleChain.depth := by
  have hmem := Best.mem_entries_of_get? sample_rounds.2
  have hflow := bracketed_flows sampleCache sampleSources sampleSinks (Sanitizers.make [] none) 5
    100 Budget.unlimited 0 0 sampleChain hmem
  exact ⟨hmem, by decide, (hflow.2.2.2.2 rfl).2⟩

end Program

end TaintFlow.Flow
