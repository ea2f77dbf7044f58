import TaintFlow.Flow.Analysis
import TaintFlow.Proofs.Flow.Collections
import TaintFlow.Proofs.Flow.Fixpoint

/-!
# Cancelled runs

A run that is cancelled has found a part of what it would have found with more time, and nothing
else.  Two runs with different budgets go the same way until the smaller budget is used up.  From
there on the longer one only adds to what both have recorded, function by function in the round that
was cancelled, and round by round after it.

## Main definitions

* `Budget.AtMost` — a budget lasts no longer than another one.
* `FunctionResult.Precedes` — the result of a longer analysis of the same function.
* `Analysis.ofRounds` — what an analysis makes of the rounds.

## Main results

* `Scope.run_atMost`, `Program.round_atMost` — two budgets in one worklist, and in one round.
* `Program.roundsFrom_atMost` — two budgets in many rounds.
* `flows_of_cancelled` — a cancelled run is a prefix of every longer one.
-/

namespace TaintFlow

/-! ### Budgets -/

namespace Budget

/-- A budget lasts no longer than another one. -/
def AtMost (b b' : Budget) : Prop :=
  ∀ m, b' = some m → ∃ n, b = some n ∧ n ≤ m

variable {b b' : Budget}

theorem atMost_unlimited (b : Budget) : b.AtMost unlimited := by
  intro m hm
  cases hm

theorem atMost_some {n m : Nat} (h : n ≤ m) : AtMost (some n) (some m) := by
  intro m' hm
  cases hm
  exact ⟨n, rfl, h⟩

theorem AtMost.spend (h : b.AtMost b') : b.spend.AtMost b'.spend := by
  intro m hm
  obtain ⟨m', hm', rfl⟩ := Option.map_eq_some_iff.mp hm
  obtain ⟨n, rfl, hle⟩ := h m' hm'
  exact ⟨n - 1, rfl, by omega⟩

theorem exhausted_iff : b.exhausted = true ↔ b = some 0 := by
  rw [exhausted, beq_iff_eq]

/-- When the longer budget is used up, so is the shorter one. -/
theorem AtMost.exhausted (h : b.AtMost b') (hb : b.exhausted = false) : b'.exhausted = false := by
  cases hb' : b'.exhausted with
  | false => rfl
  | true =>
    obtain ⟨n, rfl, hle⟩ := h 0 (exhausted_iff.mp hb')
    have hn : n = 0 := by omega
    rw [hn, exhausted_iff.mpr rfl] at hb
    cases hb

/-- A budget that is used up lasts no longer than any other one. -/
theorem atMost_of_exhausted (hb : b.exhausted = true) (b' : Budget) : b.spend.AtMost b' := by
  intro m _
  rw [exhausted_iff.mp hb]
  exact ⟨0, rfl, Nat.zero_le m⟩

end Budget

namespace Flow

/-! ### One function -/

namespace Scope

/-- Whatever is recorded stays recorded. -/
theorem grows_run (s : Scope) (fuel : Nat) (w : Work) (b : Budget) :
    w.records.Grows (s.run fuel w b).1.1.records := by
  refine s.run_preserves (P := fun w' => w.records.Grows w'.records) (fun w' block _ _ hw => ?_)
    fuel w b (.refl _)
  rw [records_process]
  exact hw.trans (w'.records.grows_foldl_add _)

/-- Every key is recorded once. -/
theorem distinct_run (s : Scope) (fuel : Nat) (b : Budget) :
    (s.run fuel s.start b).1.1.records.Distinct := by
  refine s.run_preserves (P := fun w => w.records.Distinct) (fun w block _ _ hw => ?_)
    fuel s.start b ?_
  · rw [records_process]
    exact hw.foldl_add _
  · unfold start
    split <;> exact Records.distinct_empty

/-- **Two budgets in one worklist**: with the longer one no less is left and no less is recorded,
and a run that is not cancelled with the shorter one is the same with the longer one. -/
theorem run_atMost (s : Scope) : ∀ (fuel : Nat) (w : Work) (b b' : Budget), b.AtMost b' →
    (s.run fuel w b).2.AtMost (s.run fuel w b').2 ∧
      (s.run fuel w b).1.1.records.Grows (s.run fuel w b').1.1.records ∧
      ((s.run fuel w b).1.2 = false → (s.run fuel w b').1 = (s.run fuel w b).1) := by
  intro fuel
  induction fuel with
  | zero =>
    intro w b b' hb
    cases hq : w.queue with
    | nil =>
      rw [s.run_of_queue_nil 0 hq, s.run_of_queue_nil 0 hq]
      exact ⟨hb, .refl _, fun _ => rfl⟩
    | cons block rest =>
      rw [s.run_zero hq, s.run_zero hq]
      exact ⟨hb, .refl _, fun _ => rfl⟩
  | succ fuel ih =>
    intro w b b' hb
    cases hq : w.queue with
    | nil =>
      rw [s.run_of_queue_nil _ hq, s.run_of_queue_nil _ hq]
      exact ⟨hb, .refl _, fun _ => rfl⟩
    | cons block rest =>
      cases hex : b.exhausted with
      | true =>
        -- the shorter run stops here, and the longer one adds to what is recorded
        have hstop : s.run (fuel + 1) w b = ((w, true), b.spend) := by
          rw [s.run_succ fuel hq, hex, if_pos rfl]
        rw [hstop]
        refine ⟨Budget.atMost_of_exhausted hex _, s.grows_run _ _ _, fun hc => ?_⟩
        cases hc
      | false =>
        -- both process the block
        have hgo : s.run (fuel + 1) w b = s.run fuel (s.process w block) b.spend := by
          rw [s.run_succ fuel hq, hex, if_neg Bool.false_ne_true]
        have hgo' : s.run (fuel + 1) w b' = s.run fuel (s.process w block) b'.spend := by
          rw [s.run_succ fuel hq, hb.exhausted hex, if_neg Bool.false_ne_true]
        rw [hgo, hgo']
        exact ih _ _ _ hb.spend

end Scope

/-- The result of a longer analysis of the same function: no less is found, and nothing else if the
shorter one was not cancelled. -/
structure FunctionResult.Precedes (r r' : FunctionResult) : Prop where
  flows : r'.records.flows.CoversAll r.records.flows
  same : r.cancelled = false → r' = r

theorem Scope.analyze_atMost (s : Scope) {b b' : Budget} (hb : b.AtMost b') :
    (s.analyze b).2.AtMost (s.analyze b').2 ∧ (s.analyze b).1.Precedes (s.analyze b').1 := by
  obtain ⟨hleft, hgrows, hsame⟩ := s.run_atMost maxSteps s.start b b' hb
  refine ⟨hleft, Best.Grows.coversAll hgrows.flows (s.distinct_run maxSteps b).flows, fun hc => ?_⟩
  rw [analyze_eq] at hc
  rw [analyze_eq, analyze_eq, hsame hc]

/-! ### Rounds -/

namespace Program

variable {p : Program} {h : Nat} {b b' : Budget}

theorem analyzeAll_atMost (snap : Snapshot) (is : List Nat) (hb : b.AtMost b') :
    (p.analyzeAll h snap is b).2.AtMost (p.analyzeAll h snap is b').2 ∧
      List.Forall₂ FunctionResult.Precedes (p.analyzeAll h snap is b).1
        (p.analyzeAll h snap is b').1 := by
  induction is generalizing b b' with
  | nil => exact ⟨hb, .nil⟩
  | cons i is ih =>
    obtain ⟨hleft, hfirst⟩ := (p.scope h snap i).analyze_atMost hb
    obtain ⟨hleft, hrest⟩ := ih hleft
    rw [analyzeAll_cons, analyzeAll_cons]
    exact ⟨hleft, .cons hfirst hrest⟩

/-- Joining results that are ahead leads to flows that are ahead. -/
theorem flows_foldl_merge_grows {rs rs' : List FunctionResult}
    (hrs : List.Forall₂ FunctionResult.Precedes rs rs') :
    ∀ k k' : Knowledge, k.flows.Grows k'.flows →
      (rs.foldl (Knowledge.merge p) k).flows.Grows (rs'.foldl (Knowledge.merge p) k').flows := by
  induction hrs with
  | nil => intro k k' hk; exact hk
  | cons hr _ ih =>
    intro k k' hk
    refine ih _ _ ?_
    rw [Knowledge.flows_merge, Knowledge.flows_merge]
    exact hk.join hr.flows

/-- Results none of which was cancelled are those with a longer budget. -/
theorem eq_of_precedes {rs rs' : List FunctionResult}
    (hrs : List.Forall₂ FunctionResult.Precedes rs rs') (hc : rs.any (·.cancelled) = false) :
    rs' = rs := by
  induction hrs with
  | nil => rfl
  | cons hr _ ih =>
    rw [List.any_cons, Bool.or_eq_false_iff] at hc
    rw [hr.same hc.1, ih hc.2]

/-- **Two budgets in one round.** -/
theorem round_atMost (k : Knowledge) (hb : b.AtMost b') :
    (p.round h k b).2.AtMost (p.round h k b').2 ∧
      (p.round h k b).1.1.flows.Grows (p.round h k b').1.1.flows ∧
      ((p.round h k b).1.2 = false → (p.round h k b').1 = (p.round h k b).1) := by
  obtain ⟨hleft, hrs⟩ := p.analyzeAll_atMost (h := h) k.snapshot k.work hb
  refine ⟨hleft, ?_, fun hc => ?_⟩
  · rw [round_eq, round_eq]
    exact flows_foldl_merge_grows hrs _ _ (.refl _)
  · rw [round_eq] at hc
    have heq : p.results h k b' = p.results h k b := eq_of_precedes hrs hc
    rw [round_eq, round_eq, heq]

/-- Flows stay found. -/
theorem flows_grow_roundsFrom (p : Program) (h fuel : Nat) (k : Knowledge) (b : Budget) :
    k.flows.Grows (p.roundsFrom h fuel k b).1.knowledge.flows := by
  refine p.roundsFrom_preserves h (P := fun k' => k.flows.Grows k'.flows) (fun k' b hk => ?_)
    fuel k b (.refl _)
  rw [round_eq]
  exact hk.trans (Knowledge.extends_foldl_merge p k'.cleared _).flows

/-- **Two budgets in many rounds**: with the longer one no less is found, and rounds that are
complete with the shorter one are the same with the longer one. -/
theorem roundsFrom_atMost : ∀ (fuel : Nat) (k : Knowledge) (b b' : Budget), b.AtMost b' →
    (p.roundsFrom h fuel k b).1.knowledge.flows.Grows
        (p.roundsFrom h fuel k b').1.knowledge.flows ∧
      ((p.roundsFrom h fuel k b).1.incomplete = false →
        (p.roundsFrom h fuel k b').1 = (p.roundsFrom h fuel k b).1) := by
  intro fuel
  induction fuel with
  | zero =>
    intro k b b' hb
    by_cases hwork : k.work = []
    · rw [p.roundsFrom_of_work_nil h 0 hwork, p.roundsFrom_of_work_nil h 0 hwork]
      exact ⟨.refl _, fun _ => rfl⟩
    · rw [p.roundsFrom_zero h hwork, p.roundsFrom_zero h hwork]
      exact ⟨.refl _, fun _ => rfl⟩
  | succ fuel ih =>
    intro k b b' hb
    by_cases hwork : k.work = []
    · rw [p.roundsFrom_of_work_nil h _ hwork, p.roundsFrom_of_work_nil h _ hwork]
      exact ⟨.refl _, fun _ => rfl⟩
    · cases hex : b.exhausted with
      | true =>
        -- the shorter run does not begin the round
        have hstop : p.roundsFrom h (fuel + 1) k b = (⟨k, true⟩, b.spend) := by
          rw [p.roundsFrom_succ h fuel hwork, hex, if_pos rfl]
        rw [hstop]
        refine ⟨p.flows_grow_roundsFrom h _ k b', fun hc => ?_⟩
        cases hc
      | false =>
        obtain ⟨hleft, hgrows, hsame⟩ := p.round_atMost (h := h) k hb.spend
        rw [p.roundsFrom_succ h fuel hwork, p.roundsFrom_succ h fuel hwork, hex, hb.exhausted hex,
          if_neg Bool.false_ne_true, if_neg Bool.false_ne_true]
        cases hcut : (p.round h k b.spend).1.2 with
        | true =>
          -- the shorter run is cancelled in the round; whatever the longer one does after its own
          -- round, it keeps what that round has found
          rw [if_pos rfl]
          refine ⟨hgrows.trans ?_, fun hc => ?_⟩
          · split
            · exact .refl _
            · exact p.flows_grow_roundsFrom h fuel _ _
          · cases hc
        | false =>
          -- both go through the same round
          rw [hsame hcut, hcut, if_neg Bool.false_ne_true, if_neg Bool.false_ne_true]
          exact ih _ _ _ hleft

end Program

/-! ### The analysis -/

open Facts (Cache)
open Discovery (Source Sink)

/-- The program that an analysis looks at. -/
def Limits.program (limits : Limits) (cache : Cache) (sources : List Source)
    (sinks : List Sink) : Program :=
  Program.build cache sources sinks (Sanitizers.make limits.sanitizers (some cache))

/-- What an analysis makes of the rounds of its program; `cancelled` tells rounds that were
cancelled from those that ran out. -/
def Analysis.ofRounds (limits : Limits) (p : Program) (r : RoundsResult) (cancelled : Bool) :
    Analysis where
  findings := (p.findings r.knowledge.flows).1
  diagnostics := p.diagnostics ++ p.code.functions.toList.filterMap defectDiagnostic? ++
    (if r.incomplete then [stopDiagnostic limits.maxRounds r.knowledge.rounds cancelled] else []) ++
    (p.findings r.knowledge.flows).2
  incomplete := r.incomplete
  rounds := r.knowledge.rounds
  functions := p.code.functions.size
  unanalyzable := (p.code.functions.toList.filterMap defectDiagnostic?).length

theorem analyze_eq_ofRounds (limits : Limits) (cache : Cache) (sources : List Source)
    (sinks : List Sink) (b : Budget) :
    (analyze limits cache sources sinks b).1 =
      .ofRounds limits (limits.program cache sources sinks)
        ((limits.program cache sources sinks).rounds limits.maxHops limits.maxRounds b).1
        (((limits.program cache sources sinks).rounds limits.maxHops
            limits.maxRounds b).1.incomplete
          && ((limits.program cache sources sinks).rounds limits.maxHops
            limits.maxRounds b).2.exhausted) := by
  have hprogram : Program.build cache sources sinks
      (Sanitizers.make limits.sanitizers (some cache)) = limits.program cache sources sinks := rfl
  unfold analyze
  rw [hprogram]
  rcases hr : (limits.program cache sources sinks).rounds limits.maxHops limits.maxRounds b with
    ⟨⟨k, incomplete⟩, b'⟩
  cases incomplete <;>
    simp [bind, StateT.bind, pure, StateT.pure, hr, Budget.poll, Analysis.ofRounds]

theorem incomplete_analyze (limits : Limits) (cache : Cache) (sources : List Source)
    (sinks : List Sink) (b : Budget) :
    (analyze limits cache sources sinks b).1.incomplete =
      ((limits.program cache sources sinks).rounds limits.maxHops
        limits.maxRounds b).1.incomplete := by
  rw [analyze_eq_ofRounds]
  rfl

/-- A complete analysis is told by its rounds alone. -/
theorem analyze_eq_of_complete {limits : Limits} {cache : Cache} {sources : List Source}
    {sinks : List Sink} {b b' : Budget}
    (hc : (analyze limits cache sources sinks b).1.incomplete = false)
    (hsame : ((limits.program cache sources sinks).rounds limits.maxHops limits.maxRounds b').1 =
      ((limits.program cache sources sinks).rounds limits.maxHops limits.maxRounds b).1) :
    (analyze limits cache sources sinks b').1 = (analyze limits cache sources sinks b).1 := by
  rw [incomplete_analyze] at hc
  rw [analyze_eq_ofRounds, analyze_eq_ofRounds, hsame, hc, Bool.false_and, Bool.false_and]

/-- **A cancelled run is a prefix of every longer one.**  Of the runs that are cancelled after `n`
and after `m` checks, the one with more checks holds every flow of the other one with a chain at
least as good.  All flows of a cancelled run are flows of the run without cancellation.  A run that
is not cut short has the same rounds, findings and diagnostics as that one. -/
theorem flows_of_cancelled (limits : Limits) (cache : Cache) (sources : List Source)
    (sinks : List Sink) {n m : Nat} (hnm : n ≤ m) :
    let p := limits.program cache sources sinks
    let rounds (b : Budget) := (p.rounds limits.maxHops limits.maxRounds b).1
    let flows (b : Budget) := (rounds b).knowledge.flows
    (∀ e c, (flows (some n)).get? e = some c →
        ∃ d, (flows (some m)).get? e = some d ∧ (compareChains d c).isLE) ∧
      (∀ e, (flows (some n)).Has e → (flows Budget.unlimited).Has e) ∧
      ((analyze limits cache sources sinks (some n)).1.incomplete = false →
        rounds (some n) = rounds Budget.unlimited ∧
          (analyze limits cache sources sinks (some n)).1 =
            (analyze limits cache sources sinks Budget.unlimited).1) := by
  intro p rounds flows
  have hmore := (p.roundsFrom_atMost (h := limits.maxHops) limits.maxRounds (.initial p) _ _
    (Budget.atMost_some hnm)).1
  have hall := p.roundsFrom_atMost (h := limits.maxHops) limits.maxRounds (.initial p) _ _
    (Budget.atMost_unlimited (some n))
  refine ⟨fun e c hc => ?_, fun e he => ?_, fun hc => ?_⟩
  · exact hmore e c ⟨c, hc, isLE_compareChains_self c⟩
  · obtain ⟨c, hc⟩ := he.covers
    exact (hall.1 e c hc).has
  · have hsame : rounds Budget.unlimited = rounds (some n) := by
      refine hall.2 ?_
      rw [incomplete_analyze] at hc
      exact hc
    exact ⟨hsame.symm, (analyze_eq_of_complete hc hsame).symm⟩

/-- The limits under which the sample is run. -/
def sampleLimits : Limits where
  sanitizers := []
  maxHops := 5
  maxRounds := 100

theorem program_sample : sampleLimits.program sampleCache sampleSources sampleSinks = sample := by
  have hvalidators : Sanitizers.make sampleLimits.sanitizers (some sampleCache) =
      Sanitizers.make [] none := by
    decide +kernel
  rw [Limits.program, hvalidators]
  rfl

/-- The rounds of the sample that are cancelled after 18 checks have found the flow. -/
theorem sample_rounds_cancelled : (sample.rounds 5 100 (some 18)).1.incomplete = true ∧
    (sample.rounds 5 100 (some 18)).1.knowledge.flows.get? (0, 0) = some sampleChain := by
  rw [sample_eq]
  decide +kernel

/-- In the sample the run that is cancelled after 18 checks has found the flow, which the longer
runs then hold too; the one after 19 checks is not cut short. -/
theorem flows_of_cancelled_sample :
    (sample.rounds 5 100 (some 18)).1.incomplete = true ∧
      (sample.rounds 5 100 (some 18)).1.knowledge.flows.get? (0, 0) = some sampleChain ∧
      (∃ d, (sample.rounds 5 100 (some 19)).1.knowledge.flows.get? (0, 0) = some d ∧
        (compareChains d sampleChain).isLE) ∧
      (sample.rounds 5 100 (some 19)).1.incomplete = false ∧
      (analyze sampleLimits sampleCache sampleSources sampleSinks (some 19)).1 =
        (analyze sampleLimits sampleCache sampleSources sampleSinks Budget.unlimited).1 := by
  obtain ⟨hcut, hfound⟩ := sample_rounds_cancelled
  have hlong : (sample.rounds 5 100 (some 19)).1.incomplete = false := by
    rw [sample_eq]
    decide +kernel
  have hmore := (flows_of_cancelled sampleLimits sampleCache sampleSources sampleSinks
    (Nat.le_succ 18)).1 (0, 0) sampleChain
  have hsame := (flows_of_cancelled sampleLimits sampleCache sampleSources sampleSinks
    (Nat.le_refl 19)).2.2
  rw [program_sample] at hmore
  rw [incomplete_analyze, program_sample] at hsame
  exact ⟨hcut, hfound, hmore hfound, hlong, (hsame hlong).2⟩

end Flow

end TaintFlow
