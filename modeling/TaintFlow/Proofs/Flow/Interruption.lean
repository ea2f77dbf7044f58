import TaintFlow.Proofs.Flow.Executable
import TaintFlow.Proofs.Flow.Schedules

/-!
# Rounds that are cancelled part-way

The workers of a round find out on their own that the work is cancelled: each looks before every
block, so some are cut off while others come to their end.  Whatever they have recorded by then is
joined into what is known.  Since every block that a worker processes only adds what is derived, all
that is known is derived, wherever a run is cut off; so every chain that is reported is executable.

## Main definitions

* `Worker.Reacts` — one step of a worker, in work that is cancelled or not.
* `Pool.Tick` — the work is cancelled, a worker begins, or one that is at work goes on.
* `Program.RoundsUnder` — rounds that may be cancelled at any point.

## Main results

* `Pool.derived_of_ticks` — whatever workers record is derived.
* `Program.derived_of_roundsUnder` — what rounds know is derived, wherever they are cut off.
* `Program.roundsUnder_of_roundsBy`, `Program.roundsUnder_rounds` — rounds with a schedule that are
  not cancelled, and rounds under a budget, are among these rounds.
* `Program.executable_flows` — the chains of all flows are executable, and none is dropped.
-/

namespace TaintFlow.Flow

open Relation (ReflTransGen)
open Facts (Cache)
open Discovery (Source Sink)

/-! ### Workers -/

namespace Worker

/-- One step of a worker in work that is cancelled or not.  While it is not, the worker goes on.
Once it is, the worker is cut off if there is a block left to process. -/
inductive Reacts (s : Scope) : Bool → Worker → Worker → Prop where
  | goOn {a b : Worker} (h : a.Advances s b) : Reacts s false a b
  | finish {steps : Nat} {w : Work} (hq : w.queue = []) :
      Reacts s true (.running steps w) (.done w.records false)
  | stop {steps : Nat} {w : Work} {block : Nat} {rest : List Nat} (hq : w.queue = block :: rest) :
      Reacts s true (.running steps w) (.done w.records true)

/-- All that a worker holds is derived. -/
def Derived (p : Program) (h f : Nat) : Worker → Prop
  | .waiting => True
  | .running _ w => w.Derived p h f
  | .done records _ => records.Derived p h f

section

variable {p : Program} {h f : Nat} {fn : Function} {snap : Snapshot} {a b : Worker}

/-- A step of a worker keeps all derived. -/
theorem Derived.advances (hf : p.Analyzes f fn) (hsnap : snap.Derived p h)
    (ha : a.Derived p h f) (hab : a.Advances (p.scope h snap f) b) : b.Derived p h f := by
  cases hab with
  | process hq => exact Scope.derived_process hf hsnap ha _
  | finish hq => exact Work.Derived.records ha
  | giveUp hq => exact Work.Derived.records ha

theorem Derived.reacts (hf : p.Analyzes f fn) (hsnap : snap.Derived p h) {c : Bool}
    (ha : a.Derived p h f) (hab : a.Reacts (p.scope h snap f) c b) : b.Derived p h f := by
  cases hab with
  | goOn hab => exact ha.advances hf hsnap hab
  | finish hq => exact Work.Derived.records ha
  | stop hq => exact Work.Derived.records ha

end

end Worker

/-! ### Pools -/

namespace Pool

/-- One step of a round of which at most `limit` workers may be at work: the work is cancelled, a
worker that waits begins, or one that is at work goes on.  The flag says whether the work is
cancelled. -/
inductive Tick (p : Program) (limit maxHops : Nat) (snap : Snapshot) :
    Bool × Pool → Bool × Pool → Prop where
  | cancel {pool : Pool} : Tick p limit maxHops snap (false, pool) (true, pool)
  | begin {c : Bool} {front rest : Pool} {i : Nat}
      (hfree : atWork (front ++ (i, .waiting) :: rest) < limit) :
      Tick p limit maxHops snap (c, front ++ (i, .waiting) :: rest)
        (c, front ++ (i, .running Scope.maxSteps (p.scope maxHops snap i).start) :: rest)
  | react {c : Bool} {front rest : Pool} {i : Nat} {a b : Worker}
      (h : a.Reacts (p.scope maxHops snap i) c b) :
      Tick p limit maxHops snap (c, front ++ (i, a) :: rest) (c, front ++ (i, b) :: rest)

section

variable {p : Program} {limit h : Nat} {snap : Snapshot}

/-- The invariant of a pool: its workers analyse functions that can be analysed, and all that they
hold is derived. -/
def Derived (p : Program) (h : Nat) (pool : Pool) : Prop :=
  ∀ e ∈ pool, (∃ fn, p.Analyzes e.1 fn) ∧ e.2.Derived p h e.1

/-- **A step of a round keeps all derived**, whether the work is cancelled or not. -/
theorem Derived.tick (hsnap : snap.Derived p h) {x y : Bool × Pool} (hx : x.2.Derived p h)
    (hstep : Tick p limit h snap x y) : y.2.Derived p h := by
  cases hstep with
  | cancel => exact hx
  | @begin c front rest i hfree =>
    obtain ⟨⟨fn, hfn⟩, -⟩ := hx (i, .waiting) (List.mem_append_right _ List.mem_cons_self)
    exact forall_replace hx ⟨⟨fn, hfn⟩, Scope.derived_start hfn hsnap⟩
  | @react c front rest i a b hab =>
    obtain ⟨⟨fn, hfn⟩, ha⟩ := hx (i, a) (List.mem_append_right _ List.mem_cons_self)
    exact forall_replace hx ⟨⟨fn, hfn⟩, ha.reacts hfn hsnap hab⟩

/-- **Whatever workers record is derived**, wherever they are cut off. -/
theorem derived_of_ticks (hsnap : snap.Derived p h) {is : List Nat}
    (his : ∀ i ∈ is, ∃ fn, p.Analyzes i fn) {c c' : Bool} {rs : List FunctionResult}
    (hticks : ReflTransGen (Tick p limit h snap) (c, waiting is) (c', done rs)) :
    ∀ r ∈ rs, r.records.Derived p h r.function := by
  have hstart : (waiting is).Derived p h := by
    intro e he
    obtain ⟨i, hi, rfl⟩ := List.mem_map.mp he
    exact ⟨his i hi, trivial⟩
  have hrun : ∀ y : Bool × Pool, ReflTransGen (Tick p limit h snap) (c, waiting is) y →
      y.2.Derived p h := by
    intro y hy
    induction hy with
    | refl => exact hstart
    | tail _ hstep ih => exact ih.tick hsnap hstep
  intro r hr
  exact (hrun _ hticks _ (List.mem_map.mpr ⟨r, hr, rfl⟩)).2

/-- A step with a schedule is one in work that is not cancelled. -/
theorem tick_of_step {pool pool' : Pool} (hstep : Step p limit h snap pool pool') :
    Tick p limit h snap (false, pool) (false, pool') := by
  cases hstep with
  | begin hfree => exact .begin hfree
  | advance hab => exact .react (.goOn hab)

/-! ### Budgets -/

/-- Work may be cancelled while nothing else happens. -/
theorem ticks_flag (pool : Pool) (c : Bool) :
    ReflTransGen (Tick p limit h snap) (false, pool) (c, pool) := by
  cases c with
  | false => exact .refl
  | true => exact .single .cancel

/-- A worker with an empty queue comes to its end, whether or not the work is cancelled. -/
theorem ticks_finish (front rest : Pool) (i steps : Nat) {w : Work} (hq : w.queue = []) (c : Bool) :
    ReflTransGen (Tick p limit h snap) (c, front ++ (i, .running steps w) :: rest)
      (c, front ++ (i, .done w.records false) :: rest) := by
  cases c with
  | false => exact .single (.react (.goOn (.finish hq)))
  | true => exact .single (.react (.finish hq))

/-- A worker under a budget is cut off when the budget is used up. -/
theorem ticks_run (front rest : Pool) (i : Nat) : ∀ (steps : Nat) (w : Work) (b : Budget),
    let r := (p.scope h snap i).run steps w b
    ReflTransGen (Tick p limit h snap) (b.exhausted, front ++ (i, .running steps w) :: rest)
      (r.2.exhausted, front ++ (i, .done r.1.1.records r.1.2) :: rest) := by
  intro steps
  induction steps with
  | zero =>
    intro w b
    dsimp only
    cases hq : w.queue with
    | nil =>
      rw [Scope.run_of_queue_nil _ _ hq]
      exact ticks_finish front rest i 0 hq b.exhausted
    | cons block blocks =>
      rw [Scope.run_zero _ hq]
      cases b.exhausted with
      | false => exact .single (.react (.goOn (.giveUp hq)))
      | true => exact .single (.react (.stop hq))
  | succ steps ih =>
    intro w b
    dsimp only at ih ⊢
    cases hq : w.queue with
    | nil =>
      rw [Scope.run_of_queue_nil _ _ hq]
      exact ticks_finish front rest i (steps + 1) hq b.exhausted
    | cons block blocks =>
      rw [Scope.run_succ _ _ hq]
      cases hb : b.exhausted with
      | false =>
        rw [if_neg Bool.false_ne_true]
        exact .head (.react (.goOn (.process hq))) ((ticks_flag _ _).trans (ih _ b.spend))
      | true =>
        rw [if_pos rfl, Budget.exhausted_iff.mp hb]
        exact .single (.react (.stop hq))

/-- One worker after another under a budget is one of the schedules. -/
theorem ticks_analyzeAll (hlimit : 0 < limit) : ∀ (is : List Nat) (front : List FunctionResult)
    (b : Budget),
    ReflTransGen (Tick p limit h snap) (b.exhausted, done front ++ waiting is)
      ((p.analyzeAll h snap is b).2.exhausted, done (front ++ (p.analyzeAll h snap is b).1)) := by
  intro is
  induction is with
  | nil =>
    intro front b
    rw [waiting, List.map_nil, List.append_nil]
    show ReflTransGen _ _ (b.exhausted, done (front ++ []))
    rw [List.append_nil]
  | cons i is ih =>
    -- the workers in front are done, so there is a place for the next one
    intro front b
    have hfree : atWork (done front ++ (i, .waiting) :: waiting is) < limit := by
      have hnone := atWork_done_waiting front (i :: is)
      rw [waiting, List.map_cons] at hnone
      exact hnone.symm ▸ hlimit
    have hworker := @ticks_run p limit h snap (done front) (waiting is) i Scope.maxSteps
      (p.scope h snap i).start b
    have hrest := ih (front ++ [((p.scope h snap i).analyze b).1]) ((p.scope h snap i).analyze b).2
    rw [done, List.map_append, List.append_assoc, List.append_assoc] at hrest
    exact .head (.begin hfree) (hworker.trans hrest)

end

end Pool

/-! ### Rounds -/

namespace Program

/-- A round that may be cancelled at any point; afterwards the work is cancelled or not, and the
round was cut off or not. -/
def RoundUnder (p : Program) (limit maxHops : Nat) (k k' : Knowledge) (c cut : Bool) : Prop :=
  ∃ rs rs', ReflTransGen (Pool.Tick p limit maxHops k.snapshot) (false, Pool.waiting k.work)
      (c, Pool.done rs) ∧ Reordered rs rs' ∧ k' = rs'.foldl (Knowledge.merge p) k.cleared ∧
    cut = rs'.any (·.cancelled)

/-- Rounds that may be cancelled at any point.  The flag says whether the work is cancelled. -/
inductive RoundsUnder (p : Program) (limit maxHops : Nat) :
    Nat → Bool → Knowledge → RoundsResult → Prop where
  | cancel {fuel : Nat} {k : Knowledge} {r : RoundsResult}
      (hrest : RoundsUnder p limit maxHops fuel true k r) :
      RoundsUnder p limit maxHops fuel false k r
  | finished {fuel : Nat} {c : Bool} {k : Knowledge} (hwork : k.work = []) :
      RoundsUnder p limit maxHops fuel c k ⟨k, false⟩
  | stopped {fuel : Nat} {k : Knowledge} (hwork : k.work ≠ []) :
      RoundsUnder p limit maxHops fuel true k ⟨k, true⟩
  | outOfRounds {k : Knowledge} (hwork : k.work ≠ []) :
      RoundsUnder p limit maxHops 0 false k ⟨k, true⟩
  | cutOff {fuel : Nat} {c : Bool} {k k' : Knowledge} (hwork : k.work ≠ [])
      (hround : p.RoundUnder limit maxHops k k' c true) :
      RoundsUnder p limit maxHops (fuel + 1) false k ⟨k', true⟩
  | next {fuel : Nat} {c : Bool} {k k' : Knowledge} {r : RoundsResult} (hwork : k.work ≠ [])
      (hround : p.RoundUnder limit maxHops k k' c false)
      (hrest : RoundsUnder p limit maxHops fuel c k' r) :
      RoundsUnder p limit maxHops (fuel + 1) false k r

variable {p : Program} {limit h : Nat} {k k' : Knowledge}

/-- A round keeps all derived, wherever its workers are cut off. -/
theorem derived_of_roundUnder (hk : k.Derived p h) {c cut : Bool}
    (hround : p.RoundUnder limit h k k' c cut) : k'.Derived p h := by
  obtain ⟨rs, rs', hticks, hre, rfl, -⟩ := hround
  have hrs := Pool.derived_of_ticks hk.snapshot (fun i hi => hk.due i (mem_work.mp hi))
    hticks
  refine Knowledge.derived_foldl_merge hk.cleared fun r' hr' => ?_
  obtain ⟨r, hr, hreordered⟩ := hre.exists_mem.2 r' hr'
  exact hreordered.derived (hrs r hr)

/-- **What rounds know is derived**, wherever they are cut off. -/
theorem derived_of_roundsUnder {fuel : Nat} {c : Bool} {r : RoundsResult}
    (hrounds : p.RoundsUnder limit h fuel c k r) (hk : k.Derived p h) :
    r.knowledge.Derived p h := by
  induction hrounds with
  | cancel _ ih => exact ih hk
  | finished _ => exact hk
  | stopped _ => exact hk
  | outOfRounds _ => exact hk
  | cutOff _ hround => exact derived_of_roundUnder hk hround
  | next _ hround _ ih => exact ih (derived_of_roundUnder hk hround)

/-- Rounds with a schedule are rounds that are not cancelled. -/
theorem roundsUnder_of_roundsBy {fuel : Nat} {r : RoundsResult}
    (hrounds : p.RoundsBy limit h fuel k r) : p.RoundsUnder limit h fuel false k r := by
  have hround : ∀ {k k' : Knowledge} {cut : Bool}, p.RoundBy limit h k k' cut →
      p.RoundUnder limit h k k' false cut := by
    rintro k k' cut ⟨rs, rs', hsteps, hrest⟩
    exact ⟨rs, rs', hsteps.lift (fun pool => (false, pool)) fun _ _ => Pool.tick_of_step, hrest⟩
  induction hrounds with
  | finished hwork => exact .finished hwork
  | outOfRounds hwork => exact .outOfRounds hwork
  | cancelled hwork hby => exact .cutOff hwork (hround hby)
  | next hwork hby _ ih => exact .next hwork (hround hby) ih

/-- A round under a budget is one that is cut off when the budget is used up. -/
theorem roundUnder_round (hlimit : 0 < limit) (k : Knowledge) (b : Budget) :
    p.RoundUnder limit h k (p.round h k b.spend).1.1 (p.round h k b.spend).2.exhausted
      (p.round h k b.spend).1.2 := by
  have hticks := @Pool.ticks_analyzeAll p limit h k.snapshot hlimit k.work [] b.spend
  refine ⟨p.results h k b.spend, p.results h k b.spend, (Pool.ticks_flag _ _).trans hticks, ?_, ?_,
    ?_⟩
  · exact ⟨_, List.forall₂_same.mpr fun r _ => .refl r, .refl _⟩
  · rw [round_eq]
  · rw [round_eq]

/-- Rounds under a budget are rounds that are cut off when the budget is used up. -/
theorem roundsUnder_roundsFrom (hlimit : 0 < limit) : ∀ (fuel : Nat) (k : Knowledge) (b : Budget),
    p.RoundsUnder limit h fuel b.exhausted k (p.roundsFrom h fuel k b).1 := by
  intro fuel
  induction fuel with
  | zero =>
    intro k b
    by_cases hwork : k.work = []
    · rw [p.roundsFrom_of_work_nil h 0 hwork]
      exact .finished hwork
    · rw [p.roundsFrom_zero h hwork]
      cases b.exhausted with
      | false => exact .outOfRounds hwork
      | true => exact .stopped hwork
  | succ fuel ih =>
    intro k b
    by_cases hwork : k.work = []
    · rw [p.roundsFrom_of_work_nil h _ hwork]
      exact .finished hwork
    · rw [p.roundsFrom_succ h fuel hwork]
      cases hb : b.exhausted with
      | true => exact .stopped hwork
      | false =>
        have hround := roundUnder_round (p := p) (h := h) hlimit k b
        rw [if_neg Bool.false_ne_true]
        cases hcut : (p.round h k b.spend).1.2 with
        | true => exact .cutOff hwork (hcut ▸ hround)
        | false => exact .next hwork (hcut ▸ hround) (ih _ _)

/-- The work of rounds may be cancelled before they begin. -/
theorem roundsUnder_rounds (hlimit : 0 < limit) (p : Program) (h maxRounds : Nat) (b : Budget) :
    p.RoundsUnder limit h maxRounds false (.initial p) (p.rounds h maxRounds b).1 := by
  have hrounds := roundsUnder_roundsFrom (p := p) (h := h) hlimit maxRounds (.initial p) b
  cases hb : b.exhausted with
  | false => exact hb ▸ hrounds
  | true => exact .cancel (hb ▸ hrounds)

/-- **Every reported chain is executable.**  For every program that is built, every hop limit, every
limit of rounds and every number of workers, let rounds run in any way: they complete, or run out of
rounds, or are cancelled at any point, where each worker of a round is cut off or comes to its end
on its own.  Then control passes along the chain of every flow, the check of chains accepts it, and
it is reported, itself or by a chain between the same ends that is at least as good.  No chain is
ever dropped as one that is not executable.  The rounds with any schedule are among these, and so
are those that are cancelled after any number of checks. -/
theorem executable_flows (cache : Cache) (sources : List Source) (sinks : List Sink)
    (san : Sanitizers) (maxHops maxRounds limit : Nat) :
    let p := build cache sources sinks san
    (∀ r, p.RoundsUnder limit maxHops maxRounds false (.initial p) r →
      (∀ s t c, ((s, t), c) ∈ r.knowledge.flows.entries →
        p.Executable c.steps ∧ p.blockedAt? c.steps = none ∧
        ∃ src snk, p.sources[s]? = some src ∧ p.sinks[t]? = some snk ∧
          ∃ g : Route, g.StandsFor ⟨src, snk, c⟩ ∧
            p.finding g ∈ (p.findings r.knowledge.flows).1) ∧
      ∀ d ∈ (p.findings r.knowledge.flows).2, d.kind ≠ .infeasiblePath) ∧
    (∀ r, p.RoundsBy limit maxHops maxRounds (.initial p) r →
      p.RoundsUnder limit maxHops maxRounds false (.initial p) r) ∧
    (0 < limit → ∀ b, p.RoundsUnder limit maxHops maxRounds false (.initial p)
      (p.rounds maxHops maxRounds b).1) := by
  intro p
  have hp : p.WellFormed := wellFormed_build cache sources sinks san
  refine ⟨fun r hr => ?_, fun r hr => roundsUnder_of_roundsBy hr,
    fun hlimit b => roundsUnder_rounds hlimit p maxHops maxRounds b⟩
  have hknown := derived_of_roundsUnder hr (Knowledge.derived_initial p maxHops)
  exact executable_of_derived hp hknown

/-- In the sample, rounds that are cancelled after 18 checks have found a flow, and the check
accepts its chain. -/
theorem executable_flows_sample :
    sample.RoundsUnder 2 5 100 false (.initial sample) (sample.rounds 5 100 (some 18)).1 ∧
      (sample.rounds 5 100 (some 18)).1.incomplete = true ∧
      ((0, 0), sampleChain) ∈ (sample.rounds 5 100 (some 18)).1.knowledge.flows.entries ∧
      sample.Executable sampleChain.steps ∧ sample.blockedAt? sampleChain.steps = none := by
  obtain ⟨hexec, -, hbudget⟩ := executable_flows sampleCache sampleSources sampleSinks
    (Sanitizers.make [] none) 5 100 2
  have hrun := hbudget (by decide) (some 18)
  have hmem := Best.mem_entries_of_get? sample_rounds_cancelled.2
  have hflow := (hexec _ hrun).1 0 0 sampleChain hmem
  exact ⟨hrun, sample_rounds_cancelled.1, hmem, hflow.1, hflow.2.1⟩

end Program

end TaintFlow.Flow
