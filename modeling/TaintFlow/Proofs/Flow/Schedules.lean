import Mathlib.Logic.Relation
import TaintFlow.Proofs.Flow.Cancellation
import TaintFlow.Proofs.Flow.EntryOrder
import TaintFlow.Proofs.Flow.HopLimit
import TaintFlow.Proofs.Flow.Termination

/-!
# Rounds with many workers

The functions of a round may be analysed by workers that run at the same time, a limited number of
them, and their results may be joined in any order.  Workers read what was known before the round
and share nothing else, so whichever worker goes on, each one comes to the result that its function
has on its own.  The order of results and of their entries does not matter either.  So an analysis
gives the same findings and diagnostics, whatever the limit is and however workers are scheduled.

## Main definitions

* `Worker`, `Pool.Step` — workers, and one step of one of them.
* `Reordered` — the same results in another order, with their entries in other orders.
* `Program.RoundsBy` — rounds with some schedules.
* `Step.Declared` — steps that are told apart by what they show.

## Main results

* `Pool.results_of_steps` — each worker comes to the result of its function.
* `Program.agrees_of_roundsBy` — rounds with any schedules come to know the same.
* `Program.findings_congr` — the findings do not depend on the order of flows.
* `same_analysis_of_schedules` — an analysis does not depend on the schedule.
-/

namespace TaintFlow.Flow

open Relation (ReflTransGen)

/-! ### Workers -/

/-- A worker of a round: it waits for its turn, is at work with some steps left, or is done. -/
inductive Worker where
  | waiting
  | running (steps : Nat) (w : Work)
  | done (records : Records) (cancelled : Bool)

namespace Worker

/-- Whether a worker takes up a place. -/
def isRunning : Worker → Bool
  | .running .. => true
  | _ => false

/-- One step of a worker: it processes a block, or it is done, since no block is left to process or
since no steps are. -/
inductive Advances (s : Scope) : Worker → Worker → Prop where
  | process {steps : Nat} {w : Work} {block : Nat} {rest : List Nat}
      (hq : w.queue = block :: rest) :
      Advances s (.running (steps + 1) w) (.running steps (s.process w block))
  | finish {steps : Nat} {w : Work} (hq : w.queue = []) :
      Advances s (.running steps w) (.done w.records false)
  | giveUp {w : Work} {block : Nat} {rest : List Nat} (hq : w.queue = block :: rest) :
      Advances s (.running 0 w) (.done w.records true)

/-- A worker is on the way to the result of its function. -/
def OnTheWay (s : Scope) : Worker → Prop
  | .waiting => True
  | .running steps w =>
    (s.run steps w Budget.unlimited).1 = (s.run Scope.maxSteps s.start Budget.unlimited).1
  | .done records cancelled =>
    (s.run Scope.maxSteps s.start Budget.unlimited).1.1.records = records ∧
      (s.run Scope.maxSteps s.start Budget.unlimited).1.2 = cancelled

/-- **A step of a worker keeps it on the way.** -/
theorem OnTheWay.advances {s : Scope} {a b : Worker} (ha : a.OnTheWay s) (h : a.Advances s b) :
    b.OnTheWay s := by
  cases h with
  | @process steps w block rest hq =>
    have hrun : s.run (steps + 1) w Budget.unlimited =
        s.run steps (s.process w block) Budget.unlimited := by
      rw [s.run_succ steps hq]
      rfl
    rw [OnTheWay, hrun] at ha
    exact ha
  | @finish steps w hq =>
    rw [OnTheWay, s.run_of_queue_nil steps hq] at ha
    rw [OnTheWay, ← ha]
    exact ⟨rfl, rfl⟩
  | @giveUp w block rest hq =>
    rw [OnTheWay, s.run_zero hq] at ha
    rw [OnTheWay, ← ha]
    exact ⟨rfl, rfl⟩

end Worker

/-- The workers of a round, each with its function. -/
abbrev Pool := List (Nat × Worker)

namespace Pool

/-- The workers of functions that nobody has begun to analyse. -/
def waiting (is : List Nat) : Pool :=
  is.map fun i => (i, .waiting)

/-- Workers that are done with given results. -/
def done (rs : List FunctionResult) : Pool :=
  rs.map fun r => (r.function, .done r.records r.cancelled)

/-- How many workers are at work. -/
def atWork (pool : Pool) : Nat :=
  pool.countP (·.2.isRunning)

/-- One step of a pool of which at most `limit` workers may be at work: one that waits begins, or
one that is at work goes on. -/
inductive Step (p : Program) (limit maxHops : Nat) (snap : Snapshot) : Pool → Pool → Prop where
  | begin {front rest : Pool} {i : Nat}
      (hfree : atWork (front ++ (i, .waiting) :: rest) < limit) :
      Step p limit maxHops snap (front ++ (i, .waiting) :: rest)
        (front ++ (i, .running Scope.maxSteps (p.scope maxHops snap i).start) :: rest)
  | advance {front rest : Pool} {i : Nat} {a b : Worker}
      (h : a.Advances (p.scope maxHops snap i) b) :
      Step p limit maxHops snap (front ++ (i, a) :: rest) (front ++ (i, b) :: rest)

section

variable {p : Program} {limit h : Nat} {snap : Snapshot}

/-- The invariant of a pool: its workers are those of the functions, all on the way. -/
def OnTheWay (p : Program) (h : Nat) (snap : Snapshot) (is : List Nat) (pool : Pool) : Prop :=
  pool.map (·.1) = is ∧ ∀ e ∈ pool, e.2.OnTheWay (p.scope h snap e.1)

theorem map_fst_replace {front rest : Pool} {i : Nat} (a b : Worker) :
    (front ++ (i, b) :: rest).map (·.1) = (front ++ (i, a) :: rest).map (·.1) := by
  simp

/-- What all workers satisfy, all satisfy still when the one that changed does. -/
theorem forall_replace {P : Nat × Worker → Prop} {front rest : Pool} {i : Nat} {a b : Worker}
    (h : ∀ e ∈ front ++ (i, a) :: rest, P e) (hb : P (i, b)) :
    ∀ e ∈ front ++ (i, b) :: rest, P e := by
  intro e he
  rcases List.mem_append.mp he with he | he
  · exact h e (List.mem_append_left _ he)
  · rcases List.mem_cons.mp he with rfl | he
    · exact hb
    · exact h e (List.mem_append_right _ (List.mem_cons_of_mem _ he))

theorem onTheWay_step {is : List Nat} {pool pool' : Pool} (hpool : pool.OnTheWay p h snap is)
    (hstep : Step p limit h snap pool pool') : pool'.OnTheWay p h snap is := by
  obtain ⟨hfunctions, hall⟩ := hpool
  cases hstep with
  | begin hfree => exact ⟨(map_fst_replace _ _).trans hfunctions, forall_replace hall rfl⟩
  | @advance front rest i a b hab =>
    have ha := hall (i, a) (List.mem_append_right _ List.mem_cons_self)
    exact ⟨(map_fst_replace _ _).trans hfunctions, forall_replace hall (ha.advances hab)⟩

/-- **Whatever the schedule, each worker comes to the result of its function.** -/
theorem results_of_steps {is : List Nat} {rs : List FunctionResult}
    (hsteps : ReflTransGen (Step p limit h snap) (waiting is) (done rs)) :
    rs = is.map (p.resultWithin Scope.maxSteps h snap) := by
  have hstart : (waiting is).OnTheWay p h snap is := by
    refine ⟨?_, fun e he => ?_⟩
    · rw [waiting, List.map_map]
      exact List.map_id is
    · obtain ⟨i, -, rfl⟩ := List.mem_map.mp he
      trivial
  -- the invariant holds at the end, where being on the way is being there
  have hend : (done rs).OnTheWay p h snap is := by
    generalize waiting is = first at hsteps hstart
    generalize done rs = last at hsteps ⊢
    induction hsteps with
    | refl => exact hstart
    | tail _ hstep ih => exact onTheWay_step ih hstep
  obtain ⟨hfunctions, hall⟩ := hend
  have hresult : ∀ r ∈ rs, r = p.resultWithin Scope.maxSteps h snap r.function := by
    intro r hr
    have hdone := hall _ (List.mem_map.mpr ⟨r, hr, rfl⟩)
    rw [Worker.OnTheWay] at hdone
    rw [Program.resultWithin, hdone.1, hdone.2]
  have hmap : rs.map (·.function) = is := by
    rw [← hfunctions, done, List.map_map]
    rfl
  rw [← hmap, List.map_map]
  conv_lhs => rw [← List.map_id rs]
  exact List.map_congr_left fun r hr => hresult r hr

/-! ### Some schedule -/

/-- A worker with a place comes to an end. -/
theorem exists_advance (s : Scope) : ∀ (steps : Nat) (w : Work),
    ∃ records cancelled, ReflTransGen (Worker.Advances s) (.running steps w)
      (.done records cancelled) := by
  intro steps
  induction steps with
  | zero =>
    intro w
    cases hq : w.queue with
    | nil => exact ⟨_, _, .single (.finish hq)⟩
    | cons block rest => exact ⟨_, _, .single (.giveUp hq)⟩
  | succ steps ih =>
    intro w
    cases hq : w.queue with
    | nil => exact ⟨_, _, .single (.finish hq)⟩
    | cons block rest =>
      obtain ⟨records, cancelled, hrest⟩ := ih (s.process w block)
      exact ⟨records, cancelled, .head (.process hq) hrest⟩

/-- Nobody is at work where some are done and the others wait. -/
theorem atWork_done_waiting (front : List FunctionResult) (is : List Nat) :
    atWork (done front ++ waiting is) = 0 := by
  rw [atWork, List.countP_eq_zero]
  intro e he
  rcases List.mem_append.mp he with he | he
  · obtain ⟨r, -, rfl⟩ := List.mem_map.mp he
    exact Bool.false_ne_true
  · obtain ⟨i, -, rfl⟩ := List.mem_map.mp he
    exact Bool.false_ne_true

/-- One worker after another is one of the schedules. -/
theorem exists_steps (p : Program) (h : Nat) (snap : Snapshot) (hlimit : 0 < limit) :
    ∀ (is : List Nat) (front : List FunctionResult),
      ∃ rs, ReflTransGen (Step p limit h snap) (done front ++ waiting is) (done rs) := by
  intro is
  induction is with
  | nil =>
    intro front
    refine ⟨front, ?_⟩
    rw [waiting, List.map_nil, List.append_nil]
  | cons i is ih =>
    -- the workers in front are done, so there is a place for the next one
    intro front
    obtain ⟨records, cancelled, hworker⟩ := exists_advance (p.scope h snap i) Scope.maxSteps
      (p.scope h snap i).start
    have hadvance : ReflTransGen (Step p limit h snap)
        (done front ++
          (i, .running Scope.maxSteps (p.scope h snap i).start) :: waiting is)
        (done front ++ (i, .done records cancelled) :: waiting is) :=
      hworker.lift (fun a => done front ++ (i, a) :: waiting is) fun _ _ hab => .advance hab
    obtain ⟨rs, hrest⟩ := ih (front ++ [⟨i, records, cancelled⟩])
    refine ⟨rs, .head (.begin ?_) (hadvance.trans ?_)⟩
    · exact (atWork_done_waiting front (i :: is)).symm ▸ hlimit
    · rw [done, List.map_append, List.append_assoc] at hrest
      exact hrest

end

end Pool

/-! ### Rounds with a schedule -/

/-- A result with its entries in other orders. -/
structure FunctionResult.Reordered (r r' : FunctionResult) : Prop where
  function : r'.function = r.function
  flows : r.records.flows.entries.Perm r'.records.flows.entries
  sinks : r.records.summary.sinks.entries.Perm r'.records.summary.sinks.entries
  returns : r.records.summary.returns.entries.Perm r'.records.summary.returns.entries
  intrinsic : r.records.summary.intrinsic.entries.Perm r'.records.summary.intrinsic.entries
  args : r.records.args.Perm r'.records.args
  cancelled : r'.cancelled = r.cancelled

/-- The same results in another order, with their entries in other orders. -/
def Reordered (rs rs' : List FunctionResult) : Prop :=
  ∃ mid, List.Forall₂ FunctionResult.Reordered rs mid ∧ mid.Perm rs'

namespace Program

/-- A round whose functions are analysed by at most `limit` workers at a time, and whose results are
joined in some order. -/
def RoundBy (p : Program) (limit maxHops : Nat) (k k' : Knowledge) (cancelled : Bool) : Prop :=
  ∃ rs rs', ReflTransGen (Pool.Step p limit maxHops k.snapshot) (Pool.waiting k.work)
      (Pool.done rs) ∧ Reordered rs rs' ∧ k' = rs'.foldl (Knowledge.merge p) k.cleared ∧
    cancelled = rs'.any (·.cancelled)

/-- Rounds, each with some schedule. -/
inductive RoundsBy (p : Program) (limit maxHops : Nat) :
    Nat → Knowledge → RoundsResult → Prop where
  | finished {fuel : Nat} {k : Knowledge} (hwork : k.work = []) :
      RoundsBy p limit maxHops fuel k ⟨k, false⟩
  | outOfRounds {k : Knowledge} (hwork : k.work ≠ []) : RoundsBy p limit maxHops 0 k ⟨k, true⟩
  | cancelled {fuel : Nat} {k k' : Knowledge} (hwork : k.work ≠ [])
      (hround : p.RoundBy limit maxHops k k' true) :
      RoundsBy p limit maxHops (fuel + 1) k ⟨k', true⟩
  | next {fuel : Nat} {k k' : Knowledge} {r : RoundsResult} (hwork : k.work ≠ [])
      (hround : p.RoundBy limit maxHops k k' false) (hrest : RoundsBy p limit maxHops fuel k' r) :
      RoundsBy p limit maxHops (fuel + 1) k r

end Program

theorem FunctionResult.Reordered.refl (r : FunctionResult) : r.Reordered r :=
  ⟨rfl, .refl _, .refl _, .refl _, .refl _, .refl _, rfl⟩

theorem FunctionResult.Reordered.sameOffers {r r' : FunctionResult} (h : r.Reordered r') :
    r.SameOffers r' where
  function := h.function
  flows := sameOffers_of_perm h.flows
  summary := ⟨sameOffers_of_perm h.sinks, sameOffers_of_perm h.returns,
    sameOffers_of_perm h.intrinsic⟩
  args _ := h.args.mem_iff
  cancelled := h.cancelled

theorem FunctionResult.Reordered.derived {p : Program} {h : Nat} {r r' : FunctionResult}
    (hr : r.Reordered r') (hd : r.records.Derived p h r.function) :
    r'.records.Derived p h r'.function := by
  have hsum := hd.summary
  rw [hr.function]
  exact ⟨⟨fun i t c hc => hsum.sinks i t c (hr.sinks.mem_iff.mpr hc),
    fun i c hc => hsum.returns i c (hr.returns.mem_iff.mpr hc),
    fun i c hc => hsum.intrinsic i c (hr.intrinsic.mem_iff.mpr hc)⟩,
    fun i t c hc => hd.flows i t c (hr.flows.mem_iff.mpr hc),
    fun g i hi => hd.args g i (hr.args.mem_iff.mpr hi)⟩

/-- Every result has its counterpart, in both directions. -/
theorem Reordered.exists_mem {rs rs' : List FunctionResult} (h : Reordered rs rs') :
    (∀ r ∈ rs, ∃ r' ∈ rs', r.Reordered r') ∧ ∀ r' ∈ rs', ∃ r ∈ rs, r.Reordered r' := by
  have hto : ∀ {rs mid : List FunctionResult}, List.Forall₂ FunctionResult.Reordered rs mid →
      (∀ r ∈ rs, ∃ r' ∈ mid, r.Reordered r') ∧ ∀ r' ∈ mid, ∃ r ∈ rs, r.Reordered r' := by
    intro rs mid h
    induction h with
    | nil => simp
    | cons hr _ ih =>
      simp only [List.forall_mem_cons, List.exists_mem_cons_iff]
      exact ⟨⟨Or.inl hr, fun q hq => Or.inr (ih.1 q hq)⟩, Or.inl hr, fun q hq => Or.inr (ih.2 q hq)⟩
  obtain ⟨mid, hmid, hperm⟩ := h
  refine ⟨fun r hr => ?_, fun r' hr' => (hto hmid).2 r' (hperm.mem_iff.mpr hr')⟩
  obtain ⟨r', hr', hreordered⟩ := (hto hmid).1 r hr
  exact ⟨r', hperm.mem_iff.mp hr', hreordered⟩

theorem Reordered.sameResults {rs rs' : List FunctionResult} (h : Reordered rs rs') :
    SameResults rs rs' := by
  obtain ⟨hto, hfrom⟩ := h.exists_mem
  refine ⟨fun r hr => ?_, fun r' hr' => ?_⟩
  · obtain ⟨r', hr', hreordered⟩ := hto r hr
    exact ⟨r', hr', hreordered.sameOffers⟩
  · obtain ⟨r, hr, hreordered⟩ := hfrom r' hr'
    exact ⟨r, hr, hreordered.sameOffers⟩

/-! ### What rounds know -/

/-- The result of a function does not depend on the order of what it reads. -/
theorem Program.sameOffers_resultWithin (p : Program) (steps h : Nat) {snap snap' : Snapshot}
    (hsnap : snap.SameMaps snap') (i : Nat) :
    (p.resultWithin steps h snap i).SameOffers (p.resultWithin steps h snap' i) := by
  have hstart : (p.scope h snap i).start.SameMaps (p.scope h snap' i).start := by
    have heq : (p.scope h snap i).start = (p.scope h snap' i).start :=
      start_congr (by rw [hsnap.params])
    rw [heq]
    exact Scope.sameMaps_start _
  obtain ⟨hsame, hcancelled⟩ := Scope.sameMaps_run hsnap steps _ _ Budget.unlimited hstart
  obtain ⟨hflows, hsummary⟩ := hsame.records.sameOffers
  exact ⟨rfl, hflows, hsummary, hsame.records.args, hcancelled⟩

namespace Knowledge

variable {p : Program} {h : Nat} {k k' : Knowledge}

/-- What is known holds every key once. -/
structure Distinct (k : Knowledge) : Prop where
  flows : k.flows.keys.Nodup
  summary : ∀ f, (k.snapshot.summary f).Distinct

theorem distinct_initial (p : Program) : (Knowledge.initial p).Distinct := by
  refine ⟨List.nodup_nil, fun f => ?_⟩
  rw [summary_initial]
  exact Summary.distinct_empty

theorem Distinct.cleared (hk : k.Distinct) : k.cleared.Distinct :=
  ⟨hk.flows, hk.summary⟩

theorem Distinct.foldl_merge (hk : k.Distinct) (p : Program) (rs : List FunctionResult) :
    (rs.foldl (Knowledge.merge p) k).Distinct := by
  induction rs generalizing k with
  | nil => exact hk
  | cons r rs ih =>
    refine ih ⟨?_, fun f => ?_⟩
    · rw [flows_merge]
      exact Best.nodup_keys_join hk.flows _
    · rw [summary_merge]
      split
      · exact (hk.summary f).join _
      · exact hk.summary f

/-- Two things known are the same, and both are derived and hold every key once. -/
structure Agrees (p : Program) (h : Nat) (k k' : Knowledge) : Prop where
  alike : k.Alike k'
  distinct : k.Distinct
  distinct' : k'.Distinct
  derived : k.Derived p h
  derived' : k'.Derived p h

theorem Agrees.sameMaps (hk : Agrees p h k k') : k.snapshot.SameMaps k'.snapshot :=
  ⟨hk.distinct.summary, hk.distinct'.summary, hk.alike.summary, hk.alike.params⟩

theorem Agrees.work_eq (hk : Agrees p h k k') : k'.work = k.work := by
  rw [work, work, hk.alike.due]

theorem Alike.cleared (hk : k.Alike k') : k.cleared.Alike k'.cleared := by
  refine ⟨hk.flows, hk.size, hk.summary, hk.params, ?_, ?_⟩
  · show k.due.map _ = k'.due.map _
    rw [hk.due]
  · show k.rounds + 1 = k'.rounds + 1
    rw [hk.rounds]

end Knowledge

theorem Summary.SameOffers.trans {a b c : Summary} (h : a.SameOffers b) (h' : b.SameOffers c) :
    a.SameOffers c :=
  ⟨h.sinks.trans h'.sinks, h.returns.trans h'.returns, h.intrinsic.trans h'.intrinsic⟩

theorem FunctionResult.SameOffers.trans {r r' r'' : FunctionResult} (h : r.SameOffers r')
    (h' : r'.SameOffers r'') : r.SameOffers r'' :=
  ⟨h'.function.trans h.function, h.flows.trans h'.flows, h.summary.trans h'.summary,
    fun a => (h.args a).trans (h'.args a), h'.cancelled.trans h.cancelled⟩

theorem SameResults.any_cancelled {rs rs' : List FunctionResult} (h : SameResults rs rs') :
    rs'.any (·.cancelled) = rs.any (·.cancelled) := by
  rw [Bool.eq_iff_iff, List.any_eq_true, List.any_eq_true]
  refine ⟨fun ⟨r', hr', hc⟩ => ?_, fun ⟨r, hr, hc⟩ => ?_⟩
  · obtain ⟨r, hr, hsame⟩ := h.2 r' hr'
    exact ⟨r, hr, hsame.cancelled ▸ hc⟩
  · obtain ⟨r', hr', hsame⟩ := h.1 r hr
    exact ⟨r', hr', hsame.cancelled.symm ▸ hc⟩

namespace Program

variable {p : Program} {limit h : Nat} {k k' known : Knowledge}

/-- **A round with any schedule comes to know the same.** -/
theorem agrees_of_roundBy (hk : k.Agrees p h k') {cancelled : Bool}
    (hround : p.RoundBy limit h k' known cancelled) :
    (p.roundWithin Scope.maxSteps h k).1.Agrees p h known ∧
      cancelled = (p.roundWithin Scope.maxSteps h k).2 := by
  obtain ⟨rs, rs', hsteps, hre, rfl, rfl⟩ := hround
  have hrs : rs = k.work.map (p.resultWithin Scope.maxSteps h k'.snapshot) := by
    rw [Pool.results_of_steps hsteps, hk.work_eq]
  have hresult := p.sameOffers_resultWithin Scope.maxSteps h hk.sameMaps
  obtain ⟨hto, hfrom⟩ := hre.exists_mem
  -- the results joined are those of the functions that are due
  have hsame : SameResults (k.work.map (p.resultWithin Scope.maxSteps h k.snapshot)) rs' := by
    refine ⟨fun r hr => ?_, fun r' hr' => ?_⟩
    · obtain ⟨i, hi, rfl⟩ := List.mem_map.mp hr
      obtain ⟨r', hr', hreordered⟩ := hto _ (hrs ▸ List.mem_map_of_mem hi)
      exact ⟨r', hr', (hresult i).trans hreordered.sameOffers⟩
    · obtain ⟨r, hr, hreordered⟩ := hfrom r' hr'
      obtain ⟨i, hi, rfl⟩ := List.mem_map.mp (hrs ▸ hr)
      exact ⟨_, List.mem_map_of_mem hi, (hresult i).trans hreordered.sameOffers⟩
  have hderived' : ∀ r' ∈ rs', r'.records.Derived p h r'.function := by
    intro r' hr'
    obtain ⟨r, hr, hreordered⟩ := hfrom r' hr'
    obtain ⟨i, hi, rfl⟩ := List.mem_map.mp (hrs ▸ hr)
    obtain ⟨fn, hfn⟩ := hk.derived.due i (mem_work.mp hi)
    refine hreordered.derived ?_
    exact (Scope.derived_run hfn hk.derived'.snapshot Scope.maxSteps Budget.unlimited).records
  refine ⟨⟨Knowledge.alike_foldl_merge hk.alike.cleared hsame, ?_, ?_,
    derived_roundWithin hk.derived _, ?_⟩, hsame.any_cancelled⟩
  · exact hk.distinct.cleared.foldl_merge p _
  · exact hk.distinct'.cleared.foldl_merge p _
  · exact Knowledge.derived_foldl_merge hk.derived'.cleared hderived'

/-- **Rounds with any schedules come to know the same.** -/
theorem agrees_of_roundsBy {fuel : Nat} {r : RoundsResult}
    (hrounds : p.RoundsBy limit h fuel k' r) (hk : k.Agrees p h k') :
    (p.roundsWithin Scope.maxSteps h fuel k).knowledge.Agrees p h r.knowledge ∧
      r.incomplete = (p.roundsWithin Scope.maxSteps h fuel k).incomplete := by
  -- what is due is the same on both sides, so the rounds end together
  induction hrounds generalizing k with
  | finished hwork =>
    rw [hk.work_eq] at hwork
    rw [roundsWithin_of_work_nil hwork]
    exact ⟨hk, rfl⟩
  | outOfRounds hwork =>
    rw [hk.work_eq] at hwork
    rw [roundsWithin_zero hwork]
    exact ⟨hk, rfl⟩
  | cancelled hwork hround =>
    obtain ⟨hnext, hcancelled⟩ := agrees_of_roundBy hk hround
    rw [hk.work_eq] at hwork
    rw [roundsWithin_succ hwork, ← hcancelled, if_pos rfl]
    exact ⟨hnext, rfl⟩
  | next hwork hround _ ih =>
    obtain ⟨hnext, hcancelled⟩ := agrees_of_roundBy hk hround
    rw [hk.work_eq] at hwork
    rw [roundsWithin_succ hwork, ← hcancelled, if_neg Bool.false_ne_true]
    exact ih hnext

/-- There are rounds with a schedule, whatever the limit of workers. -/
theorem exists_roundsBy (p : Program) (h : Nat) (hlimit : 0 < limit) : ∀ (fuel : Nat)
    (k : Knowledge), ∃ r, p.RoundsBy limit h fuel k r := by
  have hround : ∀ k : Knowledge, ∃ known cancelled, p.RoundBy limit h k known cancelled := by
    intro k
    obtain ⟨rs, hsteps⟩ := Pool.exists_steps p h k.snapshot hlimit k.work []
    exact ⟨_, _, rs, rs, hsteps, ⟨rs, List.forall₂_same.mpr fun r _ => .refl r, .refl rs⟩, rfl, rfl⟩
  intro fuel
  induction fuel with
  | zero =>
    intro k
    by_cases hwork : k.work = []
    · exact ⟨_, .finished hwork⟩
    · exact ⟨_, .outOfRounds hwork⟩
  | succ fuel ih =>
    intro k
    by_cases hwork : k.work = []
    · exact ⟨_, .finished hwork⟩
    · obtain ⟨known, cancelled, hknown⟩ := hround k
      cases cancelled with
      | true => exact ⟨_, .cancelled hwork hknown⟩
      | false =>
        obtain ⟨r, hr⟩ := ih known
        exact ⟨r, .next hwork hknown hr⟩

end Program

/-! ### Chains that are told apart -/

/-- The kind of a step is the one that its name stands for. -/
def Step.Declared (s : Step) : Prop :=
  StepKind.ofName s.kind.name = s.kind

/-- The step that shows given fields. -/
def Step.ofFields (e : String × Int × Int × Int × Int × String × String) : Step :=
  ⟨.ofName e.1, e.2.1, e.2.2.1, e.2.2.2.1, e.2.2.2.2.1, e.2.2.2.2.2.1, e.2.2.2.2.2.2⟩

theorem Step.Declared.ofFields_fields {s : Step} (h : s.Declared) : ofFields s.fields = s := by
  rw [ofFields, Step.fields, h]

/-- Chains with steps of declared kinds are told apart by what they show. -/
theorem Chain.eq_of_view {c d : Chain} (hc : ∀ s ∈ c.steps, s.Declared)
    (hd : ∀ s ∈ d.steps, s.Declared) (h : c.view = d.view) : c = d := by
  have hsteps : ∀ c : Chain, (∀ s ∈ c.steps, s.Declared) →
      (c.newestFirst.map Step.fields).map Step.ofFields = c.newestFirst := by
    intro c hc
    rw [List.map_map]
    refine (List.map_congr_left fun s hs => ?_).trans (List.map_id _)
    exact (hc s (List.mem_reverse.mpr hs)).ofFields_fields
  simp only [Chain.view, Prod.mk.injEq] at h
  obtain ⟨htruncated, hdepth, hfields⟩ := h
  have hnewest : c.newestFirst = d.newestFirst := by
    rw [← hsteps c hc, ← hsteps d hd, hfields]
  obtain ⟨last, before, depth, truncated⟩ := c
  obtain ⟨last', before', depth', truncated'⟩ := d
  rw [Chain.newestFirst, Chain.newestFirst, List.cons.injEq] at hnewest
  rw [Chain.mk.injEq]
  exact ⟨hnewest.1, hnewest.2, hdepth, htruncated⟩

theorem Program.declared_of_mem_alphabet {p : Program} {h : Nat} {s : Step}
    (hs : s ∈ p.alphabet h) : s.Declared := by
  obtain ⟨f, -, hs⟩ := List.mem_flatMap.mp hs
  rcases List.mem_append.mp hs with hs | hs
  · rcases List.mem_append.mp hs with hs | hs <;> obtain ⟨_, -, rfl⟩ := List.mem_map.mp hs <;> rfl
  · obtain ⟨⟨b, pos, line, stmt⟩, -, hs⟩ := List.mem_flatMap.mp hs
    cases stmt <;>
      simp only [Scope.statementSteps, crossing, List.mem_map, List.mem_flatMap, List.mem_cons,
        List.not_mem_nil, or_false] at hs
    · obtain ⟨_, -, rfl⟩ := hs
      rfl
    · obtain ⟨_, -, rfl | rfl⟩ := hs <;> rfl
    · obtain ⟨_, -, rfl⟩ := hs
      rfl
    · rcases hs with rfl | ⟨_, -, _, -, rfl | rfl | rfl⟩ <;> rfl
    · rw [hs]
      rfl

/-- The chains of flows are equal. -/
theorem Knowledge.Agrees.get?_flows {p : Program} {h : Nat} {k k' : Knowledge}
    (hk : k.Agrees p h k') (e : Nat × Nat) : k.flows.get? e = k'.flows.get? e := by
  have hdeclared : ∀ {k : Knowledge} {c : Chain}, k.Derived p h → k.flows.get? e = some c →
      ∀ s ∈ c.steps, s.Declared := by
    intro k c hk hc s hs
    obtain ⟨f, hd⟩ := hk.flows e.1 e.2 c (Best.mem_entries_of_get? hc)
    exact Program.declared_of_mem_alphabet (hd.bounded.2 s hs)
  have hrel := hk.alike.flows e
  revert hrel
  cases hc : k.flows.get? e <;> cases hd : k'.flows.get? e <;> intro hrel <;> cases hrel
  · rfl
  · next hview =>
    rw [Chain.eq_of_view (hdeclared hk.derived hc) (hdeclared hk.derived' hd) hview]

/-- The findings do not depend on the order of flows. -/
theorem Program.findings_congr (p : Program) {best best' : Best (Nat × Nat)}
    (hnodup : best.keys.Nodup) (hnodup' : best'.keys.Nodup)
    (hget : ∀ e, best.get? e = best'.get? e) : p.findings best = p.findings best' := by
  have hperm : best.entries.Perm best'.entries := by
    refine (List.perm_ext_iff_of_nodup (Best.nodup_entries hnodup)
      (Best.nodup_entries hnodup')).mpr fun ⟨e, c⟩ => ?_
    rw [← Best.get?_eq_some_iff hnodup, ← Best.get?_eq_some_iff hnodup', hget]
  have hsorted : sortBy compareEnds best.entries = sortBy compareEnds best'.entries := by
    refine List.Perm.eq_of_pairwise (fun a b ha hb hab hba => ?_)
      (pairwise_sortBy compareEnds best.entries) (pairwise_sortBy compareEnds best'.entries)
      ((List.mergeSort_perm _ _).trans (hperm.trans (List.mergeSort_perm _ _).symm))
    -- two entries that may stand in either order have one key
    have ha : a ∈ best.entries := (List.mergeSort_perm _ _).mem_iff.mp ha
    have hb : b ∈ best.entries := hperm.mem_iff.mpr ((List.mergeSort_perm _ _).mem_iff.mp hb)
    refine List.inj_on_of_nodup_map hnodup ha hb ?_
    simp only [compareEnds, Ordering.isLE_then_iff_or, Nat.compare_eq_lt, Nat.compare_eq_eq,
      Nat.isLE_compare] at hab hba
    exact Prod.ext (by omega) (by omega)
  have hroutes : p.routes best = p.routes best' := by
    rw [routes, routes, hsorted]
  rw [findings, findings, hroutes]

/-! ### Analyses -/

open Facts (Cache)
open Discovery (Source Sink)

/-- **An analysis does not depend on the schedule.**  The results of a round may be joined in any
order, and their entries too: what is known then is the same.  So rounds whose functions are
analysed by any number of workers at a time, in any order of their steps, and whose results are
joined in any order, come to know the same flows, and the analysis ends with the same findings and
diagnostics; and there are such rounds for every number of workers. -/
theorem same_analysis_of_schedules (limits : Limits) (cache : Cache) (sources : List Source)
    (sinks : List Sink) :
    let p := limits.program cache sources sinks
    let rounds := (p.rounds limits.maxHops limits.maxRounds Budget.unlimited).1
    (∀ (k : Knowledge) (rs rs' : List FunctionResult), Reordered rs rs' →
        (rs.foldl (Knowledge.merge p) k).Alike (rs'.foldl (Knowledge.merge p) k)) ∧
      (∀ limit r, p.RoundsBy limit limits.maxHops limits.maxRounds (.initial p) r →
        rounds.knowledge.Alike r.knowledge ∧
          (∀ e, rounds.knowledge.flows.get? e = r.knowledge.flows.get? e) ∧
          Analysis.ofRounds limits p r false =
            (analyze limits cache sources sinks Budget.unlimited).1) ∧
      ∀ limit, 0 < limit →
        ∃ r, p.RoundsBy limit limits.maxHops limits.maxRounds (.initial p) r := by
  intro p rounds
  have hrounds : p.rounds limits.maxHops limits.maxRounds Budget.unlimited =
      (p.roundsWithin Scope.maxSteps limits.maxHops limits.maxRounds (.initial p),
        Budget.unlimited) := p.roundsFrom_unlimited limits.maxHops limits.maxRounds (.initial p)
  refine ⟨fun k rs rs' h => Knowledge.alike_foldl_merge (.refl k) h.sameResults,
    fun limit r hr => ?_, fun limit hlimit => p.exists_roundsBy limits.maxHops hlimit _ _⟩
  have hinitial : (Knowledge.initial p).Agrees p limits.maxHops (.initial p) :=
    ⟨.refl _, Knowledge.distinct_initial p, Knowledge.distinct_initial p,
      Knowledge.derived_initial p _, Knowledge.derived_initial p _⟩
  obtain ⟨hagrees, hincomplete⟩ := Program.agrees_of_roundsBy hr hinitial
  have hfindings := p.findings_congr hagrees.distinct.flows hagrees.distinct'.flows
    hagrees.get?_flows
  have hopen : Budget.unlimited.exhausted = false := rfl
  rw [show rounds = _ from congrArg Prod.fst hrounds]
  refine ⟨hagrees.alike, hagrees.get?_flows, ?_⟩
  rw [analyze_eq_ofRounds, hrounds, hopen, Bool.and_false, Analysis.ofRounds, Analysis.ofRounds,
    hfindings, hincomplete, hagrees.alike.rounds]

end TaintFlow.Flow
