import TaintFlow.Proofs.Flow.Fixpoint
import TaintFlow.Proofs.Flow.WorklistEnds

/-!
# The rounds end

Without cancellation and without a limit of rounds, the rounds end after finitely many of them.  A
round after which functions are due has made a summary better or marked a parameter.  The chains of
summaries are derived by the statement rules, so they are made of the steps of the program, and they
stand for finitely many facts.  A chain may be replaced by a longer one when it lacks steps, but it
weighs less then, and weights do not decrease for ever.

## Main definitions

* `Program.roundsWithin` — rounds that are not cancelled, with a limit for every worklist.
* `Knowledge.Improves` — a summary got better, or a parameter is marked.
* `Program.alphabet`, `Program.facts` — the steps of all chains, and the facts they stand for.
* `Knowledge.potential` — what the chains known weigh.

## Main results

* `Program.improves_roundWithin` — a round after which functions are due is an improvement.
* `Knowledge.potential_lt` — an improvement weighs less.
* `Program.rounds_terminate` — the rounds end.
-/

namespace TaintFlow.Flow

/-! ### Rounds without cancellation -/

namespace Program

/-- The result of a function whose worklist processes at most `steps` blocks. -/
def resultWithin (p : Program) (steps maxHops : Nat) (snap : Snapshot) (i : Nat) :
    FunctionResult :=
  let w := ((p.scope maxHops snap i).run steps (p.scope maxHops snap i).start Budget.unlimited).1
  ⟨i, w.1.records, w.2⟩

/-- One round, and whether a worklist came to its limit. -/
def roundWithin (p : Program) (steps maxHops : Nat) (k : Knowledge) : Knowledge × Bool :=
  let results := k.work.map (p.resultWithin steps maxHops k.snapshot)
  (results.foldl (Knowledge.merge p) k.cleared, results.any (·.cancelled))

/-- At most `fuel` rounds. -/
def roundsWithin (p : Program) (steps maxHops : Nat) : Nat → Knowledge → RoundsResult
  | fuel, k =>
    if k.work.isEmpty then ⟨k, false⟩
    else
      match fuel with
      | 0 => ⟨k, true⟩
      | fuel + 1 =>
        if (p.roundWithin steps maxHops k).2 then ⟨(p.roundWithin steps maxHops k).1, true⟩
        else p.roundsWithin steps maxHops fuel (p.roundWithin steps maxHops k).1

/-- What is known after some rounds. -/
def knownAfter (p : Program) (steps maxHops : Nat) : Nat → Knowledge
  | 0 => .initial p
  | n + 1 => (p.roundWithin steps maxHops (p.knownAfter steps maxHops n)).1

section

variable {p : Program} {steps h fuel : Nat} {k : Knowledge}

theorem roundsWithin_of_work_nil (hk : k.work = []) :
    p.roundsWithin steps h fuel k = ⟨k, false⟩ := by
  cases fuel <;> rw [roundsWithin, hk] <;> rfl

theorem roundsWithin_zero (hk : k.work ≠ []) : p.roundsWithin steps h 0 k = ⟨k, true⟩ := by
  rw [roundsWithin, if_neg (by simpa using hk)]

theorem roundsWithin_succ (hk : k.work ≠ []) :
    p.roundsWithin steps h (fuel + 1) k =
      if (p.roundWithin steps h k).2 then ⟨(p.roundWithin steps h k).1, true⟩
      else p.roundsWithin steps h fuel (p.roundWithin steps h k).1 := by
  rw [roundsWithin, if_neg (by simpa using hk)]

end

theorem run_snd_unlimited (s : Scope) : ∀ (fuel : Nat) (w : Work),
    (s.run fuel w Budget.unlimited).2 = Budget.unlimited := by
  intro fuel
  induction fuel with
  | zero =>
    intro w
    cases hq : w.queue with
    | nil => rw [s.run_of_queue_nil 0 hq]
    | cons block rest => rw [s.run_zero hq]
  | succ fuel ih =>
    intro w
    cases hq : w.queue with
    | nil => rw [s.run_of_queue_nil _ hq]
    | cons block rest =>
      rw [s.run_succ fuel hq]
      exact ih _

theorem analyzeAll_unlimited (p : Program) (h : Nat) (snap : Snapshot) (is : List Nat) :
    p.analyzeAll h snap is Budget.unlimited =
      (is.map (p.resultWithin Scope.maxSteps h snap), Budget.unlimited) := by
  induction is with
  | nil => rfl
  | cons i is ih =>
    have hleft : ((p.scope h snap i).analyze Budget.unlimited).2 = Budget.unlimited :=
      run_snd_unlimited (p.scope h snap i) Scope.maxSteps (p.scope h snap i).start
    have hrest : (p.analyzeAll h snap (i :: is) Budget.unlimited).2 =
        (p.analyzeAll h snap is ((p.scope h snap i).analyze Budget.unlimited).2).2 := rfl
    refine Prod.ext ?_ ?_
    · rw [analyzeAll_cons, hleft, ih]
      rfl
    · rw [hrest, hleft, ih]

theorem round_unlimited (p : Program) (h : Nat) (k : Knowledge) :
    p.round h k Budget.unlimited = (p.roundWithin Scope.maxSteps h k, Budget.unlimited) := by
  have hall := p.analyzeAll_unlimited h k.snapshot k.work
  have hleft : (p.round h k Budget.unlimited).2 =
      (p.analyzeAll h k.snapshot k.work Budget.unlimited).2 := rfl
  refine Prod.ext ?_ ?_
  · rw [round_eq, results, hall]
    rfl
  · rw [hleft, hall]

/-- The rounds of an analysis that is not cancelled are those with its own limit for worklists. -/
theorem roundsFrom_unlimited (p : Program) (h : Nat) : ∀ (fuel : Nat) (k : Knowledge),
    p.roundsFrom h fuel k Budget.unlimited =
      (p.roundsWithin Scope.maxSteps h fuel k, Budget.unlimited) := by
  have hspend : Budget.unlimited.spend = Budget.unlimited := rfl
  have hopen : Budget.unlimited.exhausted = false := rfl
  intro fuel
  induction fuel with
  | zero =>
    intro k
    by_cases hk : k.work = []
    · rw [p.roundsFrom_of_work_nil h 0 hk, roundsWithin_of_work_nil hk]
    · rw [p.roundsFrom_zero h hk, roundsWithin_zero hk, hspend]
  | succ fuel ih =>
    intro k
    by_cases hk : k.work = []
    · rw [p.roundsFrom_of_work_nil h _ hk, roundsWithin_of_work_nil hk]
    · rw [p.roundsFrom_succ h fuel hk, roundsWithin_succ hk, hspend, round_unlimited, hopen,
        if_neg Bool.false_ne_true]
      dsimp only
      split
      · rfl
      · exact ih _

end Program

/-! ### Improvements -/

/-- A chain of a summary got better, or there is a new one. -/
def Summary.Improves (a b : Summary) : Prop :=
  a.sinks.Improves b.sinks ∨ a.returns.Improves b.returns ∨ a.intrinsic.Improves b.intrinsic

theorem Summary.improves_join {a b : Summary} (h : a.improvedBy b = true) :
    a.Improves (a.join b) := by
  rw [improvedBy, Bool.or_eq_true, Bool.or_eq_true] at h
  rcases h with (h | h) | h
  · exact Or.inl (Best.improves_join h)
  · exact Or.inr (Or.inl (Best.improves_join h))
  · exact Or.inr (Or.inr (Best.improves_join h))

namespace Knowledge

/-- A summary got better, or a parameter is marked that was not. -/
inductive Improves (k k' : Knowledge) : Prop where
  | summary (f : Nat) (h : (k.snapshot.summary f).Improves (k'.snapshot.summary f))
  | param (f i : Nat) (hold : (k.params.getD f 0).testBit i = false)
      (hnew : (k'.params.getD f 0).testBit i = true)

/-- No summary gets worse, and marked parameters stay marked. -/
structure Grows (k k' : Knowledge) : Prop where
  summary : ∀ f, (k.snapshot.summary f).Grows (k'.snapshot.summary f)
  params : ∀ f i, (k.params.getD f 0).testBit i = true → (k'.params.getD f 0).testBit i = true

variable {p : Program} {h : Nat} {k k' k'' : Knowledge}

theorem Extends.grows (hext : k.Extends p k') : k.Grows k' :=
  ⟨hext.summary, hext.params⟩

theorem Improves.trans_grows (himp : k.Improves k') (hgrows : k'.Grows k'') : k.Improves k'' := by
  cases himp with
  | summary f himp =>
    have hsum := hgrows.summary f
    refine .summary f ?_
    rcases himp with himp | himp | himp
    · exact Or.inl (himp.trans_grows hsum.sinks)
    · exact Or.inr (Or.inl (himp.trans_grows hsum.returns))
    · exact Or.inr (Or.inr (himp.trans_grows hsum.intrinsic))
  | param f i hold hnew => exact .param f i hold (hgrows.params f i hnew)

theorem Grows.trans_improves (hgrows : k.Grows k') (himp : k'.Improves k'') : k.Improves k'' := by
  cases himp with
  | summary f himp =>
    have hsum := hgrows.summary f
    refine .summary f ?_
    rcases himp with himp | himp | himp
    · exact Or.inl (Best.Grows.trans_improves hsum.sinks himp)
    · exact Or.inr (Or.inl (Best.Grows.trans_improves hsum.returns himp))
    · exact Or.inr (Or.inr (Best.Grows.trans_improves hsum.intrinsic himp))
  | param f i hold hnew =>
    refine .param f i ?_ hnew
    cases hbit : (k.params.getD f 0).testBit i with
    | false => rfl
    | true => rw [hgrows.params f i hbit] at hold; cases hold

/-- Nothing gets worse, and what is due changes only with an improvement. -/
def Advances (p : Program) (k k' : Knowledge) : Prop :=
  k.Extends p k' ∧ (k'.due = k.due ∨ k.Improves k')

theorem Advances.refl (p : Program) (k : Knowledge) : k.Advances p k :=
  ⟨.refl p k, Or.inl rfl⟩

theorem Advances.trans (h : k.Advances p k') (h' : k'.Advances p k'') : k.Advances p k'' := by
  refine ⟨h.1.trans h'.1, ?_⟩
  rcases h'.2 with hdue' | himp'
  · rcases h.2 with hdue | himp
    · exact Or.inl (hdue'.trans hdue)
    · exact Or.inr (himp.trans_grows h'.1.grows)
  · exact Or.inr (h.1.grows.trans_improves himp')

theorem advances_mergeSummary (hk : k.Sized p) {i : Nat} (hi : i < p.code.functions.size)
    (sm : Summary) : k.Advances p (k.mergeSummary p i sm) := by
  refine ⟨extends_mergeSummary p k i sm, ?_⟩
  by_cases himp : (k.summaries.getD i {}).improvedBy sm = true
  · right
    refine .summary i ?_
    have hjoined : (k.mergeSummary p i sm).snapshot.summary i = (k.snapshot.summary i).join sm := by
      simp only [mergeSummary, himp, if_true, Snapshot.summary, Knowledge.snapshot]
      rw [getD_setIfInBounds, if_pos ⟨rfl, hk.summaries.symm ▸ hi⟩]
    rw [hjoined]
    exact Summary.improves_join himp
  · left
    simp only [mergeSummary, himp, Bool.false_eq_true, if_false]

theorem advances_addParam (hk : k.Sized p) (callee param : Nat) :
    k.Advances p (k.addParam p callee param) := by
  refine ⟨extends_addParam p k callee param, ?_⟩
  by_cases hlt : callee < k.params.size
  · cases hbit : (k.params.getD callee 0).testBit param with
    | false => exact Or.inr (.param callee param hbit (testBit_addParam p k hlt param))
    | true =>
      have hsame := Bits.or_single_eq_self.mpr hbit
      left
      simp only [addParam, hsame, beq_self_eq_true, if_true]
  · -- there is no such function
    have hdue : ¬ callee < k.due.size := by rw [hk.due, ← hk.params]; exact hlt
    have hmark : markDue p k.due callee = k.due := by rw [markDue, dif_neg hdue]
    left
    simp only [addParam, hmark, apply_ite Knowledge.due, ite_self]

theorem advances_merge (hk : k.Sized p) {r : FunctionResult}
    (hr : r.function < p.code.functions.size) : k.Advances p (k.merge p r) := by
  have hargs : ∀ (args : List (Nat × Nat)) {k : Knowledge}, k.Sized p →
      k.Advances p (args.foldl (fun k e => k.addParam p e.1 e.2) k) := by
    intro args
    induction args with
    | nil => intro k _; exact .refl p k
    | cons a args ih =>
      intro k hk
      have hfirst := advances_addParam hk a.1 a.2
      exact hfirst.trans (ih (hfirst.1.sized hk))
  have hflows : k.Advances p { k with flows := k.flows.join r.records.flows } :=
    ⟨⟨fun hs => ⟨hs.summaries, hs.params, hs.due⟩,
      fun _ _ hc => hc.offerAll r.records.flows.entries, fun _ => .refl _, fun _ _ hi => hi,
      fun _ _ hd => hd, fun _ _ _ _ => ⟨rfl, fun _ _ => rfl⟩⟩, Or.inl rfl⟩
  have hsized := hflows.1.sized hk
  have hsummary := advances_mergeSummary hsized hr r.records.summary
  exact (hflows.trans hsummary).trans (hargs _ (hsummary.1.sized hsized))

theorem advances_foldl_merge (hk : k.Sized p) {rs : List FunctionResult}
    (hrs : ∀ r ∈ rs, r.function < p.code.functions.size) :
    k.Advances p (rs.foldl (Knowledge.merge p) k) := by
  induction rs generalizing k with
  | nil => exact .refl p k
  | cons r rs ih =>
    have hfirst := advances_merge hk (hrs r List.mem_cons_self)
    exact hfirst.trans (ih (hfirst.1.sized hk) fun r' hr' => hrs r' (List.mem_cons_of_mem _ hr'))

end Knowledge

namespace Program

variable {p : Program} {steps h : Nat} {k : Knowledge}

theorem advances_roundWithin (hk : k.Sized p) (steps h : Nat) :
    k.cleared.Advances p (p.roundWithin steps h k).1 := by
  refine Knowledge.advances_foldl_merge hk.cleared fun r hr => ?_
  obtain ⟨i, hi, rfl⟩ := List.mem_map.mp hr
  rw [← hk.due]
  refine Nat.lt_of_not_le fun hle => ?_
  have hdue := mem_work.mp hi
  simp [Array.getD_eq_getD_getElem?, show k.due.size ≤ i from hle] at hdue

theorem grows_roundWithin (hk : k.Sized p) (steps h : Nat) :
    k.Grows (p.roundWithin steps h k).1 := by
  have hcleared := (advances_roundWithin hk steps h).1.grows
  exact ⟨hcleared.summary, hcleared.params⟩

/-- **A round after which functions are due is an improvement.** -/
theorem improves_roundWithin (hk : k.Sized p) (hwork : (p.roundWithin steps h k).1.work ≠ []) :
    k.Improves (p.roundWithin steps h k).1 := by
  rcases (advances_roundWithin hk steps h).2 with hdue | himp
  · obtain ⟨i, hi⟩ := List.exists_mem_of_ne_nil _ hwork
    rw [mem_work, hdue, getD_due_cleared] at hi
    cases hi
  · cases himp with
    | summary f himp => exact .summary f himp
    | param f i hold hnew => exact .param f i hold hnew

theorem derived_roundWithin (hk : k.Derived p h) (steps : Nat) :
    (p.roundWithin steps h k).1.Derived p h := by
  refine Knowledge.derived_foldl_merge hk.cleared fun r hr => ?_
  obtain ⟨i, hi, rfl⟩ := List.mem_map.mp hr
  obtain ⟨fn, hfn⟩ := hk.due i (mem_work.mp hi)
  exact (Scope.derived_run hfn hk.snapshot steps Budget.unlimited).records

end Program

/-! ### Of what chains are made, and what they stand for -/

namespace Program

/-- The steps of all chains. -/
def alphabet (p : Program) (h : Nat) : List Step :=
  (List.range p.code.functions.size).flatMap fun f => (p.bare h f).ownSteps

/-- What taint may stem from. -/
def roots (p : Program) : List Root :=
  (p.code.functions.toList.flatMap fun fn => (List.range fn.params.length).map .param)
    ++ (List.range p.sources.size).map .source

/-- The parameters that calls bind. -/
def boundParams (p : Program) : List (Nat × Nat) :=
  p.calls.toList.flatMap fun site => site.bindings.map fun b => (site.callee, b.param)

/-- The facts that summaries and marked parameters stand for. -/
def facts (p : Program) : List Fact :=
  p.boundParams.map (fun e => .receives e.1 e.2)
    ++ (List.range p.code.functions.size).flatMap fun f => p.roots.flatMap fun r =>
      .reachesReturn f r :: (List.range p.sinks.size).map (.reachesSink f r)

end Program

/-- A fact speaks of functions, roots, sinks and bound parameters of a program. -/
def Fact.Bounded (p : Program) : Fact → Prop
  | .tainted f _ _ _ r => f < p.code.functions.size ∧ r ∈ p.roots
  | .receives f i => (f, i) ∈ p.boundParams
  | .reachesSink f r k => f < p.code.functions.size ∧ r ∈ p.roots ∧ k < p.sinks.size
  | .reachesReturn f r => f < p.code.functions.size ∧ r ∈ p.roots

namespace Program

variable {p : Program} {h : Nat}

theorem Analyzes.lt {f : Nat} {fn : Function} (hf : p.Analyzes f fn) :
    f < p.code.functions.size :=
  Knowledge.lt_size_of_canAnalyze (canAnalyze_iff.mpr ⟨fn, hf⟩)

theorem source_mem_roots {i : Nat} {src : Discovery.Source} (hsrc : p.sources[i]? = some src) :
    .source i ∈ p.roots := by
  obtain ⟨hi, -⟩ := Array.getElem?_eq_some_iff.mp hsrc
  exact List.mem_append_right _ (List.mem_map_of_mem (List.mem_range.mpr hi))

theorem Derives.fact_bounded {fact : Fact} {c : Chain} (d : p.Derives h fact c) :
    fact.Bounded p := by
  induction d with
  | @enterParam f e i fn name c hf he hname hne _ ih =>
    obtain ⟨hi, -⟩ := List.getElem?_eq_some_iff.mp hname
    have hfn : fn ∈ p.code.functions.toList :=
      Array.mem_toList_iff.mpr (Array.mem_of_getElem? hf.1)
    refine ⟨hf.lt, List.mem_append_left _ (List.mem_flatMap.mpr ⟨fn, hfn, ?_⟩)⟩
    exact List.mem_map_of_mem (List.mem_range.mpr hi)
  | enterHandler hf he hi hsrc hname hne => exact ⟨hf.lt, source_mem_roots hsrc⟩
  | edge hf hb hb' _ ih => exact ih
  | keep hrun hx _ ih => exact ih
  | seed hf hrun hsrc => exact ⟨hf.lt, source_mem_roots hsrc⟩
  | assign hrun hx _ ih => exact ih
  | assignBound hrun hi hsite hbound hx _ _ ih _ => exact ih
  | assignIntrinsic hf hrun hi hsite _ ih => exact ⟨hf.lt, ih.2⟩
  | call hrun hsite hbound hx _ ih =>
    refine List.mem_flatMap.mpr ⟨_, Array.mem_toList_iff.mpr (Array.mem_of_getElem? hsite), ?_⟩
    exact List.mem_map.mpr ⟨_, hbound, rfl⟩
  | callSink hrun hsite hbound hx _ _ ih iht => exact ⟨ih.1, ih.2, iht.2.2⟩
  | sink hrun hsink hx _ ih => exact ⟨ih.1, ih.2, (Array.getElem?_eq_some_iff.mp hsink).1⟩
  | ret hrun hx _ ih => exact ih

/-- Taint is derived in functions that can be analysed. -/
theorem Derives.analyzes {f b pos : Nat} {x : String} {r : Root} {c : Chain}
    (d : p.Derives h (.tainted f b pos x r) c) : ∃ fn, p.Analyzes f fn := by
  generalize hfact : Fact.tainted f b pos x r = fact at d
  induction d generalizing b pos x r with
  | enterParam hf | enterHandler hf | edge hf | seed hf | assignIntrinsic hf =>
    cases hfact
    exact ⟨_, hf⟩
  | keep hrun hx _ ih | assign hrun hx _ ih | assignBound hrun hi hsite hbound hx _ _ ih _ =>
    cases hfact
    exact ih rfl
  | _ => cases hfact

/-- **Derived chains are made of the steps of functions that can be analysed.** -/
theorem Derives.over {steps : List Step}
    (hown : ∀ f fn, p.Analyzes f fn → ∀ x ∈ (p.bare h f).ownSteps, x ∈ steps) {fact : Fact}
    {c : Chain} (d : p.Derives h fact c) : c.Over steps := by
  have hstatement : ∀ {f fn b pos line stmt}, p.Analyzes f fn → p.Runs f b pos line stmt →
      ∀ x ∈ (p.bare h f).statementSteps b pos ⟨line, stmt⟩, x ∈ steps :=
    fun hf hrun x hx => hown _ _ hf x (Scope.mem_ownSteps (s := p.bare h _) hrun hx)
  have hparam : ∀ {f fn name}, p.Analyzes f fn → name ∈ fn.params →
      (p.bare h f).paramStep name ∈ steps := by
    intro f fn name hf hname
    refine hown f fn hf _ (List.mem_append_left _ (List.mem_append_left _ (List.mem_map_of_mem ?_)))
    rw [bare, function_scope hf.1]
    exact hname
  induction d with
  | enterParam hf he hname => exact Chain.over_single (hparam hf (List.mem_of_getElem? hname))
  | enterHandler hf he hi hsrc hname =>
    refine (Chain.over_single ?_).push (hparam hf hname)
    refine hown _ _ hf _ (List.mem_append_left _ (List.mem_append_right _ (List.mem_map_of_mem ?_)))
    exact Array.mem_toList_iff.mpr (Array.mem_of_getElem? hsrc)
  | edge _ _ _ _ ih => exact ih
  | keep _ _ _ ih => exact ih
  | seed hf hrun hsrc =>
    refine Chain.over_single (hstatement hf hrun _ ?_)
    exact List.mem_map.mpr ⟨_, Option.mem_toList.mpr hsrc, rfl⟩
  | assign hrun hx d ih =>
    obtain ⟨fn, hf⟩ := d.analyzes
    exact ih.push (hstatement hf hrun _ List.mem_cons_self)
  | assignBound hrun hi hsite hbound hx d _ ih iht =>
    obtain ⟨fn, hf⟩ := d.analyzes
    -- the steps of a call are those behind the assignment itself
    have hcall : ∀ x, x ∈ _ → x ∈ steps := fun x hx =>
      hstatement hf hrun x (List.mem_cons_of_mem _ (List.mem_flatMap.mpr ⟨_, hi,
        List.mem_flatMap.mpr ⟨_, Option.mem_toList.mpr hsite, List.mem_cons_of_mem _ hx⟩⟩))
    refine Chain.Over.push ?_ (hstatement hf hrun _ List.mem_cons_self)
    exact ih.compose iht _ (hcall _ List.mem_cons_self)
      (hcall _ (List.mem_cons_of_mem _ List.mem_cons_self))
  | assignIntrinsic hf hrun hi hsite _ ih =>
    refine Chain.Over.push ?_ (hstatement hf hrun _ List.mem_cons_self)
    refine ih.lift _ (hstatement hf hrun _ (List.mem_cons_of_mem _ ?_))
    exact List.mem_flatMap.mpr ⟨_, hi,
      List.mem_flatMap.mpr ⟨_, Option.mem_toList.mpr hsite, List.mem_cons_self⟩⟩
  | call _ _ _ _ _ ih => exact ih
  | callSink hrun hsite hbound hx d _ ih iht =>
    obtain ⟨fn, hf⟩ := d.analyzes
    have hcall : ∀ x, x ∈ _ → x ∈ steps := fun x hx =>
      hstatement hf hrun x (List.mem_flatMap.mpr ⟨_, Option.mem_toList.mpr hsite, hx⟩)
    exact ih.compose iht _ (hcall _ List.mem_cons_self)
      (hcall _ (List.mem_cons_of_mem _ List.mem_cons_self))
  | sink hrun hsink hx d ih =>
    obtain ⟨fn, hf⟩ := d.analyzes
    refine ih.push (hstatement hf hrun _ ?_)
    exact List.mem_map.mpr ⟨_, Option.mem_toList.mpr hsink, rfl⟩
  | ret hrun hx d ih =>
    obtain ⟨fn, hf⟩ := d.analyzes
    exact ih.push (hstatement hf hrun _ List.mem_cons_self)

/-- **What is derived is made of the steps of the program, and speaks of its parts.** -/
theorem Derives.bounded {fact : Fact} {c : Chain} (d : p.Derives h fact c) :
    fact.Bounded p ∧ c.Over (p.alphabet h) :=
  ⟨d.fact_bounded, d.over fun f _ hf _ hx =>
    List.mem_flatMap.mpr ⟨f, List.mem_range.mpr hf.lt, hx⟩⟩

theorem receives_mem_facts {f i : Nat} (hb : Fact.Bounded p (.receives f i)) :
    .receives f i ∈ p.facts :=
  List.mem_append_left _ (List.mem_map.mpr ⟨(f, i), hb, rfl⟩)

theorem reachesReturn_mem_facts {f : Nat} {r : Root} (hb : Fact.Bounded p (.reachesReturn f r)) :
    .reachesReturn f r ∈ p.facts := by
  refine List.mem_append_right _ (List.mem_flatMap.mpr ⟨f, List.mem_range.mpr hb.1, ?_⟩)
  exact List.mem_flatMap.mpr ⟨r, hb.2, List.mem_cons_self⟩

theorem reachesSink_mem_facts {f k : Nat} {r : Root} (hb : Fact.Bounded p (.reachesSink f r k)) :
    .reachesSink f r k ∈ p.facts := by
  refine List.mem_append_right _ (List.mem_flatMap.mpr ⟨f, List.mem_range.mpr hb.1, ?_⟩)
  refine List.mem_flatMap.mpr ⟨r, hb.2.1, List.mem_cons_of_mem _ ?_⟩
  exact List.mem_map_of_mem (List.mem_range.mpr hb.2.2)

end Program

/-! ### Weights of what is known -/

namespace Knowledge

variable {p : Program} {h : Nat} {k k' : Knowledge}

/-- What is known of a fact, by its weight. -/
def weight (alphabet : List Step) (k : Knowledge) : Fact → Weight
  | .receives f i => if (k.params.getD f 0).testBit i then ⊥ else ⊤
  | .reachesSink f (.param i) t => weightOf alphabet ((k.snapshot.summary f).sinks.get? (i, t))
  | .reachesReturn f (.param i) => weightOf alphabet ((k.snapshot.summary f).returns.get? i)
  | .reachesReturn f (.source s) => weightOf alphabet ((k.snapshot.summary f).intrinsic.get? s)
  | _ => ⊤

/-- What is known of all facts that summaries and marked parameters stand for. -/
def potential (p : Program) (h : Nat) (k : Knowledge) : {fact // fact ∈ p.facts} → Weight :=
  fun fact => k.weight (p.alphabet h) fact.1

theorem wellFounded_potential (p : Program) :
    WellFounded ((· < ·) : ({fact // fact ∈ p.facts} → Weight) → _ → Prop) := by
  have hfacts : Finite {fact // fact ∈ p.facts} := (List.finite_toSet p.facts).to_subtype
  exact wellFounded_lt

theorem weight_le_of_grows (hk' : k'.Derived p h) (hgrows : k.Grows k') (fact : Fact) :
    k'.weight (p.alphabet h) fact ≤ k.weight (p.alphabet h) fact := by
  have hsum := hk'.snapshot.summary
  match fact with
  | .receives f i =>
    simp only [weight]
    cases hbit : (k.params.getD f 0).testBit i with
    | false => exact le_top
    | true => rw [hgrows.params f i hbit]
  | .reachesSink f (.param i) t =>
    exact Best.weightOf_le_of_grows (hgrows.summary f).sinks fun c hc =>
      ((hsum f).sinks i t c (Best.mem_entries_of_get? hc)).bounded.2
  | .reachesReturn f (.param i) =>
    exact Best.weightOf_le_of_grows (hgrows.summary f).returns fun c hc =>
      ((hsum f).returns i c (Best.mem_entries_of_get? hc)).bounded.2
  | .reachesReturn f (.source s) =>
    exact Best.weightOf_le_of_grows (hgrows.summary f).intrinsic fun c hc =>
      ((hsum f).intrinsic s c (Best.mem_entries_of_get? hc)).bounded.2
  | .tainted .. => exact le_refl _
  | .reachesSink _ (.source _) _ => exact le_refl _

/-- **An improvement weighs less.** -/
theorem potential_lt (hk' : k'.Derived p h) (hgrows : k.Grows k') (himp : k.Improves k') :
    k'.potential p h < k.potential p h := by
  refine Pi.lt_def.mpr ⟨fun fact => weight_le_of_grows hk' hgrows fact.1, ?_⟩
  have hsum := hk'.snapshot.summary
  cases himp with
  | param f i hold hnew =>
    obtain ⟨c, hc⟩ := hk'.snapshot.params f i hnew
    refine ⟨⟨_, Program.receives_mem_facts hc.bounded.1⟩, ?_⟩
    simp only [potential, weight, hold, hnew, if_true, Bool.false_eq_true, if_false]
    exact WithTop.coe_lt_top _
  | summary f himp =>
    rcases himp with ⟨⟨i, t⟩, c, hc, hbetter⟩ | ⟨i, c, hc, hbetter⟩ | ⟨s, c, hc, hbetter⟩
    · obtain ⟨hbounded, hover⟩ := ((hsum f).sinks i t c (Best.mem_entries_of_get? hc)).bounded
      refine ⟨⟨_, Program.reachesSink_mem_facts hbounded⟩, ?_⟩
      simp only [potential, weight, hc]
      exact weightOf_lt_of_better hover hbetter
    · obtain ⟨hbounded, hover⟩ := ((hsum f).returns i c (Best.mem_entries_of_get? hc)).bounded
      refine ⟨⟨_, Program.reachesReturn_mem_facts hbounded⟩, ?_⟩
      simp only [potential, weight, hc]
      exact weightOf_lt_of_better hover hbetter
    · obtain ⟨hbounded, hover⟩ := ((hsum f).intrinsic s c (Best.mem_entries_of_get? hc)).bounded
      refine ⟨⟨_, Program.reachesReturn_mem_facts hbounded⟩, ?_⟩
      simp only [potential, weight, hc]
      exact weightOf_lt_of_better hover hbetter

/-- There is no infinite sequence of improvements. -/
theorem no_infinite_improvement (ks : ℕ → Knowledge) (hderived : ∀ n, (ks n).Derived p h)
    (hgrows : ∀ n, (ks n).Grows (ks (n + 1))) : ¬ ∀ n, (ks n).Improves (ks (n + 1)) := by
  intro himp
  have hdescends : ∀ n, (ks (n + 1)).potential p h < (ks n).potential p h :=
    fun n => potential_lt (hderived (n + 1)) (hgrows n) (himp n)
  have hempty := (wellFounded_iff_isEmpty_descending_chain.mp (wellFounded_potential p))
  exact hempty.false ⟨fun n => (ks n).potential p h, hdescends⟩

end Knowledge

/-! ### The rounds end -/

namespace Program

open Facts (Cache)
open Discovery (Source Sink)

variable {p : Program} {h : Nat} {k : Knowledge}

/-- The worklists of a round end: with enough steps for all of them, more steps change nothing. -/
theorem exists_roundWithin (hp : p.WellFormed) (hk : k.Derived p h) :
    ∃ steps, (p.roundWithin steps h k).2 = false ∧
      ∀ steps' ≥ steps, p.roundWithin steps' h k = p.roundWithin steps h k := by
  have hresults : ∀ is : List Nat, (∀ i ∈ is, ∃ fn, p.Analyzes i fn) →
      ∃ steps rs, rs.any (·.cancelled) = false ∧
        ∀ steps' ≥ steps, is.map (p.resultWithin steps' h k.snapshot) = rs := by
    intro is
    induction is with
    | nil => intro _; exact ⟨0, [], rfl, fun _ _ => rfl⟩
    | cons i is ih =>
      intro his
      obtain ⟨fn, hfn⟩ := his i List.mem_cons_self
      have hsound : (p.scope h k.snapshot i).function.Sound := by
        rw [function_scope hfn.1]
        exact hp.functions i fn hfn.1
      obtain ⟨steps, w, -, hrun⟩ := Scope.run_ends hsound
      obtain ⟨steps', rs, hrs, hmap⟩ := ih fun j hj => his j (List.mem_cons_of_mem _ hj)
      refine ⟨max steps steps', ⟨i, w.records, false⟩ :: rs, by simpa using hrs, fun n hn => ?_⟩
      rw [List.map_cons, hmap n (by omega), resultWithin, hrun n (by omega)]
  obtain ⟨steps, rs, hrs, hmap⟩ := hresults k.work fun i hi => hk.due i (mem_work.mp hi)
  refine ⟨steps, ?_, fun steps' hle => ?_⟩
  · rw [roundWithin, hmap steps (Nat.le_refl _)]
    exact hrs
  · rw [roundWithin, roundWithin, hmap steps' hle, hmap steps (Nat.le_refl _)]

/-- From all that is derived on, the rounds end. -/
theorem exists_roundsWithin (hp : p.WellFormed) (hsized : k.Sized p) (hk : k.Derived p h) :
    ∃ steps n r, r.incomplete = false ∧
      ∀ steps' ≥ steps, ∀ n' ≥ n, p.roundsWithin steps' h n' k = r := by
  induction hm : k.potential p h using (Knowledge.wellFounded_potential p).induction
    generalizing k with
  | _ m ih =>
    subst hm
    by_cases hwork : k.work = []
    · exact ⟨0, 0, ⟨k, false⟩, rfl, fun _ _ _ _ => roundsWithin_of_work_nil hwork⟩
    · obtain ⟨steps, hends, hsame⟩ := exists_roundWithin hp hk
      have hsized' := (advances_roundWithin hsized steps h).1.sized hsized.cleared
      have hk' := derived_roundWithin hk steps
      -- the rounds after this one end, since no function is due or something got better
      obtain ⟨steps', n, r, hr, hrest⟩ : ∃ steps' n r, r.incomplete = false ∧ ∀ m ≥ steps',
          ∀ n' ≥ n, p.roundsWithin m h n' (p.roundWithin steps h k).1 = r := by
        by_cases hwork' : (p.roundWithin steps h k).1.work = []
        · exact ⟨0, 0, ⟨_, false⟩, rfl, fun _ _ _ _ => roundsWithin_of_work_nil hwork'⟩
        · exact ih _ (Knowledge.potential_lt hk' (grows_roundWithin hsized steps h)
            (improves_roundWithin hsized hwork')) hsized' hk' rfl
      refine ⟨max steps steps', n + 1, r, hr, fun m hm n' hn => ?_⟩
      obtain ⟨n', rfl⟩ : ∃ j, n' = j + 1 := ⟨n' - 1, by omega⟩
      rw [roundsWithin_succ hwork, hsame m (by omega), hends, if_neg Bool.false_ne_true]
      exact hrest m (by omega) n' (by omega)

/-- What is known after any number of rounds is derived. -/
theorem knownAfter_spec (p : Program) (steps h n : Nat) :
    (p.knownAfter steps h n).Sized p ∧ (p.knownAfter steps h n).Derived p h := by
  induction n with
  | zero => exact ⟨(tracked_initial p h).sized, Knowledge.derived_initial p h⟩
  | succ n ih =>
    exact ⟨(advances_roundWithin ih.1 steps h).1.sized ih.1.cleared, derived_roundWithin ih.2 steps⟩

/-- **The rounds end.**  In every program that is built and for every hop limit: a round after which
functions are due has made a chain of a summary better, or has added one, or has marked a parameter
that was not marked.  There is no infinite sequence of such improvements of what is derived.  So
without cancellation there are limits of steps and of rounds under which the rounds are complete,
and higher limits change nothing.  The rounds of an analysis are those with its limit of steps. -/
theorem rounds_terminate (cache : Cache) (sources : List Source) (sinks : List Sink)
    (san : Sanitizers) (maxHops : Nat) :
    let p := build cache sources sinks san
    (∀ steps n, (p.knownAfter steps maxHops (n + 1)).work ≠ [] →
        (p.knownAfter steps maxHops n).Improves (p.knownAfter steps maxHops (n + 1))) ∧
      (∀ ks : ℕ → Knowledge, (∀ n, (ks n).Derived p maxHops) →
        (∀ n, (ks n).Grows (ks (n + 1))) → ¬ ∀ n, (ks n).Improves (ks (n + 1))) ∧
      (∃ steps n r, r.incomplete = false ∧
        ∀ steps' ≥ steps, ∀ n' ≥ n, p.roundsWithin steps' maxHops n' (.initial p) = r) ∧
      ∀ n, (p.rounds maxHops n Budget.unlimited).1 =
        p.roundsWithin Scope.maxSteps maxHops n (.initial p) := by
  intro p
  have hp : p.WellFormed := wellFormed_build cache sources sinks san
  refine ⟨fun steps n hwork => ?_, Knowledge.no_infinite_improvement,
    exists_roundsWithin hp (tracked_initial p maxHops).sized (Knowledge.derived_initial p maxHops),
    fun n => congrArg Prod.fst (p.roundsFrom_unlimited maxHops n (.initial p))⟩
  exact improves_roundWithin (p.knownAfter_spec steps maxHops n).1 hwork

end Program

end TaintFlow.Flow
