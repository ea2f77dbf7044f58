import TaintFlow.Proofs.Bits
import TaintFlow.Proofs.Flow.Soundness
import TaintFlow.Proofs.Flow.WellFormed

/-!
# Complete rounds have absorbed every function

The analysis of a function looks at the parameters that receive taint and at the summaries of the
functions it calls, and at nothing else of what is known.  Whenever one of these changes the
function becomes due.  So a function that is not due gives the same records as when it was last
analysed, and these have been joined: every function is due, or all that its analysis gives is
known already.  When the rounds are complete no function is due.

## Main definitions

* `Program.Agree` — two snapshots agree on what the analysis of a function looks at.
* `Knowledge.Extends` — what joining results may change.
* `Knowledge.Absorbs` — all that the analysis of a function gives is known.
* `Knowledge.UpToDate` — a function is absorbed when it is analysed again.

## Main results

* `Program.analyze_congr` — the analysis only depends on what it looks at.
* `Program.tracked_round` — after a complete round every function is due or up to date.
* `Program.upToDate_rounds` — after complete rounds every function is up to date.
-/

namespace TaintFlow.Flow

/-! ### What an analysis depends on -/

/-- Two snapshots agree on what the analysis of a function looks at. -/
structure Program.Agree (p : Program) (f : Nat) (snap snap' : Snapshot) : Prop where
  params : snap.params.getD f 0 = snap'.params.getD f 0
  summary : ∀ g, p.called f g = true → snap.summary g = snap'.summary g

namespace Program

section

variable {p : Program} {h f : Nat} {snap snap' : Snapshot}

theorem transferCall_congr {site : CallSite}
    (heq : snap.summary site.callee = snap'.summary site.callee) (st : State) (rec : Records)
    (call : Step) :
    (p.scope h snap f).transferCall st rec site call =
      (p.scope h snap' f).transferCall st rec site call := by
  unfold Scope.transferCall
  show site.bindings.foldl (fun rec b => (st.read b.names).entries.foldl (fun rec e =>
      ((snap.summary site.callee).sinksOf b.param).foldl (fun rec t =>
        rec.reachSink e.1 t.1 ((p.bare h f).compose e.2 call t.2))
        (rec.passTaint site.callee b.param)) rec) rec = _
  rw [heq]
  rfl

theorem returnFlows_congr {site : CallSite}
    (heq : snap.summary site.callee = snap'.summary site.callee) (st : State) (assign : Step)
    (flows : Best Root) :
    (p.scope h snap f).returnFlows st site assign flows =
      (p.scope h snap' f).returnFlows st site assign flows := by
  have hret : ∀ snap : Snapshot, (p.scope h snap f).returned st site assign =
      (site.bindings.flatMap fun b =>
        ((snap.summary site.callee).returns.get? b.param).toList.flatMap fun tail =>
          (st.read b.names).entries.map fun e =>
            (e.1, ((p.bare h f).compose e.2
              { assign with kind := .call, detail := site.name } tail).push assign))
      ++ (snap.summary site.callee).intrinsic.entries.map fun e =>
        (.source e.1, ((p.bare h f).lift e.2 site).push assign) := fun _ => rfl
  rw [Scope.returnFlows_eq_offerAll, Scope.returnFlows_eq_offerAll, hret, hret, heq]

theorem transfer_congr (hp : p.WellFormed) (hagree : p.Agree f snap snap') {b : Nat} {q : Placed}
    (hq : q ∈ p.statementsAt f b) (pos : Nat) (x : State × Records) :
    (p.scope h snap f).transfer b pos x q = (p.scope h snap' f).transfer b pos x q := by
  have hsite : ∀ (i : Nat) (site : CallSite), p.calls[i]? = some site → site.function = f →
      snap.summary site.callee = snap'.summary site.callee := by
    intro i site hi hf
    refine hagree.summary _ ?_
    rw [← hf]
    exact (hp.calls i site hi).1
  -- only calls and assignments look at summaries, and those are of linked callees
  have hres := hp.statements f b q hq
  obtain ⟨st, rec⟩ := x
  obtain ⟨line, stmt⟩ := q
  cases stmt with
  | seed i slot => rfl
  | sink k names => rfl
  | ret file expr names => rfl
  | call i =>
    obtain ⟨site, hi, hf⟩ := hres
    have hcall := transferCall_congr (p := p) (h := h) (f := f) (hsite i site hi hf) st rec
    simp only [Scope.transfer, Program.scope, hi] at hcall ⊢
    rw [hcall]
    rfl
  | assign file target names calls =>
    have hflows : ∀ assign, (p.scope h snap f).assignFlows st names calls assign =
        (p.scope h snap' f).assignFlows st names calls assign := by
      intro assign
      unfold Scope.assignFlows
      refine List.foldl_ext _ _ _ fun flows i hi => ?_
      obtain ⟨site, hi, hf⟩ := hres i hi
      simp only [Program.scope, hi]
      exact returnFlows_congr (hsite i site hi hf) st assign flows
    simp only [Scope.transfer]
    rw [hflows]
    rfl

theorem transferBlock_congr (hp : p.WellFormed) (hagree : p.Agree f snap snap') (b : Nat)
    (x : State × Records) :
    (p.scope h snap f).transferBlock b x = (p.scope h snap' f).transferBlock b x := by
  suffices hall : ∀ (qs : List Placed) (pos : Nat) (x : State × Records),
      (∀ q ∈ qs, q ∈ p.statementsAt f b) →
      (p.scope h snap f).transferAll b pos x qs = (p.scope h snap' f).transferAll b pos x qs from
    hall (p.statementsAt f b) 0 x fun _ hq => hq
  intro qs
  induction qs with
  | nil => intro pos x _; rfl
  | cons q qs ih =>
    intro pos x hqs
    rw [Scope.transferAll, Scope.transferAll,
      transfer_congr hp hagree (hqs q List.mem_cons_self)]
    exact ih _ _ fun q' hq' => hqs q' (List.mem_cons_of_mem _ hq')

theorem process_congr (hp : p.WellFormed) (hagree : p.Agree f snap snap') (w : Work) (b : Nat) :
    (p.scope h snap f).process w b = (p.scope h snap' f).process w b := by
  unfold Scope.process
  dsimp only
  rw [transferBlock_congr hp hagree]
  rfl

theorem run_congr (hp : p.WellFormed) (hagree : p.Agree f snap snap') :
    ∀ (fuel : Nat) (w : Work) (b : Budget),
      (p.scope h snap f).run fuel w b = (p.scope h snap' f).run fuel w b := by
  intro fuel
  induction fuel with
  | zero =>
    intro w b
    cases hq : w.queue with
    | nil => rw [Scope.run_of_queue_nil _ _ hq, Scope.run_of_queue_nil _ _ hq]
    | cons block rest => rw [Scope.run_zero _ hq, Scope.run_zero _ hq]
  | succ fuel ih =>
    intro w b
    cases hq : w.queue with
    | nil => rw [Scope.run_of_queue_nil _ _ hq, Scope.run_of_queue_nil _ _ hq]
    | cons block rest =>
      rw [Scope.run_succ _ fuel hq, Scope.run_succ _ fuel hq, process_congr hp hagree, ih]

theorem start_congr (hparams : snap.params.getD f 0 = snap'.params.getD f 0) :
    (p.scope h snap f).start = (p.scope h snap' f).start := by
  have hentry : (p.scope h snap f).entryState = (p.scope h snap' f).entryState := by
    have hoffers : ∀ snap : Snapshot, (p.scope h snap f).entryOffers =
        (((p.bare h f).namedParams.filter fun e => (snap.params.getD f 0).testBit e.2).map fun e =>
          ((e.1, .param e.2), .single ((p.bare h f).paramStep e.1)))
        ++ (p.endpoints.getD f []).flatMap fun i =>
          (p.sources[i]?).toList.flatMap fun src => (p.bare h f).namedParams.map fun e =>
            ((e.1, .source i),
              (Chain.single ((p.bare h f).endpointStep src)).push ((p.bare h f).paramStep e.1)) :=
      fun _ => rfl
    rw [Scope.entryState_eq_offerAll, Scope.entryState_eq_offerAll, hoffers, hoffers, hparams]
  unfold Scope.start
  rw [hentry]
  rfl

/-- **The analysis of a function only depends on what it looks at.** -/
theorem analyze_congr (hp : p.WellFormed) (hagree : p.Agree f snap snap') (b : Budget) :
    ((p.scope h snap f).analyze b).1 = ((p.scope h snap' f).analyze b).1 := by
  rw [Scope.analyze_eq, Scope.analyze_eq, start_congr hagree.params, run_congr hp hagree]
  rfl

end

end Program

/-! ### Joining results -/

theorem Program.mem_callers {p : Program} {f g : Nat} :
    f ∈ p.callers g ↔ p.called f g = true := by
  simp only [Program.callers, ascending, mem_sortBy, List.mem_map, List.mem_filter,
    Program.called, List.contains_iff_mem, beq_iff_eq]
  constructor
  · rintro ⟨⟨f', g'⟩, ⟨hmem, rfl⟩, rfl⟩
    exact hmem
  · intro hmem
    exact ⟨(f, g), ⟨hmem, rfl⟩, rfl⟩

theorem Program.mem_callees {p : Program} {f g : Nat} :
    g ∈ p.callees f ↔ p.called f g = true := by
  simp [Program.callees, ascending, mem_sortBy, Program.called]

theorem getD_foldl_markDue (p : Program) {f : Nat} (hf : p.canAnalyze f = true) (is : List Nat) :
    ∀ due : Array Bool, f < due.size →
      ((is.foldl (markDue p) due).getD f false = true ↔ f ∈ is ∨ due.getD f false = true) := by
  induction is with
  | nil => simp
  | cons i is ih =>
    intro due hlt
    rw [List.foldl_cons, ih _ (by rw [size_markDue]; exact hlt), getD_markDue, List.mem_cons]
    by_cases hi : i = f
    · subst hi
      simp [hlt, hf]
    · simp [hi, Ne.symm hi]

theorem size_foldl_markDue (p : Program) (is : List Nat) (due : Array Bool) :
    (is.foldl (markDue p) due).size = due.size := by
  induction is generalizing due with
  | nil => rfl
  | cons i is ih => rw [List.foldl_cons, ih, size_markDue]

namespace Knowledge

/-- Something is known of every function, and of nothing else. -/
structure Sized (p : Program) (k : Knowledge) : Prop where
  summaries : k.summaries.size = p.code.functions.size
  params : k.params.size = p.code.functions.size
  due : k.due.size = p.code.functions.size

/-- What joining results may change: all that is known gets better, and when something changes that
the analysis of a function looks at, the function is due. -/
structure Extends (p : Program) (k k' : Knowledge) : Prop where
  sized : k.Sized p → k'.Sized p
  flows : ∀ e c, k.flows.Covers e c → k'.flows.Covers e c
  summary : ∀ f, (k.snapshot.summary f).Grows (k'.snapshot.summary f)
  params : ∀ f i, (k.params.getD f 0).testBit i = true → (k'.params.getD f 0).testBit i = true
  due : ∀ f, p.canAnalyze f = true → k.due.getD f false = true → k'.due.getD f false = true
  agree : k.Sized p → ∀ f, p.canAnalyze f = true → k'.due.getD f false = false →
    p.Agree f k.snapshot k'.snapshot

/-- All that the analysis of a function gives is known, with chains at least as good. -/
structure Absorbs (k : Knowledge) (f : Nat) (rec : Records) : Prop where
  flows : k.flows.CoversAll rec.flows
  summary : (k.snapshot.summary f).CoversAll rec.summary
  args : ∀ g i, (g, i) ∈ rec.args → (k.params.getD g 0).testBit i = true

section

variable {p : Program} {k k' k'' : Knowledge}

theorem Sized.cleared (hk : k.Sized p) : k.cleared.Sized p where
  summaries := hk.summaries
  params := hk.params
  due := by rw [Knowledge.cleared, Array.size_map]; exact hk.due

theorem Extends.refl (p : Program) (k : Knowledge) : k.Extends p k where
  sized h := h
  flows _ _ h := h
  summary _ := .refl _
  params _ _ h := h
  due _ _ h := h
  agree _ _ _ _ := ⟨rfl, fun _ _ => rfl⟩

theorem Extends.trans (h : k.Extends p k') (h' : k'.Extends p k'') : k.Extends p k'' where
  sized hs := h'.sized (h.sized hs)
  flows e c hc := h'.flows e c (h.flows e c hc)
  summary f := (h.summary f).trans (h'.summary f)
  params f i hi := h'.params f i (h.params f i hi)
  due f hf hd := h'.due f hf (h.due f hf hd)
  agree hs f hf hd := by
    -- a function that is due in between stays due
    have hd' : k'.due.getD f false = false := by
      cases hmid : k'.due.getD f false with
      | false => rfl
      | true => rw [h'.due f hf hmid] at hd; cases hd
    have ha := h.agree hs f hf hd'
    have ha' := h'.agree (h.sized hs) f hf hd
    exact ⟨ha.params.trans ha'.params, fun g hg => (ha.summary g hg).trans (ha'.summary g hg)⟩

theorem Absorbs.mono {f : Nat} {rec : Records} (h : k.Absorbs f rec) (he : k.Extends p k') :
    k'.Absorbs f rec where
  flows e c hc := he.flows e c (h.flows e c hc)
  summary := h.summary.mono (he.summary f)
  args g i hi := he.params g i (h.args g i hi)

theorem lt_size_of_canAnalyze {f : Nat} (hf : p.canAnalyze f = true) :
    f < p.code.functions.size := by
  obtain ⟨fn, hfn, -⟩ := Program.canAnalyze_iff.mp hf
  obtain ⟨hlt, -⟩ := Array.getElem?_eq_some_iff.mp hfn
  exact hlt

theorem summary_mergeSummary (p : Program) (k : Knowledge) (i : Nat) (sm : Summary) (f : Nat) :
    (k.mergeSummary p i sm).snapshot.summary f = k.snapshot.summary f ∨
      i = f ∧ i < k.summaries.size ∧
        (k.mergeSummary p i sm).snapshot.summary f = (k.snapshot.summary f).join sm ∧
        (k.mergeSummary p i sm).due = (p.callers i).foldl (markDue p) k.due := by
  unfold mergeSummary
  dsimp only
  split
  · simp only [Snapshot.summary, Knowledge.snapshot, getD_setIfInBounds]
    split
    · next heq =>
      obtain ⟨rfl, hlt⟩ := heq
      exact Or.inr ⟨rfl, hlt, rfl, trivial⟩
    · exact Or.inl rfl
  · exact Or.inl rfl

theorem params_mergeSummary (p : Program) (k : Knowledge) (i : Nat) (sm : Summary) :
    (k.mergeSummary p i sm).params = k.params := by
  unfold mergeSummary
  dsimp only
  split <;> rfl

/-- Joining a summary that gets better makes the callers due. -/
theorem extends_mergeSummary (p : Program) (k : Knowledge) (i : Nat) (sm : Summary) :
    k.Extends p (k.mergeSummary p i sm) where
  sized hs := by
    unfold mergeSummary
    dsimp only
    split
    · refine ⟨?_, hs.params, ?_⟩
      · rw [Array.size_setIfInBounds]
        exact hs.summaries
      · rw [size_foldl_markDue]
        exact hs.due
    · exact hs
  flows e c hc := by
    unfold mergeSummary
    dsimp only
    split <;> exact hc
  summary f := by
    rcases summary_mergeSummary p k i sm f with h | ⟨-, -, h, -⟩
    · rw [h]
      exact .refl _
    · rw [h]
      exact Summary.grows_join _ _
  params f j hj := by
    rw [params_mergeSummary]
    exact hj
  due f hf hd := by
    unfold mergeSummary
    dsimp only
    split
    · have hlt : f < k.due.size := by
        refine Nat.lt_of_not_le fun hle => ?_
        simp [Array.getD_eq_getD_getElem?, hle] at hd
      exact (getD_foldl_markDue p hf _ _ hlt).mpr (Or.inr hd)
    · exact hd
  agree hs f hf hd := by
    refine ⟨congrArg (·.getD f 0) (params_mergeSummary p k i sm).symm, fun g hg => ?_⟩
    rcases summary_mergeSummary p k i sm g with h | ⟨rfl, -, -, hdue⟩
    · exact h.symm
    · -- the summary of a callee got better, so the caller is due
      have hlt : f < k.due.size := by
        rw [hs.due]
        exact lt_size_of_canAnalyze hf
      have hcaller := (getD_foldl_markDue p hf (p.callers i) _ hlt).mpr
        (Or.inl (Program.mem_callers.mpr hg))
      rw [hdue, hcaller] at hd
      cases hd

theorem coversAll_mergeSummary (p : Program) (k : Knowledge) {i : Nat} (hi : i < k.summaries.size)
    (sm : Summary) : ((k.mergeSummary p i sm).snapshot.summary i).CoversAll sm := by
  by_cases himp : (k.summaries.getD i {}).improvedBy sm = true
  · simp only [mergeSummary, himp, if_true, Snapshot.summary, Knowledge.snapshot]
    rw [getD_setIfInBounds, if_pos ⟨rfl, hi⟩]
    exact Summary.coversAll_join _ _
  · simp only [mergeSummary, himp, Bool.false_eq_true, if_false]
    exact Summary.coversAll_iff_improvedBy.mpr (Bool.eq_false_iff.mpr himp)

/-- Adding a parameter that is new makes its function due. -/
theorem extends_addParam (p : Program) (k : Knowledge) (callee param : Nat) :
    k.Extends p (k.addParam p callee param) := by
  unfold addParam
  dsimp only
  split
  · exact .refl p k
  · refine { sized := fun hs => ⟨hs.summaries, ?_, ?_⟩, flows := fun e c hc => hc,
             summary := fun f => .refl _, params := fun f j hj => ?_, due := fun f hf hd => ?_,
             agree := fun hs f hf hd => ⟨?_, fun g hg => rfl⟩ }
    · rw [Array.size_setIfInBounds]
      exact hs.params
    · rw [size_markDue]
      exact hs.due
    · -- bits are only added
      rw [getD_setIfInBounds]
      split
      · next heq => rw [heq.1, Nat.testBit_or, hj, Bool.true_or]
      · exact hj
    · rw [getD_markDue]
      split
      · next heq => rw [heq.1]; exact hf
      · exact hd
    · -- the callee itself is due, and of the others nothing changes
      rw [getD_markDue] at hd
      by_cases hc : callee = f
      · subst hc
        rw [hs.due, if_pos ⟨rfl, lt_size_of_canAnalyze hf⟩, hf] at hd
        cases hd
      · show k.params.getD f 0 = (k.params.setIfInBounds callee _).getD f 0
        rw [getD_setIfInBounds]
        simp [hc]

theorem testBit_addParam (p : Program) (k : Knowledge) {callee : Nat}
    (hlt : callee < k.params.size) (param : Nat) :
    ((k.addParam p callee param).params.getD callee 0).testBit param = true := by
  have hbit : (k.params.getD callee 0 ||| Bits.single param).testBit param = true := by
    rw [Nat.testBit_or, Bits.testBit_single]
    simp
  by_cases hold : (k.params.getD callee 0 ||| Bits.single param) = k.params.getD callee 0
  · simp only [addParam, hold, beq_self_eq_true, if_true]
    rwa [hold] at hbit
  · simp only [addParam, beq_eq_false_iff_ne.mpr hold, Bool.false_eq_true, if_false]
    rw [getD_setIfInBounds, if_pos ⟨rfl, hlt⟩]
    exact hbit

theorem extends_foldl_addParam (p : Program) (k : Knowledge) (args : List (Nat × Nat)) :
    k.Extends p (args.foldl (fun k e => k.addParam p e.1 e.2) k) := by
  induction args generalizing k with
  | nil => exact .refl p k
  | cons a args ih => exact (extends_addParam p k a.1 a.2).trans (ih _)

theorem testBit_foldl_addParam {args : List (Nat × Nat)} (hk : k.Sized p)
    (hargs : ∀ a ∈ args, a.1 < p.code.functions.size) : ∀ a ∈ args,
      ((args.foldl (fun k e => k.addParam p e.1 e.2) k).params.getD a.1 0).testBit a.2 = true := by
  induction args generalizing k with
  | nil => intro a ha; exact absurd ha List.not_mem_nil
  | cons b args ih =>
    have hext := extends_addParam p k b.1 b.2
    intro a ha
    rcases List.mem_cons.mp ha with rfl | ha
    · refine (extends_foldl_addParam p _ args).params a.1 a.2 (testBit_addParam p k ?_ a.2)
      rw [hk.params]
      exact hargs a List.mem_cons_self
    · exact ih (hext.sized hk) (fun a' ha' => hargs a' (List.mem_cons_of_mem _ ha')) a ha

theorem extends_merge (p : Program) (k : Knowledge) (r : FunctionResult) :
    k.Extends p (k.merge p r) := by
  have hflows : k.Extends p { k with flows := k.flows.join r.records.flows } :=
    ⟨fun hs => ⟨hs.summaries, hs.params, hs.due⟩,
      fun _ _ hc => hc.offerAll r.records.flows.entries, fun _ => .refl _, fun _ _ hi => hi,
      fun _ _ hd => hd, fun _ _ _ _ => ⟨rfl, fun _ _ => rfl⟩⟩
  exact (hflows.trans (extends_mergeSummary p _ r.function r.records.summary)).trans
    (extends_foldl_addParam p _ r.records.args)

theorem flows_merge (p : Program) (k : Knowledge) (r : FunctionResult) :
    (k.merge p r).flows = k.flows.join r.records.flows := by
  have hsummary : ∀ (k : Knowledge) (i : Nat) (s : Summary),
      (k.mergeSummary p i s).flows = k.flows := by
    intro k i s
    unfold mergeSummary
    dsimp only
    split <;> rfl
  have hparam : ∀ (k : Knowledge) (callee param : Nat),
      (k.addParam p callee param).flows = k.flows := by
    intro k callee param
    unfold addParam
    dsimp only
    split <;> rfl
  have hargs : ∀ (args : List (Nat × Nat)) (k : Knowledge),
      (args.foldl (fun k e => k.addParam p e.1 e.2) k).flows = k.flows := by
    intro args
    induction args with
    | nil => intro k; rfl
    | cons a args ih => intro k; rw [List.foldl_cons, ih, hparam]
  exact (hargs r.records.args _).trans (hsummary _ r.function r.records.summary)

/-- What has been joined is absorbed. -/
theorem absorbs_merge (hk : k.Sized p) {r : FunctionResult}
    (hf : r.function < p.code.functions.size)
    (hargs : ∀ a ∈ r.records.args, a.1 < p.code.functions.size) :
    (k.merge p r).Absorbs r.function r.records := by
  have hjoined : ({ k with flows := k.flows.join r.records.flows } : Knowledge).Sized p :=
    ⟨hk.summaries, hk.params, hk.due⟩
  have hsum := extends_mergeSummary p { k with flows := k.flows.join r.records.flows } r.function
    r.records.summary
  have hfold := extends_foldl_addParam p
    (({ k with flows := k.flows.join r.records.flows } : Knowledge).mergeSummary p r.function
      r.records.summary) r.records.args
  -- each part is covered once it is joined, and what is joined later keeps it so
  refine ⟨fun e c hc => ?_, ?_, fun g i hi => ?_⟩
  · exact (hsum.trans hfold).flows e c (Best.coversAll_join k.flows r.records.flows e c hc)
  · refine (coversAll_mergeSummary p _ ?_ _).mono (hfold.summary r.function)
    rw [hjoined.summaries]
    exact hf
  · exact testBit_foldl_addParam (hsum.sized hjoined) hargs (g, i) hi

theorem extends_foldl_merge (p : Program) (k : Knowledge) (rs : List FunctionResult) :
    k.Extends p (rs.foldl (Knowledge.merge p) k) := by
  induction rs generalizing k with
  | nil => exact .refl p k
  | cons r rs ih => exact (extends_merge p k r).trans (ih _)

theorem absorbs_foldl_merge (hk : k.Sized p) {rs : List FunctionResult} {r : FunctionResult}
    (hr : r ∈ rs) (hf : r.function < p.code.functions.size)
    (hargs : ∀ a ∈ r.records.args, a.1 < p.code.functions.size) :
    (rs.foldl (Knowledge.merge p) k).Absorbs r.function r.records := by
  induction rs generalizing k with
  | nil => exact absurd hr List.not_mem_nil
  | cons r' rs ih =>
    rcases List.mem_cons.mp hr with rfl | hr
    · exact (absorbs_merge hk hf hargs).mono (extends_foldl_merge p _ rs)
    · exact ih ((extends_merge p k r').sized hk) hr

end

end Knowledge

/-! ### Rounds -/

/-- The analysis of a function against what is known completes and gives nothing that is not known
already, with chains at least as good. -/
def Knowledge.UpToDate (p : Program) (h : Nat) (k : Knowledge) (f : Nat) : Prop :=
  ((p.scope h k.snapshot f).analyze Budget.unlimited).1.cancelled = false ∧
    k.Absorbs f ((p.scope h k.snapshot f).analyze Budget.unlimited).1.records

/-- The invariant of rounds: every function that can be analysed is due or up to date. -/
structure Knowledge.Tracked (p : Program) (h : Nat) (k : Knowledge) : Prop where
  sized : k.Sized p
  derived : k.Derived p h
  upToDate : ∀ f, p.canAnalyze f = true → k.due.getD f false = true ∨ k.UpToDate p h f

namespace Program

variable {p : Program} {h : Nat} {k : Knowledge}

theorem tracked_initial (p : Program) (h : Nat) : (Knowledge.initial p).Tracked p h where
  sized := ⟨by simp [Knowledge.initial], by simp [Knowledge.initial], by simp [Knowledge.initial]⟩
  derived := Knowledge.derived_initial p h
  upToDate f hf := by
    obtain ⟨fn, hfn, ha⟩ := canAnalyze_iff.mp hf
    rw [Program.function?] at hfn
    left
    simp [Knowledge.initial, Array.getD_eq_getD_getElem?, hfn, ha]

/-- Calls pass taint to functions of the program. -/
theorem lt_of_derives_receives (hp : p.WellFormed) {g i : Nat} {c : Chain}
    (d : p.Derives h (.receives g i) c) : g < p.code.functions.size := by
  cases d with
  | call hrun hsite hbound hx d => exact (hp.calls _ _ hsite).2

/-- What a complete round has analysed is absorbed by what is known after it. -/
theorem absorbs_round (hp : p.WellFormed) (hk : k.Tracked p h) {b : Budget}
    (hc : (p.round h k b).1.2 = false) {f : Nat} (hf : f ∈ k.work) :
    ((p.scope h k.snapshot f).analyze Budget.unlimited).1.cancelled = false ∧
      (p.round h k b).1.1.Absorbs f
        ((p.scope h k.snapshot f).analyze Budget.unlimited).1.records := by
  obtain ⟨fn, hfn⟩ := hk.derived.due f (mem_work.mp hf)
  -- the analysis ran under what was left of the budget, and was not cancelled
  obtain ⟨b', hr⟩ : ∃ b', ((p.scope h k.snapshot f).analyze b').1 ∈ p.results h k b :=
    exists_mem_analyzeAll b hf
  rw [round_eq] at hc ⊢
  have hcancel : ((p.scope h k.snapshot f).analyze b').1.cancelled = false := by
    have := List.any_eq_false.mp hc _ hr
    simpa using this
  rw [Scope.analyze_unlimited _ hcancel]
  refine ⟨hcancel, ?_⟩
  have hcleared := hk.sized.cleared
  have hlt := Knowledge.lt_size_of_canAnalyze (canAnalyze_iff.mpr ⟨fn, hfn⟩)
  refine Knowledge.absorbs_foldl_merge hcleared hr hlt fun a ha => ?_
  obtain ⟨c, hc⟩ := (Scope.derived_analyze hfn hk.derived.snapshot b').args a.1 a.2 ha
  exact lt_of_derives_receives hp hc

/-- **After a complete round every function is due or up to date.** -/
theorem tracked_round (hp : p.WellFormed) (hk : k.Tracked p h) {b : Budget}
    (hc : (p.round h k b).1.2 = false) : ((p.round h k b).1.1).Tracked p h := by
  have hcleared := hk.sized.cleared
  have hext : k.cleared.Extends p (p.round h k b).1.1 := by
    rw [round_eq]
    exact Knowledge.extends_foldl_merge p _ _
  refine ⟨hext.sized hcleared, derived_round hk.derived b, fun f hf => ?_⟩
  cases hdue : (p.round h k b).1.1.due.getD f false with
  | true => exact Or.inl rfl
  | false =>
    -- nothing has changed that the analysis looks at, so it gives what it gave before
    have hagree := hext.agree hcleared f hf hdue
    have hsame : ((p.scope h (p.round h k b).1.1.snapshot f).analyze Budget.unlimited).1 =
        ((p.scope h k.snapshot f).analyze Budget.unlimited).1 :=
      (analyze_congr hp hagree Budget.unlimited).symm
    right
    rw [Knowledge.UpToDate, hsame]
    rcases hk.upToDate f hf with hwork | ⟨hcancel, habs⟩
    · exact absorbs_round hp hk hc (mem_work.mpr hwork)
    · -- it was not due, so it was absorbed before the round
      have habs' : k.cleared.Absorbs f
          ((p.scope h k.snapshot f).analyze Budget.unlimited).1.records :=
        ⟨habs.flows, habs.summary, habs.args⟩
      exact ⟨hcancel, habs'.mono hext⟩

/-- **After complete rounds every function is up to date.** -/
theorem upToDate_rounds (hp : p.WellFormed) {maxRounds : Nat} {b : Budget}
    (hc : (p.rounds h maxRounds b).1.incomplete = false) {f : Nat} (hf : p.canAnalyze f = true) :
    (p.rounds h maxRounds b).1.knowledge.UpToDate p h f := by
  obtain ⟨hk, hwork⟩ := p.roundsFrom_complete h (P := fun k => k.Tracked p h)
    (fun k b hk hc => tracked_round hp hk hc) maxRounds (.initial p) b (tracked_initial p h) hc
  rcases hk.upToDate f hf with hdue | h
  · have hmem := mem_work.mpr hdue
    rw [hwork] at hmem
    exact absurd hmem List.not_mem_nil
  · exact h

end Program

end TaintFlow.Flow
