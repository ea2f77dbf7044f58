import TaintFlow.Proofs.Bits
import TaintFlow.Proofs.Flow.Effects
import TaintFlow.Proofs.Flow.Runs

/-!
# Every chain is derived

Whatever the analysis holds at any moment of any run is given by the statement rules: every chain
in a state, in a summary and in the flows, and every parameter that is marked as receiving taint.
It does not matter whether the run completes, is cancelled or runs out of rounds.

## Main definitions

* `State.Derived`, `Records.Derived`, `Snapshot.Derived`, `Knowledge.Derived` — all that is held is
  given by the statement rules.

## Main results

* `Scope.derived_analyze` — the records of a function are derived when the snapshot is.
* `Program.derived_rounds` — what rounds know is derived, however they end.
-/

namespace TaintFlow.Flow

/-! ### What is derived -/

/-- All chains of a state at a place are derived. -/
def State.Derived (p : Program) (h f b pos : Nat) (st : State) : Prop :=
  ∀ x r c, ((x, r), c) ∈ st.entries → p.Derives h (.tainted f b pos x r) c

/-- A report is derived. -/
def Report.Derived (p : Program) (h f : Nat) : Report → Prop
  | .sink root k c => p.Derives h (.reachesSink f root k) c
  | .ret root c => p.Derives h (.reachesReturn f root) c
  | .pass callee i => ∃ c, p.Derives h (.receives callee i) c

/-- All chains of a summary are derived. -/
structure Summary.Derived (p : Program) (h f : Nat) (sm : Summary) : Prop where
  sinks : ∀ i k c, ((i, k), c) ∈ sm.sinks.entries → p.Derives h (.reachesSink f (.param i) k) c
  returns : ∀ i c, (i, c) ∈ sm.returns.entries → p.Derives h (.reachesReturn f (.param i)) c
  intrinsic : ∀ s c, (s, c) ∈ sm.intrinsic.entries → p.Derives h (.reachesReturn f (.source s)) c

/-- All that the analysis of a function records is derived. -/
structure Records.Derived (p : Program) (h f : Nat) (rec : Records) : Prop where
  summary : rec.summary.Derived p h f
  flows : ∀ s k c, ((s, k), c) ∈ rec.flows.entries → p.Derives h (.reachesSink f (.source s) k) c
  args : ∀ g i, (g, i) ∈ rec.args → ∃ c, p.Derives h (.receives g i) c

/-- All that is known before a round is derived. -/
structure Snapshot.Derived (p : Program) (h : Nat) (snap : Snapshot) : Prop where
  summary : ∀ f, (snap.summary f).Derived p h f
  params : ∀ f i, (snap.params.getD f 0).testBit i = true → ∃ c, p.Derives h (.receives f i) c

theorem Summary.derived_empty (p : Program) (h f : Nat) : Summary.Derived p h f {} where
  sinks _ _ _ hc := absurd hc List.not_mem_nil
  returns _ _ hc := absurd hc List.not_mem_nil
  intrinsic _ _ hc := absurd hc List.not_mem_nil

theorem Records.derived_empty (p : Program) (h f : Nat) : Records.Derived p h f {} where
  summary := Summary.derived_empty p h f
  flows _ _ _ hc := absurd hc List.not_mem_nil
  args _ _ hc := absurd hc List.not_mem_nil

theorem State.Derived.read {p : Program} {h f b pos : Nat} {st : State}
    (hst : st.Derived p h f b pos) {names : List String} {r : Root} {c : Chain}
    (hc : (r, c) ∈ (st.read names).entries) :
    ∃ x, observes names x = true ∧ p.Derives h (.tainted f b pos x r) c := by
  obtain ⟨x, hx, he⟩ := State.mem_read hc
  exact ⟨x, hx, hst x r c he⟩

theorem Records.Derived.add {p : Program} {h f : Nat} {rec : Records} (hrec : rec.Derived p h f)
    {q : Report} (hq : q.Derived p h f) : (rec.add q).Derived p h f := by
  have hsum := hrec.summary
  rcases q with ⟨⟨s⟩ | ⟨i⟩, k, c⟩ | ⟨⟨s⟩ | ⟨i⟩, c⟩ | ⟨callee, i⟩
  · -- a source reaches a sink
    refine { hrec with flows := fun s' k' c' hc => ?_ }
    rcases Best.mem_offer hc with he | he
    · cases he; exact hq
    · exact hrec.flows s' k' c' he
  · -- a parameter reaches a sink
    refine { hrec with summary := { hsum with sinks := fun i' k' c' hc => ?_ } }
    rcases Best.mem_offer hc with he | he
    · cases he; exact hq
    · exact hsum.sinks i' k' c' he
  · -- a source is returned
    refine { hrec with summary := { hsum with intrinsic := fun s' c' hc => ?_ } }
    rcases Best.mem_offer hc with he | he
    · cases he; exact hq
    · exact hsum.intrinsic s' c' he
  · -- a parameter is returned
    refine { hrec with summary := { hsum with returns := fun i' c' hc => ?_ } }
    rcases Best.mem_offer hc with he | he
    · cases he; exact hq
    · exact hsum.returns i' c' he
  · -- a parameter of a callee receives taint
    refine { hrec with args := fun g' i' hc => ?_ }
    rcases mem_addNew.mp hc with he | he
    · exact hrec.args g' i' he
    · cases he; exact hq

theorem Records.Derived.foldl_add {p : Program} {h f : Nat} {rec : Records}
    (hrec : rec.Derived p h f) {qs : List Report} (hqs : ∀ q ∈ qs, q.Derived p h f) :
    (qs.foldl Records.add rec).Derived p h f := by
  induction qs generalizing rec with
  | nil => exact hrec
  | cons q qs ih =>
    exact ih (hrec.add (hqs q List.mem_cons_self)) fun q' hq' => hqs q' (List.mem_cons_of_mem _ hq')

/-! ### One function -/

namespace Scope

section

variable {p : Program} {h f : Nat} {fn : Function} {snap : Snapshot} {b pos : Nat} {st : State}

theorem derived_entryState (hf : p.Analyzes f fn) (hsnap : snap.Derived p h) {e : Nat}
    (he : fn.entry = some e) : (p.scope h snap f).entryState.Derived p h f e 0 := by
  have hfun : (p.scope h snap f).function = fn := Program.function_scope hf.1
  intro x r c hc
  rw [entryState_eq_offerAll] at hc
  rcases Best.mem_offerAll hc with hc | hc
  · exact absurd hc List.not_mem_nil
  · rcases List.mem_append.mp hc with hc | hc
    · -- a parameter that receives taint
      obtain ⟨⟨name, i⟩, hmem, heq⟩ := List.mem_map.mp hc
      cases heq
      obtain ⟨hname, hbit⟩ := List.mem_filter.mp hmem
      rw [mem_namedParams, hfun] at hname
      obtain ⟨c', hc'⟩ := hsnap.params f i hbit
      exact .enterParam hf he hname.1 hname.2 hc'
    · -- a parameter of a handler
      obtain ⟨i, hi, hc⟩ := List.mem_flatMap.mp hc
      obtain ⟨src, hsrc, hc⟩ := List.mem_flatMap.mp hc
      obtain ⟨⟨name, j⟩, hname, heq⟩ := List.mem_map.mp hc
      cases heq
      rw [mem_namedParams, hfun] at hname
      exact .enterHandler hf he hi (Option.mem_toList.mp hsrc) (List.mem_of_getElem? hname.1)
        hname.2

/-- What a statement stores is derived. -/
theorem derived_next (hf : p.Analyzes f fn) (hsnap : snap.Derived p h)
    (hst : st.Derived p h f b pos) {q : Placed} (hq : (p.statementsAt f b)[pos]? = some q) :
    ((p.scope h snap f).next b pos st q).Derived p h f b (pos + 1) := by
  obtain ⟨line, stmt⟩ := q
  intro x r c hc
  rcases mem_next hc with ⟨hx, hold⟩ | hwrites
  · exact .keep hq hx (hst x r c hold)
  · cases hwrites with
    | seed hsrc => exact .seed hf hq hsrc
    | read hread =>
      obtain ⟨y, hy, hold⟩ := hst.read hread
      exact .assign hq hy hold
    | bound hi hsite hbound htail hread =>
      obtain ⟨y, hy, hold⟩ := hst.read hread
      have hret := (hsnap.summary _).returns _ _ (Best.mem_entries_of_get? htail)
      exact .assignBound hq hi hsite hbound hy hold hret
    | intrinsic hi hsite htail =>
      exact .assignIntrinsic hf hq hi hsite ((hsnap.summary _).intrinsic _ _ htail)

/-- What a statement reports is derived. -/
theorem derived_reports (hsnap : snap.Derived p h) (hst : st.Derived p h f b pos) {q : Placed}
    (hq : (p.statementsAt f b)[pos]? = some q) :
    ∀ report ∈ (p.scope h snap f).reports b pos st q, report.Derived p h f := by
  obtain ⟨line, stmt⟩ := q
  intro report hreport
  cases mem_reports_iff.mp hreport with
  | pass hsite hbound hread =>
    obtain ⟨x, hx, hold⟩ := hst.read hread
    exact ⟨_, .call hq hsite hbound hx hold⟩
  | call hsite hbound hread htail =>
    obtain ⟨x, hx, hold⟩ := hst.read hread
    exact .callSink hq hsite hbound hx hold ((hsnap.summary _).sinks _ _ _ htail)
  | sink hsink hread =>
    obtain ⟨x, hx, hold⟩ := hst.read hread
    exact .sink hq hsink hx hold
  | ret hread =>
    obtain ⟨x, hx, hold⟩ := hst.read hread
    exact .ret hq hx hold

theorem derived_before (hf : p.Analyzes f fn) (hsnap : snap.Derived p h)
    (hst : st.Derived p h f b 0) : ∀ n, n ≤ (p.statementsAt f b).length →
      ((p.scope h snap f).before b st n).Derived p h f b n := by
  intro n
  induction n with
  | zero => intro _; exact hst
  | succ n ih =>
    intro hn
    have hq : (p.statementsAt f b)[n]? = some ((p.statementsAt f b)[n]) :=
      List.getElem?_eq_getElem (by omega)
    rw [before_succ (s := p.scope h snap f) hq]
    exact derived_next hf hsnap (ih (by omega)) hq

theorem derived_blockReports (hf : p.Analyzes f fn) (hsnap : snap.Derived p h)
    (hst : st.Derived p h f b 0) :
    ∀ report ∈ (p.scope h snap f).blockReports b st, report.Derived p h f := by
  intro report hreport
  obtain ⟨n, hn, hreport⟩ := List.mem_flatMap.mp hreport
  have hn : n < (p.statementsAt f b).length := List.mem_range.mp hn
  have hq : (p.statementsAt f b)[n]? = some ((p.statementsAt f b)[n]) :=
    List.getElem?_eq_getElem hn
  rw [reportsAt_eq (s := p.scope h snap f) hq] at hreport
  exact derived_reports hsnap (derived_before hf hsnap hst n (by omega)) hq report hreport

end

end Scope

/-- All that a worklist holds is derived. -/
structure Work.Derived (p : Program) (h f : Nat) (w : Work) : Prop where
  states : ∀ b st, w.states.getD b none = some st → st.Derived p h f b 0
  records : w.records.Derived p h f

namespace Scope

section

variable {p : Program} {h f : Nat} {fn : Function} {snap : Snapshot} {w : Work}

theorem derived_start (hf : p.Analyzes f fn) (hsnap : snap.Derived p h) :
    (p.scope h snap f).start.Derived p h f := by
  have hfun : (p.scope h snap f).function = fn := Program.function_scope hf.1
  unfold start
  rw [hfun]
  cases he : fn.entry with
  | none => exact ⟨fun b st hb => by simp at hb, Records.derived_empty p h f⟩
  | some e =>
    refine ⟨fun b st hb => ?_, Records.derived_empty p h f⟩
    simp only [getD_setIfInBounds] at hb
    split at hb
    · next heq =>
      cases hb
      rw [← heq.1]
      exact derived_entryState hf hsnap he
    · rw [getD_replicate_self] at hb
      cases hb

theorem derived_join {b : Nat} {old st : State} (hold : old.Derived p h f b 0)
    (hst : st.Derived p h f b 0) : State.Derived p h f b 0 (old.join st) := by
  intro x r c hc
  rw [Best.join_eq_offerAll] at hc
  rcases Best.mem_offerAll hc with hc | hc
  · exact hold x r c hc
  · exact hst x r c hc

theorem derived_stateAt (hw : w.Derived p h f) (block : Nat) :
    (w.stateAt block).Derived p h f block 0 := by
  unfold Work.stateAt
  cases hold : w.states.getD block none with
  | none => intro x r c hc; exact absurd hc List.not_mem_nil
  | some old => exact hw.states block old hold

theorem derived_propagate (hw : w.Derived p h f) {block : Nat} {st : State}
    (hst : st.Derived p h f block 0) : (propagate st w block).Derived p h f := by
  refine ⟨fun b st' hb => ?_, by rw [records_propagate]; exact hw.records⟩
  rw [states_propagate, getD_setIfInBounds] at hb
  split at hb
  · next heq =>
    cases hb
    rw [← heq.1]
    exact derived_join (derived_stateAt hw block) hst
  · exact hw.states b st' hb

theorem derived_foldl_propagate {st : State} {blocks : List Nat} (hw : w.Derived p h f)
    (hst : ∀ b ∈ blocks, st.Derived p h f b 0) :
    (blocks.foldl (propagate st) w).Derived p h f := by
  induction blocks generalizing w with
  | nil => exact hw
  | cons b blocks ih =>
    exact ih (derived_propagate hw (hst b List.mem_cons_self))
      fun b' hb' => hst b' (List.mem_cons_of_mem _ hb')

/-- Processing a block keeps all derived. -/
theorem derived_process (hf : p.Analyzes f fn) (hsnap : snap.Derived p h)
    (hw : w.Derived p h f) (block : Nat) :
    ((p.scope h snap f).process w block).Derived p h f := by
  have hfun : (p.scope h snap f).function = fn := Program.function_scope hf.1
  have hst := derived_stateAt hw block
  rw [process_eq]
  refine derived_foldl_propagate
    ⟨hw.states, hw.records.foldl_add (derived_blockReports hf hsnap hst)⟩ ?_
  -- the state at the end of the block is derived at the start of every successor
  intro b' hb' x r c hc
  rw [successors, hfun] at hb'
  cases hblock : fn.blocks[block]? with
  | none => rw [hblock] at hb'; exact absurd hb' List.not_mem_nil
  | some blk =>
    rw [hblock] at hb'
    exact .edge hf hblock hb' (derived_before hf hsnap hst _ (Nat.le_refl _) x r c hc)

/-- What a worklist holds is derived, however many blocks it processes. -/
theorem derived_run (hf : p.Analyzes f fn) (hsnap : snap.Derived p h) (steps : Nat) (b : Budget) :
    ((p.scope h snap f).run steps (p.scope h snap f).start b).1.1.Derived p h f :=
  run_preserves (p.scope h snap f) (P := fun w => w.Derived p h f)
    (fun _ block _ _ hw => derived_process hf hsnap hw block) steps
    (p.scope h snap f).start b (derived_start hf hsnap)

/-- **The records of a function are derived**, whether its analysis is cancelled or not. -/
theorem derived_analyze (hf : p.Analyzes f fn) (hsnap : snap.Derived p h) (b : Budget) :
    (((p.scope h snap f).analyze b).1.records).Derived p h f :=
  (derived_run hf hsnap maxSteps b).records

end

end Scope

/-! ### Rounds -/

/-- All that is known after some rounds is derived, and only functions that can be analysed are
due. -/
structure Knowledge.Derived (p : Program) (h : Nat) (k : Knowledge) : Prop where
  snapshot : k.snapshot.Derived p h
  flows : ∀ s t c, ((s, t), c) ∈ k.flows.entries →
    ∃ f, p.Derives h (.reachesSink f (.source s) t) c
  due : ∀ i, k.due.getD i false = true → ∃ fn, p.Analyzes i fn

theorem Summary.Derived.join {p : Program} {h f : Nat} {a b : Summary} (ha : a.Derived p h f)
    (hb : b.Derived p h f) : (a.join b).Derived p h f where
  sinks i k c hc := by
    rcases Best.mem_offerAll hc with hc | hc
    · exact ha.sinks i k c hc
    · exact hb.sinks i k c hc
  returns i c hc := by
    rcases Best.mem_offerAll hc with hc | hc
    · exact ha.returns i c hc
    · exact hb.returns i c hc
  intrinsic s c hc := by
    rcases Best.mem_offerAll hc with hc | hc
    · exact ha.intrinsic s c hc
    · exact hb.intrinsic s c hc

namespace Knowledge

section

variable {p : Program} {h : Nat} {k : Knowledge}

/-- At first nothing is known of any function. -/
theorem summary_initial (p : Program) (f : Nat) :
    (Knowledge.initial p).snapshot.summary f = {} :=
  getD_replicate_self p.code.functions.size f ({} : Summary)

theorem derived_initial (p : Program) (h : Nat) : (Knowledge.initial p).Derived p h where
  snapshot :=
    { summary := fun f => by
        rw [summary_initial]
        exact Summary.derived_empty p h f
      params := fun f i hi => by
        have hzero : (Knowledge.initial p).snapshot.params.getD f 0 = 0 :=
          getD_replicate_self _ f 0
        rw [hzero, Nat.zero_testBit] at hi
        cases hi }
  flows _ _ _ hc := absurd hc List.not_mem_nil
  due i hi := by
    rw [← Program.canAnalyze_iff, Program.canAnalyze, Program.function?]
    simpa [Knowledge.initial, Array.getD_eq_getD_getElem?] using hi

theorem Derived.cleared (hk : k.Derived p h) : k.cleared.Derived p h := by
  refine ⟨hk.snapshot, hk.flows, fun i hi => ?_⟩
  rw [getD_due_cleared] at hi
  cases hi

theorem analyzes_of_due_foldl {due : Array Bool}
    (hdue : ∀ i, due.getD i false = true → ∃ fn, p.Analyzes i fn) (is : List Nat) :
    ∀ i, (is.foldl (markDue p) due).getD i false = true → ∃ fn, p.Analyzes i fn := by
  induction is generalizing due with
  | nil => exact hdue
  | cons j is ih =>
    refine ih fun i hi => ?_
    rw [getD_markDue] at hi
    split at hi
    · next heq => rw [← heq.1]; exact Program.canAnalyze_iff.mp hi
    · exact hdue i hi

theorem derived_mergeSummary (hk : k.Derived p h) {i : Nat} {sm : Summary}
    (hsm : sm.Derived p h i) : (k.mergeSummary p i sm).Derived p h := by
  unfold mergeSummary
  dsimp only
  split
  · refine ⟨⟨fun f => ?_, hk.snapshot.params⟩, hk.flows, analyzes_of_due_foldl hk.due _⟩
    simp only [Snapshot.summary, Knowledge.snapshot, getD_setIfInBounds]
    split
    · next heq =>
      rw [← heq.1]
      exact (hk.snapshot.summary i).join hsm
    · exact hk.snapshot.summary f
  · exact hk

theorem derived_addParam (hk : k.Derived p h) {callee param : Nat}
    (hc : ∃ c, p.Derives h (.receives callee param) c) :
    (k.addParam p callee param).Derived p h := by
  unfold addParam
  dsimp only
  split
  · exact hk
  · refine ⟨⟨hk.snapshot.summary, fun f i hi => ?_⟩, hk.flows,
      analyzes_of_due_foldl hk.due [callee]⟩
    simp only [Knowledge.snapshot, getD_setIfInBounds] at hi
    split at hi
    · next heq =>
      rw [Nat.testBit_or, Bits.testBit_single, Bool.or_eq_true, decide_eq_true_eq] at hi
      rcases hi with hi | rfl
      · rw [← heq.1]
        exact hk.snapshot.params callee i hi
      · rw [← heq.1]
        exact hc
    · exact hk.snapshot.params f i hi

theorem derived_foldl_addParam (hk : k.Derived p h) {args : List (Nat × Nat)}
    (hargs : ∀ g i, (g, i) ∈ args → ∃ c, p.Derives h (.receives g i) c) :
    (args.foldl (fun k e => k.addParam p e.1 e.2) k).Derived p h := by
  induction args generalizing k with
  | nil => exact hk
  | cons a args ih =>
    exact ih (derived_addParam hk (hargs a.1 a.2 List.mem_cons_self))
      fun g i hi => hargs g i (List.mem_cons_of_mem _ hi)

/-- Joining derived records keeps all derived. -/
theorem derived_merge (hk : k.Derived p h) {r : FunctionResult}
    (hr : r.records.Derived p h r.function) : (k.merge p r).Derived p h := by
  refine derived_foldl_addParam (derived_mergeSummary ?_ hr.summary) hr.args
  refine ⟨hk.snapshot, fun s t c hc => ?_, hk.due⟩
  rcases Best.mem_offerAll hc with hc | hc
  · exact hk.flows s t c hc
  · exact ⟨r.function, hr.flows s t c hc⟩

theorem derived_foldl_merge (hk : k.Derived p h) {rs : List FunctionResult}
    (hrs : ∀ r ∈ rs, r.records.Derived p h r.function) :
    (rs.foldl (Knowledge.merge p) k).Derived p h := by
  induction rs generalizing k with
  | nil => exact hk
  | cons r rs ih =>
    exact ih (derived_merge hk (hrs r List.mem_cons_self))
      fun r' hr' => hrs r' (List.mem_cons_of_mem _ hr')

end

end Knowledge

namespace Program

/-- A round keeps all derived. -/
theorem derived_round {p : Program} {h : Nat} {k : Knowledge} (hk : k.Derived p h) (b : Budget) :
    ((p.round h k b).1.1).Derived p h := by
  rw [round_eq]
  refine Knowledge.derived_foldl_merge hk.cleared fun r hr => ?_
  obtain ⟨i, hi, b', rfl⟩ := exists_of_mem_analyzeAll hr
  obtain ⟨fn, hfn⟩ := hk.due i (mem_work.mp hi)
  exact Scope.derived_analyze hfn hk.snapshot b'

/-- **What rounds know is derived**, whether they complete, are cancelled, or run out of rounds. -/
theorem derived_rounds (p : Program) (h maxRounds : Nat) (b : Budget) :
    ((p.rounds h maxRounds b).1.knowledge).Derived p h :=
  p.roundsFrom_preserves h (P := fun k => k.Derived p h) (fun _ b hk => derived_round hk b)
    maxRounds (.initial p) b (Knowledge.derived_initial p h)

end Program

end TaintFlow.Flow
