import TaintFlow.Proofs.Flow.Best
import TaintFlow.Proofs.Flow.Rules

/-!
# What a statement stores and reports

The effect of a statement, once and for all: which chains it puts into the state and which it
reports, as lists of offers.  All later arguments about statements go through these lists.

## Main definitions

* `State.observed` — the chains that reading names observes.
* `Scope.returned`, `Scope.stored` — the chains that flow out of a call, and into the target of an
  assignment.
* `Report`, `Records.add` — what a statement reports, and how a report is recorded.
* `Scope.next`, `Scope.reports` — the state after a statement, and its reports.
* `Scope.before`, `Scope.blockReports` — the states inside a block, and the reports of a block.

## Main results

* `Scope.transfer_eq` — a statement moves to `Scope.next` and records `Scope.reports`.
* `Scope.transferBlock_eq` — the same for a block.
-/

namespace TaintFlow.Flow

/-! ### Reading and overwriting slots -/

namespace State

/-- The chains that reading names observes. -/
def observed (st : State) (names : List String) : List (Root × Chain) :=
  names.flatMap fun n => (st.entries.filter fun e => Name.related e.1.1 n).map fun e => (e.1.2, e.2)

theorem mem_observed {st : State} {names : List String} {r : Root} {c : Chain} :
    (r, c) ∈ st.observed names ↔ ∃ x, observes names x = true ∧ ((x, r), c) ∈ st.entries := by
  simp only [observed, observes, List.mem_flatMap, List.mem_map, List.mem_filter, List.any_eq_true]
  constructor
  · rintro ⟨n, hn, ⟨⟨x, r'⟩, c'⟩, ⟨he, hrel⟩, heq⟩
    obtain ⟨rfl, rfl⟩ := Prod.mk.inj heq
    exact ⟨x, ⟨n, hn, hrel⟩, he⟩
  · rintro ⟨x, ⟨n, hn, hrel⟩, he⟩
    exact ⟨n, hn, ((x, r), c), ⟨he, hrel⟩, rfl⟩

theorem read_eq_offerAll (st : State) (names : List String) :
    st.read names = ({} : Best Root).offerAll (st.observed names) := by
  rw [read, observed, Best.offerAll, List.foldl_flatMap]
  congr 1
  funext acc n
  rw [List.foldl_map, List.foldl_filter]

theorem mem_read {st : State} {names : List String} {r : Root} {c : Chain}
    (h : (r, c) ∈ (st.read names).entries) :
    ∃ x, observes names x = true ∧ ((x, r), c) ∈ st.entries := by
  rw [read_eq_offerAll] at h
  rcases Best.mem_offerAll h with h | h
  · exact absurd h List.not_mem_nil
  · exact mem_observed.mp h

theorem has_read {st : State} {names : List String} {r : Root} :
    (st.read names).Has r ↔ ∃ x, observes names x = true ∧ st.Has (x, r) := by
  rw [read_eq_offerAll, Best.has_offerAll]
  constructor
  · rintro (h | ⟨c, hc⟩)
    · exact absurd h (Best.not_has_empty r)
    · obtain ⟨x, hx, he⟩ := mem_observed.mp hc
      exact ⟨x, hx, c, he⟩
  · rintro ⟨x, hx, c, he⟩
    exact Or.inr ⟨c, mem_observed.mpr ⟨x, hx, he⟩⟩

theorem mem_kill {st : State} {t x : String} {r : Root} {c : Chain} :
    ((x, r), c) ∈ (st.kill t).entries ↔ Name.under x t = false ∧ ((x, r), c) ∈ st.entries := by
  simp [kill, List.mem_filter, and_comm]

end State

/-! ### Summaries -/

namespace Summary

/-- All that a summary holds stays held, with chains at least as good. -/
structure Grows (a b : Summary) : Prop where
  sinks : ∀ k c, a.sinks.Covers k c → b.sinks.Covers k c
  returns : ∀ i c, a.returns.Covers i c → b.returns.Covers i c
  intrinsic : ∀ s c, a.intrinsic.Covers s c → b.intrinsic.Covers s c

/-- All that another summary holds is covered. -/
structure CoversAll (a b : Summary) : Prop where
  sinks : a.sinks.CoversAll b.sinks
  returns : a.returns.CoversAll b.returns
  intrinsic : a.intrinsic.CoversAll b.intrinsic

theorem Grows.refl (a : Summary) : a.Grows a :=
  ⟨fun _ _ h => h, fun _ _ h => h, fun _ _ h => h⟩

theorem Grows.trans {a b c : Summary} (h : a.Grows b) (h' : b.Grows c) : a.Grows c where
  sinks k d hd := h'.sinks k d (h.sinks k d hd)
  returns i d hd := h'.returns i d (h.returns i d hd)
  intrinsic s d hd := h'.intrinsic s d (h.intrinsic s d hd)

theorem CoversAll.mono {a b c : Summary} (h : a.CoversAll c) (hg : a.Grows b) : b.CoversAll c where
  sinks k d hd := hg.sinks k d (h.sinks k d hd)
  returns i d hd := hg.returns i d (h.returns i d hd)
  intrinsic s d hd := hg.intrinsic s d (h.intrinsic s d hd)

theorem coversAll_iff_improvedBy {a b : Summary} : a.CoversAll b ↔ a.improvedBy b = false := by
  simp only [improvedBy, Bool.or_eq_false_iff, ← Best.coversAll_iff_improvedBy]
  constructor
  · rintro ⟨hs, hr, hi⟩
    exact ⟨⟨hs, hr⟩, hi⟩
  · rintro ⟨⟨hs, hr⟩, hi⟩
    exact ⟨hs, hr, hi⟩

theorem grows_join (a b : Summary) : a.Grows (a.join b) where
  sinks _ _ h := h.offerAll b.sinks.entries
  returns _ _ h := h.offerAll b.returns.entries
  intrinsic _ _ h := h.offerAll b.intrinsic.entries

theorem coversAll_join (a b : Summary) : (a.join b).CoversAll b :=
  ⟨Best.coversAll_join _ _, Best.coversAll_join _ _, Best.coversAll_join _ _⟩

theorem mem_sinksOf {sm : Summary} {i k : Nat} {c : Chain} :
    (k, c) ∈ sm.sinksOf i ↔ ((i, k), c) ∈ sm.sinks.entries := by
  simp only [sinksOf, List.mem_filterMap]
  constructor
  · rintro ⟨⟨⟨i', k'⟩, c'⟩, hmem, heq⟩
    split at heq
    · next hi =>
      cases heq
      rw [← beq_iff_eq.mp hi]
      exact hmem
    · cases heq
  · intro hmem
    exact ⟨((i, k), c), hmem, by simp⟩

end Summary

/-! ### Reports -/

/-- What a statement reports. -/
inductive Report where
  /-- A root reaches a sink. -/
  | sink (root : Root) (sink : Nat) (chain : Chain)
  /-- A root reaches a return. -/
  | ret (root : Root) (chain : Chain)
  /-- A parameter of a callee receives taint. -/
  | pass (callee param : Nat)

namespace Records

/-- Records a report. -/
def add (rec : Records) : Report → Records
  | .sink root k c => rec.reachSink root k c
  | .ret root c => rec.reachReturn root c
  | .pass callee i => rec.passTaint callee i

/-- A report is recorded, with a chain at least as good. -/
def Covers (rec : Records) : Report → Prop
  | .sink (.param i) k c => rec.summary.sinks.Covers (i, k) c
  | .sink (.source s) k c => rec.flows.Covers (s, k) c
  | .ret (.param i) c => rec.summary.returns.Covers i c
  | .ret (.source s) c => rec.summary.intrinsic.Covers s c
  | .pass callee i => (callee, i) ∈ rec.args

theorem covers_add (rec : Records) (q : Report) : (rec.add q).Covers q := by
  rcases q with ⟨⟨s⟩ | ⟨i⟩, k, c⟩ | ⟨⟨s⟩ | ⟨i⟩, c⟩ | ⟨callee, i⟩
  · exact Best.covers_offer rec.flows (s, k) c
  · exact Best.covers_offer rec.summary.sinks (i, k) c
  · exact Best.covers_offer rec.summary.intrinsic s c
  · exact Best.covers_offer rec.summary.returns i c
  · exact mem_addNew.mpr (Or.inr rfl)

/-- All that is recorded stays recorded, with chains at least as good. -/
structure Grows (rec rec' : Records) : Prop where
  summary : rec.summary.Grows rec'.summary
  flows : ∀ k c, rec.flows.Covers k c → rec'.flows.Covers k c
  args : ∀ a ∈ rec.args, a ∈ rec'.args

theorem grows_add (rec : Records) (q : Report) : rec.Grows (rec.add q) := by
  have summary := Summary.Grows.refl rec.summary
  have same : rec.Grows rec := ⟨summary, fun _ _ h => h, fun _ h => h⟩
  rcases q with ⟨⟨s⟩ | ⟨i⟩, k, c⟩ | ⟨⟨s⟩ | ⟨i⟩, c⟩ | ⟨callee, i⟩
  · exact { same with flows := fun _ _ h => h.offer (s, k) c }
  · exact { same with summary := { summary with sinks := fun _ _ h => h.offer (i, k) c } }
  · exact { same with summary := { summary with intrinsic := fun _ _ h => h.offer s c } }
  · exact { same with summary := { summary with returns := fun _ _ h => h.offer i c } }
  · exact { same with args := fun _ h => mem_addNew.mpr (Or.inl h) }

theorem Covers.mono {rec rec' : Records} {q : Report} (h : rec.Covers q) (hg : rec.Grows rec') :
    rec'.Covers q := by
  rcases q with ⟨⟨s⟩ | ⟨i⟩, k, c⟩ | ⟨⟨s⟩ | ⟨i⟩, c⟩ | ⟨callee, i⟩
  · exact hg.flows (s, k) c h
  · exact hg.summary.sinks (i, k) c h
  · exact hg.summary.intrinsic s c h
  · exact hg.summary.returns i c h
  · exact hg.args (callee, i) h

theorem Covers.foldl_add {rec : Records} {q : Report} (h : rec.Covers q) (qs : List Report) :
    (qs.foldl Records.add rec).Covers q := by
  induction qs generalizing rec with
  | nil => exact h
  | cons q' qs ih => exact ih (h.mono (rec.grows_add q'))

theorem covers_foldl_add (rec : Records) {qs : List Report} {q : Report} (h : q ∈ qs) :
    (qs.foldl Records.add rec).Covers q := by
  induction qs generalizing rec with
  | nil => exact absurd h List.not_mem_nil
  | cons q' qs ih =>
    rcases List.mem_cons.mp h with rfl | h
    · exact (rec.covers_add q).foldl_add qs
    · exact ih (rec.add q') h

end Records

/-! ### Statements -/

namespace Scope

/-- The chains that flow out of a call into the target of an assignment. -/
def returned (s : Scope) (st : State) (site : CallSite) (assign : Step) : List (Root × Chain) :=
  (site.bindings.flatMap fun b =>
    ((s.snapshot.summary site.callee).returns.get? b.param).toList.flatMap fun tail =>
      (st.read b.names).entries.map fun e =>
        (e.1, (s.compose e.2 { assign with kind := .call, detail := site.name } tail).push assign))
  ++ (s.snapshot.summary site.callee).intrinsic.entries.map fun e =>
    (.source e.1, (s.lift e.2 site).push assign)

/-- The chains that an assignment stores in its target, beside those of the names it reads. -/
def returnedBy (s : Scope) (st : State) (calls : List Nat) (assign : Step) :
    List (Root × Chain) :=
  calls.flatMap fun i => (s.program.calls[i]?).toList.flatMap fun site => s.returned st site assign

theorem returnFlows_eq_offerAll (s : Scope) (st : State) (site : CallSite) (assign : Step)
    (flows : Best Root) :
    s.returnFlows st site assign flows = flows.offerAll (s.returned st site assign) := by
  -- the nested folds offer the chains of one list after another
  rw [returned, Best.offerAll_append, returnFlows, Best.offerAll, Best.offerAll,
    List.foldl_flatMap, List.foldl_map]
  congr 1
  · congr 1
    funext acc b
    cases (s.snapshot.summary site.callee).returns.get? b.param with
    | none => rfl
    | some tail => simp [List.foldl_map]

theorem assignFlows_eq_offerAll (s : Scope) (st : State) (names : List String) (calls : List Nat)
    (assign : Step) :
    s.assignFlows st names calls assign =
      (⟨(st.read names).entries.map fun e => (e.1, e.2.push assign)⟩ : Best Root).offerAll
        (s.returnedBy st calls assign) := by
  rw [assignFlows, returnedBy, Best.offerAll, List.foldl_flatMap]
  congr 1
  funext acc i
  cases s.program.calls[i]? with
  | none => rfl
  | some site => simp [returnFlows_eq_offerAll, Best.offerAll]

/-- The reports of a call. -/
def callReports (s : Scope) (st : State) (site : CallSite) (call : Step) : List Report :=
  site.bindings.flatMap fun b => (st.read b.names).entries.flatMap fun e =>
    .pass site.callee b.param ::
      ((s.snapshot.summary site.callee).sinksOf b.param).map fun t =>
        .sink e.1 t.1 (s.compose e.2 call t.2)

theorem transferCall_eq_foldl_add (s : Scope) (st : State) (rec : Records) (site : CallSite)
    (call : Step) :
    s.transferCall st rec site call = (s.callReports st site call).foldl Records.add rec := by
  rw [transferCall, callReports, List.foldl_flatMap]
  congr 1
  funext acc b
  rw [List.foldl_flatMap]
  congr 1
  funext acc e
  rw [List.foldl_cons, List.foldl_map]
  rfl

/-- The reports of a statement. -/
def reports (s : Scope) (block pos : Nat) (st : State) (q : Placed) : List Report :=
  let here := s.stepAt block pos q.line
  match q.statement with
  | .call i =>
    (s.program.calls[i]?).toList.flatMap fun site =>
      s.callReports st site (here .call site.file site.name)
  | .sink k names =>
    (s.program.sinks[k]?).toList.flatMap fun snk => (st.read names).entries.map fun e =>
      .sink e.1 k (e.2.push (here .sink snk.location.file snk.name))
  | .ret file expr names =>
    (st.read names).entries.map fun e => .ret e.1 (e.2.push (here .ret file expr))
  | _ => []

/-- The state after a statement. -/
def next (s : Scope) (block pos : Nat) (st : State) (q : Placed) : State :=
  (s.transfer block pos (st, {}) q).1

/-- **The effect of a statement.** -/
theorem transfer_eq (s : Scope) (block pos : Nat) (st : State) (rec : Records) (q : Placed) :
    s.transfer block pos (st, rec) q =
      (s.next block pos st q, (s.reports block pos st q).foldl Records.add rec) := by
  obtain ⟨line, stmt⟩ := q
  cases stmt with
  | seed i slot => cases h : s.program.sources[i]? <;> simp [transfer, next, reports, h]
  | call i =>
    cases h : s.program.calls[i]? <;>
      simp [transfer, next, reports, h, transferCall_eq_foldl_add]
  | sink k names =>
    cases h : s.program.sinks[k]? <;>
      simp [transfer, next, reports, h, List.foldl_map, Records.add]
  | assign file target names calls => rfl
  | ret file expr names => simp [transfer, next, reports, List.foldl_map, Records.add]

theorem next_assign (s : Scope) (block pos : Nat) (st : State) (line : Int)
    (file target : String) (names : List String) (calls : List Nat) :
    s.next block pos st ⟨line, .assign file target names calls⟩ =
      (st.kill target).offerAll
        ((s.assignFlows st names calls
          (s.stepAt block pos line .assignment file target)).entries.map
            fun e => ((target, e.1), e.2)) := by
  rw [Best.offerAll, List.foldl_map]
  rfl

/-! ### Entry -/

/-- The chains that a function starts with. -/
def entryOffers (s : Scope) : List ((String × Root) × Chain) :=
  ((s.namedParams.filter fun e => (s.snapshot.params.getD s.index 0).testBit e.2).map fun e =>
    ((e.1, .param e.2), .single (s.paramStep e.1)))
  ++ (s.program.endpoints.getD s.index []).flatMap fun i =>
    (s.program.sources[i]?).toList.flatMap fun src => s.namedParams.map fun e =>
      ((e.1, .source i), (Chain.single (s.endpointStep src)).push (s.paramStep e.1))

theorem entryState_eq_offerAll (s : Scope) :
    s.entryState = ({} : State).offerAll s.entryOffers := by
  rw [entryOffers, Best.offerAll_append, entryState, Best.offerAll, Best.offerAll,
    List.foldl_flatMap, List.foldl_map, List.foldl_filter]
  congr 1
  funext st i
  cases s.program.sources[i]? with
  | none => rfl
  | some src => simp [List.foldl_map]

theorem mem_namedParams {s : Scope} {name : String} {i : Nat} :
    (name, i) ∈ s.namedParams ↔ s.function.params[i]? = some name ∧ name ≠ "" := by
  rw [namedParams, List.mem_filter, List.mk_mem_zipIdx_iff_getElem?]
  simp

/-- A function starts with its parameters that receive taint. -/
theorem param_mem_entryOffers {s : Scope} {name : String} {i : Nat}
    (hname : s.function.params[i]? = some name) (hne : name ≠ "")
    (hbit : (s.snapshot.params.getD s.index 0).testBit i = true) :
    ((name, .param i), .single (s.paramStep name)) ∈ s.entryOffers := by
  refine List.mem_append_left _ (List.mem_map.mpr ⟨(name, i), ?_, rfl⟩)
  exact List.mem_filter.mpr ⟨mem_namedParams.mpr ⟨hname, hne⟩, hbit⟩

/-- A handler starts with all its named parameters. -/
theorem handler_mem_entryOffers {s : Scope} {name : String} {i : Nat} {src : Discovery.Source}
    (hi : i ∈ s.program.endpoints.getD s.index []) (hsrc : s.program.sources[i]? = some src)
    (hname : name ∈ s.function.params) (hne : name ≠ "") :
    ((name, .source i), (Chain.single (s.endpointStep src)).push (s.paramStep name)) ∈
      s.entryOffers := by
  obtain ⟨j, hj⟩ := List.getElem?_of_mem hname
  refine List.mem_append_right _ (List.mem_flatMap.mpr ⟨i, hi, ?_⟩)
  refine List.mem_flatMap.mpr ⟨src, Option.mem_toList.mpr hsrc, ?_⟩
  exact List.mem_map.mpr ⟨(name, j), mem_namedParams.mpr ⟨hj, hne⟩, rfl⟩

/-! ### Blocks -/

/-- The state before the statement at a position of a block that is entered with `st`. -/
def before (s : Scope) (block : Nat) (st : State) : Nat → State
  | 0 => st
  | n + 1 =>
    match (s.program.statementsAt s.index block)[n]? with
    | some q => s.next block n (s.before block st n) q
    | none => s.before block st n

/-- The reports of the statement at a position of a block that is entered with `st`. -/
def reportsAt (s : Scope) (block : Nat) (st : State) (n : Nat) : List Report :=
  match (s.program.statementsAt s.index block)[n]? with
  | some q => s.reports block n (s.before block st n) q
  | none => []

/-- The state at the end of a block that is entered with `st`. -/
def atEnd (s : Scope) (block : Nat) (st : State) : State :=
  s.before block st (s.program.statementsAt s.index block).length

/-- The reports of a block that is entered with `st`. -/
def blockReports (s : Scope) (block : Nat) (st : State) : List Report :=
  (List.range (s.program.statementsAt s.index block).length).flatMap (s.reportsAt block st)

theorem before_succ {s : Scope} {block n : Nat} {q : Placed}
    (h : (s.program.statementsAt s.index block)[n]? = some q) (st : State) :
    s.before block st (n + 1) = s.next block n (s.before block st n) q := by
  rw [before, h]

theorem reportsAt_eq {s : Scope} {block n : Nat} {q : Placed}
    (h : (s.program.statementsAt s.index block)[n]? = some q) (st : State) :
    s.reportsAt block st n = s.reports block n (s.before block st n) q := by
  rw [reportsAt, h]

theorem transferAll_eq (s : Scope) (block : Nat) (st : State) :
    ∀ (qs : List Placed) (pos : Nat) (rec : Records),
      (s.program.statementsAt s.index block).drop pos = qs →
      s.transferAll block pos (s.before block st pos, rec) qs =
        (s.before block st (pos + qs.length),
          ((List.range' pos qs.length).flatMap (s.reportsAt block st)).foldl Records.add rec) := by
  intro qs
  induction qs with
  | nil => intro pos rec _; rfl
  | cons q qs ih =>
    intro pos rec hdrop
    have hq : (s.program.statementsAt s.index block)[pos]? = some q := by
      rw [← List.head?_drop, hdrop]
      rfl
    have hrest : (s.program.statementsAt s.index block).drop (pos + 1) = qs := by
      rw [← List.tail_drop, hdrop]
      rfl
    rw [transferAll, transfer_eq, ← before_succ hq, ← reportsAt_eq hq, ih (pos + 1) _ hrest,
      List.length_cons, List.range'_succ, List.flatMap_cons, List.foldl_append]
    congr 2
    omega

/-- **The effect of a block.** -/
theorem transferBlock_eq (s : Scope) (block : Nat) (st : State) (rec : Records) :
    s.transferBlock block (st, rec) =
      (s.atEnd block st, (s.blockReports block st).foldl Records.add rec) := by
  have h := s.transferAll_eq block st (s.program.statementsAt s.index block) 0 rec rfl
  rw [Nat.zero_add, ← List.range_eq_range'] at h
  exact h

theorem mem_blockReports {s : Scope} {block n : Nat} {q : Placed} {st : State} {report : Report}
    (hq : (s.program.statementsAt s.index block)[n]? = some q)
    (h : report ∈ s.reports block n (s.before block st n) q) :
    report ∈ s.blockReports block st := by
  rw [← reportsAt_eq hq] at h
  have hn : n < (s.program.statementsAt s.index block).length := by
    obtain ⟨hn, -⟩ := List.getElem?_eq_some_iff.mp hq
    exact hn
  exact List.mem_flatMap.mpr ⟨n, List.mem_range.mpr hn, h⟩

end Scope

end TaintFlow.Flow
