import TaintFlow.Proofs.Flow.Fixpoint
import TaintFlow.Proofs.Flow.Worklist
import TaintFlow.Proofs.Text.Name

/-!
# Every fact is found

When every function is up to date, what is known contains every fact that the statement rules give.
The facts about slots are found in the states of the analysis: any states that solve the equations
of a function hold every slot that is tainted at a place.

## Main definitions

* `Scope.Stores` — what an assignment stores in its target.
* `Report.fact` — the fact that a report stands for.
* `Knowledge.Knows` — a fact is found in what is known.

## Main results

* `Scope.has_next_target` — the target of an assignment holds exactly what the assignment stores.
* `Knowledge.knows_of_holds` — every fact that holds is known.
-/

namespace TaintFlow.Flow

/-! ### What statements store -/

namespace Scope

variable {s : Scope} {st : State} {block pos : Nat} {line : Int}

theorem has_kill {t x : String} {r : Root} :
    (st.kill t).Has (x, r) ↔ Name.under x t = false ∧ st.Has (x, r) := by
  constructor
  · rintro ⟨c, hc⟩
    obtain ⟨hx, hc⟩ := State.mem_kill.mp hc
    exact ⟨hx, c, hc⟩
  · rintro ⟨hx, c, hc⟩
    exact ⟨c, State.mem_kill.mpr ⟨hx, hc⟩⟩

/-- An assignment stores what stems from a root: it reads the root, or passes it to a call that
returns it, or calls a function that returns it as a source of its own. -/
def Stores (s : Scope) (st : State) (names : List String) (calls : List Nat) (r : Root) : Prop :=
  (∃ x, observes names x = true ∧ st.Has (x, r)) ∨
    ∃ i ∈ calls, ∃ site, s.program.calls[i]? = some site ∧
      ((∃ bound ∈ site.bindings, (s.snapshot.summary site.callee).returns.Has bound.param ∧
          ∃ x, observes bound.names x = true ∧ st.Has (x, r)) ∨
        ∃ k, r = .source k ∧ (s.snapshot.summary site.callee).intrinsic.Has k)

theorem exists_mem_returned {site : CallSite} {assign : Step} {r : Root} :
    (∃ c, (r, c) ∈ s.returned st site assign) ↔
      (∃ bound ∈ site.bindings, (s.snapshot.summary site.callee).returns.Has bound.param ∧
          ∃ x, observes bound.names x = true ∧ st.Has (x, r)) ∨
        ∃ k, r = .source k ∧ (s.snapshot.summary site.callee).intrinsic.Has k := by
  constructor
  · rintro ⟨c, hc⟩
    rcases List.mem_append.mp hc with hc | hc
    · obtain ⟨bound, hbound, hc⟩ := List.mem_flatMap.mp hc
      obtain ⟨tail, htail, hc⟩ := List.mem_flatMap.mp hc
      obtain ⟨⟨r', c'⟩, hread, heq⟩ := List.mem_map.mp hc
      cases heq
      have hret := Best.has_iff_get?.mpr ⟨tail, Option.mem_toList.mp htail⟩
      exact Or.inl ⟨bound, hbound, hret, State.has_read.mp ⟨c', hread⟩⟩
    · obtain ⟨⟨k, tail⟩, hmem, heq⟩ := List.mem_map.mp hc
      cases heq
      exact Or.inr ⟨k, rfl, tail, hmem⟩
  · rintro (⟨bound, hbound, hret, hread⟩ | ⟨k, rfl, tail, hmem⟩)
    · obtain ⟨tail, htail⟩ := Best.has_iff_get?.mp hret
      obtain ⟨c', hread⟩ := State.has_read.mpr hread
      exact ⟨_, List.mem_append_left _ (List.mem_flatMap.mpr ⟨bound, hbound,
        List.mem_flatMap.mpr ⟨tail, Option.mem_toList.mpr htail,
          List.mem_map.mpr ⟨(r, c'), hread, rfl⟩⟩⟩)⟩
    · exact ⟨_, List.mem_append_right _ (List.mem_map.mpr ⟨(k, tail), hmem, rfl⟩)⟩

theorem has_assignFlows {names : List String} {calls : List Nat} {assign : Step} {r : Root} :
    (s.assignFlows st names calls assign).Has r ↔ s.Stores st names calls r := by
  rw [assignFlows_eq_offerAll, Best.has_offerAll, Stores]
  refine or_congr ?_ ?_
  · rw [← State.has_read]
    constructor
    · rintro ⟨c, hc⟩
      obtain ⟨⟨r', c'⟩, hmem, heq⟩ := List.mem_map.mp hc
      cases heq
      exact ⟨c', hmem⟩
    · rintro ⟨c, hc⟩
      exact ⟨_, List.mem_map.mpr ⟨(r, c), hc, rfl⟩⟩
  · constructor
    · rintro ⟨c, hc⟩
      obtain ⟨i, hi, hc⟩ := List.mem_flatMap.mp hc
      obtain ⟨site, hsite, hc⟩ := List.mem_flatMap.mp hc
      exact ⟨i, hi, site, Option.mem_toList.mp hsite, exists_mem_returned.mp ⟨c, hc⟩⟩
    · rintro ⟨i, hi, site, hsite, hret⟩
      obtain ⟨c, hc⟩ := exists_mem_returned.mpr hret
      refine ⟨c, List.mem_flatMap.mpr ⟨i, hi, ?_⟩⟩
      exact List.mem_flatMap.mpr ⟨site, Option.mem_toList.mpr hsite, hc⟩

/-- The slots after an assignment: those it does not overwrite, and its target. -/
theorem has_next_assign {file target x : String} {names : List String} {calls : List Nat}
    {r : Root} :
    (s.next block pos st ⟨line, .assign file target names calls⟩).Has (x, r) ↔
      (Name.under x target = false ∧ st.Has (x, r)) ∨ x = target ∧ s.Stores st names calls r := by
  rw [next_assign, Best.has_offerAll, has_kill]
  refine or_congr Iff.rfl ?_
  constructor
  · rintro ⟨c, hc⟩
    obtain ⟨⟨r', c'⟩, hmem, heq⟩ := List.mem_map.mp hc
    cases heq
    exact ⟨rfl, has_assignFlows.mp ⟨c', hmem⟩⟩
  · rintro ⟨rfl, hstores⟩
    obtain ⟨c, hc⟩ := has_assignFlows.mpr hstores
    exact ⟨c, List.mem_map.mpr ⟨(r, c), hc, rfl⟩⟩

/-- **The target of an assignment holds exactly what the assignment stores.** -/
theorem has_next_target {file target : String} {names : List String} {calls : List Nat}
    {r : Root} :
    (s.next block pos st ⟨line, .assign file target names calls⟩).Has (target, r) ↔
      s.Stores st names calls r := by
  rw [has_next_assign, Name.under_self]
  simp

theorem has_next_seed {i : Nat} {slot : String} {src : Discovery.Source}
    (hsrc : s.program.sources[i]? = some src) :
    (s.next block pos st ⟨line, .seed i slot⟩).Has (slot, .source i) :=
  (covers_next_of_writes (.seed hsrc)).has

/-- A slot that a statement does not overwrite keeps what it holds. -/
theorem has_next_of_not_overwrites {stmt : Statement} {x : String} {r : Root}
    (hx : stmt.overwrites x = false) (h : st.Has (x, r)) :
    (s.next block pos st ⟨line, stmt⟩).Has (x, r) := by
  obtain ⟨c, hc⟩ := Best.has_iff_get?.mp h
  exact (covers_next_of_not_overwrites hx ⟨c, hc, isLE_compareChains_self c⟩).has

/-! ### What statements report -/

theorem exists_sink_report {k : Nat} {names : List String} {snk : Discovery.Sink} {r : Root}
    (hsink : s.program.sinks[k]? = some snk) (h : (st.read names).Has r) :
    ∃ c, .sink r k c ∈ s.reports block pos st ⟨line, .sink k names⟩ := by
  obtain ⟨c, hc⟩ := h
  exact ⟨_, mem_reports_iff.mpr (.sink hsink hc)⟩

theorem exists_ret_report {file expr : String} {names : List String} {r : Root}
    (h : (st.read names).Has r) :
    ∃ c, .ret r c ∈ s.reports block pos st ⟨line, .ret file expr names⟩ := by
  obtain ⟨c, hc⟩ := h
  exact ⟨_, mem_reports_iff.mpr (.ret hc)⟩

theorem pass_report {i : Nat} {site : CallSite} {bound : Binding} {r : Root}
    (hsite : s.program.calls[i]? = some site) (hbound : bound ∈ site.bindings)
    (h : (st.read bound.names).Has r) :
    .pass site.callee bound.param ∈ s.reports block pos st ⟨line, .call i⟩ := by
  obtain ⟨c, hc⟩ := h
  exact mem_reports_iff.mpr (.pass hsite hbound hc)

theorem exists_call_report {i k : Nat} {site : CallSite} {bound : Binding} {r : Root}
    (hsite : s.program.calls[i]? = some site) (hbound : bound ∈ site.bindings)
    (h : (st.read bound.names).Has r)
    (hk : (s.snapshot.summary site.callee).sinks.Has (bound.param, k)) :
    ∃ c, .sink r k c ∈ s.reports block pos st ⟨line, .call i⟩ := by
  obtain ⟨c, hc⟩ := h
  obtain ⟨tail, htail⟩ := hk
  exact ⟨_, mem_reports_iff.mpr (.call hsite hbound hc htail)⟩

end Scope

/-! ### What is known -/

/-- The fact that a report of a function stands for. -/
def Report.fact (f : Nat) : Report → Fact
  | .sink root k _ => .reachesSink f root k
  | .ret root _ => .reachesReturn f root
  | .pass callee i => .receives callee i

namespace Knowledge

/-- A fact is found in what is known.  A slot is tainted at a place when all states that solve the
equations of the function hold it there. -/
def Knows (p : Program) (h : Nat) (k : Knowledge) : Fact → Prop
  | .tainted f b pos x r =>
    ∃ fn, p.Analyzes f fn ∧ b < fn.blocks.size ∧ ∀ states,
      (p.scope h k.snapshot f).Solves
        ((p.scope h k.snapshot f).analyze Budget.unlimited).1.records states →
      ((p.scope h k.snapshot f).before b (states b) pos).Has (x, r)
  | .receives f i => (k.params.getD f 0).testBit i = true
  | .reachesSink f (.param i) t => (k.snapshot.summary f).sinks.Has (i, t)
  | .reachesSink _ (.source s) t => k.flows.Has (s, t)
  | .reachesReturn f (.param i) => (k.snapshot.summary f).returns.Has i
  | .reachesReturn f (.source s) => (k.snapshot.summary f).intrinsic.Has s

variable {p : Program} {h : Nat} {k : Knowledge}

theorem Absorbs.knows {f : Nat} {rec : Records} (ha : k.Absorbs f rec) {q : Report}
    (hq : rec.Covers q) : k.Knows p h (q.fact f) := by
  rcases q with ⟨⟨s⟩ | ⟨i⟩, t, c⟩ | ⟨⟨s⟩ | ⟨i⟩, c⟩ | ⟨callee, i⟩
  · exact ha.flows.has hq.has
  · exact ha.summary.sinks.has hq.has
  · exact ha.summary.intrinsic.has hq.has
  · exact ha.summary.returns.has hq.has
  · exact ha.args callee i hq

/-- What a statement reports that observes a tainted slot is known. -/
theorem knows_of_report (hp : p.WellFormed)
    (hk : ∀ f, p.canAnalyze f = true → k.UpToDate p h f) {f b pos : Nat} {x : String} {r : Root}
    {q : Placed} (ht : k.Knows p h (.tainted f b pos x r))
    (hq : (p.statementsAt f b)[pos]? = some q) {fact : Fact}
    (hreport : ∀ st : State, st.Has (x, r) →
      ∃ report ∈ (p.scope h k.snapshot f).reports b pos st q, report.fact f = fact) :
    k.Knows p h fact := by
  obtain ⟨fn, hf, hb, hstates⟩ := ht
  have hfun : (p.scope h k.snapshot f).function = fn := Program.function_scope hf.1
  -- the analysis of the function again gives states that solve its equations
  obtain ⟨hcancel, habs⟩ := hk f (Program.canAnalyze_iff.mpr ⟨fn, hf⟩)
  obtain ⟨states, hsolves⟩ := Scope.solves_analyze (s := p.scope h k.snapshot f)
    (by rw [hfun]; exact hp.functions f fn hf.1) (by rw [hfun]; exact hf.2) hcancel
  obtain ⟨report, hmem, rfl⟩ := hreport _ (hstates states hsolves)
  refine habs.knows (hsolves.reports b (by rw [hfun]; exact hb) report ?_)
  exact Scope.mem_blockReports (s := p.scope h k.snapshot f) hq hmem

/-- A slot that a statement taints is known to be tainted after it. -/
theorem knows_next {f b pos : Nat} {q : Placed} {x x' : String} {r r' : Root}
    (ht : k.Knows p h (.tainted f b pos x r)) (hq : (p.statementsAt f b)[pos]? = some q)
    (hnext : ∀ st : State, st.Has (x, r) →
      ((p.scope h k.snapshot f).next b pos st q).Has (x', r')) :
    k.Knows p h (.tainted f b (pos + 1) x' r') := by
  obtain ⟨fn, hf, hb, hstates⟩ := ht
  refine ⟨fn, hf, hb, fun states hsolves => ?_⟩
  rw [Scope.before_succ (s := p.scope h k.snapshot f) hq]
  exact hnext _ (hstates states hsolves)

/-- A slot that a statement taints from any state is known to be tainted after it. -/
theorem knows_after (hp : p.WellFormed) {f b pos : Nat} {fn : Function} (hf : p.Analyzes f fn)
    {q : Placed} {x : String} {r : Root} (hq : (p.statementsAt f b)[pos]? = some q)
    (hnext : ∀ st : State, ((p.scope h k.snapshot f).next b pos st q).Has (x, r)) :
    k.Knows p h (.tainted f b (pos + 1) x r) := by
  obtain ⟨fn', hfn', hb⟩ := hp.blocks f b q (List.mem_of_getElem? hq)
  obtain rfl : fn = fn' := Option.some.inj (hf.1.symm.trans hfn')
  refine ⟨fn, hf, hb, fun states _ => ?_⟩
  rw [Scope.before_succ (s := p.scope h k.snapshot f) hq]
  exact hnext _

/-- What the function starts with is known to be tainted on entry. -/
theorem knows_entry (hp : p.WellFormed) {f e : Nat} {fn : Function} (hf : p.Analyzes f fn)
    (he : fn.entry = some e) {x : String} {r : Root} {c : Chain}
    (hc : ((x, r), c) ∈ (p.scope h k.snapshot f).entryOffers) :
    k.Knows p h (.tainted f e 0 x r) := by
  have hfun : (p.scope h k.snapshot f).function = fn := Program.function_scope hf.1
  obtain ⟨e', he', hlt, -⟩ := (hp.functions f fn hf.1).entry hf.2
  obtain rfl : e = e' := Option.some.inj (he.symm.trans he')
  refine ⟨fn, hf, hlt, fun states hsolves => ?_⟩
  refine (hsolves.entry e (by rw [hfun]; exact he)).has ?_
  rw [Scope.entryState_eq_offerAll, Best.has_offerAll]
  exact Or.inr ⟨c, hc⟩

/-- **Every fact that holds is known**, once every function is up to date.  By induction on the
derivation; each rule is one statement or one edge. -/
theorem knows_of_holds (hp : p.WellFormed)
    (hk : ∀ f, p.canAnalyze f = true → k.UpToDate p h f) {fact : Fact} (hfact : p.Holds fact) :
    k.Knows p h fact := by
  induction hfact with
  | @enterParam f e i fn name hf he hname hne _ ih =>
    have hfun : (p.scope h k.snapshot f).function = fn := Program.function_scope hf.1
    rw [← hfun] at hname
    exact knows_entry hp hf he (Scope.param_mem_entryOffers hname hne ih)
  | @enterHandler f e i fn src name hf he hi hsrc hname hne =>
    have hfun : (p.scope h k.snapshot f).function = fn := Program.function_scope hf.1
    rw [← hfun] at hname
    exact knows_entry hp hf he (Scope.handler_mem_entryOffers hi hsrc hname hne)
  | @edge f b b' fn block x r hf hb hb' _ ih =>
    obtain ⟨fn', hf', -, hstates⟩ := ih
    obtain rfl : fn = fn' := Option.some.inj (hf.1.symm.trans hf'.1)
    have hfun : (p.scope h k.snapshot f).function = fn := Program.function_scope hf.1
    -- the state of a block covers those at the ends of its predecessors
    have hedge : fn.Edge b b' := ⟨block, hb, hb'⟩
    refine ⟨fn, hf, (hp.functions f fn hf.1).edge b b' hedge, fun states hsolves => ?_⟩
    exact (hsolves.edge b b' (by rw [hfun]; exact hedge)).has (hstates states hsolves)
  | keep hrun hx _ ih =>
    exact knows_next ih hrun fun st hst => Scope.has_next_of_not_overwrites hx hst
  | seed hf hrun hsrc => exact knows_after hp hf hrun fun st => Scope.has_next_seed hsrc
  | assign hrun hx _ ih =>
    exact knows_next ih hrun fun st hst => Scope.has_next_target.mpr (Or.inl ⟨_, hx, hst⟩)
  -- what an assignment stores of its calls is looked up in the summaries of the callees
  | assignBound hrun hi hsite hbound hx _ _ ih ihret =>
    refine knows_next ih hrun fun st hst => Scope.has_next_target.mpr (Or.inr ?_)
    exact ⟨_, hi, _, hsite, Or.inl ⟨_, hbound, ihret, _, hx, hst⟩⟩
  | assignIntrinsic hf hrun hi hsite _ ihret =>
    refine knows_after hp hf hrun fun st => Scope.has_next_target.mpr (Or.inr ?_)
    exact ⟨_, hi, _, hsite, Or.inr ⟨_, rfl, ihret⟩⟩
  | call hrun hsite hbound hx _ ih =>
    refine knows_of_report hp hk ih hrun fun st hst => ?_
    exact ⟨_, Scope.pass_report hsite hbound (State.has_read.mpr ⟨_, hx, hst⟩), rfl⟩
  | callSink hrun hsite hbound hx _ _ ih ihsink =>
    refine knows_of_report hp hk ih hrun fun st hst => ?_
    obtain ⟨c, hc⟩ := Scope.exists_call_report (s := p.scope h k.snapshot _) hsite hbound
      (State.has_read.mpr ⟨_, hx, hst⟩) ihsink
    exact ⟨_, hc, rfl⟩
  | sink hrun hsink hx _ ih =>
    refine knows_of_report hp hk ih hrun fun st hst => ?_
    obtain ⟨c, hc⟩ := Scope.exists_sink_report (s := p.scope h k.snapshot _) hsink
      (State.has_read.mpr ⟨_, hx, hst⟩)
    exact ⟨_, hc, rfl⟩
  | ret hrun hx _ ih =>
    refine knows_of_report hp hk ih hrun fun st hst => ?_
    obtain ⟨c, hc⟩ := Scope.exists_ret_report (s := p.scope h k.snapshot _)
      (State.has_read.mpr ⟨_, hx, hst⟩)
    exact ⟨_, hc, rfl⟩

end Knowledge

end TaintFlow.Flow
