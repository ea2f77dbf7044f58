import TaintFlow.Proofs.Flow.Completeness
import TaintFlow.Proofs.Flow.VisitingOrder

/-!
# When steps are left out

Steps are left out of a reported chain when it crosses more calls than the hop limit allows.  Of all
chains of a fact only the best one is kept, and the best one is the shortest, so it need not be the
one that crosses the fewest calls.  As long as shorter chains cross no more calls than longer ones,
nothing is lost by that: steps are left out only if every chain of the statement rules goes beyond
the limit, and a higher limit never leaves out more.  Otherwise both fail.

## Main definitions

* `Program.ShallowFirst` — of chains that are compared, a shorter one crosses no more calls.
* `Chain.Within` — a complete chain that crosses no more calls than another one.
* `Knowledge.Within` — the chain kept for a fact is within a given one.

## Main results

* `Program.exists_derives_of_holds` — every fact that holds has a chain, whatever the limit.
* `Program.Derives.mono` — a complete chain is given under every higher limit.
* `Knowledge.within_of_derives` — what is kept is within every complete chain.
* `Program.truncated_iff_beyond_limit` — when steps are left out.
-/

namespace TaintFlow.Flow

/-! ### Chains under several limits -/

namespace Scope

variable {s t : Scope} {c tail : Chain}

/-- A complete chain across a call is the same under a higher limit. -/
theorem compose_eq_of_le (hle : s.maxHops ≤ t.maxHops) {call : Step}
    (hc : (s.compose c call tail).truncated = false) :
    t.compose c call tail = s.compose c call tail := by
  have hdepth : c.depth + tail.depth + 1 ≤ s.maxHops := by
    rcases s.compose_cases c call tail with ⟨hle, -⟩ | ⟨-, -, -, htr⟩
    · exact hle
    · rw [htr] at hc
      cases hc
  simp only [compose, if_pos hdepth, if_pos (Nat.le_trans hdepth hle)]

theorem lift_eq_of_le (hle : s.maxHops ≤ t.maxHops) {site : CallSite}
    (hc : (s.lift tail site).truncated = false) : t.lift tail site = s.lift tail site := by
  have hdepth : tail.depth + 1 ≤ s.maxHops := by
    rcases s.lift_cases tail site with ⟨hle, -⟩ | ⟨-, -, -, htr⟩
    · exact hle
    · rw [htr] at hc
      cases hc
  simp only [lift, if_pos hdepth, if_pos (Nat.le_trans hdepth hle)]

end Scope

namespace Program

variable {p : Program} {h h' : Nat}

/-- Every fact that holds has a chain, whatever the limit. -/
theorem exists_derives_of_holds {fact : Fact} (hfact : p.Holds fact) (h : Nat) :
    ∃ c, p.Derives h fact c := by
  induction hfact with
  | enterParam hf he hname hne _ ih =>
    obtain ⟨c, hc⟩ := ih
    exact ⟨_, .enterParam hf he hname hne hc⟩
  | enterHandler hf he hi hsrc hname hne => exact ⟨_, .enterHandler hf he hi hsrc hname hne⟩
  | edge hf hb hb' _ ih =>
    obtain ⟨c, hc⟩ := ih
    exact ⟨c, .edge hf hb hb' hc⟩
  | keep hrun hx _ ih =>
    obtain ⟨c, hc⟩ := ih
    exact ⟨c, .keep hrun hx hc⟩
  | seed hf hrun hsrc => exact ⟨_, .seed hf hrun hsrc⟩
  | assign hrun hx _ ih =>
    obtain ⟨c, hc⟩ := ih
    exact ⟨_, .assign hrun hx hc⟩
  | assignBound hrun hi hsite hbound hx _ _ ih ihtail =>
    obtain ⟨c, hc⟩ := ih
    obtain ⟨tail, htail⟩ := ihtail
    exact ⟨_, .assignBound hrun hi hsite hbound hx hc htail⟩
  | assignIntrinsic hf hrun hi hsite _ ih =>
    obtain ⟨tail, htail⟩ := ih
    exact ⟨_, .assignIntrinsic hf hrun hi hsite htail⟩
  | call hrun hsite hbound hx _ ih =>
    obtain ⟨c, hc⟩ := ih
    exact ⟨c, .call hrun hsite hbound hx hc⟩
  | callSink hrun hsite hbound hx _ _ ih ihtail =>
    obtain ⟨c, hc⟩ := ih
    obtain ⟨tail, htail⟩ := ihtail
    exact ⟨_, .callSink hrun hsite hbound hx hc htail⟩
  | sink hrun hsink hx _ ih =>
    obtain ⟨c, hc⟩ := ih
    exact ⟨_, .sink hrun hsink hx hc⟩
  | ret hrun hx _ ih =>
    obtain ⟨c, hc⟩ := ih
    exact ⟨_, .ret hrun hx hc⟩

/-- **A complete chain is given under every higher limit.** -/
theorem Derives.mono (hle : h ≤ h') {fact : Fact} {c : Chain} (d : p.Derives h fact c)
    (hc : c.truncated = false) : p.Derives h' fact c := by
  induction d with
  | enterParam hf he hname hne d _ =>
    -- the chain of the argument does not go on, so it need not be complete
    obtain ⟨c', hc'⟩ := exists_derives_of_holds d.holds h'
    exact .enterParam hf he hname hne hc'
  | enterHandler hf he hi hsrc hname hne => exact .enterHandler hf he hi hsrc hname hne
  | edge hf hb hb' _ ih => exact .edge hf hb hb' (ih hc)
  | keep hrun hx _ ih => exact .keep hrun hx (ih hc)
  | seed hf hrun hsrc => exact .seed hf hrun hsrc
  | assign hrun hx _ ih => exact .assign hrun hx (ih hc)
  | assignBound hrun hi hsite hbound hx _ _ ih ihtail =>
    obtain ⟨hc', htail, -⟩ := Chain.compose_complete hc
    rw [← Scope.compose_eq_of_le (s := p.bare h _) (t := p.bare h' _) hle hc]
    exact .assignBound hrun hi hsite hbound hx (ih hc') (ihtail htail)
  | assignIntrinsic hf hrun hi hsite _ ih =>
    obtain ⟨htail, -⟩ := Chain.lift_complete hc
    rw [← Scope.lift_eq_of_le (s := p.bare h _) (t := p.bare h' _) hle hc]
    exact .assignIntrinsic hf hrun hi hsite (ih htail)
  | call hrun hsite hbound hx _ ih => exact .call hrun hsite hbound hx (ih hc)
  | callSink hrun hsite hbound hx _ _ ih ihtail =>
    obtain ⟨hc', htail, -⟩ := Chain.compose_complete hc
    rw [← Scope.compose_eq_of_le (s := p.bare h _) (t := p.bare h' _) hle hc]
    exact .callSink hrun hsite hbound hx (ih hc') (ihtail htail)
  | sink hrun hsink hx _ ih => exact .sink hrun hsink hx (ih hc)
  | ret hrun hx _ ih => exact .ret hrun hx (ih hc)

end Program

/-! ### Chains within others -/

/-- A chain is complete and crosses no more calls than another one. -/
structure Chain.Within (c d : Chain) : Prop where
  complete : c.truncated = false
  depth : c.depth ≤ d.depth

namespace Chain

variable {c c' d tail tail' : Chain}

theorem Within.trans (h : c.Within c') (h' : c'.Within d) : c.Within d :=
  ⟨h.complete, Nat.le_trans h.depth h'.depth⟩

theorem Within.push (h : c.Within d) (s : Step) : (c.push s).Within (d.push s) :=
  ⟨h.complete, h.depth⟩

theorem within_self (h : c.truncated = false) : c.Within c :=
  ⟨h, Nat.le_refl _⟩

/-- A call keeps a chain within a complete one. -/
theorem Within.compose {s : Scope} {call : Step} (h : c'.Within c) (htail : tail'.Within tail)
    (hc : (s.compose c call tail).truncated = false) :
    (s.compose c' call tail').Within (s.compose c call tail) := by
  have hle := h.depth
  have hle' := htail.depth
  rcases s.compose_cases c call tail with ⟨hlimit, -, hdepth, -⟩ | ⟨-, -, -, htr⟩
  · rcases s.compose_cases c' call tail' with ⟨-, -, hdepth', htr⟩ | ⟨hbeyond, -⟩
    · refine ⟨?_, by omega⟩
      rw [htr, h.complete, htail.complete]
      rfl
    · omega
  · rw [htr] at hc
    cases hc

theorem Within.lift {s : Scope} {site : CallSite} (htail : tail'.Within tail)
    (hc : (s.lift tail site).truncated = false) :
    (s.lift tail' site).Within (s.lift tail site) := by
  have hle := htail.depth
  rcases s.lift_cases tail site with ⟨hlimit, -, hdepth, -⟩ | ⟨-, -, -, htr⟩
  · rcases s.lift_cases tail' site with ⟨-, -, hdepth', htr⟩ | ⟨hbeyond, -⟩
    · exact ⟨by rw [htr, htail.complete], by omega⟩
    · omega
  · rw [htr] at hc
    cases hc

end Chain

/-- Of complete chains that are compared, a shorter one crosses no more calls. -/
def Program.ShallowFirst (p : Program) (h : Nat) : Prop :=
  ∀ fact fact' c d, p.Rivals fact fact' → p.Derives h fact c → p.Derives h fact' d →
    c.truncated = false → d.truncated = false → c.length < d.length → c.depth ≤ d.depth

section

variable {p : Program} {h : Nat}

/-- The better one of two chains that are compared is within the other one, if that is complete. -/
theorem Program.ShallowFirst.within (hfirst : p.ShallowFirst h) {fact fact' : Fact} {c d : Chain}
    (hrivals : p.Rivals fact fact') (hc : p.Derives h fact c) (hd : p.Derives h fact' d)
    (hle : (compareChains c d).isLE) (hcomplete : d.truncated = false) : c.Within d := by
  have hc' := not_truncated_of_isLE hle hcomplete
  refine ⟨hc', ?_⟩
  rcases length_lt_or_depth_le_of_isLE hle hcomplete with hlt | hdepth
  · exact hfirst fact fact' c d hrivals hc hd hc' hcomplete hlt
  · exact hdepth

/-- A program with level depths has no shorter chain that crosses more calls. -/
theorem Program.shallowFirst_of_level {g : Depths} (hg : g.Keeps p) (hlevel : g.Level p) :
    p.ShallowFirst h := by
  intro fact fact' c d hrivals hc hd _ _ _
  exact Nat.le_of_eq (hrivals.depth_eq hg hlevel hc hd)

/-! ### What states keep -/

variable {f b pos : Nat} {st : State} {x : String} {r : Root} {c d : Chain}

/-- What a state keeps for a slot is within what it covers. -/
theorem State.Derived.within (hst : st.Derived p h f b pos) (hfirst : p.ShallowFirst h)
    (hcov : st.Covers (x, r) d) (hd : p.Derives h (.tainted f b pos x r) d) (hdc : d.Within c) :
    ∃ e, st.get? (x, r) = some e ∧ e.Within c := by
  obtain ⟨e, he, hle⟩ := hcov
  have hderives := hst x r e (Best.mem_entries_of_get? he)
  exact ⟨e, he, (hfirst.within (.slot f b pos x r) hderives hd hle hdc.complete).trans hdc⟩

/-- What a statement reads of a state is within what any observed slot keeps. -/
theorem State.Derived.read_within (hst : st.Derived p h f b pos) (hfirst : p.ShallowFirst h)
    {line : Int} {stmt : Statement} (hrun : p.Runs f b pos line stmt) {names : List String}
    (hnames : names ∈ p.reads stmt) (hx : observes names x = true) (hget : st.get? (x, r) = some d)
    (hdc : d.Within c) :
    ∃ y e, observes names y = true ∧ (r, e) ∈ (st.read names).entries ∧
      p.Derives h (.tainted f b pos y r) e ∧ e.Within c := by
  have hmem := Best.mem_entries_of_get? hget
  obtain ⟨e, he, hle⟩ := State.covers_read hx hmem
  obtain ⟨y, hy, hderives⟩ := hst.read (Best.mem_entries_of_get? he)
  have hwithin := hfirst.within (.read hrun hnames hy hx) hderives (hst x r d hmem) hle hdc.complete
  exact ⟨y, e, hy, Best.mem_entries_of_get? he, hderives, hwithin.trans hdc⟩

end

/-! ### What is kept -/

/-- The worklist that the analysis of a function ends with, unless it is cancelled. -/
def Scope.final (s : Scope) : Work :=
  (s.run maxSteps s.start Budget.unlimited).1.1

/-- The state that the analysis of a function ends with before a statement. -/
def Scope.kept (s : Scope) (block pos : Nat) : State :=
  s.before block (s.final.stateAt block) pos

/-- The chain of a report is within another one. -/
def Report.Within (c : Chain) : Report → Prop
  | .sink _ _ d => d.Within c
  | .ret _ d => d.Within c
  | .pass .. => True

namespace Knowledge

/-- The chain that is kept for a fact is within another one.  Chains of slots are kept in the states
that the analysis of a function ends with; from a source to a sink the number of calls does not
matter, as no chain goes on from there. -/
def Within (p : Program) (h : Nat) (k : Knowledge) (c : Chain) : Fact → Prop
  | .tainted f b pos x r =>
    ∃ fn, p.Analyzes f fn ∧ b < fn.blocks.size ∧
      ∃ d, ((p.scope h k.snapshot f).kept b pos).get? (x, r) = some d ∧ d.Within c
  | .receives .. => True
  | .reachesSink f (.param i) t => ∃ d, (k.snapshot.summary f).sinks.get? (i, t) = some d ∧ d.Within c
  | .reachesSink _ (.source s) t => ∃ d, k.flows.get? (s, t) = some d ∧ d.truncated = false
  | .reachesReturn f (.param i) => ∃ d, (k.snapshot.summary f).returns.get? i = some d ∧ d.Within c
  | .reachesReturn f (.source s) =>
    ∃ d, (k.snapshot.summary f).intrinsic.get? s = some d ∧ d.Within c

variable {p : Program} {h : Nat} {k : Knowledge} {f b pos : Nat} {fn : Function} {c : Chain}

/-- The analysis of a function that is up to date ends with states that solve its equations. -/
theorem UpToDate.final (hp : p.WellFormed) (hd : k.Derived p h) (hf : p.Analyzes f fn)
    (hk : k.UpToDate p h f) :
    (p.scope h k.snapshot f).Solves (p.scope h k.snapshot f).final.records
        (p.scope h k.snapshot f).final.stateAt ∧
      (p.scope h k.snapshot f).final.Derived p h f ∧
      k.Absorbs f (p.scope h k.snapshot f).final.records := by
  have hfun : (p.scope h k.snapshot f).function = fn := Program.function_scope hf.1
  have hs : (p.scope h k.snapshot f).function.Sound := by
    rw [hfun]
    exact hp.functions f fn hf.1
  have ha : (p.scope h k.snapshot f).function.analyzable = true := by
    rw [hfun]
    exact hf.2
  have hvisits := (p.scope h k.snapshot f).visits_run Scope.maxSteps Budget.unlimited
  have hqueue := (p.scope h k.snapshot f).run_queue_eq_nil Scope.maxSteps
    (p.scope h k.snapshot f).start Budget.unlimited hk.1
  exact ⟨Scope.solves_of_queue_nil hs ha (hvisits.settled hs ha).1 hqueue,
    hvisits.derived hf hd.snapshot, hk.2⟩

section

variable (hfirst : p.ShallowFirst h) (hd : k.Derived p h)

include hfirst hd

/-- What is kept is within what is recorded. -/
theorem Absorbs.within {rec : Records} (habs : k.Absorbs f rec) {q : Report} (hq : rec.Covers q)
    (hderived : q.Derived p h f) (hqc : q.Within c) : k.Within p h c (q.fact f) := by
  rcases q with ⟨⟨s⟩ | ⟨i⟩, t, d⟩ | ⟨⟨s⟩ | ⟨i⟩, d⟩ | ⟨callee, i⟩
  · obtain ⟨e, he, hle⟩ := Best.Covers.coversAll hq habs.flows
    exact ⟨e, he, not_truncated_of_isLE hle hqc.complete⟩
  · obtain ⟨e, he, hle⟩ := Best.Covers.coversAll hq habs.summary.sinks
    have hderives := (hd.snapshot.summary f).sinks i t e (Best.mem_entries_of_get? he)
    exact ⟨e, he, (hfirst.within (.sink f i t) hderives hderived hle hqc.complete).trans hqc⟩
  · obtain ⟨e, he, hle⟩ := Best.Covers.coversAll hq habs.summary.intrinsic
    have hderives := (hd.snapshot.summary f).intrinsic s e (Best.mem_entries_of_get? he)
    exact ⟨e, he, (hfirst.within (.ret f _) hderives hderived hle hqc.complete).trans hqc⟩
  · obtain ⟨e, he, hle⟩ := Best.Covers.coversAll hq habs.summary.returns
    have hderives := (hd.snapshot.summary f).returns i e (Best.mem_entries_of_get? he)
    exact ⟨e, he, (hfirst.within (.ret f _) hderives hderived hle hqc.complete).trans hqc⟩
  · trivial

variable (hp : p.WellFormed) (hk : ∀ f, p.canAnalyze f = true → k.UpToDate p h f)

omit hfirst in
include hp hk in
theorem derived_kept (hf : p.Analyzes f fn) (hpos : pos ≤ (p.statementsAt f b).length) :
    ((p.scope h k.snapshot f).kept b pos).Derived p h f b pos := by
  obtain ⟨-, hwork, -⟩ := (hk f (Program.canAnalyze_iff.mpr ⟨fn, hf⟩)).final hp hd hf
  exact Scope.derived_before hf hd.snapshot (Scope.derived_stateAt hwork b) pos hpos

include hp hk

/-- What is kept after a statement is within what the statement leaves. -/
theorem within_next (hf : p.Analyzes f fn) {line : Int} {stmt : Statement}
    (hrun : p.Runs f b pos line stmt) {x : String} {r : Root} {d : Chain}
    (hcov : ((p.scope h k.snapshot f).next b pos ((p.scope h k.snapshot f).kept b pos)
      ⟨line, stmt⟩).Covers (x, r) d)
    (hderives : p.Derives h (.tainted f b (pos + 1) x r) d) (hdc : d.Within c) :
    k.Within p h c (.tainted f b (pos + 1) x r) := by
  obtain ⟨fn', hfn', hb⟩ := hp.blocks f b _ (List.mem_of_getElem? hrun)
  obtain rfl : fn = fn' := Option.some.inj (hf.1.symm.trans hfn')
  have hst := derived_kept hd hp hk hf (List.getElem?_eq_some_iff.mp hrun).1
  rw [Scope.kept, ← Scope.before_succ (s := p.scope h k.snapshot f) hrun] at hcov
  exact ⟨fn, hf, hb, hst.within hfirst hcov hderives hdc⟩

/-- What is kept is within what a statement reports. -/
theorem within_report (hf : p.Analyzes f fn) {line : Int} {stmt : Statement}
    (hrun : p.Runs f b pos line stmt) {q : Report}
    (hq : (p.scope h k.snapshot f).Makes b pos ((p.scope h k.snapshot f).kept b pos) line stmt q)
    (hderived : q.Derived p h f) (hqc : q.Within c) : k.Within p h c (q.fact f) := by
  have hfun : (p.scope h k.snapshot f).function = fn := Program.function_scope hf.1
  obtain ⟨fn', hfn', hb⟩ := hp.blocks f b _ (List.mem_of_getElem? hrun)
  obtain rfl : fn = fn' := Option.some.inj (hf.1.symm.trans hfn')
  obtain ⟨hsolves, -, habs⟩ := (hk f (Program.canAnalyze_iff.mpr ⟨fn, hf⟩)).final hp hd hf
  refine habs.within hfirst hd (hsolves.reports b (by rw [hfun]; exact hb) q ?_) hderived hqc
  exact Scope.mem_blockReports (s := p.scope h k.snapshot f) hrun (Scope.mem_reports_iff.mpr hq)

/-- What is kept on entry is within what the function starts with. -/
theorem within_entry (hf : p.Analyzes f fn) {e : Nat} (he : fn.entry = some e) {x : String}
    {r : Root} {d : Chain} (hoffer : ((x, r), d) ∈ (p.scope h k.snapshot f).entryOffers)
    (hderives : p.Derives h (.tainted f e 0 x r) d) (hdc : d.Within c) :
    k.Within p h c (.tainted f e 0 x r) := by
  have hfun : (p.scope h k.snapshot f).function = fn := Program.function_scope hf.1
  obtain ⟨e', he', hlt, -⟩ := (hp.functions f fn hf.1).entry hf.2
  obtain rfl : e = e' := Option.some.inj (he.symm.trans he')
  obtain ⟨hsolves, -, -⟩ := (hk f (Program.canAnalyze_iff.mpr ⟨fn, hf⟩)).final hp hd hf
  have hst := derived_kept hd hp hk hf (b := e) (Nat.zero_le _)
  have hentry : (p.scope h k.snapshot f).entryState.Covers (x, r) d := by
    rw [Scope.entryState_eq_offerAll]
    exact Best.covers_offerAll _ hoffer
  have hcov := hentry.coversAll (hsolves.entry e (by rw [hfun]; exact he))
  exact ⟨fn, hf, hlt, hst.within hfirst hcov hderives hdc⟩

/-- What is read before a statement is within what any observed slot keeps. -/
theorem exists_read_within {line : Int} {stmt : Statement} (hrun : p.Runs f b pos line stmt)
    {names : List String} (hnames : names ∈ p.reads stmt) {x : String} {r : Root}
    (hx : observes names x = true) (hkept : k.Within p h c (.tainted f b pos x r)) :
    ∃ fn y e, p.Analyzes f fn ∧ observes names y = true ∧
      (r, e) ∈ (((p.scope h k.snapshot f).kept b pos).read names).entries ∧
      p.Derives h (.tainted f b pos y r) e ∧ e.Within c := by
  obtain ⟨fn, hf, -, d, hget, hdc⟩ := hkept
  have hst := derived_kept hd hp hk hf (Nat.le_of_lt (List.getElem?_eq_some_iff.mp hrun).1)
  obtain ⟨y, e, hread⟩ := hst.read_within hfirst hrun hnames hx hget hdc
  exact ⟨fn, y, e, hf, hread⟩

/-- **What is kept is within every complete chain.**  By induction on the derivation; a rule goes on
from what is kept for its premises, and what is kept for its conclusion is within that. -/
theorem within_of_derives {fact : Fact} (hfact : p.Derives h fact c) (hc : c.truncated = false) :
    k.Within p h c fact := by
  induction hfact with
  | @enterParam f e i fn name c hf he hname hne hparam _ =>
    have hfun : (p.scope h k.snapshot f).function = fn := Program.function_scope hf.1
    have hbit : (k.params.getD f 0).testBit i = true := knows_of_holds hp hk hparam.holds
    exact within_entry hfirst hd hp hk hf he
      (Scope.param_mem_entryOffers (by rw [hfun]; exact hname) hne hbit)
      (.enterParam hf he hname hne hparam) (Chain.within_self hc)
  | @enterHandler f e i fn src name hf he hi hsrc hname hne =>
    have hfun : (p.scope h k.snapshot f).function = fn := Program.function_scope hf.1
    exact within_entry hfirst hd hp hk hf he
      (Scope.handler_mem_entryOffers hi hsrc (by rw [hfun]; exact hname) hne)
      (.enterHandler hf he hi hsrc hname hne) (Chain.within_self hc)
  | @edge f b b' fn block x r c hf hb hb' _ ih =>
    obtain ⟨fn', hf', -, d, hget, hdc⟩ := ih hc
    obtain rfl : fn = fn' := Option.some.inj (hf.1.symm.trans hf'.1)
    have hfun : (p.scope h k.snapshot f).function = fn := Program.function_scope hf.1
    have hedge : fn.Edge b b' := ⟨block, hb, hb'⟩
    obtain ⟨hsolves, -, -⟩ := (hk f (Program.canAnalyze_iff.mpr ⟨fn, hf⟩)).final hp hd hf
    -- the state of a block covers those at the ends of its predecessors
    have hmem := Best.mem_entries_of_get? hget
    have hcov := hsolves.edge b b' (by rw [hfun]; exact hedge) _ d hmem
    have hderives := derived_kept hd hp hk hf (Nat.le_refl _) x r d hmem
    have hst := derived_kept hd hp hk hf (b := b') (Nat.zero_le _)
    exact ⟨fn, hf, (hp.functions f fn hf.1).edge b b' hedge,
      hst.within hfirst hcov (.edge hf hb hb' hderives) hdc⟩
  | keep hrun hx _ ih =>
    obtain ⟨fn, hf, -, d, hget, hdc⟩ := ih hc
    have hst := derived_kept hd hp hk hf (Nat.le_of_lt (List.getElem?_eq_some_iff.mp hrun).1)
    have hderives := hst _ _ d (Best.mem_entries_of_get? hget)
    refine within_next hfirst hd hp hk hf hrun ?_ (.keep hrun hx hderives) hdc
    exact Scope.covers_next_of_not_overwrites hx ⟨d, hget, isLE_compareChains_self d⟩
  | seed hf hrun hsrc =>
    exact within_next hfirst hd hp hk hf hrun (Scope.covers_next_of_writes (.seed hsrc))
      (.seed hf hrun hsrc) (Chain.within_self hc)
  | assign hrun hx _ ih =>
    obtain ⟨fn, y, e, hf, hy, hread, hderives, hec⟩ := exists_read_within hfirst hd hp hk hrun
      List.mem_cons_self hx (ih hc)
    exact within_next hfirst hd hp hk hf hrun (Scope.covers_next_of_writes (.read hread))
      (.assign hrun hy hderives) (hec.push _)
  | @assignBound f b pos i line file target x names calls site bound r c tail hrun hi hsite hbound
      hx _ _ ih ihtail =>
    obtain ⟨hc', htail, -⟩ := Chain.compose_complete hc
    obtain ⟨fn, y, e, hf, hy, hread, hderives, hec⟩ := exists_read_within hfirst hd hp hk hrun
      (Program.mem_reads_of_mem_sites hi hsite hbound) hx (ih hc')
    obtain ⟨tail', htail', hwithin⟩ := ihtail htail
    have hderives' := (hd.snapshot.summary site.callee).returns bound.param tail'
      (Best.mem_entries_of_get? htail')
    exact within_next hfirst hd hp hk hf hrun
      (Scope.covers_next_of_writes (.bound hi hsite hbound htail' hread))
      (.assignBound hrun hi hsite hbound hy hderives hderives') ((hec.compose hwithin hc).push _)
  | @assignIntrinsic f b pos i s fn line file target names calls site tail hf hrun hi hsite _ ih =>
    obtain ⟨htail, -⟩ := Chain.lift_complete hc
    obtain ⟨tail', htail', hwithin⟩ := ih htail
    have hmem := Best.mem_entries_of_get? htail'
    have hderives := (hd.snapshot.summary site.callee).intrinsic s tail' hmem
    exact within_next hfirst hd hp hk hf hrun
      (Scope.covers_next_of_writes (.intrinsic hi hsite hmem))
      (.assignIntrinsic hf hrun hi hsite hderives) ((hwithin.lift hc).push _)
  | call => trivial
  | @callSink f b pos i t line site bound x r c tail hrun hsite hbound hx _ _ ih ihtail =>
    obtain ⟨hc', htail, -⟩ := Chain.compose_complete hc
    obtain ⟨fn, y, e, hf, hy, hread, hderives, hec⟩ := exists_read_within hfirst hd hp hk hrun
      (Program.mem_argumentNames hsite hbound) hx (ih hc')
    obtain ⟨tail', htail', hwithin⟩ := ihtail htail
    have hmem := Best.mem_entries_of_get? htail'
    have hderives' := (hd.snapshot.summary site.callee).sinks bound.param t tail' hmem
    exact within_report hfirst hd hp hk hf hrun (.call hsite hbound hread hmem)
      (.callSink hrun hsite hbound hy hderives hderives') (hec.compose hwithin hc)
  | sink hrun hsink hx _ ih =>
    obtain ⟨fn, y, e, hf, hy, hread, hderives, hec⟩ := exists_read_within hfirst hd hp hk hrun
      (List.mem_singleton_self _) hx (ih hc)
    exact within_report hfirst hd hp hk hf hrun (.sink hsink hread) (.sink hrun hsink hy hderives)
      (hec.push _)
  | ret hrun hx _ ih =>
    obtain ⟨fn, y, e, hf, hy, hread, hderives, hec⟩ := exists_read_within hfirst hd hp hk hrun
      (List.mem_singleton_self _) hx (ih hc)
    exact within_report hfirst hd hp hk hf hrun (.ret hread) (.ret hrun hy hderives) (hec.push _)

end

end Knowledge

/-! ### Flows -/

namespace Program

open Facts (Cache)
open Discovery (Source Sink)

/-- A flow that has a complete chain under some limit is reported by a complete one. -/
theorem complete_of_derives {p : Program} (hp : p.WellFormed) {h maxRounds : Nat} {b : Budget}
    (hc : (p.rounds h maxRounds b).1.incomplete = false) (hfirst : p.ShallowFirst h)
    {f s t : Nat} {d : Chain} (hd : p.Derives h (.reachesSink f (.source s) t) d)
    (hcomplete : d.truncated = false) :
    ∃ c, (p.rounds h maxRounds b).1.knowledge.flows.get? (s, t) = some c ∧ c.truncated = false :=
  Knowledge.within_of_derives hfirst (derived_rounds p h maxRounds b) hp
    (fun _ hf => upToDate_rounds hp hc hf) hd hcomplete

/-- **Steps are left out only when every chain goes beyond the hop limit**, if shorter chains cross
no more calls than longer ones.  For every program that is built and every hop limit under which the
rounds complete: the chain reported for a source and a sink lacks steps exactly if all chains that
the statement rules give for them cross more calls than the limit allows; and it lacks none if none
are left out under a lower limit. -/
theorem truncated_iff_beyond_limit (cache : Cache) (sources : List Source) (sinks : List Sink)
    (san : Sanitizers) (maxHops maxRounds : Nat) (b : Budget)
    (hc : ((build cache sources sinks san).rounds maxHops maxRounds b).1.incomplete = false)
    (hfirst : (build cache sources sinks san).ShallowFirst maxHops) :
    let p := build cache sources sinks san
    let flows := (p.rounds maxHops maxRounds b).1.knowledge.flows
    (∀ s t c, flows.get? (s, t) = some c →
      (c.truncated = true ↔
        ∀ f d, p.Derives maxHops (.reachesSink f (.source s) t) d → maxHops < d.depth)) ∧
    ∀ lower ≤ maxHops, ∀ maxRounds' b' s t c,
      (p.rounds lower maxRounds' b').1.knowledge.flows.get? (s, t) = some c →
      c.truncated = false → ∃ c', flows.get? (s, t) = some c' ∧ c'.truncated = false := by
  intro p flows
  have hp : p.WellFormed := wellFormed_build cache sources sinks san
  constructor
  · intro s t c hget
    constructor
    · intro htruncated f d hd
      refine Nat.lt_of_not_le fun hle => ?_
      -- a chain within the limit is complete, and so is what is reported
      obtain ⟨c', hget', hcomplete⟩ :=
        complete_of_derives hp hc hfirst hd (hd.limited.not_truncated hle)
      obtain rfl : c = c' := Option.some.inj (hget.symm.trans hget')
      rw [htruncated] at hcomplete
      cases hcomplete
    · intro hall
      obtain ⟨f, hd⟩ :=
        (derived_rounds p maxHops maxRounds b).flows s t c (Best.mem_entries_of_get? hget)
      have hlt := hall f c hd
      have hbound := hd.limited.bound
      exact hd.limited.depth.mpr (by omega)
  · intro lower hle maxRounds' b' s t c hget hcomplete
    obtain ⟨f, hd⟩ :=
      (derived_rounds p lower maxRounds' b').flows s t c (Best.mem_entries_of_get? hget)
    exact complete_of_derives hp hc hfirst (hd.mono hle hcomplete) hcomplete

/-- In the sample all chains from the source to the sink cross two calls.  Where one call is allowed
steps are left out; where two are allowed none are, nor where five are. -/
theorem truncated_iff_beyond_limit_sample :
    ((sample.rounds 1 100 Budget.unlimited).1.incomplete = false ∧ sample.ShallowFirst 1 ∧
      ∀ f d, sample.Derives 1 (.reachesSink f (.source 0) 0) d → 1 < d.depth) ∧
    ((sample.rounds 5 100 Budget.unlimited).1.incomplete = false ∧ sample.ShallowFirst 5 ∧
      ∃ c, (sample.rounds 5 100 Budget.unlimited).1.knowledge.flows.get? (0, 0) = some c ∧
        c.truncated = false) := by
  obtain ⟨hkeeps, hlevel⟩ := sampleDepths_fits
  have hfirst : ∀ h, sample.ShallowFirst h := fun h => shallowFirst_of_level hkeeps hlevel
  have hcut : (sample.rounds 1 100 Budget.unlimited).1.incomplete = false ∧
      ((sample.rounds 1 100 Budget.unlimited).1.knowledge.flows.get? (0, 0)).map (·.truncated) =
        some true := by
    rw [sample_eq]
    decide +kernel
  have hfull : ((sample.rounds 2 100 Budget.unlimited).1.knowledge.flows.get? (0, 0)).map
      (·.truncated) = some false := by
    rw [sample_eq]
    decide +kernel
  obtain ⟨c, hget, htruncated⟩ := Option.map_eq_some_iff.mp hcut.2
  obtain ⟨c', hget', hcomplete⟩ := Option.map_eq_some_iff.mp hfull
  obtain ⟨hiff, -⟩ := truncated_iff_beyond_limit sampleCache sampleSources sampleSinks
    (Sanitizers.make [] none) 1 100 Budget.unlimited hcut.1 (hfirst 1)
  obtain ⟨-, hlower⟩ := truncated_iff_beyond_limit sampleCache sampleSources sampleSinks
    (Sanitizers.make [] none) 5 100 Budget.unlimited sample_rounds.1 (hfirst 5)
  exact ⟨⟨hcut.1, hfirst 1, (hiff 0 0 c hget).mp htruncated⟩, sample_rounds.1, hfirst 5,
    hlower 2 (by decide) 100 Budget.unlimited 0 0 c' hget' hcomplete⟩

/-- In the detour with calls, where two calls are allowed, steps of the reported chain are left out,
though there is a chain that crosses one call.  Where one call is allowed, that chain is reported:
the higher limit leaves out more. -/
theorem truncated_within_limit :
    let p := detour "wrap(x)" "wrap(t)"
    ((p.rounds 1 100 Budget.unlimited).1.incomplete = false ∧
      ((p.rounds 1 100 Budget.unlimited).1.knowledge.flows.get? (0, 0)).map (·.truncated) =
        some false) ∧
    ((p.rounds 2 100 Budget.unlimited).1.incomplete = false ∧
      ((p.rounds 2 100 Budget.unlimited).1.knowledge.flows.get? (0, 0)).map (·.truncated) =
        some true) ∧
    ∃ f d, p.Derives 2 (.reachesSink f (.source 0) 0) d ∧ d.depth ≤ 1 := by
  intro p
  have hlow : (p.rounds 1 100 Budget.unlimited).1.incomplete = false ∧
      ((p.rounds 1 100 Budget.unlimited).1.knowledge.flows.get? (0, 0)).map (·.truncated) =
        some false := by
    simp only [p]
    rw [detour_calls]
    decide +kernel
  have hhigh : (p.rounds 2 100 Budget.unlimited).1.incomplete = false ∧
      ((p.rounds 2 100 Budget.unlimited).1.knowledge.flows.get? (0, 0)).map (·.truncated) =
        some true := by
    simp only [p]
    rw [detour_calls]
    decide +kernel
  obtain ⟨d, hget, hcomplete⟩ := Option.map_eq_some_iff.mp hlow.2
  obtain ⟨f, hd⟩ :=
    (derived_rounds p 1 100 Budget.unlimited).flows 0 0 d (Best.mem_entries_of_get? hget)
  have hne : d.depth ≠ 2 := by
    intro hdepth
    rw [hd.limited.depth.mpr hdepth] at hcomplete
    cases hcomplete
  have hbound := hd.limited.bound
  exact ⟨hlow, hhigh, f, d, hd.mono (by decide) hcomplete, by omega⟩

end Program

end TaintFlow.Flow
