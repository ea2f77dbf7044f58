import TaintFlow.Proofs.Flow.Inventory
import TaintFlow.Proofs.Flow.Termination
import TaintFlow.Proofs.Flow.VisitingOrder

/-!
# Everything is in range

Statements, call sites and bindings of a program that is built refer to functions, blocks, sources,
sinks, call sites and parameters by position, whatever the facts look like.  All these positions
exist, and parameters fit into sets of 64 bits.  So whatever the analysis looks up exists as well:
the states of the blocks it visits, and the places of the steps that flows are made of.

## Main definitions

* `CallSite.Linked` — the two functions of a call site exist and know each other.
* `Program.Closed` — what a program refers to exists.
* `Step.InRange` — the place of a step exists.
* `Knowledge.InRange` — what the analysis looks up exists.

## Main results

* `closed_build` — every program that is built is closed.
* `Program.inRange_rounds` — what rounds know is in range, however they end.
* `Program.every_fact_stands_once` — **every fact stands once, and nothing is out of range**.
-/

namespace TaintFlow.Flow

open Facts (Cache)
open Discovery (Source Sink)

/-- The two functions of a call site exist and are linked in both directions, and its bindings are
to parameters of the callee. -/
structure CallSite.Linked (p : Program) (site : CallSite) : Prop where
  caller : site.function < p.code.functions.size
  bindings : ∃ fn, p.function? site.callee = some fn ∧
    ∀ b ∈ site.bindings, b.param < fn.params.length
  called : p.called site.function site.callee = true
  callers : site.function ∈ p.callers site.callee
  callees : site.callee ∈ p.callees site.function

/-- What a program refers to exists. -/
structure Program.Closed (p : Program) : Prop where
  wellFormed : p.WellFormed
  /-- There is a set of reachable blocks for every block, with a word for every block, and the
  parameters fit into 64 bits. -/
  functions : ∀ f fn, p.function? f = some fn →
    fn.reach.size = fn.blocks.size ∧
      (∀ met ∈ fn.reach, ∀ j, j < fn.blocks.size → j / 64 < met.size) ∧
      fn.params.length ≤ maxParams
  /-- There are statements for every block of every function. -/
  rows : p.statements.size = p.code.functions.size ∧
    ∀ f fn, p.function? f = some fn → (p.statements.getD f #[]).size = fn.blocks.size
  /-- Handlers have sources that exist. -/
  endpoints : ∀ f, ∀ i ∈ p.endpoints.getD f [], i < p.sources.size
  sites : ∀ (i : Nat) (site : CallSite), p.calls[i]? = some site → site.Linked p
  /-- Statements go through call sites of their own function and line. -/
  lines : ∀ f b q, q ∈ p.statementsAt f b → ∀ i ∈ q.statement.sites,
    ∃ site, p.calls[i]? = some site ∧ site.function = f ∧ site.line = q.line

/-! ### Parameters -/

theorem length_setParam (ps : List String) (i : Nat) (name : String) :
    (setParam ps i name).length = max ps.length (i + 1) := by
  rw [setParam, List.length_set, List.length_append, List.length_replicate]
  omega

/-- Names that are put below a bound stay below it. -/
theorem length_foldl_setParam_le {n : Nat} {l : List (String × Nat)} (hl : ∀ e ∈ l, e.2 < n) :
    ∀ ps : List String, ps.length ≤ n →
      (l.foldl (fun ps e => setParam ps e.2 e.1) ps).length ≤ n := by
  induction l with
  | nil => exact fun ps hps => hps
  | cons e l ih =>
    intro ps hps
    refine ih (fun e' he' => hl e' (List.mem_cons_of_mem _ he')) _ ?_
    rw [length_setParam]
    exact Nat.max_le.mpr ⟨hps, hl e List.mem_cons_self⟩

/-- Positions at which names are put exist. -/
theorem lt_length_foldl_setParam {i : Nat} {l : List (String × Nat)} :
    ∀ ps : List String, (i < ps.length ∨ ∃ e ∈ l, e.2 = i) →
      i < (l.foldl (fun ps e => setParam ps e.2 e.1) ps).length := by
  induction l with
  | nil => exact fun ps h => h.resolve_right (by simp)
  | cons e l ih =>
    intro ps h
    refine ih _ ?_
    rw [length_setParam]
    rcases h with h | ⟨e', he', rfl⟩
    · exact Or.inl (by omega)
    · rcases List.mem_cons.mp he' with rfl | he'
      · exact Or.inl (by omega)
      · exact Or.inr ⟨e', he', rfl⟩

/-- Recorded parameters are among the parameters of their function, and those fit into 64 bits. -/
theorem params_buildFunction (c : Cache) (file name : String) :
    (buildFunction c file name).params.length ≤ maxParams ∧
      ∀ e ∈ (buildFunction c file name).paramPositions,
        e.2 < (buildFunction c file name).params.length := by
  refine ⟨length_foldl_setParam_le (fun e he => ?_) [] (Nat.zero_le _), fun e he =>
    lt_length_foldl_setParam [] (Or.inr ⟨e, he, rfl⟩)⟩
  obtain ⟨row, hrow, rfl⟩ := List.mem_map.mp he
  have hindex := (List.mem_filter.mp hrow).2
  simp only [Bool.and_eq_true, decide_eq_true_eq] at hindex
  show row.index.toNat < maxParams
  omega

/-- Arguments are bound to parameters that exist. -/
theorem lt_of_bindParam? {fn : Function} {row : Facts.CallArgument} {i : Nat}
    (hfn : ∀ e ∈ fn.paramPositions, e.2 < fn.params.length) (h : bindParam? fn row = some i) :
    i < fn.params.length := by
  simp only [bindParam?, Option.orElse_eq_orElse, Option.orElse_eq_or, Option.or_eq_some_iff] at h
  rcases h with h | ⟨-, h⟩
  · -- by position: a named parameter stands there
    obtain ⟨n, -, hn⟩ := Option.bind_eq_some_iff.mp h
    obtain ⟨hnamed, heq⟩ := Option.ite_none_right_eq_some.mp hn
    cases heq
    refine Nat.lt_of_not_le fun hle => ?_
    rw [List.getD_eq_default _ _ hle] at hnamed
    simp at hnamed
  · -- by name: one was recorded under it
    obtain ⟨name, -, hname⟩ := Option.bind_eq_some_iff.mp h
    obtain ⟨e, he, rfl⟩ := Option.map_eq_some_iff.mp hname
    exact hfn e (List.mem_reverse.mp (List.mem_of_find?_eq_some he))

/-! ### Call sites -/

/-- The bindings of a call site are to parameters of its callee. -/
theorem params_of_mem_callSites {cache : Cache} {san : Sanitizers} {site : CallSite}
    (h : site ∈ callSites cache san) :
    ∃ fn, (Code.ofCache cache).functions[site.callee]? = some fn ∧
      ∀ b ∈ site.bindings, b.param < fn.params.length := by
  obtain ⟨head, hhead, rfl⟩ := List.mem_map.mp h
  obtain ⟨row, -, hrow⟩ := List.mem_filterMap.mp (mem_siteHeads hhead)
  obtain ⟨rfl, hcallee, -⟩ := resolveCall?_eq_some_iff.mp hrow
  obtain ⟨fn, hfn⟩ : ∃ fn, (Code.ofCache cache).functions[head.callee]? = some fn :=
    ⟨_, Array.getElem?_eq_getElem (Code.lt_of_resolve hcallee)⟩
  refine ⟨fn, hfn, fun b hb => ?_⟩
  obtain ⟨c, hc, hb⟩ := List.mem_filterMap.mp hb
  obtain ⟨hc, hkey⟩ := List.mem_filter.mp hc
  obtain ⟨row, -, hc⟩ := List.mem_filterMap.mp hc
  obtain ⟨rfl, -, -⟩ := resolveCall?_eq_some_iff.mp hc
  -- the rows of a call site have one callee
  have hsame := (resolveCall?_of_siteKey_eq hrow (beq_iff_eq.mp hkey)).symm.trans hc
  have hcallee : head.callee = c.callee := by rw [← Option.some.inj hsame]
  simp only [binding?, bind, Option.bind_eq_some_iff, pure, Option.some.injEq] at hb
  obtain ⟨_, -, fn', hfn', param, hparam, rfl⟩ := hb
  rw [← hcallee, hfn] at hfn'
  cases hfn'
  obtain ⟨file, name, hbuilt⟩ := exists_buildFunction hfn
  exact lt_of_bindParam? (hbuilt ▸ (params_buildFunction cache file name).2) hparam

section

variable (cache : Cache) (sources : List Source) (sinks : List Sink) (san : Sanitizers)

theorem linked_build {i : Nat} {site : CallSite}
    (h : (Program.build cache sources sinks san).calls[i]? = some site) :
    site.Linked (Program.build cache sources sinks san) := by
  have hcalled := ((wellFormed_build cache sources sinks san).calls i site h).1
  rw [getElem?_calls_build] at h
  have hmem := List.mem_of_getElem? h
  obtain ⟨head, hhead, hsite⟩ := List.mem_map.mp hmem
  obtain ⟨row, -, hrow⟩ := List.mem_filterMap.mp (mem_siteHeads hhead)
  obtain ⟨fn, hfn, -⟩ := Code.block_of_place (resolveCall?_eq_some_iff.mp hrow).2.2
  refine ⟨?_, params_of_mem_callSites hmem, hcalled, Program.mem_callers.mpr hcalled,
    Program.mem_callees.mpr hcalled⟩
  rw [← hsite]
  exact (Array.getElem?_eq_some_iff.mp hfn).1

/-- Statements go through call sites of their own function and line. -/
theorem line_of_mem_sites {f b i : Nat} {q : Placed}
    (hq : q ∈ (Program.build cache sources sinks san).statementsAt f b)
    (hi : i ∈ q.statement.sites) :
    ∃ site, (Program.build cache sources sinks san).calls[i]? = some site ∧ site.function = f ∧
      site.line = q.line := by
  rw [getElem?_calls_build]
  rw [mem_statementsAt_build, mem_placements] at hq
  rcases hq with ⟨s, j, -, hpl⟩ | ⟨c, j, hc, hpl⟩ | ⟨s, j, -, hpl⟩ | ⟨a, -, hpl⟩ | ⟨r, -, hpl⟩
  · obtain rfl : q = _ := (of_seedPlacement? hpl).2
    exact absurd hi List.not_mem_nil
  · -- a call goes through its own call site
    injection hpl with hspot hq
    subst hq
    obtain rfl := List.mem_singleton.mp hi
    refine ⟨callSite (Code.ofCache cache) san (callRows cache) c, ?_,
      congrArg Code.Spot.function hspot.symm, rfl⟩
    rw [callSites, List.getElem?_map, hc]
    rfl
  · obtain rfl : q = _ := (of_sinkPlacement? hpl).2
    exact absurd hi List.not_mem_nil
  · -- an assignment goes through the call sites that were found for its line
    obtain ⟨names, sites, -, hq⟩ := of_assignPlacement? hpl
    obtain rfl : q = _ := hq
    exact site_of_assignPlacement? hpl hi
  · obtain ⟨names, -, hq⟩ := of_returnPlacement? hpl
    obtain rfl : q = _ := hq
    exact absurd hi List.not_mem_nil

/-- **Every program that is built is closed.** -/
theorem closed_build : (Program.build cache sources sinks san).Closed where
  wellFormed := wellFormed_build cache sources sinks san
  functions f fn hfn := by
    obtain ⟨file, name, rfl⟩ := exists_buildFunction hfn
    rw [(sound_buildFunction cache file name).reach]
    refine ⟨Array.size_map, fun met hmet j hj => ?_, (params_buildFunction cache file name).1⟩
    obtain ⟨block, -, rfl⟩ := Array.mem_map.mp hmet
    rw [Vector.size_toArray]
    exact Words.div_lt hj
  rows := by
    refine ⟨Array.size_mapIdx, fun f fn hfn => ?_⟩
    have hrow : (Program.build cache sources sinks san).statements[f]? =
        some (fn.blocks.mapIdx fun j _ => sortBy comparePlaced
          (placedIn (placements cache sources sinks san) f j)) := by
      show (arrange (Code.ofCache cache) (placements cache sources sinks san))[f]? = _
      rw [arrange, Array.getElem?_mapIdx]
      exact congrArg (Option.map _) hfn
    rw [Array.getD_eq_getD_getElem?, hrow, Option.getD_some, Array.size_mapIdx]
  endpoints f i hi := by
    obtain ⟨-, s, hs, -⟩ := mem_endpointSources.mp hi
    show i < sources.toArray.size
    rw [List.size_toArray]
    exact (List.getElem?_eq_some_iff.mp hs).1
  sites _ _ := linked_build cache sources sinks san
  lines _ _ _ hq _ := line_of_mem_sites cache sources sinks san hq

end

/-! ### Steps -/

/-- The place of a step exists: a block of a function that can be analysed.  A mark of left out
steps has no place. -/
def Step.InRange (p : Program) (s : Step) : Prop :=
  s.kind = .truncated ∨ ∃ (f b : Nat) (fn : Function), s.function = f ∧ s.block = b ∧
    p.Analyzes f fn ∧ b < fn.blocks.size

namespace Program

variable {p : Program} {h f : Nat} {fn : Function}

theorem inRange_of_mem_statementSteps (hf : p.Analyzes f fn) {b pos : Nat}
    (hb : b < fn.blocks.size) {q : Placed} {s : Step}
    (hs : s ∈ (p.bare h f).statementSteps b pos q) : s.InRange p := by
  have hhere : ∀ kind file detail,
      ((p.bare h f).stepAt b pos q.line kind file detail).InRange p :=
    fun _ _ _ => Or.inr ⟨f, b, fn, rfl, rfl, hf, hb⟩
  have hmark : ∀ line file detail, (truncationMark line file detail).InRange p :=
    fun _ _ _ => Or.inl rfl
  obtain ⟨line, stmt⟩ := q
  cases stmt <;>
    simp only [Scope.statementSteps, crossing, List.mem_map, List.mem_flatMap, List.mem_cons,
      List.not_mem_nil, or_false] at hs
  case seed =>
    obtain ⟨_, -, rfl⟩ := hs
    exact hhere _ _ _
  case call =>
    obtain ⟨_, -, rfl | rfl⟩ := hs
    · exact hhere _ _ _
    · exact hmark _ _ _
  case sink =>
    obtain ⟨_, -, rfl⟩ := hs
    exact hhere _ _ _
  case assign =>
    rcases hs with rfl | ⟨_, -, _, -, rfl | rfl | rfl⟩
    · exact hhere _ _ _
    · exact hmark _ _ _
    · exact hhere _ _ _
    · exact hmark _ _ _
  case ret =>
    rw [hs]
    exact hhere _ _ _

/-- The steps of a function that can be analysed lie in its blocks. -/
theorem inRange_of_mem_ownSteps (hp : p.WellFormed) (hf : p.Analyzes f fn) {s : Step}
    (hs : s ∈ (p.bare h f).ownSteps) : s.InRange p := by
  obtain ⟨e, he, hlt, -⟩ := (hp.functions f fn hf.1).entry hf.2
  have hentry : (p.bare h f).entryNumber = e := by
    rw [Scope.entryNumber, bare, function_scope hf.1, he]
  rcases List.mem_append.mp hs with hs | hs
  · rcases List.mem_append.mp hs with hs | hs <;> obtain ⟨_, -, rfl⟩ := List.mem_map.mp hs <;>
      exact Or.inr ⟨f, e, fn, rfl, hentry, hf, hlt⟩
  · obtain ⟨⟨b, pos, q⟩, hplace, hs⟩ := List.mem_flatMap.mp hs
    obtain ⟨b', -, hmem⟩ := List.mem_flatMap.mp hplace
    obtain ⟨⟨q', pos'⟩, hq, heq⟩ := List.mem_map.mp hmem
    cases heq
    obtain ⟨fn', hfn', hb⟩ := hp.blocks f _ _ (List.fst_mem_of_mem_zipIdx hq)
    obtain rfl := Option.some.inj (hfn'.symm.trans hf.1)
    exact inRange_of_mem_statementSteps hf hb hs

/-- Derived chains are made of steps whose places exist. -/
theorem Derives.inRange (hp : p.WellFormed) {fact : Fact} {c : Chain} (d : p.Derives h fact c) :
    ∀ s ∈ c.steps, s.InRange p := by
  have hover : c.Over (((List.range p.code.functions.size).filter p.canAnalyze).flatMap fun f =>
      (p.bare h f).ownSteps) := by
    refine d.over fun f fn hf s hs => List.mem_flatMap.mpr ⟨f, List.mem_filter.mpr ?_, hs⟩
    exact ⟨List.mem_range.mpr hf.lt, canAnalyze_iff.mpr ⟨fn, hf⟩⟩
  intro s hs
  obtain ⟨f, hf, hown⟩ := List.mem_flatMap.mp (hover s hs)
  obtain ⟨fn, hfn⟩ := canAnalyze_iff.mp (List.mem_filter.mp hf).2
  exact inRange_of_mem_ownSteps hp hfn hown

/-- Parameters that receive taint exist. -/
theorem Closed.lt_of_receives (hp : p.Closed) {g i : Nat} {c : Chain}
    (d : p.Derives h (.receives g i) c) : ∃ gn, p.function? g = some gn ∧ i < gn.params.length := by
  obtain ⟨site, hsite, hbound⟩ := List.mem_flatMap.mp d.fact_bounded
  obtain ⟨b, hb, heq⟩ := List.mem_map.mp hbound
  cases heq
  obtain ⟨n, hn⟩ := Array.mem_iff_getElem?.mp (Array.mem_toList_iff.mp hsite)
  obtain ⟨gn, hgn, hparams⟩ := (hp.sites n site hn).bindings
  exact ⟨gn, hgn, hparams b hb⟩

theorem source_lt_of_mem_roots {i : Nat} (hi : .source i ∈ p.roots) : i < p.sources.size := by
  rcases List.mem_append.mp hi with hi | hi
  · obtain ⟨fn, -, hi⟩ := List.mem_flatMap.mp hi
    obtain ⟨_, -, heq⟩ := List.mem_map.mp hi
    cases heq
  · obtain ⟨j, hj, heq⟩ := List.mem_map.mp hi
    cases heq
    exact List.mem_range.mp hj

end Program

/-! ### What the analysis looks up -/

/-- What the analysis of one function looks up in its worklist exists, and so do the parameters that
it passes taint to. -/
structure Work.InRange (p : Program) (fn : Function) (w : Work) : Prop where
  states : w.states.size = fn.blocks.size
  queue : ∀ b ∈ w.queue, b < fn.blocks.size
  args : ∀ g i, (g, i) ∈ w.records.args → ∃ gn, p.function? g = some gn ∧ i < gn.params.length

/-- What the analysis looks up in what it knows exists. -/
structure Knowledge.InRange (p : Program) (h : Nat) (k : Knowledge) : Prop where
  /-- Something is known of every function. -/
  sized : k.Sized p
  /-- Sets of parameters fit into 64 bits. -/
  params : ∀ f, k.params.getD f 0 < 2 ^ maxParams
  due : ∀ f ∈ k.work, ∃ fn, p.Analyzes f fn
  /-- Worklists stay in range, in whatever order blocks are visited. -/
  worklists : ∀ f fn, p.Analyzes f fn → ∀ w, (p.scope h k.snapshot f).Visits w → w.InRange p fn
  /-- The ends of a flow exist, and the places of its steps. -/
  flows : ∀ s t c, ((s, t), c) ∈ k.flows.entries →
    s < p.sources.size ∧ t < p.sinks.size ∧ ∀ x ∈ c.steps, x.InRange p

namespace Program

variable {p : Program} {h : Nat} {k : Knowledge}

theorem inRange_of_visits (hp : p.Closed) (hk : k.Derived p h) {f : Nat} {fn : Function}
    (hf : p.Analyzes f fn) {w : Work} (hw : (p.scope h k.snapshot f).Visits w) :
    w.InRange p fn := by
  have hfun : (p.scope h k.snapshot f).function = fn := function_scope hf.1
  have hsound := hp.wellFormed.functions f fn hf.1
  obtain ⟨hsettled, hqueue⟩ := hw.settled (hfun.symm ▸ hsound) (hfun.symm ▸ hf.2)
  refine ⟨hfun ▸ hsettled.size, hfun ▸ hqueue, fun g i hi => ?_⟩
  obtain ⟨c, hc⟩ := (Scope.Visits.derived hf hk.snapshot hw).records.args g i hi
  exact hp.lt_of_receives hc

/-- What is derived is in range. -/
theorem Closed.inRange (hp : p.Closed) (hsized : k.Sized p) (hk : k.Derived p h) :
    k.InRange p h where
  sized := hsized
  params f := by
    refine Nat.lt_pow_two_of_testBit _ fun i hi => ?_
    cases hbit : (k.params.getD f 0).testBit i with
    | false => rfl
    | true =>
      obtain ⟨c, hc⟩ := hk.snapshot.params f i hbit
      obtain ⟨fn, hfn, hlt⟩ := hp.lt_of_receives hc
      have hmax := (hp.functions f fn hfn).2.2
      omega
  due f hf := hk.due f (mem_work.mp hf)
  worklists _ _ hf _ hw := inRange_of_visits hp hk hf hw
  flows s t c hc := by
    obtain ⟨f, d⟩ := hk.flows s t c hc
    obtain ⟨-, hroot, hsink⟩ := d.fact_bounded
    exact ⟨source_lt_of_mem_roots hroot, hsink, d.inRange hp.wellFormed⟩

theorem sized_rounds (p : Program) (h maxRounds : Nat) (b : Budget) :
    ((p.rounds h maxRounds b).1.knowledge).Sized p := by
  refine p.roundsFrom_preserves h (P := fun k => k.Sized p) (fun k b hk => ?_) maxRounds
    (.initial p) b (tracked_initial p h).sized
  rw [round_eq]
  exact (Knowledge.extends_foldl_merge p k.cleared _).sized hk.cleared

/-- **What rounds know is in range**, whether they complete, are cancelled, or run out of rounds. -/
theorem inRange_rounds (hp : p.Closed) (h maxRounds : Nat) (b : Budget) :
    ((p.rounds h maxRounds b).1.knowledge).InRange p h :=
  hp.inRange (p.sized_rounds h maxRounds b) (p.derived_rounds h maxRounds b)

/-- **Every fact stands once, and nothing is out of range.**  For all facts, sources and sinks: the
statements of every block come from the facts that stand in it, one each, in a strict order; a fact
stands in at most one block, which exists and holds its line; whatever the program refers to exists,
call sites are linked, and bindings are to parameters of the callee, of which there are at most 64.
So whatever the rounds look up exists, for every hop limit, every limit of rounds and every budget:
in the worklists of functions, and in the chains that are turned into findings. -/
theorem every_fact_stands_once (cache : Cache) (sources : List Source) (sinks : List Sink)
    (san : Sanitizers) :
    let p := build cache sources sinks san
    (∀ f b, ∃ es, Listing cache sources sinks san f b es) ∧
      (∀ (x : Item) (spot : Code.Spot) (line : Int), x.StandsAt cache sources sinks san spot line →
        (∀ spot' line', x.StandsAt cache sources sinks san spot' line' →
          spot' = spot ∧ line' = line) ∧
        ∃ fn block, p.function? spot.function = some fn ∧ fn.blocks[spot.block]? = some block ∧
          block.holds line = true) ∧
      p.Closed ∧
      ∀ maxHops maxRounds b, ((p.rounds maxHops maxRounds b).1.knowledge).InRange p maxHops := by
  intro p
  have hp : p.Closed := closed_build cache sources sinks san
  refine ⟨exists_listing cache sources sinks san, fun x spot line hx => ⟨fun spot' line' hx' => ?_,
    hx.holds⟩, hp, inRange_rounds hp⟩
  exact hx'.unique hx

/-- In the sample the source stands in the first block of `main`, before the two calls. -/
theorem every_fact_stands_once_sample :
    (Item.source 0).StandsAt sampleCache sampleSources sampleSinks (Sanitizers.make [] none)
        ⟨0, 0⟩ 2 ∧
      ∃ es, Listing sampleCache sampleSources sampleSinks (Sanitizers.make [] none) 0 0 es ∧
        .source 0 ∈ es.map Prod.fst ∧ es.map Prod.snd = [⟨2, .seed 0 "x"⟩, ⟨3, .call 0⟩,
          ⟨3, .assign "app" "y" [] [0]⟩, ⟨4, .call 1⟩] := by
  have hstands : (Item.source 0).StandsAt sampleCache sampleSources sampleSinks
      (Sanitizers.make [] none) ⟨0, 0⟩ 2 := by
    refine ⟨"app", "", by decide, ?_⟩
    rw [ofCache_sampleCache]
    decide +kernel
  obtain ⟨es, hes⟩ := (every_fact_stands_once sampleCache sampleSources sampleSinks
    (Sanitizers.make [] none)).1 0 0
  refine ⟨hstands, es, hes, (hes.facts _).mpr ⟨2, hstands⟩, hes.statements.trans ?_⟩
  show sample.statementsAt 0 0 = _
  rw [sample_eq]
  rfl

end Program

end TaintFlow.Flow
