import Mathlib
import TaintFlow.Proofs.Flow.Paths
import TaintFlow.Proofs.Flow.Rules

/-!
# Well-formed programs

What building a program guarantees, and all that is used of it later: the graphs of its functions
are sound, every statement stands in a block of its function, and every statement refers to sources,
sinks and call sites that exist and belong to it.

## Main definitions

* `Statement.Resolved` — what a statement refers to exists and belongs to it.
* `Program.WellFormed` — what building a program guarantees.
* `placements` — all statements of a program with their blocks.
* `sample` — a small program of three functions.

## Main results

* `mem_statementsAt_build` — the statements of a block are those that are placed in it.
* `wellFormed_build` — every program that is built is well formed.
-/

namespace TaintFlow.Flow

open Facts (Cache)
open Discovery (Source Sink)

/-- What a statement of function `f` on a line refers to exists and belongs to it. -/
def Statement.Resolved (p : Program) (f : Nat) (line : Int) : Statement → Prop
  | .seed i slot =>
    ∃ src, p.sources[i]? = some src ∧ src.location.line = line ∧ src.symbol = slot
  | .call i => ∃ site, p.calls[i]? = some site ∧ site.function = f
  | .sink k _ => ∃ snk, p.sinks[k]? = some snk ∧ snk.location.line = line
  | .assign _ _ _ calls => ∀ i ∈ calls, ∃ site, p.calls[i]? = some site ∧ site.function = f
  | .ret .. => True

/-- What building a program guarantees. -/
structure Program.WellFormed (p : Program) : Prop where
  functions : ∀ f fn, p.function? f = some fn → fn.Sound
  /-- Statements stand in blocks. -/
  blocks : ∀ f b q, q ∈ p.statementsAt f b → ∃ fn, p.function? f = some fn ∧ b < fn.blocks.size
  statements : ∀ f b q, q ∈ p.statementsAt f b → q.statement.Resolved p f q.line
  /-- The statements of a block stand in the order of evaluation. -/
  order : ∀ f b, (p.statementsAt f b).Pairwise fun q q' => (comparePlaced q q').isLE = true
  /-- The two functions of a call site are linked. -/
  calls : ∀ (i : Nat) (site : CallSite), p.calls[i]? = some site →
    p.called site.function site.callee = true ∧ site.callee < p.code.functions.size

namespace Program.WellFormed

variable {p : Program} {f b pos i : Nat} {line : Int} {site : CallSite}

/-- A call is linked to its callee. -/
theorem called_of_call (hp : p.WellFormed) (hrun : p.Runs f b pos line (.call i))
    (hsite : p.calls[i]? = some site) : p.called f site.callee = true := by
  obtain ⟨site', hsite', hf⟩ := hp.statements f b _ (List.mem_of_getElem? hrun)
  obtain rfl : site = site' := Option.some.inj (hsite.symm.trans hsite')
  rw [← hf]
  exact (hp.calls i site hsite).1

/-- An assignment is linked to the callees whose results flow into its target. -/
theorem called_of_assign (hp : p.WellFormed) {file target : String} {names : List String}
    {calls : List Nat} (hrun : p.Runs f b pos line (.assign file target names calls))
    (hi : i ∈ calls) (hsite : p.calls[i]? = some site) : p.called f site.callee = true := by
  obtain ⟨site', hsite', hf⟩ := hp.statements f b _ (List.mem_of_getElem? hrun) i hi
  obtain rfl : site = site' := Option.some.inj (hsite.symm.trans hsite')
  rw [← hf]
  exact (hp.calls i site hsite).1

/-- Of two statements of a block the later one has no lesser line, and on one line no lesser
kind. -/
theorem le_of_lt (hp : p.WellFormed) {pos' : Nat} {line' : Int} {stmt stmt' : Statement}
    (hrun : p.Runs f b pos line stmt) (hrun' : p.Runs f b pos' line' stmt') (hlt : pos < pos') :
    line < line' ∨ line = line' ∧ stmt.rank ≤ stmt'.rank := by
  obtain ⟨hpos, heq⟩ := List.getElem?_eq_some_iff.mp hrun
  obtain ⟨hpos', heq'⟩ := List.getElem?_eq_some_iff.mp hrun'
  have hle := List.pairwise_iff_getElem.mp (hp.order f b) pos pos' hpos hpos' hlt
  rw [heq, heq', comparePlaced, Ordering.isLE_then_iff_or] at hle
  refine hle.imp Int.compare_eq_lt.mp fun ⟨hline, hrank⟩ => ?_
  exact ⟨Int.compare_eq_eq.mp hline, Nat.isLE_compare.mp hrank⟩

/-- Lines do not decrease. -/
theorem line_le_of_le (hp : p.WellFormed) {pos' : Nat} {line' : Int} {stmt stmt' : Statement}
    (hrun : p.Runs f b pos line stmt) (hrun' : p.Runs f b pos' line' stmt') (hle : pos ≤ pos') :
    line ≤ line' := by
  rcases Nat.eq_or_lt_of_le hle with rfl | hlt
  · cases Option.some.inj (hrun.symm.trans hrun')
    exact Int.le_refl line
  · have h := hp.le_of_lt hrun hrun' hlt
    omega

/-- Statements of one line stand in the order of their kinds. -/
theorem lt_of_rank_lt (hp : p.WellFormed) {pos' : Nat} {stmt stmt' : Statement}
    (hrun : p.Runs f b pos line stmt) (hrun' : p.Runs f b pos' line stmt')
    (hrank : stmt.rank < stmt'.rank) : pos < pos' := by
  rcases Nat.lt_trichotomy pos pos' with hlt | rfl | hgt
  · exact hlt
  · cases Option.some.inj (hrun.symm.trans hrun')
    exact absurd hrank (Nat.lt_irrefl _)
  · have h := hp.le_of_lt hrun' hrun hgt
    omega

end Program.WellFormed

/-! ### Functions -/

theorem exists_buildFunction {c : Cache} {f : Nat} {fn : Function}
    (h : (Code.ofCache c).functions[f]? = some fn) :
    ∃ file name, fn = buildFunction c file name := by
  have hmem : fn ∈ (Code.ofCache c).functions := Array.mem_of_getElem? h
  rw [Code.ofCache, List.mem_toArray, List.mem_map] at hmem
  obtain ⟨⟨file, name⟩, -, rfl⟩ := hmem
  exact ⟨file, name, rfl⟩

theorem sound_ofCache {c : Cache} {f : Nat} {fn : Function}
    (h : (Code.ofCache c).functions[f]? = some fn) : fn.Sound := by
  obtain ⟨file, name, rfl⟩ := exists_buildFunction h
  exact sound_buildFunction c file name

namespace Code

variable {a : Code} {i : Nat}

theorem lt_of_find? {file name : String} (h : a.find? file name = some i) :
    i < a.functions.size :=
  (Array.findIdx?_eq_some_iff_findIdx_eq.mp h).1

theorem lt_of_inFile? {file name : String} (h : a.inFile? file name = some i) :
    i < a.functions.size := by
  unfold inFile? at h
  split at h
  · cases h
  · simp only [Option.orElse_eq_orElse, Option.orElse_eq_or, Option.or_eq_some_iff] at h
    rcases h with h | ⟨-, h⟩
    · exact lt_of_find? h
    · exact lt_of_find? h

theorem lt_of_unique? {q : Function → Bool} (h : a.unique? q = some i) : i < a.functions.size := by
  unfold unique? at h
  split at h
  · next fn j heq =>
    cases h
    have hmem := List.mem_singleton_self (fn, i)
    rw [← heq] at hmem
    have hi := (List.mem_filter.mp hmem).1
    rw [List.mk_mem_zipIdx_iff_getElem?, Array.getElem?_toList] at hi
    obtain ⟨hlt, -⟩ := Array.getElem?_eq_some_iff.mp hi
    exact hlt
  · cases h

/-- A call refers to one of the functions. -/
theorem lt_of_resolve {name calleeFile callerFile : String}
    (h : a.resolve name calleeFile callerFile = some i) : i < a.functions.size := by
  unfold resolve at h
  split at h
  · cases h
  · simp only [Option.orElse_eq_orElse, Option.orElse_eq_or, Option.or_eq_some_iff] at h
    rcases h with h | ⟨-, h | ⟨-, h | ⟨-, h⟩⟩⟩
    · exact lt_of_inFile? h
    · exact lt_of_inFile? h
    · exact lt_of_unique? h
    · exact lt_of_unique? h

theorem mem_of_innermost {l : List (Spot × Block)} {x : Spot × Block}
    (h : innermost l = some x) : x ∈ l := by
  cases l with
  | nil => cases h
  | cons y ys =>
    cases h
    -- the best block so far is the first one or one of those that were looked at
    induction ys generalizing y with
    | nil => exact List.mem_singleton_self y
    | cons z zs ih =>
      rw [List.foldl_cons]
      split
      · exact List.mem_cons_of_mem _ (ih z)
      · rcases List.mem_cons.mp (ih y) with hy | hzs
        · rw [hy]
          exact List.mem_cons_self
        · exact List.mem_cons_of_mem _ (List.mem_cons_of_mem _ hzs)

theorem getElem?_of_mem_candidates {file hint : String} {fn : Function}
    (h : (i, fn) ∈ a.candidates file hint) : a.functions[i]? = some fn := by
  simp only [candidates] at h
  split at h
  · next c heq =>
    obtain ⟨j, -, hj⟩ := Option.bind_eq_some_iff.mp heq
    obtain ⟨fn', hfn', rfl⟩ := Option.map_eq_some_iff.mp hj
    cases List.mem_singleton.mp h
    exact hfn'
  · obtain ⟨⟨fn', j⟩, hmem, heq⟩ := List.mem_map.mp h
    cases heq
    have hj := (List.mem_filter.mp hmem).1
    rwa [List.mk_mem_zipIdx_iff_getElem?, Array.getElem?_toList] at hj

/-- A line is placed in a block that holds it. -/
theorem holds_of_place {file hint : String} {line : Int} {spot : Spot}
    (h : a.place file line hint = some spot) : ∃ fn block, a.functions[spot.function]? = some fn ∧
      fn.blocks[spot.block]? = some block ∧ block.holds line = true := by
  obtain ⟨⟨spot, block⟩, hin, rfl⟩ := Option.map_eq_some_iff.mp h
  obtain ⟨⟨i, fn⟩, hcand, hspot⟩ := List.mem_flatMap.mp (mem_of_innermost hin)
  obtain ⟨⟨block', j⟩, hmem, heq⟩ := List.mem_map.mp hspot
  cases heq
  obtain ⟨hj, hholds⟩ := List.mem_filter.mp hmem
  rw [List.mk_mem_zipIdx_iff_getElem?, Array.getElem?_toList] at hj
  exact ⟨fn, block, getElem?_of_mem_candidates hcand, hj, hholds⟩

/-- A line is placed in a block that exists. -/
theorem block_of_place {file hint : String} {line : Int} {spot : Spot}
    (h : a.place file line hint = some spot) :
    ∃ fn, a.functions[spot.function]? = some fn ∧ spot.block < fn.blocks.size := by
  obtain ⟨fn, block, hfn, hblock, -⟩ := holds_of_place h
  exact ⟨fn, hfn, (Array.getElem?_eq_some_iff.mp hblock).1⟩

end Code

/-! ### Statements -/

/-- The statements that are placed in a block, as they were recorded. -/
def placedIn (ps : List Placement) (f b : Nat) : List Placed :=
  (ps.filter (·.spot == ⟨f, b⟩)).map (·.placed)

theorem mem_placedIn {ps : List Placement} {f b : Nat} {q : Placed} :
    q ∈ placedIn ps f b ↔ ⟨⟨f, b⟩, q⟩ ∈ ps := by
  rw [placedIn, List.mem_map]
  constructor
  · rintro ⟨⟨spot, placed⟩, hmem, rfl⟩
    obtain ⟨hmem, hspot⟩ := List.mem_filter.mp hmem
    rwa [← beq_iff_eq.mp hspot]
  · intro hmem
    exact ⟨_, List.mem_filter.mpr ⟨hmem, beq_self_eq_true _⟩, rfl⟩

theorem getD_arrange {code : Code} (ps : List Placement) {f b : Nat} {fn : Function}
    (hfn : code.functions[f]? = some fn) (hb : b < fn.blocks.size) :
    ((arrange code ps).getD f #[]).getD b [] = sortBy comparePlaced (placedIn ps f b) := by
  simp [arrange, Array.getD_eq_getD_getElem?, Array.getElem?_mapIdx, hfn, hb, placedIn]

theorem mem_arrange {code : Code} {ps : List Placement} {f b : Nat} {q : Placed} :
    q ∈ ((arrange code ps).getD f #[]).getD b [] ↔
      (∃ fn, code.functions[f]? = some fn ∧ b < fn.blocks.size) ∧ ⟨⟨f, b⟩, q⟩ ∈ ps := by
  by_cases hfn : ∃ fn, code.functions[f]? = some fn ∧ b < fn.blocks.size
  · obtain ⟨fn, hfn', hb⟩ := hfn
    rw [getD_arrange ps hfn' hb, mem_sortBy, mem_placedIn]
    exact ⟨fun h => ⟨⟨fn, hfn', hb⟩, h⟩, fun h => h.2⟩
  · refine ⟨fun h => absurd ?_ hfn, fun h => absurd h.1 hfn⟩
    -- a list of statements is only found where there is a block
    rw [arrange, Array.getD_eq_getD_getElem?, Array.getD_eq_getD_getElem?] at h
    cases hfn' : code.functions[f]? with
    | none => simp [hfn'] at h
    | some fn =>
      refine ⟨fn, rfl, Nat.lt_of_not_le fun hb => ?_⟩
      simp [hfn', hb] at h

instance transCmp_comparePlaced : Std.TransCmp comparePlaced :=
  transCmp_then (transCmp_onKey compareInt Placed.line)
    (transCmp_onKey compare fun q : Placed => q.statement.rank)

theorem pairwise_arrange (code : Code) (ps : List Placement) (f b : Nat) :
    (((arrange code ps).getD f #[]).getD b []).Pairwise fun q q' =>
      (comparePlaced q q').isLE = true := by
  by_cases hfn : ∃ fn, code.functions[f]? = some fn ∧ b < fn.blocks.size
  · obtain ⟨fn, hfn, hb⟩ := hfn
    rw [getD_arrange ps hfn hb]
    exact pairwise_sortBy comparePlaced _
  · rw [List.eq_nil_iff_forall_not_mem.mpr fun q hq => hfn (mem_arrange.mp hq).1]
    exact List.Pairwise.nil

section

variable {code : Code} {cache : Cache} {san : Sanitizers} {i : Nat} {pl : Placement}

/-- Where a seed is placed. -/
theorem of_seedPlacement? {s : Source} (h : seedPlacement? code s i = some pl) :
    code.place s.location.file s.location.line "" = some pl.spot ∧
      pl.placed = ⟨s.location.line, .seed i s.symbol⟩ := by
  unfold seedPlacement? at h
  split at h
  · cases h
  · obtain ⟨spot, hspot, rfl⟩ := Option.map_eq_some_iff.mp h
    exact ⟨hspot, rfl⟩

/-- Where a sink is placed. -/
theorem of_sinkPlacement? {s : Sink} (h : sinkPlacement? code cache san s i = some pl) :
    code.place s.location.file s.location.line (sinkHint cache s) = some pl.spot ∧
      pl.placed = ⟨s.location.line, .sink i (sinkNames san s)⟩ := by
  simp only [sinkPlacement?, bind, Option.bind_eq_some_iff] at h
  obtain ⟨spot, hspot, h⟩ := h
  split at h
  · cases h
  · cases h
    exact ⟨hspot, rfl⟩

/-- Where the row of a call is placed. -/
theorem resolveCall?_eq_some_iff {row : Facts.CallArgument} {c : ResolvedCall} :
    resolveCall? code row = some c ↔ c.row = row ∧
      code.resolve row.callee (row.calleeFile.getD "") row.file = some c.callee ∧
      code.place row.file row.line row.caller = some c.spot := by
  simp only [resolveCall?, bind, Option.bind_eq_some_iff, pure, Option.some.injEq]
  constructor
  · rintro ⟨callee, hcallee, spot, hspot, rfl⟩
    exact ⟨rfl, hcallee, hspot⟩
  · rintro ⟨rfl, hcallee, hspot⟩
    exact ⟨c.callee, hcallee, c.spot, hspot, rfl⟩

/-- Where an assignment is placed. -/
theorem of_assignPlacement? {calls : List CallSite} {a : Facts.Assignment}
    (h : assignPlacement? code cache san calls a = some pl) :
    ∃ names sites, code.place a.file a.line a.function = some pl.spot ∧
      pl.placed = ⟨a.line, .assign a.file a.target names sites⟩ := by
  simp only [assignPlacement?, bind, Option.bind_eq_some_iff, pure, Option.some.injEq] at h
  obtain ⟨spot, hspot, rfl⟩ := h
  exact ⟨_, _, hspot, rfl⟩

/-- The calls whose results an assignment takes are calls of its function and its line. -/
theorem site_of_assignPlacement? {a : Facts.Assignment} {spot : Code.Spot} {line : Int}
    {file target : String} {names : List String} {calls : List Nat} {sites : List CallSite}
    (h : assignPlacement? code cache san sites a =
      some ⟨spot, ⟨line, .assign file target names calls⟩⟩) (hi : i ∈ calls) :
    ∃ c, sites[i]? = some c ∧ c.function = spot.function ∧ c.line = line := by
  simp only [assignPlacement?, bind, Option.bind_eq_some_iff, pure, Option.some.injEq] at h
  obtain ⟨spot, -, heq⟩ := h
  cases heq
  rw [mem_firsts, List.mem_filterMap] at hi
  obtain ⟨call, -, hsite⟩ := hi
  obtain ⟨hlt, hsite, -⟩ := List.findIdx?_eq_some_iff_getElem.mp hsite
  simp only [Bool.and_eq_true, beq_iff_eq] at hsite
  exact ⟨_, List.getElem?_eq_getElem hlt, hsite.1.1, hsite.1.2⟩

/-- Where a return is placed. -/
theorem of_returnPlacement? {r : Facts.Return}
    (h : returnPlacement? code cache san r = some pl) :
    ∃ names, code.place r.file r.line r.function = some pl.spot ∧
      pl.placed = ⟨r.line, .ret r.file r.expr names⟩ := by
  simp only [returnPlacement?, bind, Option.bind_eq_some_iff, pure, Option.some.injEq] at h
  obtain ⟨spot, hspot, rfl⟩ := h
  exact ⟨_, hspot, rfl⟩

end

section

variable (cache : Cache) (sources : List Source) (sinks : List Sink) (san : Sanitizers)

/-- The rows of calls of known functions. -/
def callRows : List ResolvedCall :=
  cache.callArguments.filterMap (resolveCall? (Code.ofCache cache))

/-- The call sites of a program. -/
def callSites : List CallSite :=
  (siteHeads (callRows cache)).map (callSite (Code.ofCache cache) san (callRows cache))

/-- All statements of a program with their blocks. -/
def placements : List Placement :=
  (sources.zipIdx.filterMap fun (s, i) => seedPlacement? (Code.ofCache cache) s i) ++
  ((siteHeads (callRows cache)).zipIdx.map fun (h, i) => ⟨h.spot, ⟨h.row.line, .call i⟩⟩) ++
  (sinks.zipIdx.filterMap fun (s, i) => sinkPlacement? (Code.ofCache cache) cache san s i) ++
  cache.assignments.filterMap
    (assignPlacement? (Code.ofCache cache) cache san (callSites cache san)) ++
  cache.returns.filterMap (returnPlacement? (Code.ofCache cache) cache san)

@[simp] theorem getElem?_sources_build (i : Nat) :
    (Program.build cache sources sinks san).sources[i]? = sources[i]? :=
  List.getElem?_toArray

@[simp] theorem getElem?_sinks_build (i : Nat) :
    (Program.build cache sources sinks san).sinks[i]? = sinks[i]? :=
  List.getElem?_toArray

@[simp] theorem getElem?_calls_build (i : Nat) :
    (Program.build cache sources sinks san).calls[i]? = (callSites cache san)[i]? :=
  List.getElem?_toArray

/-- The sources that taint the parameters of a function. -/
theorem mem_endpointSources {code : Code} {sources : List Source} {f i : Nat} :
    i ∈ (endpointSources code sources).getD f [] ↔
      f < code.functions.size ∧ ∃ s, sources[i]? = some s ∧ handler? code s = some f := by
  simp only [endpointSources, Array.getD_eq_getD_getElem?, List.getElem?_toArray, List.getElem?_map]
  by_cases hf : f < code.functions.size
  · simp [hf, List.mk_mem_zipIdx_iff_getElem?]
  · simp [hf]

theorem mem_siteHeads {rows : List ResolvedCall} {h : ResolvedCall} (hh : h ∈ siteHeads rows) :
    h ∈ rows := by
  suffices hall : ∀ (heads : List ResolvedCall),
      h ∈ rows.foldl (fun heads c =>
        if heads.any fun h => siteKey h.row == siteKey c.row then heads else heads ++ [c]) heads →
      h ∈ heads ∨ h ∈ rows by
    simpa using hall [] hh
  intro heads
  clear hh
  induction rows generalizing heads with
  | nil => exact Or.inl
  | cons c rows ih =>
    intro hmem
    rcases ih _ hmem with hmem | hmem
    · dsimp only at hmem
      split at hmem
      · exact Or.inl hmem
      · rcases List.mem_append.mp hmem with hmem | hmem
        · exact Or.inl hmem
        · exact Or.inr (List.mem_singleton.mp hmem ▸ List.mem_cons_self)
    · exact Or.inr (List.mem_cons_of_mem _ hmem)

/-- What is placed, fact by fact. -/
theorem mem_placements {pl : Placement} :
    pl ∈ placements cache sources sinks san ↔
      (∃ s i, sources[i]? = some s ∧ seedPlacement? (Code.ofCache cache) s i = some pl) ∨
      (∃ c i, (siteHeads (callRows cache))[i]? = some c ∧ pl = ⟨c.spot, ⟨c.row.line, .call i⟩⟩) ∨
      (∃ s i, sinks[i]? = some s ∧
        sinkPlacement? (Code.ofCache cache) cache san s i = some pl) ∨
      (∃ a ∈ cache.assignments,
        assignPlacement? (Code.ofCache cache) cache san (callSites cache san) a = some pl) ∨
      ∃ r ∈ cache.returns, returnPlacement? (Code.ofCache cache) cache san r = some pl := by
  simp only [placements, List.mem_append, List.mem_filterMap, List.mem_map, Prod.exists,
    List.mk_mem_zipIdx_iff_getElem?, or_assoc, eq_comm]

/-- Facts are placed in blocks that exist. -/
theorem block_of_mem_placements {pl : Placement} (h : pl ∈ placements cache sources sinks san) :
    ∃ fn, (Code.ofCache cache).functions[pl.spot.function]? = some fn ∧
      pl.spot.block < fn.blocks.size := by
  rcases (mem_placements cache sources sinks san).mp h with
    ⟨s, i, -, hpl⟩ | ⟨c, i, hc, rfl⟩ | ⟨s, i, -, hpl⟩ | ⟨a, -, hpl⟩ | ⟨r, -, hpl⟩
  · exact Code.block_of_place (of_seedPlacement? hpl).1
  · obtain ⟨row, -, hrow⟩ := List.mem_filterMap.mp (mem_siteHeads (List.mem_of_getElem? hc))
    exact Code.block_of_place (resolveCall?_eq_some_iff.mp hrow).2.2
  · exact Code.block_of_place (of_sinkPlacement? hpl).1
  · obtain ⟨_, _, hspot, -⟩ := of_assignPlacement? hpl
    exact Code.block_of_place hspot
  · obtain ⟨_, hspot, -⟩ := of_returnPlacement? hpl
    exact Code.block_of_place hspot

/-- **The statements of a block are those that are placed in it.** -/
theorem mem_statementsAt_build {f b : Nat} {q : Placed} :
    q ∈ (Program.build cache sources sinks san).statementsAt f b ↔
      ⟨⟨f, b⟩, q⟩ ∈ placements cache sources sinks san :=
  mem_arrange.trans
    ⟨fun h => h.2, fun h => ⟨block_of_mem_placements cache sources sinks san h, h⟩⟩

/-- The statements of a block are those that are placed in it, in the order of evaluation. -/
theorem statementsAt_build (f b : Nat) : (Program.build cache sources sinks san).statementsAt f b =
      sortBy comparePlaced (placedIn (placements cache sources sinks san) f b) := by
  by_cases hblock : ∃ fn, (Code.ofCache cache).functions[f]? = some fn ∧ b < fn.blocks.size
  · obtain ⟨fn, hfn, hb⟩ := hblock
    exact getD_arrange _ hfn hb
  · -- nothing is placed where there is no block
    have hleft : (Program.build cache sources sinks san).statementsAt f b = [] :=
      List.eq_nil_iff_forall_not_mem.mpr fun q hq => hblock (mem_arrange.mp hq).1
    have hright : placedIn (placements cache sources sinks san) f b = [] :=
      List.eq_nil_iff_forall_not_mem.mpr fun q hq =>
        hblock (block_of_mem_placements cache sources sinks san (mem_placedIn.mp hq))
    rw [hleft, hright, sortBy, List.mergeSort_nil]

/-- What a placed statement refers to exists and belongs to its function. -/
theorem resolved_of_mem_placements {pl : Placement} (h : pl ∈ placements cache sources sinks san) :
    pl.placed.statement.Resolved (Program.build cache sources sinks san) pl.spot.function
      pl.placed.line := by
  rcases (mem_placements cache sources sinks san).mp h with
    ⟨s, i, hs, hpl⟩ | ⟨c, i, hc, rfl⟩ | ⟨k, i, hk, hpl⟩ | ⟨a, -, hpl⟩ | ⟨r, -, hpl⟩
  · -- a seed
    rw [(of_seedPlacement? hpl).2]
    exact ⟨s, by rw [getElem?_sources_build]; exact hs, rfl, rfl⟩
  · -- a call
    refine ⟨callSite (Code.ofCache cache) san (callRows cache) c, ?_, rfl⟩
    rw [getElem?_calls_build, callSites, List.getElem?_map, hc]
    rfl
  · -- a sink
    rw [(of_sinkPlacement? hpl).2]
    exact ⟨k, by rw [getElem?_sinks_build]; exact hk, rfl⟩
  · -- an assignment
    obtain ⟨spot, q⟩ := pl
    obtain ⟨names, sites, -, hq⟩ := of_assignPlacement? hpl
    obtain rfl : q = _ := hq
    intro i hi
    obtain ⟨site, hsite, hf, -⟩ := site_of_assignPlacement? hpl hi
    exact ⟨site, by rw [getElem?_calls_build]; exact hsite, hf⟩
  · -- a return
    obtain ⟨_, -, hq⟩ := of_returnPlacement? hpl
    rw [hq]
    trivial

/-- **Every program that is built is well formed.** -/
theorem wellFormed_build : (Program.build cache sources sinks san).WellFormed where
  functions _ _ h := sound_ofCache h
  blocks _ _ _ h := (mem_arrange.mp h).1
  statements _ _ _ h :=
    resolved_of_mem_placements cache sources sinks san
      ((mem_statementsAt_build cache sources sinks san).mp h)
  order := pairwise_arrange _ _
  calls i site h := by
    have hmem : site ∈ callSites cache san := by
      rw [getElem?_calls_build] at h
      exact List.mem_of_getElem? h
    obtain ⟨c, hc, rfl⟩ := List.mem_map.mp hmem
    constructor
    · show (firsts ((callSites cache san).map fun c => (c.function, c.callee))).contains _ = true
      rw [List.contains_iff_mem, mem_firsts]
      exact List.mem_map.mpr ⟨_, hmem, rfl⟩
    · obtain ⟨row, -, hrow⟩ := List.mem_filterMap.mp (mem_siteHeads hc)
      exact Code.lt_of_resolve (resolveCall?_eq_some_iff.mp hrow).2.1

end

/-! ### A sample

Three functions on which general statements are tried: `main` reads an untrusted value into `x`,
passes it through `wrap` into `y`, and hands `y` to `run`, which executes it. -/

/-- The facts of the sample. -/
def sampleCache : Cache where
  tables := [
    .ofRows Schema.cfgBlocks [
      ⟨[.int 1, .text "app", .text "main", .text "entry", .int 1, .int 9, .null]⟩,
      ⟨[.int 2, .text "app", .text "main", .text "exit", .int 9, .int 9, .null]⟩,
      ⟨[.int 3, .text "app", .text "wrap", .text "entry", .int 11, .int 19, .null]⟩,
      ⟨[.int 4, .text "app", .text "wrap", .text "exit", .int 19, .int 19, .null]⟩,
      ⟨[.int 5, .text "app", .text "run", .text "entry", .int 21, .int 29, .null]⟩,
      ⟨[.int 6, .text "app", .text "run", .text "exit", .int 29, .int 29, .null]⟩],
    .ofRows Schema.cfgEdges [
      ⟨[.int 1, .text "app", .text "main", .int 1, .int 2, .text "normal"]⟩,
      ⟨[.int 2, .text "app", .text "wrap", .int 3, .int 4, .text "normal"]⟩,
      ⟨[.int 3, .text "app", .text "run", .int 5, .int 6, .text "normal"]⟩],
    .ofRows Schema.funcParams [
      ⟨[.text "app", .text "wrap", .int 0, .text "v"]⟩,
      ⟨[.text "app", .text "run", .int 0, .text "cmd"]⟩],
    .ofRows Schema.functionCallArgs [
      ⟨[.text "app", .int 3, .text "main", .text "wrap", .int 0, .text "x", .null, .null]⟩,
      ⟨[.text "app", .int 4, .text "main", .text "run", .int 0, .text "y", .null, .null]⟩],
    .ofRows Schema.assignments [
      ⟨[.text "app", .int 3, .text "y", .text "wrap(x)", .text "main", .null]⟩],
    .ofRows Schema.functionReturns [
      ⟨[.text "app", .int 12, .text "wrap", .text "v", .bool false, .bool false, .null]⟩]]

/-- The source of the sample. -/
def sampleSources : List Discovery.Source :=
  [{ id := "s", symbol := "x", location := ⟨"app", 2, 0⟩ }]

/-- The sink of the sample. -/
def sampleSinks : List Discovery.Sink :=
  [{ id := "k", name := "exec", args := ["cmd"], location := ⟨"app", 22, 0⟩ }]

/-- The sample. -/
def sample : Program :=
  Program.build sampleCache sampleSources sampleSinks (Sanitizers.make [] none)

theorem sampleCache_facts :
    sampleCache.blocks = [⟨1, "app", "main", "entry", 1, 9⟩, ⟨2, "app", "main", "exit", 9, 9⟩,
      ⟨3, "app", "wrap", "entry", 11, 19⟩, ⟨4, "app", "wrap", "exit", 19, 19⟩,
      ⟨5, "app", "run", "entry", 21, 29⟩, ⟨6, "app", "run", "exit", 29, 29⟩] ∧
    sampleCache.edges = [⟨1, "app", "main", 1, 2⟩, ⟨2, "app", "wrap", 3, 4⟩,
      ⟨3, "app", "run", 5, 6⟩] ∧
    sampleCache.parameters = [⟨"app", "wrap", 0, "v"⟩, ⟨"app", "run", 0, "cmd"⟩] ∧
    sampleCache.callArguments = [⟨"app", 3, "main", "wrap", some 0, some "x", none, none⟩,
      ⟨"app", 4, "main", "run", some 0, some "y", none, none⟩] ∧
    sampleCache.assignments = [⟨"app", 3, "y", "wrap(x)", "main"⟩] ∧
    sampleCache.assignmentSources = [] ∧
    sampleCache.returns = [⟨"app", 12, "wrap", "v"⟩] ∧
    sampleCache.returnSources = [] := by
  decide +kernel

/-- A function of the sample: an entry block, and the exit it leads to. -/
def sampleFunction (name : String) (id start stop : Int) (params : List (String × Nat)) :
    Function where
  file := "app"
  name := name
  blocks := #[{ id := id, type := "entry", start := start, stop := stop, succ := [1] },
    { id := id + 1, type := "exit", start := stop, stop := stop, pred := [0] }]
  params := params.map (·.1)
  paramPositions := params
  entry := some 0
  line := start
  reach := #[#[2], #[0]]
  defect := none

/-- The functions of the sample. -/
def sampleCode : Code :=
  ⟨#[sampleFunction "main" 1 1 9 [], sampleFunction "run" 5 21 29 [("cmd", 0)],
    sampleFunction "wrap" 3 11 19 [("v", 0)]]⟩

theorem ofCache_sampleCache : Code.ofCache sampleCache = sampleCode := by
  obtain ⟨hb, he, hp, -⟩ := sampleCache_facts
  unfold Code.ofCache Code.keys buildFunction
  rw [hb, he, hp]
  cbv

/-- **The sample, written out.** -/
theorem sample_eq : sample =
    { code := sampleCode, sources := sampleSources.toArray, sinks := sampleSinks.toArray,
      calls := #[⟨0, 2, "app", 3, "wrap", [⟨0, "x", ["x"]⟩]⟩,
        ⟨0, 1, "app", 4, "run", [⟨0, "y", ["y"]⟩]⟩],
      statements := #[
        #[[⟨2, .seed 0 "x"⟩, ⟨3, .call 0⟩, ⟨3, .assign "app" "y" [] [0]⟩, ⟨4, .call 1⟩], []],
        #[[⟨22, .sink 0 ["cmd"]⟩], []],
        #[[⟨12, .ret "app" "v" ["v"]⟩], []]],
      endpoints := #[[], [], []], links := [(0, 2), (0, 1)], diagnostics := [] } := by
  obtain ⟨-, -, -, hc, ha, has, hr, hrs⟩ := sampleCache_facts
  unfold sample Program.build assignPlacement? returnPlacement? sinkPlacement? recordedSources
    recordedReturns sinkHint
  rw [ofCache_sampleCache, hc, ha, has, hr, hrs, Program.mk.injEq]
  refine ⟨rfl, rfl, rfl, by decide +kernel, ?_, by decide +kernel, by decide +kernel,
    by decide +kernel⟩
  -- the statements as they were recorded, then in the order of evaluation
  trans arrange sampleCode [⟨⟨0, 0⟩, ⟨2, .seed 0 "x"⟩⟩, ⟨⟨0, 0⟩, ⟨3, .call 0⟩⟩,
    ⟨⟨0, 0⟩, ⟨4, .call 1⟩⟩, ⟨⟨1, 0⟩, ⟨22, .sink 0 ["cmd"]⟩⟩,
    ⟨⟨0, 0⟩, ⟨3, .assign "app" "y" [] [0]⟩⟩, ⟨⟨2, 0⟩, ⟨12, .ret "app" "v" ["v"]⟩⟩]
  · congr 1
    decide +kernel
  · cbv

/-- The chain of the flow in the sample: through `wrap` and back, and into `run`. -/
def sampleChain : Chain where
  last := ⟨.sink, 1, 0, 0, 22, "app", "exec"⟩
  before := [⟨.parameter, 1, 0, -1, 21, "app", "cmd"⟩, ⟨.call, 0, 0, 3, 4, "app", "run"⟩,
    ⟨.assignment, 0, 0, 2, 3, "app", "y"⟩, ⟨.ret, 2, 0, 0, 12, "app", "v"⟩,
    ⟨.parameter, 2, 0, -1, 11, "app", "v"⟩, ⟨.call, 0, 0, 2, 3, "app", "wrap"⟩,
    ⟨.source, 0, 0, 0, 2, "app", "x"⟩]
  depth := 2

/-- The rounds of the sample complete and find the flow. -/
theorem sample_rounds : (sample.rounds 5 100 Budget.unlimited).1.incomplete = false ∧
    (sample.rounds 5 100 Budget.unlimited).1.knowledge.flows.get? (0, 0) = some sampleChain := by
  rw [sample_eq]
  decide +kernel

end TaintFlow.Flow
