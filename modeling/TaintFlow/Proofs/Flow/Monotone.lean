import TaintFlow.Proofs.Flow.Cancellation
import TaintFlow.Proofs.Flow.HopLimit
import TaintFlow.Proofs.Flow.MoreEdges
import TaintFlow.Proofs.Flow.OwnLine

/-!
# More edges and more sources

With additional edges in its graphs or with further sources a program has more flows and loses none.
Statements stand where they stood, in the same order, and further sources only put seeds between
them, which overwrite nothing.  The statement rules have no premise that something does not hold, so
what they give of a program they give of one with more edges and more seeds as well.

## Main definitions

* `Program.Grows` — a program with more edges and more seeds.
* `Program.SameRest` — two positions behind which the same statements are left, seeds aside.
* `Fact.CarriedOver` — what becomes of a fact.

## Main results

* `Program.grows_build` — further sources and additional edges make a program grow.
* `Program.Holds.carriedOver` — no fact is lost.
* `findings_of_more_edges_and_sources` — no finding is lost.
-/

namespace TaintFlow.Flow

open Facts (Cache)
open Discovery (Source Sink)

/-! ### Statements do not depend on edges -/

section

variable (code : Code) (cache : Cache) (san : Sanitizers)

theorem seedPlacement?_outline : seedPlacement? code.outline = seedPlacement? code := by
  funext s i
  simp only [seedPlacement?, Code.place_outline]

theorem handler?_outline : handler? code.outline = handler? code := by
  funext s
  simp only [handler?, Code.resolve_outline]

theorem resolveCall?_outline : resolveCall? code.outline = resolveCall? code := by
  funext row
  simp only [resolveCall?, Code.resolve_outline, Code.place_outline]

theorem binding?_outline : binding? code.outline san = binding? code san := by
  funext c
  simp only [binding?, Code.getElem?_outline]
  cases code.functions[c.callee]? <;> rfl

theorem sinkPlacement?_outline :
    sinkPlacement? code.outline cache san = sinkPlacement? code cache san := by
  funext s i
  simp only [sinkPlacement?, Code.place_outline]

theorem assignPlacement?_outline :
    assignPlacement? code.outline cache san = assignPlacement? code cache san := by
  funext calls a
  simp only [assignPlacement?, Code.place_outline]

theorem returnPlacement?_outline :
    returnPlacement? code.outline cache san = returnPlacement? code cache san := by
  funext r
  simp only [returnPlacement?, Code.place_outline]

end

section

variable {cache cache' : Cache} (h : cache.AddsEdges cache') (san : Sanitizers)

include h

theorem callRows_eq : callRows cache' = callRows cache := by
  rw [callRows, callRows, h.callArguments, ← resolveCall?_outline, Code.outline_ofCache h,
    resolveCall?_outline]

theorem callSites_eq : callSites cache' san = callSites cache san := by
  rw [callSites, callSites, callRows_eq h]
  refine List.map_congr_left fun head _ => ?_
  rw [callSite, callSite, ← binding?_outline, Code.outline_ofCache h, binding?_outline]

end

/-! ### Statements and further sources -/

/-- Whether a statement is there when only the first `n` sources are. -/
def Statement.fromFirst (n : Nat) : Statement → Bool
  | .seed i _ => i < n
  | _ => true

/-- A seed overwrites nothing. -/
theorem Statement.overwrites_of_not_fromFirst {n : Nat} {stmt : Statement}
    (h : stmt.fromFirst n = false) (x : String) : stmt.overwrites x = false := by
  cases stmt with
  | assign => cases h
  | seed | call | sink | ret => rfl

/-- The seeds of sources, counted from a position on. -/
def seedPlacements (code : Code) (sources : List Source) (n : Nat) : List Placement :=
  (sources.zipIdx n).filterMap fun (s, i) => seedPlacement? code s i

/-- All statements but the seeds. -/
def otherPlacements (cache : Cache) (sinks : List Sink) (san : Sanitizers) : List Placement :=
  ((siteHeads (callRows cache)).zipIdx.map fun (h, i) => ⟨h.spot, ⟨h.row.line, .call i⟩⟩) ++
  (sinks.zipIdx.filterMap fun (s, i) => sinkPlacement? (Code.ofCache cache) cache san s i) ++
  cache.assignments.filterMap
    (assignPlacement? (Code.ofCache cache) cache san (callSites cache san)) ++
  cache.returns.filterMap (returnPlacement? (Code.ofCache cache) cache san)

section

variable {cache cache' : Cache} (sources more : List Source) (sinks : List Sink)
  (san : Sanitizers)

theorem placements_eq : placements cache sources sinks san =
    seedPlacements (Code.ofCache cache) sources 0 ++ otherPlacements cache sinks san := by
  simp only [placements, seedPlacements, otherPlacements, List.append_assoc]

theorem otherPlacements_eq (h : cache.AddsEdges cache') :
    otherPlacements cache' sinks san = otherPlacements cache sinks san := by
  have hcode := Code.outline_ofCache h
  have hhint : sinkHint cache' = sinkHint cache := by
    funext s
    rw [sinkHint, sinkHint, h.callArguments, h.assignments]
  have hsink : sinkPlacement? (Code.ofCache cache') cache' san =
      sinkPlacement? (Code.ofCache cache) cache san := by
    rw [← sinkPlacement?_outline, hcode, sinkPlacement?_outline]
    funext s i
    simp only [sinkPlacement?, hhint]
  have hassign : assignPlacement? (Code.ofCache cache') cache' san =
      assignPlacement? (Code.ofCache cache) cache san := by
    rw [← assignPlacement?_outline, hcode, assignPlacement?_outline]
    funext calls a
    simp only [assignPlacement?, recordedSources, h.assignmentSources]
  have hreturn : returnPlacement? (Code.ofCache cache') cache' san =
      returnPlacement? (Code.ofCache cache) cache san := by
    rw [← returnPlacement?_outline, hcode, returnPlacement?_outline]
    funext r
    simp only [returnPlacement?, recordedReturns, h.returnSources]
  rw [otherPlacements, otherPlacements, callRows_eq h, hsink, hassign, hreturn, callSites_eq h,
    h.assignments, h.returns]

/-- Further sources put seeds behind those of the others. -/
theorem placements_append (h : cache.AddsEdges cache') :
    placements cache' (sources ++ more) sinks san =
      seedPlacements (Code.ofCache cache) sources 0 ++
        (seedPlacements (Code.ofCache cache) more sources.length ++
          otherPlacements cache sinks san) := by
  have hseeds : seedPlacement? (Code.ofCache cache') = seedPlacement? (Code.ofCache cache) := by
    rw [← seedPlacement?_outline, Code.outline_ofCache h, seedPlacement?_outline]
  rw [placements_eq, otherPlacements_eq sinks san h, seedPlacements, seedPlacements, seedPlacements,
    hseeds, List.zipIdx_append, List.filterMap_append, Nat.zero_add, List.append_assoc]

variable {sources more sinks san}

theorem seed_of_mem_seedPlacements {code : Code} {n : Nat} {pl : Placement}
    (h : pl ∈ seedPlacements code sources n) :
    ∃ i slot, n ≤ i ∧ i < n + sources.length ∧ pl.placed.statement = .seed i slot := by
  obtain ⟨⟨s, i⟩, hmem, hpl⟩ := List.mem_filterMap.mp h
  obtain ⟨hle, hlt, -⟩ := List.mem_zipIdx hmem
  exact ⟨i, s.symbol, hle, hlt, by rw [(of_seedPlacement? hpl).2]⟩

theorem fromFirst_of_mem_otherPlacements {n : Nat} {pl : Placement}
    (h : pl ∈ otherPlacements cache sinks san) : pl.placed.statement.fromFirst n = true := by
  simp only [otherPlacements, List.mem_append, List.mem_map, List.mem_filterMap] at h
  rcases h with ((⟨_, -, rfl⟩ | ⟨_, -, hpl⟩) | ⟨_, -, hpl⟩) | ⟨_, -, hpl⟩
  · rfl
  · rw [(of_sinkPlacement? hpl).2]
    rfl
  · obtain ⟨_, _, -, hq⟩ := of_assignPlacement? hpl
    rw [hq]
    rfl
  · obtain ⟨_, -, hq⟩ := of_returnPlacement? hpl
    rw [hq]
    rfl

/-- **Further sources put seeds between statements that stay in order.** -/
theorem filter_statementsAt_build (h : cache.AddsEdges cache') (f b : Nat) :
    ((Program.build cache' (sources ++ more) sinks san).statementsAt f b).filter
        (·.statement.fromFirst sources.length) =
      (Program.build cache sources sinks san).statementsAt f b := by
  have happend : ∀ ps ps' : List Placement,
      placedIn (ps ++ ps') f b = placedIn ps f b ++ placedIn ps' f b := by
    intro ps ps'
    rw [placedIn, List.filter_append, List.map_append]
    rfl
  have hold : (placedIn (seedPlacements (Code.ofCache cache) sources 0) f b).filter
      (·.statement.fromFirst sources.length) =
        placedIn (seedPlacements (Code.ofCache cache) sources 0) f b := by
    refine List.filter_eq_self.mpr fun q hq => ?_
    obtain ⟨i, slot, -, hlt, hq⟩ := seed_of_mem_seedPlacements (mem_placedIn.mp hq)
    rw [hq]
    exact decide_eq_true (by omega)
  have hnew : (placedIn (seedPlacements (Code.ofCache cache) more sources.length) f b).filter
      (·.statement.fromFirst sources.length) = [] := by
    refine List.filter_eq_nil_iff.mpr fun q hq => ?_
    obtain ⟨i, slot, hle, -, hq⟩ := seed_of_mem_seedPlacements (mem_placedIn.mp hq)
    rw [hq]
    simpa [Statement.fromFirst] using hle
  have hother : (placedIn (otherPlacements cache sinks san) f b).filter
      (·.statement.fromFirst sources.length) = placedIn (otherPlacements cache sinks san) f b :=
    List.filter_eq_self.mpr fun q hq => fromFirst_of_mem_otherPlacements (mem_placedIn.mp hq)
  rw [statementsAt_build, statementsAt_build, filter_sortBy,
    placements_append sources more sinks san h, placements_eq, happend, happend, happend,
    List.filter_append, List.filter_append, hold, hnew, hother, List.nil_append]

end

/-! ### Programs that grow -/

/-- A program with more edges and more seeds: functions may have additional edges, sources are
added behind the others, and of the statements only seeds of further sources are new. -/
structure Program.Grows (p p' : Program) : Prop where
  functions : ∀ f fn, p.function? f = some fn → ∃ fn', p'.function? f = some fn' ∧ fn.Grows fn'
  sources : ∀ (i : Nat) src, p.sources[i]? = some src → p'.sources[i]? = some src
  sinks : p'.sinks = p.sinks
  calls : p'.calls = p.calls
  endpoints : ∀ f, ∀ i ∈ p.endpoints.getD f [], i ∈ p'.endpoints.getD f []
  statements : ∀ f b, (p'.statementsAt f b).filter (·.statement.fromFirst p.sources.size) =
    p.statementsAt f b

namespace Program

/-- **Additional edges and further sources make a program grow.** -/
theorem grows_build {cache cache' : Cache} (h : cache.AddsEdges cache') (sources more : List Source)
    (sinks : List Sink) (san : Sanitizers) :
    (build cache sources sinks san).Grows (build cache' (sources ++ more) sinks san) where
  functions _ _ hfn := Code.grows_ofCache h hfn
  sources i src hsrc := by
    rw [getElem?_sources_build] at hsrc ⊢
    exact (List.getElem?_append_left (List.getElem?_eq_some_iff.mp hsrc).1).trans hsrc
  sinks := rfl
  calls := by
    show (callSites cache' san).toArray = (callSites cache san).toArray
    rw [callSites_eq h]
  endpoints f i hi := by
    obtain ⟨hf, s, hs, hhandler⟩ := mem_endpointSources.mp hi
    have hsize : (Code.ofCache cache').functions.size = (Code.ofCache cache).functions.size := by
      have := congrArg (fun a : Code => a.functions.size) (Code.outline_ofCache h)
      simpa [Code.outline] using this
    refine mem_endpointSources.mpr ⟨hsize ▸ hf, s, ?_, ?_⟩
    · exact (List.getElem?_append_left (List.getElem?_eq_some_iff.mp hs).1).trans hs
    · rw [← handler?_outline, Code.outline_ofCache h, handler?_outline]
      exact hhandler
  statements f b := filter_statementsAt_build h f b

variable {p p' : Program}

/-- A function that can be analysed stays one that can be. -/
theorem Grows.analyzes (hp : p.Grows p') {f : Nat} {fn : Function} (hf : p.Analyzes f fn) :
    ∃ fn', p'.Analyzes f fn' ∧ fn.Grows fn' := by
  obtain ⟨fn', hfn', hgrows⟩ := hp.functions f fn hf.1
  exact ⟨fn', ⟨hfn', (hgrows.analyzable hf.2).1⟩, hgrows⟩

/-! ### Facts that are carried over -/

/-- After two positions of a block the same statements are left, the seeds of further sources
aside. -/
structure SameRest (p p' : Program) (f b pos pos' : Nat) : Prop where
  le : pos' ≤ (p'.statementsAt f b).length
  rest : ((p'.statementsAt f b).drop pos').filter (·.statement.fromFirst p.sources.size) =
    (p.statementsAt f b).drop pos

theorem Grows.sameRest_zero (hp : p.Grows p') (f b : Nat) : p.SameRest p' f b 0 0 :=
  ⟨Nat.zero_le _, hp.statements f b⟩

section

variable {f b pos pos' : Nat} {line : Int} {stmt : Statement} {x : String} {r : Root}

/-- The next statement is there too, behind seeds that overwrite nothing. -/
theorem SameRest.exists_runs (h : p.SameRest p' f b pos pos') (hrun : p.Runs f b pos line stmt) :
    ∃ next, pos' ≤ next ∧ p'.Runs f b next line stmt ∧ p.SameRest p' f b (pos + 1) (next + 1) ∧
      ∀ x q line stmt, pos' ≤ q → q < next → p'.Runs f b q line stmt →
        stmt.overwrites x = false := by
  obtain ⟨hpos, hget⟩ := List.getElem?_eq_some_iff.mp hrun
  have hrest := h.rest
  rw [List.drop_eq_getElem_cons hpos, hget, List.filter_eq_cons_iff] at hrest
  obtain ⟨front, back, hsplit, hfront, -, hback⟩ := hrest
  have hat : ∀ n, (p'.statementsAt f b)[pos' + n]? = (front ++ ⟨line, stmt⟩ :: back)[n]? := by
    intro n
    rw [← List.getElem?_drop, hsplit]
  have hnext : p'.Runs f b (pos' + front.length) line stmt := by
    rw [Runs, hat, List.getElem?_append_right (Nat.le_refl _), Nat.sub_self]
    rfl
  refine ⟨pos' + front.length, Nat.le_add_right _ _, hnext, ⟨?_, ?_⟩,
    fun x q line' stmt' hle hlt hq => ?_⟩
  · exact (List.getElem?_eq_some_iff.mp hnext).1
  · rw [Nat.add_assoc, ← List.drop_drop, hsplit, ← List.drop_drop, List.drop_left, ← hback]
    rfl
  · -- the statement at a position before is one of the seeds
    obtain ⟨n, rfl⟩ := Nat.exists_eq_add_of_le hle
    have hn : n < front.length := by omega
    rw [Runs, hat, List.getElem?_append_left hn] at hq
    have hseed := hfront _ (List.mem_of_getElem? hq)
    exact Statement.overwrites_of_not_fromFirst (Bool.not_eq_true _ ▸ hseed) x

/-- Taint at the end of a block is taint at its end in a program with more seeds. -/
theorem SameRest.tainted_end (h : p.SameRest p' f b (p.statementsAt f b).length pos')
    (hold : p'.Holds (.tainted f b pos' x r)) :
    p'.Holds (.tainted f b (p'.statementsAt f b).length x r) := by
  have hrest := h.rest
  rw [List.drop_length, List.filter_eq_nil_iff] at hrest
  refine tainted_of_le h.le (Nat.le_refl _) (fun q line stmt hle hlt hrun => ?_) hold
  have hmem : ⟨line, stmt⟩ ∈ (p'.statementsAt f b).drop pos' := by
    rw [Runs, ← Nat.add_sub_cancel' hle, ← List.getElem?_drop] at hrun
    exact List.mem_of_getElem? hrun
  exact Statement.overwrites_of_not_fromFirst (Bool.not_eq_true _ ▸ hrest _ hmem) x

/-- Every position has a counterpart. -/
theorem Grows.exists_sameRest (hp : p.Grows p') (f b : Nat) : ∀ pos,
    pos ≤ (p.statementsAt f b).length → ∃ pos', p.SameRest p' f b pos pos' := by
  intro pos
  induction pos with
  | zero => exact fun _ => ⟨0, hp.sameRest_zero f b⟩
  | succ pos ih =>
    intro hlt
    obtain ⟨pos', hrest⟩ := ih (Nat.le_of_lt hlt)
    have hrun : p.Runs f b pos _ _ := List.getElem?_eq_getElem hlt
    obtain ⟨next, -, -, hnext, -⟩ := hrest.exists_runs hrun
    exact ⟨next + 1, hnext⟩

/-- Every statement is there too. -/
theorem Grows.exists_runs (hp : p.Grows p') (hrun : p.Runs f b pos line stmt) :
    ∃ next, p'.Runs f b next line stmt ∧ p.SameRest p' f b (pos + 1) (next + 1) := by
  have hlt := (List.getElem?_eq_some_iff.mp hrun).1
  obtain ⟨pos', hrest⟩ := hp.exists_sameRest f b pos (Nat.le_of_lt hlt)
  obtain ⟨next, -, hrun', hnext, -⟩ := hrest.exists_runs hrun
  exact ⟨next, hrun', hnext⟩

end

end Program

/-- What becomes of a fact in a program with more edges and more seeds: it holds, at a position with
the same statements left. -/
def Fact.CarriedOver (p p' : Program) : Fact → Prop
  | .tainted f b pos x r =>
    ∃ pos', p'.Holds (.tainted f b pos' x r) ∧ p.SameRest p' f b pos pos' ∧ (pos = 0 → pos' = 0)
  | fact => p'.Holds fact

namespace Fact.CarriedOver

variable {p p' : Program} {f b pos next : Nat} {line : Int} {stmt : Statement} {x : String}
  {r : Root}

/-- What is carried over to a position is carried over to the next statement. -/
theorem exists_next (h : (Fact.tainted f b pos x r).CarriedOver p p')
    (hrun : p.Runs f b pos line stmt) :
    ∃ next, p'.Runs f b next line stmt ∧ p'.Holds (.tainted f b next x r) ∧
      p.SameRest p' f b (pos + 1) (next + 1) := by
  obtain ⟨pos', hold, hrest, -⟩ := h
  obtain ⟨next, hle, hrun', hnext, hkeep⟩ := hrest.exists_runs hrun
  have hlt := (List.getElem?_eq_some_iff.mp hrun').1
  exact ⟨next, hrun', Program.tainted_of_le hle (Nat.le_of_lt hlt) (hkeep x) hold, hnext⟩

/-- What holds after a statement is carried over to there. -/
theorem after (hold : p'.Holds (.tainted f b (next + 1) x r))
    (hrest : p.SameRest p' f b (pos + 1) (next + 1)) :
    (Fact.tainted f b (pos + 1) x r).CarriedOver p p' :=
  ⟨next + 1, hold, hrest, fun h => absurd h (Nat.succ_ne_zero pos)⟩

/-- What holds at the start of a block is carried over to there. -/
theorem atStart (hp : p.Grows p') (hold : p'.Holds (.tainted f b 0 x r)) :
    (Fact.tainted f b 0 x r).CarriedOver p p' :=
  ⟨0, hold, hp.sameRest_zero f b, fun _ => rfl⟩

end Fact.CarriedOver

namespace Program

variable {p p' : Program}

/-- **No fact is lost** when a program grows. -/
theorem Holds.carriedOver (hp : p.Grows p') {fact : Fact} (h : p.Holds fact) :
    fact.CarriedOver p p' := by
  -- the statement of a rule is found at the position to which the taint before it is carried over
  induction h with
  | enterParam hf he hname hne _ ih =>
    obtain ⟨fn', hf', hgrows⟩ := hp.analyzes hf
    have he' := (hgrows.analyzable hf.2).2.trans he
    exact .atStart hp (.enterParam hf' he' (hgrows.same.2.2 ▸ hname) hne ih)
  | enterHandler hf he hi hsrc hname hne =>
    obtain ⟨fn', hf', hgrows⟩ := hp.analyzes hf
    have he' := (hgrows.analyzable hf.2).2.trans he
    exact .atStart hp (.enterHandler hf' he' (hp.endpoints _ _ hi) (hp.sources _ _ hsrc)
      (hgrows.same.2.2 ▸ hname) hne)
  | edge hf hb hb' _ ih =>
    obtain ⟨pos', hold, hrest, -⟩ := ih
    obtain ⟨fn', hf', hgrows⟩ := hp.analyzes hf
    obtain ⟨block', hblock', hmem⟩ := hgrows.edge _ _ ⟨_, hb, hb'⟩
    exact .atStart hp (.edge hf' hblock' hmem (hrest.tainted_end hold))
  | keep hrun hx _ ih =>
    obtain ⟨next, hrun', hold, hrest⟩ := ih.exists_next hrun
    exact .after (.keep hrun' hx hold) hrest
  | seed hf hrun hsrc =>
    obtain ⟨fn', hf', -⟩ := hp.analyzes hf
    obtain ⟨next, hrun', hrest⟩ := hp.exists_runs hrun
    exact .after (.seed hf' hrun' (hp.sources _ _ hsrc)) hrest
  | assign hrun hx _ ih =>
    obtain ⟨next, hrun', hold, hrest⟩ := ih.exists_next hrun
    exact .after (.assign hrun' hx hold) hrest
  | assignBound hrun hi hsite hbound hx _ _ ih iht =>
    obtain ⟨next, hrun', hold, hrest⟩ := ih.exists_next hrun
    exact .after (.assignBound hrun' hi (hp.calls ▸ hsite) hbound hx hold iht) hrest
  | assignIntrinsic hf hrun hi hsite _ ih =>
    obtain ⟨fn', hf', -⟩ := hp.analyzes hf
    obtain ⟨next, hrun', hrest⟩ := hp.exists_runs hrun
    exact .after (.assignIntrinsic hf' hrun' hi (hp.calls ▸ hsite) ih) hrest
  | call hrun hsite hbound hx _ ih =>
    obtain ⟨next, hrun', hold, -⟩ := ih.exists_next hrun
    exact .call hrun' (hp.calls ▸ hsite) hbound hx hold
  | callSink hrun hsite hbound hx _ _ ih iht =>
    obtain ⟨next, hrun', hold, -⟩ := ih.exists_next hrun
    exact .callSink hrun' (hp.calls ▸ hsite) hbound hx hold iht
  | sink hrun hsink hx _ ih =>
    obtain ⟨next, hrun', hold, -⟩ := ih.exists_next hrun
    exact .sink hrun' (hp.sinks ▸ hsink) hx hold
  | ret hrun hx _ ih =>
    obtain ⟨next, hrun', hold, -⟩ := ih.exists_next hrun
    exact .ret hrun' hx hold

theorem Grows.ends?_eq (hp : p.Grows p') {e : Nat × Nat} {ends : Ends}
    (h : p.ends? e = some ends) : p'.ends? e = some ends := by
  simp only [ends?, bind, Option.bind_eq_some_iff] at h ⊢
  obtain ⟨src, hsrc, snk, hsnk, h⟩ := h
  exact ⟨src, hp.sources e.1 src hsrc, snk, hp.sinks ▸ hsnk, h⟩

/-- The ends of findings are those of all flows that hold. -/
theorem mem_ends_findings_iff (hp : p.WellFormed) {h maxRounds : Nat} {b : Budget}
    (hc : (p.rounds h maxRounds b).1.incomplete = false) {ends : Ends} :
    ends ∈ (p.findings (p.rounds h maxRounds b).1.knowledge.flows).1.map Ends.ofFinding ↔
      ∃ s t, (∃ f, p.Holds (.reachesSink f (.source s) t)) ∧ p.ends? (s, t) = some ends := by
  have hopen : ∀ e ∈ (p.rounds h maxRounds b).1.knowledge.flows.entries,
      p.blockedAt? e.2.steps = none := by
    intro e he
    obtain ⟨f, hexec, -⟩ := shown_flows hp h maxRounds b he
    exact blockedAt?_eq_none hp hexec
  have hkeys : ∀ (m : Best (Nat × Nat)) e, e ∈ orderedKeys m ↔ m.Has e := by
    intro m e
    rw [← Best.mem_keys]
    exact ((List.mergeSort_perm m.entries _).map _).mem_iff
  -- no chain of complete rounds is dropped, so all keys give their ends
  rw [map_ends_findings hopen, mem_firsts, List.mem_filterMap]
  simp only [hkeys, Prod.exists, (exact_rounds hp hc).flows]

end Program

/-! ### Analyses -/

/-- **No finding is lost** when edges between blocks of a function are added, and when sources are
added behind the others: a complete analysis reports findings with all ends that it reports without
them.  A function that can be analysed can still be analysed, and what is tainted at the start of a
block is still tainted there. -/
theorem findings_of_more_edges_and_sources (limits : Limits) {cache cache' : Cache}
    (hadds : cache.AddsEdges cache') (sources more : List Source) (sinks : List Sink)
    (b b' : Budget) (hc : (analyze limits cache sources sinks b).1.incomplete = false)
    (hc' : (analyze limits cache' (sources ++ more) sinks b').1.incomplete = false) :
    let p := limits.program cache sources sinks
    let p' := limits.program cache' (sources ++ more) sinks
    (∀ x ∈ (analyze limits cache sources sinks b).1.findings,
        ∃ y ∈ (analyze limits cache' (sources ++ more) sinks b').1.findings,
          Ends.ofFinding y = Ends.ofFinding x) ∧
      (∀ f fn, p.Analyzes f fn →
        ∃ fn', p'.Analyzes f fn' ∧ fn'.file = fn.file ∧ fn'.name = fn.name) ∧
      ∀ f block slot r, p.Holds (.tainted f block 0 slot r) →
        p'.Holds (.tainted f block 0 slot r) := by
  intro p p'
  have hsan : Sanitizers.make limits.sanitizers (some cache') =
      Sanitizers.make limits.sanitizers (some cache) := by
    simp only [Sanitizers.make, Option.map_some, Sanitizers.lineValidators, hadds.validations]
  have hgrows : p.Grows p' := by
    have hp' : p' = .build cache' (sources ++ more) sinks _ :=
      congrArg (Program.build cache' (sources ++ more) sinks) hsan
    rw [hp']
    exact Program.grows_build hadds sources more sinks _
  have hp : p.WellFormed := wellFormed_build cache sources sinks _
  have hp' : p'.WellFormed := wellFormed_build cache' (sources ++ more) sinks _
  rw [incomplete_analyze] at hc hc'
  refine ⟨fun x hx => ?_, fun f fn hf => ?_, fun f block slot r h => ?_⟩
  · rw [analyze_eq_ofRounds] at hx ⊢
    have hends := (Program.mem_ends_findings_iff hp hc).mp (List.mem_map_of_mem hx)
    obtain ⟨s, t, ⟨f, hholds⟩, hst⟩ := hends
    have hmem := (Program.mem_ends_findings_iff hp' hc').mpr
      ⟨s, t, ⟨f, hholds.carriedOver hgrows⟩, hgrows.ends?_eq hst⟩
    obtain ⟨y, hy, hsame⟩ := List.mem_map.mp hmem
    exact ⟨y, hy, hsame⟩
  · obtain ⟨fn', hf', hfn⟩ := hgrows.analyzes hf
    exact ⟨fn', hf', hfn.same.1, hfn.same.2.1⟩
  · obtain ⟨pos', hold, -, hzero⟩ := h.carriedOver hgrows
    rw [hzero rfl] at hold
    exact hold

/-- The sample with a loop: control may go back to the start of `main`. -/
def loopedCache : Cache :=
  sampleCache.addEdge ⟨[.int 4, .text "app", .text "main", .int 1, .int 1, .text "back_edge"]⟩

/-- A further source: `y` is tainted where it is assigned. -/
def loopedSources : List Source :=
  [{ id := "t", symbol := "y", location := ⟨"app", 3, 0⟩ }]

theorem edges_loopedCache :
    loopedCache.edges = sampleCache.edges ++ [⟨4, "app", "main", 1, 1⟩] := by
  decide +kernel

theorem addsEdges_loopedCache : sampleCache.AddsEdges loopedCache where
  rows t h := Cache.rows_addEdge sampleCache _ t h
  kept e he := by
    rw [edges_loopedCache]
    exact List.mem_append_left _ he
  added e he := by
    rw [edges_loopedCache, List.mem_append, List.mem_singleton] at he
    refine he.imp id fun he => ?_
    have hblock : sampleCache.HasBlock "app" "main" 1 := by
      refine ⟨⟨1, "app", "main", "entry", 1, 9⟩, ?_, rfl, rfl, rfl⟩
      rw [sampleCache_facts.1]
      exact List.mem_cons_self
    subst he
    exact ⟨hblock, hblock⟩

/-- The functions of the sample with a loop. -/
def loopedCode : Code :=
  ⟨#[{ sampleFunction "main" 1 1 9 [] with
        blocks := #[
          { id := 1, type := "entry", start := 1, stop := 9, succ := [0, 1], pred := [0] },
          { id := 2, type := "exit", start := 9, stop := 9, pred := [0] }]
        reach := #[#[3], #[0]] },
    sampleFunction "run" 5 21 29 [("cmd", 0)], sampleFunction "wrap" 3 11 19 [("v", 0)]]⟩

theorem ofCache_loopedCache : Code.ofCache loopedCache = loopedCode := by
  obtain ⟨hb, he, hp, -⟩ := sampleCache_facts
  have h := addsEdges_loopedCache
  unfold Code.ofCache Code.keys buildFunction
  rw [h.blocks, edges_loopedCache, h.parameters, hb, he, hp]
  cbv

/-- The ends of the flow in the sample. -/
def sampleEnds : Ends :=
  ⟨⟨"app", 2, 0⟩, "", ⟨"app", 22, 0⟩, ""⟩

theorem program_looped :
    sampleLimits.program loopedCache (sampleSources ++ loopedSources) sampleSinks =
      { code := loopedCode, sources := (sampleSources ++ loopedSources).toArray,
        sinks := sampleSinks.toArray, calls := #[⟨0, 2, "app", 3, "wrap", [⟨0, "x", ["x"]⟩]⟩,
          ⟨0, 1, "app", 4, "run", [⟨0, "y", ["y"]⟩]⟩],
        statements := #[
          #[[⟨2, .seed 0 "x"⟩, ⟨3, .seed 1 "y"⟩, ⟨3, .call 0⟩, ⟨3, .assign "app" "y" [] [0]⟩,
            ⟨4, .call 1⟩], []],
          #[[⟨22, .sink 0 ["cmd"]⟩], []],
          #[[⟨12, .ret "app" "v" ["v"]⟩], []]],
        endpoints := #[[], [], []], links := [(0, 2), (0, 1)], diagnostics := [] } := by
  have hvalidators : Sanitizers.make sampleLimits.sanitizers (some loopedCache) =
      Sanitizers.make [] none := by
    decide +kernel
  obtain ⟨-, -, -, hc, ha, has, hr, hrs⟩ := sampleCache_facts
  have h := addsEdges_loopedCache
  rw [Limits.program, hvalidators]
  unfold Program.build assignPlacement? returnPlacement? sinkPlacement? recordedSources
    recordedReturns sinkHint
  rw [ofCache_loopedCache, h.callArguments, h.assignments, h.assignmentSources, h.returns,
    h.returnSources, hc, ha, has, hr, hrs, Program.mk.injEq]
  refine ⟨rfl, rfl, rfl, by decide +kernel, ?_, by decide +kernel, by decide +kernel,
    by decide +kernel⟩
  trans arrange loopedCode [⟨⟨0, 0⟩, ⟨2, .seed 0 "x"⟩⟩, ⟨⟨0, 0⟩, ⟨3, .seed 1 "y"⟩⟩,
    ⟨⟨0, 0⟩, ⟨3, .call 0⟩⟩, ⟨⟨0, 0⟩, ⟨4, .call 1⟩⟩, ⟨⟨1, 0⟩, ⟨22, .sink 0 ["cmd"]⟩⟩,
    ⟨⟨0, 0⟩, ⟨3, .assign "app" "y" [] [0]⟩⟩, ⟨⟨2, 0⟩, ⟨12, .ret "app" "v" ["v"]⟩⟩]
  · congr 1
    decide +kernel
  · cbv

/-- The flow of the sample is found in the sample with a loop and a further source too. -/
theorem findings_of_more_edges_and_sources_looped :
    (analyze sampleLimits sampleCache sampleSources sampleSinks Budget.unlimited).1.incomplete =
        false ∧
      (analyze sampleLimits loopedCache (sampleSources ++ loopedSources) sampleSinks
        Budget.unlimited).1.incomplete = false ∧
      (analyze sampleLimits sampleCache sampleSources sampleSinks
        Budget.unlimited).1.findings.map Ends.ofFinding = [sampleEnds] ∧
      ∃ y ∈ (analyze sampleLimits loopedCache (sampleSources ++ loopedSources) sampleSinks
        Budget.unlimited).1.findings, Ends.ofFinding y = sampleEnds := by
  have hc : (analyze sampleLimits sampleCache sampleSources sampleSinks
      Budget.unlimited).1.incomplete = false := by
    rw [incomplete_analyze, program_sample]
    exact sample_rounds.1
  have hc' : (analyze sampleLimits loopedCache (sampleSources ++ loopedSources) sampleSinks
      Budget.unlimited).1.incomplete = false := by
    rw [incomplete_analyze, program_looped]
    decide +kernel
  have hfound : (analyze sampleLimits sampleCache sampleSources sampleSinks
      Budget.unlimited).1.findings.map Ends.ofFinding = [sampleEnds] := by
    rw [analyze_eq_ofRounds, program_sample, sample_eq]
    decide +kernel
  have hends : sampleEnds ∈ (analyze sampleLimits sampleCache sampleSources sampleSinks
      Budget.unlimited).1.findings.map Ends.ofFinding := by
    rw [hfound]
    exact List.mem_singleton_self _
  obtain ⟨x, hx, hxends⟩ := List.mem_map.mp hends
  obtain ⟨y, hy, hyends⟩ := (findings_of_more_edges_and_sources sampleLimits addsEdges_loopedCache
    sampleSources loopedSources sampleSinks Budget.unlimited Budget.unlimited hc hc').1 x hx
  exact ⟨hc, hc', hfound, y, hy, hyends.trans hxends⟩

end TaintFlow.Flow
