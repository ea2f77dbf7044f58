import TaintFlow.Proofs.Flow.OverPaths
import TaintFlow.Proofs.Flow.Schedules

/-!
# Least chains over all paths

A function without calls makes chains longer one step at a time, and a common step keeps their
order.  So the chain that the worklist holds is not only at least as good as what any path leaves:
it is what some path leaves, and among what all the paths leave, of which there may be infinitely
many, it is the least chain.  The same holds of what is recorded at sinks and returns.

With calls this fails, as chains that cross too many calls lose steps when they go on.

## Main definitions

* `Chain.Least` — the least one of the chains that satisfy a condition.
* `Chain.Plain` — a chain that crosses no call and shows its steps.
* `Chain.HoldsLeast` — the least chain is held, if there is any.
* `Scope.CallFree` — no statement takes part in a call.
* `Scope.Arrives` — a chain that some path leaves.
* `fork` — a function with a short way, and a long one that leads back.

## Main results

* `Chain.holdsLeast_of_backed` — what is backed and covers everything is the least.
* `Scope.CallFree.invariant_plain` — without calls all chains are plain.
* `Program.least_chains_over_paths` — the worklist holds and records the least chains.
-/

namespace TaintFlow.Flow

/-! ### Least chains -/

namespace Chain

variable {P : Chain → Prop} {c d : Chain} {o : Option Chain}

/-- The least one of the chains that satisfy a condition. -/
structure Least (P : Chain → Prop) (c : Chain) : Prop where
  holds : P c
  isLE : ∀ d, P d → (compareChains c d).isLE

/-- A chain that crosses no call, leaves nothing out, and is told apart by what it shows. -/
structure Plain (c : Chain) : Prop where
  depth : c.depth = 0
  truncated : c.truncated = false
  declared : ∀ s ∈ c.steps, s.Declared

theorem plain_single {s : Step} (hs : s.Declared) : (single s).Plain where
  depth := rfl
  truncated := rfl
  declared t ht := by
    rw [steps_single, List.mem_singleton] at ht
    rw [ht]
    exact hs

theorem Plain.push (h : c.Plain) {s : Step} (hs : s.Declared) : (c.push s).Plain where
  depth := h.depth
  truncated := h.truncated
  declared t ht := by
    rw [steps_push, List.mem_append, List.mem_singleton] at ht
    rcases ht with ht | rfl
    · exact h.declared t ht
    · exact hs

/-- Plain chains that are at least as good as each other are equal. -/
theorem Plain.antisymm (hc : c.Plain) (hd : d.Plain) (h : (compareChains c d).isLE)
    (h' : (compareChains d c).isLE) : c = d :=
  eq_of_view hc.declared hd.declared (view_eq_of_isLE h h')

/-- What is at least as good as a plain chain is not longer. -/
theorem Plain.length_le (hd : d.Plain) (h : (compareChains c d).isLE) : c.length ≤ d.length := by
  rcases isLE_compareChains_iff.mp h with ⟨-, htruncated⟩ | ⟨-, hlt | ⟨heq, -⟩⟩
  · rw [hd.truncated] at htruncated
    cases htruncated
  · exact Nat.le_of_lt hlt
  · exact Nat.le_of_eq heq

/-- The least chain is held, if any chain satisfies the condition at all. -/
structure HoldsLeast (P : Chain → Prop) (o : Option Chain) : Prop where
  some_iff : ∀ c, o = some c ↔ Least P c
  exists_unique : (∃ c, P c) → ∃! c, Least P c
  shortest : ∀ c, o = some c → ∀ d, P d → c.length ≤ d.length

/-- **What is backed by a chain of those that it covers is the least of them.** -/
theorem holdsLeast_of_backed (hplain : ∀ c, P c → c.Plain) (ho : ∀ c, o = some c → c.Plain)
    (hbacked : ∀ c, o = some c → ∃ d, P d ∧ (compareChains d c).isLE)
    (hcovers : ∀ d, P d → ∃ c, o = some c ∧ (compareChains c d).isLE) : HoldsLeast P o := by
  have hleast : ∀ {c}, o = some c → Least P c := by
    intro c hc
    have hle : ∀ d, P d → (compareChains c d).isLE := by
      intro d hd
      obtain ⟨c', hc', hle⟩ := hcovers d hd
      rw [hc, Option.some.injEq] at hc'
      rw [hc']
      exact hle
    obtain ⟨d, hd, hdc⟩ := hbacked c hc
    obtain rfl : c = d := (ho c hc).antisymm (hplain d hd) (hle d hd) hdc
    exact ⟨hd, hle⟩
  have hunique : ∀ {c d}, Least P c → Least P d → c = d := fun hc hd =>
    (hplain _ hc.holds).antisymm (hplain _ hd.holds) (hc.isLE _ hd.holds) (hd.isLE _ hc.holds)
  refine ⟨fun c => ⟨hleast, fun hc => ?_⟩, ?_, fun c hc d hd => ?_⟩
  · obtain ⟨d, hd, -⟩ := hcovers c hc.holds
    rw [hd, hunique hc (hleast hd)]
  · rintro ⟨d, hd⟩
    obtain ⟨c, hc, -⟩ := hcovers d hd
    exact ⟨c, hleast hc, fun c' hc' => hunique hc' (hleast hc)⟩
  · exact (hplain d hd).length_le ((hleast hc).isLE d hd)

end Chain

namespace Scope

variable {s : Scope} {b pos : Nat} {line : Int} {st : State} {w : Work}

/-! ### Functions without calls -/

/-- No statement takes part in a call. -/
def CallFree (s : Scope) : Prop :=
  ∀ b q, q ∈ s.program.statementsAt s.index b → q.statement.sites = []

/-- Without calls there is nothing that could lose the order of chains. -/
theorem CallFree.callsKeep (h : s.CallFree) (le : Chain → Chain → Prop) : s.CallsKeep le := by
  intro b pos line stmt hq st' st i hi
  rw [h b _ (List.mem_of_getElem? hq)] at hi
  exact absurd hi List.not_mem_nil

theorem plain_entryState (s : Scope) : s.entryState.All fun _ c => c.Plain := by
  intro k c hc
  rw [entryState_eq_offerAll] at hc
  rcases Best.mem_offerAll hc with hc | hc
  · exact absurd hc List.not_mem_nil
  · rcases List.mem_append.mp hc with hc | hc
    · obtain ⟨_, -, heq⟩ := List.mem_map.mp hc
      cases heq
      exact Chain.plain_single rfl
    · obtain ⟨_, -, hc⟩ := List.mem_flatMap.mp hc
      obtain ⟨src, -, hc⟩ := List.mem_flatMap.mp hc
      obtain ⟨_, -, heq⟩ := List.mem_map.mp hc
      cases heq
      have horigin : (Chain.single (s.endpointStep src)).Plain := Chain.plain_single rfl
      exact horigin.push rfl

theorem plain_read (hst : st.All fun _ c => c.Plain) {names : List String} {r : Root} {c : Chain}
    (hc : (r, c) ∈ (st.read names).entries) : c.Plain := by
  obtain ⟨x, -, hmem⟩ := State.mem_read hc
  exact hst (x, r) c hmem

/-- What a statement that takes part in no call writes is plain. -/
theorem plain_of_writes {stmt : Statement} (hsites : stmt.sites = [])
    (hst : st.All fun _ c => c.Plain) {x : String} {r : Root} {c : Chain}
    (h : s.Writes b pos st line stmt x r c) : c.Plain := by
  cases h with
  | seed hsrc => exact Chain.plain_single rfl
  | read hc => exact (plain_read hst hc).push rfl
  | bound hi => exact absurd hi (List.eq_nil_iff_forall_not_mem.mp hsites _)
  | intrinsic hi => exact absurd hi (List.eq_nil_iff_forall_not_mem.mp hsites _)

/-- What a statement that takes part in no call reports is plain. -/
theorem plain_of_makes {stmt : Statement} (hsites : stmt.sites = [])
    (hst : st.All fun _ c => c.Plain) {o : Outlet} {r : Root} {c : Chain}
    (h : s.Makes b pos st line stmt (o.report r c)) : c.Plain := by
  generalize hreport : o.report r c = report at h
  cases h with
  | pass => cases o <;> cases hreport
  | call => exact absurd hsites (List.cons_ne_nil _ _)
  | sink hsink hc =>
    cases o <;> cases hreport
    exact (plain_read hst hc).push rfl
  | ret hc =>
    cases o <;> cases hreport
    exact (plain_read hst hc).push rfl

/-- **Without calls all chains are plain**, before every statement. -/
theorem CallFree.invariant_plain (h : s.CallFree) : s.Invariant fun _ _ _ c => c.Plain where
  entry _ _ := s.plain_entryState
  statement b pos q st hq hst := by
    rintro ⟨x, r⟩ c hc
    rcases mem_next hc with ⟨-, hmem⟩ | hwrites
    · exact hst (x, r) c hmem
    · exact plain_of_writes (h b q (List.mem_of_getElem? hq)) hst hwrites
  edge _ _ _ _ _ hc := hc

/-- Without calls all chains that are recorded are plain. -/
theorem CallFree.plain_of_chain? (h : s.CallFree) (hw : s.Visits w) {r : Root} {o : Outlet}
    {c : Chain} (hc : w.records.chain? r o = some c) : c.Plain := by
  have hall : w.records.All fun report => ∀ o r c, report = Outlet.report o r c → c.Plain := by
    refine h.invariant_plain.records (fun b pos q st hq hst report hreport o r c heq => ?_) hw
    rw [heq] at hreport
    exact plain_of_makes (h b q (List.mem_of_getElem? hq)) hst (mem_reports_iff.mp hreport)
  exact hall.chains r o c hc o r c rfl

/-- Without calls all chains that are reported after paths are plain. -/
theorem CallFree.plain_of_obtains (h : s.CallFree) {r : Root} {o : Outlet} {c : Chain}
    (hc : s.Obtains (o.report r c)) : c.Plain := by
  obtain ⟨path, b, pos, line, stmt, hpath, hq, hmakes⟩ := hc
  have hpos := (List.getElem?_eq_some_iff.mp hq).1
  exact plain_of_makes (h b _ (List.mem_of_getElem? hq))
    (h.invariant_plain.before (h.invariant_plain.along hpath) (Nat.le_of_lt hpos)) hmakes

/-! ### The worklist holds the least chains -/

/-- A chain that some path to a block leaves in a slot. -/
def Arrives (s : Scope) (b : Nat) (x : String) (r : Root) (c : Chain) : Prop :=
  ∃ path, s.Path path b ∧ (s.along path).get? (x, r) = some c

/-- **A solution that some visiting order comes to holds the least chains.** -/
theorem CallFree.holdsLeast_states (h : s.CallFree)
    (hpaths : ∀ b q, q ∈ s.program.statementsAt s.index b → ∃ path, s.Path path b)
    (hw : s.Visits w) (hsolves : s.Solves w.records w.stateAt) (b : Nat) (x : String) (r : Root) :
    Chain.HoldsLeast (s.Arrives b x r) ((w.stateAt b).get? (x, r)) := by
  have hkeeps := h.callsKeep fun c d => (compareChains c d).isLE
  refine Chain.holdsLeast_of_backed ?_ (fun c hc => ?_) (fun c hc => ?_) ?_
  · rintro c ⟨path, hpath, hc⟩
    exact h.invariant_plain.along hpath _ c (Best.mem_entries_of_get? hc)
  · exact h.invariant_plain.visits hw b _ c (Best.mem_entries_of_get? hc)
  · obtain ⟨path, hpath, d, hd, hdc⟩ := (invariant_backs coarsens_isLE hkeeps hpaths).visits hw b
      (x, r) c (Best.mem_entries_of_get? hc)
    exact ⟨d, ⟨path, hpath, hd⟩, hdc⟩
  · rintro d ⟨path, hpath, hd⟩
    exact dominates_along coarsens_isLE hkeeps hsolves hpath (x, r) d (Best.mem_entries_of_get? hd)

/-- **A solution that some visiting order comes to records the least chains.** -/
theorem CallFree.holdsLeast_records (h : s.CallFree) (hs : s.function.Sound)
    (ha : s.function.analyzable = true)
    (hpaths : ∀ b q, q ∈ s.program.statementsAt s.index b → ∃ path, s.Path path b)
    (hw : s.Visits w) (hsolves : s.Solves w.records w.stateAt) (r : Root) (o : Outlet) :
    Chain.HoldsLeast (fun c => s.Obtains (o.report r c)) (w.records.chain? r o) := by
  have hkeeps := h.callsKeep fun c d => (compareChains c d).isLE
  refine Chain.holdsLeast_of_backed (fun _ => h.plain_of_obtains)
    (fun _ => h.plain_of_chain? hw) (fun c hc => ?_) fun d hd => ?_
  · obtain ⟨report, hobtains, hbetter⟩ :=
      (all_records_backed coarsens_isLE hkeeps hpaths hw).chains r o c hc
    obtain ⟨d, rfl, hdc⟩ := Outlet.exists_of_betters hbetter
    exact ⟨d, hobtains, hdc⟩
  · obtain ⟨report, hcovers, hbetter⟩ :=
      exists_covers_of_obtains coarsens_isLE hkeeps hs ha hsolves hd
    obtain ⟨e, rfl, hed⟩ := Outlet.exists_of_betters hbetter
    obtain ⟨c, hc, hce⟩ := Records.exists_chain?_of_covers hcovers
    exact ⟨c, hc, Std.TransCmp.isLE_trans hce hed⟩

end Scope

/-! ### A fork

In `main` the parameter `x` comes into `y` on two ways, by one assignment or by two.  The second
way also leads back to the entry, so that there are infinitely many paths to the exit, where `y` is
executed. -/

open Facts (Cache)
open Discovery (Source Sink)

/-- The facts of the fork. -/
def forkCache : Cache where
  tables := [
    .ofRows Schema.cfgBlocks [
      ⟨[.int 1, .text "app", .text "main", .text "entry", .int 1, .int 2, .null]⟩,
      ⟨[.int 2, .text "app", .text "main", .text "then", .int 3, .int 3, .null]⟩,
      ⟨[.int 3, .text "app", .text "main", .text "else", .int 4, .int 5, .null]⟩,
      ⟨[.int 4, .text "app", .text "main", .text "exit", .int 6, .int 7, .null]⟩],
    .ofRows Schema.cfgEdges [
      ⟨[.int 1, .text "app", .text "main", .int 1, .int 2, .text "true"]⟩,
      ⟨[.int 2, .text "app", .text "main", .int 1, .int 3, .text "false"]⟩,
      ⟨[.int 3, .text "app", .text "main", .int 2, .int 4, .text "normal"]⟩,
      ⟨[.int 4, .text "app", .text "main", .int 3, .int 4, .text "normal"]⟩,
      ⟨[.int 5, .text "app", .text "main", .int 3, .int 1, .text "back"]⟩],
    .ofRows Schema.funcParams [⟨[.text "app", .text "main", .int 0, .text "x"]⟩],
    .ofRows Schema.assignments [
      ⟨[.text "app", .int 3, .text "y", .text "x", .text "main", .null]⟩,
      ⟨[.text "app", .int 4, .text "a", .text "x", .text "main", .null]⟩,
      ⟨[.text "app", .int 5, .text "y", .text "a", .text "main", .null]⟩]]

/-- The sink of the fork. -/
def forkSink : Sink :=
  { id := "k", name := "exec", args := ["y"], location := ⟨"app", 6, 0⟩ }

/-- The function of the fork. -/
def forkMain : Function where
  file := "app"
  name := "main"
  blocks := #[{ id := 1, type := "entry", start := 1, stop := 2, succ := [1, 2], pred := [2] },
    { id := 2, type := "then", start := 3, stop := 3, succ := [3], pred := [0] },
    { id := 3, type := "else", start := 4, stop := 5, succ := [0, 3], pred := [0] },
    { id := 4, type := "exit", start := 6, stop := 7, pred := [1, 2] }]
  params := ["x"]
  paramPositions := [("x", 0)]
  entry := some 0
  line := 1
  reach := #[#[15], #[8], #[15], #[0]]
  defect := none

theorem ofCache_forkCache : Code.ofCache forkCache = ⟨#[forkMain]⟩ := by
  have hblocks : forkCache.blocks = [⟨1, "app", "main", "entry", 1, 2⟩,
      ⟨2, "app", "main", "then", 3, 3⟩, ⟨3, "app", "main", "else", 4, 5⟩,
      ⟨4, "app", "main", "exit", 6, 7⟩] := rfl
  have hedges : forkCache.edges = [⟨1, "app", "main", 1, 2⟩, ⟨2, "app", "main", 1, 3⟩,
      ⟨3, "app", "main", 2, 4⟩, ⟨4, "app", "main", 3, 4⟩, ⟨5, "app", "main", 3, 1⟩] := rfl
  have hparams : forkCache.parameters = [⟨"app", "main", 0, "x"⟩] := rfl
  unfold Code.ofCache Code.keys buildFunction
  rw [hblocks, hedges, hparams]
  cbv

/-- The fork as a program. -/
def fork : Program :=
  Program.build forkCache [] [forkSink] (Sanitizers.make [] none)

/-- **The fork, written out.** -/
theorem fork_eq : fork =
    { code := ⟨#[forkMain]⟩, sources := #[], sinks := #[forkSink], calls := #[],
      statements := #[#[[], [⟨3, .assign "app" "y" ["x"] []⟩],
        [⟨4, .assign "app" "a" ["x"] []⟩, ⟨5, .assign "app" "y" ["a"] []⟩],
        [⟨6, .sink 0 ["y"]⟩]]],
      endpoints := #[[]], links := [], diagnostics := [] } := by
  have hcalls : forkCache.callArguments = [] := rfl
  have hassigns : forkCache.assignments = [⟨"app", 3, "y", "x", "main"⟩,
      ⟨"app", 4, "a", "x", "main"⟩, ⟨"app", 5, "y", "a", "main"⟩] := rfl
  have hsources : forkCache.assignmentSources = [] := rfl
  have hreturns : forkCache.returns = [] := rfl
  unfold fork Program.build assignPlacement? sinkPlacement? recordedSources sinkHint
  rw [ofCache_forkCache, hcalls, hassigns, hsources, hreturns, Program.mk.injEq]
  refine ⟨rfl, rfl, rfl, rfl, ?_, by decide +kernel, rfl, rfl⟩
  -- the statements as they were recorded, then block by block
  trans arrange ⟨#[forkMain]⟩ [⟨⟨0, 3⟩, ⟨6, .sink 0 ["y"]⟩⟩,
    ⟨⟨0, 1⟩, ⟨3, .assign "app" "y" ["x"] []⟩⟩, ⟨⟨0, 2⟩, ⟨4, .assign "app" "a" ["x"] []⟩⟩,
    ⟨⟨0, 2⟩, ⟨5, .assign "app" "y" ["a"] []⟩⟩]
  · congr 1
    decide +kernel
  · cbv

/-! ### Provenance over all paths -/

namespace Program

variable {p : Program} {maxHops f : Nat} {snapshot : Snapshot}

/-- In a well-formed program a function that no call site belongs to is free of calls. -/
theorem WellFormed.callFree (hp : p.WellFormed) (hcalls : ∀ site ∈ p.calls, site.function ≠ f) :
    (p.scope maxHops snapshot f).CallFree := by
  intro b q hq
  have hresolved := hp.statements f b q hq
  have habsent : ∀ i : Nat, ¬ ∃ site, p.calls[i]? = some site ∧ site.function = f := by
    rintro i ⟨site, hsite, hf⟩
    exact hcalls site (Array.mem_of_getElem? hsite) hf
  obtain ⟨line, stmt⟩ := q
  cases stmt with
  | call i => exact absurd hresolved (habsent i)
  | assign file target names calls =>
    exact List.eq_nil_iff_forall_not_mem.mpr fun i hi => habsent i (hresolved i hi)
  | seed | sink | ret => rfl

/-- **Provenance is the least chain over all paths.**  For every program that is built, every
function that can be analysed and has no call sites, every snapshot and every hop limit, when the
worklist ends without being cancelled: the chain that is held for a slot and a root at the start of
a block is the least one of those that paths to the block leave there, and the chain that is
recorded for a root at a sink or a return is the least one of those that statements report there
after some path.  There is exactly one least chain whenever there is any chain, and none is
shorter. -/
theorem least_chains_over_paths (cache : Cache) (sources : List Source) (sinks : List Sink)
    (san : Sanitizers) (maxHops f : Nat) (snapshot : Snapshot) {fn : Function}
    (hf : (build cache sources sinks san).Analyzes f fn)
    (hcalls : ∀ site ∈ (build cache sources sinks san).calls, site.function ≠ f) (steps : Nat)
    (budget : Budget)
    (hrun : (((build cache sources sinks san).scope maxHops snapshot f).run steps
      ((build cache sources sinks san).scope maxHops snapshot f).start budget).1.2 = false) :
    let s := (build cache sources sinks san).scope maxHops snapshot f
    let w := (s.run steps s.start budget).1.1
    (∀ b x r, Chain.HoldsLeast (s.Arrives b x r) ((w.stateAt b).get? (x, r))) ∧
      ∀ r o, Chain.HoldsLeast (fun c => s.Obtains (o.report r c)) (w.records.chain? r o) := by
  intro s w
  have hp : (build cache sources sinks san).WellFormed :=
    wellFormed_build cache sources sinks san
  obtain ⟨hs, ha⟩ := hp.sound_scope maxHops snapshot hf
  have hfree : s.CallFree := hp.callFree hcalls
  have hpaths : ∀ b q, q ∈ s.program.statementsAt s.index b → ∃ path, s.Path path b :=
    fun b q hq => hp.exists_path hf hq
  have hw : s.Visits w := s.visits_run steps budget
  have hsolves : s.Solves w.records w.stateAt :=
    Scope.solves_of_queue_nil hs ha (hw.settled hs ha).1
      (s.run_queue_eq_nil steps s.start budget hrun)
  exact ⟨hfree.holdsLeast_states hpaths hw hsolves,
    hfree.holdsLeast_records hs ha hpaths hw hsolves⟩

/-- In the fork the least chain to the sink over all paths takes the shorter way. -/
theorem least_chains_over_paths_fork :
    let s := fork.scope 5 ⟨#[{}], #[1]⟩ 0
    fork.Analyzes 0 forkMain ∧ (∀ site ∈ fork.calls, site.function ≠ 0) ∧
      (s.run Scope.maxSteps s.start Budget.unlimited).1.2 = false ∧
      Chain.Least (fun c => s.Obtains (.sink (.param 0) 0 c))
        { last := ⟨.sink, 0, 3, 0, 6, "app", "exec"⟩,
          before := [⟨.assignment, 0, 1, 0, 3, "app", "y"⟩,
            ⟨.parameter, 0, 0, -1, 1, "app", "x"⟩] } := by
  intro s
  have hf : fork.Analyzes 0 forkMain := by
    rw [fork_eq]
    exact ⟨rfl, rfl⟩
  have hcalls : ∀ site ∈ fork.calls, site.function ≠ 0 := by
    rw [fork_eq]
    exact fun site hsite => absurd hsite (Array.not_mem_empty site)
  have hruns : (s.run Scope.maxSteps s.start Budget.unlimited).1.2 = false ∧
      (s.run Scope.maxSteps s.start Budget.unlimited).1.1.records.chain? (.param 0) (.sink 0) =
        some { last := ⟨.sink, 0, 3, 0, 6, "app", "exec"⟩,
               before := [⟨.assignment, 0, 1, 0, 3, "app", "y"⟩,
                 ⟨.parameter, 0, 0, -1, 1, "app", "x"⟩] } := by
    simp only [s]
    rw [fork_eq]
    decide +kernel
  obtain ⟨hrun, hchain⟩ := hruns
  obtain ⟨-, hrecords⟩ := least_chains_over_paths forkCache [] [forkSink] (Sanitizers.make [] none)
    5 0 _ hf hcalls Scope.maxSteps Budget.unlimited hrun
  exact ⟨hf, hcalls, hrun, ((hrecords (.param 0) (.sink 0)).some_iff _).mp hchain⟩

end Program

end TaintFlow.Flow
