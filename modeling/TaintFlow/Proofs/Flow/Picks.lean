import TaintFlow.Proofs.Flow.HopLimit

/-!
# What findings report

Candidates are chains by the positions of their sources and sinks.  Several sources and sinks may
share a place and a category, and what is told apart are only these: of all executable candidates
with the same ends there is one finding, and it shows the best of them, the whole of it.  What is
not executable is dropped with a diagnostic, and what lacks steps is reported with one.

The routes that are picked are held in the order in which their ends first occurred, and a better
one takes the place of the one held before, so two facts carry everything: the ends that are held
are the distinct ends of all routes, and every route is stood for by one that is held.

## Main definitions

* `Program.route?` — the source, the sink and the chain of a candidate.
* `Program.HasName`, `Program.ShowsStep`, `Lowers` — what a finding shows of functions, steps and
  risks.
* `Program.Shows`, `Program.Concerns` — a finding shows a route, a diagnostic is about one.
* `Program.Reports` — what is reported of candidates, with what is picked and what is dropped.

## Main results

* `Route.mem_of_mem_foldl` — only routes are picked.
* `Route.least_of_mem_foldl` — what is picked is the best of its group.
* `Program.shows_finding` — a finding shows all of its route.
* `Program.findings_exact` — **findings neither lose nor repeat flows.**
-/

namespace TaintFlow.Flow

open Discovery (Source Sink)

/-- Where a partial function gives something, it gives one result for each element. -/
theorem forall₂_filterMap {α β : Type} {f : α → Option β} {q : α → Bool} {l : List α}
    (h : ∀ a ∈ l, (f a).isSome = q a) :
    List.Forall₂ (fun a b => f a = some b) (l.filter q) (l.filterMap f) := by
  induction l with
  | nil => exact .nil
  | cons a l ih =>
    have hrest := ih fun b hb => h b (List.mem_cons_of_mem _ hb)
    have ha := h a List.mem_cons_self
    cases hfa : f a with
    | none =>
      rw [hfa] at ha
      rw [List.filter_cons, ← ha, List.filterMap_cons, hfa]
      exact hrest
    | some b =>
      rw [hfa] at ha
      rw [List.filter_cons, ← ha, List.filterMap_cons, hfa]
      exact .cons hfa hrest

/-! ### Picking routes -/

namespace Route

variable {fs gs : List Route} {f g : Route}

theorem mem_of_mem_addRoute (h : g ∈ addRoute f gs) : g = f ∨ g ∈ gs := by
  induction gs with
  | nil => exact Or.inl (List.mem_singleton.mp h)
  | cons d gs ih =>
    rw [addRoute] at h
    split at h
    · rcases List.mem_cons.mp h with rfl | h
      · split
        · exact Or.inl rfl
        · exact Or.inr List.mem_cons_self
      · exact Or.inr (List.mem_cons_of_mem _ h)
    · rcases List.mem_cons.mp h with rfl | h
      · exact Or.inr List.mem_cons_self
      · exact (ih h).imp_right (List.mem_cons_of_mem _)

/-- Only routes are picked. -/
theorem mem_of_mem_foldl (h : g ∈ fs.foldl (fun acc f => addRoute f acc) gs) :
    g ∈ fs ∨ g ∈ gs := by
  induction fs generalizing gs with
  | nil => exact Or.inr h
  | cons f fs ih =>
    rcases ih h with hg | hg
    · exact Or.inl (List.mem_cons_of_mem _ hg)
    · rcases mem_of_mem_addRoute hg with rfl | hg
      · exact Or.inl List.mem_cons_self
      · exact Or.inr hg

/-- The ends of what is picked are the distinct ends of all routes. -/
theorem ends_foldl (fs : List Route) :
    (fs.foldl (fun acc f => addRoute f acc) []).map Ends.ofRoute = firsts (fs.map Ends.ofRoute) :=
  Ends.map_foldl_addRoute fs []

/-- What is picked is the best of all routes with its ends. -/
theorem least_of_mem_foldl (hg : g ∈ fs.foldl (fun acc f => addRoute f acc) []) (hf : f ∈ fs)
    (hends : Ends.ofRoute f = Ends.ofRoute g) : (compareChains g.chain f.chain).isLE = true := by
  obtain ⟨g', hg', hsame, hle⟩ := exists_standsFor_foldl fs [] f (Or.inl hf)
  have hnodup : ((fs.foldl (fun acc f => addRoute f acc) []).map Ends.ofRoute).Nodup := by
    rw [ends_foldl]
    exact nodup_firsts _
  -- only one route with these ends is picked
  have heq : g' = g := List.inj_on_of_nodup_map hnodup hg' hg
    ((Ends.ofRoute_eq_iff.mpr hsame).trans hends)
  exact heq ▸ hle

end Route

/-! ### What is reported -/

/-- A severity is one level lower than a risk.  There is none below the one for information. -/
inductive Lowers : Severity → Severity → Prop where
  | critical : Lowers .critical .high
  | high : Lowers .high .medium
  | medium : Lowers .medium .low
  | other {risk : Severity} (hrisk : risk ∉ [.critical, .high, .medium]) : Lowers risk .info

namespace Program

variable {p : Program} {best : Best (Nat × Nat)}

/-- The source, the sink and the chain of a candidate. -/
def route? (p : Program) (e : (Nat × Nat) × Chain) : Option Route := do
  return ⟨← p.sources[e.1.1]?, ← p.sinks[e.1.2]?, e.2⟩

/-- The function with a number has a name.  A number without a function has the empty one. -/
inductive HasName (p : Program) (n : Int) : String → Prop where
  | known {i : Nat} {fn : Function} (hn : n = i) (hfn : p.function? i = some fn) :
      HasName p n fn.name
  | unknown (hnone : ∀ i : Nat, n = i → p.function? i = none) : HasName p n ""

/-- A step of a path shows a step of a chain. -/
structure ShowsStep (p : Program) (s : Step) (shown : PathStep) : Prop where
  kind : shown.kind = s.kind
  file : shown.file = s.file
  line : shown.line = s.line
  function : p.HasName s.function shown.function
  detail : shown.detail = s.detail

/-- A finding shows a route, and nothing but it. -/
structure Shows (p : Program) (g : Route) (f : Finding) : Prop where
  /-- The path has one step for each step of the chain. -/
  path : ∃ steps, f.path = some steps ∧ List.Forall₂ p.ShowsStep g.chain.steps steps
  hopDepth : f.hopDepth = g.chain.depth
  truncated : f.truncated = g.chain.truncated
  /-- The severity is the risk of the sink. -/
  severity : g.source.risk ≠ .low → f.severity = g.sink.risk
  /-- It is one level lower for a source of low risk. -/
  lowered : g.source.risk = .low → Lowers g.sink.risk f.severity
  category : f.category = Discovery.findingCategory g.sink.category
  /-- A source without a symbol is called by its function. -/
  source : f.source =
    { location := g.source.location, category := g.source.category,
      name := if g.source.symbol = "" then g.source.function else g.source.symbol,
      rule := g.source.rule, risk := g.source.risk }
  sink : f.sink =
    { location := g.sink.location, category := g.sink.category, name := g.sink.name,
      rule := g.sink.rule, risk := g.sink.risk }

/-- A diagnostic is about a route: it names the place of the sink, and the function in which the
chain ends. -/
structure Concerns (p : Program) (g : Route) (kind : DiagnosticKind) (d : Diagnostic) : Prop where
  kind : d.kind = kind
  file : d.file = g.sink.location.file
  line : d.line = g.sink.location.line
  function : p.HasName g.chain.last.function d.function

/-- What is reported of candidates: of those that are executable some are picked, all others are
dropped. -/
structure Reports (p : Program) (candidates picked dropped : List Route)
    (report : List Finding × List Diagnostic) : Prop where
  /-- Each finding shows what is picked. -/
  findings : List.Forall₂ p.Shows picked report.1
  /-- No two findings have the same ends. -/
  once : (report.1.map Ends.ofFinding).Nodup
  /-- There are findings about the ends of all executable candidates, and no others. -/
  ends : ∀ x, x ∈ report.1.map Ends.ofFinding ↔
    ∃ r ∈ candidates, p.blockedAt? r.chain.steps = none ∧ Ends.ofRoute r = x
  /-- What is picked is an executable candidate. -/
  executable : ∀ g ∈ picked, g ∈ candidates ∧ p.blockedAt? g.chain.steps = none
  /-- No executable candidate with the same ends has a better chain. -/
  least : ∀ g ∈ picked, ∀ r ∈ candidates, p.blockedAt? r.chain.steps = none →
    Ends.ofRoute r = Ends.ofRoute g → (compareChains g.chain r.chain).isLE = true
  /-- What is not executable is dropped. -/
  rest : dropped.Perm (candidates.filter fun r => (p.blockedAt? r.chain.steps).isSome)
  /-- There is one diagnostic for each candidate that is dropped, one for each finding that lacks
  steps, and no other. -/
  diagnostics : ∃ ds cuts, report.2 = ds ++ cuts ∧
    List.Forall₂ (fun r d => p.Concerns r .infeasiblePath d ∧
      ∃ a b, p.blockedAt? r.chain.steps = some (a, b) ∧
        d.message = s!"flow from {r.source.id} to {r.sink.id} dropped: {blockedText a b}")
      dropped ds ∧
    List.Forall₂ (fun g d => p.Concerns g .maxDepthTruncation d ∧
      d.message = s!"path from {g.source.id} to {g.sink.id} exceeds the hop limit")
      (picked.filter fun g => g.chain.truncated) cuts

/-! ### What findings show -/

theorem hasName_functionName (p : Program) (n : Int) : p.HasName n (p.functionName n) := by
  rw [functionName, functionAt?]
  by_cases hn : n < 0
  · rw [if_pos hn]
    refine .unknown fun i hi => ?_
    omega
  · rw [if_neg hn]
    have hi : n = n.toNat := by omega
    cases hfn : p.function? n.toNat with
    | none =>
      refine .unknown fun i hi' => ?_
      obtain rfl : n.toNat = i := by omega
      exact hfn
    | some fn => exact .known hi hfn

theorem lowers_lowered (risk : Severity) : Lowers risk (lowered risk) := by
  cases risk with
  | critical => exact .critical
  | high => exact .high
  | medium => exact .medium
  | low => exact .other (by simp)
  | info => exact .other (by simp)
  | unknown name => exact .other (by simp)

/-- The path of a chain shows its steps. -/
theorem showsStep_path (p : Program) (c : Chain) : List.Forall₂ p.ShowsStep c.steps (p.path c) := by
  rw [path, List.forall₂_map_right_iff]
  exact List.forall₂_same.mpr fun s _ => ⟨rfl, rfl, rfl, p.hasName_functionName s.function, rfl⟩

/-- **A finding shows all of its route.** -/
theorem shows_finding (p : Program) (g : Route) : p.Shows g (p.finding g) where
  path := ⟨p.path g.chain, rfl, p.showsStep_path g.chain⟩
  hopDepth := rfl
  truncated := rfl
  severity h := if_neg (by simpa using h)
  lowered h := by
    have hlow : severityOf g.source g.sink = lowered g.sink.risk := if_pos (by simpa using h)
    show Lowers g.sink.risk (severityOf g.source g.sink)
    rw [hlow]
    exact lowers_lowered g.sink.risk
  category := rfl
  source := by simp [finding, String.isEmpty_iff]
  sink := rfl

theorem concerns_routeDiagnostic (p : Program) (g : Route) (kind : DiagnosticKind)
    (message : String) : p.Concerns g kind (p.routeDiagnostic g kind message) :=
  ⟨rfl, rfl, rfl, p.hasName_functionName g.chain.last.function⟩

/-- A diagnostic is given for each route that is not executable. -/
theorem isSome_infeasible? (p : Program) (r : Route) :
    (p.infeasible? r).isSome = (p.blockedAt? r.chain.steps).isSome := by
  rw [infeasible?, Option.isSome_map]

/-- A diagnostic is given for each route that lacks steps. -/
theorem isSome_truncation? (p : Program) (r : Route) :
    (p.truncation? r).isSome = r.chain.truncated := by
  rw [truncation?]
  split
  · next h => exact h.symm
  · next h => exact (Bool.eq_false_iff.mpr h).symm

/-- A diagnostic about a route that is dropped says between which steps control cannot pass. -/
theorem concerns_of_infeasible? {r : Route} {d : Diagnostic} (h : p.infeasible? r = some d) :
    p.Concerns r .infeasiblePath d ∧ ∃ a b, p.blockedAt? r.chain.steps = some (a, b) ∧
      d.message = s!"flow from {r.source.id} to {r.sink.id} dropped: {blockedText a b}" := by
  obtain ⟨⟨a, b⟩, hblocked, rfl⟩ := Option.map_eq_some_iff.mp h
  exact ⟨p.concerns_routeDiagnostic r _ _, a, b, hblocked, rfl⟩

theorem concerns_of_truncation? {r : Route} {d : Diagnostic} (h : p.truncation? r = some d) :
    p.Concerns r .maxDepthTruncation d ∧
      d.message = s!"path from {r.source.id} to {r.sink.id} exceeds the hop limit" := by
  rw [truncation?] at h
  split at h
  · cases h
    exact ⟨p.concerns_routeDiagnostic r _ _, rfl⟩
  · cases h

/-! ### What is picked -/

/-- The routes are those of the entries, in another order. -/
theorem routes_perm (p : Program) (best : Best (Nat × Nat)) :
    (p.routes best).Perm (best.entries.filterMap p.route?) :=
  (List.mergeSort_perm best.entries _).filterMap _

/-- With valid positions, every entry is a candidate. -/
theorem map_route? (hkeys : ∀ e ∈ best.entries, e.1.1 < p.sources.size ∧ e.1.2 < p.sinks.size) :
    best.entries.map p.route? = (best.entries.filterMap p.route?).map some := by
  rw [List.map_filterMap_some_eq_filter_map_isSome]
  refine (List.filter_eq_self.mpr fun r hr => ?_).symm
  obtain ⟨e, he, rfl⟩ := List.mem_map.mp hr
  obtain ⟨hsource, hsink⟩ := hkeys e he
  simp [route?, hsource, hsink]

/-- The routes whose chains are executable. -/
def executableRoutes (p : Program) (best : Best (Nat × Nat)) : List Route :=
  (p.routes best).filter fun f => (p.blockedAt? f.chain.steps).isNone

/-- The routes that findings show. -/
def picked (p : Program) (best : Best (Nat × Nat)) : List Route :=
  (p.executableRoutes best).foldl (fun acc f => addRoute f acc) []

theorem mem_executableRoutes {r : Route} : r ∈ p.executableRoutes best ↔
    r ∈ best.entries.filterMap p.route? ∧ p.blockedAt? r.chain.steps = none := by
  rw [executableRoutes, List.mem_filter, (routes_perm p best).mem_iff, Option.isNone_iff_eq_none]

/-- The findings are about the distinct ends of executable routes. -/
theorem ends_findings : (p.findings best).1.map Ends.ofFinding =
    firsts ((p.executableRoutes best).map Ends.ofRoute) := by
  rw [← Route.ends_foldl, findings, List.map_map]
  rfl

/-- **Findings neither lose nor repeat flows.**  For every program and all candidates at valid
positions of its sources and sinks: there is exactly one finding for all executable candidates with
the same places and categories at both ends.  All of it, its path, its hop depth, whether it lacks
steps, its severity and its ends, is that of one candidate of the group, and no chain of the group
is better.  Every other candidate gives exactly one diagnostic that it is not executable, every
finding that lacks steps gives exactly one that says so, and there are no others. -/
theorem findings_exact (p : Program) (best : Best (Nat × Nat))
    (hkeys : ∀ e ∈ best.entries, e.1.1 < p.sources.size ∧ e.1.2 < p.sinks.size) :
    ∃ candidates picked dropped, best.entries.map p.route? = candidates.map some ∧
      p.Reports candidates picked dropped (p.findings best) := by
  refine ⟨best.entries.filterMap p.route?, p.picked best,
    (p.routes best).filter fun r => (p.blockedAt? r.chain.steps).isSome, map_route? hkeys, ?_⟩
  constructor
  case findings =>
    refine List.forall₂_map_right_iff.mpr ?_
    exact List.forall₂_same.mpr fun g _ => p.shows_finding g
  case once =>
    rw [ends_findings]
    exact nodup_firsts _
  case ends =>
    intro x
    rw [ends_findings, mem_firsts, List.mem_map]
    simp only [mem_executableRoutes, and_assoc]
  case executable =>
    intro g hg
    exact mem_executableRoutes.mp ((Route.mem_of_mem_foldl hg).resolve_right List.not_mem_nil)
  case least =>
    intro g hg r hr hfree hsame
    exact Route.least_of_mem_foldl hg (mem_executableRoutes.mpr ⟨hr, hfree⟩) hsame
  case rest => exact (routes_perm p best).filter _
  case diagnostics =>
    have hdropped : List.Forall₂ (fun r d => p.infeasible? r = some d)
        ((p.routes best).filter fun r => (p.blockedAt? r.chain.steps).isSome)
        ((p.routes best).filterMap p.infeasible?) :=
      forall₂_filterMap fun r _ => p.isSome_infeasible? r
    have hcut : List.Forall₂ (fun g d => p.truncation? g = some d)
        ((p.picked best).filter fun g => g.chain.truncated)
        ((p.picked best).filterMap p.truncation?) :=
      forall₂_filterMap fun g _ => p.isSome_truncation? g
    exact ⟨_, _, rfl, hdropped.imp fun _ _ => concerns_of_infeasible?,
      hcut.imp fun _ _ => concerns_of_truncation?⟩

/-! ### A report -/

/-- Two sources at one place: a symbol of low risk, and a handler of high risk. -/
def pickedSources : List Source :=
  [{ id := "s", rule := "stdin", category := "input", symbol := "x", risk := .low,
     location := ⟨"app", 2, 0⟩ },
    { id := "h", rule := "handler", category := "input", function := "main", risk := .high,
      location := ⟨"app", 2, 0⟩ }]

/-- Two sinks at different places. -/
def pickedSinks : List Sink :=
  [{ id := "k", rule := "exec", category := "command", name := "exec", risk := .critical,
     location := ⟨"app", 22, 0⟩ },
    { id := "q", rule := "query", category := "sql", name := "query", risk := .high,
      location := ⟨"app", 23, 0⟩ }]

/-- The sample with these sources and sinks. -/
def pickedSample : Program :=
  { sample with sources := pickedSources.toArray, sinks := pickedSinks.toArray }

/-- Candidates between them: the flow of the sample; a chain between the same ends that skips the
calls and is not executable; and a chain that lacks steps. -/
def pickedCandidates : Best (Nat × Nat) where
  entries := [((1, 1), ⟨⟨.sink, 1, 0, 0, 23, "app", "query"⟩,
      [⟨.truncated, -1, -1, -1, 4, "app", "run"⟩, ⟨.source, 0, 0, 0, 2, "app", "main"⟩], 6, true⟩),
    ((1, 0), ⟨⟨.sink, 1, 0, 0, 22, "app", "exec"⟩, [⟨.source, 0, 0, 0, 2, "app", "main"⟩], 0,
      false⟩),
    ((0, 0), sampleChain)]

/-- In the sample two findings are reported.  The first one shows the symbol and the path through
`wrap` and `run`, one level below the risk of its sink, since the other candidate with its ends is
not executable; the second one lacks steps. -/
theorem findings_exact_sample :
    (∀ e ∈ pickedCandidates.entries, e.1.1 < pickedSample.sources.size ∧
        e.1.2 < pickedSample.sinks.size) ∧
      (∃ candidates picked dropped,
        pickedCandidates.entries.map pickedSample.route? = candidates.map some ∧
        pickedSample.Reports candidates picked dropped (pickedSample.findings pickedCandidates)) ∧
      (pickedSample.findings pickedCandidates).1 =
        [{ severity := .high, category := "command_injection",
           source := ⟨⟨"app", 2, 0⟩, "input", "x", "stdin", .low⟩,
           sink := ⟨⟨"app", 22, 0⟩, "command", "exec", "exec", .critical⟩,
           path := some [⟨.source, "app", 2, "main", "x"⟩, ⟨.call, "app", 3, "main", "wrap"⟩,
             ⟨.parameter, "app", 11, "wrap", "v"⟩, ⟨.ret, "app", 12, "wrap", "v"⟩,
             ⟨.assignment, "app", 3, "main", "y"⟩, ⟨.call, "app", 4, "main", "run"⟩,
             ⟨.parameter, "app", 21, "run", "cmd"⟩, ⟨.sink, "app", 22, "run", "exec"⟩],
           hopDepth := 2, truncated := false },
          { severity := .high, category := "sql_injection",
            source := ⟨⟨"app", 2, 0⟩, "input", "main", "handler", .high⟩,
            sink := ⟨⟨"app", 23, 0⟩, "sql", "query", "query", .high⟩,
            path := some [⟨.source, "app", 2, "main", "main"⟩, ⟨.truncated, "app", 4, "", "run"⟩,
              ⟨.sink, "app", 23, "run", "query"⟩],
            hopDepth := 6, truncated := true }] ∧
      (pickedSample.findings pickedCandidates).2 =
        [⟨.infeasiblePath,
            "flow from h to k dropped: source at app:2 cannot reach sink at app:22", "app", "run",
            22⟩,
          ⟨.maxDepthTruncation, "path from h to q exceeds the hop limit", "app", "run", 23⟩] := by
  have hkeys : ∀ e ∈ pickedCandidates.entries,
      e.1.1 < pickedSample.sources.size ∧ e.1.2 < pickedSample.sinks.size := by
    intro e he
    have hsizes : pickedSample.sources.size = 2 ∧ pickedSample.sinks.size = 2 := ⟨rfl, rfl⟩
    rw [hsizes.1, hsizes.2]
    revert e he
    decide
  refine ⟨hkeys, findings_exact pickedSample pickedCandidates hkeys, ?_, ?_⟩
  · rw [pickedSample, sample_eq]
    cbv
  · rw [pickedSample, sample_eq]
    cbv

end Program

end TaintFlow.Flow
