import TaintFlow.Proofs.Flow.Collections
import TaintFlow.Proofs.Flow.Executable
import TaintFlow.Proofs.Flow.LeastSolution

/-!
# The hop limit hides no flow

How many calls a chain may cross before steps are left out changes which chains are held, but not
between which sources and sinks there are any.  So it changes neither the flows nor the ends of the
findings: those are the distinct ends of all flows, by source and by sink.

## Main definitions

* `Ends` — the places and categories at the two ends of a flow.
* `Program.ends?` — the ends of a source and a sink.

## Main results

* `Program.map_ends_findings` — the findings are about the distinct ends of all flows.
* `Program.same_flows_of_hop_limits` — the flows and the ends of the findings do not depend on the
  hop limit.
-/

namespace TaintFlow.Flow

open Facts (Cache)
open Discovery (Source Sink)

/-! ### The flows of rounds -/

/-- A flow is held once. -/
theorem Program.nodup_keys_flows (p : Program) (h maxRounds : Nat) (b : Budget) :
    (p.rounds h maxRounds b).1.knowledge.flows.keys.Nodup := by
  refine p.roundsFrom_preserves h (P := fun k => k.flows.keys.Nodup) (fun k b hk => ?_) maxRounds
    (.initial p) b List.nodup_nil
  rw [round_eq]
  have hcleared : k.cleared.flows.keys.Nodup := hk
  generalize p.results h k b = rs
  generalize k.cleared = k' at hcleared
  induction rs generalizing k' with
  | nil => exact hcleared
  | cons r rs ih =>
    refine ih _ ?_
    rw [Knowledge.flows_merge]
    exact Best.nodup_keys_join hcleared _

/-! ### The ends of findings -/

/-- The places and categories at the two ends of a flow. -/
structure Ends where
  source : Facts.Location
  sourceCategory : String
  sink : Facts.Location
  sinkCategory : String
  deriving DecidableEq, Repr

namespace Ends

/-- The ends of a source and a sink. -/
def between (source : Source) (sink : Sink) : Ends :=
  ⟨source.location, source.category, sink.location, sink.category⟩

/-- The ends of a route. -/
def ofRoute (f : Route) : Ends :=
  between f.source f.sink

/-- The ends of a finding. -/
def ofFinding (f : Finding) : Ends :=
  ⟨f.source.location, f.source.category, f.sink.location, f.sink.category⟩

theorem ofRoute_eq_iff {f g : Route} : ofRoute f = ofRoute g ↔ f.sameEnds g = true := by
  rw [Route.sameEnds_iff, ofRoute, ofRoute, between, between, Ends.mk.injEq]

/-- Adding a route adds its ends. -/
theorem map_addRoute (f : Route) (gs : List Route) :
    (addRoute f gs).map ofRoute = addNew (gs.map ofRoute) (ofRoute f) := by
  induction gs with
  | nil => rfl
  | cons g gs ih =>
    rw [addRoute]
    by_cases hends : g.sameEnds f = true
    · -- whichever of the two routes stays, the ends stay
      have heq := ofRoute_eq_iff.mpr hends
      rw [if_pos hends]
      split <;> simp [addNew, heq]
    · have hne : ofRoute f ≠ ofRoute g := fun h => hends (ofRoute_eq_iff.mp h.symm)
      rw [if_neg hends, List.map_cons, ih]
      by_cases hmem : ofRoute f ∈ gs.map ofRoute
      · simp only [addNew, List.contains_iff_mem, List.map_cons, List.mem_cons, hmem, or_true,
          if_true]
      · simp only [addNew, List.contains_iff_mem, List.map_cons, List.mem_cons, hmem, hne, or_self,
          if_false, List.cons_append]

theorem map_foldl_addRoute (fs gs : List Route) :
    (fs.foldl (fun acc f => addRoute f acc) gs).map ofRoute =
      (fs.map ofRoute).foldl addNew (gs.map ofRoute) := by
  induction fs generalizing gs with
  | nil => rfl
  | cons f fs ih => rw [List.foldl_cons, ih, map_addRoute, List.map_cons, List.foldl_cons]

end Ends

namespace Program

/-- The ends of the source and the sink at two positions. -/
def ends? (p : Program) (e : Nat × Nat) : Option Ends := do
  return .between (← p.sources[e.1]?) (← p.sinks[e.2]?)

/-- The sources and sinks of flows, in the order in which they are looked at. -/
def orderedKeys (best : Best (Nat × Nat)) : List (Nat × Nat) :=
  (sortBy compareEnds best.entries).map (·.1)

theorem map_ofRoute_routes (p : Program) (best : Best (Nat × Nat)) :
    (p.routes best).map Ends.ofRoute = (orderedKeys best).filterMap p.ends? := by
  rw [routes, orderedKeys, List.map_filterMap, List.filterMap_map]
  congr 1
  funext e
  obtain ⟨⟨i, j⟩, c⟩ := e
  simp only [ends?, Function.comp_apply, bind]
  cases p.sources[i]? with
  | none => rfl
  | some src => cases p.sinks[j]? <;> rfl

/-- **The findings are about the distinct ends of all flows**, when all chains are executable. -/
theorem map_ends_findings {p : Program} {best : Best (Nat × Nat)}
    (hbest : ∀ e ∈ best.entries, p.blockedAt? e.2.steps = none) :
    (p.findings best).1.map Ends.ofFinding = firsts ((orderedKeys best).filterMap p.ends?) := by
  have hopen : (p.routes best).filter (fun f => (p.blockedAt? f.chain.steps).isNone) =
      p.routes best := by
    refine List.filter_eq_self.mpr fun f hf => ?_
    obtain ⟨i, j, hmem, -⟩ := mem_routes.mp hf
    rw [hbest _ hmem]
    rfl
  rw [findings, hopen, List.map_map, ← map_ofRoute_routes]
  exact Ends.map_foldl_addRoute (p.routes best) []

instance transCmp_compareEnds : Std.TransCmp compareEnds :=
  transCmp_then (transCmp_onKey compare fun e : (Nat × Nat) × Chain => e.1.1)
    (transCmp_onKey compare fun e : (Nat × Nat) × Chain => e.1.2)

/-- The order in which flows are looked at is that of their keys. -/
theorem orderedKeys_eq {best best' : Best (Nat × Nat)} (hnodup : best.keys.Nodup)
    (hnodup' : best'.keys.Nodup) (hkeys : ∀ e, best.Has e ↔ best'.Has e) :
    orderedKeys best = orderedKeys best' := by
  have hordered : ∀ m : Best (Nat × Nat), (orderedKeys m).Pairwise fun a b =>
      ((compare a.1 b.1).then (compare a.2 b.2)).isLE = true := by
    intro m
    exact List.pairwise_map.mpr (pairwise_sortBy compareEnds m.entries)
  have hperm : ∀ m : Best (Nat × Nat), (orderedKeys m).Perm m.keys := by
    intro m
    exact (List.mergeSort_perm m.entries _).map _
  have hsame : best.keys.Perm best'.keys := by
    refine (List.perm_ext_iff_of_nodup hnodup hnodup').mpr fun e => ?_
    rw [Best.mem_keys, Best.mem_keys]
    exact hkeys e
  refine List.Perm.eq_of_pairwise (fun a b _ _ hab hba => ?_) (hordered best) (hordered best')
    ((hperm best).trans (hsame.trans (hperm best').symm))
  -- two keys that may stand in either order are equal
  rw [Ordering.isLE_then_iff_or] at hab hba
  simp only [Nat.compare_eq_lt, Nat.compare_eq_eq, Nat.isLE_compare] at hab hba
  exact Prod.ext (by omega) (by omega)

/-- **The hop limit hides no flow.**  For every program that is built and any two hop limits under
which the rounds complete, there are flows between the same sources and sinks, and the findings
have the same ends, one by one: only the chains differ. -/
theorem same_flows_of_hop_limits (cache : Cache) (sources : List Source) (sinks : List Sink)
    (san : Sanitizers) (maxHops maxHops' maxRounds maxRounds' : Nat) (b b' : Budget)
    (hc : ((build cache sources sinks san).rounds maxHops maxRounds b).1.incomplete = false)
    (hc' : ((build cache sources sinks san).rounds maxHops' maxRounds' b').1.incomplete = false) :
    let p := build cache sources sinks san
    let flows := (p.rounds maxHops maxRounds b).1.knowledge.flows
    let flows' := (p.rounds maxHops' maxRounds' b').1.knowledge.flows
    (∀ s t, flows.Has (s, t) ↔ flows'.Has (s, t)) ∧
      (p.findings flows).1.map Ends.ofFinding = (p.findings flows').1.map Ends.ofFinding := by
  intro p flows flows'
  have hp : p.WellFormed := wellFormed_build cache sources sinks san
  -- both are what the statement rules give, and those know of no limit
  have hkeys : ∀ s t, flows.Has (s, t) ↔ flows'.Has (s, t) := by
    intro s t
    rw [(exact_rounds hp hc).flows, (exact_rounds hp hc').flows]
  have hopen : ∀ (h n : Nat) (b : Budget), ∀ e ∈ (p.rounds h n b).1.knowledge.flows.entries,
      p.blockedAt? e.2.steps = none := by
    intro h n b e he
    obtain ⟨f, hexec, -⟩ := shown_flows hp h n b he
    exact blockedAt?_eq_none hp hexec
  refine ⟨hkeys, ?_⟩
  rw [map_ends_findings (hopen maxHops maxRounds b), map_ends_findings (hopen maxHops' maxRounds' b'),
    orderedKeys_eq (p.nodup_keys_flows maxHops maxRounds b)
      (p.nodup_keys_flows maxHops' maxRounds' b') fun e => hkeys e.1 e.2]

/-- In the sample the flow crosses two calls.  With a limit of one call its chain lacks steps, and
there is a finding with the same ends. -/
theorem same_flows_of_hop_limits_sample :
    ((sample.rounds 1 100 Budget.unlimited).1.incomplete = false ∧
      ((sample.rounds 1 100 Budget.unlimited).1.knowledge.flows.get? (0, 0)).map (·.truncated) =
        some true) ∧
    (sample.rounds 1 100 Budget.unlimited).1.knowledge.flows.Has (0, 0) ∧
    (sample.findings (sample.rounds 1 100 Budget.unlimited).1.knowledge.flows).1.map
        Ends.ofFinding =
      (sample.findings (sample.rounds 5 100 Budget.unlimited).1.knowledge.flows).1.map
        Ends.ofFinding := by
  obtain ⟨hc, hget⟩ := sample_rounds
  have hcut : (sample.rounds 1 100 Budget.unlimited).1.incomplete = false ∧
      ((sample.rounds 1 100 Budget.unlimited).1.knowledge.flows.get? (0, 0)).map (·.truncated) =
        some true := by
    rw [sample_eq]
    decide +kernel
  obtain ⟨hflows, hends⟩ := same_flows_of_hop_limits sampleCache sampleSources sampleSinks
    (Sanitizers.make [] none) 1 5 100 100 Budget.unlimited Budget.unlimited hcut.1 hc
  exact ⟨hcut, (hflows 0 0).mpr (Best.has_iff_get?.mpr ⟨sampleChain, hget⟩), hends⟩

end Program

end TaintFlow.Flow
