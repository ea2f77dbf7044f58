import TaintFlow.Proofs.Flow.Completeness

/-!
# Complete rounds compute the least solution

What complete rounds know is the least solution of the statement rules, neither more nor less, and
it is stable: analysing any function again gives nothing that is not known already.

## Main definitions

* `Knowledge.Exact` — what is known is what the statement rules give.
* `Knowledge.Stable` — analysing a function again gives nothing new.

## Main results

* `Program.exact_and_stable_rounds` — complete rounds are exact and stable.
-/

namespace TaintFlow.Flow

namespace Knowledge

/-- What is known is what the statement rules give: the flows from sources to sinks, the summaries
of all functions, and the parameters that receive taint. -/
structure Exact (p : Program) (k : Knowledge) : Prop where
  flows : ∀ s t, k.flows.Has (s, t) ↔ ∃ f, p.Holds (.reachesSink f (.source s) t)
  sinks : ∀ f i t, (k.snapshot.summary f).sinks.Has (i, t) ↔ p.Holds (.reachesSink f (.param i) t)
  returns : ∀ f i, (k.snapshot.summary f).returns.Has i ↔ p.Holds (.reachesReturn f (.param i))
  intrinsic : ∀ f s, (k.snapshot.summary f).intrinsic.Has s ↔ p.Holds (.reachesReturn f (.source s))
  params : ∀ f i, (k.params.getD f 0).testBit i = true ↔ p.Holds (.receives f i)

/-- Analysing a function again, against all that is known, gives nothing new: no better chain from
a source to a sink, no better chain of its summary, and no further parameter of a callee. -/
structure Stable (p : Program) (h : Nat) (k : Knowledge) (f : Nat) : Prop where
  completes : ((p.scope h k.snapshot f).analyze Budget.unlimited).1.cancelled = false
  flows : k.flows.improvedBy
    ((p.scope h k.snapshot f).analyze Budget.unlimited).1.records.flows = false
  summary : (k.snapshot.summary f).improvedBy
    ((p.scope h k.snapshot f).analyze Budget.unlimited).1.records.summary = false
  args : ∀ g i, (g, i) ∈ ((p.scope h k.snapshot f).analyze Budget.unlimited).1.records.args →
    (k.params.getD g 0).testBit i = true

variable {p : Program} {h : Nat} {k : Knowledge}

theorem UpToDate.stable {f : Nat} (hf : k.UpToDate p h f) : k.Stable p h f where
  completes := hf.1
  flows := Best.coversAll_iff_improvedBy.mp hf.2.flows
  summary := Summary.coversAll_iff_improvedBy.mp hf.2.summary
  args := hf.2.args

/-- What is derived and up to date is exact. -/
theorem Derived.exact (hp : p.WellFormed) (hd : k.Derived p h)
    (hk : ∀ f, p.canAnalyze f = true → k.UpToDate p h f) : k.Exact p where
  flows s t := by
    constructor
    · rintro ⟨c, hc⟩
      obtain ⟨f, hf⟩ := hd.flows s t c hc
      exact ⟨f, hf.holds⟩
    · rintro ⟨f, hf⟩
      exact knows_of_holds hp hk hf
  sinks f i t := by
    constructor
    · rintro ⟨c, hc⟩
      exact ((hd.snapshot.summary f).sinks i t c hc).holds
    · exact knows_of_holds hp hk
  returns f i := by
    constructor
    · rintro ⟨c, hc⟩
      exact ((hd.snapshot.summary f).returns i c hc).holds
    · exact knows_of_holds hp hk
  intrinsic f s := by
    constructor
    · rintro ⟨c, hc⟩
      exact ((hd.snapshot.summary f).intrinsic s c hc).holds
    · exact knows_of_holds hp hk
  params f i := by
    constructor
    · intro hi
      obtain ⟨c, hc⟩ := hd.snapshot.params f i hi
      exact hc.holds
    · exact knows_of_holds hp hk

end Knowledge

namespace Program

open Facts (Cache)
open Discovery (Source Sink)

/-- What complete rounds know of a well-formed program is exact. -/
theorem exact_rounds {p : Program} (hp : p.WellFormed) {h maxRounds : Nat} {b : Budget}
    (hc : (p.rounds h maxRounds b).1.incomplete = false) :
    (p.rounds h maxRounds b).1.knowledge.Exact p :=
  (derived_rounds p h maxRounds b).exact hp fun _ hf => upToDate_rounds hp hc hf

/-- **Complete rounds compute the least solution of the statement rules, and it is stable.**  This
holds of every program that is built, for every hop limit, every limit of rounds and every budget
under which the rounds complete. -/
theorem exact_and_stable_rounds (cache : Cache) (sources : List Source) (sinks : List Sink)
    (san : Sanitizers) (maxHops maxRounds : Nat) (b : Budget)
    (hc : ((build cache sources sinks san).rounds maxHops maxRounds b).1.incomplete = false) :
    let p := build cache sources sinks san
    let k := (p.rounds maxHops maxRounds b).1.knowledge
    k.Exact p ∧ ∀ f fn, p.Analyzes f fn → k.Stable p maxHops f := by
  intro p k
  have hp : p.WellFormed := wellFormed_build cache sources sinks san
  refine ⟨exact_rounds hp hc, fun f fn hf => ?_⟩
  exact (upToDate_rounds hp hc (canAnalyze_iff.mpr ⟨fn, hf⟩)).stable

/-- In the sample the rounds complete, so the flow they report is one that the rules give. -/
theorem exact_and_stable_rounds_sample :
    (sample.rounds 5 100 Budget.unlimited).1.incomplete = false ∧
      ∃ f, sample.Holds (.reachesSink f (.source 0) 0) := by
  obtain ⟨hc, hget⟩ := sample_rounds
  have hexact := (exact_and_stable_rounds sampleCache sampleSources sampleSinks
    (Sanitizers.make [] none) 5 100 Budget.unlimited hc).1
  exact ⟨hc, (hexact.flows 0 0).mp (Best.has_iff_get?.mpr ⟨sampleChain, hget⟩)⟩

end Program

end TaintFlow.Flow
