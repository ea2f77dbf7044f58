import TaintFlow.Proofs.Flow.Depths
import TaintFlow.Proofs.Flow.Placement

/-!
# Summaries on demand

A function is analysed for those of its parameters that some call has been seen to taint, not for
all of them.  Taint is passed on by the call itself; the result of the call is taken later, by an
assignment of the same line, which reads the arguments again.  If an assignment in between has
tainted an argument, the result is asked for from a parameter that nothing has tainted, and the flow
is lost.

So there are three sets of rules: the statement rules, the exhaustive ones, by which every parameter
is tainted from the start, and the thorough ones, by which taking a result also passes on the taint
of the arguments.  The thorough rules give exactly the exhaustive flows, and where no line disturbs
the arguments of its calls, the statement rules do as well.

## Main definitions

* `Derivable` — what a set of rules gives.
* `Program.Rule`, `Program.Exhaustive`, `Program.Thorough` — the three sets of rules.
* `Program.ArgumentsFirst` — no assignment writes what a call of its line, whose result is taken
  after it, reads.

## Main results

* `Program.derivable_thorough_of_exhaustive` — what is exhaustively derived from a source, or from a
  parameter that is tainted, is thoroughly derived.
* `Program.holds_of_derivable_thorough` — with arguments first, the thorough rules give no more than
  the statement rules.
* `Program.flows_eq_exhaustive` — with arguments first, complete rounds know the exhaustive flows.
-/

namespace TaintFlow.Flow

open Facts (Cache)
open Discovery (Source Sink)

/-! ### Rules -/

/-- What a set of rules, each with its premises and its conclusion, gives. -/
inductive Derivable (rules : List Fact → Fact → Prop) : Fact → Prop where
  | infer {premises : List Fact} {fact : Fact} (hrule : rules premises fact) :
      (∀ q ∈ premises, Derivable rules q) → Derivable rules fact

namespace Derivable

variable {rules : List Fact → Fact → Prop} {q q' fact : Fact}

theorem of_nil (hrule : rules [] fact) : Derivable rules fact :=
  .infer hrule (List.forall_mem_nil _)

theorem of_one (hrule : rules [q] fact) (hq : Derivable rules q) : Derivable rules fact :=
  .infer hrule (List.forall_mem_singleton.mpr hq)

theorem of_two (hrule : rules [q, q'] fact) (hq : Derivable rules q) (hq' : Derivable rules q') :
    Derivable rules fact :=
  .infer hrule (List.forall_mem_cons.mpr ⟨hq, List.forall_mem_singleton.mpr hq'⟩)

/-- More rules give more. -/
theorem mono {rules' : List Fact → Fact → Prop}
    (hsub : ∀ premises fact, rules premises fact → rules' premises fact)
    (h : Derivable rules fact) : Derivable rules' fact := by
  induction h with
  | infer hrule _ ih => exact .infer (hsub _ _ hrule) ih

end Derivable

/-- The flows from sources to sinks that a set of rules gives. -/
def flowsBy (rules : List Fact → Fact → Prop) : Set (Nat × Nat) :=
  {e | ∃ f, Derivable rules (.reachesSink f (.source e.1) e.2)}

namespace Program

/-- The statement rules, with their premises as data. -/
inductive Rule (p : Program) : List Fact → Fact → Prop where
  | enterParam {f e i : Nat} {fn : Function} {name : String} (hf : p.Analyzes f fn)
      (he : fn.entry = some e) (hname : fn.params[i]? = some name) (hne : name ≠ "") :
      Rule p [.receives f i] (.tainted f e 0 name (.param i))
  | enterHandler {f e i : Nat} {fn : Function} {src : Source} {name : String}
      (hf : p.Analyzes f fn) (he : fn.entry = some e) (hi : i ∈ p.endpoints.getD f [])
      (hsrc : p.sources[i]? = some src) (hname : name ∈ fn.params) (hne : name ≠ "") :
      Rule p [] (.tainted f e 0 name (.source i))
  | edge {f b b' : Nat} {fn : Function} {block : Block} {x : String} {r : Root}
      (hf : p.Analyzes f fn) (hb : fn.blocks[b]? = some block) (hb' : b' ∈ block.succ) :
      Rule p [.tainted f b (p.statementsAt f b).length x r] (.tainted f b' 0 x r)
  | keep {f b pos : Nat} {line : Int} {stmt : Statement} {x : String} {r : Root}
      (hrun : p.Runs f b pos line stmt) (hx : stmt.overwrites x = false) :
      Rule p [.tainted f b pos x r] (.tainted f b (pos + 1) x r)
  | seed {f b pos i : Nat} {fn : Function} {line : Int} {slot : String} {src : Source}
      (hf : p.Analyzes f fn) (hrun : p.Runs f b pos line (.seed i slot))
      (hsrc : p.sources[i]? = some src) : Rule p [] (.tainted f b (pos + 1) slot (.source i))
  | assign {f b pos : Nat} {line : Int} {file target x : String} {names : List String}
      {calls : List Nat} {r : Root} (hrun : p.Runs f b pos line (.assign file target names calls))
      (hx : observes names x = true) :
      Rule p [.tainted f b pos x r] (.tainted f b (pos + 1) target r)
  | assignBound {f b pos i : Nat} {line : Int} {file target x : String} {names : List String}
      {calls : List Nat} {site : CallSite} {bound : Binding} {r : Root}
      (hrun : p.Runs f b pos line (.assign file target names calls)) (hi : i ∈ calls)
      (hsite : p.calls[i]? = some site) (hbound : bound ∈ site.bindings)
      (hx : observes bound.names x = true) :
      Rule p [.tainted f b pos x r, .reachesReturn site.callee (.param bound.param)]
        (.tainted f b (pos + 1) target r)
  | assignIntrinsic {f b pos i s : Nat} {fn : Function} {line : Int} {file target : String}
      {names : List String} {calls : List Nat} {site : CallSite} (hf : p.Analyzes f fn)
      (hrun : p.Runs f b pos line (.assign file target names calls)) (hi : i ∈ calls)
      (hsite : p.calls[i]? = some site) :
      Rule p [.reachesReturn site.callee (.source s)] (.tainted f b (pos + 1) target (.source s))
  | call {f b pos i : Nat} {line : Int} {site : CallSite} {bound : Binding} {x : String} {r : Root}
      (hrun : p.Runs f b pos line (.call i)) (hsite : p.calls[i]? = some site)
      (hbound : bound ∈ site.bindings) (hx : observes bound.names x = true) :
      Rule p [.tainted f b pos x r] (.receives site.callee bound.param)
  | callSink {f b pos i k : Nat} {line : Int} {site : CallSite} {bound : Binding} {x : String}
      {r : Root} (hrun : p.Runs f b pos line (.call i)) (hsite : p.calls[i]? = some site)
      (hbound : bound ∈ site.bindings) (hx : observes bound.names x = true) :
      Rule p [.tainted f b pos x r, .reachesSink site.callee (.param bound.param) k]
        (.reachesSink f r k)
  | sink {f b pos k : Nat} {line : Int} {names : List String} {snk : Sink} {x : String} {r : Root}
      (hrun : p.Runs f b pos line (.sink k names)) (hsink : p.sinks[k]? = some snk)
      (hx : observes names x = true) : Rule p [.tainted f b pos x r] (.reachesSink f r k)
  | ret {f b pos : Nat} {line : Int} {file expr x : String} {names : List String} {r : Root}
      (hrun : p.Runs f b pos line (.ret file expr names)) (hx : observes names x = true) :
      Rule p [.tainted f b pos x r] (.reachesReturn f r)

/-- The statement rules, and every parameter is tainted from the start. -/
inductive Exhaustive (p : Program) : List Fact → Fact → Prop where
  | rule {premises : List Fact} {fact : Fact} (hrule : p.Rule premises fact) :
      Exhaustive p premises fact
  | param (f i : Nat) : Exhaustive p [] (.receives f i)

/-- The statement rules, and an assignment that takes the result of a call passes on the taint that
it finds in the arguments. -/
inductive Thorough (p : Program) : List Fact → Fact → Prop where
  | rule {premises : List Fact} {fact : Fact} (hrule : p.Rule premises fact) :
      Thorough p premises fact
  | result {f b pos i : Nat} {line : Int} {file target x : String} {names : List String}
      {calls : List Nat} {site : CallSite} {bound : Binding} {r : Root}
      (hrun : p.Runs f b pos line (.assign file target names calls)) (hi : i ∈ calls)
      (hsite : p.calls[i]? = some site) (hbound : bound ∈ site.bindings)
      (hx : observes bound.names x = true) :
      Thorough p [.tainted f b pos x r] (.receives site.callee bound.param)

variable {p : Program} {premises : List Fact} {fact : Fact}

theorem Rule.holds (hrule : p.Rule premises fact) (h : ∀ q ∈ premises, p.Holds q) :
    p.Holds fact := by
  cases hrule with
  | enterParam hf he hname hne => exact .enterParam hf he hname hne (h _ List.mem_cons_self)
  | enterHandler hf he hi hsrc hname hne => exact .enterHandler hf he hi hsrc hname hne
  | edge hf hb hb' => exact .edge hf hb hb' (h _ List.mem_cons_self)
  | keep hrun hx => exact .keep hrun hx (h _ List.mem_cons_self)
  | seed hf hrun hsrc => exact .seed hf hrun hsrc
  | assign hrun hx => exact .assign hrun hx (h _ List.mem_cons_self)
  | assignBound hrun hi hsite hbound hx =>
    obtain ⟨hold, hret⟩ := List.forall_mem_cons.mp h
    exact .assignBound hrun hi hsite hbound hx hold (hret _ List.mem_cons_self)
  | assignIntrinsic hf hrun hi hsite =>
    exact .assignIntrinsic hf hrun hi hsite (h _ List.mem_cons_self)
  | call hrun hsite hbound hx => exact .call hrun hsite hbound hx (h _ List.mem_cons_self)
  | callSink hrun hsite hbound hx =>
    obtain ⟨hold, hsink⟩ := List.forall_mem_cons.mp h
    exact .callSink hrun hsite hbound hx hold (hsink _ List.mem_cons_self)
  | sink hrun hsink hx => exact .sink hrun hsink hx (h _ List.mem_cons_self)
  | ret hrun hx => exact .ret hrun hx (h _ List.mem_cons_self)

theorem derivable_of_holds (h : p.Holds fact) : Derivable p.Rule fact := by
  induction h with
  | enterParam hf he hname hne _ ih => exact .of_one (.enterParam hf he hname hne) ih
  | enterHandler hf he hi hsrc hname hne => exact .of_nil (.enterHandler hf he hi hsrc hname hne)
  | edge hf hb hb' _ ih => exact .of_one (.edge hf hb hb') ih
  | keep hrun hx _ ih => exact .of_one (.keep hrun hx) ih
  | seed hf hrun hsrc => exact .of_nil (.seed hf hrun hsrc)
  | assign hrun hx _ ih => exact .of_one (.assign hrun hx) ih
  | assignBound hrun hi hsite hbound hx _ _ ih ihr =>
    exact .of_two (.assignBound hrun hi hsite hbound hx) ih ihr
  | assignIntrinsic hf hrun hi hsite _ ih => exact .of_one (.assignIntrinsic hf hrun hi hsite) ih
  | call hrun hsite hbound hx _ ih => exact .of_one (.call hrun hsite hbound hx) ih
  | callSink hrun hsite hbound hx _ _ ih ihk =>
    exact .of_two (.callSink hrun hsite hbound hx) ih ihk
  | sink hrun hsink hx _ ih => exact .of_one (.sink hrun hsink hx) ih
  | ret hrun hx _ ih => exact .of_one (.ret hrun hx) ih

/-- **The statement rules as data give what holds.** -/
theorem derivable_rule_iff : Derivable p.Rule fact ↔ p.Holds fact := by
  refine ⟨fun h => ?_, derivable_of_holds⟩
  induction h with
  | infer hrule _ ih => exact hrule.holds ih

/-! ### Exhaustive and thorough rules -/

/-- A root that is tainted by the thorough rules: a source, or a parameter that receives taint. -/
def Live (p : Program) (f : Nat) : Root → Prop
  | .source _ => True
  | .param i => Derivable p.Thorough (.receives f i)

/-- The facts that the thorough rules are to give: those of live roots. -/
def Wanted (p : Program) : Fact → Prop
  | .tainted f _ _ _ r => p.Live f r
  | .receives f i => Derivable p.Thorough (.receives f i)
  | .reachesSink f r _ => p.Live f r
  | .reachesReturn f r => p.Live f r

/-- One rule: if its conclusion is wanted, so is its first premise, and where there is a second one,
the first one makes it wanted as well. -/
theorem Rule.derivable_thorough (hrule : p.Rule premises fact) (hw : p.Wanted fact)
    (ih : ∀ q ∈ premises, p.Wanted q → Derivable p.Thorough q) : Derivable p.Thorough fact := by
  have ih₁ {q : Fact} {qs : List Fact} (hqs : premises = q :: qs) :
      p.Wanted q → Derivable p.Thorough q :=
    ih q (hqs ▸ List.mem_cons_self)
  have ih₂ {q q' : Fact} (hqs : premises = [q, q']) : p.Wanted q' → Derivable p.Thorough q' :=
    ih q' (hqs ▸ List.mem_cons_of_mem _ List.mem_cons_self)
  have hrule' := Thorough.rule hrule
  cases hrule with
  | enterHandler | seed => exact .of_nil hrule'
  | enterParam | edge | keep | assign | sink | ret => exact .of_one hrule' (ih₁ rfl hw)
  | assignIntrinsic => exact .of_one hrule' (ih₁ rfl trivial)
  | call => exact hw
  | assignBound hrun hi hsite hbound hx =>
    -- taking the result taints the parameter
    have hold := ih₁ rfl hw
    have hreceives := Derivable.of_one (.result hrun hi hsite hbound hx) hold
    exact .of_two hrule' hold (ih₂ rfl hreceives)
  | callSink hrun hsite hbound hx =>
    -- the call taints the parameter
    have hold := ih₁ rfl hw
    have hreceives := Derivable.of_one (.rule (.call hrun hsite hbound hx)) hold
    exact .of_two hrule' hold (ih₂ rfl hreceives)

/-- **What is exhaustively derived from a live root is thoroughly derived.** -/
theorem derivable_thorough_of_exhaustive (h : Derivable p.Exhaustive fact) (hw : p.Wanted fact) :
    Derivable p.Thorough fact := by
  induction h with
  | infer hrule _ ih =>
    cases hrule with
    | rule hrule => exact hrule.derivable_thorough hw ih
    | param f i => exact hw

/-- What is thoroughly derived is exhaustively derived. -/
theorem derivable_exhaustive_of_thorough (h : Derivable p.Thorough fact) :
    Derivable p.Exhaustive fact := by
  induction h with
  | infer hrule _ ih =>
    cases hrule with
    | rule hrule => exact .infer (.rule hrule) ih
    | result => exact .of_nil (.param _ _)

theorem flowsBy_exhaustive (p : Program) : flowsBy p.Exhaustive = flowsBy p.Thorough := by
  ext e
  constructor
  · rintro ⟨f, hf⟩
    exact ⟨f, derivable_thorough_of_exhaustive hf trivial⟩
  · rintro ⟨f, hf⟩
    exact ⟨f, derivable_exhaustive_of_thorough hf⟩

end Program

/-! ### Arguments that no line disturbs -/

/-- The slots that a statement writes. -/
def Statement.targets : Statement → List String
  | .assign _ target _ _ => [target]
  | _ => []

/-- The calls whose results a statement takes. -/
def Statement.results : Statement → List Nat
  | .assign _ _ _ calls => calls
  | _ => []

namespace Program

variable {p : Program}

/-- Whatever the first of two statements of a line writes, no call whose result the second one takes
has an argument that reads it. -/
def Undisturbed (p : Program) (q q' : Placed) : Prop :=
  q.line = q'.line → ∀ target ∈ q.statement.targets, ∀ i ∈ q'.statement.results,
    ∀ names ∈ p.argumentNames i, observes names target = false

instance (p : Program) (q q' : Placed) : Decidable (p.Undisturbed q q') :=
  inferInstanceAs (Decidable (q.line = q'.line → _))

/-- No assignment writes what an argument reads of a call of its line whose result is taken after
it: the call has found its arguments as they are when its result is taken. -/
def ArgumentsFirst (p : Program) : Prop :=
  ∀ blocks ∈ p.statements.toList, ∀ qs ∈ blocks.toList, qs.Pairwise p.Undisturbed

theorem ArgumentsFirst.pairwise (hargs : p.ArgumentsFirst) (f b : Nat) :
    (p.statementsAt f b).Pairwise p.Undisturbed := by
  rw [statementsAt, Array.getD_eq_getD_getElem?, Array.getD_eq_getD_getElem?]
  cases hf : p.statements[f]? with
  | none => simp
  | some blocks =>
    rw [Option.getD_some]
    cases hb : blocks[b]? with
    | none => simp
    | some qs =>
      exact hargs blocks (Array.mem_toList_iff.mpr (Array.mem_of_getElem? hf)) qs
        (Array.mem_toList_iff.mpr (Array.mem_of_getElem? hb))

theorem ArgumentsFirst.undisturbed (hargs : p.ArgumentsFirst) {f b pos pos' : Nat}
    {line line' : Int} {stmt stmt' : Statement} (hrun : p.Runs f b pos line stmt)
    (hrun' : p.Runs f b pos' line' stmt') (hlt : pos < pos') :
    p.Undisturbed ⟨line, stmt⟩ ⟨line', stmt'⟩ := by
  obtain ⟨hpos, heq⟩ := List.getElem?_eq_some_iff.mp hrun
  obtain ⟨hpos', heq'⟩ := List.getElem?_eq_some_iff.mp hrun'
  rw [← heq, ← heq']
  exact List.pairwise_iff_getElem.mp (hargs.pairwise f b) pos pos' hpos hpos' hlt

/-- Slots are only tainted in functions that can be analysed. -/
theorem Holds.analyzes {f b pos : Nat} {x : String} {r : Root}
    (h : p.Holds (.tainted f b pos x r)) : ∃ fn, p.Analyzes f fn := by
  generalize hfact : Fact.tainted f b pos x r = fact at h
  induction h generalizing b pos x r with
  | enterParam hf | enterHandler hf | edge hf | seed hf | assignIntrinsic hf =>
    cases hfact
    exact ⟨_, hf⟩
  | keep _ _ _ ih | assign _ _ _ ih | assignBound _ _ _ _ _ _ _ ih =>
    cases hfact
    exact ih rfl
  | call | callSink | sink | ret => cases hfact

section

variable {cache : Cache} {sources : List Source} {sinks : List Sink} {san : Sanitizers}

/-- **With arguments first, taking a result passes on no taint that the call has not passed on.** -/
theorem receives_of_result (hargs : (build cache sources sinks san).ArgumentsFirst)
    {f b pos i : Nat} {line : Int} {file target x : String} {names : List String}
    {calls : List Nat} {site : CallSite} {bound : Binding} {r : Root}
    (hrun : (build cache sources sinks san).Runs f b pos line (.assign file target names calls))
    (hi : i ∈ calls) (hsite : (build cache sources sinks san).calls[i]? = some site)
    (hbound : bound ∈ site.bindings) (hx : observes bound.names x = true)
    (hold : (build cache sources sinks san).Holds (.tainted f b pos x r)) :
    (build cache sources sinks san).Holds (.receives site.callee bound.param) := by
  have hp := wellFormed_build cache sources sinks san
  obtain ⟨fn, hf⟩ := hold.analyzes
  obtain ⟨pos', hlt, hcall⟩ := exists_call_before hrun hi
  have hpos : pos ≤ ((build cache sources sinks san).statementsAt f b).length :=
    (List.getElem?_eq_some_iff.mp hrun).1.le
  refine .call hcall hsite hbound hx (tainted_of_ge hf hlt.le hpos ?_ hold)
  -- what stands between the call and the assignment does not put anything into the slot
  intro q lineq stmtq hq hq' hrunq hputs
  have hline : lineq = line :=
    (hp.line_le_of_le hrunq hrun hq'.le).antisymm (hp.line_le_of_le hcall hrunq hq)
  cases stmtq with
  | seed j slot =>
    -- on one line seeds come before calls
    rw [hline] at hrunq
    have hlt := hp.lt_of_rank_lt hrunq hcall (by simp [Statement.rank])
    exact absurd hq (Nat.not_le_of_lt hlt)
  | assign file' target' names' calls' =>
    obtain ⟨rfl, -⟩ := hputs
    have hnot := hargs.undisturbed hrunq hrun hq' hline x (List.mem_singleton_self x) i hi
      bound.names (mem_argumentNames hsite hbound)
    rw [hnot] at hx
    cases hx
  | call | sink | ret => exact hputs

/-- With arguments first, the thorough rules give no more than the statement rules. -/
theorem holds_of_derivable_thorough (hargs : (build cache sources sinks san).ArgumentsFirst)
    {fact : Fact} (h : Derivable (build cache sources sinks san).Thorough fact) :
    (build cache sources sinks san).Holds fact := by
  induction h with
  | infer hrule _ ih =>
    cases hrule with
    | rule hrule => exact hrule.holds ih
    | result hrun hi hsite hbound hx =>
      exact receives_of_result hargs hrun hi hsite hbound hx (ih _ List.mem_cons_self)

end

/-- **Summaries on demand lose no flow if arguments come first.**  Complete rounds know the flows of
the statement rules, which are among the exhaustive ones.  The exhaustive flows are those of the
rules by which an assignment that takes the result of a call passes on the taint of the arguments,
as the call itself does.  If no line disturbs the arguments of its calls, complete rounds know all
of them. -/
theorem flows_eq_exhaustive (cache : Cache) (sources : List Source) (sinks : List Sink)
    (san : Sanitizers) (maxHops maxRounds : Nat) (b : Budget)
    (hc : ((build cache sources sinks san).rounds maxHops maxRounds b).1.incomplete = false) :
    let p := build cache sources sinks san
    let known := {e | (p.rounds maxHops maxRounds b).1.knowledge.flows.Has e}
    known = flowsBy p.Rule ∧ known ⊆ flowsBy p.Exhaustive ∧
      flowsBy p.Exhaustive = flowsBy p.Thorough ∧
      (p.ArgumentsFirst → known = flowsBy p.Exhaustive) := by
  intro p known
  have hknown : known = flowsBy p.Rule := by
    ext ⟨s, t⟩
    have hexact := (exact_rounds (wellFormed_build cache sources sinks san) hc).flows s t
    simp only [known, flowsBy, Set.mem_ofPred_eq, derivable_rule_iff]
    exact hexact
  have hsub : known ⊆ flowsBy p.Exhaustive := by
    rw [hknown]
    rintro e ⟨f, hf⟩
    exact ⟨f, hf.mono fun _ _ => .rule⟩
  refine ⟨hknown, hsub, flowsBy_exhaustive p, fun hargs => hsub.antisymm ?_⟩
  rw [flowsBy_exhaustive, hknown]
  rintro e ⟨f, hf⟩
  exact ⟨f, derivable_rule_iff.mpr (holds_of_derivable_thorough hargs hf)⟩

/-- In the sample the call of `wrap` finds its argument tainted, and nothing writes it before the
result is taken: the flow that the rounds find is all there is. -/
theorem flows_eq_exhaustive_sample :
    (sample.rounds 5 100 Budget.unlimited).1.incomplete = false ∧ sample.ArgumentsFirst ∧
      (0, 0) ∈ flowsBy sample.Exhaustive ∧
      {e | (sample.rounds 5 100 Budget.unlimited).1.knowledge.flows.Has e} =
        flowsBy sample.Exhaustive := by
  obtain ⟨hc, hget⟩ := sample_rounds
  have hargs : sample.ArgumentsFirst := by
    rw [sample_eq, ArgumentsFirst]
    decide +kernel
  obtain ⟨-, hsub, -, heq⟩ := flows_eq_exhaustive sampleCache sampleSources sampleSinks
    (Sanitizers.make [] none) 5 100 Budget.unlimited hc
  exact ⟨hc, hargs, hsub (Best.has_iff_get?.mpr ⟨sampleChain, hget⟩), heq hargs⟩

end Program

/-! ### A call whose argument is assigned on its line

`main` reads an untrusted value into `x`, assigns it to `a` and passes it through `wrap` into `y`,
all in one line, and executes `y`. -/

/-- The facts of the relay. -/
def relayCache : Cache where
  tables := [
    .ofRows Schema.cfgBlocks [
      ⟨[.int 1, .text "app", .text "main", .text "entry", .int 1, .int 9, .null]⟩,
      ⟨[.int 2, .text "app", .text "main", .text "exit", .int 9, .int 9, .null]⟩,
      ⟨[.int 3, .text "app", .text "wrap", .text "entry", .int 11, .int 19, .null]⟩,
      ⟨[.int 4, .text "app", .text "wrap", .text "exit", .int 19, .int 19, .null]⟩],
    .ofRows Schema.cfgEdges [
      ⟨[.int 1, .text "app", .text "main", .int 1, .int 2, .text "normal"]⟩,
      ⟨[.int 2, .text "app", .text "wrap", .int 3, .int 4, .text "normal"]⟩],
    .ofRows Schema.funcParams [⟨[.text "app", .text "wrap", .int 0, .text "v"]⟩],
    .ofRows Schema.functionCallArgs [
      ⟨[.text "app", .int 3, .text "main", .text "wrap", .int 0, .text "a", .null, .null]⟩],
    .ofRows Schema.assignments [
      ⟨[.text "app", .int 3, .text "a", .text "x", .text "main", .null]⟩,
      ⟨[.text "app", .int 3, .text "y", .text "wrap(a)", .text "main", .null]⟩],
    .ofRows Schema.functionReturns [
      ⟨[.text "app", .int 12, .text "wrap", .text "v", .bool false, .bool false, .null]⟩]]

/-- The sink of the relay. -/
def relaySinks : List Sink :=
  [{ id := "k", name := "exec", args := ["y"], location := ⟨"app", 4, 0⟩ }]

/-- The relay as a program. -/
def relay : Program :=
  Program.build relayCache sampleSources relaySinks (Sanitizers.make [] none)

theorem relayCache_facts :
    relayCache.blocks = [⟨1, "app", "main", "entry", 1, 9⟩, ⟨2, "app", "main", "exit", 9, 9⟩,
      ⟨3, "app", "wrap", "entry", 11, 19⟩, ⟨4, "app", "wrap", "exit", 19, 19⟩] ∧
    relayCache.edges = [⟨1, "app", "main", 1, 2⟩, ⟨2, "app", "wrap", 3, 4⟩] ∧
    relayCache.parameters = [⟨"app", "wrap", 0, "v"⟩] ∧
    relayCache.callArguments = [⟨"app", 3, "main", "wrap", some 0, some "a", none, none⟩] ∧
    relayCache.assignments = [⟨"app", 3, "a", "x", "main"⟩, ⟨"app", 3, "y", "wrap(a)", "main"⟩] ∧
    relayCache.assignmentSources = [] ∧
    relayCache.returns = [⟨"app", 12, "wrap", "v"⟩] ∧
    relayCache.returnSources = [] := by
  decide +kernel

/-- The functions of the relay. -/
def relayCode : Code :=
  ⟨#[sampleFunction "main" 1 1 9 [], sampleFunction "wrap" 3 11 19 [("v", 0)]]⟩

theorem ofCache_relayCache : Code.ofCache relayCache = relayCode := by
  obtain ⟨hb, he, hp, -⟩ := relayCache_facts
  unfold Code.ofCache Code.keys buildFunction
  rw [hb, he, hp]
  cbv

/-- **The relay, written out.** -/
theorem relay_eq : relay =
    { code := relayCode, sources := sampleSources.toArray, sinks := relaySinks.toArray,
      calls := #[⟨0, 1, "app", 3, "wrap", [⟨0, "a", ["a"]⟩]⟩],
      statements := #[
        #[[⟨2, .seed 0 "x"⟩, ⟨3, .call 0⟩, ⟨3, .assign "app" "a" ["x"] []⟩,
          ⟨3, .assign "app" "y" [] [0]⟩, ⟨4, .sink 0 ["y"]⟩], []],
        #[[⟨12, .ret "app" "v" ["v"]⟩], []]],
      endpoints := #[[], []], links := [(0, 1)], diagnostics := [] } := by
  obtain ⟨-, -, -, hc, ha, has, hr, hrs⟩ := relayCache_facts
  unfold relay Program.build assignPlacement? returnPlacement? sinkPlacement? recordedSources
    recordedReturns sinkHint
  rw [ofCache_relayCache, hc, ha, has, hr, hrs, Program.mk.injEq]
  refine ⟨rfl, rfl, rfl, by decide +kernel, ?_, by decide +kernel, by decide +kernel,
    by decide +kernel⟩
  -- the statements as they were recorded, then in the order of evaluation
  trans arrange relayCode [⟨⟨0, 0⟩, ⟨2, .seed 0 "x"⟩⟩, ⟨⟨0, 0⟩, ⟨3, .call 0⟩⟩,
    ⟨⟨0, 0⟩, ⟨4, .sink 0 ["y"]⟩⟩, ⟨⟨0, 0⟩, ⟨3, .assign "app" "a" ["x"] []⟩⟩,
    ⟨⟨0, 0⟩, ⟨3, .assign "app" "y" [] [0]⟩⟩, ⟨⟨1, 0⟩, ⟨12, .ret "app" "v" ["v"]⟩⟩]
  · congr 1
    decide +kernel
  · cbv

namespace Program

/-- In the relay the value gets into `y` if `wrap` is analysed for its parameter. -/
theorem relay_derivable : Derivable relay.Exhaustive (.reachesSink 0 (.source 0) 0) := by
  have hmain : relay.Analyzes 0 (sampleFunction "main" 1 1 9 []) := by
    rw [relay_eq]
    exact ⟨rfl, rfl⟩
  have hwrap : relay.Analyzes 1 (sampleFunction "wrap" 3 11 19 [("v", 0)]) := by
    rw [relay_eq]
    exact ⟨rfl, rfl⟩
  obtain ⟨hseed, hcall, hassign, htake, hsink, hret⟩ :
      relay.Runs 0 0 0 2 (.seed 0 "x") ∧ relay.Runs 0 0 1 3 (.call 0) ∧
      relay.Runs 0 0 2 3 (.assign "app" "a" ["x"] []) ∧
      relay.Runs 0 0 3 3 (.assign "app" "y" [] [0]) ∧ relay.Runs 0 0 4 4 (.sink 0 ["y"]) ∧
      relay.Runs 1 0 0 12 (.ret "app" "v" ["v"]) := by
    rw [relay_eq]
    exact ⟨rfl, rfl, rfl, rfl, rfl, rfl⟩
  have hsite : relay.calls[0]? = some ⟨0, 1, "app", 3, "wrap", [⟨0, "a", ["a"]⟩]⟩ := by
    rw [relay_eq]
    rfl
  -- in `main` up to the call
  have hx : Derivable relay.Exhaustive (.tainted 0 0 1 "x" (.source 0)) :=
    .of_nil (.rule (.seed hmain hseed rfl))
  have hx' : Derivable relay.Exhaustive (.tainted 0 0 2 "x" (.source 0)) :=
    .of_one (.rule (.keep hcall rfl)) hx
  have ha : Derivable relay.Exhaustive (.tainted 0 0 3 "a" (.source 0)) :=
    .of_one (.rule (.assign hassign (by decide))) hx'
  -- in `wrap`
  have hv : Derivable relay.Exhaustive (.tainted 1 0 0 "v" (.param 0)) :=
    .of_one (.rule (.enterParam hwrap rfl rfl (by decide))) (.of_nil (.param 1 0))
  have hv' : Derivable relay.Exhaustive (.reachesReturn 1 (.param 0)) :=
    .of_one (.rule (.ret hret (by decide))) hv
  -- and from the result to the sink
  have hy : Derivable relay.Exhaustive (.tainted 0 0 4 "y" (.source 0)) :=
    .of_two (.rule (.assignBound htake (List.mem_singleton_self 0) hsite
      (List.mem_singleton_self _) (by decide))) ha hv'
  exact .of_one (.rule (.sink hsink rfl (by decide))) hy

/-- In the relay the call of `wrap` finds its argument untainted, so `wrap` is never analysed for
its parameter: the rounds complete without the flow that exhaustive summaries give. -/
theorem exhaustive_flow_lost :
    (relay.rounds 5 100 Budget.unlimited).1.incomplete = false ∧
      ¬ (relay.rounds 5 100 Budget.unlimited).1.knowledge.flows.Has (0, 0) ∧
      (0, 0) ∈ flowsBy relay.Exhaustive := by
  have hrounds : (relay.rounds 5 100 Budget.unlimited).1.incomplete = false ∧
      ¬ (relay.rounds 5 100 Budget.unlimited).1.knowledge.flows.Has (0, 0) := by
    rw [relay_eq, Best.has_iff_get?, ← Option.isSome_iff_exists]
    decide +kernel
  exact ⟨hrounds.1, hrounds.2, 0, relay_derivable⟩

end Program

end TaintFlow.Flow
