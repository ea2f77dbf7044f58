import Mathlib.Data.List.Chain
import TaintFlow.Flow.Findings
import TaintFlow.Proofs.Flow.Chains
import TaintFlow.Proofs.Flow.Soundness
import TaintFlow.Proofs.Flow.WellFormed

/-!
# Every chain is executable

Control can pass along every chain that is derived by the rules of the analysis.  The invariant
ties a chain to a place in the code: its last step lies where control reaches that place from, and
a chain that stems from a parameter starts at the entry of its function.  So a chain of a callee
can be entered from a call, and left into the assignment that takes its result.

## Main definitions

* `Program.Follows` — control passes from one step to another.
* `Program.Executable` — control passes along all steps, but for where steps were left out.
* `Step.Precedes` — control reaches a place from a step.
* `Fact.Shown` — what a chain shows when it is derived for a fact.

## Main results

* `Program.blockedAt?_eq_none` — the check of chains accepts executable ones.
* `Program.Derives.shown` — derived chains are executable.
* `Program.executable_of_derived` — the chains of derived flows are executable, none is dropped.
-/

namespace TaintFlow.Flow

open Relation (TransGen)

/-- The function of a step. -/
def Step.In (p : Program) (s : Step) (f : Nat) (fn : Function) : Prop :=
  s.function = f ∧ p.function? f = some fn

namespace Program

/-- Control passes from step `a` to step `b`. -/
inductive Follows (p : Program) (a b : Step) : Prop where
  /-- A call enters a function that is linked as its callee. -/
  | enter {f g e : Nat} {fn gn : Function} (ha : a.In p f fn) (hb : b.In p g gn)
      (hcall : a.kind = .call) (hparam : b.kind = .parameter) (hlink : p.called f g = true)
      (he : gn.entry = some e) (hentry : b.block = e)
  /-- A return leaves a function into an assignment of a function that is linked as its caller. -/
  | leave {f g : Nat} {fn gn : Function} (ha : a.In p g gn) (hb : b.In p f fn)
      (hret : a.kind = .ret) (hassign : b.kind = .assignment) (hlink : p.called f g = true)
  /-- Control passes on in a block, or along a path of the control-flow graph. -/
  | within {f m n : Nat} {fn : Function} (ha : a.In p f fn) (hb : b.In p f fn)
      (hkind : b.kind ≠ .parameter ∨ a.kind ≠ .call) (hm : a.block = m) (hn : b.block = n)
      (hpath : m = n ∧ a.position < b.position ∨ TransGen fn.Edge m n)

/-- Control passes from one step to the next, or steps were left out between them. -/
def Joins (p : Program) (a b : Step) : Prop :=
  a.kind = .truncated ∨ b.kind = .truncated ∨ p.Follows a b

/-- Control passes along all steps, oldest first, but for where steps were left out. -/
def Executable (p : Program) (steps : List Step) : Prop :=
  steps.IsChain p.Joins

/-! ### The check of chains -/

theorem functionAt?_of_in {p : Program} {s : Step} {f : Nat} {fn : Function} (h : s.In p f fn) :
    p.functionAt? s.function = some (f, fn) := by
  obtain ⟨hf, hfn⟩ := h
  simp [functionAt?, hf, hfn]

theorem passes_of_follows {p : Program} (hp : p.WellFormed) {a b : Step} (h : p.Follows a b) :
    p.passes a b = true := by
  cases h with
  | enter ha hb hcall hparam hlink he hentry =>
    simp [passes, functionAt?_of_in ha, functionAt?_of_in hb, hcall, hparam, hlink, isEntryOf, he,
      hentry]
  | leave ha hb hret hassign hlink =>
    simp [passes, functionAt?_of_in ha, functionAt?_of_in hb, hret, hassign, hlink]
  | @within f m n fn ha hb hkind hm hn hpath =>
    have hsound := hp.functions f fn ha.2
    have hwithin : passesWithin fn a b = true := by
      simp only [passesWithin, hm, hn, Int.toNat_natCast, beq_iff_eq, Int.natCast_inj]
      rcases hpath with ⟨rfl, hpos⟩ | hpath
      · simp [hpos]
      · split
        · next heq => subst heq; simp [hsound.reaches_iff.mpr hpath]
        · exact hsound.reaches_iff.mpr hpath
    have hnot : (a.kind == .call && b.kind == .parameter) = false := by
      rcases hkind with hkind | hkind <;> simp [hkind]
    simp [passes, functionAt?_of_in ha, functionAt?_of_in hb, hnot, hwithin]

/-- The check of chains accepts executable ones. -/
theorem blockedAt?_eq_none {p : Program} (hp : p.WellFormed) {steps : List Step}
    (h : p.Executable steps) : p.blockedAt? steps = none := by
  induction steps with
  | nil => rfl
  | cons a steps ih =>
    cases steps with
    | nil => rfl
    | cons b steps =>
      obtain ⟨hjoin, hrest⟩ := List.isChain_cons_cons.mp h
      have hok : (a.kind == .truncated || b.kind == .truncated || p.passes a b) = true := by
        rcases hjoin with hjoin | hjoin | hjoin
        · simp [hjoin]
        · simp [hjoin]
        · simp [passes_of_follows hp hjoin]
      rw [blockedAt?, if_pos hok]
      exact ih hrest

/-! ### Longer chains -/

section

variable {p : Program} {c tail : Chain} {s call : Step}

theorem Executable.push (hc : p.Executable c.steps) (hs : p.Joins c.last s) :
    p.Executable (c.push s).steps := by
  rw [Executable, Chain.steps_push, List.isChain_append]
  refine ⟨hc, .singleton s, fun x hx y hy => ?_⟩
  rw [Chain.getLast?_steps] at hx
  cases hx
  cases hy
  exact hs

/-- A chain may go on from a call into a chain of the callee that the call enters. -/
theorem Executable.compose (scope : Scope) (hc : p.Executable c.steps)
    (hcall : p.Joins c.last call) (htail : p.Executable tail.steps)
    (henter : p.Joins call tail.first) : p.Executable (scope.compose c call tail).steps := by
  have hpush := hc.push hcall
  rw [Chain.steps_push] at hpush
  rcases scope.compose_cases c call tail with ⟨-, hsteps, -⟩ | ⟨-, hsteps, -⟩
  · rw [hsteps, List.append_cons]
    refine List.isChain_append.mpr ⟨hpush, htail, fun x hx y hy => ?_⟩
    rw [Chain.head?_steps] at hy
    cases hy
    rw [List.getLast?_concat] at hx
    cases hx
    exact henter
  · rw [hsteps, List.append_cons]
    -- control passes to and from a mark of left out steps anyway
    refine List.isChain_append.mpr ⟨hpush, ?_, fun x _ y hy => ?_⟩
    · exact List.isChain_cons_cons.mpr ⟨Or.inl rfl, .singleton _⟩
    · cases hy
      exact Or.inr (Or.inl rfl)

theorem Executable.lift (scope : Scope) (site : CallSite) (htail : p.Executable tail.steps) :
    p.Executable (scope.lift tail site).steps := by
  rcases scope.lift_cases tail site with ⟨-, hsteps, -⟩ | ⟨-, hsteps, -⟩
  · rw [hsteps]
    exact htail
  · rw [hsteps]
    refine List.isChain_cons_cons.mpr ⟨Or.inr (Or.inl rfl), ?_⟩
    exact List.isChain_cons_cons.mpr ⟨Or.inl rfl, .singleton _⟩

end

end Program

/-! ### Places -/

/-- Control reaches a position of a block of a function from a step. -/
structure Step.Precedes (p : Program) (s : Step) (f b pos : Nat) (fn : Function) : Prop where
  inside : s.In p f fn
  place : ∃ m : Nat, s.block = m ∧ (m = b ∧ s.position < pos ∨ TransGen fn.Edge m b)

/-- A step is where taint of a root arises: at the location of the source, or at the entry block of
the function that has the parameter. -/
def Step.Enters (p : Program) (s : Step) (f : Nat) : Root → Prop
  | .source i => s.kind = .source ∧ ∃ src, p.sources[i]? = some src ∧
    s.file = src.location.file ∧ s.line = src.location.line
  | .param _ => s.kind = .parameter ∧ ∃ fn, s.In p f fn ∧ ∃ e, fn.entry = some e ∧ s.block = e

namespace Step

variable {p : Program} {s : Step} {f b pos : Nat} {fn : Function}

theorem Precedes.edge {b' : Nat} (h : s.Precedes p f b pos fn) (hedge : fn.Edge b b') :
    s.Precedes p f b' 0 fn := by
  obtain ⟨m, hm, hplace⟩ := h.place
  refine ⟨h.inside, m, hm, Or.inr ?_⟩
  rcases hplace with ⟨rfl, -⟩ | hpath
  · exact .single hedge
  · exact .tail hpath hedge

theorem Precedes.next (h : s.Precedes p f b pos fn) : s.Precedes p f b (pos + 1) fn := by
  obtain ⟨m, hm, hplace⟩ := h.place
  refine ⟨h.inside, m, hm, ?_⟩
  rcases hplace with ⟨rfl, hpos⟩ | hpath
  · exact Or.inl ⟨rfl, by omega⟩
  · exact Or.inr hpath

/-- The step of a statement precedes the place after it. -/
theorem precedes_stepAt (h : Nat) (hfn : p.function? f = some fn) (line : Int) (kind : StepKind)
    (file detail : String) :
    ((p.bare h f).stepAt b pos line kind file detail).Precedes p f b (pos + 1) fn := by
  refine ⟨⟨rfl, hfn⟩, b, rfl, Or.inl ⟨rfl, ?_⟩⟩
  show (pos : Int) < ((pos + 1 : Nat) : Int)
  omega

/-- Control passes from a step to the statement at the place it precedes. -/
theorem Precedes.joins (hs : s.Precedes p f b pos fn) (h : Nat) (line : Int) {kind : StepKind}
    (hkind : kind ≠ .parameter) (file detail : String) :
    p.Joins s ((p.bare h f).stepAt b pos line kind file detail) := by
  obtain ⟨m, hm, hplace⟩ := hs.place
  exact Or.inr (Or.inr (.within hs.inside ⟨rfl, hs.inside.2⟩ (Or.inl hkind) hm rfl hplace))

end Step

/-! ### Derived chains -/

/-- What a chain shows when it is derived for a fact: control passes along it, it starts where the
root arises, and it ends before the place that is tainted, at the sink, or at the return. -/
def Fact.Shown (p : Program) (c : Chain) : Fact → Prop
  | .tainted f b pos _ r =>
    p.Executable c.steps ∧ c.first.Enters p f r ∧
      ∃ fn, p.Analyzes f fn ∧ c.last.Precedes p f b pos fn
  | .receives _ _ => True
  | .reachesSink f r k =>
    p.Executable c.steps ∧ c.first.Enters p f r ∧ c.last.kind = .sink ∧
      ∃ snk, p.sinks[k]? = some snk ∧ c.last.file = snk.location.file ∧
        c.last.line = snk.location.line
  | .reachesReturn f r =>
    p.Executable c.steps ∧ c.first.Enters p f r ∧ c.last.kind = .ret ∧ ∃ fn, c.last.In p f fn

namespace Program

variable {p : Program} {h : Nat}

/-- The step of a parameter is at the entry of its function. -/
theorem block_paramStep {f e : Nat} {fn : Function} (hfn : p.function? f = some fn)
    (he : fn.entry = some e) (name : String) : ((p.bare h f).paramStep name).block = e := by
  have hfun : (p.bare h f).function = fn := function_scope hfn
  show (p.bare h f).entryNumber = e
  rw [Scope.entryNumber, hfun, he]

theorem enters_paramStep {f e i : Nat} {fn : Function} (hfn : p.function? f = some fn)
    (he : fn.entry = some e) (name : String) :
    ((p.bare h f).paramStep name).Enters p f (.param i) :=
  ⟨rfl, fn, ⟨rfl, hfn⟩, e, he, block_paramStep hfn he name⟩

theorem precedes_paramStep {f e : Nat} {fn : Function} (hfn : p.function? f = some fn)
    (he : fn.entry = some e) (name : String) :
    ((p.bare h f).paramStep name).Precedes p f e 0 fn := by
  refine ⟨⟨rfl, hfn⟩, e, block_paramStep hfn he name, Or.inl ⟨rfl, ?_⟩⟩
  show (-1 : Int) < ((0 : Nat) : Int)
  omega

/-- A call enters a chain that stems from a parameter of its callee. -/
theorem joins_of_enters {f g i : Nat} {fn : Function} {call s : Step} (hcall : call.In p f fn)
    (hkind : call.kind = .call) (hlink : p.called f g = true) (hs : s.Enters p g (.param i)) :
    p.Joins call s := by
  obtain ⟨hparam, gn, hin, e, he, hblock⟩ := hs
  exact Or.inr (Or.inr (.enter hcall hin hkind hparam hlink he hblock))

/-- **Derived chains are executable.**  By induction on the derivation: each rule adds steps at the
place that its premises are about. -/
theorem Derives.shown (hp : p.WellFormed) {fact : Fact} {c : Chain} (d : p.Derives h fact c) :
    fact.Shown p c := by
  induction d with
  | enterParam hf he hname hne _ _ =>
    exact ⟨.singleton _, enters_paramStep hf.1 he _, _, hf, precedes_paramStep hf.1 he _⟩
  | enterHandler hf he hi hsrc hname hne =>
    -- the source stands before the parameters of the entry block
    refine ⟨?_, ⟨rfl, _, hsrc, rfl, rfl⟩, _, hf, precedes_paramStep hf.1 he _⟩
    refine Executable.push (c := .single _) (.singleton _) (Or.inr (Or.inr ?_))
    refine .within ⟨rfl, hf.1⟩ ⟨rfl, hf.1⟩ (Or.inr (by simp [Chain.single]))
      (block_paramStep hf.1 he "") (block_paramStep hf.1 he _) (Or.inl ⟨rfl, ?_⟩)
    show (-2 : Int) < -1
    omega
  | edge hf hb hb' _ ih =>
    obtain ⟨hexec, henter, fn, hfn, hlast⟩ := ih
    obtain rfl := Option.some.inj (hf.1.symm.trans hfn.1)
    exact ⟨hexec, henter, _, hfn, hlast.edge ⟨_, hb, hb'⟩⟩
  | keep hrun hx _ ih =>
    obtain ⟨hexec, henter, fn, hfn, hlast⟩ := ih
    exact ⟨hexec, henter, fn, hfn, hlast.next⟩
  | seed hf hrun hsrc =>
    obtain ⟨src', hsrc', hline, -⟩ := hp.statements _ _ _ (List.mem_of_getElem? hrun)
    refine ⟨.singleton _, ⟨rfl, src', hsrc', ?_, hline.symm⟩, _, hf,
      Step.precedes_stepAt h hf.1 _ _ _ _⟩
    rw [← Option.some.inj (hsrc.symm.trans hsrc')]
    rfl
  | assign hrun hx _ ih =>
    obtain ⟨hexec, henter, fn, hfn, hlast⟩ := ih
    refine ⟨hexec.push (hlast.joins h _ (by decide) _ _), ?_, fn, hfn,
      Step.precedes_stepAt h hfn.1 _ _ _ _⟩
    rw [Chain.first_push]
    exact henter
  | assignBound hrun hi hsite hbound hx _ _ ih ihret =>
    obtain ⟨hexec, henter, fn, hfn, hlast⟩ := ih
    obtain ⟨htail, htenter, hret, gn, hgn⟩ := ihret
    -- control enters the callee, and its return leads back to the assignment
    have hcalled := hp.called_of_assign hrun hi hsite
    refine ⟨?_, ?_, fn, hfn, Step.precedes_stepAt h hfn.1 _ _ _ _⟩
    · refine Executable.push (Executable.compose _ hexec (hlast.joins h _ (by decide) _ _) htail
        (joins_of_enters ⟨rfl, hfn.1⟩ rfl hcalled htenter)) ?_
      rw [Scope.last_compose]
      exact Or.inr (Or.inr (.leave hgn ⟨rfl, hfn.1⟩ hret rfl hcalled))
    · rw [Chain.first_push, Scope.first_compose]
      exact henter
  | assignIntrinsic hf hrun hi hsite _ ihret =>
    obtain ⟨htail, htenter, hret, gn, hgn⟩ := ihret
    -- the chain starts in the callee and leaves it by the return
    have hcalled := hp.called_of_assign hrun hi hsite
    refine ⟨?_, ?_, _, hf, Step.precedes_stepAt h hf.1 _ _ _ _⟩
    · refine Executable.push (Executable.lift _ _ htail) ?_
      rw [Scope.last_lift]
      exact Or.inr (Or.inr (.leave hgn ⟨rfl, hf.1⟩ hret rfl hcalled))
    · rw [Chain.first_push, Scope.first_lift]
      exact htenter
  | call hrun hsite hbound hx _ _ => trivial
  | callSink hrun hsite hbound hx _ _ ih ihsink =>
    obtain ⟨hexec, henter, fn, hfn, hlast⟩ := ih
    obtain ⟨htail, htenter, hend⟩ := ihsink
    have hcalled := hp.called_of_call hrun hsite
    refine ⟨Executable.compose _ hexec (hlast.joins h _ (by decide) _ _) htail
      (joins_of_enters ⟨rfl, hfn.1⟩ rfl hcalled htenter), ?_, ?_⟩
    · rw [Scope.first_compose]
      exact henter
    · rw [Scope.last_compose]
      exact hend
  | sink hrun hsink hx _ ih =>
    obtain ⟨hexec, henter, fn, hfn, hlast⟩ := ih
    obtain ⟨snk', hsink', hline⟩ := hp.statements _ _ _ (List.mem_of_getElem? hrun)
    refine ⟨hexec.push (hlast.joins h _ (by decide) _ _), ?_, rfl, snk', hsink', ?_, hline.symm⟩
    · rw [Chain.first_push]
      exact henter
    · rw [← Option.some.inj (hsink.symm.trans hsink')]
      rfl
  | ret hrun hx _ ih =>
    obtain ⟨hexec, henter, fn, hfn, hlast⟩ := ih
    refine ⟨hexec.push (hlast.joins h _ (by decide) _ _), ?_, rfl, fn, rfl, hfn.1⟩
    rw [Chain.first_push]
    exact henter

end Program

/-! ### Findings -/

namespace Route

/-- A route stands for another one: it has the same ends and a chain at least as good. -/
def StandsFor (g f : Route) : Prop :=
  g.sameEnds f = true ∧ (compareChains g.chain f.chain).isLE = true

theorem sameEnds_iff {a b : Route} : a.sameEnds b = true ↔
    a.source.location = b.source.location ∧ a.source.category = b.source.category ∧
      a.sink.location = b.sink.location ∧ a.sink.category = b.sink.category := by
  simp [sameEnds, and_assoc]

theorem StandsFor.refl (f : Route) : f.StandsFor f :=
  ⟨sameEnds_iff.mpr ⟨rfl, rfl, rfl, rfl⟩, isLE_compareChains_self f.chain⟩

theorem StandsFor.trans {f g g' : Route} (h : g'.StandsFor g) (h' : g.StandsFor f) :
    g'.StandsFor f := by
  obtain ⟨hsl, hsc, hkl, hkc⟩ := sameEnds_iff.mp h.1
  obtain ⟨hsl', hsc', hkl', hkc'⟩ := sameEnds_iff.mp h'.1
  refine ⟨sameEnds_iff.mpr ⟨hsl.trans hsl', hsc.trans hsc', hkl.trans hkl', hkc.trans hkc'⟩, ?_⟩
  exact Std.TransCmp.isLE_trans h.2 h'.2

/-- After a route has been added, it and all routes before it are stood for. -/
theorem exists_standsFor_addRoute (f : Route) (gs : List Route) :
    ∀ g, g = f ∨ g ∈ gs → ∃ g' ∈ addRoute f gs, g'.StandsFor g := by
  induction gs with
  | nil =>
    rintro g (rfl | hg)
    · exact ⟨g, List.mem_singleton_self g, .refl g⟩
    · exact absurd hg List.not_mem_nil
  | cons d gs ih =>
    have hrest : ∀ g ∈ gs, ∀ {e : Route}, ∃ g' ∈ e :: gs, g'.StandsFor g :=
      fun g hg e => ⟨g, List.mem_cons_of_mem _ hg, .refl g⟩
    intro g hg
    rw [addRoute]
    by_cases hends : d.sameEnds f = true
    · rw [if_pos hends]
      have hends' : f.sameEnds d = true := by
        rw [sameEnds_iff] at hends ⊢
        exact ⟨hends.1.symm, hends.2.1.symm, hends.2.2.1.symm, hends.2.2.2.symm⟩
      cases hbetter : better f.chain (some d.chain) with
      | true =>
        -- the new route takes the place of one that is worse
        have hle : (compareChains f.chain d.chain).isLE = true := by
          rw [beq_iff_eq.mp hbetter]
          rfl
        rcases hg with rfl | hg
        · exact ⟨g, List.mem_cons_self, .refl g⟩
        · rcases List.mem_cons.mp hg with rfl | hg
          · exact ⟨f, List.mem_cons_self, hends', hle⟩
          · exact hrest g hg
      | false =>
        -- the new route is stood for by the one before
        obtain ⟨c, hc, hle⟩ := better_eq_false_iff.mp hbetter
        cases hc
        rcases hg with rfl | hg
        · exact ⟨d, List.mem_cons_self, hends, hle⟩
        · exact ⟨g, hg, .refl g⟩
    · rw [if_neg hends]
      have hmem : ∀ g, g = f ∨ g ∈ gs → ∃ g' ∈ d :: addRoute f gs, g'.StandsFor g := by
        intro g hg
        obtain ⟨g', hg', hstands⟩ := ih g hg
        exact ⟨g', List.mem_cons_of_mem _ hg', hstands⟩
      rcases hg with hg | hg
      · exact hmem g (Or.inl hg)
      · rcases List.mem_cons.mp hg with rfl | hg
        · exact ⟨g, List.mem_cons_self, .refl g⟩
        · exact hmem g (Or.inr hg)

theorem exists_standsFor_foldl (fs : List Route) : ∀ (gs : List Route) (g : Route),
    g ∈ fs ∨ g ∈ gs → ∃ g' ∈ fs.foldl (fun acc f => addRoute f acc) gs, g'.StandsFor g := by
  induction fs with
  | nil =>
    rintro gs g (hg | hg)
    · exact absurd hg List.not_mem_nil
    · exact ⟨g, hg, .refl g⟩
  | cons f fs ih =>
    intro gs g hg
    rcases hg with hg | hg
    · rcases List.mem_cons.mp hg with rfl | hg
      · obtain ⟨g', hg', hstands⟩ := exists_standsFor_addRoute g gs g (Or.inl rfl)
        obtain ⟨g'', hg'', hstands'⟩ := ih (addRoute g gs) g' (Or.inr hg')
        exact ⟨g'', hg'', hstands'.trans hstands⟩
      · exact ih _ g (Or.inl hg)
    · obtain ⟨g', hg', hstands⟩ := exists_standsFor_addRoute f gs g (Or.inr hg)
      obtain ⟨g'', hg'', hstands'⟩ := ih (addRoute f gs) g' (Or.inr hg')
      exact ⟨g'', hg'', hstands'.trans hstands⟩

end Route

namespace Program

theorem mem_routes {p : Program} {best : Best (Nat × Nat)} {f : Route} :
    f ∈ p.routes best ↔ ∃ i j, ((i, j), f.chain) ∈ best.entries ∧
      p.sources[i]? = some f.source ∧ p.sinks[j]? = some f.sink := by
  simp only [routes, List.mem_filterMap, mem_sortBy, Prod.exists, bind, Option.bind_eq_some_iff,
    pure, Option.some.injEq]
  constructor
  · rintro ⟨i, j, c, hmem, src, hsrc, snk, hsnk, rfl⟩
    exact ⟨i, j, hmem, hsrc, hsnk⟩
  · rintro ⟨i, j, hmem, hsrc, hsnk⟩
    exact ⟨i, j, f.chain, hmem, f.source, hsrc, f.sink, hsnk, rfl⟩

/-- No chain is dropped when all are executable. -/
theorem exists_finding {p : Program} {best : Best (Nat × Nat)}
    (hbest : ∀ e ∈ best.entries, p.blockedAt? e.2.steps = none) {f : Route}
    (hf : f ∈ p.routes best) :
    ∃ g : Route, g.StandsFor f ∧ p.finding g ∈ (p.findings best).1 := by
  obtain ⟨i, j, hmem, -⟩ := mem_routes.mp hf
  have hopen : (p.blockedAt? f.chain.steps).isNone = true := by
    rw [hbest _ hmem]
    rfl
  obtain ⟨g, hg, hstands⟩ := Route.exists_standsFor_foldl
    ((p.routes best).filter fun f => (p.blockedAt? f.chain.steps).isNone) [] f
    (Or.inl (List.mem_filter.mpr ⟨hf, hopen⟩))
  exact ⟨g, hstands, List.mem_map.mpr ⟨g, hg, rfl⟩⟩

/-- No chain is reported as one that is not executable when all are. -/
theorem kind_ne_infeasiblePath {p : Program} {best : Best (Nat × Nat)}
    (hbest : ∀ e ∈ best.entries, p.blockedAt? e.2.steps = none) {d : Diagnostic}
    (hd : d ∈ (p.findings best).2) : d.kind ≠ .infeasiblePath := by
  rcases List.mem_append.mp hd with hd | hd
  · obtain ⟨f, hf, hd⟩ := List.mem_filterMap.mp hd
    obtain ⟨i, j, hmem, -⟩ := mem_routes.mp hf
    rw [infeasible?, hbest _ hmem] at hd
    cases hd
  · -- the other diagnostics are about left out steps
    obtain ⟨f, -, hd⟩ := List.mem_filterMap.mp hd
    rw [truncation?] at hd
    split at hd
    · cases hd
      simp [routeDiagnostic]
    · cases hd

/-- The chains of flows that are derived show what they stand for. -/
theorem shown_of_derived {p : Program} (hp : p.WellFormed) {h : Nat} {k : Knowledge}
    (hk : k.Derived p h) {s t : Nat} {c : Chain} (hc : ((s, t), c) ∈ k.flows.entries) :
    ∃ f, (Fact.reachesSink f (.source s) t).Shown p c := by
  obtain ⟨f, d⟩ := hk.flows s t c hc
  exact ⟨f, d.shown hp⟩

/-- The chains of all flows are executable, however the rounds end. -/
theorem shown_flows {p : Program} (hp : p.WellFormed) (h maxRounds : Nat) (b : Budget)
    {s t : Nat} {c : Chain}
    (hc : ((s, t), c) ∈ (p.rounds h maxRounds b).1.knowledge.flows.entries) :
    ∃ f, (Fact.reachesSink f (.source s) t).Shown p c :=
  shown_of_derived hp (derived_rounds p h maxRounds b) hc

/-- **Flows that are derived are executable.**  Control passes along their chains, the check of
chains accepts them, and each is reported, itself or by a chain between the same ends that is at
least as good.  No chain is dropped as one that is not executable. -/
theorem executable_of_derived {p : Program} (hp : p.WellFormed) {h : Nat} {k : Knowledge}
    (hk : k.Derived p h) :
    (∀ s t c, ((s, t), c) ∈ k.flows.entries →
      p.Executable c.steps ∧ p.blockedAt? c.steps = none ∧
      ∃ src snk, p.sources[s]? = some src ∧ p.sinks[t]? = some snk ∧
        ∃ g : Route, g.StandsFor ⟨src, snk, c⟩ ∧ p.finding g ∈ (p.findings k.flows).1) ∧
    ∀ d ∈ (p.findings k.flows).2, d.kind ≠ .infeasiblePath := by
  have hopen : ∀ e ∈ k.flows.entries, p.blockedAt? e.2.steps = none := by
    intro e he
    obtain ⟨f, hexec, -⟩ := shown_of_derived hp hk he
    exact blockedAt?_eq_none hp hexec
  refine ⟨fun s t c hc => ?_, fun d hd => kind_ne_infeasiblePath hopen hd⟩
  obtain ⟨f, hexec, ⟨-, src, hsrc, -⟩, -, snk, hsnk, -⟩ := shown_of_derived hp hk hc
  refine ⟨hexec, hopen _ hc, src, snk, hsrc, hsnk, ?_⟩
  exact exists_finding hopen (mem_routes.mpr ⟨s, t, hc, hsrc, hsnk⟩)

end Program

end TaintFlow.Flow
