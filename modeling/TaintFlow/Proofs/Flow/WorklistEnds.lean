import Mathlib.Data.Finite.Prod
import TaintFlow.Proofs.Flow.Descent
import TaintFlow.Proofs.Flow.WellFormed
import TaintFlow.Proofs.Flow.Worklist

/-!
# Every worklist ends

The worklist of a function empties its queue, whatever is known of the other functions.  Chains in
its states may get longer with every turn of a loop, but their steps are those of the function's own
statements and of the chains in the snapshot, and there are finitely many slots and roots.  So the
states weigh less and less while blocks are queued again, and when they do not the queue gets
shorter.  This does not depend on which of the queued blocks is taken next.

## Main definitions

* `Scope.alphabet`, `Scope.slots`, `Scope.roots` — of what the states of a function are made.
* `State.Within` — a state that is made of these.
* `Work.weights` — what the states of a worklist weigh.
* `Work.Below` — less is left to do.

## Main results

* `Scope.below_process` — processing a queued block leaves less to do.
* `Scope.run_ends` — enough steps empty the queue, and more steps change nothing.
* `Program.worklist_empties_queue` — **every worklist ends**, in every order.
-/

namespace TaintFlow.Flow

/-! ### What states are made of -/

/-- The slot that a statement may taint. -/
def Statement.target? : Statement → Option String
  | .seed _ slot => some slot
  | .assign _ target _ _ => some target
  | _ => none

/-- A call, and the mark that stands for what is left out behind it. -/
def crossing (call : Step) : List Step :=
  [call, truncationMark call.line call.file call.detail]

/-- The steps of all chains to returns. -/
def Snapshot.returnedSteps (snap : Snapshot) : List Step :=
  snap.summaries.toList.flatMap fun sm =>
    (sm.returns.entries.map (·.2) ++ sm.intrinsic.entries.map (·.2)).flatMap Chain.steps

/-- The sources that functions return. -/
def Snapshot.returnedSources (snap : Snapshot) : List Nat :=
  snap.summaries.toList.flatMap fun sm => sm.intrinsic.entries.map (·.1)

namespace Scope

/-- The steps that a statement may add to chains. -/
def statementSteps (s : Scope) (block pos : Nat) (q : Placed) : List Step :=
  let here := s.stepAt block pos q.line
  match q.statement with
  | .seed i slot =>
    (s.program.sources[i]?).toList.map fun src => here .source src.location.file slot
  | .call i =>
    (s.program.calls[i]?).toList.flatMap fun site => crossing (here .call site.file site.name)
  | .sink k _ => (s.program.sinks[k]?).toList.map fun snk => here .sink snk.location.file snk.name
  | .assign file target _ calls =>
    here .assignment file target :: calls.flatMap fun i => (s.program.calls[i]?).toList.flatMap
      fun site => truncationMark site.line site.file site.name ::
        crossing (here .call file site.name)
  | .ret file expr _ => [here .ret file expr]

/-- The statements of the function, each with its block and its position. -/
def places (s : Scope) : List (Nat × Nat × Placed) :=
  (List.range (s.program.statements.getD s.index #[]).size).flatMap fun b =>
    (s.program.statementsAt s.index b).zipIdx.map fun q => (b, q.2, q.1)

/-- The steps that the function itself may add to chains. -/
def ownSteps (s : Scope) : List Step :=
  s.function.params.map s.paramStep ++ s.program.sources.toList.map s.endpointStep
    ++ s.places.flatMap fun e => s.statementSteps e.1 e.2.1 e.2.2

/-- The steps of all chains in the states of the function. -/
def alphabet (s : Scope) : List Step :=
  s.ownSteps ++ s.snapshot.returnedSteps

/-- The slots that may be tainted. -/
def slots (s : Scope) : List String :=
  s.function.params ++ s.places.filterMap (·.2.2.statement.target?)

/-- What taint in the function may stem from. -/
def roots (s : Scope) : List Root :=
  (List.range s.function.params.length).map .param
    ++ (List.range s.program.sources.size).map .source
    ++ s.snapshot.returnedSources.map .source

theorem mem_places {s : Scope} {b pos : Nat} {q : Placed}
    (hq : (s.program.statementsAt s.index b)[pos]? = some q) : (b, pos, q) ∈ s.places := by
  have hb : b < (s.program.statements.getD s.index #[]).size := by
    refine Nat.lt_of_not_le fun hle => ?_
    rw [Program.statementsAt] at hq
    generalize s.program.statements.getD s.index #[] = rows at hq hle
    simp [Array.getD_eq_getD_getElem?, hle] at hq
  refine List.mem_flatMap.mpr ⟨b, List.mem_range.mpr hb, List.mem_map.mpr ⟨(q, pos), ?_, rfl⟩⟩
  exact List.mk_mem_zipIdx_iff_getElem?.mpr hq

/-- The steps of a statement are among those of its function. -/
theorem mem_ownSteps {s : Scope} {b pos : Nat} {q : Placed}
    (hq : (s.program.statementsAt s.index b)[pos]? = some q) {x : Step}
    (hx : x ∈ s.statementSteps b pos q) : x ∈ s.ownSteps :=
  List.mem_append_right _ (List.mem_flatMap.mpr ⟨_, mem_places hq, hx⟩)

theorem mem_slots {s : Scope} {b pos : Nat} {q : Placed}
    (hq : (s.program.statementsAt s.index b)[pos]? = some q) {x : String}
    (hx : q.statement.target? = some x) : x ∈ s.slots :=
  List.mem_append_right _ (List.mem_filterMap.mpr ⟨_, mem_places hq, hx⟩)

theorem mem_roots_of_source {s : Scope} {i : Nat} {src : Discovery.Source}
    (hsrc : s.program.sources[i]? = some src) : .source i ∈ s.roots := by
  obtain ⟨hi, -⟩ := Array.getElem?_eq_some_iff.mp hsrc
  refine List.mem_append_left _ (List.mem_append_right _ ?_)
  exact List.mem_map_of_mem (List.mem_range.mpr hi)

end Scope

theorem Snapshot.summary_cases (snap : Snapshot) (i : Nat) :
    snap.summary i ∈ snap.summaries.toList ∨ snap.summary i = {} := by
  unfold Snapshot.summary
  rw [Array.getD_eq_getD_getElem?]
  cases h : snap.summaries[i]? with
  | none => exact Or.inr rfl
  | some sm => exact Or.inl (Array.mem_toList_iff.mpr (Array.mem_of_getElem? h))

/-- The chains to returns are over their steps. -/
theorem Snapshot.over_returns {snap : Snapshot} {g i : Nat} {c : Chain}
    (hc : (snap.summary g).returns.get? i = some c) : c.Over snap.returnedSteps := by
  intro s hs
  rcases snap.summary_cases g with hsm | hsm
  · refine List.mem_flatMap.mpr ⟨_, hsm, List.mem_flatMap.mpr ⟨c, ?_, hs⟩⟩
    exact List.mem_append_left _ (List.mem_map.mpr ⟨_, Best.mem_entries_of_get? hc, rfl⟩)
  · rw [hsm] at hc
    cases hc

theorem Snapshot.over_intrinsic {snap : Snapshot} {g i : Nat} {c : Chain}
    (hc : (i, c) ∈ (snap.summary g).intrinsic.entries) :
    c.Over snap.returnedSteps ∧ i ∈ snap.returnedSources := by
  rcases snap.summary_cases g with hsm | hsm
  · refine ⟨fun s hs => ?_, ?_⟩
    · refine List.mem_flatMap.mpr ⟨_, hsm, List.mem_flatMap.mpr ⟨c, ?_, hs⟩⟩
      exact List.mem_append_right _ (List.mem_map.mpr ⟨_, hc, rfl⟩)
    · exact List.mem_flatMap.mpr ⟨_, hsm, List.mem_map.mpr ⟨_, hc, rfl⟩⟩
  · rw [hsm] at hc
    exact absurd hc List.not_mem_nil

/-! ### States within bounds -/

/-- A state is made of the slots, roots and steps of a function. -/
def State.Within (s : Scope) (st : State) : Prop :=
  ∀ x r c, ((x, r), c) ∈ st.entries → x ∈ s.slots ∧ r ∈ s.roots ∧ c.Over s.alphabet

namespace Scope

variable {s : Scope} {st : State}

theorem within_empty (s : Scope) : State.Within s {} :=
  fun _ _ _ hc => absurd hc List.not_mem_nil

theorem within_join {old : State} (hold : old.Within s) (hst : st.Within s) :
    State.Within s (old.join st) := by
  intro x r c hc
  rcases Best.mem_offerAll hc with hc | hc
  · exact hold x r c hc
  · exact hst x r c hc

theorem within_entryState (s : Scope) : s.entryState.Within s := by
  have hparam : ∀ name ∈ s.function.params, s.paramStep name ∈ s.alphabet := by
    intro name hname
    refine List.mem_append_left _ (List.mem_append_left _ (List.mem_append_left _ ?_))
    exact List.mem_map_of_mem hname
  intro x r c hc
  rw [entryState_eq_offerAll] at hc
  rcases Best.mem_offerAll hc with hc | hc
  · exact absurd hc List.not_mem_nil
  · rcases List.mem_append.mp hc with hc | hc
    · -- a parameter that receives taint
      obtain ⟨⟨name, i⟩, hmem, heq⟩ := List.mem_map.mp hc
      cases heq
      obtain ⟨hname, -⟩ := mem_namedParams.mp (List.mem_filter.mp hmem).1
      have hmem := List.mem_of_getElem? hname
      obtain ⟨hi, -⟩ := List.getElem?_eq_some_iff.mp hname
      refine ⟨List.mem_append_left _ hmem, ?_, Chain.over_single (hparam name hmem)⟩
      refine List.mem_append_left _ (List.mem_append_left _ ?_)
      exact List.mem_map_of_mem (List.mem_range.mpr hi)
    · -- a parameter of a handler
      obtain ⟨i, hi, hc⟩ := List.mem_flatMap.mp hc
      obtain ⟨src, hsrc, hc⟩ := List.mem_flatMap.mp hc
      obtain ⟨⟨name, j⟩, hname, heq⟩ := List.mem_map.mp hc
      cases heq
      have hsrc := Option.mem_toList.mp hsrc
      have hmem := List.mem_of_getElem? (mem_namedParams.mp hname).1
      refine ⟨List.mem_append_left _ hmem, mem_roots_of_source hsrc, ?_⟩
      refine (Chain.over_single ?_).push (hparam name hmem)
      refine List.mem_append_left _ (List.mem_append_left _ (List.mem_append_right _ ?_))
      exact List.mem_map_of_mem (Array.mem_toList_iff.mpr (Array.mem_of_getElem? hsrc))

theorem over_read (hst : st.Within s) {names : List String} {r : Root} {c : Chain}
    (hc : (r, c) ∈ (st.read names).entries) : r ∈ s.roots ∧ c.Over s.alphabet := by
  obtain ⟨x, -, hmem⟩ := State.mem_read hc
  exact (hst x r c hmem).2

/-- A statement keeps a state within bounds. -/
theorem within_next (hst : st.Within s) {b pos : Nat} {q : Placed}
    (hq : (s.program.statementsAt s.index b)[pos]? = some q) : (s.next b pos st q).Within s := by
  obtain ⟨line, stmt⟩ := q
  have hown : ∀ x ∈ s.statementSteps b pos ⟨line, stmt⟩, x ∈ s.alphabet :=
    fun x hx => List.mem_append_left _ (mem_ownSteps hq hx)
  have hreturned : ∀ x ∈ s.snapshot.returnedSteps, x ∈ s.alphabet :=
    fun _ hx => List.mem_append_right _ hx
  intro x r c hc
  rcases mem_next hc with ⟨-, hold⟩ | hwrites
  · exact hst x r c hold
  · cases hwrites with
    | seed hsrc =>
      refine ⟨mem_slots hq rfl, mem_roots_of_source hsrc, Chain.over_single (hown _ ?_)⟩
      exact List.mem_map.mpr ⟨_, Option.mem_toList.mpr hsrc, rfl⟩
    | read hread =>
      obtain ⟨hr, hover⟩ := over_read hst hread
      exact ⟨mem_slots hq rfl, hr, hover.push (hown _ List.mem_cons_self)⟩
    | bound hi hsite hb htail hread =>
      obtain ⟨hr, hover⟩ := over_read hst hread
      have htail := (Snapshot.over_returns htail).mono hreturned
      refine ⟨mem_slots hq rfl, hr, (hover.compose htail s (hown _ ?_) (hown _ ?_)).push
        (hown _ List.mem_cons_self)⟩
      · refine List.mem_cons_of_mem _ (List.mem_flatMap.mpr ⟨_, hi, List.mem_flatMap.mpr
          ⟨_, Option.mem_toList.mpr hsite, ?_⟩⟩)
        exact List.mem_cons_of_mem _ List.mem_cons_self
      · refine List.mem_cons_of_mem _ (List.mem_flatMap.mpr ⟨_, hi, List.mem_flatMap.mpr
          ⟨_, Option.mem_toList.mpr hsite, ?_⟩⟩)
        exact List.mem_cons_of_mem _ (List.mem_cons_of_mem _ List.mem_cons_self)
    | intrinsic hi hsite htail =>
      obtain ⟨hover, hsource⟩ := Snapshot.over_intrinsic htail
      have hover := hover.mono hreturned
      refine ⟨mem_slots hq rfl, List.mem_append_right _ (List.mem_map_of_mem hsource),
        (hover.lift s (hown _ ?_)).push (hown _ List.mem_cons_self)⟩
      exact List.mem_cons_of_mem _ (List.mem_flatMap.mpr ⟨_, hi, List.mem_flatMap.mpr
        ⟨_, Option.mem_toList.mpr hsite, List.mem_cons_self⟩⟩)

theorem within_atEnd (hst : st.Within s) (b : Nat) : (s.atEnd b st).Within s := by
  have hbefore : ∀ n, n ≤ (s.program.statementsAt s.index b).length →
      (s.before b st n).Within s := by
    intro n
    induction n with
    | zero => intro _; exact hst
    | succ n ih =>
      intro hn
      have hq : (s.program.statementsAt s.index b)[n]? =
          some ((s.program.statementsAt s.index b)[n]) := List.getElem?_eq_getElem (by omega)
      rw [before_succ hq]
      exact within_next (ih (by omega)) hq
  exact hbefore _ (Nat.le_refl _)

end Scope

/-! ### Weights of worklists -/

namespace Work

/-- All states of a worklist are made of the slots, roots and steps of its function. -/
structure Within (s : Scope) (w : Work) : Prop where
  size : w.states.size = s.function.blocks.size
  states : ∀ b, (w.stateAt b).Within s

instance (w : Work) : DecidablePred w.Met :=
  fun b => inferInstanceAs (Decidable ((w.states.getD b none).isSome = true))

/-- How many blocks have not been met. -/
def unmet (s : Scope) (w : Work) : Nat :=
  ((Finset.range s.function.blocks.size).filter fun b => ¬ w.Met b).card

/-- What the states weigh, at every block and for every slot and root. -/
def weights (s : Scope) (w : Work) :
    Fin s.function.blocks.size × {x // x ∈ s.slots} × {r // r ∈ s.roots} → Weight :=
  fun i => weightOf s.alphabet ((w.stateAt i.1).get? (i.2.1, i.2.2))

/-- Blocks were met, or the states of those that had been met got lighter. -/
def Lighter (s : Scope) (w' w : Work) : Prop :=
  Prod.Lex (· < ·) (· < ·) (w'.unmet s, w'.weights s) (w.unmet s, w.weights s)

/-- Less is left to do: the states are lighter, or they weigh the same and fewer blocks are
queued. -/
def Below (s : Scope) (w' w : Work) : Prop :=
  Prod.Lex (Prod.Lex (· < ·) (· < ·)) (· < ·) ((w'.unmet s, w'.weights s), w'.queue.length)
    ((w.unmet s, w.weights s), w.queue.length)

theorem wellFounded_below (s : Scope) : WellFounded (Below s) := by
  have hslots : Finite {x // x ∈ s.slots} := (List.finite_toSet s.slots).to_subtype
  have hroots : Finite {r // r ∈ s.roots} := (List.finite_toSet s.roots).to_subtype
  exact InvImage.wf (fun w : Work => ((w.unmet s, w.weights s), w.queue.length))
    ((wellFounded_lt.prod_lex wellFounded_lt).prod_lex wellFounded_lt)

theorem Lighter.trans {s : Scope} {w w' w'' : Work} (h : w''.Lighter s w') (h' : w'.Lighter s w) :
    w''.Lighter s w := by
  unfold Lighter at h h' ⊢
  exact IsTrans.trans _ _ _ h h'

end Work

namespace Scope

variable {s : Scope} {st : State} {w : Work}

theorem within_propagate (hw : w.Within s) (hst : st.Within s) (block : Nat) :
    (propagate st w block).Within s := by
  refine ⟨(size_propagate st w block).trans hw.size, fun b => ?_⟩
  rw [stateAt_propagate]
  split
  · exact within_join (hw.states block) hst
  · exact hw.states b

/-- A state that gets better gets lighter. -/
theorem weights_propagate_lt (hw : w.Within s) (hst : st.Within s) {block : Nat}
    (hlt : block < s.function.blocks.size) (himp : (w.stateAt block).improvedBy st = true) :
    (propagate st w block).weights s < w.weights s := by
  have hw' := within_propagate hw hst block
  have hover : ∀ b x r c, ((propagate st w block).stateAt b).get? (x, r) = some c →
      x ∈ s.slots ∧ r ∈ s.roots ∧ c.Over s.alphabet :=
    fun b x r c hc => hw'.states b x r c (Best.mem_entries_of_get? hc)
  refine Pi.lt_def.mpr ⟨fun i => ?_, ?_⟩
  · exact Best.weightOf_le_of_grows (fun k c => (extends_propagate st w block).covers _ k c)
      fun c hc => (hover _ _ _ c hc).2.2
  · obtain ⟨⟨x, r⟩, c, hc, hbetter⟩ := Best.improves_join himp
    have hjoined : (propagate st w block).stateAt block = (w.stateAt block).join st := by
      rw [stateAt_propagate, if_pos ⟨rfl, hw.size.symm ▸ hlt⟩]
    rw [← hjoined] at hc
    obtain ⟨hx, hr, hcover⟩ := hover block x r c hc
    refine ⟨(⟨block, hlt⟩, ⟨x, hx⟩, ⟨r, hr⟩), ?_⟩
    show weightOf s.alphabet (((propagate st w block).stateAt block).get? (x, r)) <
      weightOf s.alphabet ((w.stateAt block).get? (x, r))
    rw [hc]
    exact weightOf_lt_of_better hcover hbetter

/-- Joining a state into a block changes nothing, or it makes the worklist lighter. -/
theorem lighter_propagate (hw : w.Within s) (hst : st.Within s) {block : Nat}
    (hlt : block < s.function.blocks.size) :
    propagate st w block = w ∨ (propagate st w block).Lighter s w := by
  have hext := extends_propagate st w block
  have hmet : (propagate st w block).Met block := by
    rw [Work.Met, states_propagate, getD_setIfInBounds, if_pos ⟨rfl, hw.size.symm ▸ hlt⟩]
    rfl
  by_cases hold : w.Met block
  · by_cases himp : (w.stateAt block).improvedBy st = true
    · -- all blocks that are met afterwards had been met
      have hunmet : (propagate st w block).unmet s = w.unmet s := by
        refine congrArg Finset.card (Finset.filter_congr fun b _ => not_congr ?_)
        refine ⟨fun hb => ?_, hext.met b⟩
        by_cases hblock : block = b
        · exact hblock ▸ hold
        · rw [Work.Met, states_propagate, getD_setIfInBounds, if_neg fun h => hblock h.1] at hb
          exact hb
      right
      rw [Work.Lighter, hunmet]
      exact Prod.Lex.right _ (weights_propagate_lt hw hst hlt himp)
    · left
      obtain ⟨old, hget⟩ := Option.isSome_iff_exists.mp hold
      have hstate : w.stateAt block = old := by rw [Work.stateAt, hget]; rfl
      rw [hstate, Bool.not_eq_true] at himp
      have hjoin : old.join st = old := (Best.coversAll_iff_improvedBy.mpr himp).join_eq
      have hsame : w.states.setIfInBounds block (some old) = w.states := by
        rw [← hget, setIfInBounds_getD_self]
      unfold propagate
      rw [hget]
      simp only [hjoin, himp, hsame, Bool.false_and, Bool.false_eq_true, if_false]
  · -- the block is new
    right
    refine Prod.Lex.left _ _ (Finset.card_lt_card ?_)
    refine Finset.ssubset_iff_subset_ne.mpr ⟨fun b hb => ?_, fun heq => ?_⟩
    · rw [Finset.mem_filter] at hb ⊢
      exact ⟨hb.1, fun hb' => hb.2 (hext.met b hb')⟩
    · have hmem : block ∈ (Finset.range s.function.blocks.size).filter fun b => ¬ w.Met b :=
        Finset.mem_filter.mpr ⟨Finset.mem_range.mpr hlt, hold⟩
      rw [← heq] at hmem
      exact (Finset.mem_filter.mp hmem).2 hmet

theorem lighter_foldl_propagate (hst : st.Within s) {blocks : List Nat}
    (hblocks : ∀ b ∈ blocks, b < s.function.blocks.size) : ∀ {w : Work}, w.Within s →
    (blocks.foldl (propagate st) w).Within s ∧
      (blocks.foldl (propagate st) w = w ∨ (blocks.foldl (propagate st) w).Lighter s w) := by
  induction blocks with
  | nil => intro w hw; exact ⟨hw, Or.inl rfl⟩
  | cons b blocks ih =>
    intro w hw
    have hfirst := lighter_propagate hw hst (hblocks b List.mem_cons_self)
    obtain ⟨hwithin, hrest⟩ := ih (fun b' hb' => hblocks b' (List.mem_cons_of_mem _ hb'))
      (within_propagate hw hst b)
    refine ⟨hwithin, ?_⟩
    rw [List.foldl_cons]
    rcases hrest with hrest | hrest
    · rw [hrest]
      exact hfirst
    · rcases hfirst with hfirst | hfirst
      · rw [hfirst] at hrest ⊢
        exact Or.inr hrest
      · exact Or.inr (hrest.trans hfirst)

/-- Processing a queued block makes the states lighter or the queue shorter. -/
theorem lighter_process (hs : s.function.Sound) (hw : w.Within s) {block : Nat}
    (hq : block ∈ w.queue) :
    (s.process w block).Within s ∧
      ((s.process w block).Lighter s w ∨
        (s.process w block).unmet s = w.unmet s ∧ (s.process w block).weights s = w.weights s ∧
          (s.process w block).queue.length < w.queue.length) := by
  have htaken : (s.taken w block).Within s := ⟨hw.size, hw.states⟩
  have hblocks : ∀ b ∈ s.successors block, b < s.function.blocks.size :=
    fun b hb => hs.edge block b (mem_successors.mp hb)
  rw [process_eq]
  obtain ⟨hwithin, hsame | hlighter⟩ :=
    lighter_foldl_propagate (within_atEnd (hw.states block) block) hblocks htaken
  · refine ⟨hwithin, Or.inr ?_⟩
    rw [hsame]
    refine ⟨rfl, rfl, ?_⟩
    show (w.queue.erase block).length < w.queue.length
    have hpos := List.length_pos_of_mem hq
    rw [List.length_erase_of_mem hq]
    omega
  · exact ⟨hwithin, Or.inl hlighter⟩

/-- **Processing a queued block leaves less to do.** -/
theorem below_process (hs : s.function.Sound) (hw : w.Within s) {block : Nat}
    (hq : block ∈ w.queue) : (s.process w block).Within s ∧ (s.process w block).Below s w := by
  obtain ⟨hwithin, hlighter | ⟨hunmet, hweights, hqueue⟩⟩ := lighter_process hs hw hq
  · exact ⟨hwithin, Prod.Lex.left _ _ hlighter⟩
  · refine ⟨hwithin, ?_⟩
    rw [Work.Below, hunmet, hweights]
    exact Prod.Lex.right _ hqueue

/-- Without an entry nothing is queued. -/
theorem queue_start_of_none (s : Scope) (he : s.function.entry = none) : s.start.queue = [] := by
  rw [start, he]

/-- What the first worklist holds is made of the slots, roots and steps of its function. -/
theorem within_start {e : Nat} (he : s.function.entry = some e) : s.start.Within s := by
  refine ⟨by simp [start, he], fun b => ?_⟩
  have hstart : s.start.stateAt b = s.entryState ∨ s.start.stateAt b = {} := by
    rw [start, he, Work.stateAt, getD_setIfInBounds, getD_replicate_self]
    split
    · exact Or.inl rfl
    · exact Or.inr rfl
  rcases hstart with h | h
  · rw [h]
    exact within_entryState s
  · rw [h]
    exact within_empty s

/-! ### Worklists end -/

/-- With enough fuel for a run without cancellation, more fuel changes no run. -/
theorem run_of_le {fuel fuel' : Nat} (hle : fuel ≤ fuel') (b : Budget)
    (hc : (s.run fuel w Budget.unlimited).1.2 = false) : s.run fuel' w b = s.run fuel w b := by
  induction fuel generalizing fuel' w b with
  | zero =>
    cases hq : w.queue with
    | nil => rw [s.run_of_queue_nil _ hq, s.run_of_queue_nil _ hq]
    | cons block rest => rw [s.run_zero hq] at hc; cases hc
  | succ fuel ih =>
    cases hq : w.queue with
    | nil => rw [s.run_of_queue_nil _ hq, s.run_of_queue_nil _ hq]
    | cons block rest =>
      obtain ⟨fuel', rfl⟩ : ∃ n, fuel' = n + 1 := ⟨fuel' - 1, by omega⟩
      rw [s.run_succ fuel hq, show Budget.unlimited.exhausted = false from rfl,
        if_neg Bool.false_ne_true] at hc
      rw [s.run_succ fuel hq, s.run_succ fuel' hq, ih (by omega) b.spend hc]

/-- From every worklist on, the queue is emptied. -/
theorem exists_run (hs : s.function.Sound) (hw : w.Within s) :
    ∃ fuel, (s.run fuel w Budget.unlimited).1.2 = false := by
  induction w using (Work.wellFounded_below s).induction with
  | _ w ih =>
    cases hq : w.queue with
    | nil => exact ⟨0, by rw [s.run_of_queue_nil 0 hq]⟩
    | cons block rest =>
      obtain ⟨hwithin, hbelow⟩ := below_process hs hw (hq ▸ List.mem_cons_self)
      obtain ⟨fuel, hfuel⟩ := ih _ hbelow hwithin
      refine ⟨fuel + 1, ?_⟩
      rw [s.run_succ fuel hq, show Budget.unlimited.exhausted = false from rfl,
        if_neg Bool.false_ne_true]
      exact hfuel

/-- Enough steps empty the queue of a function, and more steps change nothing. -/
theorem run_ends (hs : s.function.Sound) : ∃ steps w, w.queue = [] ∧
    ∀ steps' ≥ steps, (s.run steps' s.start Budget.unlimited).1 = (w, false) := by
  obtain ⟨steps, hsteps⟩ : ∃ steps, (s.run steps s.start Budget.unlimited).1.2 = false := by
    cases he : s.function.entry with
    | none => exact ⟨0, by rw [s.run_of_queue_nil 0 (s.queue_start_of_none he)]⟩
    | some e => exact exists_run hs (within_start he)
  refine ⟨steps, _, s.run_queue_eq_nil steps s.start _ hsteps, fun steps' hle => ?_⟩
  rw [run_of_le hle _ hsteps, ← hsteps]

/-- There is no endless sequence of processed blocks, in whatever order they are taken. -/
theorem exists_idle (hs : s.function.Sound) {ws : ℕ → Work} (hw : (ws 0).Within s) :
    ∃ n, ∀ block ∈ (ws n).queue, ws (n + 1) ≠ s.process (ws n) block := by
  by_contra hendless
  push Not at hendless
  have hwithin : ∀ n, (ws n).Within s := by
    intro n
    induction n with
    | zero => exact hw
    | succ n ih =>
      obtain ⟨block, hblock, hnext⟩ := hendless n
      exact hnext ▸ (below_process hs ih hblock).1
  have hdescends : ∀ n, (ws (n + 1)).Below s (ws n) := by
    intro n
    obtain ⟨block, hblock, hnext⟩ := hendless n
    exact hnext ▸ (below_process hs (hwithin n) hblock).2
  exact (wellFounded_iff_isEmpty_descending_chain.mp (Work.wellFounded_below s)).false
    ⟨ws, hdescends⟩

end Scope

namespace Program

open Facts (Cache)
open Discovery (Source Sink)

/-- A function under analysis that has an entry is one of the functions, so it is sound. -/
theorem WellFormed.sound_scope_of_entry {p : Program} (hp : p.WellFormed) {maxHops f e : Nat}
    {snapshot : Snapshot} (he : (p.scope maxHops snapshot f).function.entry = some e) :
    (p.scope maxHops snapshot f).function.Sound := by
  cases hf : p.function? f with
  | none =>
    rw [scope, hf] at he
    cases he
  | some fn =>
    rw [function_scope hf]
    exact hp.functions f fn hf

/-- **Every worklist empties its queue.**  For every function of every program that is built,
whatever loops its graph has, every snapshot of what is known of other functions, with chains of any
length, and every hop limit: after finitely many blocks the queue is empty, and further steps change
nothing, whether the run is cancelled before or not.  Nor is there an endless sequence of blocks
that are processed in any other order. -/
theorem worklist_empties_queue (cache : Cache) (sources : List Source) (sinks : List Sink)
    (san : Sanitizers) (maxHops f : Nat) (snapshot : Snapshot) :
    let s := (build cache sources sinks san).scope maxHops snapshot f
    (∃ steps, (s.run steps s.start Budget.unlimited).1.2 = false ∧
        (s.run steps s.start Budget.unlimited).1.1.queue = [] ∧
        ∀ steps' ≥ steps, ∀ b, s.run steps' s.start b = s.run steps s.start b) ∧
      ∀ ws : ℕ → Work, ws 0 = s.start →
        ∃ n, ∀ block ∈ (ws n).queue, ws (n + 1) ≠ s.process (ws n) block := by
  intro s
  cases he : s.function.entry with
  | none =>
    -- without an entry nothing is queued from the start
    have hq := s.queue_start_of_none he
    refine ⟨⟨0, ?_, ?_, fun steps' _ b => ?_⟩, fun ws hws => ⟨0, fun block hblock => ?_⟩⟩
    · rw [s.run_of_queue_nil 0 hq]
    · rw [s.run_of_queue_nil 0 hq]
      exact hq
    · rw [s.run_of_queue_nil _ hq, s.run_of_queue_nil 0 hq]
    · rw [hws, hq] at hblock
      exact absurd hblock List.not_mem_nil
  | some e =>
    have hs : s.function.Sound := (wellFormed_build cache sources sinks san).sound_scope_of_entry he
    obtain ⟨steps, hsteps⟩ := Scope.exists_run hs (Scope.within_start he)
    refine ⟨⟨steps, hsteps, s.run_queue_eq_nil steps s.start _ hsteps,
      fun steps' hle b => Scope.run_of_le hle b hsteps⟩, fun ws hws => Scope.exists_idle hs ?_⟩
    rw [hws]
    exact Scope.within_start he

end Program

end TaintFlow.Flow
