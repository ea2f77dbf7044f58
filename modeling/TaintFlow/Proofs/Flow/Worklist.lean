import TaintFlow.Proofs.Flow.Paths
import TaintFlow.Proofs.Flow.Runs

/-!
# A finished worklist is closed

When the analysis of a function is not cancelled, the states it ends with solve the equations of
its blocks: the entry state is covered, the state at the end of a block is covered by the states of
its successors, and the reports of every block are recorded.

The invariant of the loop says this of every block that has been met and is not queued.  A block
whose state changes is queued in the same step, so processing a block can only break what is said
of blocks that are queued afterwards.

## Main definitions

* `Work.Extends` — what joining a state into successors may change.
* `Work.Settled` — the invariant of the loop.
* `Scope.Solves` — states that solve the equations of a function, and records of their reports.

## Main results

* `Scope.settled_process` — processing a block keeps the invariant.
* `Scope.solves_of_queue_nil` — with an empty queue the states solve the equations.
* `Scope.solves_analyze` — an analysis that is not cancelled solves the equations.
-/

namespace TaintFlow.Flow

open Relation (TransGen)

namespace Work

/-- A block has been met. -/
def Met (w : Work) (b : Nat) : Prop :=
  (w.states.getD b none).isSome = true

/-- What joining a state into successors may change: states get better and more blocks are queued,
and a block that is not queued afterwards is as before. -/
structure Extends (w w' : Work) : Prop where
  size : w'.states.size = w.states.size
  records : w'.records = w.records
  queue : ∀ b ∈ w.queue, b ∈ w'.queue
  met : ∀ b, w.Met b → w'.Met b
  covers : ∀ b k c, (w.stateAt b).Covers k c → (w'.stateAt b).Covers k c
  same : ∀ b, b ∉ w'.queue → w'.states.getD b none = w.states.getD b none

theorem Extends.refl (w : Work) : w.Extends w :=
  ⟨rfl, rfl, fun _ h => h, fun _ h => h, fun _ _ _ h => h, fun _ _ => rfl⟩

theorem Extends.trans {w w' w'' : Work} (h : w.Extends w') (h' : w'.Extends w'') :
    w.Extends w'' where
  size := h'.size.trans h.size
  records := h'.records.trans h.records
  queue b hb := h'.queue b (h.queue b hb)
  met b hb := h'.met b (h.met b hb)
  covers b k c hc := h'.covers b k c (h.covers b k c hc)
  same b hb := (h'.same b hb).trans (h.same b fun hb' => hb (h'.queue b hb'))

theorem Extends.stateAt_eq {w w' : Work} (h : w.Extends w') {b : Nat} (hb : b ∉ w'.queue) :
    w'.stateAt b = w.stateAt b := by
  rw [stateAt, stateAt, h.same b hb]

end Work

namespace Scope

/-! ### Joining a state into successors -/

theorem stateAt_propagate (st : State) (w : Work) (block b : Nat) :
    (propagate st w block).stateAt b =
      if block = b ∧ block < w.states.size then (w.stateAt block).join st else w.stateAt b := by
  rw [Work.stateAt, states_propagate, getD_setIfInBounds]
  split <;> rfl

theorem mem_queue_propagate (st : State) {w : Work} (block : Nat) {b : Nat} (hb : b ∈ w.queue) :
    b ∈ (propagate st w block).queue := by
  unfold propagate
  cases w.states.getD block none with
  | none =>
    dsimp only
    split
    · exact hb
    · exact List.mem_append_left _ hb
  | some old =>
    dsimp only
    split
    · exact List.mem_append_left _ hb
    · exact hb

/-- A block that is not queued after a join has not been changed by it. -/
theorem same_of_not_mem_queue_propagate {st : State} {w : Work} {block : Nat}
    (hb : block ∉ (propagate st w block).queue) :
    (propagate st w block).states.getD block none = w.states.getD block none := by
  unfold propagate at hb ⊢
  cases hold : w.states.getD block none with
  | none =>
    -- a block that is new is queued
    rw [hold] at hb
    dsimp only at hb
    split at hb
    · next hq => exact absurd (by simpa using hq) hb
    · exact absurd (List.mem_append_right _ (List.mem_singleton_self _)) hb
  | some old =>
    rw [hold] at hb
    dsimp only at hb ⊢
    split at hb
    · exact absurd (List.mem_append_right _ (List.mem_singleton_self _)) hb
    · next hq =>
      -- a block that was met is queued unless its state was no worse
      have himproved : old.improvedBy st = false := by
        cases himp : old.improvedBy st with
        | false => rfl
        | true => simp [himp, hb] at hq
      rw [(Best.coversAll_iff_improvedBy.mpr himproved).join_eq, getD_setIfInBounds, hold]
      split <;> rfl

theorem extends_propagate (st : State) (w : Work) (block : Nat) :
    w.Extends (propagate st w block) where
  size := size_propagate st w block
  records := records_propagate st w block
  queue _ hb := mem_queue_propagate st block hb
  met b hb := by
    rw [Work.Met, states_propagate, getD_setIfInBounds]
    split
    · rfl
    · exact hb
  covers b k c hc := by
    rw [stateAt_propagate]
    split
    · next heq =>
      obtain ⟨rfl, -⟩ := heq
      exact hc.offerAll st.entries
    · exact hc
  same b hb := by
    by_cases hblock : block = b
    · subst hblock
      exact same_of_not_mem_queue_propagate hb
    · rw [states_propagate, getD_setIfInBounds]
      simp [hblock]

theorem extends_foldl_propagate (st : State) (w : Work) (blocks : List Nat) :
    w.Extends (blocks.foldl (propagate st) w) := by
  induction blocks generalizing w with
  | nil => exact .refl w
  | cons b blocks ih => exact (extends_propagate st w b).trans (ih _)

/-- Every block that a state is joined into is met, and its state covers the one joined. -/
theorem covers_foldl_propagate (st : State) {w : Work} {blocks : List Nat} {b : Nat}
    (hb : b ∈ blocks) (hlt : b < w.states.size) :
    (blocks.foldl (propagate st) w).Met b ∧
      ((blocks.foldl (propagate st) w).stateAt b).CoversAll st := by
  induction blocks generalizing w with
  | nil => exact absurd hb List.not_mem_nil
  | cons b' blocks ih =>
    rcases List.mem_cons.mp hb with rfl | hb
    · have hext := extends_foldl_propagate st (propagate st w b) blocks
      refine ⟨hext.met b ?_, fun k c hc => hext.covers b k c ?_⟩
      · rw [Work.Met, states_propagate, getD_setIfInBounds, if_pos ⟨rfl, hlt⟩]
        rfl
      · rw [stateAt_propagate, if_pos ⟨rfl, hlt⟩]
        exact Best.coversAll_join _ st k c hc
    · exact ih hb (by rw [size_propagate]; exact hlt)

end Scope

/-! ### The invariant -/

/-- The invariant of the loop: what a block that has been met leads to is recorded and joined into
its successors, unless the block is queued. -/
structure Work.Settled (s : Scope) (w : Work) : Prop where
  size : w.states.size = s.function.blocks.size
  entry : ∀ e, s.function.entry = some e → w.Met e ∧ (w.stateAt e).CoversAll s.entryState
  reports : ∀ b, w.Met b → b ∉ w.queue →
    ∀ q ∈ s.blockReports b (w.stateAt b), w.records.Covers q
  edges : ∀ b, w.Met b → b ∉ w.queue → ∀ b' ∈ s.successors b,
    w.Met b' ∧ (w.stateAt b').CoversAll (s.atEnd b (w.stateAt b))

/-- States at the start of all blocks that solve the equations of a function, and records that
cover all reports. -/
structure Scope.Solves (s : Scope) (rec : Records) (states : Nat → State) : Prop where
  entry : ∀ e, s.function.entry = some e → (states e).CoversAll s.entryState
  edge : ∀ b b', s.function.Edge b b' → (states b').CoversAll (s.atEnd b (states b))
  reports : ∀ b, b < s.function.blocks.size → ∀ q ∈ s.blockReports b (states b), rec.Covers q

namespace Scope

variable {s : Scope}

theorem mem_successors {b b' : Nat} : b' ∈ s.successors b ↔ s.function.Edge b b' := by
  rw [successors, Function.Edge]
  cases s.function.blocks[b]? <;> simp

theorem settled_start {e : Nat} (he : s.function.entry = some e)
    (hlt : e < s.function.blocks.size) : s.start.Settled s := by
  have hstart : s.start = ⟨(Array.replicate s.function.blocks.size none).setIfInBounds e
      (some s.entryState), [e], {}⟩ := by
    rw [start, he]
  -- only the entry block has been met, and it is queued
  have hmet : ∀ b, s.start.Met b → b = e := by
    intro b hb
    rw [Work.Met, hstart, getD_setIfInBounds] at hb
    split at hb
    · next heq => exact heq.1.symm
    · rw [getD_replicate_self] at hb
      cases hb
  have hqueue : ∀ b, s.start.Met b → b ∈ s.start.queue := by
    intro b hb
    rw [hmet b hb, hstart]
    exact List.mem_singleton_self e
  have hentry : s.start.states.getD e none = some s.entryState := by
    rw [hstart, getD_setIfInBounds, if_pos ⟨rfl, by simpa using hlt⟩]
  refine ⟨by simp [hstart], fun e' he' => ?_, fun b hb hq => absurd (hqueue b hb) hq,
    fun b hb hq => absurd (hqueue b hb) hq⟩
  obtain rfl : e = e' := Option.some.inj (he.symm.trans he')
  refine ⟨by rw [Work.Met, hentry]; rfl, fun k c hc => ?_⟩
  rw [Work.stateAt, hentry]
  rw [entryState_eq_offerAll] at hc ⊢
  rcases Best.mem_offerAll hc with hc | hc
  · exact absurd hc List.not_mem_nil
  · exact Best.covers_offerAll _ hc

/-- **Processing a block keeps the invariant.** -/
theorem settled_process (hs : s.function.Sound) {w : Work} (hw : w.Settled s) (block : Nat) :
    (s.process w block).Settled s := by
  have hext : (s.taken w block).Extends (s.process w block) := by
    rw [process_eq]
    exact extends_foldl_propagate _ _ _
  -- of what the invariant speaks, a block that is not queued afterwards has nothing changed
  have hrec : ∀ q, w.records.Covers q → (s.process w block).records.Covers q := by
    intro q hcov
    rw [hext.records]
    exact hcov.foldl_add _
  have hqueue : ∀ b, b ≠ block → b ∉ (s.process w block).queue → b ∉ w.queue := by
    intro b hb hnot hmem
    refine hnot (hext.queue b ?_)
    exact (List.mem_erase_of_ne hb).mpr hmem
  have hmet : ∀ b, b ∉ (s.process w block).queue → (s.process w block).Met b → w.Met b := by
    intro b hnot hb
    rw [Work.Met, hext.same b hnot] at hb
    exact hb
  have hsame : ∀ b, b ∉ (s.process w block).queue →
      (s.process w block).stateAt b = w.stateAt b := fun b hnot => hext.stateAt_eq hnot
  refine ⟨hext.size.trans hw.size, fun e he => ?_, fun b hb hnot => ?_, fun b hb hnot => ?_⟩
  · obtain ⟨hmet', hcov⟩ := hw.entry e he
    exact ⟨hext.met e hmet', fun k c hc => hext.covers e k c (hcov k c hc)⟩
  · rw [hsame b hnot]
    intro q hmem
    by_cases hblock : b = block
    · -- the block itself: its reports have just been recorded
      subst hblock
      rw [hext.records]
      exact Records.covers_foldl_add _ hmem
    · exact hrec q (hw.reports b (hmet b hnot hb) (hqueue b hblock hnot) q hmem)
  · rw [hsame b hnot]
    intro b' hb'
    by_cases hblock : b = block
    · -- the block itself: the state at its end has just been joined
      subst hblock
      have hlt : b' < (s.taken w b).states.size := by
        show b' < w.states.size
        rw [hw.size]
        exact hs.edge b b' (mem_successors.mp hb')
      rw [process_eq]
      exact covers_foldl_propagate _ hb' hlt
    · obtain ⟨hmet', hcov⟩ := hw.edges b (hmet b hnot hb) (hqueue b hblock hnot) b' hb'
      exact ⟨hext.met b' hmet', fun k c hc => hext.covers b' k c (hcov k c hc)⟩

/-- With an empty queue all blocks have been met. -/
theorem met_of_queue_nil (hs : s.function.Sound) (ha : s.function.analyzable = true) {w : Work}
    (hw : w.Settled s) (hq : w.queue = []) : ∀ b, b < s.function.blocks.size → w.Met b := by
  have hnot : ∀ b, b ∉ w.queue := by
    intro b
    rw [hq]
    exact List.not_mem_nil
  obtain ⟨e, he, -, hall⟩ := hs.entry ha
  have hmet := (hw.entry e he).1
  -- along every path from the entry, the next block is met
  have hpath : ∀ b, TransGen s.function.Edge e b → w.Met b := by
    intro b hb
    induction hb with
    | single hedge => exact (hw.edges e hmet (hnot e) _ (mem_successors.mpr hedge)).1
    | tail _ hedge ih => exact (hw.edges _ ih (hnot _) _ (mem_successors.mpr hedge)).1
  intro b hb
  rcases hall b hb with rfl | hreach
  · exact hmet
  · exact hpath b (hs.reaches_iff.mp hreach)

/-- **With an empty queue the states solve the equations of the function.** -/
theorem solves_of_queue_nil (hs : s.function.Sound) (ha : s.function.analyzable = true) {w : Work}
    (hw : w.Settled s) (hq : w.queue = []) : s.Solves w.records w.stateAt := by
  have hmet := met_of_queue_nil hs ha hw hq
  have hnot : ∀ b, b ∉ w.queue := by
    intro b
    rw [hq]
    exact List.not_mem_nil
  refine ⟨fun e he => (hw.entry e he).2, fun b b' hedge => ?_, fun b hb => ?_⟩
  · have hb : b < s.function.blocks.size := by
      obtain ⟨block, hblock, -⟩ := hedge
      obtain ⟨hb, -⟩ := Array.getElem?_eq_some_iff.mp hblock
      exact hb
    exact (hw.edges b (hmet b hb) (hnot b) b' (mem_successors.mpr hedge)).2
  · exact hw.reports b (hmet b hb) (hnot b)

/-- **An analysis that is not cancelled solves the equations of its function.** -/
theorem solves_analyze (hs : s.function.Sound) (ha : s.function.analyzable = true) {b : Budget}
    (hc : (s.analyze b).1.cancelled = false) :
    ∃ states, s.Solves (s.analyze b).1.records states := by
  obtain ⟨e, he, hlt, -⟩ := hs.entry ha
  have hw : (s.run maxSteps s.start b).1.1.Settled s :=
    s.run_preserves (P := fun w => w.Settled s)
      (fun w block _ _ hw => settled_process hs hw block) maxSteps s.start b (settled_start he hlt)
  exact ⟨_, solves_of_queue_nil hs ha hw (s.run_queue_eq_nil maxSteps s.start b hc)⟩

end Scope

end TaintFlow.Flow
