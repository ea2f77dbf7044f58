import Mathlib.Logic.Relation
import TaintFlow.Flow.Graph
import TaintFlow.Proofs.Text.Order

/-!
# Paths of control-flow graphs

The sets of reachable blocks that a function carries are those of the paths of its graph, and the
checks of the graph say what they are meant to say: a function that can be analysed has an entry
from which a path leads to every other block.

The sets come from a breadth-first search.  What it meets is reached by a path, since it follows
edges only.  It misses no path, since at every step the successors of a block that is met are met
or stand in the queue, and in the end the queue is empty.

## Main definitions

* `Pending` — the successors of the blocks that are met are met or stand in the queue.
* `Function.Edge` — an edge leads from one block to another.
* `Function.Sound` — what building a function guarantees of its graph.

## Main results

* `search_induction` — what the queue has and edges keep, all blocks that are met have.
* `has_search_of_mem`, `has_search_of_edge` — the search meets the queue, and follows every edge.
* `sound_buildFunction` — every function that is built is sound.
* `Function.Sound.reaches_iff` — `Function.reaches` is the existence of a non-empty path.
-/

namespace TaintFlow.Flow

open Relation (TransGen)

/-- An edge leads from block `i` to block `j`. -/
def Function.Edge (fn : Function) (i j : Nat) : Prop :=
  ∃ block, fn.blocks[i]? = some block ∧ j ∈ block.succ

/-- What building a function guarantees of its graph. -/
structure Function.Sound (fn : Function) : Prop where
  /-- The sets of reachable blocks are computed from the blocks. -/
  reach : fn.reach = reachability fn.blocks
  /-- Edges end at blocks of the function. -/
  edge : ∀ i j, fn.Edge i j → j < fn.blocks.size
  /-- A function that can be analysed has an entry from which every other block is reached. -/
  entry : fn.analyzable = true → ∃ e, fn.entry = some e ∧ e < fn.blocks.size ∧
    ∀ j, j < fn.blocks.size → j = e ∨ fn.reaches e j = true

/-! ### The search -/

section

variable {blocks : Array Block} {met : Words blocks.size} {queue : List Nat} {i j : Nat}
  {block : Block}

theorem search_nil : search blocks met [] = met := by
  rw [search]

/-- A block that is met is passed over. -/
theorem search_of_met (hi : i < blocks.size) (hmet : Words.has met.toArray i = true) :
    search blocks met (i :: queue) = search blocks met queue := by
  rw [search, dif_pos hi, if_pos hmet]

/-- The successors of a block that is not met yet are put at the end of the queue. -/
theorem search_of_new (hi : i < blocks.size) (hnew : ¬ Words.has met.toArray i = true) :
    search blocks met (i :: queue) = search blocks (met.add i hi) (queue ++ blocks[i].succ) := by
  rw [search, dif_pos hi, if_neg hnew]

/-- A position without a block is passed over. -/
theorem search_of_not_lt (hi : ¬ i < blocks.size) :
    search blocks met (i :: queue) = search blocks met queue := by
  rw [search, dif_neg hi]

/-- What is met stays met. -/
theorem has_search_of_met (h : Words.has met.toArray j = true) :
    Words.has (search blocks met queue).toArray j = true := by
  induction met, queue using search.induct with
  | case1 met => rwa [search_nil]
  | case2 met i queue hi hmet ih =>
    rw [search_of_met hi hmet]
    exact ih h
  | case3 met i queue hi hnew ih =>
    rw [search_of_new hi hnew]
    exact ih (by rw [Words.has_add, h, Bool.true_or])
  | case4 met i queue hi ih =>
    rw [search_of_not_lt hi]
    exact ih h

/-- **What the queue has and edges keep, all blocks that are met have.** -/
theorem search_induction {P : Nat → Prop}
    (hedge : ∀ i block, blocks[i]? = some block → P i → ∀ j ∈ block.succ, P j)
    (hmet : ∀ j, Words.has met.toArray j = true → P j) (hqueue : ∀ j ∈ queue, P j)
    (h : Words.has (search blocks met queue).toArray j = true) : P j := by
  induction met, queue using search.induct with
  | case1 met =>
    rw [search_nil] at h
    exact hmet j h
  | case2 met i queue hi hold ih =>
    rw [search_of_met hi hold] at h
    exact ih hmet (fun k hk => hqueue k (List.mem_cons_of_mem _ hk)) h
  | case3 met i queue hi hnew ih =>
    rw [search_of_new hi hnew] at h
    have hPi : P i := hqueue i List.mem_cons_self
    refine ih (fun k hk => ?_) (fun k hk => ?_) h
    · rw [Words.has_add, Bool.or_eq_true, beq_iff_eq] at hk
      rcases hk with hk | rfl
      · exact hmet k hk
      · exact hPi
    · rcases List.mem_append.mp hk with hk | hk
      · exact hqueue k (List.mem_cons_of_mem _ hk)
      · exact hedge i _ (Array.getElem?_eq_getElem hi) hPi k hk
  | case4 met i queue hi ih =>
    rw [search_of_not_lt hi] at h
    exact ih hmet (fun k hk => hqueue k (List.mem_cons_of_mem _ hk)) h

/-- The search meets the blocks of its queue. -/
theorem has_search_of_mem (h : j ∈ queue) (hj : j < blocks.size) :
    Words.has (search blocks met queue).toArray j = true := by
  induction met, queue using search.induct with
  | case1 met => cases h
  | case2 met i queue hi hmet ih =>
    rw [search_of_met hi hmet]
    rcases List.mem_cons.mp h with rfl | h
    · exact has_search_of_met hmet
    · exact ih h
  | case3 met i queue hi hnew ih =>
    rw [search_of_new hi hnew]
    rcases List.mem_cons.mp h with rfl | h
    · exact has_search_of_met (by rw [Words.has_add, beq_self_eq_true, Bool.or_true])
    · exact ih (List.mem_append_left _ h)
  | case4 met i queue hi ih =>
    rw [search_of_not_lt hi]
    rcases List.mem_cons.mp h with rfl | h
    · exact absurd hj hi
    · exact ih h

/-- The successors of the blocks that are met are met or stand in the queue. -/
def Pending (blocks : Array Block) (met : Words blocks.size) (queue : List Nat) : Prop :=
  ∀ i block, blocks[i]? = some block → Words.has met.toArray i = true →
    ∀ j ∈ block.succ, j < blocks.size → Words.has met.toArray j = true ∨ j ∈ queue

/-- A block that is met or does not exist may leave the queue. -/
theorem Pending.tail (h : Pending blocks met (i :: queue))
    (hi : Words.has met.toArray i = true ∨ ¬ i < blocks.size) : Pending blocks met queue := by
  intro k block hblock hk j hj hlt
  rcases h k block hblock hk j hj hlt with hmet | hmem
  · exact Or.inl hmet
  · rcases List.mem_cons.mp hmem with rfl | hmem
    · exact Or.inl (hi.resolve_right (not_not_intro hlt))
    · exact Or.inr hmem

/-- A block leaves the queue for the set when its successors enter the queue. -/
theorem Pending.add (h : Pending blocks met (i :: queue)) (hi : i < blocks.size) :
    Pending blocks (met.add i hi) (queue ++ blocks[i].succ) := by
  intro k block hblock hk j hj hlt
  rw [Words.has_add, Bool.or_eq_true, beq_iff_eq] at hk ⊢
  rcases hk with hk | rfl
  · rcases h k block hblock hk j hj hlt with hmet | hmem
    · exact Or.inl (Or.inl hmet)
    · rcases List.mem_cons.mp hmem with rfl | hmem
      · exact Or.inl (Or.inr rfl)
      · exact Or.inr (List.mem_append_left _ hmem)
  · obtain rfl : blocks[k] = block :=
      Option.some.inj ((Array.getElem?_eq_getElem hi).symm.trans hblock)
    exact Or.inr (List.mem_append_right _ hj)

/-- **The search follows every edge.** -/
theorem has_search_of_edge (hp : Pending blocks met queue) (hblock : blocks[i]? = some block)
    (h : Words.has (search blocks met queue).toArray i = true) (hj : j ∈ block.succ)
    (hlt : j < blocks.size) : Words.has (search blocks met queue).toArray j = true := by
  induction met, queue using search.induct with
  | case1 met =>
    rw [search_nil] at h ⊢
    exact (hp i block hblock h j hj hlt).resolve_right List.not_mem_nil
  | case2 met k queue hk hmet ih =>
    rw [search_of_met hk hmet] at h ⊢
    exact ih (hp.tail (Or.inl hmet)) h
  | case3 met k queue hk hnew ih =>
    rw [search_of_new hk hnew] at h ⊢
    exact ih (hp.add hk) h
  | case4 met k queue hk ih =>
    rw [search_of_not_lt hk] at h ⊢
    exact ih (hp.tail (Or.inr hk)) h

end

/-! ### Reachable blocks -/

theorem getD_reachability {blocks : Array Block} {i : Nat} {block : Block}
    (h : blocks[i]? = some block) :
    (reachability blocks).getD i #[] =
      (search blocks (Words.empty blocks.size) block.succ).toArray := by
  simp [reachability, Array.getD_eq_getD_getElem?, h]

theorem getD_reachability_of_none {blocks : Array Block} {i : Nat} (h : blocks[i]? = none) :
    (reachability blocks).getD i #[] = #[] := by
  simp [reachability, Array.getD_eq_getD_getElem?, h]

namespace Function

variable {fn : Function} {i j : Nat}

/-- **The sets of reachable blocks are those of the paths.** -/
theorem Sound.reaches_iff (hfn : fn.Sound) : fn.reaches i j = true ↔ TransGen fn.Edge i j := by
  rw [reaches, hfn.reach]
  constructor
  · intro h
    cases hblock : fn.blocks[i]? with
    | none =>
      rw [getD_reachability_of_none hblock, Words.has_nil] at h
      cases h
    | some block =>
      rw [getD_reachability hblock] at h
      refine search_induction (P := TransGen fn.Edge i) (fun k block' hblock' hk j hj => ?_)
        (fun k hk => ?_) (fun k hk => .single ⟨block, hblock, hk⟩) h
      · exact .tail hk ⟨block', hblock', hj⟩
      · rw [Words.has_empty] at hk
        cases hk
  · intro h
    -- the first edge of the path gives the block at its start
    obtain ⟨block, hblock⟩ : ∃ block, fn.blocks[i]? = some block := by
      obtain ⟨k, ⟨block, hblock, -⟩, -⟩ := TransGen.head'_iff.mp h
      exact ⟨block, hblock⟩
    have hp : Pending fn.blocks (Words.empty fn.blocks.size) block.succ := by
      intro k block' _ hk
      rw [Words.has_empty] at hk
      cases hk
    rw [getD_reachability hblock]
    induction h with
    | single hedge =>
      obtain ⟨block', hblock', hj⟩ := hedge
      obtain rfl : block = block' := Option.some.inj (hblock.symm.trans hblock')
      exact has_search_of_mem hj (hfn.edge i _ ⟨block, hblock, hj⟩)
    | tail _ hedge ih =>
      obtain ⟨block', hblock', hj⟩ := hedge
      exact has_search_of_edge hp hblock' ih hj (hfn.edge _ _ ⟨block', hblock', hj⟩)

end Function

/-! ### Functions that are built -/

theorem edgeEnds?_lt {blocks : List Facts.BlockFact} {e : Facts.EdgeFact} {i j : Nat}
    (h : edgeEnds? blocks e = some (i, j)) : i < blocks.length ∧ j < blocks.length := by
  simp only [edgeEnds?, bind, Option.bind_eq_some_iff, pure, Option.some.injEq, Prod.mk.injEq] at h
  obtain ⟨i', hi, j', hj, rfl, rfl⟩ := h
  exact ⟨(List.findIdx?_eq_some_iff_findIdx_eq.mp hi).1,
    (List.findIdx?_eq_some_iff_findIdx_eq.mp hj).1⟩

theorem size_connect (rows : List Facts.BlockFact) (pairs : List (Nat × Nat)) :
    (connect rows pairs).size = rows.length := by
  simp [connect]

theorem lt_of_mem_succ_connect {rows : List Facts.BlockFact} {pairs : List (Nat × Nat)}
    (hpairs : ∀ e ∈ pairs, e.2 < rows.length) {i j : Nat} {block : Block}
    (hblock : (connect rows pairs)[i]? = some block) (hj : j ∈ block.succ) : j < rows.length := by
  have hmem : block ∈ connect rows pairs := Array.mem_of_getElem? hblock
  rw [connect, List.mem_toArray, List.mem_map] at hmem
  obtain ⟨⟨row, k⟩, -, rfl⟩ := hmem
  simp only [ascending, mem_sortBy, List.mem_map] at hj
  obtain ⟨e, he, rfl⟩ := hj
  exact hpairs e (List.mem_filter.mp he).1

/-- A graph without a defect has one entry, from which every other block is reached. -/
theorem entry_checkGraph {blocks : Array Block} {reach : Array (Array UInt64)}
    (h : (checkGraph blocks reach).defect = none) :
    ∃ e, (checkGraph blocks reach).entry = some e ∧ e < blocks.size ∧
      ∀ j, j < blocks.size → j = e ∨ Words.has (reach.getD e #[]) j = true := by
  unfold checkGraph at h ⊢
  dsimp only at h ⊢
  split at h
  · cases h
  · cases h
  · next b i hentries =>
    have hi : (b, i) ∈ blocks.toList.zipIdx := by
      have hmem : (b, i) ∈ blocks.toList.zipIdx.filter (·.1.isEntry) := by
        rw [hentries]
        exact List.mem_singleton_self _
      exact (List.mem_filter.mp hmem).1
    rw [List.mk_mem_zipIdx_iff_getElem?, Array.getElem?_toList] at hi
    obtain ⟨hlt, -⟩ := Array.getElem?_eq_some_iff.mp hi
    refine ⟨i, rfl, hlt, fun j hj => ?_⟩
    dsimp only at h
    split at h
    · cases h
    · rw [Option.map_eq_none_iff, List.find?_eq_none] at h
      have hmem : (blocks[j], j) ∈ blocks.toList.zipIdx := by
        rw [List.mk_mem_zipIdx_iff_getElem?, Array.getElem?_toList]
        exact Array.getElem?_eq_getElem hj
      have := h _ hmem
      by_cases hji : j = i
      · exact Or.inl hji
      · exact Or.inr (by simpa [hji] using this)

/-- **Every function that is built is sound.** -/
theorem sound_buildFunction (c : Facts.Cache) (file name : String) :
    (buildFunction c file name).Sound where
  reach := rfl
  edge i j := by
    rintro ⟨block, hblock, hj⟩
    rw [buildFunction] at hblock ⊢
    rw [size_connect]
    refine lt_of_mem_succ_connect (fun e he => ?_) hblock hj
    rw [mem_firsts, List.mem_filterMap] at he
    obtain ⟨edge, -, hedge⟩ := he
    exact (edgeEnds?_lt hedge).2
  entry h := by
    rw [Function.analyzable, Option.isNone_iff_eq_none] at h
    unfold buildFunction at h ⊢
    dsimp only [Function.reaches] at h ⊢
    split at h
    · cases h
    · exact entry_checkGraph h

end TaintFlow.Flow
