import TaintFlow.Proofs.Flow.Collections
import TaintFlow.Proofs.Flow.MoreEdges

/-!
# What the checks of graphs decide

Whether a function can be analysed is decided from the rows of its blocks and edges alone, and the
checks decide exactly what is asked of these rows: distinct ids, edges between blocks of the
function, one entry, a successor for every block that is no exit, and a path from the entry to every
other block.  Paths are meant between ids here, as the rows give them; the blocks of a function that
can be analysed are its rows, so that the position of a block stands for its id and the sets of
reachable blocks are those of the paths between ids.

Only between which ids there are edges matters: neither their order nor how often they are recorded
changes the graph.  The one thing that does change is which of several edges that leave the function
is named.

## Main definitions

* `Linked` — an edge between two ids is recorded.
* `Admissible` — what is asked of the rows of a function.
* `Function.SameGraph` — two functions have the same graph and pass the same checks.

## Main results

* `analyzable_iff_admissible` — the checks decide what is asked of the rows.
* `reaches_iff_linked` — the sets of reachable blocks are those of the recorded edges.
* `sameGraph_buildFunction` — neither the order nor the repetition of edges matters.
* `graph_checks_exact` — **the checks of graphs are exact.**
-/

namespace TaintFlow

namespace Flow

open Facts (Cache BlockFact EdgeFact)
open Relation (TransGen)

/-! ### What is asked of rows -/

/-- An edge between two ids is recorded. -/
def Linked (edges : List EdgeFact) (a b : Int) : Prop :=
  ∃ e ∈ edges, e.source = a ∧ e.target = b

/-- Edges lead from rows to rows. -/
def Inside (blocks : List BlockFact) (edges : List EdgeFact) : Prop :=
  ∀ e ∈ edges, (∃ b ∈ blocks, b.id = e.source) ∧ ∃ b ∈ blocks, b.id = e.target

/-- What is asked of the rows of a function for it to be analysed. -/
structure Admissible (blocks : List BlockFact) (edges : List EdgeFact) : Prop where
  distinct : (blocks.map (·.id)).Nodup
  inside : Inside blocks edges
  entry : ∃! e, e ∈ blocks ∧ e.type = "entry"
  successor : ∀ b ∈ blocks, b.type ≠ "exit" → ∃ e ∈ edges, e.source = b.id
  reached : ∀ e ∈ blocks, e.type = "entry" → ∀ b ∈ blocks, b ≠ e →
    TransGen (Linked edges) e.id b.id

/-! ### Ids and positions -/

/-- The id of the row at a position. -/
def idAt (rows : List BlockFact) (i : Nat) : Int :=
  (rows[i]?.map (·.id)).getD 0

/-- The position of the row with an id. -/
def positionOf (rows : List BlockFact) (id : Int) : Nat :=
  (rows.findIdx? (·.id == id)).getD 0

theorem lastDuplicate?_eq_none_iff {rows : List BlockFact} {seen : List Int} :
    lastDuplicate? seen rows = none ↔
      (rows.map (·.id)).Nodup ∧ ∀ r ∈ rows, r.id ∉ seen := by
  induction rows generalizing seen with
  | nil => simp [lastDuplicate?]
  | cons r rows ih =>
    have hnone : lastDuplicate? seen (r :: rows) = none ↔
        lastDuplicate? (r.id :: seen) rows = none ∧ r.id ∉ seen := by
      rw [lastDuplicate?]
      split
      · next h => simp [List.contains_iff_mem.mp h]
      · next h => exact ⟨fun hlater => ⟨hlater, fun hmem => h (List.contains_iff_mem.mpr hmem)⟩,
          And.left⟩
    simp only [hnone, ih, List.map_cons, List.nodup_cons, List.mem_map, List.mem_cons,
      forall_eq_or_imp, not_or, not_exists, not_and]
    constructor
    · rintro ⟨⟨hnodup, hrows⟩, hr⟩
      exact ⟨⟨fun q hq => (hrows q hq).1, hnodup⟩, hr, fun q hq => (hrows q hq).2⟩
    · rintro ⟨⟨hr, hnodup⟩, hseen, hrows⟩
      exact ⟨⟨hnodup, fun q hq => ⟨hr q hq, hrows q hq⟩⟩, hseen⟩

/-- Rows with distinct ids are all kept. -/
theorem distinctBlocks_eq_self {rows : List BlockFact} (h : (rows.map (·.id)).Nodup) :
    distinctBlocks rows = rows := by
  have hfold : ∀ rows kept : List BlockFact, ((kept ++ rows).map (·.id)).Nodup →
      rows.foldl (fun kept r => if kept.any (·.id == r.id) then kept else kept ++ [r]) kept =
        kept ++ rows := by
    intro rows
    induction rows with
    | nil => simp
    | cons r rows ih =>
      intro kept hnodup
      have hnew : kept.any (·.id == r.id) = false := by
        rw [List.any_eq_false]
        intro q hq hid
        rw [List.map_append, List.nodup_append] at hnodup
        exact hnodup.2.2 _ (List.mem_map_of_mem hq) r.id (by simp) (beq_iff_eq.mp hid)
      rw [List.foldl_cons, hnew, if_neg Bool.false_ne_true, ih _ (by simpa using hnodup),
        List.append_assoc, List.singleton_append]
  exact hfold rows [] h

section

variable {rows : List BlockFact} {edges : List EdgeFact}

/-- With distinct ids, a position is found by its id. -/
theorem findIdx?_id_iff (h : (rows.map (·.id)).Nodup) {id : Int} {i : Nat} :
    rows.findIdx? (·.id == id) = some i ↔ ∃ b, rows[i]? = some b ∧ b.id = id := by
  have hids : ∀ {i : Nat} {b : BlockFact}, rows[i]? = some b →
      (rows.map (·.id))[i]? = some b.id := by
    intro i b hb
    rw [List.getElem?_map, hb, Option.map_some]
  constructor
  · intro hi
    obtain ⟨hlt, hid, -⟩ := List.findIdx?_eq_some_iff_getElem.mp hi
    exact ⟨rows[i], List.getElem?_eq_getElem hlt, beq_iff_eq.mp hid⟩
  · rintro ⟨b, hb, rfl⟩
    obtain ⟨hlt, rfl⟩ := List.getElem?_eq_some_iff.mp hb
    refine List.findIdx?_eq_some_iff_getElem.mpr ⟨hlt, beq_self_eq_true _, fun j hji => ?_⟩
    intro hid
    have hj := List.getElem?_eq_getElem (Nat.lt_trans hji hlt)
    have hsame := (List.getElem?_inj (by simpa using Nat.lt_trans hji hlt) h).mp
      ((hids hj).trans ((congrArg some (beq_iff_eq.mp hid)).trans (hids hb).symm))
    omega

/-- With distinct ids, a row stands at one position. -/
theorem position_inj (h : (rows.map (·.id)).Nodup) {i j : Nat} {b : BlockFact}
    (hi : rows[i]? = some b) (hj : rows[j]? = some b) : i = j :=
  Option.some.inj (((findIdx?_id_iff h).mpr ⟨b, hi, rfl⟩).symm.trans
    ((findIdx?_id_iff h).mpr ⟨b, hj, rfl⟩))

theorem idAt_eq {i : Nat} {b : BlockFact} (hi : rows[i]? = some b) : idAt rows i = b.id := by
  rw [idAt, hi, Option.map_some, Option.getD_some]

theorem positionOf_eq (h : (rows.map (·.id)).Nodup) {i : Nat} {b : BlockFact}
    (hi : rows[i]? = some b) : positionOf rows b.id = i := by
  rw [positionOf, (findIdx?_id_iff h).mpr ⟨b, hi, rfl⟩, Option.getD_some]

theorem edgeEnds?_eq_some_iff (h : (rows.map (·.id)).Nodup) {e : EdgeFact} {i j : Nat} :
    edgeEnds? rows e = some (i, j) ↔
      (∃ a, rows[i]? = some a ∧ a.id = e.source) ∧ ∃ b, rows[j]? = some b ∧ b.id = e.target := by
  rw [← findIdx?_id_iff h, ← findIdx?_id_iff h]
  simp only [edgeEnds?, bind, Option.bind_eq_some_iff, pure, Option.some.injEq, Prod.mk.injEq]
  constructor
  · rintro ⟨i', hi, j', hj, rfl, rfl⟩
    exact ⟨hi, hj⟩
  · rintro ⟨hi, hj⟩
    exact ⟨i, hi, j, hj, rfl, rfl⟩

theorem isSome_edgeEnds?_iff (h : (rows.map (·.id)).Nodup) {e : EdgeFact} :
    (edgeEnds? rows e).isSome = true ↔
      (∃ b ∈ rows, b.id = e.source) ∧ ∃ b ∈ rows, b.id = e.target := by
  simp only [Option.isSome_iff_exists, Prod.exists, edgeEnds?_eq_some_iff h,
    List.mem_iff_getElem?]
  constructor
  · rintro ⟨i, j, ⟨a, ha, hsource⟩, b, hb, htarget⟩
    exact ⟨⟨a, ⟨i, ha⟩, hsource⟩, b, ⟨j, hb⟩, htarget⟩
  · rintro ⟨⟨a, ⟨i, ha⟩, hsource⟩, b, ⟨j, hb⟩, htarget⟩
    exact ⟨i, j, ⟨a, ha, hsource⟩, b, hb, htarget⟩

/-! ### Edges and paths between ids -/

/-- The graph that edges make of rows. -/
def graphOf (rows : List BlockFact) (edges : List EdgeFact) : Array Block :=
  connect rows (firsts (edges.filterMap (edgeEnds? rows)))

theorem mem_succ_graphOf (h : (rows.map (·.id)).Nodup) {i j : Nat} :
    (∃ block, (graphOf rows edges)[i]? = some block ∧ j ∈ block.succ) ↔
      ∃ a b, rows[i]? = some a ∧ rows[j]? = some b ∧ Linked edges a.id b.id := by
  rw [graphOf, mem_succ_connect, mem_firsts, List.mem_filterMap]
  simp only [edgeEnds?_eq_some_iff h]
  constructor
  · rintro ⟨-, e, he, ⟨a, ha, hsource⟩, b, hb, htarget⟩
    exact ⟨a, b, ha, hb, e, he, hsource.symm, htarget.symm⟩
  · rintro ⟨a, b, ha, hb, e, he, hsource, htarget⟩
    exact ⟨(List.getElem?_eq_some_iff.mp ha).1, e, he, ⟨a, ha, hsource.symm⟩, b, hb,
      htarget.symm⟩

/-- The paths of a graph are those between the ids of its blocks. -/
theorem transGen_edge_iff {fn : Function} (hfn : fn.blocks = graphOf rows edges)
    (h : (rows.map (·.id)).Nodup) (hinside : Inside rows edges) {i j : Nat} {a b : BlockFact}
    (ha : rows[i]? = some a) (hb : rows[j]? = some b) :
    TransGen fn.Edge i j ↔ TransGen (Linked edges) a.id b.id := by
  have hedge : ∀ i j, fn.Edge i j ↔
      ∃ a b, rows[i]? = some a ∧ rows[j]? = some b ∧ Linked edges a.id b.id := by
    intro i j
    rw [Function.Edge, hfn]
    exact mem_succ_graphOf h
  constructor
  · intro hpath
    have hlinked : TransGen (Linked edges) (idAt rows i) (idAt rows j) := by
      refine TransGen.lift (idAt rows) (fun i j hij => ?_) i j hpath
      obtain ⟨a, b, ha, hb, hlinked⟩ := (hedge i j).mp hij
      rwa [Function.onFun, idAt_eq ha, idAt_eq hb]
    rwa [idAt_eq ha, idAt_eq hb] at hlinked
  · intro hpath
    have hedges : TransGen fn.Edge (positionOf rows a.id) (positionOf rows b.id) := by
      refine TransGen.lift (positionOf rows) (fun x y hxy => ?_) _ _ hpath
      obtain ⟨e, he, rfl, rfl⟩ := hxy
      obtain ⟨⟨a, ha, hsource⟩, b, hb, htarget⟩ := hinside e he
      obtain ⟨i, hi⟩ := List.mem_iff_getElem?.mp ha
      obtain ⟨j, hj⟩ := List.mem_iff_getElem?.mp hb
      rw [Function.onFun, ← hsource, ← htarget, positionOf_eq h hi, positionOf_eq h hj]
      exact (hedge i j).mpr ⟨a, b, hi, hj, e, he, hsource.symm, htarget.symm⟩
    rwa [positionOf_eq h ha, positionOf_eq h hb] at hedges

/-! ### The checks, one by one -/

theorem positions_eq_singleton_iff {α : Type} {q : α → Bool} {l : List α} {e : Nat} :
    (l.zipIdx.filter (q ·.1)).map (·.2) = [e] ↔
      ∀ i, (∃ a, l[i]? = some a ∧ q a = true) ↔ i = e := by
  have hnodup : ((l.zipIdx.filter (q ·.1)).map (·.2)).Nodup := by
    refine List.Nodup.sublist (List.filter_sublist.map _) ?_
    rw [List.zipIdx_map_snd]
    exact List.nodup_range'
  rw [← List.perm_singleton, List.perm_ext_iff_of_nodup hnodup (List.nodup_singleton e)]
  simp only [List.mem_map, List.mem_filter, Prod.exists, List.mk_mem_zipIdx_iff_getElem?,
    List.mem_singleton, exists_eq_right]

section

variable {e : Nat} {r : BlockFact}

/-- One block is an entry when one row is. -/
theorem entries_graphOf_iff (h : (rows.map (·.id)).Nodup) (hr : rows[e]? = some r) :
    ((graphOf rows edges).toList.zipIdx.filter (·.1.isEntry)).map (·.2) = [e] ↔
      ∀ b ∈ rows, b.type = "entry" ↔ b = r := by
  have hentry : ∀ i : Nat, (∃ block, (graphOf rows edges).toList[i]? = some block ∧
      block.isEntry = true) ↔ ∃ b, rows[i]? = some b ∧ b.type = "entry" := by
    intro i
    rw [Array.getElem?_toList, graphOf, getElem?_connect]
    cases rows[i]? with
    | none => simp
    | some b => simp [Block.isEntry]
  rw [positions_eq_singleton_iff]
  simp only [hentry, List.mem_iff_getElem?]
  constructor
  · rintro hone b ⟨i, hi⟩
    constructor
    · intro hb
      obtain rfl := (hone i).mp ⟨b, hi, hb⟩
      exact Option.some.inj (hi.symm.trans hr)
    · rintro rfl
      obtain ⟨b', hb', htype⟩ := (hone e).mpr rfl
      rwa [Option.some.inj (hr.symm.trans hb')]
  · intro hone i
    constructor
    · rintro ⟨b, hi, hb⟩
      obtain rfl := (hone b ⟨i, hi⟩).mp hb
      exact position_inj h hi hr
    · rintro rfl
      exact ⟨r, hr, (hone r ⟨i, hr⟩).mpr rfl⟩

/-- Blocks have successors when rows are sources of edges. -/
theorem successors_graphOf_iff (h : (rows.map (·.id)).Nodup) (hinside : Inside rows edges) :
    (∀ b ∈ graphOf rows edges, b.isExit = true ∨ b.succ ≠ []) ↔
      ∀ b ∈ rows, b.type ≠ "exit" → ∃ e ∈ edges, e.source = b.id := by
  have hblock : ∀ {i : Nat} {b : BlockFact}, rows[i]? = some b → ∃ block,
      (graphOf rows edges)[i]? = some block ∧ (block.isExit = true ↔ b.type = "exit") := by
    intro i b hb
    rw [graphOf, getElem?_connect, hb]
    exact ⟨_, rfl, by simp [Block.isExit]⟩
  constructor
  · intro hsucc b hb hexit
    obtain ⟨i, hi⟩ := List.mem_iff_getElem?.mp hb
    obtain ⟨block, hblock, hiff⟩ := hblock hi
    obtain ⟨j, hj⟩ := List.exists_mem_of_ne_nil _
      ((hsucc block (Array.mem_of_getElem? hblock)).resolve_left fun h => hexit (hiff.mp h))
    obtain ⟨a, -, ha, -, edge, hedge, hsource, -⟩ := (mem_succ_graphOf h).mp ⟨block, hblock, hj⟩
    obtain rfl := Option.some.inj (hi.symm.trans ha)
    exact ⟨edge, hedge, hsource⟩
  · intro hsucc block hmem
    obtain ⟨i, hi⟩ := Array.mem_iff_getElem?.mp hmem
    obtain ⟨b, hb⟩ : ∃ b, rows[i]? = some b := by
      rw [graphOf, getElem?_connect, Option.map_eq_some_iff] at hi
      obtain ⟨b, hb, -⟩ := hi
      exact ⟨b, hb⟩
    obtain ⟨block', hblock', hiff⟩ := hblock hb
    obtain rfl := Option.some.inj (hi.symm.trans hblock')
    by_cases hexit : b.type = "exit"
    · exact Or.inl (hiff.mpr hexit)
    · right
      obtain ⟨edge, hedge, hsource⟩ := hsucc b (List.mem_of_getElem? hb) hexit
      obtain ⟨-, b', hb', htarget⟩ := hinside edge hedge
      obtain ⟨j, hj⟩ := List.mem_iff_getElem?.mp hb'
      obtain ⟨block', hblock', hsucc⟩ := (mem_succ_graphOf h).mpr
        ⟨b, b', hb, hj, edge, hedge, hsource, htarget.symm⟩
      obtain rfl := Option.some.inj (hi.symm.trans hblock')
      exact List.ne_nil_of_mem hsucc

/-- Blocks are reached from the entry when paths lead to their rows. -/
theorem reached_graphOf_iff {fn : Function} (hfn : fn.Sound)
    (hblocks : fn.blocks = graphOf rows edges) (h : (rows.map (·.id)).Nodup)
    (hinside : Inside rows edges) (hr : rows[e]? = some r) :
    (∀ j, j < fn.blocks.size → j = e ∨ fn.reaches e j = true) ↔
      ∀ b ∈ rows, b ≠ r → TransGen (Linked edges) r.id b.id := by
  have hsize : fn.blocks.size = rows.length := by rw [hblocks, graphOf, size_connect]
  simp only [hsize, hfn.reaches_iff]
  constructor
  · intro hreach b hb hne
    obtain ⟨j, hj⟩ := List.mem_iff_getElem?.mp hb
    refine (transGen_edge_iff hblocks h hinside hr hj).mp
      ((hreach j (List.getElem?_eq_some_iff.mp hj).1).resolve_left ?_)
    rintro rfl
    exact hne (Option.some.inj (hj.symm.trans hr))
  · intro hpath j hlt
    refine or_iff_not_imp_left.mpr fun hne => ?_
    have hj := List.getElem?_eq_getElem hlt
    refine (transGen_edge_iff hblocks h hinside hr hj).mpr
      (hpath _ (List.getElem_mem hlt) fun hsame => hne ?_)
    exact position_inj h (hsame ▸ hj) hr

end

end

/-! ### Functions that are built -/

section

variable (c : Cache) (file name : String)

theorem blocks_buildFunction : (buildFunction c file name).blocks =
    graphOf (distinctBlocks (blockRows c file name)) (edgeRows c file name) :=
  rfl

/-- With distinct ids, the blocks of a function are its rows. -/
theorem blocks_buildFunction_of_nodup (h : ((blockRows c file name).map (·.id)).Nodup) :
    (buildFunction c file name).blocks =
      graphOf (blockRows c file name) (edgeRows c file name) := by
  rw [blocks_buildFunction, distinctBlocks_eq_self h]

/-- The checks of the graph, read off the rows. -/
theorem passes_buildFunction_iff (h : ((blockRows c file name).map (·.id)).Nodup)
    (hinside : Inside (blockRows c file name) (edgeRows c file name)) {e : Nat} {r : BlockFact}
    (hr : (blockRows c file name)[e]? = some r) :
    Passes (buildFunction c file name).blocks (buildFunction c file name).reach e ↔
      (∀ b ∈ blockRows c file name, b.type = "entry" ↔ b = r) ∧
        (∀ b ∈ blockRows c file name, b.type ≠ "exit" →
          ∃ edge ∈ edgeRows c file name, edge.source = b.id) ∧
        ∀ b ∈ blockRows c file name, b ≠ r →
          TransGen (Linked (edgeRows c file name)) r.id b.id := by
  have hblocks := blocks_buildFunction_of_nodup c file name h
  rw [← entries_graphOf_iff h hr, ← successors_graphOf_iff h hinside, ← hblocks,
    ← reached_graphOf_iff (sound_buildFunction c file name) hblocks h hinside hr]
  exact ⟨fun hp => ⟨hp.entries, hp.successors, hp.reached⟩, fun hp => ⟨hp.1, hp.2.1, hp.2.2⟩⟩

/-- **The checks decide what is asked of the rows.** -/
theorem analyzable_iff_admissible : (buildFunction c file name).analyzable = true ↔
    Admissible (blockRows c file name) (edgeRows c file name) := by
  constructor
  · intro hanalyzable
    obtain ⟨e, he, hlt, -⟩ := (sound_buildFunction c file name).entry hanalyzable
    obtain ⟨hids, hends, hpasses⟩ := (analyzable_buildFunction_iff file name).mp ⟨hanalyzable, he⟩
    have hids := (lastDuplicate?_eq_none_iff.mp hids).1
    rw [distinctBlocks_eq_self hids] at hends
    have hinside : Inside (blockRows c file name) (edgeRows c file name) :=
      fun edge hedge => (isSome_edgeEnds?_iff hids).mp (hends edge hedge)
    rw [blocks_buildFunction_of_nodup c file name hids, graphOf, size_connect] at hlt
    have hr := List.getElem?_eq_getElem hlt
    obtain ⟨hone, hsucc, hreached⟩ := (passes_buildFunction_iff c file name hids hinside hr).mp
      hpasses
    have hmem := List.getElem_mem hlt
    refine ⟨hids, hinside, ⟨_, ⟨hmem, (hone _ hmem).mpr rfl⟩, fun b hb => (hone b hb.1).mp hb.2⟩,
      hsucc, fun r hmem htype => ?_⟩
    rw [(hone r hmem).mp htype]
    exact hreached
  · intro hrows
    obtain ⟨r, ⟨hmem, htype⟩, hunique⟩ := hrows.entry
    obtain ⟨e, hr⟩ := List.mem_iff_getElem?.mp hmem
    refine ((analyzable_buildFunction_iff (e := e) file name).mpr ⟨?_, fun edge hedge => ?_, ?_⟩).1
    · exact lastDuplicate?_eq_none_iff.mpr ⟨hrows.distinct, fun _ _ => List.not_mem_nil⟩
    · rw [distinctBlocks_eq_self hrows.distinct]
      exact (isSome_edgeEnds?_iff hrows.distinct).mpr (hrows.inside edge hedge)
    · refine (passes_buildFunction_iff c file name hrows.distinct hrows.inside hr).mpr
        ⟨fun b hb => ⟨fun h => hunique b ⟨hb, h⟩, fun h => h ▸ htype⟩, hrows.successor,
          hrows.reached r hmem htype⟩

/-- The blocks of a function that can be analysed have the ids of its rows, in their order. -/
theorem ids_of_analyzable (h : (buildFunction c file name).analyzable = true) :
    (buildFunction c file name).blocks.toList.map Block.id =
      (blockRows c file name).map (·.id) := by
  have hids := ((analyzable_iff_admissible c file name).mp h).distinct
  rw [blocks_buildFunction_of_nodup c file name hids]
  refine List.ext_getElem? fun i => ?_
  rw [List.getElem?_map, List.getElem?_map, Array.getElem?_toList, graphOf, getElem?_connect,
    Option.map_map]
  rfl

/-- **The sets of reachable blocks are those of the recorded edges**, between ids. -/
theorem reaches_iff_linked (h : (buildFunction c file name).analyzable = true) {i j : Nat}
    {a b : Block} (ha : (buildFunction c file name).blocks[i]? = some a)
    (hb : (buildFunction c file name).blocks[j]? = some b) :
    (buildFunction c file name).reaches i j = true ↔
      TransGen (Linked (edgeRows c file name)) a.id b.id := by
  have hrows := (analyzable_iff_admissible c file name).mp h
  have hblocks := blocks_buildFunction_of_nodup c file name hrows.distinct
  have hrow : ∀ {i : Nat} {a : Block}, (buildFunction c file name).blocks[i]? = some a →
      ∃ r, (blockRows c file name)[i]? = some r ∧ a.id = r.id := by
    intro i a ha
    rw [hblocks, graphOf, getElem?_connect, Option.map_eq_some_iff] at ha
    obtain ⟨r, hr, rfl⟩ := ha
    exact ⟨r, hr, rfl⟩
  obtain ⟨r, hr, hid⟩ := hrow ha
  obtain ⟨q, hq, hid'⟩ := hrow hb
  rw [(sound_buildFunction c file name).reaches_iff, hid, hid']
  exact transGen_edge_iff hblocks hrows.distinct hrows.inside hr hq

end

/-! ### Order and repetition of edges -/

/-- Numbers in ascending order do not depend on the order that they had. -/
theorem ascending_eq_of_perm {l l' : List Nat} (h : l.Perm l') : ascending l = ascending l' := by
  have hperm : ∀ l : List Nat, (ascending l).Perm l := fun l => List.mergeSort_perm l _
  refine List.Perm.eq_of_pairwise (fun a b _ _ hab hba => ?_) (pairwise_sortBy compare l)
    (pairwise_sortBy compare l') ((hperm l).trans (h.trans (hperm l').symm))
  rw [Nat.isLE_compare] at hab hba
  omega

theorem connect_eq_of_perm {rows : List BlockFact} {pairs pairs' : List (Nat × Nat)}
    (h : pairs.Perm pairs') : connect rows pairs = connect rows pairs' := by
  unfold connect
  congr 1
  refine List.map_congr_left fun e _ => ?_
  dsimp only
  rw [ascending_eq_of_perm ((h.filter (·.1 == e.2)).map (·.2)),
    ascending_eq_of_perm ((h.filter (·.2 == e.2)).map (·.1))]

theorem edgeEnds?_congr {rows : List BlockFact} {e e' : EdgeFact} (hsource : e'.source = e.source)
    (htarget : e'.target = e.target) : edgeEnds? rows e' = edgeEnds? rows e := by
  rw [edgeEnds?, edgeEnds?, hsource, htarget]

section

variable {edges edges' : List EdgeFact}

/-- The ends of edges are those of the pairs of ids that they link. -/
theorem exists_edgeEnds?_iff (h : ∀ s t, Linked edges' s t ↔ Linked edges s t)
    {rows : List BlockFact} {q : Option (Nat × Nat) → Prop} :
    (∃ e ∈ edges', q (edgeEnds? rows e)) ↔ ∃ e ∈ edges, q (edgeEnds? rows e) := by
  constructor
  · rintro ⟨e, he, hq⟩
    obtain ⟨e', he', hsource, htarget⟩ := (h e.source e.target).mp ⟨e, he, rfl, rfl⟩
    exact ⟨e', he', edgeEnds?_congr hsource htarget ▸ hq⟩
  · rintro ⟨e, he, hq⟩
    obtain ⟨e', he', hsource, htarget⟩ := (h e.source e.target).mpr ⟨e, he, rfl, rfl⟩
    exact ⟨e', he', edgeEnds?_congr hsource htarget ▸ hq⟩

/-- The graph depends on the linked ids only. -/
theorem graphOf_congr (h : ∀ s t, Linked edges' s t ↔ Linked edges s t)
    (rows : List BlockFact) : graphOf rows edges' = graphOf rows edges := by
  refine connect_eq_of_perm ((List.perm_ext_iff_of_nodup (nodup_firsts _) (nodup_firsts _)).mpr ?_)
  intro e
  rw [mem_firsts, mem_firsts, List.mem_filterMap, List.mem_filterMap]
  exact exists_edgeEnds?_iff h (q := (· = some e))

/-- What is found wrong with rows before their graph is looked at. -/
def rowDefect? (rows : List BlockFact) (edges : List EdgeFact) : Option Defect :=
  (lastDuplicate? [] rows).map Defect.duplicateBlock
    <|> (edges.find? fun e => (edgeEnds? (distinctBlocks rows) e).isNone).map fun e =>
      .strayEdge e.id

/-- What is found of rows and their graph. -/
def checkRows (rows : List BlockFact) (edges : List EdgeFact) : Check :=
  match rowDefect? rows edges with
  | some d => { defect := some d }
  | none =>
    let blocks := graphOf (distinctBlocks rows) edges
    checkGraph blocks (reachability blocks)

theorem rowDefect?_congr (h : ∀ s t, Linked edges' s t ↔ Linked edges s t) (rows : List BlockFact) :
    rowDefect? rows edges' = rowDefect? rows edges ∨ ∃ id id',
      rowDefect? rows edges = some (.strayEdge id) ∧
        rowDefect? rows edges' = some (.strayEdge id') := by
  have hstray : (edges'.find? fun e => (edgeEnds? (distinctBlocks rows) e).isNone).isSome = true ↔
      (edges.find? fun e => (edgeEnds? (distinctBlocks rows) e).isNone).isSome = true := by
    rw [List.find?_isSome, List.find?_isSome]
    exact exists_edgeEnds?_iff h (q := (·.isNone = true))
  unfold rowDefect?
  generalize edges'.find? (fun e => (edgeEnds? (distinctBlocks rows) e).isNone) = stray'
    at hstray ⊢
  generalize edges.find? (fun e => (edgeEnds? (distinctBlocks rows) e).isNone) = stray
    at hstray ⊢
  cases lastDuplicate? [] rows with
  | some id => exact Or.inl rfl
  | none =>
    cases stray with
    | none =>
      cases stray' with
      | none => exact Or.inl rfl
      | some e' => exact absurd (hstray.mp rfl) Bool.false_ne_true
    | some e =>
      cases stray' with
      | none => exact absurd (hstray.mpr rfl) Bool.false_ne_true
      | some e' => exact Or.inr ⟨e.id, e'.id, rfl, rfl⟩

end

theorem check_buildFunction (c : Cache) (file name : String) :
    let check := checkRows (blockRows c file name) (edgeRows c file name)
    (buildFunction c file name).entry = check.entry ∧
      (buildFunction c file name).line = check.line ∧
      (buildFunction c file name).defect = check.defect :=
  ⟨rfl, rfl, rfl⟩

/-- Two functions have the same graph and pass the same checks.  Where several edges leave the
function, another one may be named. -/
structure Function.SameGraph (fn fn' : Function) : Prop where
  analyzable : fn'.analyzable = fn.analyzable
  blocks : fn'.blocks = fn.blocks
  reach : fn'.reach = fn.reach
  entry : fn'.entry = fn.entry
  line : fn'.line = fn.line
  defect : fn'.defect = fn.defect ∨
    ∃ id id', fn.defect = some (.strayEdge id) ∧ fn'.defect = some (.strayEdge id')

/-- **Neither the order nor the repetition of edges matters.** -/
theorem sameGraph_buildFunction {c c' : Cache} {file name : String} (hblocks : c'.blocks = c.blocks)
    (hedges : ∀ s t, Linked (edgeRows c' file name) s t ↔ Linked (edgeRows c file name) s t) :
    (buildFunction c file name).SameGraph (buildFunction c' file name) := by
  have hrows : blockRows c' file name = blockRows c file name := by
    rw [blockRows, hblocks, blockRows]
  have hgraph : (buildFunction c' file name).blocks = (buildFunction c file name).blocks := by
    rw [blocks_buildFunction, blocks_buildFunction, hrows, graphOf_congr hedges]
  obtain ⟨hentry, hline, hdefect⟩ := check_buildFunction c file name
  obtain ⟨hentry', hline', hdefect'⟩ := check_buildFunction c' file name
  rw [hrows] at hentry' hline' hdefect'
  have hreach : (buildFunction c' file name).reach = (buildFunction c file name).reach := by
    rw [(sound_buildFunction c' file name).reach, (sound_buildFunction c file name).reach, hgraph]
  rcases rowDefect?_congr hedges (blockRows c file name) with hsame | ⟨id, id', hstray, hstray'⟩
  · have hcheck : checkRows (blockRows c file name) (edgeRows c' file name) =
        checkRows (blockRows c file name) (edgeRows c file name) := by
      rw [checkRows, checkRows, hsame, graphOf_congr hedges]
    rw [hcheck] at hentry' hline' hdefect'
    have hdefect := hdefect'.trans hdefect.symm
    exact ⟨congrArg Option.isNone hdefect, hgraph, hreach, hentry'.trans hentry.symm,
      hline'.trans hline.symm, Or.inl hdefect⟩
  · simp only [checkRows, hstray, hstray'] at hentry hline hdefect hentry' hline' hdefect'
    refine ⟨?_, hgraph, hreach, hentry'.trans hentry.symm, hline'.trans hline.symm,
      Or.inr ⟨id, id', hdefect, hdefect'⟩⟩
    rw [Function.analyzable, Function.analyzable, hdefect, hdefect']
    rfl

/-! ### The checks as a whole -/

/-- The functions are those of the recorded blocks. -/
theorem mem_functions_ofCache {c : Cache} {fn : Function} :
    fn ∈ (Code.ofCache c).functions ↔ ∃ b ∈ c.blocks, fn = buildFunction c b.file b.function := by
  simp only [Code.ofCache, List.mem_toArray, List.mem_map, Code.keys, mem_sortBy, mem_firsts,
    Prod.exists]
  constructor
  · rintro ⟨file, name, ⟨b, hb, hkey⟩, rfl⟩
    obtain ⟨rfl, rfl⟩ := Prod.mk.inj hkey
    exact ⟨b, hb, rfl⟩
  · rintro ⟨b, hb, rfl⟩
    exact ⟨b.file, b.function, ⟨b, hb, rfl⟩, rfl⟩

/-- **The checks of graphs are exact.**  For all rows of blocks and edges, the functions are those
that blocks are recorded for.  A function can be analysed exactly when its block ids are distinct,
every edge that names it has both ends among its blocks, exactly one block is an entry, every block
but an exit has a successor, and a path leads from the entry to every other block.  Then its blocks
are those of its rows, and one block reaches another exactly when a non-empty path of recorded edges
leads from it to the other.  Rows of edges in another order, or recorded more or less often, give
the same graph and the same outcome. -/
theorem graph_checks_exact (c : Cache) :
    (∀ fn, fn ∈ (Code.ofCache c).functions ↔
        ∃ b ∈ c.blocks, fn = buildFunction c b.file b.function) ∧
      ∀ file name,
        let fn := buildFunction c file name
        let blocks := blockRows c file name
        let edges := edgeRows c file name
        (fn.analyzable = true ↔ Admissible blocks edges) ∧
          (fn.analyzable = true → fn.blocks.toList.map Block.id = blocks.map (·.id) ∧
            ∀ i j a b, fn.blocks[i]? = some a → fn.blocks[j]? = some b →
              (fn.reaches i j = true ↔ TransGen (Linked edges) a.id b.id)) ∧
          ∀ c' : Cache, c'.blocks = c.blocks →
            (∀ s t, Linked (edgeRows c' file name) s t ↔ Linked edges s t) →
              fn.SameGraph (buildFunction c' file name) := by
  refine ⟨fun fn => mem_functions_ofCache, fun file name => ⟨?_, fun h => ⟨?_, ?_⟩, ?_⟩⟩
  · exact analyzable_iff_admissible c file name
  · exact ids_of_analyzable c file name h
  · exact fun i j a b ha hb => reaches_iff_linked c file name h ha hb
  · exact fun c' hblocks hedges => sameGraph_buildFunction hblocks hedges

theorem buildFunction_sampleCache :
    buildFunction sampleCache "app" "main" = sampleFunction "main" 1 1 9 [] := by
  obtain ⟨hb, he, hp, -⟩ := sampleCache_facts
  unfold buildFunction
  rw [hb, he, hp]
  cbv

/-- In the sample, the rows of `main` pass the checks, a path leads from its first block to its
second one, and recording that edge once more changes nothing. -/
theorem graph_checks_exact_sample :
    Admissible (blockRows sampleCache "app" "main") (edgeRows sampleCache "app" "main") ∧
      TransGen (Linked (edgeRows sampleCache "app" "main")) 1 2 ∧
      (buildFunction sampleCache "app" "main").SameGraph (buildFunction (sampleCache.addEdge
        ⟨[.int 4, .text "app", .text "main", .int 1, .int 2, .text "normal"]⟩) "app" "main") := by
  obtain ⟨-, h⟩ := graph_checks_exact sampleCache
  obtain ⟨hiff, hreaches, hsame⟩ := h "app" "main"
  have hanalyzable : (buildFunction sampleCache "app" "main").analyzable = true := by
    rw [buildFunction_sampleCache]
    rfl
  refine ⟨hiff.mp hanalyzable, ?_, hsame _ (by decide +kernel) fun s t => ?_⟩
  · refine ((hreaches hanalyzable).2 0 1
      { id := 1, type := "entry", start := 1, stop := 9, succ := [1] }
      { id := 2, type := "exit", start := 9, stop := 9, pred := [0] } ?_ ?_).mp ?_
    all_goals rw [buildFunction_sampleCache]; rfl
  · have hedges : edgeRows (sampleCache.addEdge
        ⟨[.int 4, .text "app", .text "main", .int 1, .int 2, .text "normal"]⟩) "app" "main" =
        [⟨1, "app", "main", 1, 2⟩, ⟨4, "app", "main", 1, 2⟩] := by decide +kernel
    have hold : edgeRows sampleCache "app" "main" = [⟨1, "app", "main", 1, 2⟩] := by
      decide +kernel
    simp [Linked, hedges, hold]

end Flow

end TaintFlow
