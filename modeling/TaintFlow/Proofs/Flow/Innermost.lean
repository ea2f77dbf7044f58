import Mathlib.Data.List.MinMax
import TaintFlow.Proofs.Flow.Placement

/-!
# Lines stand in the innermost block

A line is looked for in the hinted function of its file, or in all functions of the file when there
is no such function.  Of the blocks there that hold the line it is placed in the one that comes
first in an order on blocks: those that are neither entry nor exit, then the narrower ones, then
those with a smaller id, then by position.  The search keeps the best block so far; as it walks the
functions and their blocks in ascending order, the first least block is the least one when ties are
broken by position.

## Main definitions

* `Code.LooksIn` — the functions in which a line is looked for.
* `Code.HoldsLine` — the blocks of these functions that hold the line.
* `Code.placeKey` — what blocks are compared by, positions included.

## Main results

* `mem_candidates_iff`, `mem_spots_iff` — what the search walks through.
* `argmin_eq_some_iff_le` — the first least element of a list in ascending order.
* `place_innermost` — a line is placed in the least block that holds it, if there is one.
-/

namespace TaintFlow

/-! ### First least elements -/

section

variable {α β γ : Type} [LinearOrder β] [LinearOrder γ] [DecidableEq α] {l : List α} {x y : α}

/-- In an ascending list the elements stand in their order. -/
theorem idxOf_le_idxOf_iff {pos : α → γ} (hl : l.Pairwise fun x y => pos x < pos y) (hx : x ∈ l)
    (hy : y ∈ l) : l.idxOf x ≤ l.idxOf y ↔ pos x ≤ pos y := by
  have hlt : ∀ {x y}, x ∈ l → y ∈ l → l.idxOf x < l.idxOf y → pos x < pos y := by
    intro x y hx hy h
    have hpos := List.pairwise_iff_getElem.mp hl _ _ (List.idxOf_lt_length_iff.mpr hx)
      (List.idxOf_lt_length_iff.mpr hy) h
    rwa [List.getElem_idxOf, List.getElem_idxOf] at hpos
  constructor
  · intro h
    rcases Nat.lt_or_eq_of_le h with h | h
    · exact le_of_lt (hlt hx hy h)
    · rw [(List.idxOf_inj hx).mp h]
  · intro h
    by_contra hnot
    exact absurd (hlt hy hx (Nat.lt_of_not_le hnot)) (not_lt.mpr h)

/-- **The first least element of an ascending list** is the least one when ties are broken by
position. -/
theorem argmin_eq_some_iff_le (key : α → β) {pos : α → γ}
    (hl : l.Pairwise fun x y => pos x < pos y) : l.argmin key = some x ↔
      x ∈ l ∧ ∀ y ∈ l, toLex (key x, pos x) ≤ toLex (key y, pos y) := by
  rw [List.argmin_eq_some_iff]
  refine and_congr_right fun hx => ?_
  simp only [Prod.Lex.toLex_le_toLex']
  constructor
  · rintro ⟨hkey, hfirst⟩ y hy
    exact ⟨hkey y hy, fun heq => (idxOf_le_idxOf_iff hl hx hy).mp (hfirst y hy (le_of_eq heq.symm))⟩
  · intro h
    refine ⟨fun y hy => (h y hy).1, fun y hy hle => (idxOf_le_idxOf_iff hl hx hy).mpr ?_⟩
    exact (h y hy).2 (le_antisymm (h y hy).1 hle)

theorem pairwise_zipIdx {α : Type} (l : List α) : l.zipIdx.Pairwise fun x y => x.2 < y.2 := by
  have hindices : (l.zipIdx.map Prod.snd).Pairwise (· < ·) := by
    rw [List.zipIdx_map_snd]
    exact List.pairwise_lt_range'
  exact List.pairwise_map.mp hindices

end

namespace Flow.Code

variable {a : Code} {file hint : String} {line : Int}

/-! ### Where a line is looked for -/

/-- A hint names a function of a file: the first one with that file and name. -/
structure Hinted (a : Code) (file hint : String) (i : Nat) : Prop where
  given : hint ≠ ""
  names : ∃ fn, a.functions[i]? = some fn ∧ fn.file = file ∧ fn.name = hint
  first : ∀ j fn, j < i → a.functions[j]? = some fn → ¬ (fn.file = file ∧ fn.name = hint)

/-- A line is looked for in the functions of its file, and in the hinted one only if there is such a
function. -/
structure LooksIn (a : Code) (file hint : String) (i : Nat) (fn : Function) : Prop where
  function : a.functions[i]? = some fn
  inFile : fn.file = file
  hinted : ∀ j, a.Hinted file hint j → i = j

/-- A block of a function in which a line is looked for holds the line. -/
structure HoldsLine (a : Code) (file hint : String) (line : Int) (spot : Spot) (b : Block) :
    Prop where
  block : ∃ fn, a.LooksIn file hint spot.function fn ∧ fn.blocks[spot.block]? = some b
  start : b.start ≤ line
  stop : line ≤ b.stop

theorem find?_eq_some_iff {i : Nat} (hhint : hint ≠ "") :
    a.find? file hint = some i ↔ a.Hinted file hint i := by
  rw [find?, Array.findIdx?_eq_some_iff_getElem]
  simp only [Bool.and_eq_true, beq_iff_eq]
  constructor
  · rintro ⟨hi, hnames, hfirst⟩
    refine ⟨hhint, ⟨_, Array.getElem?_eq_getElem hi, hnames⟩, fun j fn hj hfn => ?_⟩
    obtain ⟨hlt, rfl⟩ := Array.getElem?_eq_some_iff.mp hfn
    exact hfirst j hj
  · rintro ⟨-, ⟨fn, hfn, hnames⟩, hfirst⟩
    obtain ⟨hi, rfl⟩ := Array.getElem?_eq_some_iff.mp hfn
    exact ⟨hi, hnames, fun j hj => hfirst j _ hj (Array.getElem?_eq_getElem _)⟩

/-- The hinted function, if there is one. -/
theorem hinted?_eq_some_iff {i : Nat} :
    (if hint.isEmpty then none else a.find? file hint) = some i ↔ a.Hinted file hint i := by
  by_cases hhint : hint = ""
  · subst hhint
    exact ⟨nofun, fun h => absurd rfl h.given⟩
  · have hempty : hint.isEmpty = false := by simpa using hhint
    rw [hempty, if_neg Bool.false_ne_true]
    exact find?_eq_some_iff hhint

/-- The search walks through the functions in which the line is to be looked for. -/
theorem mem_candidates_iff {i : Nat} {fn : Function} :
    (i, fn) ∈ a.candidates file hint ↔ a.LooksIn file hint i fn := by
  cases hhinted : (if hint.isEmpty then none else a.find? file hint) with
  | none =>
    have hnone : ∀ j, ¬ a.Hinted file hint j := fun j hj => by
      rw [hinted?_eq_some_iff.mpr hj] at hhinted
      cases hhinted
    simp only [candidates, hhinted, Option.bind_none, List.mem_map, List.mem_filter, Prod.exists,
      beq_iff_eq, List.mk_mem_zipIdx_iff_getElem?, Array.getElem?_toList, Prod.mk.injEq]
    constructor
    · rintro ⟨fn, i, ⟨hfn, hfile⟩, rfl, rfl⟩
      exact ⟨hfn, hfile, fun j hj => absurd hj (hnone j)⟩
    · rintro ⟨hfn, hfile, -⟩
      exact ⟨fn, i, ⟨hfn, hfile⟩, rfl, rfl⟩
  | some j =>
    have hj := hinted?_eq_some_iff.mp hhinted
    obtain ⟨g, hg, hfile, -⟩ := hj.names
    simp only [candidates, hhinted, Option.bind_some, hg, Option.map_some, List.mem_singleton,
      Prod.mk.injEq]
    constructor
    · rintro ⟨rfl, rfl⟩
      refine ⟨hg, hfile, fun k hk => ?_⟩
      have hsame := hinted?_eq_some_iff.mpr hk
      rw [hhinted] at hsame
      exact Option.some.inj hsame
    · rintro ⟨hfn, -, hsame⟩
      obtain rfl := hsame j hj
      exact ⟨rfl, Option.some.inj (hfn.symm.trans hg)⟩

/-- The blocks that hold a line, in the order in which the search meets them. -/
def spots (a : Code) (file hint : String) (line : Int) : List (Spot × Block) :=
  (a.candidates file hint).flatMap fun (i, f) => spotsIn line i f

theorem mem_spots_iff {spot : Spot} {b : Block} :
    (spot, b) ∈ a.spots file hint line ↔ a.HoldsLine file hint line spot b := by
  simp only [spots, List.mem_flatMap, Prod.exists, mem_candidates_iff, spotsIn, List.mem_map,
    List.mem_filter, List.mk_mem_zipIdx_iff_getElem?, Array.getElem?_toList, Block.holds,
    Bool.and_eq_true, decide_eq_true_eq, Prod.mk.injEq]
  constructor
  · rintro ⟨i, fn, hfn, b, j, ⟨hb, hstart, hstop⟩, rfl, rfl⟩
    exact ⟨⟨fn, hfn, hb⟩, hstart, hstop⟩
  · rintro ⟨⟨fn, hfn, hb⟩, hstart, hstop⟩
    exact ⟨spot.function, fn, hfn, b, spot.block, ⟨hb, hstart, hstop⟩, rfl, rfl⟩

/-! ### The order of the search -/

/-- Where a block stands. -/
def Spot.position (s : Spot) : ℕ ×ₗ ℕ :=
  toLex (s.function, s.block)

theorem pairwise_candidates (a : Code) (file hint : String) :
    (a.candidates file hint).Pairwise fun x y => x.1 < y.1 := by
  simp only [candidates]
  split
  · exact List.pairwise_singleton _ _
  · exact List.pairwise_map.mpr ((pairwise_zipIdx _).filter _)

/-- The search walks through the functions and their blocks in ascending order. -/
theorem pairwise_spots (a : Code) (file hint : String) (line : Int) :
    (a.spots file hint line).Pairwise fun x y => x.1.position < y.1.position := by
  refine List.pairwise_flatMap.mpr ⟨fun ⟨i, fn⟩ _ => ?_, (pairwise_candidates a file hint).imp ?_⟩
  · refine List.pairwise_map.mpr (((pairwise_zipIdx _).filter _).imp fun h => ?_)
    exact Prod.Lex.toLex_lt_toLex.mpr (Or.inr ⟨rfl, h⟩)
  · rintro ⟨i, fn⟩ ⟨j, g⟩ hlt x hx y hy
    refine Prod.Lex.toLex_lt_toLex.mpr (Or.inl ?_)
    rw [function_of_mem_spotsIn hx, function_of_mem_spotsIn hy]
    exact hlt

/-- What blocks are compared by: those at the edge of a function come last, then the wider ones,
then those with a greater id, then those of later functions, then later ones. -/
def placeKey (spot : Spot) (b : Block) : Bool ×ₗ Int ×ₗ Int ×ₗ ℕ ×ₗ ℕ :=
  toLex (b.isEntry || b.isExit, toLex (b.stop - b.start, toLex (b.id, spot.position)))

theorem width_eq {b : Block} (hstart : b.start ≤ line) (hstop : line ≤ b.stop)
    (hwidth : b.stop - b.start < 0x8000000000000000) : width b = b.stop - b.start :=
  Int.bmod_eq_of_le (by omega) (by omega)

/-- Blocks are compared by how far outside they are, and by their positions. -/
theorem placeKey_le_iff {spot spot' : Spot} {b c : Block} (hb : width b = b.stop - b.start)
    (hc : width c = c.stop - c.start) : placeKey spot b ≤ placeKey spot' c ↔
      toLex (outerness b, spot.position) ≤ toLex (outerness c, spot'.position) := by
  simp only [placeKey, outerness, Prod.Lex.toLex_le_toLex, Prod.Lex.toLex_lt_toLex, hb, hc,
    EmbeddingLike.apply_eq_iff_eq, Prod.mk.injEq]
  tauto

/-- **A line is placed in the innermost block that holds it.**  Without a block that holds the line,
in the functions in which it is looked for, it is placed nowhere.  Otherwise it is placed in the
least of these blocks: neither entry nor exit if possible, then the narrowest, then the one with the
least id, then the first one.  The widths of the blocks have to fit into 64 bits. -/
theorem place_innermost
    (hwidth : ∀ spot b, a.HoldsLine file hint line spot b →
      b.stop - b.start < 0x8000000000000000) :
    (a.place file line hint = none ↔ ∀ spot b, ¬ a.HoldsLine file hint line spot b) ∧
      ∀ spot, a.place file line hint = some spot ↔ ∃ b, a.HoldsLine file hint line spot b ∧
        ∀ spot' b', a.HoldsLine file hint line spot' b' → placeKey spot b ≤ placeKey spot' b' := by
  have hinnermost : a.place file line hint =
      ((a.spots file hint line).argmin fun x => outerness x.2).map (·.1) := by
    rw [← innermost_eq_argmin]
    rfl
  have hnarrow : ∀ {spot b}, a.HoldsLine file hint line spot b → width b = b.stop - b.start :=
    fun h => width_eq h.start h.stop (hwidth _ _ h)
  rw [hinnermost]
  constructor
  · rw [Option.map_eq_none_iff, List.argmin_eq_none, List.eq_nil_iff_forall_not_mem]
    simp only [Prod.forall, mem_spots_iff]
  · intro spot
    have hleast := fun b => argmin_eq_some_iff_le (x := (spot, b)) (fun x => outerness x.2)
      (pairwise_spots a file hint line)
    simp only [Option.map_eq_some_iff, Prod.exists, exists_and_right, exists_eq_right, hleast,
      Prod.forall, mem_spots_iff]
    refine exists_congr fun b => and_congr_right fun hb => ?_
    refine forall_congr' fun spot' => forall_congr' fun b' => imp_congr_right fun hb' => ?_
    exact (placeKey_le_iff (hnarrow hb) (hnarrow hb')).symm

/-! ### A function inside of another one -/

/-- A function with a block between its entry and its exit. -/
def threeBlocks (name : String) (id first last : Int) : Function :=
  { (default : Function) with
    file := "app"
    name
    blocks := #[⟨id, "entry", first, first, [1], []⟩, ⟨id + 1, "basic", first, last, [2], [0]⟩,
      ⟨id + 2, "exit", last, last, [], [1]⟩] }

/-- The inner function lies in the middle block of the outer one. -/
def nestedCode : Code :=
  ⟨#[threeBlocks "inner" 4 5 8, threeBlocks "outer" 1 1 20]⟩

/-- On its first line the inner function has two blocks, and the one that is no entry is taken. -/
theorem place_innermost_nested :
    (∀ spot b, nestedCode.HoldsLine "app" "" 5 spot b → b.stop - b.start < 0x8000000000000000) ∧
      nestedCode.place "app" 5 "" = some ⟨0, 1⟩ := by
  have hwidth : ∀ x ∈ nestedCode.spots "app" "" 5, x.2.stop - x.2.start < 0x8000000000000000 := by
    decide
  have hleast : ∀ x ∈ nestedCode.spots "app" "" 5,
      placeKey ⟨0, 1⟩ ⟨5, "basic", 5, 8, [2], [0]⟩ ≤ placeKey x.1 x.2 := by
    decide
  have hnarrow : ∀ spot b, nestedCode.HoldsLine "app" "" 5 spot b →
      b.stop - b.start < 0x8000000000000000 := fun spot b h => hwidth _ (mem_spots_iff.mpr h)
  exact ⟨hnarrow, ((place_innermost hnarrow).2 ⟨0, 1⟩).mpr ⟨_, mem_spots_iff.mp (by decide),
    fun spot b h => hleast _ (mem_spots_iff.mpr h)⟩⟩

end Flow.Code

end TaintFlow
