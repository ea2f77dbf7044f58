import TaintFlow.Proofs.Flow.OwnLine

/-!
# Where the facts of a line stand

A fact is placed in the innermost block that holds its line, looked for in one function or in all
functions of a file.  Blocks are ordered, and the innermost one is the first least one, so it does
not matter how many functions were searched: two facts of a line that are placed in one function
are placed in one block.  An assignment that takes the result of a call therefore stands in the
block of that call, and after it.

## Main definitions

* `Code.outerness` — what blocks are ordered by.

## Main results

* `Code.innermost_eq_argmin` — the innermost block is the first least one.
* `Code.place_eq_of_function_eq` — facts of one line and one function are placed in one block.
* `Program.exists_call_before` — a call stands before the assignments that take its result.
-/

namespace TaintFlow.Flow

open Facts (Cache)
open Discovery (Source Sink)

/-! ### The order of blocks -/

/-- The first least element of a list is that of every part of the list that has it. -/
theorem argmin_filter {α β : Type} [LinearOrder β] (key : α → β) (q : α → Bool) {l : List α} {x : α}
    (hx : l.argmin key = some x) (hq : q x = true) : (l.filter q).argmin key = some x := by
  induction l with
  | nil => cases hx
  | cons a l ih =>
    rw [List.argmin_cons] at hx
    cases hl : l.argmin key with
    | none =>
      obtain rfl := List.argmin_eq_none.mp hl
      rw [hl] at hx
      cases hx
      rw [List.filter_cons_of_pos hq]
      rfl
    | some c =>
      simp only [hl] at hx
      split at hx
      · -- the least element comes later
        next hlt =>
        cases hx
        by_cases ha : q a = true
        · rw [List.filter_cons_of_pos ha, List.argmin_cons, ih hl]
          simp [hlt]
        · rw [List.filter_cons_of_neg ha]
          exact ih hl
      · -- the least element comes first, and nothing in the part is less
        next hlt =>
        cases hx
        rw [List.filter_cons_of_pos hq, List.argmin_cons]
        cases hc : (l.filter q).argmin key with
        | none => rfl
        | some d =>
          have hd : d ∈ l := List.mem_of_mem_filter (List.argmin_mem hc)
          have hle : key c ≤ key d := List.le_of_mem_argmin hd hl
          have hnot : ¬ key d < key x := fun h => hlt (lt_of_le_of_lt hle h)
          simp [hnot]

namespace Code

/-- What blocks are ordered by: those at the edge of a function come last, then the wider ones, then
those with a greater id. -/
def outerness (b : Block) : Bool ×ₗ Int ×ₗ Int :=
  toLex (b.isEntry || b.isExit, toLex (width b, b.id))

theorem innerThan_iff {b c : Block} : innerThan b c = true ↔ outerness b < outerness c := by
  simp only [innerThan, outerness, Prod.Lex.toLex_lt_toLex]
  cases b.isEntry || b.isExit <;> cases c.isEntry || c.isExit <;>
    by_cases hw : width b = width c <;> simp [hw]

theorem innermost_concat (l : List (Spot × Block)) (y : Spot × Block) :
    innermost (l ++ [y]) =
      match innermost l with
      | none => some y
      | some c => if innerThan y.2 c.2 then some y else some c := by
  cases l with
  | nil => rfl
  | cons x xs =>
    simp only [innermost, List.cons_append, List.foldl_append, List.foldl_cons, List.foldl_nil]
    split <;> rfl

/-- **The innermost block is the first least one.** -/
theorem innermost_eq_argmin (l : List (Spot × Block)) :
    innermost l = l.argmin fun x => outerness x.2 := by
  induction l using List.reverseRecOn with
  | nil => rfl
  | append_singleton l y ih =>
    rw [innermost_concat, List.argmin_concat, ih]
    cases l.argmin fun x => outerness x.2 with
    | none => rfl
    | some c => simp only [innerThan_iff]

/-! ### Placing in one function -/

variable {a : Code} {file hint : String} {line : Int}

/-- Every function is looked at once. -/
theorem nodup_candidates (a : Code) (file hint : String) :
    ((a.candidates file hint).map (·.1)).Nodup := by
  simp only [candidates]
  split
  · exact List.nodup_singleton _
  · rw [List.map_map]
    have hsub := (List.filter_sublist (p := fun x : Function × Nat => x.1.file == file)
      (l := a.functions.toList.zipIdx)).map Prod.snd
    refine List.Nodup.sublist hsub ?_
    rw [List.zipIdx_map_snd]
    exact List.nodup_range'

theorem function_of_mem_spotsIn {i : Nat} {fn : Function} {x : Spot × Block}
    (h : x ∈ spotsIn line i fn) : x.1.function = i := by
  obtain ⟨y, -, rfl⟩ := List.mem_map.mp h
  rfl

theorem filter_spotsIn (line : Int) (f i : Nat) (fn : Function) :
    (spotsIn line i fn).filter (·.1.function == f) = if i = f then spotsIn line i fn else [] := by
  split
  · next hi =>
    refine List.filter_eq_self.mpr fun x hx => ?_
    rw [function_of_mem_spotsIn hx, hi, beq_self_eq_true]
  · next hi =>
    refine List.filter_eq_nil_iff.mpr fun x hx => ?_
    rw [function_of_mem_spotsIn hx, beq_iff_eq]
    exact hi

/-- What is found in one of the functions that are looked at. -/
theorem filter_flatMap_spotsIn {l : List (Nat × Function)} (hl : (l.map (·.1)).Nodup) {f : Nat}
    {fn : Function} (hf : (f, fn) ∈ l) :
    (l.flatMap fun (i, g) => spotsIn line i g).filter (·.1.function == f) = spotsIn line f fn := by
  rw [List.filter_flatMap]
  simp only [filter_spotsIn]
  induction l with
  | nil => cases hf
  | cons c l ih =>
    obtain ⟨hc, hl⟩ := List.nodup_cons.mp hl
    rw [List.flatMap_cons]
    rcases List.mem_cons.mp hf with rfl | hmem
    · -- no function comes a second time
      have hrest : (l.flatMap fun x => if x.1 = f then spotsIn line x.1 x.2 else []) = [] := by
        refine List.flatMap_eq_nil_iff.mpr fun x hx => if_neg ?_
        intro hxf
        exact hc (List.mem_map.mpr ⟨x, hx, hxf⟩)
      rw [hrest, if_pos rfl, List.append_nil]
    · have hne : c.1 ≠ f := fun hcf => hc (List.mem_map.mpr ⟨(f, fn), hmem, hcf.symm⟩)
      rw [if_neg hne, List.nil_append]
      exact ih hl hmem

theorem place_function {spot : Spot} (h : a.place file line hint = some spot) {fn : Function}
    (hfn : a.functions[spot.function]? = some fn) :
    (innermost (spotsIn line spot.function fn)).map (·.1) = some spot := by
  obtain ⟨⟨spot, block⟩, hin, rfl⟩ := Option.map_eq_some_iff.mp h
  obtain ⟨⟨i, fn'⟩, hcand, hspot⟩ := List.mem_flatMap.mp (mem_of_innermost hin)
  obtain rfl : spot.function = i := function_of_mem_spotsIn hspot
  obtain rfl : fn' = fn :=
    Option.some.inj ((getElem?_of_mem_candidates hcand).symm.trans hfn)
  rw [innermost_eq_argmin] at hin
  have hpart := argmin_filter _ (·.1.function == spot.function) hin (beq_self_eq_true _)
  rw [filter_flatMap_spotsIn (nodup_candidates a file hint) hcand] at hpart
  rw [innermost_eq_argmin, hpart]
  rfl

/-- **Facts of one line that are placed in one function are placed in one block.** -/
theorem place_eq_of_function_eq {file' hint' : String} {spot spot' : Spot}
    (h : a.place file line hint = some spot) (h' : a.place file' line hint' = some spot')
    (hf : spot.function = spot'.function) : spot = spot' := by
  obtain ⟨fn, hfn, -⟩ := block_of_place h
  have hspot := place_function h hfn
  have hspot' := place_function h' (hf ▸ hfn)
  rw [← hf, hspot] at hspot'
  exact Option.some.inj hspot'

end Code

/-! ### Calls and their results -/

section

variable {cache : Cache} {sources : List Source} {sinks : List Sink} {san : Sanitizers}

/-- A placed assignment is one of the facts. -/
theorem assignPlacement?_of_mem {spot : Code.Spot} {line : Int} {file target : String}
    {names : List String} {calls : List Nat}
    (h : ⟨spot, ⟨line, .assign file target names calls⟩⟩ ∈ placements cache sources sinks san) :
    ∃ a, assignPlacement? (Code.ofCache cache) cache san (callSites cache san) a =
      some ⟨spot, ⟨line, .assign file target names calls⟩⟩ := by
  rcases (mem_placements cache sources sinks san).mp h with
    ⟨s, i, -, hpl⟩ | ⟨c, i, -, hpl⟩ | ⟨s, i, -, hpl⟩ | ⟨a, -, hpl⟩ | ⟨r, -, hpl⟩
  · cases (of_seedPlacement? hpl).2
  · injection hpl with _ hq
    cases hq
  · cases (of_sinkPlacement? hpl).2
  · exact ⟨a, hpl⟩
  · obtain ⟨_, -, hq⟩ := of_returnPlacement? hpl
    cases hq

/-- **A call stands before the assignments that take its result**, in their block and on their
line. -/
theorem Program.exists_call_before {f b pos i : Nat} {line : Int} {file target : String}
    {names : List String} {calls : List Nat}
    (hrun : (build cache sources sinks san).Runs f b pos line (.assign file target names calls))
    (hi : i ∈ calls) :
    ∃ pos' < pos, (build cache sources sinks san).Runs f b pos' line (.call i) := by
  have hmem := (mem_statementsAt_build cache sources sinks san).mp (List.mem_of_getElem? hrun)
  obtain ⟨a, hpl⟩ := assignPlacement?_of_mem hmem
  obtain ⟨_, _, hspot, hq⟩ := of_assignPlacement? hpl
  cases hq
  obtain ⟨site, hsite, hfunction, hline⟩ := site_of_assignPlacement? hpl hi
  -- the head of the call site has the same function and line, so it stands in the same block
  rw [callSites, List.getElem?_map, Option.map_eq_some_iff] at hsite
  obtain ⟨c, hc, rfl⟩ := hsite
  obtain ⟨row, -, hrow⟩ := List.mem_filterMap.mp (mem_siteHeads (List.mem_of_getElem? hc))
  obtain ⟨rfl, -, hplace⟩ := resolveCall?_eq_some_iff.mp hrow
  have hline : c.row.line = a.line := hline
  rw [hline] at hplace
  have heq : c.spot = ⟨f, b⟩ := Code.place_eq_of_function_eq hplace hspot hfunction
  have hcall : (⟨⟨f, b⟩, ⟨a.line, .call i⟩⟩ : Placement) ∈ placements cache sources sinks san := by
    refine (mem_placements cache sources sinks san).mpr (Or.inr (Or.inl ⟨c, i, hc, ?_⟩))
    rw [heq, hline]
  obtain ⟨pos', hrun'⟩ := exists_runs hcall
  exact ⟨pos', (wellFormed_build cache sources sinks san).lt_of_rank_lt hrun' hrun
    (by simp [Statement.rank]), hrun'⟩

end

end TaintFlow.Flow
