import TaintFlow.Proofs.Flow.WellFormed

/-!
# Additional edges

Edges between blocks of a function that is there already change neither which functions there are,
nor where calls lead, nor in which blocks statements stand: all that depends on the outline of the
code, its functions and blocks without their neighbours.  A function that can be analysed stays one
that can be, with the same entry, since its blocks only gain successors and its paths stay paths.

## Main definitions

* `Facts.Cache.AddsEdges` — a cache with additional edges; `Facts.Cache.addEdge` adds one.
* `Code.outline` — functions and blocks without their neighbours.
* `Function.Grows` — a function with additional edges.

## Main results

* `Code.resolve_outline`, `Code.place_outline` — calls and places do not depend on edges.
* `grows_buildFunction` — additional edges keep functions analysable.
-/

namespace TaintFlow

namespace Facts

/-- A block belongs to a function: it is recorded for it. -/
def Cache.HasBlock (c : Cache) (file function : String) (id : Int) : Prop :=
  ∃ b ∈ c.blocks, b.file = file ∧ b.function = function ∧ b.id = id

/-- A cache with additional edges: all other tables have the same rows, no edge is missing, and both
blocks of an edge that is new belong to the function that it names. -/
structure Cache.AddsEdges (c c' : Cache) : Prop where
  rows : ∀ t : Schema.Table, t.name ≠ Schema.cfgEdges.name → c'.rows t = c.rows t
  kept : ∀ e ∈ c.edges, e ∈ c'.edges
  added : ∀ e ∈ c'.edges, e ∈ c.edges ∨
    c.HasBlock e.file e.function e.source ∧ c.HasBlock e.file e.function e.target

namespace Cache.AddsEdges

variable {c c' : Cache}

theorem blocks (h : c.AddsEdges c') : c'.blocks = c.blocks :=
  congrArg (List.map BlockFact.ofRow) (h.rows Schema.cfgBlocks (by decide))

theorem parameters (h : c.AddsEdges c') : c'.parameters = c.parameters :=
  congrArg (List.map Parameter.ofRow) (h.rows Schema.funcParams (by decide))

theorem callArguments (h : c.AddsEdges c') : c'.callArguments = c.callArguments :=
  congrArg (List.map CallArgument.ofRow) (h.rows Schema.functionCallArgs (by decide))

theorem assignments (h : c.AddsEdges c') : c'.assignments = c.assignments :=
  congrArg (List.map Assignment.ofRow) (h.rows Schema.assignments (by decide))

theorem assignmentSources (h : c.AddsEdges c') : c'.assignmentSources = c.assignmentSources :=
  congrArg (List.map AssignmentSource.ofRow) (h.rows Schema.assignmentSources (by decide))

theorem returns (h : c.AddsEdges c') : c'.returns = c.returns :=
  congrArg (List.map Return.ofRow) (h.rows Schema.functionReturns (by decide))

theorem returnSources (h : c.AddsEdges c') : c'.returnSources = c.returnSources :=
  congrArg (List.map ReturnSource.ofRow) (h.rows Schema.functionReturnSources (by decide))

theorem validations (h : c.AddsEdges c') : c'.validations = c.validations :=
  congrArg (List.map Validation.ofRow) (h.rows Schema.validationFrameworkUsage (by decide))

end Cache.AddsEdges

namespace Cache

/-- A cache with one more edge. -/
def addEdge (c : Cache) (r : Row) : Cache :=
  ⟨c.tables.map fun t => if t.table.name == Schema.cfgEdges.name then t.push r else t⟩

theorem table?_addEdge (c : Cache) (r : Row) (name : String) :
    (c.addEdge r).table? name = (c.table? name).map fun t =>
      if t.table.name == Schema.cfgEdges.name then t.push r else t := by
  unfold table? addEdge
  rw [List.find?_map]
  congr 2
  funext t
  simp only [Function.comp_apply]
  split <;> rfl

theorem rows_addEdge (c : Cache) (r : Row) (t : Schema.Table)
    (h : t.name ≠ Schema.cfgEdges.name) : (c.addEdge r).rows t = c.rows t := by
  unfold rows
  rw [table?_addEdge]
  cases hfind : c.table? t.name with
  | none => rfl
  | some facts =>
    have hname : facts.table.name = t.name := by simpa using List.find?_some hfind
    have hother : (facts.table.name == Schema.cfgEdges.name) = false := by
      rw [hname]
      exact beq_eq_false_iff_ne.mpr h
    simp only [Option.map_some, hother, Bool.false_eq_true, if_false]

end Cache

end Facts

namespace Flow

open Facts (Cache)
open Relation (TransGen)

/-! ### The outline of code -/

/-- A block without its neighbours. -/
def Block.outline (b : Block) : Block :=
  { b with succ := [], pred := [] }

/-- A function without its edges and all that is computed from them. -/
def Function.outline (fn : Function) : Function :=
  { fn with blocks := fn.blocks.map Block.outline, entry := none, line := 0, reach := #[],
            defect := none }

namespace Code

/-- The functions and blocks without their neighbours. -/
def outline (a : Code) : Code :=
  ⟨a.functions.map Function.outline⟩

theorem getElem?_outline (a : Code) (i : Nat) :
    a.outline.functions[i]? = (a.functions[i]?).map Function.outline :=
  Array.getElem?_map

theorem find?_outline (a : Code) (file name : String) :
    a.outline.find? file name = a.find? file name :=
  Array.findIdx?_map

theorem unique?_outline (a : Code) {q : Function → Bool} (hq : ∀ fn, q fn.outline = q fn) :
    a.outline.unique? q = a.unique? q := by
  have hfilter : (a.outline.functions.toList.zipIdx.filter fun e => q e.1) =
      (a.functions.toList.zipIdx.filter fun e => q e.1).map (Prod.map Function.outline id) := by
    rw [outline, Array.toList_map, List.zipIdx_map, List.filter_map]
    simp only [Function.comp_def, Prod.map_fst, hq]
  unfold unique?
  dsimp only
  rw [hfilter]
  generalize a.functions.toList.zipIdx.filter (fun e => q e.1) = l
  rcases l with _ | ⟨e, _ | ⟨e', es⟩⟩ <;> rfl

/-- **Where a call leads does not depend on edges.** -/
theorem resolve_outline (a : Code) (name calleeFile callerFile : String) :
    a.outline.resolve name calleeFile callerFile = a.resolve name calleeFile callerFile := by
  unfold resolve inFile?
  simp only [find?_outline]
  rw [unique?_outline a fun fn => rfl, unique?_outline a fun fn => rfl]

theorem spotsIn_outline (line : Int) (i : Nat) (fn : Function) :
    spotsIn line i fn.outline = (spotsIn line i fn).map (Prod.map id Block.outline) := by
  unfold spotsIn Function.outline
  rw [Array.toList_map, List.zipIdx_map, List.filter_map, List.map_map, List.map_map]
  rfl

theorem candidates_outline (a : Code) (file hint : String) :
    a.outline.candidates file hint =
      (a.candidates file hint).map (Prod.map id Function.outline) := by
  have hall : (a.outline.functions.toList.zipIdx.filter fun e => e.1.file == file).map
      (fun e => (e.2, e.1)) = ((a.functions.toList.zipIdx.filter fun e => e.1.file == file).map
        (fun e => (e.2, e.1))).map (Prod.map id Function.outline) := by
    rw [outline, Array.toList_map, List.zipIdx_map, List.filter_map, List.map_map, List.map_map]
    rfl
  unfold candidates
  dsimp only
  rw [find?_outline, hall]
  cases (if hint.isEmpty then none else a.find? file hint) with
  | none => rfl
  | some i =>
    simp only [Option.bind_some, getElem?_outline]
    cases a.functions[i]? <;> rfl

/-- The innermost block is found by its lines, its type and its id. -/
theorem innermost_outline (l : List (Spot × Block)) :
    innermost (l.map (Prod.map id Block.outline)) =
      (innermost l).map (Prod.map id Block.outline) := by
  cases l with
  | nil => rfl
  | cons x xs =>
    rw [List.map_cons, innermost, innermost, Option.map_some, List.foldl_map, Option.some.injEq]
    induction xs generalizing x with
    | nil => rfl
    | cons y xs ih =>
      rw [List.foldl_cons, List.foldl_cons, ← ih]
      congr 1
      exact (apply_ite (Prod.map id Block.outline) _ y x).symm

/-- **Where a line stands does not depend on edges.** -/
theorem place_outline (a : Code) (file : String) (line : Int) (hint : String) :
    a.outline.place file line hint = a.place file line hint := by
  have hspots : (a.outline.candidates file hint).flatMap (fun e => spotsIn line e.1 e.2) =
      ((a.candidates file hint).flatMap fun e => spotsIn line e.1 e.2).map
        (Prod.map id Block.outline) := by
    rw [candidates_outline, List.flatMap_map, List.map_flatMap]
    simp only [Prod.map_fst, Prod.map_snd, id_eq, spotsIn_outline]
  unfold place
  rw [hspots, innermost_outline, Option.map_map]
  rfl

end Code

/-! ### Blocks and their neighbours -/

section

variable {rows : List Facts.BlockFact} {pairs pairs' : List (Nat × Nat)}

theorem outline_connect (rows : List Facts.BlockFact) (pairs pairs' : List (Nat × Nat)) :
    (connect rows pairs).map Block.outline = (connect rows pairs').map Block.outline := by
  simp only [connect, List.map_toArray, List.map_map]
  rfl

theorem getElem?_connect (i : Nat) : (connect rows pairs)[i]? = (rows[i]?).map fun r =>
    { id := r.id, type := r.type, start := r.start, stop := r.stop,
      succ := ascending (pairs.filter (·.1 == i) |>.map (·.2)),
      pred := ascending (pairs.filter (·.2 == i) |>.map (·.1)) } := by
  simp [connect, Function.comp_def]

/-- An edge is a pair of positions. -/
theorem mem_succ_connect {i j : Nat} :
    (∃ block, (connect rows pairs)[i]? = some block ∧ j ∈ block.succ) ↔
      i < rows.length ∧ (i, j) ∈ pairs := by
  rw [getElem?_connect]
  constructor
  · rintro ⟨block, hblock, hj⟩
    obtain ⟨r, hr, rfl⟩ := Option.map_eq_some_iff.mp hblock
    simp only [ascending, mem_sortBy, List.mem_map, List.mem_filter, beq_iff_eq] at hj
    obtain ⟨e, ⟨he, rfl⟩, rfl⟩ := hj
    exact ⟨(List.getElem?_eq_some_iff.mp hr).1, he⟩
  · rintro ⟨hi, hij⟩
    refine ⟨_, Option.map_eq_some_iff.mpr ⟨rows[i], List.getElem?_eq_getElem hi, rfl⟩, ?_⟩
    simp only [ascending, mem_sortBy, List.mem_map, List.mem_filter, beq_iff_eq]
    exact ⟨(i, j), ⟨hij, rfl⟩, rfl⟩

end

/-- Leaving out repeated rows leaves out no id. -/
theorem exists_distinctBlocks {rows : List Facts.BlockFact} {r : Facts.BlockFact} (hr : r ∈ rows) :
    ∃ d ∈ distinctBlocks rows, d.id = r.id := by
  have hfold : ∀ (rows kept : List Facts.BlockFact) (r : Facts.BlockFact), r ∈ kept ∨ r ∈ rows →
      ∃ d ∈ rows.foldl (fun kept r => if kept.any (·.id == r.id) then kept else kept ++ [r]) kept,
        d.id = r.id := by
    intro rows
    induction rows with
    | nil => intro kept r hr; exact ⟨r, hr.resolve_right List.not_mem_nil, rfl⟩
    | cons q rows ih =>
      intro kept r hr
      rw [List.foldl_cons]
      rcases hr with hr | hr
      · refine ih _ r (Or.inl ?_)
        split
        · exact hr
        · exact List.mem_append_left _ hr
      · rcases List.mem_cons.mp hr with rfl | hr
        · split
          · next hany =>
            -- a row with this id was kept before
            obtain ⟨d, hd, hid⟩ := List.any_eq_true.mp hany
            obtain ⟨d', hd', hid'⟩ := ih kept d (Or.inl hd)
            exact ⟨d', hd', hid'.trans (beq_iff_eq.mp hid)⟩
          · exact ih _ r (Or.inl (List.mem_append_right _ List.mem_cons_self))
        · exact ih _ r (Or.inr hr)
  exact hfold rows [] r (Or.inr hr)

/-- An edge has ends when its blocks are there. -/
theorem isSome_edgeEnds? {rows : List Facts.BlockFact} {e : Facts.EdgeFact} {b b' : Facts.BlockFact}
    (hb : b ∈ rows) (hsource : b.id = e.source) (hb' : b' ∈ rows) (htarget : b'.id = e.target) :
    (edgeEnds? (distinctBlocks rows) e).isSome = true := by
  have hfind : ∀ {b : Facts.BlockFact} {id : Int}, b ∈ rows → b.id = id →
      ∃ i, (distinctBlocks rows).findIdx? (·.id == id) = some i := by
    intro b id hb hid
    obtain ⟨d, hd, hdid⟩ := exists_distinctBlocks hb
    rw [← Option.isSome_iff_exists, List.findIdx?_isSome, List.any_eq_true]
    exact ⟨d, hd, beq_iff_eq.mpr (hdid.trans hid)⟩
  obtain ⟨i, hi⟩ := hfind hb hsource
  obtain ⟨j, hj⟩ := hfind hb' htarget
  simp [edgeEnds?, hi, hj]

/-! ### Functions that can be analysed -/

/-- The graph of a function passes its checks, with a given entry. -/
structure Passes (blocks : Array Block) (reach : Array (Array UInt64)) (e : Nat) : Prop where
  entries : (blocks.toList.zipIdx.filter (·.1.isEntry)).map (·.2) = [e]
  successors : ∀ b ∈ blocks, b.isExit = true ∨ b.succ ≠ []
  reached : ∀ j, j < blocks.size → j = e ∨ Words.has (reach.getD e #[]) j = true

theorem dead_eq_none_iff {blocks : Array Block} :
    blocks.toList.find? (fun c => !c.isExit && c.succ.isEmpty) = none ↔
      ∀ c ∈ blocks, c.isExit = true ∨ c.succ ≠ [] := by
  simp only [List.find?_eq_none, Array.mem_toList_iff, Bool.and_eq_true, Bool.not_eq_true',
    List.isEmpty_iff, not_and, ← Bool.not_eq_true, or_iff_not_imp_left, ne_eq]

theorem lost_eq_none_iff {blocks : Array Block} {reach : Array (Array UInt64)} {i : Nat} :
    (blocks.toList.zipIdx.find? fun e => e.2 != i && !Words.has (reach.getD i #[]) e.2) = none ↔
      ∀ j, j < blocks.size → j = i ∨ Words.has (reach.getD i #[]) j = true := by
  simp only [List.find?_eq_none, Prod.forall, List.mk_mem_zipIdx_iff_getElem?,
    Array.getElem?_toList, Bool.and_eq_true, bne_iff_ne, ne_eq, Bool.not_eq_true', not_and,
    Bool.not_eq_false, or_iff_not_imp_left]
  exact ⟨fun h j hj => h blocks[j] j (Array.getElem?_eq_getElem hj),
    fun h c j hc => h j (Array.getElem?_eq_some_iff.mp hc).1⟩

/-- **A graph without a defect is one that passes its checks.** -/
theorem passes_iff {blocks : Array Block} {reach : Array (Array UInt64)} {e : Nat} :
    Passes blocks reach e ↔
      (checkGraph blocks reach).defect = none ∧ (checkGraph blocks reach).entry = some e := by
  have hpasses : Passes blocks reach e ↔
      (blocks.toList.zipIdx.filter (·.1.isEntry)).map (·.2) = [e] ∧
        blocks.toList.find? (fun c => !c.isExit && c.succ.isEmpty) = none ∧
        (blocks.toList.zipIdx.find? fun x => x.2 != e && !Words.has (reach.getD e #[]) x.2) =
          none := by
    rw [dead_eq_none_iff, lost_eq_none_iff]
    exact ⟨fun h => ⟨h.entries, h.successors, h.reached⟩, fun h => ⟨h.1, h.2.1, h.2.2⟩⟩
  rw [hpasses, checkGraph]
  dsimp only
  generalize blocks.toList.zipIdx.filter (·.1.isEntry) = entries
  rcases entries with _ | ⟨⟨b, i⟩, _ | ⟨e', es⟩⟩
  · simp
  · -- one entry: then no block is dead, and none is lost
    simp only [List.map_cons, List.map_nil, List.cons.injEq, and_true, Option.some.injEq]
    cases blocks.toList.find? fun c => !c.isExit && c.succ.isEmpty with
    | none =>
      simp only [Option.map_eq_none_iff, true_and]
      constructor
      · rintro ⟨rfl, hlost⟩
        exact ⟨hlost, rfl⟩
      · rintro ⟨hlost, rfl⟩
        exact ⟨rfl, hlost⟩
    | some c => simp
  · simp

/-- A function with additional edges. -/
structure Function.Grows (fn fn' : Function) : Prop where
  outline : fn'.outline = fn.outline
  edge : ∀ i j, fn.Edge i j → fn'.Edge i j
  analyzable : fn.analyzable = true → fn'.analyzable = true ∧ fn'.entry = fn.entry

theorem Function.Grows.same {fn fn' : Function} (h : fn.Grows fn') :
    fn'.file = fn.file ∧ fn'.name = fn.name ∧ fn'.params = fn.params := by
  have houtline := h.outline
  simp only [Function.outline, Function.mk.injEq] at houtline
  exact ⟨houtline.1, houtline.2.1, houtline.2.2.2.1⟩

/-- A graph that passes its checks passes them with additional edges. -/
theorem Passes.grows {fn fn' : Function} {e : Nat} (hfn : fn.Sound) (hfn' : fn'.Sound)
    (houtline : fn'.outline = fn.outline) (hedge : ∀ i j, fn.Edge i j → fn'.Edge i j)
    (h : Passes fn.blocks fn.reach e) : Passes fn'.blocks fn'.reach e := by
  have hblocks : fn'.blocks.map Block.outline = fn.blocks.map Block.outline :=
    congrArg Function.blocks houtline
  have hsize : fn'.blocks.size = fn.blocks.size := by
    have := congrArg Array.size hblocks
    rwa [Array.size_map, Array.size_map] at this
  refine ⟨?_, fun b' hb' => ?_, fun j hj => ?_⟩
  · -- entries are told by their type
    have hentries : ∀ blocks : Array Block,
        (blocks.toList.zipIdx.filter (·.1.isEntry)).map (·.2) =
          ((blocks.map Block.outline).toList.zipIdx.filter (·.1.isEntry)).map (·.2) := by
      intro blocks
      rw [Array.toList_map, List.zipIdx_map, List.filter_map, List.map_map]
      rfl
    rw [hentries, hblocks, ← hentries]
    exact h.entries
  · -- a block that is no exit keeps the successor it had
    obtain ⟨i, hi⟩ := Array.mem_iff_getElem?.mp hb'
    have hlt : i < fn.blocks.size := hsize ▸ (Array.getElem?_eq_some_iff.mp hi).1
    have hb := Array.getElem?_eq_getElem hlt
    have hsame : b'.outline = fn.blocks[i].outline := by
      have := congrArg (fun blocks : Array Block => blocks[i]?) hblocks
      simpa [hi, hb] using this
    have hexit : b'.outline.isExit = fn.blocks[i].outline.isExit := congrArg Block.isExit hsame
    rcases h.successors _ (Array.getElem_mem hlt) with hb'' | hsucc
    · exact Or.inl (hexit.trans hb'')
    · obtain ⟨j, hj⟩ := List.exists_mem_of_ne_nil _ hsucc
      obtain ⟨block, hblock, hj⟩ := hedge i j ⟨_, hb, hj⟩
      obtain rfl : b' = block := Option.some.inj (hi.symm.trans hblock)
      exact Or.inr (List.ne_nil_of_mem hj)
  · -- a path stays a path
    rcases h.reached j (hsize ▸ hj) with rfl | hmet
    · exact Or.inl rfl
    · have hpath := hfn.reaches_iff.mp hmet
      exact Or.inr (hfn'.reaches_iff.mpr (TransGen.mono hedge _ _ hpath))

section

variable {c c' : Cache} (file name : String)

/-- The rows of the blocks of a function. -/
def blockRows (c : Cache) (file name : String) : List Facts.BlockFact :=
  c.blocks.filter fun b => b.file == file && b.function == name

/-- The rows of the edges of a function. -/
def edgeRows (c : Cache) (file name : String) : List Facts.EdgeFact :=
  c.edges.filter fun e => e.file == file && e.function == name

/-- **A function can be analysed** when its block ids are distinct, its edges have ends, and its
graph passes its checks. -/
theorem analyzable_buildFunction_iff {e : Nat} :
    (buildFunction c file name).analyzable = true ∧ (buildFunction c file name).entry = some e ↔
      lastDuplicate? [] (blockRows c file name) = none ∧
        (∀ edge ∈ edgeRows c file name,
          (edgeEnds? (distinctBlocks (blockRows c file name)) edge).isSome = true) ∧
        Passes (buildFunction c file name).blocks (buildFunction c file name).reach e := by
  unfold buildFunction Function.analyzable
  dsimp only
  rw [passes_iff]
  have hstray : (edgeRows c file name).find? (fun edge =>
      (edgeEnds? (distinctBlocks (blockRows c file name)) edge).isNone) = none ↔
      ∀ edge ∈ edgeRows c file name,
        (edgeEnds? (distinctBlocks (blockRows c file name)) edge).isSome = true := by
    simp only [List.find?_eq_none, Option.isNone_iff_eq_none, Option.isSome_iff_ne_none, ne_eq]
  rw [← hstray, edgeRows, blockRows]
  cases lastDuplicate? [] (c.blocks.filter fun b => b.file == file && b.function == name) with
  | some id => simp
  | none =>
    cases (c.edges.filter fun e => e.file == file && e.function == name).find? fun edge =>
        (edgeEnds? (distinctBlocks
          (c.blocks.filter fun b => b.file == file && b.function == name)) edge).isNone with
    | some edge => simp
    | none => simp

theorem outline_buildFunction (h : c.AddsEdges c') :
    (buildFunction c' file name).outline = (buildFunction c file name).outline := by
  unfold buildFunction Function.outline
  dsimp only
  rw [h.blocks, h.parameters, outline_connect]

theorem edge_buildFunction (h : c.AddsEdges c') (i j : Nat)
    (hedge : (buildFunction c file name).Edge i j) : (buildFunction c' file name).Edge i j := by
  have hedge := mem_succ_connect.mp hedge
  refine mem_succ_connect.mpr ?_
  rw [h.blocks]
  refine ⟨hedge.1, ?_⟩
  rw [mem_firsts, List.mem_filterMap] at hedge ⊢
  obtain ⟨-, e, he, hends⟩ := hedge
  obtain ⟨he, hkey⟩ := List.mem_filter.mp he
  exact ⟨e, List.mem_filter.mpr ⟨h.kept e he, hkey⟩, hends⟩

/-- **Additional edges keep a function analysable**, with the same entry. -/
theorem grows_buildFunction (h : c.AddsEdges c') :
    (buildFunction c file name).Grows (buildFunction c' file name) where
  outline := outline_buildFunction file name h
  edge := edge_buildFunction file name h
  analyzable hanalyzable := by
    obtain ⟨e, he, -⟩ := (sound_buildFunction c file name).entry hanalyzable
    obtain ⟨hids, hends, hpasses⟩ := (analyzable_buildFunction_iff file name).mp ⟨hanalyzable, he⟩
    have hrows : blockRows c' file name = blockRows c file name := by
      rw [blockRows, h.blocks, blockRows]
    rw [he]
    refine (analyzable_buildFunction_iff file name).mpr ⟨hrows ▸ hids, fun edge hedge => ?_, ?_⟩
    · -- an edge that is new has ends, since its blocks are there
      rw [hrows]
      obtain ⟨hedge, hkey⟩ := List.mem_filter.mp hedge
      rcases h.added edge hedge with hold | ⟨hsource, htarget⟩
      · exact hends edge (List.mem_filter.mpr ⟨hold, hkey⟩)
      · simp only [Bool.and_eq_true, beq_iff_eq] at hkey
        have hrow : ∀ {b : Facts.BlockFact}, b ∈ c.blocks → b.file = edge.file →
            b.function = edge.function → b ∈ blockRows c file name := by
          intro b hb hfile hfunction
          refine List.mem_filter.mpr ⟨hb, ?_⟩
          simp only [Bool.and_eq_true, beq_iff_eq]
          exact ⟨hfile.trans hkey.1, hfunction.trans hkey.2⟩
        obtain ⟨b, hb, hfile, hfunction, hid⟩ := hsource
        obtain ⟨b', hb', hfile', hfunction', hid'⟩ := htarget
        exact isSome_edgeEnds? (hrow hb hfile hfunction) hid (hrow hb' hfile' hfunction') hid'
    · exact hpasses.grows (sound_buildFunction c file name) (sound_buildFunction c' file name)
        (outline_buildFunction file name h) (edge_buildFunction file name h)

end

theorem Code.keys_eq {c c' : Cache} (h : c.AddsEdges c') : keys c' = keys c := by
  rw [keys, h.blocks, keys]

/-- The functions of a cache with additional edges, one by one. -/
theorem Code.grows_ofCache {c c' : Cache} (h : c.AddsEdges c') {i : Nat} {fn : Function}
    (hfn : (ofCache c).functions[i]? = some fn) :
    ∃ fn', (ofCache c').functions[i]? = some fn' ∧ fn.Grows fn' := by
  simp only [ofCache, List.getElem?_toArray, List.getElem?_map, Option.map_eq_some_iff] at hfn ⊢
  obtain ⟨key, hkey, rfl⟩ := hfn
  exact ⟨_, ⟨key, keys_eq h ▸ hkey, rfl⟩, grows_buildFunction key.1 key.2 h⟩

theorem Code.outline_ofCache {c c' : Cache} (h : c.AddsEdges c') :
    (ofCache c').outline = (ofCache c).outline := by
  simp only [outline, ofCache, keys_eq h, List.map_toArray, List.map_map, Function.comp_def,
    outline_buildFunction _ _ h]

end Flow

end TaintFlow
