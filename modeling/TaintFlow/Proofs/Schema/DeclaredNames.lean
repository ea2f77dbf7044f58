import TaintFlow.Proofs.Schema.Naming
import TaintFlow.Proofs.Schema.WellFormed
import TaintFlow.Schema.Code.Generate

/-!
# What a generated file declares and imports

Validation keeps exported names apart, those of tables and those of the columns of a table.  The
types of a generated file and their methods have exported names with fixed endings or beginnings,
so they are declared once.  The fields of the cache and the variables with the columns of tables
have field names, which validation does not look at: they are declared once unless two tables
clash.  A table whose name starts with an underscore gives a field and a method of one name.

The packages that are imported besides the fixed ones are those that the code refers to.

## Main definitions

* `Code.rowMembers`, `Code.tableMembers`, `Code.cacheMembers` — the names inside types.
* `Code.columnUses` — whether the code for a column refers to a package.

## Main results

* `Code.globals_file`, `Code.members_file` — the names that a file declares.
* `Code.uses_file` — the packages that a file refers to.
* `Code.declares_once_iff` — when all names are declared once.
-/

namespace TaintFlow.Schema

namespace Code

variable {tables : List Table} {t u : Table} {o : Options} {text package : String}

/-- What it takes for a file to be generated. -/
theorem of_generate_eq_ok (h : generate tables o = .ok text) :
    WellFormed tables ∧ (∀ t ∈ tables, exportedName t.name ∉ reservedAccessors) ∧
      text = (file tables o).text := by
  rw [generate] at h
  split at h
  · cases h
  · cases h
  · next hvalidate haccessors =>
    split at h
    · refine ⟨wellFormed_of_validate hvalidate, fun t ht hmem => ?_, (Except.ok.inj h).symm⟩
      have hproblem := List.findSome?_eq_none_iff.mp haccessors t ht
      rw [accessorProblem?, if_pos (List.contains_iff_mem.mpr hmem)] at hproblem
      cases hproblem
    · cases h

/-! ### The names of a package -/

/-- Texts with different endings are different. -/
theorem append_ne_append {a b s s' : String} (h : ¬ s.toList <:+ s'.toList)
    (h' : ¬ s'.toList <:+ s.toList) : a ++ s ≠ b ++ s' := by
  intro heq
  have hlists := congrArg String.toList heq
  rw [String.toList_append, String.toList_append] at hlists
  have hs : s.toList <:+ a.toList ++ s.toList := List.suffix_append _ _
  rw [hlists] at hs
  rcases List.suffix_or_suffix_of_suffix hs (List.suffix_append _ _) with hsuffix | hsuffix
  · exact h hsuffix
  · exact h' hsuffix

theorem columnsName_ne_rowType (t u : Table) : columnsName t ≠ rowType u :=
  append_ne_append (by decide) (by decide)

theorem columnsName_ne_tableType (t u : Table) : columnsName t ≠ tableType u :=
  append_ne_append (by decide) (by decide)

theorem rowType_ne_tableType (t u : Table) : rowType t ≠ tableType u :=
  append_ne_append (by decide) (by decide)

/-- The names of the fixed declarations are not those of a table. -/
theorem ne_fixed (t : Table) : ∀ n ∈ ["Cache", "Load"],
    columnsName t ≠ n ∧ rowType t ≠ n ∧ tableType t ≠ n := by
  intro n hn
  rcases List.mem_cons.mp hn with rfl | hn
  · rw [← String.empty_append (s := "Cache")]
    exact ⟨append_ne_append (by decide) (by decide),
      append_ne_append (by decide) (by decide),
      append_ne_append (by decide) (by decide)⟩
  · rw [List.mem_singleton.mp hn, ← String.empty_append (s := "Load")]
    exact ⟨append_ne_append (by decide) (by decide),
      append_ne_append (by decide) (by decide),
      append_ne_append (by decide) (by decide)⟩

/-- The names that the declarations of a table add to the package. -/
def tableGlobals (t : Table) : List String :=
  [columnsName t, rowType t, tableType t]

theorem global?_tableDecls (t : Table) :
    (tableDecls t).filterMap Decl.global? = tableGlobals t := by
  have hlookups : (t.indexedColumns.map (lookupDecl t)).filterMap Decl.global? = [] := by
    rw [List.filterMap_map]
    exact List.filterMap_eq_nil_iff.mpr fun _ _ => rfl
  rw [tableDecls, List.filterMap_append, List.filterMap_append, List.filterMap_append, hlookups]
  rfl

/-- **The names that a file adds to its package.** -/
theorem globals_file (tables : List Table) (o : Options) :
    (file tables o).globals = tables.flatMap tableGlobals ++ ["Cache", "Load"] := by
  have haccessors : (tables.map accessorDecl).filterMap Decl.global? = [] := by
    rw [List.filterMap_map]
    exact List.filterMap_eq_nil_iff.mpr fun _ _ => rfl
  rw [File.globals, file, List.filterMap_append, List.filterMap_flatMap, cacheDecls,
    List.filterMap_append, List.filterMap_append, haccessors]
  simp only [global?_tableDecls]
  rfl

theorem nodup_tableGlobals (t : Table) : (tableGlobals t).Nodup := by
  simp only [tableGlobals, List.nodup_cons, List.mem_cons, List.not_mem_nil, or_false, not_or,
    List.nodup_nil, not_false_eq_true, and_true]
  exact ⟨⟨columnsName_ne_rowType t t, columnsName_ne_tableType t t⟩, rowType_ne_tableType t t⟩

/-- The names of two tables are apart iff their exported names and their field names are. -/
theorem disjoint_tableGlobals (t u : Table) :
    (tableGlobals t).Disjoint (tableGlobals u) ↔
      exportedName t.name ≠ exportedName u.name ∧ fieldName t.name ≠ fieldName u.name := by
  constructor
  · intro h
    refine ⟨fun heq => ?_, fun heq => ?_⟩
    · refine @h (rowType t) (by simp [tableGlobals]) ?_
      rw [rowType, heq]
      exact List.mem_cons_of_mem _ List.mem_cons_self
    · refine @h (columnsName t) List.mem_cons_self ?_
      rw [columnsName, heq]
      exact List.mem_cons_self
  · rintro ⟨hexported, hfield⟩ n hn hn'
    simp only [tableGlobals, List.mem_cons, List.not_mem_nil, or_false] at hn hn'
    rcases hn with rfl | rfl | rfl
    · rcases hn' with heq | heq | heq
      · exact hfield ((String.append_left_inj _).mp heq)
      · exact columnsName_ne_rowType t u heq
      · exact columnsName_ne_tableType t u heq
    · rcases hn' with heq | heq | heq
      · exact columnsName_ne_rowType u t heq.symm
      · exact hexported ((String.append_left_inj _).mp heq)
      · exact rowType_ne_tableType t u heq
    · rcases hn' with heq | heq | heq
      · exact columnsName_ne_tableType u t heq.symm
      · exact rowType_ne_tableType u t heq.symm
      · exact hexported ((String.append_left_inj _).mp heq)

/-- **The names of a package are declared once iff the field names of tables are apart.** -/
theorem nodup_globals_iff (h : WellFormed tables) (o : Options) :
    (file tables o).globals.Nodup ↔ (tables.map (fieldName ·.name)).Nodup := by
  have hfixed : ∀ n ∈ tables.flatMap tableGlobals, ∀ m ∈ ["Cache", "Load"], n ≠ m := by
    intro n hn m hm
    obtain ⟨t, -, hn⟩ := List.mem_flatMap.mp hn
    obtain ⟨hcolumns, hrow, htable⟩ := ne_fixed t m hm
    simp only [tableGlobals, List.mem_cons, List.not_mem_nil, or_false] at hn
    rcases hn with rfl | rfl | rfl
    · exact hcolumns
    · exact hrow
    · exact htable
  have hexported := List.pairwise_map.mp h.distinct
  rw [globals_file, List.nodup_append, List.nodup_flatMap, List.Nodup, List.pairwise_map]
  constructor
  · rintro ⟨⟨-, hdisjoint⟩, -⟩
    exact hdisjoint.imp fun hd => ((disjoint_tableGlobals _ _).mp hd).2
  · intro hfields
    refine ⟨⟨fun t _ => nodup_tableGlobals t, ?_⟩, by decide, hfixed⟩
    exact (hexported.and hfields).imp fun hd => (disjoint_tableGlobals _ _).mpr hd

/-- Field names are apart iff no two tables clash. -/
theorem nodup_fieldNames_iff (h : WellFormed tables) :
    (tables.map (fieldName ·.name)).Nodup ↔
      ∀ t ∈ tables, ∀ u ∈ tables, ¬ Clash t.name u.name := by
  have hexported : ∀ t ∈ tables, ∀ u ∈ tables,
      exportedName t.name = exportedName u.name → t = u :=
    fun t ht u hu => List.inj_on_of_nodup_map h.distinct ht hu
  rw [List.nodup_map_iff_inj_on h.distinct.of_map]
  constructor
  · rintro hinj t ht u hu ⟨w, hw, more, rest, ht', hu', hdigit, hfield⟩
    exact Clash.ne ⟨w, hw, more, rest, ht', hu', hdigit, hfield⟩
      (congrArg Table.name (hinj t ht u hu hfield))
  · intro hclash t ht u hu hfield
    refine Classical.byContradiction fun hne => ?_
    have hcases := (fieldName_eq_iff (h.each t ht).name (h.each u hu).name
      (mt (hexported t ht u hu) hne)).mp hfield
    rcases hcases with hc | hc
    · exact hclash t ht u hu hc
    · exact hclash u hu t ht hc

/-! ### The names inside types -/

/-- The fields and methods of the rows of a table. -/
def rowMembers (t : Table) : List String :=
  t.columns.map (exportedName ·.name) ++ ["Field", "Location"]

/-- The fields and methods of a table. -/
def tableMembers (t : Table) : List String :=
  "rows" :: t.indexedColumns.map indexField ++ ["All", "Len", "At"] ++
    t.indexedColumns.map ("By" ++ exportedName ·.name) ++ ["pick", "records", "load"]

/-- The fields and methods of the cache. -/
def cacheMembers (tables : List Table) : List String :=
  tables.map (fieldName ·.name) ++ tables.map (exportedName ·.name) ++ ["TableNames", "Records"]

theorem membersOf_tableDecls (type : String) (t : Table) :
    (tableDecls t).flatMap (Decl.membersOf type) =
      (if rowType t == type then rowMembers t else []) ++
        (if tableType t == type then tableMembers t else []) := by
  have hlookups : (t.indexedColumns.map (lookupDecl t)).flatMap (Decl.membersOf type) =
      if tableType t == type then t.indexedColumns.map ("By" ++ exportedName ·.name) else [] := by
    have hlookup : ∀ c, Decl.membersOf type (lookupDecl t c) =
        if tableType t == type then ["By" ++ exportedName c.name] else [] := fun _ => rfl
    rw [List.flatMap_map, List.map_eq_flatMap]
    cases hT : tableType t == type <;> simp [hlookup, hT]
  rw [tableDecls, List.flatMap_append, List.flatMap_append, List.flatMap_append, hlookups]
  cases hR : rowType t == type <;> cases hT : tableType t == type <;>
    simp [accessDecls, rowDecl, fieldDecl, locationDecl, tableDecl, pickDecl, recordsDecl, loadDecl,
      tableMethod, Decl.membersOf, rowMembers, tableMembers, hR, hT, Function.comp_def]

theorem membersOf_cacheDecls (type : String) (tables : List Table) :
    (cacheDecls tables).flatMap (Decl.membersOf type) =
      if cacheType == type then cacheMembers tables else [] := by
  have haccessors : (tables.map accessorDecl).flatMap (Decl.membersOf type) =
      if cacheType == type then tables.map (exportedName ·.name) else [] := by
    have haccessor : ∀ t, Decl.membersOf type (accessorDecl t) =
        if cacheType == type then [exportedName t.name] else [] := fun _ => rfl
    rw [List.flatMap_map, List.map_eq_flatMap]
    cases hC : cacheType == type <;> simp [haccessor, hC]
  rw [cacheDecls, List.flatMap_append, List.flatMap_append, haccessors]
  cases hC : cacheType == type <;>
    simp [cacheDecl, tableNamesDecl, cacheRecordsDecl, cacheLoadDecl, cacheMethod, Decl.membersOf,
      cacheMembers, hC, Function.comp_def]

/-- **The names of the fields and methods of a type.** -/
theorem members_file (tables : List Table) (o : Options) (type : String) :
    (file tables o).members type =
      tables.flatMap (fun t => (if rowType t == type then rowMembers t else []) ++
        (if tableType t == type then tableMembers t else [])) ++
      (if cacheType == type then cacheMembers tables else []) := by
  rw [File.members, file, List.flatMap_append, List.flatMap_assoc, membersOf_cacheDecls]
  simp only [membersOf_tableDecls]

/-- Of elements with distinct keys one has a given key. -/
theorem flatMap_of_key {α β : Type} {key : α → String} {l : List α} (hl : (l.map key).Nodup)
    {a : α} (ha : a ∈ l) (f : α → List β) :
    l.flatMap (fun x => if key x == key a then f x else []) = f a := by
  induction l with
  | nil => exact absurd ha List.not_mem_nil
  | cons b l ih =>
    rw [List.map_cons, List.nodup_cons] at hl
    rw [List.flatMap_cons]
    rcases List.mem_cons.mp ha with rfl | ha
    · have hrest : l.flatMap (fun x => if key x == key a then f x else []) = [] := by
        refine List.flatMap_eq_nil_iff.mpr fun x hx => if_neg fun heq => hl.1 ?_
        exact List.mem_map.mpr ⟨x, hx, beq_iff_eq.mp heq⟩
      rw [hrest, if_pos (beq_self_eq_true _), List.append_nil]
    · have hne : ¬ (key b == key a) = true := fun heq => hl.1
        (List.mem_map.mpr ⟨a, ha, (beq_iff_eq.mp heq).symm⟩)
      rw [if_neg hne, List.nil_append, ih hl.2 ha]

theorem members_rowType (h : WellFormed tables) (ht : t ∈ tables) :
    (file tables o).members (rowType t) = rowMembers t := by
  have htable : ∀ u, (tableType u == rowType t) = false := fun u =>
    beq_eq_false_iff_ne.mpr (rowType_ne_tableType t u).symm
  have hcache : (cacheType == rowType t) = false :=
    beq_eq_false_iff_ne.mpr (ne_fixed t _ List.mem_cons_self).2.1.symm
  rw [members_file, hcache]
  simp only [htable, Bool.false_eq_true, if_false, List.append_nil]
  exact flatMap_of_key (h.nodup_map_append "Row") ht rowMembers

theorem members_tableType (h : WellFormed tables) (ht : t ∈ tables) :
    (file tables o).members (tableType t) = tableMembers t := by
  have hrow : ∀ u, (rowType u == tableType t) = false := fun u =>
    beq_eq_false_iff_ne.mpr (rowType_ne_tableType u t)
  have hcache : (cacheType == tableType t) = false :=
    beq_eq_false_iff_ne.mpr (ne_fixed t _ List.mem_cons_self).2.2.symm
  rw [members_file, hcache]
  simp only [hrow, Bool.false_eq_true, if_false, List.append_nil, List.nil_append]
  exact flatMap_of_key (h.nodup_map_append "Table") ht tableMembers

theorem members_cacheType (tables : List Table) (o : Options) :
    (file tables o).members cacheType = cacheMembers tables := by
  have hrow : ∀ t, (rowType t == cacheType) = false := fun t =>
    beq_eq_false_iff_ne.mpr (ne_fixed t _ List.mem_cons_self).2.1
  have htable : ∀ t, (tableType t == cacheType) = false := fun t =>
    beq_eq_false_iff_ne.mpr (ne_fixed t _ List.mem_cons_self).2.2
  rw [members_file, beq_self_eq_true, if_pos rfl]
  simp only [hrow, htable, Bool.false_eq_true, if_false, List.append_nil]
  rw [List.flatMap_eq_nil_iff.mpr fun _ _ => rfl, List.nil_append]

/-- The fields and methods of rows are declared once. -/
theorem nodup_rowMembers (h : t.WellFormed) : (rowMembers t).Nodup := by
  refine List.nodup_append.mpr ⟨h.distinct, by decide, fun n hn m hm heq => ?_⟩
  obtain ⟨c, hc, rfl⟩ := List.mem_map.mp hn
  exact (h.columns c hc).unreserved (heq ▸ hm)

/-- The fields and methods of a table are declared once. -/
theorem nodup_tableMembers (h : t.WellFormed) : (tableMembers t).Nodup := by
  have hindexed : (t.indexedColumns.map (exportedName ·.name)).Nodup :=
    h.distinct.sublist (List.filter_sublist.map _)
  have hbegin : ∀ start : String, (t.indexedColumns.map (start ++ exportedName ·.name)).Nodup := by
    intro start
    have hmap : t.indexedColumns.map (start ++ exportedName ·.name) =
        (t.indexedColumns.map (exportedName ·.name)).map (start ++ ·) := by
      rw [List.map_map]
      rfl
    rw [hmap]
    exact hindexed.map fun _ _ heq => (String.append_right_inj _).mp heq
  have hhead : ∀ (start : String) (c : Char), start.toList.head? = some c →
      ∀ n ∈ t.indexedColumns.map (start ++ exportedName ·.name), n.toList.head? = some c := by
    intro start c hc n hn
    obtain ⟨col, -, rfl⟩ := List.mem_map.mp hn
    rw [String.toList_append, List.head?_append, hc]
    rfl
  have hby := hhead "by" 'b' (by decide)
  have hBy := hhead "By" 'B' (by decide)
  have hfixed : ∀ n ∈ ["rows", "All", "Len", "At", "pick", "records", "load"],
      n.toList.head? ≠ some 'b' ∧ n.toList.head? ≠ some 'B' := by decide
  have hperm : (tableMembers t).Perm (["rows", "All", "Len", "At", "pick", "records", "load"] ++
      (t.indexedColumns.map ("by" ++ exportedName ·.name) ++
        t.indexedColumns.map ("By" ++ exportedName ·.name))) := by
    have hindex : t.indexedColumns.map indexField =
        t.indexedColumns.map ("by" ++ exportedName ·.name) := rfl
    rw [tableMembers, hindex, List.perm_iff_count]
    intro n
    simp only [List.count_append, List.count_cons, List.count_nil]
    omega
  refine hperm.nodup_iff.mpr (List.nodup_append.mpr ⟨by decide,
    List.nodup_append.mpr ⟨hbegin "by", hbegin "By", fun n hn m hm heq => ?_⟩,
    fun n hn m hm heq => ?_⟩)
  · have hn := hby n hn
    rw [heq, hBy m hm] at hn
    cases hn
  · rw [heq] at hn
    rcases List.mem_append.mp hm with hm | hm
    · exact (hfixed m hn).1 (hby m hm)
    · exact (hfixed m hn).2 (hBy m hm)

/-- **The fields and methods of the cache are declared once** iff field names are apart and no
table is named with an underscore first. -/
theorem nodup_cacheMembers_iff (h : WellFormed tables)
    (hreserved : ∀ t ∈ tables, exportedName t.name ∉ reservedAccessors) :
    (cacheMembers tables).Nodup ↔ (tables.map (fieldName ·.name)).Nodup ∧
      ∀ t ∈ tables, t.name.toList.head? ≠ some '_' := by
  have hfixed : ∀ n ∈ ["TableNames", "Records"], n ∈ reservedAccessors ∧
      ∀ c, n.toList.head? = some c → c.isLower = false := by
    intro n hn
    refine ⟨?_, fun c hc => ?_⟩
    · revert n
      decide
    · rcases List.mem_cons.mp hn with rfl | hn
      · cases hc
        rfl
      · rw [List.mem_singleton.mp hn] at hc
        cases hc
        rfl
  rw [cacheMembers, List.append_assoc, List.nodup_append]
  constructor
  · rintro ⟨hfields, -, hapart⟩
    refine ⟨hfields, fun t ht hhead => ?_⟩
    have hfield : fieldName t.name ∈ tables.map (fieldName ·.name) :=
      List.mem_map.mpr ⟨t, ht, rfl⟩
    have hmethod : exportedName t.name ∈
        tables.map (exportedName ·.name) ++ ["TableNames", "Records"] :=
      List.mem_append_left _ (List.mem_map.mpr ⟨t, ht, rfl⟩)
    exact hapart _ hfield _ hmethod (fieldName_eq_exportedName hhead)
  · rintro ⟨hfields, hhead⟩
    refine ⟨hfields, List.nodup_append.mpr ⟨h.distinct, by decide, ?_⟩, ?_⟩
    · intro n hn m hm heq
      obtain ⟨t, ht, rfl⟩ := List.mem_map.mp hn
      exact hreserved t ht (heq ▸ (hfixed m hm).1)
    · intro n hn m hm heq
      obtain ⟨t, ht, rfl⟩ := List.mem_map.mp hn
      rcases List.mem_append.mp hm with hm | hm
      · obtain ⟨u, hu, rfl⟩ := List.mem_map.mp hm
        exact fieldName_ne_exportedName (h.each t ht).name (hhead t ht) (h.each u hu).name heq
      · obtain ⟨c, hc, hlower⟩ := isLower_head_fieldName (h.each t ht).name (hhead t ht)
        rw [heq] at hc
        rw [(hfixed m hm).2 c hc] at hlower
        cases hlower

/-! ### The packages that are used -/

section

variable (package : String)

@[simp] theorem Piece.uses_plain (s : String) : (Piece.plain s).uses package = false := rfl

@[simp] theorem Piece.uses_member (p name : String) :
    (Piece.member p name).uses package = (p == package) := rfl

@[simp] theorem Fragment.uses_nil : Fragment.uses package [] = false := rfl

@[simp] theorem Fragment.uses_cons (x : Piece) (f : Fragment) :
    Fragment.uses package (x :: f) = (x.uses package || Fragment.uses package f) := rfl

@[simp] theorem Fragment.uses_append (f g : Fragment) :
    Fragment.uses package (f ++ g) = (Fragment.uses package f || Fragment.uses package g) :=
  List.any_append

@[simp] theorem uses_line (depth : Nat) (s : String) :
    Fragment.uses package (line depth s).code = false := rfl

/-- Whether some line refers to a package. -/
def linesUse (lines : List Line) : Bool :=
  lines.any fun l => Fragment.uses package l.code

@[simp] theorem linesUse_nil : linesUse package [] = false := rfl

@[simp] theorem linesUse_cons (l : Line) (ls : List Line) :
    linesUse package (l :: ls) = (Fragment.uses package l.code || linesUse package ls) := rfl

@[simp] theorem linesUse_append (ls ms : List Line) :
    linesUse package (ls ++ ms) = (linesUse package ls || linesUse package ms) :=
  List.any_append

@[simp] theorem linesUse_map {α : Type} (l : List α) (f : α → Line) :
    linesUse package (l.map f) = l.any fun x => Fragment.uses package (f x).code :=
  List.any_map

@[simp] theorem linesUse_flatMap {α : Type} (l : List α) (f : α → List Line) :
    linesUse package (l.flatMap f) = l.any fun x => linesUse package (f x) :=
  List.any_flatMap

@[simp] theorem Decl.uses_heading (title : String) :
    (Decl.heading title).uses package = false := rfl

@[simp] theorem Decl.uses_texts (name : String) (values : List String) :
    (Decl.texts name values).uses package = false := rfl

@[simp] theorem Decl.uses_record (doc : List String) (name : String) (fields : List Field) :
    (Decl.record doc name fields).uses package =
      fields.any fun f => Fragment.uses package f.type := rfl

@[simp] theorem Decl.uses_routine (doc : List String) (receiver : Option Receiver) (name : String)
    (signature : Fragment) (body : List Line) :
    (Decl.routine doc receiver name signature body).uses package =
      (Fragment.uses package signature || linesUse package body) := rfl

end

/-- Whether the code for a column refers to a package. -/
def columnUses (package : String) (c : Column) : Bool :=
  Fragment.uses package (columnType c) || Fragment.uses package (textCode c) ||
    Fragment.uses package (readCode c 0)

/-- The packages that every file refers to. -/
def fixedPackages : List String := ["context", "fmt", "iter", "schema", "slices"]

theorem beq_of_notMem_fixed (h : package ∉ fixedPackages) :
    ∀ p ∈ fixedPackages, (p == package) = false :=
  fun _ hp => beq_eq_false_iff_ne.mpr fun heq => h (heq ▸ hp)

theorem any_false {α : Type} (l : List α) : (l.any fun _ => false) = false :=
  List.any_eq_false.mpr fun _ _ => Bool.false_ne_true

theorem uses_readCode (package : String) (c : Column) (i : Nat) :
    Fragment.uses package (readCode c i) = Fragment.uses package (readCode c 0) := by
  unfold readCode
  split
  · rfl
  · cases c.type <;> rfl

theorem uses_fieldDecl (package : String) (t : Table) :
    (fieldDecl t).uses package = t.columns.any fun c => Fragment.uses package (textCode c) := by
  have hcase : ∀ c, linesUse package (fieldCase c) = Fragment.uses package (textCode c) := by
    intro c
    rw [fieldCase]
    cases nullCode? c <;> simp [guarded, close]
  simp [fieldDecl, close, hcase]

theorem uses_loadDecl (h : package ∉ fixedPackages) (t : Table) :
    (loadDecl t).uses package = t.columns.any fun c => Fragment.uses package (readCode c 0) := by
  have hfixed := beq_of_notMem_fixed h
  have hcontext := hfixed "context" (by decide)
  have hschema := hfixed "schema" (by decide)
  have hfmt := hfixed "fmt" (by decide)
  have hindex : ∀ c, linesUse package (indexLines c) = false := by
    intro c
    rw [indexLines]
    cases c.nullable <;> simp [guarded, close]
  have hread : (t.columns.zipIdx.any fun x => Fragment.uses package (readCode x.1 x.2)) =
      t.columns.any fun c => Fragment.uses package (readCode c 0) := by
    have hfst : t.columns = t.columns.zipIdx.map Prod.fst := by rw [List.zipIdx_map_fst]
    conv_rhs => rw [hfst, List.any_map]
    simp only [uses_readCode package _ _, Function.comp_def]
  simp [loadDecl, tableMethod, hcontext, hschema, hfmt, hindex, hread, guarded,
    close, any_false]

theorem uses_tableDecls (h : package ∉ fixedPackages) (t : Table) :
    (tableDecls t).any (·.uses package) = t.columns.any (columnUses package) := by
  have hiter := beq_of_notMem_fixed h "iter" (by decide)
  have hslices := beq_of_notMem_fixed h "slices" (by decide)
  have hrow : (rowDecl t).uses package =
      t.columns.any fun c => Fragment.uses package (columnType c) := by
    simp [rowDecl, List.any_map, Function.comp_def]
  have htable : (tableDecl t).uses package = false := by
    simp [tableDecl, List.any_map, Function.comp_def, any_false]
  have hlookup : ∀ c, (lookupDecl t c).uses package = false := by
    simp [lookupDecl, tableMethod]
  have haccess : (accessDecls t).any (·.uses package) = false := by
    simp [accessDecls, tableMethod, hslices]
  have hany : (tableDecls t).any (·.uses package) =
      ((t.columns.any fun c => Fragment.uses package (columnType c)) ||
        (t.columns.any fun c => Fragment.uses package (textCode c)) ||
        t.columns.any fun c => Fragment.uses package (readCode c 0)) := by
    simp [tableDecls, List.any_append, List.any_map, Function.comp_def, hrow, uses_fieldDecl,
      htable, haccess, hlookup, any_false, uses_loadDecl h, locationDecl, pickDecl, recordsDecl,
      tableMethod, close, hiter, Bool.or_assoc]
  rw [hany, Bool.eq_iff_iff]
  simp only [columnUses, Bool.or_eq_true, List.any_eq_true, and_or_left, exists_or]

theorem uses_cacheDecls (h : package ∉ fixedPackages) (tables : List Table) :
    (cacheDecls tables).any (·.uses package) = false := by
  have hfixed := beq_of_notMem_fixed h
  have hiter := hfixed "iter" (by decide)
  have hcontext := hfixed "context" (by decide)
  have hschema := hfixed "schema" (by decide)
  have haccessor : ∀ t, (accessorDecl t).uses package = false := by
    simp [accessorDecl, cacheMethod]
  simp [cacheDecls, List.any_append, List.any_map, Function.comp_def, haccessor, any_false,
    cacheDecl, tableNamesDecl, cacheRecordsDecl, cacheLoadDecl, cacheMethod, close,
    failed, hiter, hcontext, hschema]

/-- **A file refers to a package iff the code for some column does**, but for the fixed ones. -/
theorem uses_file (h : package ∉ fixedPackages) (tables : List Table) (o : Options) :
    (file tables o).uses package = anyColumn tables (columnUses package) := by
  rw [File.uses, file, List.any_append, List.any_flatMap, uses_cacheDecls h, Bool.or_false,
    anyColumn]
  simp only [uses_tableDecls h]

/-- What the code for a column refers to, by its type. -/
theorem columnUses_eq {c : Column} (h : c.type.valid = true) :
    columnUses "bytes" c = (c.type == .blob) ∧ columnUses "sql" c = isWrapped c ∧
      columnUses "strconv" c = (c.type != .text && c.type != .blob) := by
  obtain ⟨name, type, nullable, indexed⟩ := c
  cases type with
  | unknown => cases h
  | integer | text | real | blob | boolean => cases nullable <;> exact ⟨rfl, rfl, rfl⟩

/-- Among the imports, the packages that are not fixed stand for kinds of columns. -/
theorem mem_standardImports (tables : List Table) :
    ("bytes" ∈ standardImports tables ↔ anyColumn tables (·.type == .blob) = true) ∧
      ("database/sql" ∈ standardImports tables ↔ anyColumn tables isWrapped = true) ∧
      ("strconv" ∈ standardImports tables ↔
        anyColumn tables (fun c => c.type != .text && c.type != .blob) = true) := by
  unfold standardImports
  generalize anyColumn tables (·.type == .blob) = bytes
  generalize anyColumn tables isWrapped = sql
  generalize anyColumn tables (fun c => c.type != .text && c.type != .blob) = strconv
  cases bytes <;> cases sql <;> cases strconv <;> decide

/-- The packages that are imported only where they are needed, each with its path. -/
def optionalPackages : List (String × String) :=
  [("bytes", "bytes"), ("sql", "database/sql"), ("strconv", "strconv")]

/-- **A file imports the packages that it refers to**, and the one that the options name. -/
theorem importsPath_file_iff (h : WellFormed tables) (o : Options) {path : String}
    (hp : (package, path) ∈ optionalPackages) :
    (file tables o).importsPath path = true ↔
      (file tables o).uses package = true ∨ o.schemaImport = path := by
  have himports : (file tables o).importsPath path = true ↔
      path ∈ standardImports tables ∨ o.schemaImport = path := by
    simp only [File.importsPath, file, List.any_cons, List.any_nil, Bool.or_false,
      Bool.or_eq_true, List.contains_iff_mem, List.mem_singleton]
    exact or_congr_right eq_comm
  have hcolumns : ∀ {p q : Column → Bool}, (∀ c, c.type.valid = true → p c = q c) →
      anyColumn tables p = anyColumn tables q := by
    intro p q hpq
    rw [anyColumn, anyColumn, Bool.eq_iff_iff]
    simp only [List.any_eq_true]
    refine exists_congr fun t => and_congr_right fun ht => ?_
    refine exists_congr fun c => and_congr_right fun hc => ?_
    rw [hpq c ((h.each t ht).columns c hc).type]
  obtain ⟨hbytes, hsql, hstrconv⟩ := mem_standardImports tables
  rw [himports]
  simp only [optionalPackages, List.mem_cons, Prod.mk.injEq, List.not_mem_nil, or_false] at hp
  rcases hp with ⟨rfl, rfl⟩ | ⟨rfl, rfl⟩ | ⟨rfl, rfl⟩
  · rw [hbytes, uses_file (by decide), hcolumns fun c hc => (columnUses_eq hc).1]
  · rw [hsql, uses_file (by decide), hcolumns fun c hc => (columnUses_eq hc).2.1]
  · rw [hstrconv, uses_file (by decide), hcolumns fun c hc => (columnUses_eq hc).2.2]

/-! ### Generated files -/

/-- **When a generated file declares every name once.**  For every list of tables and all options
for which a file is generated: the names of the package are declared once iff no two tables clash;
the fields and methods of the cache are iff, besides, no table is named with an underscore first;
those of rows and tables always are.  A package that is not in every file is imported iff the file
refers to it, unless the options name its path for the schema. -/
theorem declares_once_iff (tables : List Table) (o : Options) {text : String}
    (h : generate tables o = .ok text) :
    text = (file tables o).text ∧
    ((file tables o).globals.Nodup ↔ ∀ t ∈ tables, ∀ u ∈ tables, ¬ Clash t.name u.name) ∧
    (((file tables o).members cacheType).Nodup ↔
      (∀ t ∈ tables, ∀ u ∈ tables, ¬ Clash t.name u.name) ∧
        ∀ t ∈ tables, t.name.toList.head? ≠ some '_') ∧
    (∀ t ∈ tables, ((file tables o).members (rowType t)).Nodup ∧
      ((file tables o).members (tableType t)).Nodup) ∧
    ∀ package path, (package, path) ∈ optionalPackages →
      ((file tables o).importsPath path = true ↔
        (file tables o).uses package = true ∨ o.schemaImport = path) := by
  obtain ⟨hwf, hreserved, htext⟩ := of_generate_eq_ok h
  refine ⟨htext, ?_, ?_, fun t ht => ⟨?_, ?_⟩, fun package path => importsPath_file_iff hwf o⟩
  · rw [nodup_globals_iff hwf, nodup_fieldNames_iff hwf]
  · rw [members_cacheType, nodup_cacheMembers_iff hwf hreserved, nodup_fieldNames_iff hwf]
  · rw [members_rowType hwf ht]
    exact nodup_rowMembers (hwf.each t ht)
  · rw [members_tableType hwf ht]
    exact nodup_tableMembers (hwf.each t ht)

/-- Two tables, one of them with columns of all kinds, whose names stay apart. -/
def apartTables : List Table :=
  [{ name := "api_1", columns := [{ name := "id", type := .integer, indexed := true },
      { name := "note", type := .text, nullable := true }, { name := "data", type := .blob }] },
    { name := "api_2", columns := [{ name := "a", type := .text }] }]

/-- Their file declares every name once and imports what it uses. -/
theorem declares_once_apartTables :
    generate apartTables {} = .ok (file apartTables {}).text ∧
      (file apartTables {}).globals.Nodup ∧ ((file apartTables {}).members cacheType).Nodup ∧
      ((file apartTables {}).importsPath "bytes" = true ↔
        (file apartTables {}).uses "bytes" = true) := by
  have hgenerate : generate apartTables {} = .ok (file apartTables {}).text := by
    have hvalidate : validate apartTables = none := by decide +kernel
    have haccessors : apartTables.findSome? accessorProblem? = none := by decide +kernel
    rw [generate, hvalidate, haccessors]
    exact if_pos (by decide +kernel)
  have hfields : (apartTables.map (fieldName ·.name)).Nodup := by decide +kernel
  obtain ⟨hwf, -⟩ := of_generate_eq_ok hgenerate
  obtain ⟨-, hglobals, hcache, -, himports⟩ := declares_once_iff apartTables {} hgenerate
  have hclash := (nodup_fieldNames_iff hwf).mp hfields
  refine ⟨hgenerate, hglobals.mpr hclash, hcache.mpr ⟨hclash, by decide⟩, ?_⟩
  rw [himports "bytes" "bytes" (by decide)]
  exact or_iff_left (by decide)

/-- Two tables that clash: both have the field `api1`. -/
def clashingTables : List Table :=
  [{ name := "api_1", columns := [{ name := "a", type := .text }] },
    { name := "api1", columns := [{ name := "a", type := .text }] }]

/-- A table whose field and accessor have one name. -/
def underscoredTables : List Table :=
  [{ name := "_foo", columns := [{ name := "a", type := .text }] }]

/-- A file is generated for tables that clash, and declares a variable twice and a field twice.  A
file is also generated for a table named with an underscore first, and declares a field and a
method of one name. -/
theorem generated_names_repeat :
    (generate clashingTables {} = .ok (file clashingTables {}).text ∧
      ¬ (file clashingTables {}).globals.Nodup ∧
      ¬ ((file clashingTables {}).members cacheType).Nodup) ∧
    generate underscoredTables {} = .ok (file underscoredTables {}).text ∧
      ¬ ((file underscoredTables {}).members cacheType).Nodup := by
  have hclashing : validate clashingTables = none ∧
      clashingTables.findSome? accessorProblem? = none := by decide +kernel
  have hunderscored : validate underscoredTables = none ∧
      underscoredTables.findSome? accessorProblem? = none := by decide +kernel
  refine ⟨⟨?_, by decide +kernel, by decide +kernel⟩, ?_, by decide +kernel⟩
  · rw [generate, hclashing.1, hclashing.2]
    exact if_pos (by decide +kernel)
  · rw [generate, hunderscored.1, hunderscored.2]
    exact if_pos (by decide +kernel)

end Code

end TaintFlow.Schema
