import Mathlib.Data.List.Nodup
import Mathlib.Data.List.Perm.Basic
import Mathlib.Data.List.Count
import TaintFlow.Proofs.Schema.Reading
import TaintFlow.Schema.Tables

/-!
# What the data definition statements create

Statements are executed on a catalog of tables and indexes, whose names are one set.  A statement
whose name is in use is skipped; another one fails if a table repeats a column or has a key outside
its columns, or if an index is on a column that is not there.  What a database refuses for reasons
of its own, such as reserved words or long names, is left out.  Some refuse a table named like an
index where this catalog skips it; what was declared is missing either way.

The name of an index is made of those of its table and its column, joined with underscores, which
both may contain.  So two columns may give one name, and the index of the second one is skipped;
and a table may have the name of an index.  Validation looks at neither.  These are the only ways
in which the statements fall short of what was declared.

## Main definitions

* `Sql.Catalog`, `Sql.execute?` — a database's tables and indexes, and the execution of a text.
* `Sql.Catalog.Declares` — a catalog has what was declared, and nothing else.
* `Sql.NameClash` — a name stands for two things.

## Main results

* `Sql.creates_declared_iff` — **the statements for validated tables create what was declared iff
  no names clash.**
-/

namespace TaintFlow.Schema.Sql

/-- The name of what a statement creates. -/
def Definition.name : Definition → String
  | .table t => t.name
  | .index i => i.name

/-- The table and the column of an index. -/
def IndexDefinition.target (i : IndexDefinition) : String × String :=
  (i.table, i.column)

/-- Whether a table has columns with different names, and its key is among them. -/
def TableDefinition.Valid (t : TableDefinition) : Prop :=
  t.columns ≠ [] ∧ (t.columns.map (·.name)).Nodup ∧ ∀ k ∈ t.key, k ∈ t.columns.map (·.name)

instance (t : TableDefinition) : Decidable t.Valid :=
  inferInstanceAs (Decidable (_ ∧ _ ∧ _))

/-! ### Catalogs -/

/-- The tables and indexes of a database, in the order in which they were created. -/
structure Catalog where
  tables : List TableDefinition := []
  indexes : List IndexDefinition := []
  deriving DecidableEq, Repr

namespace Catalog

/-- The names in use. -/
def names (cat : Catalog) : List String :=
  cat.tables.map (·.name) ++ cat.indexes.map (·.name)

/-- Whether some table has a column. -/
def HasColumn (cat : Catalog) (table column : String) : Prop :=
  ∃ t ∈ cat.tables, t.name = table ∧ column ∈ t.columns.map (·.name)

instance (cat : Catalog) (table column : String) : Decidable (cat.HasColumn table column) :=
  inferInstanceAs (Decidable (∃ t ∈ cat.tables, _))

/-- Whether something with a new name can be created. -/
def Admits (cat : Catalog) : Definition → Prop
  | .table t => t.Valid
  | .index i => cat.HasColumn i.table i.column

instance (cat : Catalog) : (x : Definition) → Decidable (cat.Admits x)
  | .table t => inferInstanceAs (Decidable t.Valid)
  | .index i => inferInstanceAs (Decidable (cat.HasColumn i.table i.column))

/-- The catalog with one more table or index. -/
def add (cat : Catalog) : Definition → Catalog
  | .table t => { cat with tables := cat.tables ++ [t] }
  | .index i => { cat with indexes := cat.indexes ++ [i] }

/-- Create something unless its name is in use. -/
def create? (cat : Catalog) (x : Definition) : Option Catalog :=
  if x.name ∈ cat.names then some cat
  else if cat.Admits x then some (cat.add x)
  else none

/-- Create one thing after the other. -/
def run? (cat : Catalog) (xs : List Definition) : Option Catalog :=
  xs.foldlM create? cat

end Catalog

/-- Execute the statements of a text on an empty catalog. -/
def execute? (text : String) : Option Catalog :=
  (script? text).bind (Catalog.run? {})

/-! ### What was declared -/

/-- The columns with an index, each with its table. -/
def targets (tables : List Table) : List (String × String) :=
  tables.flatMap fun t => t.indexedColumns.map fun c => (t.name, c.name)

/-- A catalog has the declared tables with their columns in order and their keys, an index on every
column that is declared with one, and nothing else. -/
structure Catalog.Declares (cat : Catalog) (declared : List Table) (d : Dialect) : Prop where
  tables : cat.tables.Perm (declared.map (·.definition d))
  indexes : ∀ target, (cat.indexes.map (·.target)).count target =
    if target ∈ targets declared then 1 else 0

/-- What follows the first table's name in that of the second one comes first in the first column's
name, so that the joined names are the same. -/
def Overlap (p q : String × String) : Prop :=
  ∃ middle, q.1 = p.1 ++ "_" ++ middle ∧ p.2 = middle ++ "_" ++ q.2

/-- A table is named like an index, or two indexes have one name. -/
def NameClash (tables : List Table) : Prop :=
  (∃ t ∈ tables, ∃ p ∈ targets tables, t.name = indexName p.1 p.2) ∨
    ∃ p ∈ targets tables, ∃ q ∈ targets tables, Overlap p q

/-! ### Names of indexes -/

section

variable {tables : List Table} {p q : String × String}

theorem indexName_toList (p : String × String) :
    (indexName p.1 p.2).toList = "idx_".toList ++ (p.1.toList ++ '_' :: p.2.toList) := by
  simp only [indexName, String.toList_append, List.append_assoc]
  rfl

theorem Overlap.ne (h : Overlap p q) : p ≠ q := by
  rintro rfl
  obtain ⟨middle, hmiddle, -⟩ := h
  have hlength := congrArg (·.toList.length) hmiddle
  simp only [String.toList_append, List.length_append] at hlength
  have hunderscore : "_".toList.length = 1 := by decide
  omega

theorem overlap_iff_toList : Overlap p q ↔ ∃ middle, q.1.toList = p.1.toList ++ '_' :: middle ∧
    p.2.toList = middle ++ '_' :: q.2.toList := by
  have hjoin : ∀ a b : String, (a ++ "_" ++ b).toList = a.toList ++ '_' :: b.toList := by
    intro a b
    rw [String.toList_append, String.toList_append, List.append_assoc]
    rfl
  constructor
  · rintro ⟨middle, htable, hcolumn⟩
    exact ⟨middle.toList, by rw [htable, hjoin], by rw [hcolumn, hjoin]⟩
  · rintro ⟨middle, htable, hcolumn⟩
    refine ⟨String.ofList middle, ?_, ?_⟩
    · rw [← String.toList_inj, hjoin, String.toList_ofList, htable]
    · rw [← String.toList_inj, hjoin, String.toList_ofList, hcolumn]

/-- **Two columns have one index name iff** they are the same, or one overlaps the other. -/
theorem indexName_eq_iff :
    indexName p.1 p.2 = indexName q.1 q.2 ↔ p = q ∨ Overlap p q ∨ Overlap q p := by
  rw [← String.toList_inj, indexName_toList, indexName_toList, List.append_cancel_left_eq,
    overlap_iff_toList, overlap_iff_toList, List.append_eq_append_iff]
  constructor
  · -- one table name is the beginning of the other; what is between starts with the underscore
    rintro (⟨between, htable, hcolumn⟩ | ⟨between, htable, hcolumn⟩)
    · cases between with
      | nil =>
        rw [List.append_nil] at htable
        rw [List.nil_append] at hcolumn
        exact .inl (Prod.ext (String.toList_inj.mp htable.symm)
          (String.toList_inj.mp (List.cons.inj hcolumn).2))
      | cons b middle =>
        obtain ⟨rfl, hrest⟩ := List.cons.inj hcolumn
        exact .inr (.inl ⟨middle, htable, hrest⟩)
    · cases between with
      | nil =>
        rw [List.append_nil] at htable
        rw [List.nil_append] at hcolumn
        exact .inl (Prod.ext (String.toList_inj.mp htable)
          (String.toList_inj.mp (List.cons.inj hcolumn).2.symm))
      | cons b middle =>
        obtain ⟨rfl, hrest⟩ := List.cons.inj hcolumn
        exact .inr (.inr ⟨middle, htable, hrest⟩)
  · rintro (rfl | ⟨middle, htable, hcolumn⟩ | ⟨middle, htable, hcolumn⟩)
    · exact .inl ⟨[], (List.append_nil _).symm, rfl⟩
    · exact .inl ⟨'_' :: middle, htable, congrArg (List.cons '_') hcolumn⟩
    · exact .inr ⟨'_' :: middle, htable, congrArg (List.cons '_') hcolumn⟩

/-- The names that the statements of tables use. -/
def declaredNames (tables : List Table) : List String :=
  tables.map (·.name) ++ (targets tables).map fun p => indexName p.1 p.2

/-- The columns with an index are pairwise different. -/
theorem nodup_targets (h : WellFormed tables) : (targets tables).Nodup := by
  refine List.nodup_flatMap.mpr ⟨fun t ht => ?_, ?_⟩
  · have hnames := ((h.each t ht).nodup_columnNames.of_map _).filter (·.indexed)
    refine (List.nodup_map_iff_inj_on hnames).mpr fun b hb c hc heq => ?_
    exact List.inj_on_of_nodup_map (h.each t ht).nodup_columnNames (List.mem_of_mem_filter hb)
      (List.mem_of_mem_filter hc) (Prod.mk.inj heq).2
  · refine (List.pairwise_map.mp h.nodup_names).imp fun hne p hp hq => ?_
    obtain ⟨c, -, rfl⟩ := List.mem_map.mp hp
    obtain ⟨e, -, heq⟩ := List.mem_map.mp hq
    exact hne (Prod.mk.inj heq).1.symm

/-- **The names are pairwise different iff none clash.** -/
theorem nodup_declaredNames_iff (h : WellFormed tables) :
    (declaredNames tables).Nodup ↔ ¬ NameClash tables := by
  rw [declaredNames, List.nodup_append, List.nodup_map_iff_inj_on (nodup_targets h), NameClash,
    not_or]
  constructor
  · rintro ⟨-, hinj, hdisjoint⟩
    refine ⟨?_, ?_⟩
    · rintro ⟨t, ht, p, hp, heq⟩
      exact hdisjoint _ (List.mem_map_of_mem ht) _ (List.mem_map_of_mem hp) heq
    · rintro ⟨p, hp, q, hq, hoverlap⟩
      exact hoverlap.ne (hinj p hp q hq (indexName_eq_iff.mpr (.inr (.inl hoverlap))))
  · rintro ⟨htable, hoverlap⟩
    refine ⟨h.nodup_names, fun p hp q hq heq => ?_, ?_⟩
    · rcases indexName_eq_iff.mp heq with heq | hpq | hqp
      · exact heq
      · exact absurd ⟨p, hp, q, hq, hpq⟩ hoverlap
      · exact absurd ⟨q, hq, p, hp, hqp⟩ hoverlap
    · rintro _ hname _ hindex rfl
      obtain ⟨t, ht, rfl⟩ := List.mem_map.mp hname
      obtain ⟨p, hp, heq⟩ := List.mem_map.mp hindex
      exact htable ⟨t, ht, p, hp, heq.symm⟩

end

/-! ### Runs -/

namespace Catalog

variable {cat cat' : Catalog} {x : Definition} {xs : List Definition}

/-- What creating something new does to the names. -/
theorem names_add (cat : Catalog) (x : Definition) :
    (cat.add x).names.Perm (x.name :: cat.names) := by
  cases x with
  | table t =>
    rw [names, add, names, List.map_append, List.append_assoc]
    exact List.perm_middle
  | index i =>
    rw [names, add, names, List.map_append, ← List.append_assoc]
    exact List.perm_append_singleton _ _

/-- A step creates something new that the catalog admits, or does nothing. -/
theorem create?_eq_some (h : cat.create? x = some cat') :
    (x.name ∈ cat.names ∧ cat' = cat) ∨
      (x.name ∉ cat.names ∧ cat.Admits x ∧ cat' = cat.add x) := by
  rw [create?] at h
  split at h
  · next hused => exact .inl ⟨hused, (Option.some.inj h).symm⟩
  · next hnew =>
    split at h
    · next hadmits => exact .inr ⟨hnew, hadmits, (Option.some.inj h).symm⟩
    · cases h

theorem create?_of_new (hnew : x.name ∉ cat.names) (h : cat.Admits x) :
    cat.create? x = some (cat.add x) := by
  rw [create?, if_neg hnew, if_pos h]

theorem run?_cons (cat : Catalog) (x : Definition) (xs : List Definition) :
    cat.run? (x :: xs) = (cat.create? x).bind (run? · xs) :=
  List.foldlM_cons

theorem run?_append (cat : Catalog) (xs ys : List Definition) :
    cat.run? (xs ++ ys) = (cat.run? xs).bind (run? · ys) :=
  List.foldlM_append

/-- What holds initially and is kept by every step holds at the end of a run. -/
theorem run?_induction {P : Catalog → Prop} (h : cat.run? xs = some cat') (hinit : P cat)
    (hstep : ∀ cat x cat', x ∈ xs → P cat → cat.create? x = some cat' → P cat') : P cat' := by
  induction xs generalizing cat with
  | nil =>
    obtain rfl := Option.some.inj h
    exact hinit
  | cons x xs ih =>
    rw [run?_cons] at h
    obtain ⟨next, hnext, hrest⟩ := Option.bind_eq_some_iff.mp h
    exact ih hrest (hstep cat x next List.mem_cons_self hinit hnext)
      fun cat y cat' hy => hstep cat y cat' (List.mem_cons_of_mem x hy)

/-- No name is used twice. -/
theorem nodup_names_of_run? (h : cat.run? xs = some cat') (hcat : cat.names.Nodup) :
    cat'.names.Nodup := by
  refine run?_induction (P := (·.names.Nodup)) h hcat fun cat x cat' _ hnodup hstep => ?_
  rcases create?_eq_some hstep with ⟨-, rfl⟩ | ⟨hnew, -, rfl⟩
  · exact hnodup
  · exact (names_add cat x).nodup_iff.mpr (List.nodup_cons.mpr ⟨hnew, hnodup⟩)

/-- Every index was created by a statement. -/
theorem mem_of_run? (h : run? {} xs = some cat) : ∀ i ∈ cat.indexes, .index i ∈ xs := by
  refine run?_induction (P := fun cat => ∀ i ∈ cat.indexes, .index i ∈ xs) h
    (fun _ hi => absurd hi List.not_mem_nil) fun cat x cat' hx hall hstep => ?_
  rcases create?_eq_some hstep with ⟨-, rfl⟩ | ⟨-, -, rfl⟩
  · exact hall
  · cases x with
    | table t => exact hall
    | index i =>
      exact List.forall_mem_append.mpr ⟨hall, List.forall_mem_singleton.mpr hx⟩

/-- Columns stay. -/
theorem HasColumn.add {table column : String} (h : cat.HasColumn table column) (x : Definition) :
    (cat.add x).HasColumn table column := by
  obtain ⟨t, ht, hcolumn⟩ := h
  cases x with
  | table u => exact ⟨t, List.mem_append_left _ ht, hcolumn⟩
  | index i => exact ⟨t, ht, hcolumn⟩

/-- Indexes with new names on columns that are there are all created. -/
theorem run?_indexes {is : List IndexDefinition}
    (hcolumns : ∀ i ∈ is, cat.HasColumn i.table i.column)
    (hnew : (cat.names ++ is.map (·.name)).Nodup) :
    cat.run? (is.map .index) = some { cat with indexes := cat.indexes ++ is } := by
  induction is generalizing cat with
  | nil =>
    rw [List.append_nil]
    rfl
  | cons i is ih =>
    obtain ⟨hi, his⟩ := List.forall_mem_cons.mp hcolumns
    have hperm : ((cat.add (.index i)).names ++ is.map (·.name)).Perm
        (cat.names ++ (i :: is).map (·.name)) :=
      ((names_add cat (.index i)).append_right _).trans List.perm_middle.symm
    have hname : i.name ∉ cat.names := fun hmem =>
      (List.nodup_append.mp hnew).2.2 _ hmem _ List.mem_cons_self rfl
    rw [List.map_cons, run?_cons, create?_of_new (x := .index i) hname hi, Option.bind_some,
      ih (fun j hj => (his j hj).add _) (hperm.nodup_iff.mpr hnew)]
    rw [add, List.append_assoc]
    rfl

end Catalog

/-! ### The statements of tables -/

section

variable {tables : List Table} {d : Dialect} {cat : Catalog} {t : Table}

/-- The indexes of a table. -/
def indexDefinitions (t : Table) : List IndexDefinition :=
  t.indexedColumns.map fun c =>
    { name := indexName t.name c.name, table := t.name, column := c.name }

theorem map_definition_tableStatements (t : Table) :
    (tableStatements t).map (·.definition d) =
      .table (t.definition d) :: (indexDefinitions t).map .index := by
  rw [tableStatements, List.map_cons, List.map_map, indexDefinitions, List.map_map]
  rfl

theorem valid_definition (h : t.WellFormed) : (t.definition d).Valid := by
  have hnames : (t.definition d).columns.map (·.name) = t.columns.map (·.name) := List.map_map
  refine ⟨mt List.map_eq_nil_iff.mp h.nonempty, ?_, fun k hk => ?_⟩
  · rw [hnames]
    exact h.nodup_columnNames
  · rw [hnames]
    exact h.mem_of_mem_key hk

theorem hasColumn_definition (ht : t.definition d ∈ cat.tables) :
    ∀ i ∈ indexDefinitions t, cat.HasColumn i.table i.column := by
  intro i hi
  obtain ⟨c, hc, rfl⟩ := List.mem_map.mp hi
  refine ⟨t.definition d, ht, rfl, ?_⟩
  rw [Table.definition, List.map_map]
  exact List.mem_map.mpr ⟨c, List.mem_of_mem_filter hc, rfl⟩

/-- A catalog with the table and its indexes besides. -/
def withTable (d : Dialect) (cat : Catalog) (t : Table) : Catalog where
  tables := cat.tables ++ [t.definition d]
  indexes := cat.indexes ++ indexDefinitions t

/-- After a table, the names of what follows are still new. -/
theorem nodup_names_withTable {ts : List Table}
    (h : (cat.names ++ declaredNames (t :: ts)).Nodup) :
    ((withTable d cat t).names ++ declaredNames ts).Nodup ∧
      ((cat.add (.table (t.definition d))).names ++ (indexDefinitions t).map (·.name)).Nodup := by
  have hindexes : (indexDefinitions t).map (·.name) =
      (t.indexedColumns.map fun c => (t.name, c.name)).map fun p => indexName p.1 p.2 := by
    rw [indexDefinitions, List.map_map, List.map_map]
    rfl
  have hperm : ((withTable d cat t).names ++ declaredNames ts).Perm
      (cat.names ++ declaredNames (t :: ts)) := by
    have hname : (t.definition d).name = t.name := rfl
    -- the same names in another order, each equally often
    refine List.perm_iff_count.mpr fun name => ?_
    simp only [Catalog.names, withTable, declaredNames, targets, List.flatMap_cons, List.map_append,
      List.map_cons, List.map_nil, List.count_append, List.count_cons, List.count_nil, hname,
      ← hindexes]
    omega
  have hnodup := hperm.nodup_iff.mpr h
  refine ⟨hnodup, ?_⟩
  have hsub := (List.nodup_append.mp hnodup).1
  refine (List.Perm.nodup_iff (List.perm_iff_count.mpr fun name => ?_)).mpr hsub
  simp only [Catalog.names, withTable, Catalog.add, List.map_append, List.count_append]
  omega

/-- The statements of a table with new names create it and its indexes. -/
theorem run?_tableStatements (h : t.WellFormed) {ts : List Table}
    (hnew : (cat.names ++ declaredNames (t :: ts)).Nodup) :
    cat.run? ((tableStatements t).map (·.definition d)) = some (withTable d cat t) := by
  have hname : t.name ∉ cat.names := fun hmem =>
    (List.nodup_append.mp hnew).2.2 _ hmem _ List.mem_cons_self rfl
  have hcolumns : ∀ i ∈ indexDefinitions t,
      (cat.add (.table (t.definition d))).HasColumn i.table i.column :=
    hasColumn_definition (List.mem_append_right _ List.mem_cons_self)
  rw [map_definition_tableStatements, Catalog.run?_cons,
    Catalog.create?_of_new (x := .table (t.definition d)) hname (valid_definition h),
    Option.bind_some, Catalog.run?_indexes hcolumns (nodup_names_withTable hnew).2]
  rfl

/-- **Statements with new names create everything**, in the order in which it was declared. -/
theorem run?_statements (h : ∀ t ∈ tables, t.WellFormed)
    (hnew : (cat.names ++ declaredNames tables).Nodup) :
    cat.run? ((statements tables).map (·.definition d)) =
      some { tables := cat.tables ++ tables.map (·.definition d),
             indexes := cat.indexes ++ tables.flatMap indexDefinitions } := by
  induction tables generalizing cat with
  | nil =>
    rw [List.map_nil, List.flatMap_nil, List.append_nil, List.append_nil]
    rfl
  | cons t ts ih =>
    obtain ⟨ht, hts⟩ := List.forall_mem_cons.mp h
    rw [statements, List.flatMap_cons, List.map_append, Catalog.run?_append,
      run?_tableStatements ht hnew, Option.bind_some]
    refine (ih hts (nodup_names_withTable hnew).1).trans ?_
    rw [withTable, List.append_assoc, List.append_assoc, List.flatMap_cons]
    rfl

/-- The names of a catalog with what was declared, and no other indexes than those of the
statements. -/
theorem names_perm_of_declares (h : WellFormed tables) (hcat : cat.Declares tables d)
    (hindexes : ∀ i ∈ cat.indexes, .index i ∈ (statements tables).map (·.definition d)) :
    cat.names.Perm (declaredNames tables) := by
  have htables : (cat.tables.map (·.name)).Perm (tables.map (·.name)) := by
    have hmap := hcat.tables.map (·.name)
    rwa [List.map_map] at hmap
  have htargets : (cat.indexes.map (·.target)).Perm (targets tables) :=
    List.perm_iff_count.mpr fun target => by rw [hcat.indexes, (nodup_targets h).count]
  have hnames : cat.indexes.map (·.name) =
      (cat.indexes.map (·.target)).map fun p => indexName p.1 p.2 := by
    rw [List.map_map]
    refine List.map_congr_left fun i hi => ?_
    obtain ⟨s, hs, heq⟩ := List.mem_map.mp (hindexes i hi)
    obtain ⟨t, -, hs⟩ := List.mem_flatMap.mp hs
    rcases List.mem_cons.mp hs with rfl | hs
    · cases heq
    · obtain ⟨c, -, rfl⟩ := List.mem_map.mp hs
      rw [← Definition.index.inj heq]
      rfl
  rw [Catalog.names, hnames]
  exact htables.append (htargets.map _)

/-- **When the statements create what was declared.**  For every list of tables that passes
validation and either dialect: the text of the statements, executed on an empty catalog, leaves the
declared tables and one index on every column that is declared with one iff no table is named like
an index and no two indexed columns give one index name. -/
theorem creates_declared_iff (tables : List Table) (h : validate tables = none) (d : Dialect) :
    (∃ cat, execute? (definitionText tables d) = some cat ∧ cat.Declares tables d) ↔
      ¬ NameClash tables := by
  have hwf := wellFormed_of_validate h
  rw [execute?, script?_definitionText hwf, Option.bind_some, ← nodup_declaredNames_iff hwf]
  constructor
  · -- a run never uses a name twice, so with everything created all names are different
    rintro ⟨cat, hrun, hcat⟩
    have hnames := names_perm_of_declares hwf hcat (Catalog.mem_of_run? hrun)
    exact hnames.nodup_iff.mp (Catalog.nodup_names_of_run? hrun List.nodup_nil)
  · intro hnodup
    refine ⟨_, run?_statements hwf.each hnodup, List.Perm.refl _, fun target => ?_⟩
    have htargets : (tables.flatMap indexDefinitions).map (·.target) = targets tables := by
      rw [List.map_flatMap, targets]
      simp only [indexDefinitions, List.map_map]
      rfl
    refine (congrArg (List.count target) htargets).trans ?_
    exact (nodup_targets hwf).count

/-- The statements for the fact tables create them, with all their indexes. -/
theorem creates_declared_factTables : validate factTables = none ∧ ∀ d, ∃ cat,
    execute? (definitionText factTables d) = some cat ∧ cat.Declares factTables d := by
  have hvalidate : validate factTables = none := by decide +kernel
  have hnames : (declaredNames factTables).Nodup := by decide +kernel
  have hclash := (nodup_declaredNames_iff (wellFormed_of_validate hvalidate)).mp hnames
  exact ⟨hvalidate, fun d => (creates_declared_iff factTables hvalidate d).mpr hclash⟩

/-- Two tables whose indexed columns give one index name. -/
def overlappingTables : List Table :=
  [{ name := "a", columns := [{ name := "b_c", type := .text, indexed := true }] },
    { name := "a_b", columns := [{ name := "c", type := .text, indexed := true }] }]

/-- A table that is named like the index of another one. -/
def indexNamedTables : List Table :=
  [{ name := "a", columns := [{ name := "b", type := .text, indexed := true }] },
    { name := "idx_a_b", columns := [{ name := "c", type := .text }] }]

/-- Tables pass validation, and one is left without its index; others do, and one of them is not
created. -/
theorem declared_not_created :
    (validate overlappingTables = none ∧ ("a_b", "c") ∈ targets overlappingTables ∧
      ∀ d, (execute? (definitionText overlappingTables d)).map (·.indexes) =
        some [{ name := "idx_a_b_c", table := "a", column := "b_c" }]) ∧
    validate indexNamedTables = none ∧
      ∀ d, (execute? (definitionText indexNamedTables d)).map (·.tables.map (·.name)) =
        some ["a"] := by
  have hoverlapping : validate overlappingTables = none := by decide +kernel
  have hindexNamed : validate indexNamedTables = none := by decide +kernel
  refine ⟨⟨hoverlapping, by decide, fun d => ?_⟩, hindexNamed, fun d => ?_⟩
  · rw [execute?, script?_definitionText (wellFormed_of_validate hoverlapping), Option.bind_some]
    cases d <;> decide +kernel
  · rw [execute?, script?_definitionText (wellFormed_of_validate hindexNamed), Option.bind_some]
    cases d <;> decide +kernel

end

end TaintFlow.Schema.Sql
