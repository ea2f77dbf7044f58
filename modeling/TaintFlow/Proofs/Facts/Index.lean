import Mathlib.Data.List.Basic
import TaintFlow.Facts.Records

/-!
# The indexes of the fact cache

An index lists for every key the positions of the rows with that key.  Appending a row keeps it so,
and therefore a selection by an indexed column gives exactly the rows with that value, in load
order.

## Main definitions

* `TableFacts.Indexed` — the indexes of a table list its rows.
* `Cache.Indexed` — a cache of fact tables with such indexes.

## Main results

* `TableFacts.Indexed.push` — appending a row keeps a table indexed.
* `TableFacts.Indexed.select?_eq` — a selection gives the rows with a key, in load order.
* `Cache.Indexed.select_eq` — the same of a table of a cache.
* `indexed_load` — every cache that is loaded is indexed.
-/

namespace TaintFlow.Facts

/-- The rows that have a key in a column. -/
def withKey (t : Schema.Table) (column : String) (key : Key) (rows : List Row) : List Row :=
  rows.filter fun r => (r.field t column).key? == some key

namespace TableFacts

/-- The indexes of a table are those of its indexed columns, and list for every key the positions
of the rows with that key. -/
structure Indexed (f : TableFacts) : Prop where
  columns : f.indexes.map (·.1) = f.table.indexedColumns.map (·.name)
  bounded : ∀ column index, (column, index) ∈ f.indexes →
    ∀ key, ∀ i ∈ index.getD key [], i < f.rows.size
  lists : ∀ column index, (column, index) ∈ f.indexes → ∀ key,
    (index.getD key []).reverse.filterMap (f.rows[·]?) =
      withKey f.table column key f.rows.toList

theorem indexed_empty (t : Schema.Table) : (empty t).Indexed where
  columns := by simp [empty]
  bounded column index hmem key i hi := by
    obtain ⟨c, -, heq⟩ := List.mem_map.mp hmem
    cases heq
    simp at hi
  lists column index hmem key := by
    obtain ⟨c, -, heq⟩ := List.mem_map.mp hmem
    cases heq
    simp [empty, withKey]

/-- The positions of a key after a row has been entered. -/
theorem getD_add (t : Schema.Table) (column : String) (r : Row) (i : Nat) (index : Index)
    (key : Key) :
    (index.add t column r i).getD key [] =
      if (r.field t column).key? = some key then i :: index.getD key [] else index.getD key [] := by
  unfold Index.add
  split
  · next h => simp [h]
  · next k h =>
    rw [Std.HashMap.getD_insert, h]
    by_cases hk : k = key
    · simp [hk]
    · simp [hk]

/-- **Appending a row keeps a table indexed.** -/
theorem Indexed.push {f : TableFacts} (hf : f.Indexed) (r : Row) : (f.push r).Indexed where
  columns := by
    simp only [TableFacts.push, List.map_map]
    exact hf.columns
  bounded column index hmem' key i hi := by
    obtain ⟨⟨column, index⟩, hmem, heq⟩ := List.mem_map.mp hmem'
    cases heq
    rw [getD_add] at hi
    have hold := hf.bounded column index hmem key i
    simp only [TableFacts.push, Array.size_push]
    split at hi
    · rcases List.mem_cons.mp hi with rfl | hi
      · exact Nat.lt_succ_self _
      · exact Nat.lt_succ_of_lt (hold hi)
    · exact Nat.lt_succ_of_lt (hold hi)
  lists column index hmem' key := by
    obtain ⟨⟨column, index⟩, hmem, heq⟩ := List.mem_map.mp hmem'
    cases heq
    -- the rows before the new one keep their positions
    have hold : (index.getD key []).reverse.filterMap ((f.rows.push r)[·]?) =
        withKey f.table column key f.rows.toList := by
      rw [← hf.lists column index hmem key]
      refine List.filterMap_congr fun i hi => ?_
      have hlt := hf.bounded column index hmem key i (List.mem_reverse.mp hi)
      rw [Array.getElem?_push, if_neg (Nat.ne_of_lt hlt)]
    rw [getD_add]
    simp only [TableFacts.push, Array.toList_push, withKey, List.filter_append] at hold ⊢
    split
    · next hkey => simp [hold, hkey]
    · next hkey => simp [hold, hkey]

theorem indexed_ofRows (t : Schema.Table) (rows : List Row) : (ofRows t rows).Indexed := by
  suffices h : ∀ f : TableFacts, f.Indexed → (rows.foldl TableFacts.push f).Indexed from
    h _ (indexed_empty t)
  induction rows with
  | nil => exact fun _ hf => hf
  | cons r rows ih => exact fun f hf => ih _ (hf.push r)

theorem table_ofRows (t : Schema.Table) (rows : List Row) : (ofRows t rows).table = t := by
  suffices h : ∀ f : TableFacts, (rows.foldl TableFacts.push f).table = f.table from h _
  induction rows with
  | nil => exact fun _ => rfl
  | cons r rows ih => exact fun f => ih _

/-- **A selection gives the rows with a key, in load order.** -/
theorem Indexed.select?_eq {f : TableFacts} (hf : f.Indexed) {column : String}
    (hc : column ∈ f.table.indexedColumns.map (·.name)) (key : Key) :
    f.select? column key = some (withKey f.table column key f.rows.toList) := by
  unfold select?
  split
  · next hnone =>
    rw [← hf.columns, List.mem_map] at hc
    obtain ⟨x, hx, rfl⟩ := hc
    exact absurd (beq_self_eq_true _) (List.find?_eq_none.mp hnone x hx)
  · next name index hsome =>
    have hname := List.find?_some hsome
    obtain rfl : name = column := beq_iff_eq.mp hname
    rw [hf.lists name index (List.mem_of_find?_eq_some hsome) key]

end TableFacts

namespace Cache

/-- A cache of fact tables that are indexed. -/
def Indexed (c : Cache) : Prop :=
  ∀ f ∈ c.tables, f.table ∈ Schema.factTables ∧ f.Indexed

/-- A selection gives rows of the table. -/
theorem mem_rows_of_mem_select {c : Cache} {t : Schema.Table} {column s : String} {r : Row}
    (h : r ∈ c.select t column s) : r ∈ c.rows t := by
  unfold select at h
  unfold rows
  cases hf : c.table? t.name with
  | none =>
    simp only [hf] at h
    cases h
  | some f =>
    simp only [hf, TableFacts.select?] at h ⊢
    cases hindex : f.indexes.find? (·.1 == column) with
    | none =>
      simp only [hindex] at h
      cases h
    | some found =>
      simp only [hindex] at h
      obtain ⟨i, -, hi⟩ := List.mem_filterMap.mp h
      exact Array.mem_toList_iff.mpr (Array.mem_of_getElem? hi)

theorem factTable_eq_of_name : ∀ t ∈ Schema.factTables, ∀ t' ∈ Schema.factTables,
    t.name = t'.name → t = t' := by
  decide

/-- **A selection from a fact table gives the rows with a text in an indexed column, in load
order.** -/
theorem Indexed.select_eq {c : Cache} (hc : c.Indexed) {t : Schema.Table}
    (ht : t ∈ Schema.factTables) {column : String}
    (hcolumn : column ∈ t.indexedColumns.map (·.name)) (s : String) :
    c.select t column s = withKey t column (.text s) (c.rows t) := by
  unfold select rows
  cases hf : c.table? t.name with
  | none => rfl
  | some f =>
    obtain ⟨htable, hindexed⟩ := hc f (List.mem_of_find?_eq_some hf)
    have hname := List.find?_some hf
    obtain rfl : f.table = t := factTable_eq_of_name _ htable _ ht (beq_iff_eq.mp hname)
    simp only [hindexed.select?_eq hcolumn, Option.getD_some]

end Cache

/-! ### Loading -/

section

variable {σ : Type} {src : Store.Source σ} {st : σ}

theorem bind_apply {α β : Type} (m : StateM σ α) (next : α → StateM σ β) :
    (m >>= next) st = next (m st).1 (m st).2 :=
  rfl

theorem exists_rows_of_readTable {t : Schema.Table} {f : TableFacts}
    (h : (readTable src t st).1 = .ok f) : ∃ rows, f = .ofRows t rows := by
  rw [readTable, bind_apply] at h
  split at h
  · cases h
  · rw [bind_apply] at h
    cases hread : (src.read t.name t.columnNames none (src.canceled st).2).1.failure with
    | some e =>
      rw [hread] at h
      cases h
    | none =>
      rw [hread] at h
      cases h
      exact ⟨_, rfl⟩

theorem exists_rows_of_readTables {ts : List Schema.Table} {facts : List TableFacts}
    (h : (readTables src ts st).1 = .ok facts) :
    ∀ f ∈ facts, ∃ t ∈ ts, ∃ rows, f = .ofRows t rows := by
  induction ts generalizing st facts with
  | nil =>
    cases h
    simp
  | cons t ts ih =>
    rw [readTables, bind_apply] at h
    cases hf : (readTable src t st).1 with
    | error e =>
      rw [hf] at h
      cases h
    | ok f =>
      simp only [hf, bind_apply] at h
      cases hmore : (readTables src ts (readTable src t st).2).1 with
      | error e =>
        rw [hmore] at h
        cases h
      | ok more =>
        rw [hmore] at h
        cases h
        intro g hg
        rcases List.mem_cons.mp hg with rfl | hg
        · obtain ⟨rows, rfl⟩ := exists_rows_of_readTable hf
          exact ⟨t, List.mem_cons_self, rows, rfl⟩
        · obtain ⟨t', ht', hrows⟩ := ih hmore g hg
          exact ⟨t', List.mem_cons_of_mem _ ht', hrows⟩

/-- **Every cache of the fact tables that is loaded is indexed.** -/
theorem indexed_load {c : Cache} (h : (load src Schema.factTables st).1 = .ok c) : c.Indexed := by
  rw [load, bind_apply] at h
  cases hcheck : (checkTables src Schema.factTables st).1 with
  | error e =>
    rw [hcheck] at h
    cases h
  | ok =>
    simp only [hcheck, bind_apply] at h
    cases hfacts : (readTables src Schema.factTables
        (checkTables src Schema.factTables st).2).1 with
    | error e =>
      rw [hfacts] at h
      cases h
    | ok facts =>
      rw [hfacts] at h
      cases h
      intro f hf
      obtain ⟨t, ht, rows, rfl⟩ := exists_rows_of_readTables hfacts f hf
      rw [TableFacts.table_ofRows]
      exact ⟨ht, TableFacts.indexed_ofRows t rows⟩

end

end TaintFlow.Facts
