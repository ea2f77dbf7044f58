import Mathlib.Data.List.Nodup
import TaintFlow.Schema.Validate

/-!
# What validation guarantees

Descriptors without a problem have identifiers for names, storage types that exist and keys among
their own columns.  The exported names of tables are pairwise different, and so are those of the
columns of a table; hence the names themselves are.

## Main definitions

* `Column.WellFormed`, `Table.WellFormed`, `WellFormed` — what holds of a column, a table and a
  list of tables.

## Main results

* `wellFormed_of_validate` — it holds where no problem is reported.
-/

namespace TaintFlow.Schema

/-- What validation guarantees of a column by itself. -/
structure Column.WellFormed (c : Column) : Prop where
  name : isIdentifier c.name = true
  type : c.type.valid = true
  /-- The column is not named like a method of rows. -/
  unreserved : exportedName c.name ∉ reservedFields

/-- What validation guarantees of a table. -/
structure Table.WellFormed (t : Table) : Prop where
  name : isIdentifier t.name = true
  nonempty : t.columns ≠ []
  columns : ∀ c ∈ t.columns, c.WellFormed
  distinct : (t.columns.map (exportedName ·.name)).Nodup
  key : ∀ k ∈ t.primaryKey, t.hasColumn k = true

/-- What validation guarantees of a list of tables. -/
structure WellFormed (tables : List Table) : Prop where
  each : ∀ t ∈ tables, t.WellFormed
  distinct : (tables.map (exportedName ·.name)).Nodup

/-- A name that was not found may be added to distinct ones. -/
theorem nodup_map_concat {α : Type} {key : α → String} {before : List α} {a : α}
    (h : (before.map key).Nodup) (ha : before.find? (key · == key a) = none) :
    ((before ++ [a]).map key).Nodup := by
  rw [List.map_append, List.map_singleton]
  refine List.nodup_append.mpr ⟨h, List.nodup_singleton _, fun k hk k' hk' heq => ?_⟩
  obtain ⟨b, hb, rfl⟩ := List.mem_map.mp hk
  rw [List.mem_singleton.mp hk'] at heq
  exact List.find?_eq_none.mp ha b hb (beq_iff_eq.mpr heq)

theorem of_columnProblem?_eq_none {before : List Column} {c : Column}
    (h : columnProblem? before c = none) :
    c.WellFormed ∧ before.find? (exportedName ·.name == exportedName c.name) = none := by
  rw [columnProblem?] at h
  split at h
  · cases h
  · next hname =>
    split at h
    · cases h
    · split at h
      · cases h
      · next hvalid =>
        split at h
        · cases h
        · split at h
          · cases h
          · next hreserved =>
            split at h
            · cases h
            · next hfind =>
              exact ⟨⟨by simpa using hname, by simpa using hvalid,
                mt List.contains_iff_mem.mpr hreserved⟩, hfind⟩

theorem of_columnsProblem?_eq_none {table : String} {cs : List Column} :
    ∀ {before : List Column}, columnsProblem? table before cs = none →
      (before.map (exportedName ·.name)).Nodup →
      (∀ c ∈ cs, c.WellFormed) ∧ ((before ++ cs).map (exportedName ·.name)).Nodup := by
  induction cs with
  | nil =>
    intro before _ hnodup
    rw [List.append_nil]
    exact ⟨fun _ hc => absurd hc List.not_mem_nil, hnodup⟩
  | cons c cs ih =>
    intro before h hnodup
    rw [columnsProblem?] at h
    split at h
    · cases h
    · next hproblem =>
      obtain ⟨hc, hfind⟩ := of_columnProblem?_eq_none hproblem
      obtain ⟨hall, hrest⟩ := ih h (nodup_map_concat hnodup hfind)
      refine ⟨List.forall_mem_cons.mpr ⟨hc, hall⟩, ?_⟩
      rwa [List.append_assoc] at hrest

theorem of_tableProblem?_eq_none {t : Table} (h : tableProblem? t = none) :
    t.columns ≠ [] ∧ columnsProblem? t.name [] t.columns = none ∧
      ∀ k ∈ t.primaryKey, t.hasColumn k = true := by
  rw [tableProblem?] at h
  split at h
  · cases h
  · next hempty =>
    cases hcolumns : columnsProblem? t.name [] t.columns with
    | some m =>
      rw [hcolumns] at h
      cases h
    | none =>
      cases hkey : t.primaryKey.find? (! t.hasColumn ·) with
      | some k =>
        rw [hcolumns, hkey] at h
        cases h
      | none =>
        refine ⟨mt List.isEmpty_iff.mpr hempty, rfl, fun k hk => ?_⟩
        simpa using List.find?_eq_none.mp hkey k hk

theorem of_nameProblem?_eq_none {before : List Table} {t : Table}
    (h : nameProblem? before t = none) :
    isIdentifier t.name = true ∧
      before.find? (exportedName ·.name == exportedName t.name) = none := by
  rw [nameProblem?] at h
  split at h
  · cases h
  · next hname =>
    split at h
    · cases h
    · split at h
      · cases h
      · next hfind =>
        refine ⟨?_, hfind⟩
        simpa using hname

theorem of_tablesProblem?_eq_none {ts : List Table} :
    ∀ {before : List Table}, tablesProblem? before ts = none →
      (before.map (exportedName ·.name)).Nodup →
      (∀ t ∈ ts, t.WellFormed) ∧ ((before ++ ts).map (exportedName ·.name)).Nodup := by
  induction ts with
  | nil =>
    intro before _ hnodup
    rw [List.append_nil]
    exact ⟨fun _ ht => absurd ht List.not_mem_nil, hnodup⟩
  | cons t ts ih =>
    intro before h hnodup
    rw [tablesProblem?] at h
    split at h
    · cases h
    · next hproblem =>
      obtain ⟨hname, hfind⟩ := of_nameProblem?_eq_none hproblem
      cases htable : tableProblem? t with
      | some m =>
        rw [htable] at h
        cases h
      | none =>
        rw [htable] at h
        obtain ⟨hnonempty, hcolumns, hkey⟩ := of_tableProblem?_eq_none htable
        obtain ⟨hwf, hdistinct⟩ := of_columnsProblem?_eq_none hcolumns List.nodup_nil
        obtain ⟨hall, hrest⟩ := ih h (nodup_map_concat hnodup hfind)
        refine ⟨List.forall_mem_cons.mpr ⟨⟨hname, hnonempty, hwf, hdistinct, hkey⟩, hall⟩, ?_⟩
        rwa [List.append_assoc] at hrest

/-- **What validation guarantees.** -/
theorem wellFormed_of_validate {tables : List Table} (h : validate tables = none) :
    WellFormed tables := by
  rw [validate] at h
  split at h
  · cases h
  · obtain ⟨hall, hdistinct⟩ := of_tablesProblem?_eq_none h List.nodup_nil
    exact ⟨hall, hdistinct⟩

/-! ### Names stay apart -/

/-- The names of columns are pairwise different, as their exported names are. -/
theorem Table.WellFormed.nodup_columnNames {t : Table} (h : t.WellFormed) :
    (t.columns.map (·.name)).Nodup := by
  have hmap : t.columns.map (exportedName ·.name) =
      (t.columns.map (·.name)).map exportedName := by
    rw [List.map_map]
    rfl
  exact (hmap ▸ h.distinct).of_map

/-- The names of tables are pairwise different. -/
theorem WellFormed.nodup_names {tables : List Table} (h : WellFormed tables) :
    (tables.map (·.name)).Nodup := by
  have hmap : tables.map (exportedName ·.name) = (tables.map (·.name)).map exportedName := by
    rw [List.map_map]
    rfl
  exact (hmap ▸ h.distinct).of_map

/-- A key consists of names of columns. -/
theorem Table.WellFormed.mem_of_mem_key {t : Table} (h : t.WellFormed) {k : String}
    (hk : k ∈ t.primaryKey) : k ∈ t.columns.map (·.name) := by
  obtain ⟨c, hc⟩ : ∃ c, t.columns.find? (·.name == k) = some c :=
    Option.isSome_iff_exists.mp (h.key k hk)
  have hname : c.name = k := by simpa using List.find?_some hc
  rw [← hname]
  exact List.mem_map_of_mem (List.mem_of_find?_eq_some hc)

theorem Table.WellFormed.isIdentifier_of_mem_key {t : Table} (h : t.WellFormed) {k : String}
    (hk : k ∈ t.primaryKey) : isIdentifier k = true := by
  obtain ⟨c, hc, rfl⟩ := List.mem_map.mp (h.mem_of_mem_key hk)
  exact (h.columns c hc).name

/-- Exported names stay apart with an ending. -/
theorem WellFormed.nodup_map_append {tables : List Table} (h : WellFormed tables)
    (ending : String) : (tables.map (exportedName ·.name ++ ending)).Nodup := by
  have hmap : tables.map (exportedName ·.name ++ ending) =
      (tables.map (exportedName ·.name)).map (· ++ ending) := by
    rw [List.map_map]
    rfl
  rw [hmap]
  exact h.distinct.map fun _ _ heq => (String.append_left_inj _).mp heq

end TaintFlow.Schema
