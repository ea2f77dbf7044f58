import Mathlib.Data.List.Induction
import Mathlib.Data.List.InsertIdx
import Mathlib.Data.List.Nodup
import TaintFlow.Store.Memory

/-!
# The store in memory as lists of records

A row is stored by position, while rows are inserted and read by the names of columns, and dropping
a column moves all values behind it.  What a reader sees is nevertheless told by names alone: the
records that were accepted, in order, each read at the columns that are asked for.  The invariant
that carries this says that every stored row holds the values of its record at the columns of the
table as they stand.

## Main definitions

* `Change` — what may be done to a store; `Memory.run` does changes one after another.
* `survivors?` — the columns of a table that a history of changes leaves.
* `records` — the records that a history puts into a table.
* `Cell.Shows`, `Record.ShownAs` — what a reader sees of a value, and of a record.
* `Answers` — what reading a table is to give.
* `Memory.Tracks` — a store holds the records of a history.

## Main results

* `Memory.Tracks.apply` — every change keeps what is stored and the history together.
* `Memory.run_reads_records` — **a reader is handed the accepted records**, after any changes.
-/

namespace TaintFlow.Store

open Memory (valueOf)

/-- A row by the names of its columns, as it is inserted. -/
abbrev Record := List (String × Value)

/-- What may be done to a store. -/
inductive Change where
  | insert (table : String) (values : Record)
  | dropTable (table : String)
  | dropColumn (table column : String)
  deriving DecidableEq, Repr

namespace Memory

/-- The store after a change.  A row that is refused changes nothing. -/
def apply (m : Memory) : Change → Memory
  | .insert table values =>
    match m.insert table values with
    | .ok m' => m'
    | .error _ => m
  | .dropTable table => m.dropTable table
  | .dropColumn table column => m.dropColumn table column

/-- The store after changes, the first one first. -/
def run (m : Memory) (history : List Change) : Memory :=
  history.foldl apply m

@[simp]
theorem run_nil (m : Memory) : m.run [] = m := rfl

@[simp]
theorem run_append (m : Memory) (before after : List Change) :
    m.run (before ++ after) = (m.run before).run after :=
  List.foldl_append

@[simp]
theorem run_singleton (m : Memory) (c : Change) : m.run [c] = m.apply c := rfl

end Memory

/-! ### Histories -/

section

variable (tables : List Schema.Table)

/-- The declared columns of a table that a history of changes leaves, none when the table is not
declared or has been dropped. -/
def survivors? (history : List Change) (table : String) : Option (List String) :=
  if .dropTable table ∈ history then none
  else (Schema.lookup? tables table).map fun t =>
    t.columnNames.filter fun c => .dropColumn table c ∉ history

/-- Whether a record fits a table after a history: the table is there and has every column that the
record names. -/
def fits (history : List Change) (table : String) (values : Record) : Bool :=
  match survivors? tables history table with
  | none => false
  | some columns => values.all fun v => columns.contains v.1

/-- The records that changes put into a table, in the order of insertion; `past` are the changes
before them. -/
def recordsFrom (table : String) (past : List Change) : List Change → List Record
  | [] => []
  | c :: changes =>
    let more := recordsFrom table (past ++ [c]) changes
    match c with
    | .insert name values =>
      if name = table ∧ fits tables past table values then values :: more else more
    | _ => more

/-- The records that a history puts into a table. -/
def records (table : String) (history : List Change) : List Record :=
  recordsFrom tables table [] history

end

/-- The value of a record at a column, NULL when it has none. -/
def Record.valueAt (r : Record) (column : String) : Value :=
  (r.lookup column).getD .null

/-- What a reader sees of a value: asked for in its own kind, the value itself.  NULL is told from
all values, and is nothing in every kind. -/
inductive Cell.Shows (c : Cell) : Value → Prop where
  | null (hc : c = ⟨true, 0, .zero, "", false, none⟩) : c.Shows .null
  | int {n : Int} (hnull : c.isNull = false) (hint : c.int = n) (htext : c.text = toString n)
      (hbool : c.bool = true ↔ n ≠ 0) : c.Shows (.int n)
  | float {x : Binary} (hnull : c.isNull = false) (hfloat : c.float = x) : c.Shows (.float x)
  | single {x : Binary} (hnull : c.isNull = false) (hfloat : c.float = x.widen) :
      c.Shows (.single x)
  | number {t : String} (hnull : c.isNull = false) (htext : c.text = t) : c.Shows (.number t)
  | bool {b : Bool} (hnull : c.isNull = false) (hbool : c.bool = b)
      (hint : c.int = if b then 1 else 0) : c.Shows (.bool b)
  | text {s : String} (hnull : c.isNull = false) (htext : c.text = s)
      (hbytes : c.bytes = some (Text.bytes s)) : c.Shows (.text s)
  | bytes {bs : List UInt8} (hnull : c.isNull = false) (hbytes : c.bytes = some bs) :
      c.Shows (.bytes bs)
  | composite (hnull : c.isNull = false) : c.Shows .composite

/-- A row has one cell for each of the columns, and it shows the value of the record there. -/
def Record.ShownAs (columns : List String) (r : Record) (row : List Cell) : Prop :=
  List.Forall₂ (fun column cell => cell.Shows (r.valueAt column)) columns row

/-- What reading a table is to give: the records at the columns that are asked for, or a failure
before the first of them. -/
inductive Answers (survivors : Option (List String)) (recs : List Record) (table : String)
    (columns : List String) : Rows → Prop where
  | noTable (hgone : survivors = none) :
      Answers survivors recs table columns ⟨[], some (.because ("no such table: " ++ table))⟩
  /-- The first column that is not there is reported. -/
  | noColumn {present before after : List String} {c : String} (hthere : survivors = some present)
      (hcolumns : columns = before ++ c :: after) (hbefore : ∀ b ∈ before, b ∈ present)
      (hgone : c ∉ present) :
      Answers survivors recs table columns
        ⟨[], some (.because ("no such column: " ++ table ++ "." ++ c))⟩
  /-- One row for each record, at the columns that are asked for. -/
  | rows {present : List String} {rows : List (List Cell)} (hthere : survivors = some present)
      (hcolumns : ∀ c ∈ columns, c ∈ present)
      (hrows : List.Forall₂ (Record.ShownAs columns) recs rows) :
      Answers survivors recs table columns ⟨rows, none⟩

/-! ### What a reader sees -/

theorem Value.shows_cell (v : Value) : v.cell.Shows v := by
  cases v with
  | null => exact .null rfl
  | int n => exact .int rfl rfl rfl (by simp [Value.cell, Value.toBool, Value.toInt])
  | float x => exact .float rfl rfl
  | single x => exact .single rfl rfl
  | number t => exact .number rfl rfl
  | bool b => exact .bool rfl rfl rfl
  | text s => exact .text rfl rfl rfl
  | bytes bs => exact .bytes rfl rfl
  | composite => exact .composite rfl

theorem valueOf_eq_valueAt (r : Record) (column : String) :
    valueOf r column = r.valueAt column := by
  rw [valueOf, Record.valueAt]
  congr 1
  induction r with
  | nil => rfl
  | cons v r ih =>
    rw [List.find?_cons, List.lookup_cons, BEq.comm]
    cases column == v.1 with
    | true => rfl
    | false => exact ih

/-- The cells of a record show its values. -/
theorem shownAs_cells (r : Record) (columns : List String) :
    Record.ShownAs columns r (columns.map fun c => (valueOf r c).cell) := by
  refine List.forall₂_map_right_iff.mpr (List.forall₂_same.mpr fun c _ => ?_)
  rw [valueOf_eq_valueAt]
  exact Value.shows_cell _

/-! ### Histories and their last change -/

section

variable {tables : List Schema.Table} {past : List Change} {table name column : String}
  {values : Record}

theorem survivors?_insert :
    survivors? tables (past ++ [.insert name values]) table = survivors? tables past table := by
  simp [survivors?]

theorem survivors?_dropTable :
    survivors? tables (past ++ [.dropTable name]) table =
      if table = name then none else survivors? tables past table := by
  by_cases h : table = name <;> simp [survivors?, h]

theorem survivors?_dropColumn :
    survivors? tables (past ++ [.dropColumn name column]) table =
      if table = name then (survivors? tables past table).map (·.filter (· ≠ column))
      else survivors? tables past table := by
  by_cases h : table = name
  · subst h
    by_cases hdrop : .dropTable table ∈ past
    · simp [survivors?, hdrop]
    · simp only [survivors?, hdrop, List.mem_append, List.mem_singleton, reduceCtorEq, or_self,
        if_false, if_true, Option.map_map]
      congr 1
      funext t
      simp [List.filter_filter, and_comm]
  · simp [survivors?, h]

/-- The columns that are left of a table are distinct if those declared are. -/
theorem nodup_of_survivors? (hcolumns : ∀ t ∈ tables, t.columnNames.Nodup) {present : List String}
    (h : survivors? tables past table = some present) : present.Nodup := by
  unfold survivors? at h
  split at h
  · cases h
  · obtain ⟨t, ht, rfl⟩ := Option.map_eq_some_iff.mp h
    exact (hcolumns t (List.mem_of_find?_eq_some ht)).filter _

theorem recordsFrom_append (before after : List Change) :
    recordsFrom tables table past (before ++ after) =
      recordsFrom tables table past before ++
        recordsFrom tables table (past ++ before) after := by
  induction before generalizing past with
  | nil => simp [recordsFrom]
  | cons c before ih =>
    have hmore : recordsFrom tables table (past ++ [c]) (before ++ after) =
        recordsFrom tables table (past ++ [c]) before ++
          recordsFrom tables table (past ++ c :: before) after := by
      rw [ih, List.append_assoc, List.singleton_append]
    cases c with
    | insert name values =>
      simp only [List.cons_append, recordsFrom, hmore]
      split <;> rfl
    | dropTable name => simp only [List.cons_append, recordsFrom, hmore]
    | dropColumn name column => simp only [List.cons_append, recordsFrom, hmore]

/-- An accepted record is the last one of its table. -/
theorem records_insert :
    records tables table (past ++ [.insert name values]) =
      if name = table ∧ fits tables past table values then records tables table past ++ [values]
      else records tables table past := by
  rw [records, recordsFrom_append, List.nil_append]
  simp only [recordsFrom]
  split <;> simp [records]

theorem records_dropTable :
    records tables table (past ++ [.dropTable name]) = records tables table past := by
  rw [records, recordsFrom_append]
  simp [recordsFrom, records]

theorem records_dropColumn :
    records tables table (past ++ [.dropColumn name column]) = records tables table past := by
  rw [records, recordsFrom_append]
  simp [recordsFrom, records]

end

namespace Memory

/-! ### Looking tables up -/

section

variable {m : Memory} {name table : String} {t : MemoryTable}

/-- Setting a table changes what is looked up under its name and nothing else. -/
theorem table?_setTable :
    (m.setTable table t).table? name = if name = table then some t else m.table? name := by
  unfold setTable
  split
  · next hany =>
    -- the entries keep their names, so the same one is found
    have hsame : ((fun e : String × MemoryTable => e.1 == name) ∘
        fun e => if e.1 == table then (table, t) else e) = fun e => e.1 == name := by
      funext e
      by_cases he : e.1 = table <;> simp [he]
    rw [table?, List.find?_map, hsame, table?]
    cases hfound : m.tables.find? (·.1 == name) with
    | none =>
      have hne : name ≠ table := by
        rintro rfl
        obtain ⟨e, hmem, he⟩ := List.any_eq_true.mp hany
        exact List.find?_eq_none.mp hfound e hmem he
      simp [hne]
    | some e =>
      have he : e.1 = name := by simpa using List.find?_some hfound
      by_cases h : name = table <;> simp [he, h]
  · next hany =>
    rw [table?, List.find?_append, table?]
    by_cases h : name = table
    · subst h
      have hnone : m.tables.find? (·.1 == name) = none := by
        rw [List.find?_eq_none]
        intro e he heq
        exact hany (List.any_eq_true.mpr ⟨e, he, heq⟩)
      simp [hnone]
    · simp [h, Ne.symm h]

/-- Dropping a table hides its name and nothing else. -/
theorem table?_dropTable :
    (m.dropTable table).table? name = if name = table then none else m.table? name := by
  rw [dropTable, table?, List.find?_filter, table?]
  by_cases h : name = table
  · simp [h]
  · rw [if_neg h]
    congr 2
    funext e
    by_cases he : e.1 = name <;> simp [he, h]

/-- A new store has the declared tables, empty. -/
theorem table?_ofTables {tables : List Schema.Table} (hnames : (tables.map (·.name)).Nodup) :
    (ofTables tables).table? name =
      (Schema.lookup? tables name).map fun t => ⟨t.columnNames, #[]⟩ := by
  suffices h : ∀ m : Memory, (tables.foldl (fun m t => m.setTable t.name ⟨t.columnNames, #[]⟩)
      m).table? name = ((Schema.lookup? tables name).map fun t => ⟨t.columnNames, #[]⟩).or
        (m.table? name) by
    rw [ofTables, h]
    simp [table?]
  induction tables with
  | nil => intro m; rfl
  | cons t tables ih =>
    intro m
    rw [List.map_cons, List.nodup_cons] at hnames
    rw [List.foldl_cons, ih hnames.2, table?_setTable]
    by_cases h : t.name = name
    · have hlater : Schema.lookup? tables name = none := by
        rw [Schema.lookup?, List.find?_eq_none]
        intro t' ht' heq
        exact hnames.1 (List.mem_map.mpr ⟨t', ht', by rw [h]; exact beq_iff_eq.mp heq⟩)
      rw [hlater]
      simp [Schema.lookup?, h]
    · simp [Schema.lookup?, h, Ne.symm h]

end

/-! ### What is stored -/

/-- A store holds the records of a history: its tables have the columns that are left of those
declared, and each row holds the values of its record at these columns. -/
structure Tracks (tables : List Schema.Table) (history : List Change) (m : Memory) : Prop where
  columns : ∀ name, (m.table? name).map (·.columns) = survivors? tables history name
  rows : ∀ name t, m.table? name = some t →
    t.rows.toList = (records tables name history).map fun r => t.columns.map (valueOf r)

section

variable {tables : List Schema.Table} {history : List Change} {m : Memory} {table column : String}
  {values : Record}

theorem tracks_ofTables (hnames : (tables.map (·.name)).Nodup) :
    Tracks tables [] (ofTables tables) where
  columns name := by
    rw [table?_ofTables hnames]
    simp [survivors?, Function.comp_def]
  rows name t ht := by
    rw [table?_ofTables hnames, Option.map_eq_some_iff] at ht
    obtain ⟨declared, -, rfl⟩ := ht
    rfl

theorem Tracks.fits_eq (h : Tracks tables history m) {t : MemoryTable}
    (ht : m.table? table = some t) :
    fits tables history table values = values.all fun v => t.columns.contains v.1 := by
  rw [fits, ← h.columns, ht]
  rfl

/-- A record that fits is stored by position. -/
theorem Tracks.insert_of_fits (h : Tracks tables history m)
    (hfits : fits tables history table values = true) :
    ∃ t, m.table? table = some t ∧ m.insert table values =
      .ok (m.setTable table { t with rows := t.rows.push (t.columns.map (valueOf values)) }) := by
  cases ht : m.table? table with
  | none =>
    rw [fits, ← h.columns, ht] at hfits
    cases hfits
  | some t =>
    rw [h.fits_eq ht, List.all_eq_true] at hfits
    refine ⟨t, rfl, ?_⟩
    have hnone : values.find? (fun v => !t.columns.contains v.1) = none := by
      rw [List.find?_eq_none]
      intro v hv hnot
      rw [hfits v hv] at hnot
      cases hnot
    rw [insert, ht]
    simp only [hnone]

/-- A record that does not fit is refused. -/
theorem Tracks.insert_of_not_fits (h : Tracks tables history m)
    (hfits : fits tables history table values = false) :
    ∃ e, m.insert table values = .error e := by
  cases ht : m.table? table with
  | none => exact ⟨.insertUnknownTable table, by rw [insert, ht]⟩
  | some t =>
    rw [h.fits_eq ht, List.all_eq_false] at hfits
    obtain ⟨v, hv, hnot⟩ := hfits
    cases hfind : values.find? fun v => !t.columns.contains v.1 with
    | none => exact absurd (by simpa using hnot) (List.find?_eq_none.mp hfind v hv)
    | some found =>
      refine ⟨.insertUnknownColumn table found.1, ?_⟩
      rw [insert, ht]
      simp only [hfind]

/-! ### Every change keeps store and history together -/

theorem Tracks.insert (h : Tracks tables history m) :
    Tracks tables (history ++ [.insert table values]) (m.apply (.insert table values)) := by
  cases hfits : fits tables history table values with
  | false =>
    -- nothing is stored and nothing is recorded
    obtain ⟨e, he⟩ := h.insert_of_not_fits hfits
    have hsame : m.apply (.insert table values) = m := by rw [apply, he]
    rw [hsame]
    constructor
    · intro name
      rw [survivors?_insert, h.columns]
    · intro name t ht
      rw [records_insert, if_neg, h.rows name t ht]
      rintro ⟨rfl, hf⟩
      rw [hfits] at hf
      cases hf
  | true =>
    obtain ⟨t, ht, hinsert⟩ := h.insert_of_fits hfits
    have hnext : m.apply (.insert table values) =
        m.setTable table { t with rows := t.rows.push (t.columns.map (valueOf values)) } := by
      rw [apply, hinsert]
    rw [hnext]
    constructor
    · intro name
      rw [survivors?_insert, ← h.columns, table?_setTable]
      by_cases hname : name = table
      · simp [hname, ht]
      · simp [hname]
    · intro name t' ht'
      rw [table?_setTable] at ht'
      rw [records_insert]
      by_cases hname : name = table
      · subst hname
        rw [if_pos rfl] at ht'
        obtain rfl := Option.some.inj ht'
        rw [if_pos ⟨rfl, hfits⟩, Array.toList_push, h.rows name t ht, List.map_append]
        rfl
      · rw [if_neg hname] at ht'
        rw [if_neg fun hh => hname hh.1.symm]
        exact h.rows name t' ht'

theorem Tracks.dropTable (h : Tracks tables history m) :
    Tracks tables (history ++ [.dropTable table]) (m.dropTable table) := by
  constructor
  · intro name
    rw [survivors?_dropTable, ← h.columns, table?_dropTable]
    split <;> rfl
  · intro name t ht
    rw [table?_dropTable] at ht
    split at ht
    · cases ht
    · rw [records_dropTable]
      exact h.rows name t ht

/-- What dropping a column does: the column goes, and in every row the value at its position. -/
theorem dropColumn_cases (m : Memory) (table column : String) :
    (m.dropColumn table column = m ∧ ∀ t, m.table? table = some t → column ∉ t.columns) ∨
    ∃ t i, m.table? table = some t ∧ t.columns.findIdx? (· == column) = some i ∧
      m.dropColumn table column =
        m.setTable table ⟨t.columns.eraseIdx i, t.rows.map (·.eraseIdx i)⟩ := by
  unfold Memory.dropColumn
  cases ht : m.table? table with
  | none => exact Or.inl ⟨rfl, nofun⟩
  | some t =>
    cases hi : t.columns.findIdx? (· == column) with
    | none =>
      refine Or.inl ⟨by simp only [hi], ?_⟩
      rintro _ ⟨⟩ hmem
      simpa using List.findIdx?_eq_none_iff.mp hi column hmem
    | some i => exact Or.inr ⟨t, i, rfl, hi, by simp only [hi]⟩

theorem filter_ne_of_notMem {names : List String} (h : column ∉ names) :
    names.filter (· ≠ column) = names := by
  rw [List.filter_eq_self]
  intro c hc
  have hne : c ≠ column := by
    rintro rfl
    exact h hc
  simpa using hne

/-- Among distinct names, the first position of one is its only one. -/
theorem eraseIdx_findIdx? {present : List String} (hnodup : present.Nodup) {i : Nat}
    (hi : present.findIdx? (· == column) = some i) :
    present.eraseIdx i = present.filter (· ≠ column) := by
  induction present generalizing i with
  | nil => cases hi
  | cons c present ih =>
    rw [List.nodup_cons] at hnodup
    rw [List.findIdx?_cons] at hi
    by_cases hc : c = column
    · subst hc
      rw [if_pos (beq_self_eq_true c)] at hi
      obtain rfl := Option.some.inj hi
      rw [List.eraseIdx_cons_zero, List.filter_cons_of_neg (by simp), filter_ne_of_notMem hnodup.1]
    · rw [if_neg (by simpa using hc), Option.map_eq_some_iff] at hi
      obtain ⟨j, hj, rfl⟩ := hi
      rw [List.eraseIdx_cons_succ, List.filter_cons_of_pos (by simpa using hc), ih hnodup.2 hj]

theorem Tracks.dropColumn (h : Tracks tables history m)
    (hcolumns : ∀ t ∈ tables, t.columnNames.Nodup) :
    Tracks tables (history ++ [.dropColumn table column]) (m.dropColumn table column) := by
  rcases dropColumn_cases m table column with ⟨hsame, hnot⟩ | ⟨t, i, ht, hi, hnext⟩
  · rw [hsame]
    constructor
    · intro name
      rw [survivors?_dropColumn, ← h.columns]
      by_cases hname : name = table
      · subst hname
        cases ht : m.table? name with
        | none =>
          rw [if_pos rfl]
          rfl
        | some t =>
          rw [if_pos rfl, Option.map_some, Option.map_some, filter_ne_of_notMem (hnot t ht)]
      · rw [if_neg hname]
    · intro name t ht
      rw [records_dropColumn]
      exact h.rows name t ht
  · rw [hnext]
    have hsurvivors : survivors? tables history table = some t.columns := by
      rw [← h.columns, ht, Option.map_some]
    have herase := eraseIdx_findIdx? (nodup_of_survivors? hcolumns hsurvivors) hi
    constructor
    · intro name
      rw [survivors?_dropColumn, table?_setTable]
      by_cases hname : name = table
      · subst hname
        simp only [if_true, hsurvivors, Option.map_some, herase]
      · simp only [if_neg hname, h.columns]
    · intro name t' ht'
      rw [table?_setTable] at ht'
      rw [records_dropColumn]
      by_cases hname : name = table
      · subst hname
        rw [if_pos rfl] at ht'
        obtain rfl := Option.some.inj ht'
        -- each row loses the value at the position of the column
        have hrow : ∀ r, (t.columns.map (valueOf r)).eraseIdx i =
            (t.columns.eraseIdx i).map (valueOf r) := fun r => List.eraseIdx_map _ _ _
        rw [Array.toList_map, h.rows name t ht, List.map_map]
        exact List.map_congr_left fun r _ => hrow r
      · rw [if_neg hname] at ht'
        exact h.rows name t' ht'

/-- **A change keeps the store and its history together.** -/
theorem Tracks.apply (h : Tracks tables history m)
    (hcolumns : ∀ t ∈ tables, t.columnNames.Nodup) (c : Change) :
    Tracks tables (history ++ [c]) (m.apply c) := by
  cases c with
  | insert table values => exact h.insert
  | dropTable table => exact h.dropTable
  | dropColumn table column => exact h.dropColumn hcolumns

/-- **So does any history of changes**, from the empty store on. -/
theorem tracks_run (hnames : (tables.map (·.name)).Nodup)
    (hcolumns : ∀ t ∈ tables, t.columnNames.Nodup) (history : List Change) :
    Tracks tables history ((ofTables tables).run history) := by
  induction history using List.reverseRecOn with
  | nil => exact tracks_ofTables hnames
  | append_singleton history c ih =>
    rw [run_append]
    exact ih.apply hcolumns c

/-! ### One value per column -/

/-- Every stored row has exactly one value per column of its table. -/
def Even (m : Memory) : Prop :=
  ∀ name t, (name, t) ∈ m.tables → ∀ row ∈ t.rows.toList, row.length = t.columns.length

theorem mem_of_table? {t : MemoryTable} (ht : m.table? table = some t) :
    ∃ name, (name, t) ∈ m.tables := by
  obtain ⟨⟨name, t'⟩, hfound, rfl⟩ := Option.map_eq_some_iff.mp ht
  exact ⟨name, List.mem_of_find?_eq_some hfound⟩

theorem Even.setTable (h : Even m) {t : MemoryTable}
    (ht : ∀ row ∈ t.rows.toList, row.length = t.columns.length) : Even (m.setTable table t) := by
  intro name t' hmem
  unfold Memory.setTable at hmem
  split at hmem
  · obtain ⟨e, he, heq⟩ := List.mem_map.mp hmem
    by_cases hname : e.1 == table
    · rw [if_pos hname] at heq
      cases heq
      exact ht
    · rw [if_neg hname] at heq
      subst heq
      exact h name t' he
  · rcases List.mem_append.mp hmem with hmem | hmem
    · exact h name t' hmem
    · cases List.mem_singleton.mp hmem
      exact ht

theorem even_ofTables : Even (ofTables tables) := by
  suffices h : ∀ m : Memory, Even m →
      Even (tables.foldl (fun m t => m.setTable t.name ⟨t.columnNames, #[]⟩) m) from
    h ⟨[]⟩ nofun
  induction tables with
  | nil => exact fun _ h => h
  | cons t tables ih => exact fun m h => ih _ (h.setTable (by simp))

/-- **A change keeps every row as long as its table is wide.** -/
theorem Even.apply (h : Even m) (c : Change) : Even (m.apply c) := by
  cases c with
  | insert table values =>
    rw [Memory.apply]
    split
    · next m' hok =>
      unfold Memory.insert at hok
      split at hok
      · cases hok
      · next t ht =>
        split at hok
        · cases hok
        · cases hok
          obtain ⟨name, hmem⟩ := mem_of_table? ht
          apply h.setTable
          intro row hrow
          rw [Array.toList_push, List.mem_append, List.mem_singleton] at hrow
          rcases hrow with hrow | rfl
          · exact h name t hmem row hrow
          · rw [List.length_map]
    · exact h
  | dropTable table =>
    intro name t hmem
    exact h name t (List.mem_of_mem_filter hmem)
  | dropColumn table column =>
    rw [Memory.apply]
    rcases dropColumn_cases m table column with ⟨hsame, -⟩ | ⟨t, i, ht, hi, hnext⟩
    · rw [hsame]
      exact h
    · rw [hnext]
      obtain ⟨name, hmem⟩ := mem_of_table? ht
      apply h.setTable
      intro row hrow
      rw [Array.toList_map] at hrow
      obtain ⟨old, hold, rfl⟩ := List.mem_map.mp hrow
      have hwide := h name t hmem old hold
      have hlt : i < t.columns.length := (List.findIdx?_eq_some_iff_findIdx_eq.mp hi).1
      rw [List.length_eraseIdx_of_lt hlt, List.length_eraseIdx_of_lt (hwide ▸ hlt), hwide]

theorem even_run (history : List Change) : Even ((ofTables tables).run history) := by
  induction history using List.reverseRecOn with
  | nil => exact even_ofTables
  | append_singleton history c ih =>
    rw [run_append]
    exact ih.apply c

/-! ### Reading -/

/-- Without cancellation a reader that takes every row is handed all of them. -/
theorem deliver_unlimited (cells : List Value → List Cell) (n : Nat) (rows : List (List Value)) :
    deliver cells n none rows Budget.unlimited = (⟨rows.map cells, none⟩, Budget.unlimited) := by
  induction rows generalizing n with
  | nil => rfl
  | cons row rows ih =>
    -- whether or not a check is due, the work goes on
    have hstep : deliver cells n none (row :: rows) Budget.unlimited =
        let rest := deliver cells (n + 1) none rows Budget.unlimited
        ({ rest.1 with rows := cells row :: rest.1.rows }, rest.2) := by
      rw [deliver.eq_def]
      cases n % checkInterval == 0 with
      | true => rfl
      | false => rfl
    rw [hstep, ih (n + 1)]
    rfl

/-- The positions of columns that exist, and the values found there. -/
theorem positions_of_subset (table : String) {t : MemoryTable} {columns : List String}
    (h : ∀ c ∈ columns, c ∈ t.columns) :
    ∃ ps, positions table t columns = .ok ps ∧
      ∀ f : String → Value, pick ps (t.columns.map f) = columns.map f := by
  induction columns with
  | nil => exact ⟨[], rfl, fun _ => rfl⟩
  | cons c columns ih =>
    obtain ⟨hc, hcolumns⟩ := List.forall_mem_cons.mp h
    obtain ⟨ps, hps, hpick⟩ := ih hcolumns
    cases hi : t.columns.findIdx? (· == c) with
    | none => exact absurd (List.findIdx?_eq_none_iff.mp hi c hc) (by simp)
    | some i =>
      obtain ⟨hlt, heq, -⟩ := List.findIdx?_eq_some_iff_getElem.mp hi
      refine ⟨i :: ps, ?_, ?_⟩
      · unfold positions at hps ⊢
        rw [List.mapM_cons, hi]
        simp [hps, bind, Except.bind, pure, Except.pure]
      · intro f
        have hvalue : (t.columns.map f).getD i .null = f c := by
          rw [List.getD_eq_getElem?_getD, List.getElem?_map, List.getElem?_eq_getElem hlt,
            Option.map_some, Option.getD_some, beq_iff_eq.mp heq]
        have hmore := hpick f
        unfold pick at hmore ⊢
        rw [List.map_cons, List.map_cons, hvalue, hmore]

/-- The first column that does not exist is reported. -/
theorem positions_of_append {t : MemoryTable} {before after : List String} {c : String}
    (hbefore : ∀ b ∈ before, b ∈ t.columns) (hc : c ∉ t.columns) :
    positions table t (before ++ c :: after) = .error (.noColumn table c) := by
  induction before with
  | nil =>
    have hi : t.columns.findIdx? (· == c) = none := by
      rw [List.findIdx?_eq_none_iff]
      intro x hx
      rw [beq_eq_false_iff_ne]
      rintro rfl
      exact hc hx
    rw [List.nil_append, positions, List.mapM_cons, hi]
    rfl
  | cons b before ih =>
    obtain ⟨hb, hrest⟩ := List.forall_mem_cons.mp hbefore
    have hmore := ih hrest
    rw [positions] at hmore
    rw [List.cons_append, positions, List.mapM_cons, hmore]
    cases hi : t.columns.findIdx? (· == b) with
    | none => exact absurd (List.findIdx?_eq_none_iff.mp hi b hb) (by simp)
    | some i => rfl

/-- **Reading gives the recorded rows by name.** -/
theorem Tracks.answers (h : Tracks tables history m) (columns : List String) :
    ∃ rows, m.read table columns none Budget.unlimited = (rows, Budget.unlimited) ∧
      Answers (survivors? tables history table) (records tables table history) table columns
        rows := by
  unfold read
  rw [← h.columns]
  cases ht : m.table? table with
  | none => exact ⟨_, rfl, .noTable rfl⟩
  | some t =>
    cases hfind : columns.find? (!t.columns.contains ·) with
    | some c =>
      obtain ⟨hc, before, after, rfl, hbefore⟩ := List.find?_eq_some_iff_append.mp hfind
      have hgone : c ∉ t.columns := by simpa using hc
      have hpresent : ∀ b ∈ before, b ∈ t.columns := by simpa using hbefore
      simp only [positions_of_append hpresent hgone]
      exact ⟨_, rfl, .noColumn rfl rfl hpresent hgone⟩
    | none =>
      have hall : ∀ c ∈ columns, c ∈ t.columns := by simpa using hfind
      obtain ⟨ps, hps, hpick⟩ := positions_of_subset table hall
      simp only [hps]
      rw [deliver_unlimited, h.rows table t ht]
      refine ⟨_, rfl, .rows rfl hall ?_⟩
      rw [List.map_map]
      refine List.forall₂_map_right_iff.mpr (List.forall₂_same.mpr fun r _ => ?_)
      rw [Function.comp_apply, hpick (valueOf r), List.map_map]
      exact shownAs_cells r columns

/-- The columns of a table are those that are left of the declared ones, in their order. -/
theorem Tracks.columns_eq (h : Tracks tables history m) :
    m.columns table = (survivors? tables history table).getD [] := by
  rw [Memory.columns, h.columns]

theorem Tracks.insert_iff_fits (h : Tracks tables history m) :
    (∃ m', m.insert table values = .ok m') ↔ fits tables history table values = true := by
  constructor
  · rintro ⟨m', hok⟩
    by_contra hfits
    obtain ⟨e, he⟩ := h.insert_of_not_fits (Bool.eq_false_iff.mpr hfits)
    rw [he] at hok
    cases hok
  · intro hfits
    obtain ⟨t, -, hok⟩ := h.insert_of_fits hfits
    exact ⟨_, hok⟩

end

/-- **A reader is handed the accepted records**, after any changes to a store of tables with
distinct names of tables and columns.  Reading a table gives the records that were accepted into it
since the store was built, in order, each at the columns that are asked for and NULL where it has
none; it fails before the first of them if the table or a column is gone.  The columns listed are
those that are left, in declared order.  A record is accepted exactly when its table and its columns
are there, and one that is not accepted changes nothing, now or later.  Every stored row has one
value per column. -/
theorem run_reads_records (tables : List Schema.Table) (hnames : (tables.map (·.name)).Nodup)
    (hcolumns : ∀ t ∈ tables, t.columnNames.Nodup) (history : List Change) :
    let m := (ofTables tables).run history
    (∀ table columns, ∃ rows,
      m.read table columns none Budget.unlimited = (rows, Budget.unlimited) ∧
      Answers (survivors? tables history table) (records tables table history) table columns
        rows) ∧
    (∀ table, m.columns table = (survivors? tables history table).getD []) ∧
    (∀ table values, (∃ m', m.insert table values = .ok m') ↔
      fits tables history table values = true) ∧
    (∀ table values, fits tables history table values = false →
      ∀ later, m.run (.insert table values :: later) = m.run later) ∧
    m.Even := by
  intro m
  have h : Tracks tables history m := tracks_run hnames hcolumns history
  refine ⟨fun table columns => h.answers columns, fun table => h.columns_eq,
    fun table values => h.insert_iff_fits, ?_, even_run history⟩
  intro table values hfits later
  obtain ⟨e, he⟩ := h.insert_of_not_fits hfits
  have hsame : m.apply (.insert table values) = m := by rw [apply, he]
  rw [← List.singleton_append, run_append, run_singleton, hsame]

/-- Two tables, a record before and one after a column is dropped, and two that are refused: what a
reader sees of the two that are accepted. -/
theorem run_reads_records_dropped :
    let tables : List Schema.Table :=
      [⟨"calls", [⟨"line", .integer, false, false⟩, ⟨"kind", .text, true, false⟩,
          ⟨"callee", .text, true, false⟩], [], {}⟩,
        ⟨"names", [⟨"line", .integer, false, false⟩], [], {}⟩]
    let history : List Change :=
      [.insert "calls" [("callee", .text "run"), ("line", .int 1)],
        .insert "calls" [("file", .text "a.js")], .dropColumn "calls" "kind",
        .insert "calls" [("kind", .text "call")], .insert "names" [("line", .int 7)],
        .insert "calls" [("line", .int 2)], .dropTable "names"]
    let one : Cell := ⟨false, 1, .finite false 0x10000000000000 (-52), "1", true, none⟩
    let two : Cell := ⟨false, 2, .finite false 0x10000000000000 (-51), "2", true, none⟩
    let run : Cell := ⟨false, 0, .finite false 0 0, "run", false, some [114, 117, 110]⟩
    let null : Cell := ⟨true, 0, .finite false 0 0, "", false, none⟩
    ((tables.map (·.name)).Nodup ∧ ∀ t ∈ tables, t.columnNames.Nodup) ∧
    ((ofTables tables).run history).read "calls" ["callee", "line", "callee"] none
        Budget.unlimited =
      (⟨[[run, one, run], [null, two, null]], none⟩, Budget.unlimited) ∧
    Answers (some ["line", "callee"])
      [[("callee", .text "run"), ("line", .int 1)], [("line", .int 2)]] "calls"
      ["callee", "line", "callee"] ⟨[[run, one, run], [null, two, null]], none⟩ := by
  intro tables history one two run null
  have hnames : (tables.map (·.name)).Nodup := by decide
  have hcolumns : ∀ t ∈ tables, t.columnNames.Nodup := by decide
  have hcells : (Value.int 1).cell = one ∧ (Value.int 2).cell = two ∧
      (Value.text "run").cell = run ∧ Value.null.cell = null := by
    dsimp only [one, two, run, null]
    decide +kernel
  obtain ⟨hone, htwo, hrun, hnull⟩ := hcells
  have hread : ((ofTables tables).run history).read "calls" ["callee", "line", "callee"] none
      Budget.unlimited = (⟨[[run, one, run], [null, two, null]], none⟩, Budget.unlimited) := by
    have hstored : ((ofTables tables).run history).table? "calls" =
        some ⟨["line", "callee"], #[[.int 1, .text "run"], [.int 2, .null]]⟩ := by
      dsimp only [tables, history]
      decide +kernel
    have hpositions : positions "calls"
        ⟨["line", "callee"], #[[.int 1, .text "run"], [.int 2, .null]]⟩
        ["callee", "line", "callee"] = .ok [1, 0, 1] := rfl
    rw [read, hstored]
    simp only [hpositions]
    rw [deliver_unlimited, ← hone, ← htwo, ← hrun, ← hnull]
    rfl
  obtain ⟨rows, hrows, hanswers⟩ := (run_reads_records tables hnames hcolumns history).1 "calls"
    ["callee", "line", "callee"]
  obtain rfl := (Prod.mk.inj (hread.symm.trans hrows)).1
  exact ⟨⟨hnames, hcolumns⟩, hread, hanswers⟩

end Memory

end TaintFlow.Store
