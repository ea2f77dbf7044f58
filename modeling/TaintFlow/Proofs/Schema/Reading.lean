import Mathlib.Data.List.Basic
import TaintFlow.Proofs.Schema.Naming
import TaintFlow.Proofs.Schema.WellFormed
import TaintFlow.Schema.Definition

/-!
# Reading data definition statements

The text of the statements that create tables and indexes is for a database to read.  This reader
knows the two forms of statements that are written: it cuts the text into words and marks, those
into statements at the semicolons, and the body of a table into its columns and the primary key at
the commas outside parentheses.  Keywords are read in capitals; names of tables and columns have
none.

## Main definitions

* `Sql.Token`, `Sql.tokens` — words and marks.
* `Sql.parts` — what stands between marks outside parentheses.
* `Sql.Definition` — what a statement creates.
* `Sql.definition?`, `Sql.script?` — the reader of a statement and of a whole text.
* `Statement.definition` — what a statement is to create in a dialect.

## Main results

* `Sql.script?_definitionText` — **the text for validated tables is read as the statements that it
  was written from.**
-/

namespace TaintFlow.Schema

namespace Sql

/-! ### Words and marks -/

/-- A word or a mark. -/
inductive Token where
  | word (text : String)
  | mark (c : Char)
  deriving DecidableEq, Repr

/-- Whether a character is a mark. -/
def isMark (c : Char) : Bool :=
  c == '(' || c == ')' || c == ',' || c == ';'

/-- Whether a character ends a word: a mark, a blank or a line end. -/
def isBreak (c : Char) : Bool :=
  isMark c || c == ' ' || c == '\n'

/-- The characters read so far as a word, if there are any. -/
def flush (read : List Char) : List Token :=
  if read.isEmpty then [] else [.word (String.ofList read)]

/-- The words and marks of characters, after those of a word that were read already. -/
def scan (read : List Char) : List Char → List Token
  | [] => flush read
  | c :: cs =>
    if isMark c then flush read ++ .mark c :: scan [] cs
    else if isBreak c then flush read ++ scan [] cs
    else scan (read ++ [c]) cs

/-- The words and marks of a text. -/
def tokens (s : String) : List Token :=
  scan [] s.toList

/-- The text of a word. -/
def Token.word? : Token → Option String
  | .word text => some text
  | .mark _ => none

/-! ### Statements -/

/-- The parts of a list between the occurrences of a mark outside parentheses; `depth` parentheses
are open, and `part` is what was read of the current part. -/
def parts (sep : Char) (depth : Nat) (part : List Token) : List Token → List (List Token)
  | [] => [part]
  | t :: ts =>
    if depth = 0 ∧ t = .mark sep then part :: parts sep 0 [] ts
    else if t = .mark '(' then parts sep (depth + 1) (part ++ [t]) ts
    else if t = .mark ')' then parts sep (depth - 1) (part ++ [t]) ts
    else parts sep depth (part ++ [t]) ts

/-- A column as a statement defines it. -/
structure ColumnDefinition where
  name : String
  type : String
  nullable : Bool
  deriving DecidableEq, Repr

/-- A table as a statement defines it. -/
structure TableDefinition where
  name : String
  columns : List ColumnDefinition
  key : List String
  deriving DecidableEq, Repr

/-- An index as a statement defines it. -/
structure IndexDefinition where
  name : String
  table : String
  column : String
  deriving DecidableEq, Repr

/-- What a statement creates. -/
inductive Definition where
  | table (t : TableDefinition)
  | index (i : IndexDefinition)
  deriving DecidableEq, Repr

/-- Names with commas between them. -/
def names? (ts : List Token) : Option (List String) :=
  (parts ',' 0 [] ts).mapM fun
    | [.word name] => some name
    | _ => none

/-- The columns of a primary key. -/
def key? : List Token → Option (List String)
  | .word "PRIMARY" :: .word "KEY" :: .mark '(' :: ts => (ts.dropSuffix? [.mark ')']).bind names?
  | _ => none

/-- A type, which may be several words, and whether a column of it may be NULL. -/
def type? (ts : List Token) : Option (String × Bool) :=
  match (ts.takeWhile (· ≠ .word "NOT")).mapM Token.word?, ts.dropWhile (· ≠ .word "NOT") with
  | some type, [] => some (" ".intercalate type, true)
  | some type, [.word "NOT", .word "NULL"] => some (" ".intercalate type, false)
  | _, _ => none

/-- A column: its name and its type. -/
def column? : List Token → Option ColumnDefinition
  | .word name :: ts => (type? ts).map fun (type, nullable) => { name, type, nullable }
  | _ => none

/-- The columns of a table and its primary key, which comes last if it is there. -/
def items? : List (List Token) → Option (List ColumnDefinition × List String)
  | [] => some ([], [])
  | item :: rest =>
    match key? item with
    | some key => if rest.isEmpty then some ([], key) else none
    | none => do
      let c ← column? item
      let (cs, key) ← items? rest
      return (c :: cs, key)

/-- The body of a table. -/
def body? (ts : List Token) : Option (List ColumnDefinition × List String) :=
  items? (parts ',' 0 [] ts)

/-- What a statement creates. -/
def definition? : List Token → Option Definition
  | .word "CREATE" :: .word "TABLE" :: .word "IF" :: .word "NOT" :: .word "EXISTS" ::
      .word name :: .mark '(' :: ts =>
    ((ts.dropSuffix? [.mark ')']).bind body?).map fun (columns, key) =>
      .table { name, columns, key }
  | [.word "CREATE", .word "INDEX", .word "IF", .word "NOT", .word "EXISTS", .word name,
      .word "ON", .word table, .mark '(', .word column, .mark ')'] =>
    some (.index { name, table, column })
  | _ => none

/-- What the statements of a text create, in their order. -/
def script? (s : String) : Option (List Definition) :=
  ((parts ';' 0 [] (tokens s)).filter (!·.isEmpty)).mapM definition?

end Sql

open Sql

/-- A column as it is to be in a dialect. -/
def Column.definition (d : Dialect) (c : Column) : ColumnDefinition :=
  { name := c.name, type := d.typeName c.type, nullable := c.nullable }

/-- A table as it is to be in a dialect. -/
def Table.definition (d : Dialect) (t : Table) : TableDefinition :=
  { name := t.name, columns := t.columns.map (·.definition d), key := t.primaryKey }

/-- What a statement is to create in a dialect. -/
def Statement.definition (d : Dialect) : Statement → Definition
  | .createTable t => .table (t.definition d)
  | .createIndex name table column => .index { name, table, column }

namespace Sql

variable {s t w : String} {c : Char} {read cs : List Char} {d : Dialect}

/-! ### Words -/

/-- A text that is one word. -/
def IsWord (s : String) : Prop :=
  s.toList ≠ [] ∧ ∀ c ∈ s.toList, isBreak c = false

/-- Whether a text begins with the end of a word, or is empty. -/
def startsApart (s : String) : Bool :=
  s.toList.head?.all isBreak

/-- Whether a text ends with the end of a word. -/
def endsApart (s : String) : Bool :=
  s.toList.getLast?.any isBreak

theorem isBreak_of_isMark (h : isMark c = true) : isBreak c = true := by
  rw [isBreak, h]
  rfl

theorem isMark_of_not_isBreak (h : isBreak c = false) : isMark c = false :=
  Bool.eq_false_iff.mpr fun hmark => by
    rw [isBreak_of_isMark hmark] at h
    cases h

/-- Where a word ends, the rest is read by itself. -/
theorem scan_append_cons (hc : isBreak c = true) (read before cs : List Char) :
    scan read (before ++ c :: cs) = scan read before ++ scan [] (c :: cs) := by
  induction before generalizing read with
  | nil =>
    rw [List.nil_append, scan, scan, scan, hc, if_pos rfl, if_pos rfl]
    split
    · rfl
    · rfl
  | cons b before ih =>
    rw [List.cons_append, scan, scan]
    split
    · rw [ih, List.append_assoc, List.cons_append]
    · split
      · rw [ih, List.append_assoc]
      · exact ih _

theorem scan_cons_of_isBreak (hc : isBreak c = true) (cs : List Char) :
    scan [] (c :: cs) = scan [] [c] ++ scan [] cs := by
  rw [scan, scan, hc, if_pos rfl, if_pos rfl]
  split
  · rfl
  · rfl

theorem scan_of_forall_not_isBreak (h : ∀ c ∈ cs, isBreak c = false) (read : List Char) :
    scan read cs = flush (read ++ cs) := by
  induction cs generalizing read with
  | nil => rw [scan, List.append_nil]
  | cons c cs ih =>
    obtain ⟨hc, hcs⟩ := List.forall_mem_cons.mp h
    rw [scan, isMark_of_not_isBreak hc, hc, if_neg Bool.false_ne_true,
      if_neg Bool.false_ne_true, ih hcs, List.append_assoc, List.singleton_append]

theorem tokens_word (h : IsWord s) : tokens s = [.word s] := by
  rw [tokens, scan_of_forall_not_isBreak h.2, List.nil_append, flush,
    if_neg (mt List.isEmpty_iff.mp h.1), String.ofList_toList]

/-- Texts are read apart if a word ends between them. -/
theorem tokens_append (h : endsApart s = true ∨ startsApart t = true) :
    tokens (s ++ t) = tokens s ++ tokens t := by
  rw [tokens, tokens, tokens, String.toList_append]
  rcases h with h | h
  · obtain ⟨c, hlast, hc⟩ := (Option.any_eq_true _ _).mp h
    obtain ⟨before, hs⟩ := List.getLast?_eq_some_iff.mp hlast
    rw [hs, List.append_assoc, List.singleton_append, scan_append_cons hc, scan_append_cons hc,
      List.append_assoc, scan_cons_of_isBreak hc]
  · rw [startsApart] at h
    cases ht : t.toList with
    | nil =>
      rw [List.append_nil]
      exact (List.append_nil _).symm
    | cons c rest =>
      rw [ht] at h
      exact scan_append_cons h _ _ _

theorem endsApart_append (h : endsApart t = true) (s : String) : endsApart (s ++ t) = true := by
  obtain ⟨c, hlast, hc⟩ := (Option.any_eq_true _ _).mp h
  rw [endsApart, String.toList_append, List.getLast?_append, hlast, Option.some_or]
  exact hc

theorem startsApart_append (h : startsApart s = true) (hne : s.toList ≠ []) (t : String) :
    startsApart (s ++ t) = true := by
  rw [startsApart] at h ⊢
  rwa [String.toList_append, List.head?_append_of_ne_nil _ hne]

/-- A word after the end of another one. -/
theorem tokens_append_word (hs : endsApart s = true) (hw : IsWord w) :
    tokens (s ++ w) = tokens s ++ [.word w] := by
  rw [tokens_append (.inl hs), tokens_word hw]

theorem IsWord.append (hs : IsWord s) (ht : IsWord t) : IsWord (s ++ t) := by
  rw [IsWord, String.toList_append]
  exact ⟨List.append_ne_nil_of_left_ne_nil hs.1 _, List.forall_mem_append.mpr ⟨hs.2, ht.2⟩⟩

/-- The names of tables and columns are words. -/
theorem isWord_of_isIdentifier (h : isIdentifier s = true) : IsWord s := by
  obtain ⟨hall, c, hhead, -⟩ := isIdentifier_iff.mp h
  refine ⟨fun hnil => ?_, fun c hc => ?_⟩
  · rw [hnil] at hhead
    cases hhead
  · have hname := hall c hc
    rw [isBreak, isMark, Bool.eq_false_iff]
    -- no mark and no blank may stand in a name
    intro hbreak
    simp only [Bool.or_eq_true, beq_iff_eq] at hbreak
    rcases hbreak with ((((rfl | rfl) | rfl) | rfl) | rfl) | rfl <;> revert hname <;> decide

theorem isWord_indexName {table column : String} (ht : isIdentifier table = true)
    (hc : isIdentifier column = true) : IsWord (indexName table column) := by
  have hindex : IsWord "idx_" := ⟨by decide, by simp [isBreak, isMark]⟩
  have hjoin : IsWord "_" := ⟨by decide, by simp [isBreak, isMark]⟩
  exact ((hindex.append (isWord_of_isIdentifier ht)).append hjoin).append
    (isWord_of_isIdentifier hc)

/-- Words in their order. -/
def words (ws : List String) : List Token :=
  ws.map .word

/-- What stands in parentheses, with them. -/
def inParens (ts : List Token) : List Token :=
  .mark '(' :: ts ++ [.mark ')']

/-! ### Parts -/

variable {sep : Char} {depth : Nat} {ts us : List Token}

/-- No part ends inside `ts`, and as many parentheses are open after it as before. -/
def Inert (sep : Char) (depth : Nat) (ts : List Token) : Prop :=
  ∀ part rest, parts sep depth part (ts ++ rest) = parts sep depth (part ++ ts) rest

theorem inert_nil : Inert sep depth [] := fun part rest => by
  rw [List.nil_append, List.append_nil]

theorem Inert.append (ht : Inert sep depth ts) (hu : Inert sep depth us) :
    Inert sep depth (ts ++ us) := fun part rest => by
  rw [List.append_assoc, ht, hu, List.append_assoc]

theorem inert_word (w : String) : Inert sep depth [.word w] := fun part rest => by
  rw [List.singleton_append, parts, if_neg fun h => Token.noConfusion h.2,
    if_neg Token.noConfusion, if_neg Token.noConfusion]

theorem inert_mark (hopen : c ≠ '(') (hclose : c ≠ ')') (hsep : depth = 0 → c ≠ sep) :
    Inert sep depth [.mark c] := fun part rest => by
  rw [List.singleton_append, parts, if_neg fun h => hsep h.1 (Token.mark.inj h.2),
    if_neg fun h => hopen (Token.mark.inj h), if_neg fun h => hclose (Token.mark.inj h)]

theorem inert_of_forall_word (h : ∀ t ∈ ts, t.word?.isSome = true) : Inert sep depth ts := by
  induction ts with
  | nil => exact inert_nil
  | cons t ts ih =>
    obtain ⟨ht, hts⟩ := List.forall_mem_cons.mp h
    cases t with
    | word w => exact (inert_word w).append (ih hts)
    | mark c => cases ht

theorem inert_words (ws : List String) : Inert sep depth (words ws) := by
  refine inert_of_forall_word fun t ht => ?_
  obtain ⟨w, -, rfl⟩ := List.mem_map.mp ht
  rfl

/-- Parentheses hide the marks between them. -/
theorem Inert.parens (h : Inert sep (depth + 1) ts) (hsep : sep ≠ '(') :
    Inert sep depth (inParens ts) := fun part rest => by
  -- inside, one parenthesis more is open, so the depth is not zero when the last one is read
  rw [inParens, List.cons_append, List.cons_append, parts,
    if_neg fun h => hsep (Token.mark.inj h.2).symm, if_pos rfl, List.append_assoc, h,
    List.singleton_append, parts, if_neg fun h => Nat.succ_ne_zero _ h.1, if_neg (by decide),
    if_pos rfl, Nat.add_sub_cancel, List.append_assoc, List.append_assoc]
  rfl

theorem parts_append_mark (h : Inert sep 0 ts) (rest : List Token) :
    parts sep 0 [] (ts ++ .mark sep :: rest) = ts :: parts sep 0 [] rest := by
  rw [h, List.nil_append, parts, if_pos ⟨rfl, rfl⟩]

theorem parts_of_inert (h : Inert sep 0 ts) : parts sep 0 [] ts = [ts] := by
  have hall := h [] []
  rwa [List.append_nil, List.nil_append, parts] at hall

/-! ### Names and keys -/

variable {key : List String}

theorem tokens_names_cons {k l : String} {ks : List String} (hk : IsWord k) :
    tokens (", ".intercalate (k :: l :: ks)) =
      .word k :: .mark ',' :: tokens (", ".intercalate (l :: ks)) := by
  rw [String.intercalate_cons_cons, tokens_append (.inl (endsApart_append (by decide) k)),
    tokens_append (t := ", ") (.inr (by decide)), tokens_word hk]
  rfl

theorem inert_names (hkey : ∀ k ∈ key, IsWord k) :
    Inert sep (depth + 1) (tokens (", ".intercalate key)) := by
  induction key with
  | nil => exact inert_nil
  | cons k ks ih =>
    obtain ⟨hk, hks⟩ := List.forall_mem_cons.mp hkey
    cases ks with
    | nil =>
      rw [String.intercalate_singleton, tokens_word hk]
      exact inert_word k
    | cons l ks =>
      rw [tokens_names_cons hk]
      exact (inert_word k).append ((inert_mark (by decide) (by decide) (by omega)).append (ih hks))

theorem names?_tokens (hkey : ∀ k ∈ key, IsWord k) (hne : key ≠ []) :
    names? (tokens (", ".intercalate key)) = some key := by
  induction key with
  | nil => exact absurd rfl hne
  | cons k ks ih =>
    obtain ⟨hk, hks⟩ := List.forall_mem_cons.mp hkey
    cases ks with
    | nil =>
      rw [String.intercalate_singleton, tokens_word hk, names?, parts_of_inert (inert_word k)]
      rfl
    | cons l ks =>
      have hrest := ih hks (List.cons_ne_nil l ks)
      rw [names?] at hrest
      rw [tokens_names_cons hk, names?, ← List.singleton_append,
        parts_append_mark (inert_word k), List.mapM_cons, hrest]
      rfl

/-- The words and marks of a primary key. -/
def keyTokens (key : List String) : List Token :=
  if key.isEmpty then [] else words ["PRIMARY", "KEY"] ++ inParens (tokens (", ".intercalate key))

theorem inert_keyTokens (hkey : ∀ k ∈ key, IsWord k) (hsep : sep ≠ '(') :
    Inert sep depth (keyTokens key) := by
  rw [keyTokens]
  split
  · exact inert_nil
  · exact (inert_words _).append ((inert_names hkey).parens hsep)

theorem dropSuffix?_append (ts us : List Token) : (ts ++ us).dropSuffix? us = some ts :=
  List.dropSuffix?_eq_some_iff.mpr ⟨us, rfl, beq_self_eq_true us⟩

theorem key?_keyTokens (hkey : ∀ k ∈ key, IsWord k) (hne : key ≠ []) :
    key? (keyTokens key) = some key := by
  have hread : ∀ ts, key? (words ["PRIMARY", "KEY"] ++ inParens ts) =
      ((ts ++ [Token.mark ')']).dropSuffix? [Token.mark ')']).bind names? := fun _ => rfl
  rw [keyTokens, if_neg (mt List.isEmpty_iff.mp hne), hread, dropSuffix?_append, Option.bind_some,
    names?_tokens hkey hne]

/-! ### Columns -/

variable {more : Bool}

/-- The words of a column's type. -/
def typeTokens (d : Dialect) (type : ColumnType) (nullable : Bool) : List Token :=
  tokens (d.typeName type) ++ if nullable then [] else words ["NOT", "NULL"]

/-- The words of a column. -/
def columnTokens (d : Dialect) (c : Column) : List Token :=
  .word c.name :: typeTokens d c.type c.nullable

theorem forall_word_typeTokens {type : ColumnType} (h : type.valid = true) (nullable : Bool) :
    ∀ t ∈ typeTokens d type nullable, t.word?.isSome = true := by
  cases type with
  | unknown => cases h
  | integer | text | real | blob | boolean => cases d <;> cases nullable <;> decide

theorem inert_columnTokens {c : Column} (hc : c.type.valid = true) :
    Inert sep depth (columnTokens d c) :=
  (inert_word c.name).append (inert_of_forall_word (forall_word_typeTokens hc c.nullable))

theorem type?_typeTokens {type : ColumnType} (h : type.valid = true) (nullable : Bool) :
    type? (typeTokens d type nullable) = some (d.typeName type, nullable) := by
  cases type with
  | unknown => cases h
  | integer | text | real | blob | boolean => cases d <;> cases nullable <;> decide

theorem column?_columnTokens {c : Column} (hc : c.type.valid = true) :
    column? (columnTokens d c) = some (c.definition d) := by
  rw [columnTokens, column?, type?_typeTokens hc]
  rfl

/-- A column is no primary key. -/
theorem key?_columnTokens {c : Column} (hc : isIdentifier c.name = true) :
    key? (columnTokens d c) = none := by
  rw [columnTokens, key?]
  intro ts heq
  rw [Token.word.inj (List.cons.inj heq).1] at hc
  revert hc
  decide

theorem tokens_append_ite {p : Prop} [Decidable p] {u : String} (ht : startsApart t = true)
    (hu : startsApart u = true) :
    tokens (s ++ if p then t else u) = tokens s ++ if p then tokens t else tokens u := by
  split
  · exact tokens_append (.inr ht)
  · exact tokens_append (.inr hu)

/-- The words of a column's line, and those of the lines after it. -/
theorem tokens_columnLines_cons {c : Column} (hc : IsWord c.name) (cs : List Column) :
    tokens (columnLines d more (c :: cs)) =
      columnTokens d c ++ ((if !cs.isEmpty || more then [.mark ','] else []) ++
        tokens (columnLines d more cs)) := by
  rw [columnLines, tokens_append (.inl (endsApart_append (by decide) _)),
    tokens_append (t := "\n") (.inr (by decide)), tokens_append_ite (by decide) (by decide),
    tokens_append_ite (by decide) (by decide),
    tokens_append (.inl (endsApart_append (by decide) _)),
    tokens_append (t := " ") (.inr (by decide)), tokens_append_word (by decide) hc,
    columnTokens, typeTokens]
  have hblank : tokens "    " = [] ∧ tokens " " = [] ∧ tokens "\n" = [] ∧ tokens "" = [] := by
    decide
  have hmark : tokens "," = [.mark ','] := by decide
  have hnull : tokens " NOT NULL" = words ["NOT", "NULL"] := by decide
  simp only [hblank, hmark, hnull, List.nil_append, List.append_nil, List.append_assoc,
    List.cons_append]

theorem inert_columnLines {cs : List Column} (hcs : ∀ c ∈ cs, c.WellFormed) (hsep : sep ≠ ',') :
    Inert sep depth (tokens (columnLines d more cs)) := by
  induction cs with
  | nil => exact inert_nil
  | cons c cs ih =>
    obtain ⟨hc, hcs⟩ := List.forall_mem_cons.mp hcs
    rw [tokens_columnLines_cons (isWord_of_isIdentifier hc.name)]
    refine (inert_columnTokens hc.type).append (Inert.append ?_ (ih hcs))
    split
    · exact inert_mark (by decide) (by decide) fun _ => hsep.symm
    · exact inert_nil

/-! ### Tables -/

theorem items?_column {c : Column} (hc : c.WellFormed) (rest : List (List Token)) :
    items? (columnTokens d c :: rest) =
      (items? rest).map fun (cs, key) => (c.definition d :: cs, key) := by
  rw [items?, key?_columnTokens hc.name, column?_columnTokens hc.type]
  cases items? rest <;> rfl

/-- The columns of a table before its primary key. -/
theorem items?_columns_key {cs : List Column} (hcs : ∀ c ∈ cs, c.WellFormed)
    (hkey : ∀ k ∈ key, IsWord k) (hne : key ≠ []) :
    items? (parts ',' 0 [] (tokens (columnLines d true cs) ++ keyTokens key)) =
      some (cs.map (·.definition d), key) := by
  induction cs with
  | nil =>
    have htokens : tokens (columnLines d true []) = [] := rfl
    rw [htokens, List.nil_append, parts_of_inert (inert_keyTokens hkey (by decide)), items?,
      key?_keyTokens hkey hne]
    rfl
  | cons c cs ih =>
    obtain ⟨hc, hcs⟩ := List.forall_mem_cons.mp hcs
    rw [tokens_columnLines_cons (isWord_of_isIdentifier hc.name), Bool.or_true, if_pos rfl,
      List.append_assoc, List.append_assoc, List.singleton_append,
      parts_append_mark (inert_columnTokens hc.type), items?_column hc, ih hcs]
    rfl

/-- The columns of a table without a primary key. -/
theorem items?_columns {cs : List Column} (hcs : ∀ c ∈ cs, c.WellFormed) (hne : cs ≠ []) :
    items? (parts ',' 0 [] (tokens (columnLines d false cs))) =
      some (cs.map (·.definition d), []) := by
  induction cs with
  | nil => exact absurd rfl hne
  | cons c cs ih =>
    obtain ⟨hc, hcs⟩ := List.forall_mem_cons.mp hcs
    rw [tokens_columnLines_cons (isWord_of_isIdentifier hc.name), Bool.or_false]
    cases cs with
    | nil =>
      have hrest : tokens (columnLines d false []) = [] := rfl
      rw [hrest, List.isEmpty_nil, Bool.not_true, if_neg Bool.false_ne_true, List.append_nil,
        List.append_nil, parts_of_inert (inert_columnTokens hc.type), items?_column hc]
      rfl
    | cons b cs =>
      rw [List.isEmpty_cons, Bool.not_false, if_pos rfl, List.singleton_append,
        parts_append_mark (inert_columnTokens hc.type), items?_column hc,
        ih hcs (List.cons_ne_nil b cs)]
      rfl

/-- The words and marks of a table's body. -/
def bodyTokens (d : Dialect) (t : Table) : List Token :=
  tokens (columnLines d (!t.primaryKey.isEmpty) t.columns) ++ keyTokens t.primaryKey

theorem body?_bodyTokens {t : Table} (ht : t.WellFormed) :
    body? (bodyTokens d t) = some (t.columns.map (·.definition d), t.primaryKey) := by
  rw [body?, bodyTokens]
  cases hkey : t.primaryKey with
  | nil =>
    exact (congrArg (items? <| parts ',' 0 [] ·) (List.append_nil _)).trans
      (items?_columns ht.columns ht.nonempty)
  | cons k ks =>
    exact items?_columns_key ht.columns
      (fun k hk => isWord_of_isIdentifier (ht.isIdentifier_of_mem_key (hkey ▸ hk)))
      (List.cons_ne_nil k ks)

/-! ### Statements -/

/-- Whether a text is read as one statement, with the semicolon that ends it. -/
def Reads (text : String) (x : Definition) : Prop :=
  ∃ ts, tokens text = ts ++ [.mark ';'] ∧ Inert ';' 0 ts ∧ ts ≠ [] ∧ definition? ts = some x

/-- The text of a statement that creates a table. -/
theorem text_createTable (d : Dialect) (t : Table) : (Statement.createTable t).text d =
    "CREATE TABLE IF NOT EXISTS " ++ t.name ++ " (\n"
      ++ columnLines d (!t.primaryKey.isEmpty) t.columns
      ++ (if t.primaryKey.isEmpty then ""
        else "    PRIMARY KEY (" ++ ", ".intercalate t.primaryKey ++ ")\n")
      ++ ");\n" := rfl

/-- The text of a statement that creates an index. -/
theorem text_createIndex (d : Dialect) (name table column : String) :
    (Statement.createIndex name table column).text d =
      "CREATE INDEX IF NOT EXISTS " ++ name ++ " ON " ++ table ++ " (" ++ column ++ ");\n" := rfl

theorem tokens_keyLine (s : String) (key : List String) :
    tokens (s ++ if key.isEmpty then "" else "    PRIMARY KEY (" ++ ", ".intercalate key ++ ")\n") =
      tokens s ++ keyTokens key := by
  have hapart : ∀ u, startsApart ("    PRIMARY KEY (" ++ ", ".intercalate key ++ u) = true :=
    startsApart_append (startsApart_append (by decide) (by decide) _) (by simp)
  have hopen : tokens "    PRIMARY KEY (" = words ["PRIMARY", "KEY"] ++ [.mark '('] := by decide
  have hclose : tokens ")\n" = [.mark ')'] := by decide
  rw [tokens_append_ite (by decide) (hapart _), tokens_append (t := ")\n") (.inr (by decide)),
    hclose, tokens_append (.inl (by decide)), hopen, keyTokens, inParens]
  rfl

theorem tokens_createTable {t : Table} (ht : isIdentifier t.name = true) :
    tokens ((Statement.createTable t).text d) =
      words ["CREATE", "TABLE", "IF", "NOT", "EXISTS", t.name] ++ inParens (bodyTokens d t) ++
        [.mark ';'] := by
  have hstart : tokens "CREATE TABLE IF NOT EXISTS " =
      words ["CREATE", "TABLE", "IF", "NOT", "EXISTS"] := by decide
  have hopen : tokens " (\n" = [.mark '('] := by decide
  have hclose : tokens ");\n" = [.mark ')', .mark ';'] := by decide
  rw [text_createTable, tokens_append (t := ");\n") (.inr (by decide)), hclose, tokens_keyLine,
    tokens_append (.inl (endsApart_append (by decide) _)),
    tokens_append (t := " (\n") (.inr (by decide)), hopen,
    tokens_append_word (by decide) (isWord_of_isIdentifier ht), hstart]
  simp only [words, inParens, bodyTokens, List.map_cons, List.map_nil, List.append_assoc,
    List.cons_append, List.nil_append]

theorem tokens_createIndex {name table column : String} (hn : IsWord name) (ht : IsWord table)
    (hc : IsWord column) : tokens ((Statement.createIndex name table column).text d) =
      words ["CREATE", "INDEX", "IF", "NOT", "EXISTS", name, "ON", table] ++
        inParens [.word column] ++ [.mark ';'] := by
  have hstart : tokens "CREATE INDEX IF NOT EXISTS " =
      words ["CREATE", "INDEX", "IF", "NOT", "EXISTS"] := by decide
  have hon : tokens " ON " = words ["ON"] := by decide
  have hopen : tokens " (" = [.mark '('] := by decide
  have hclose : tokens ");\n" = [.mark ')', .mark ';'] := by decide
  rw [text_createIndex, tokens_append (t := ");\n") (.inr (by decide)), hclose,
    tokens_append_word (endsApart_append (by decide) _) hc,
    tokens_append (t := " (") (.inr (by decide)), hopen,
    tokens_append_word (endsApart_append (by decide) _) ht,
    tokens_append (t := " ON ") (.inr (by decide)), hon, tokens_append_word (by decide) hn, hstart]
  rfl

theorem reads_createTable {t : Table} (ht : t.WellFormed) :
    Reads ((Statement.createTable t).text d) (.table (t.definition d)) := by
  refine ⟨_, tokens_createTable ht.name, ?_, List.cons_ne_nil _ _, ?_⟩
  · have hkey : ∀ k ∈ t.primaryKey, IsWord k :=
      fun k hk => isWord_of_isIdentifier (ht.isIdentifier_of_mem_key hk)
    refine (inert_words _).append (Inert.parens ?_ (by decide))
    exact (inert_columnLines ht.columns (by decide)).append (inert_keyTokens hkey (by decide))
  · have hread : ∀ ts, definition? (words ["CREATE", "TABLE", "IF", "NOT", "EXISTS", t.name] ++
        inParens ts) = (((ts ++ [Token.mark ')']).dropSuffix? [Token.mark ')']).bind body?).map
          fun (columns, key) => .table { name := t.name, columns, key } := fun _ => rfl
    rw [hread, dropSuffix?_append, Option.bind_some, body?_bodyTokens ht]
    rfl

theorem reads_createIndex {name table column : String} (hn : IsWord name) (ht : IsWord table)
    (hc : IsWord column) : Reads ((Statement.createIndex name table column).text d)
      (.index { name, table, column }) :=
  ⟨_, tokens_createIndex hn ht hc,
    (inert_words _).append ((inert_word column).parens (by decide)), List.cons_ne_nil _ _, rfl⟩

/-- The statements of well-formed tables can be read. -/
theorem reads_of_mem_statements {tables : List Table} (h : WellFormed tables) (d : Dialect) :
    ∀ s ∈ statements tables, Reads (s.text d) (s.definition d) := by
  intro s hs
  obtain ⟨t, ht, hs⟩ := List.mem_flatMap.mp hs
  have hwf := h.each t ht
  rcases List.mem_cons.mp hs with rfl | hs
  · exact reads_createTable hwf
  · obtain ⟨c, hc, rfl⟩ := List.mem_map.mp hs
    have hname := (hwf.columns c (List.mem_of_mem_filter hc)).name
    exact reads_createIndex (isWord_indexName hwf.name hname) (isWord_of_isIdentifier hwf.name)
      (isWord_of_isIdentifier hname)

/-! ### Scripts -/

/-- Statements are read one after the other. -/
theorem mapM_definition?_of_reads {ss : List Statement}
    (h : ∀ s ∈ ss, Reads (s.text d) (s.definition d)) :
    ((parts ';' 0 [] (ss.flatMap fun s => tokens (s.text d))).filter (!·.isEmpty)).mapM
      definition? = some (ss.map (·.definition d)) := by
  induction ss with
  | nil =>
    -- what is left behind the last semicolon is empty, and dropped
    rfl
  | cons s ss ih =>
    obtain ⟨⟨ts, htokens, hinert, hne, hread⟩, hss⟩ := List.forall_mem_cons.mp h
    rw [List.flatMap_cons, htokens, List.append_assoc, List.singleton_append,
      parts_append_mark hinert, List.filter_cons_of_pos (by simpa using hne), List.mapM_cons, hread,
      ih hss]
    rfl

theorem endsApart_text (s : Statement) : endsApart (s.text d) = true := by
  cases s with
  | createTable t => exact endsApart_append (by decide) _
  | createIndex name table column => exact endsApart_append (by decide) _

theorem tokens_join_text (ss : List Statement) :
    tokens (String.join (ss.map (·.text d))) = ss.flatMap fun s => tokens (s.text d) := by
  induction ss with
  | nil => rfl
  | cons s ss ih =>
    rw [List.map_cons, String.join_cons, tokens_append (.inl (endsApart_text s)), ih,
      List.flatMap_cons]

theorem tokens_definitionText (tables : List Table) :
    tokens (definitionText tables d) =
      (statements tables).flatMap fun s => tokens (s.text d) := by
  rw [statements, List.flatMap_assoc, definitionText]
  simp only [← tokens_join_text]
  induction tables with
  | nil => rfl
  | cons t ts ih =>
    rw [List.flatMap_cons, List.map_cons]
    cases ts with
    | nil =>
      rw [List.map_nil, String.intercalate_singleton, List.flatMap_nil, List.append_nil]
      rfl
    | cons u ts =>
      rw [List.map_cons] at ih
      rw [List.map_cons, String.intercalate_cons_cons,
        tokens_append (.inl (endsApart_append (by decide) _)), ih,
        tokens_append (t := "\n") (.inr (by decide))]
      have hblank : tokens "\n" = [] := by decide
      rw [hblank, List.append_nil]
      rfl

/-- **The text for well-formed tables is read as the statements that it was written from.** -/
theorem script?_definitionText {tables : List Table} (h : WellFormed tables) (d : Dialect) :
    script? (definitionText tables d) = some ((statements tables).map (·.definition d)) := by
  rw [script?, tokens_definitionText]
  exact mapM_definition?_of_reads (reads_of_mem_statements h d)

end Sql

end TaintFlow.Schema
