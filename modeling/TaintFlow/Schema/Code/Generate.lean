import TaintFlow.Disk
import TaintFlow.Schema.Code.Column
import TaintFlow.Schema.Validate
import TaintFlow.Text.Case
import TaintFlow.Text.Printable

/-!
# Code for a schema

The file with typed rows, tables with their indexes, and the cache that loads them all.

## Main definitions

* `Code.Options` — the package, the import and the tool named in the file.
* `Code.file` — the file for a list of tables.
* `Code.generate` — its text, or why there is none.
* `Code.writeFile` — writes the text to a file, or compares it with one.
-/

namespace TaintFlow.Schema.Code

/-- What may be chosen for a generated file. -/
structure Options where
  package : String := "facts"
  schemaImport : String := "github.com/xkilldash9x/scalpel-taint/internal/schema"
  generator : String := "schemagen"
  deriving DecidableEq, Repr

/-- Options in which an empty text stands for the default. -/
def Options.make (package schemaImport generator : String) : Options :=
  let standard : Options := {}
  { package := if package.isEmpty then standard.package else package,
    schemaImport := if schemaImport.isEmpty then standard.schemaImport else schemaImport,
    generator := if generator.isEmpty then standard.generator else generator }

/-! ### Lines -/

/-- A line of plain code. -/
def line (depth : Nat) (s : String) : Line :=
  ⟨depth, [.plain s]⟩

/-- The end of a block. -/
def close (depth : Nat) : Line :=
  line depth "\x7d"

/-- A test whose body is one line. -/
def guarded (depth : Nat) (test : Fragment) (body : Fragment) : List Line :=
  [⟨depth, .plain "if " :: test ++ [.plain " \x7b"]⟩, ⟨depth + 1, body⟩, close depth]

/-- The end of a routine that has failed. -/
def failed (depth : Nat) (result : String) : List Line :=
  [line (depth + 1) ("return " ++ result), close depth]

/-! ### Names -/

/-- The type of the rows of a table. -/
def rowType (t : Table) : String :=
  exportedName t.name ++ "Row"

/-- The type of a table. -/
def tableType (t : Table) : String :=
  exportedName t.name ++ "Table"

/-- The variable that lists the columns of a table. -/
def columnsName (t : Table) : String :=
  fieldName t.name ++ "Columns"

/-! ### A table -/

/-- The type of the rows of a table. -/
def rowDecl (t : Table) : Decl :=
  .record [s!"{rowType t} is one row of the {t.name} table."] (rowType t)
    (t.columns.map fun c => ⟨exportedName c.name, columnType c⟩)

/-- The case of a column in the method that gives a field as text. -/
def fieldCase (c : Column) : List Line :=
  line 1 s!"case \"{c.name}\":" ::
    (match nullCode? c with
      | some test => guarded 2 [.plain test] [.plain "return \"\", false"]
      | none => [])
    ++ [⟨2, .plain "return " :: textCode c ++ [.plain ", true"]⟩]

/-- The method that gives a field as text. -/
def fieldDecl (t : Table) : Decl :=
  .routine ["Field returns the text form of the named column. The second result is",
      "false for unknown columns and NULL values."]
    (some ⟨"r ", rowType t⟩) "Field" [.plain "(column string) (string, bool)"]
    (line 1 "switch column \x7b" :: t.columns.flatMap fieldCase
      ++ [close 1, line 1 "return \"\", false"])

/-- The column that has a role in locating rows, as code. -/
def roleCode (t : Table) (label column : String) : List String :=
  match t.column? column with
  | some c => [label ++ ": " ++ keyCode c]
  | none => []

/-- The method that locates a row. -/
def locationDecl (t : Table) : Decl :=
  let roles := roleCode t "File" t.location.file ++ roleCode t "Line" t.location.line
    ++ roleCode t "Column" t.location.column
  .routine ["Location returns the position of the row in the analysed code."]
    (some ⟨"r ", rowType t⟩) "Location" [.plain "() Location"]
    [line 1 ("return Location\x7b" ++ ", ".intercalate roles ++ "\x7d")]

/-- The type of an index on a column. -/
def indexType (c : Column) : String :=
  s!"map[{keyType c}][]int32"

/-- The type of a table: its rows and its indexes. -/
def tableDecl (t : Table) : Decl :=
  .record [s!"{tableType t} holds the rows of the {t.name} table in load order."] (tableType t)
    (⟨"rows", [.plain ("[]" ++ rowType t)]⟩ ::
      t.indexedColumns.map fun c => ⟨indexField c, [.plain (indexType c)]⟩)

/-- A method of a table. -/
def tableMethod (t : Table) (doc : List String) (name : String) (signature : Fragment)
    (body : List Line) : Decl :=
  .routine doc (some ⟨"t *", tableType t⟩) name signature body

/-- The method that gives the rows with a value in an indexed column. -/
def lookupDecl (t : Table) (c : Column) : Decl :=
  let name := "By" ++ exportedName c.name
  tableMethod t [s!"{name} returns the rows whose {c.name} equals v, in load order."] name
    [.plain s!"(v {keyType c}) []{rowType t}"]
    [line 1 s!"return t.pick(t.{indexField c}[v])"]

/-- The methods that give rows. -/
def accessDecls (t : Table) : List Decl :=
  [tableMethod t ["All returns every row in load order."] "All" [.plain ("() []" ++ rowType t)]
      [⟨1, [.plain "return ", .member "slices" "Clone", .plain "(t.rows)"]⟩],
    tableMethod t ["Len returns the number of rows."] "Len" [.plain "() int"]
      [line 1 "return len(t.rows)"],
    tableMethod t ["At returns the i-th row in load order."] "At"
      [.plain ("(i int) " ++ rowType t)] [line 1 "return t.rows[i]"]]

/-- The method that gives the rows at some positions. -/
def pickDecl (t : Table) : Decl :=
  tableMethod t [] "pick" [.plain ("(idx []int32) []" ++ rowType t)]
    [line 1 s!"out := make([]{rowType t}, len(idx))", line 1 "for i, j := range idx \x7b",
      line 2 "out[i] = t.rows[j]", close 1, line 1 "return out"]

/-- The method that iterates over the rows without their type. -/
def recordsDecl (t : Table) : Decl :=
  tableMethod t [] "records" [.plain "() ", .member "iter" "Seq2", .plain "[int, Record]"]
    [line 1 "return func(yield func(int, Record) bool) \x7b", line 2 "for i, r := range t.rows \x7b",
      line 3 "if !yield(i, r) \x7b", line 4 "return", close 3, close 2, close 1]

/-- Enters a row into the index on a column. -/
def indexLines (c : Column) : List Line :=
  let slot := s!"t.{indexField c}[{keyCode c}]"
  let enter := slot ++ " = append(" ++ slot ++ ", i)"
  if c.nullable then guarded 2 [.plain (fieldRef c ++ ".Valid")] [.plain enter] else [line 2 enter]

/-- The method that loads a table. -/
def loadDecl (t : Table) : Decl :=
  tableMethod t [] "load"
    [.plain "(ctx ", .member "context" "Context", .plain ", src ", .member "schema" "Source",
      .plain ") error"]
    (line 1 "t.rows = nil"
      :: t.indexedColumns.map (fun c => line 1 s!"t.{indexField c} = make({indexType c})")
      ++ [⟨1, [.plain s!"err := src.ReadTable(ctx, \"{t.name}\", {columnsName t}, func(row ",
          .member "schema" "Row", .plain ") error \x7b"]⟩,
        line 2 ("var r " ++ rowType t)]
      ++ t.columns.zipIdx.map (fun (c, i) => ⟨2, .plain (fieldRef c ++ " = ") :: readCode c i⟩)
      ++ [line 2 "i := int32(len(t.rows))", line 2 "t.rows = append(t.rows, r)"]
      ++ t.indexedColumns.flatMap indexLines
      ++ [line 2 "return nil", line 1 "\x7d)"]
      ++ guarded 1 [.plain "err != nil"]
        [.plain "return ", .member "fmt" "Errorf", .plain s!"(\"reading table {t.name}: %w\", err)"]
      ++ [line 1 "return nil"])

/-- The declarations of a table. -/
def tableDecls (t : Table) : List Decl :=
  [.heading t.name, .texts (columnsName t) t.columnNames, rowDecl t, fieldDecl t, locationDecl t,
      tableDecl t]
    ++ accessDecls t ++ t.indexedColumns.map (lookupDecl t)
    ++ [pickDecl t, recordsDecl t, loadDecl t]

/-! ### The cache -/

/-- The type of the cache. -/
def cacheType : String := "Cache"

/-- A method of the cache. -/
def cacheMethod (doc : List String) (name : String) (signature : Fragment) (body : List Line) :
    Decl :=
  .routine doc (some ⟨"c *", cacheType⟩) name signature body

/-- The type of the cache with a field per table. -/
def cacheDecl (tables : List Table) : Decl :=
  .record ["Cache is the frozen, fully loaded set of fact tables. It has no mutators",
      "and every accessor returns fresh slices."] cacheType
    (tables.map fun t => ⟨fieldName t.name, [.plain (tableType t)]⟩)

/-- The method that gives a table. -/
def accessorDecl (t : Table) : Decl :=
  cacheMethod [s!"{exportedName t.name} returns the {t.name} table."] (exportedName t.name)
    [.plain ("() *" ++ tableType t)] [line 1 ("return &c." ++ fieldName t.name)]

/-- The method that lists the tables. -/
def tableNamesDecl (tables : List Table) : Decl :=
  cacheMethod ["TableNames returns the declared table names in declared order."] "TableNames"
    [.plain "() []string"]
    (line 1 "return []string\x7b" :: tables.map (fun t => line 2 s!"\"{t.name}\",") ++ [close 1])

/-- The method that iterates over the rows of a table by name. -/
def cacheRecordsDecl (tables : List Table) : Decl :=
  cacheMethod ["Records iterates the rows of a table by name through the generic Record",
      "view. The second result is false for unknown tables."] "Records"
    [.plain "(table string) (", .member "iter" "Seq2", .plain "[int, Record], bool)"]
    (line 1 "switch table \x7b"
      :: tables.flatMap (fun t =>
        [line 1 s!"case \"{t.name}\":", line 2 s!"return c.{fieldName t.name}.records(), true"])
      ++ [close 1, line 1 "return nil, false"])

/-- The function that loads the cache. -/
def cacheLoadDecl (tables : List Table) : Decl :=
  .routine ["Load reads every declared table from src. All tables and columns are",
      "checked before the first row is read, so a mismatched fact store never",
      "produces a partially loaded cache."] none "Load"
    [.plain "(ctx ", .member "context" "Context", .plain ", src ", .member "schema" "Source",
      .plain ") (*Cache, error)"]
    (tables.flatMap (fun t =>
        line 1 (s!"if err := checkTable(ctx, src, \"{t.name}\", {columnsName t}); "
          ++ "err != nil \x7b") :: failed 1 "nil, err")
      ++ [⟨0, []⟩, line 1 "c := &Cache\x7b\x7d"]
      ++ tables.flatMap (fun t =>
        line 1 "if err := ctx.Err(); err != nil \x7b" :: failed 1 "nil, err"
          ++ line 1 (s!"if err := c.{fieldName t.name}.load(ctx, src); " ++ "err != nil \x7b")
            :: failed 1 "nil, err")
      ++ [line 1 "return c, nil"])

/-- The declarations of the cache. -/
def cacheDecls (tables : List Table) : List Decl :=
  [.heading "cache", cacheDecl tables] ++ tables.map accessorDecl
    ++ [tableNamesDecl tables, cacheRecordsDecl tables, cacheLoadDecl tables]

/-! ### The file -/

/-- Whether some column of some table satisfies a condition. -/
def anyColumn (tables : List Table) (p : Column → Bool) : Bool :=
  tables.any fun t => t.columns.any p

/-- The packages of the standard library that the code for some tables needs. -/
def standardImports (tables : List Table) : List String :=
  (if anyColumn tables (·.type == .blob) then ["bytes"] else []) ++ ["context"]
    ++ (if anyColumn tables isWrapped then ["database/sql"] else []) ++ ["fmt", "iter", "slices"]
    ++ (if anyColumn tables (fun c => c.type != .text && c.type != .blob) then ["strconv"] else [])

/-- The file for a list of tables. -/
def file (tables : List Table) (o : Options) : File where
  generator := o.generator
  package := Text.trim o.package
  imports := [standardImports tables, [o.schemaImport]]
  decls := tables.flatMap tableDecls ++ cacheDecls tables

/-! ### What cannot be generated -/

/-- Methods of the cache that no table may be named like. -/
def reservedAccessors : List String := ["Records", "TableNames"]

/-- The words of the generated language that are no names. -/
def keywords : List String :=
  ["break", "case", "chan", "const", "continue", "default", "defer", "else", "fallthrough", "for",
   "func", "go", "goto", "if", "import", "interface", "map", "package", "range", "return", "select",
   "struct", "switch", "type", "var"]

/-- The problem of a table whose accessor or field would have a name that is taken. -/
def accessorProblem? (t : Table) : Option Malformed :=
  if reservedAccessors.contains (exportedName t.name) then
    some { table := t.name, problem := .reserved (exportedName t.name) }
  else if keywords.contains (fieldName t.name) then
    some { table := t.name, problem := .keyword (fieldName t.name) }
  else none

/-- Whether an exported name can stand in the code: it is not empty and no digit comes first. -/
def isWritable (name : String) : Bool :=
  match (exportedName name).toList with
  | [] => false
  | c :: _ => !c.isDigit

/-- Whether a character may stand in the name of a package. -/
def isPackageChar (c : Char) : Bool :=
  c == '_' || c.isAlphanum || Text.lowerChar c != c || Text.upperChar c != c

/-- Whether a text is the name of a package. -/
def isPackageName (s : String) : Bool :=
  match s.toList with
  | [] => false
  | c :: cs => (c :: cs).all isPackageChar && !c.isDigit && s != "_" && !keywords.contains s

/-- Characters that no import path may hold. -/
def illegalInPath : List Char :=
  "!\"#$%&'()*,:;<=>?[\\]^\x7b|\x7d\x60\uFFFD".toList

/-- Whether a text is an import path. -/
def isImportPath (s : String) : Bool :=
  !s.isEmpty && s.toList.all fun c => Text.isPrintable c && c != ' ' && !illegalInPath.contains c

/-- Whether the text of the file for some tables can be read as code. -/
def isReadable (tables : List Table) (o : Options) : Bool :=
  isPackageName (Text.trim o.package) && isImportPath o.schemaImport
    && !o.generator.toList.contains '\n'
    && tables.all fun t => isWritable t.name && t.columns.all fun c => isWritable c.name

/-- The text of the file for a list of tables. -/
def generate (tables : List Table) (o : Options) : Except Failure String :=
  match validate tables, tables.findSome? accessorProblem? with
  | some m, _ => .error m.failure
  | none, some m => .error m.failure
  | none, none =>
    if isReadable tables o then .ok (file tables o).text
    else failBecause "formatting generated source"

/-- Writes the text for some tables to a file.  With `check` nothing is written, and a file with
another text is a failure. -/
def writeFile {m : Type → Type} [Monad m] (disk : Disk m) (path : String) (tables : List Table)
    (o : Options) (check : Bool) : m (Except Failure Unit) := do
  match generate tables o with
  | .error f => return .error f
  | .ok text =>
    if check then
      match ← disk.read path with
      | .error t => return .error (.during ("failed to read " ++ path) (t.reading path))
      | .ok current =>
        if current == text then return .ok ()
        else return failBecause (path ++ " is stale, run go generate ./internal/facts")
    else
      match ← disk.write path text with
      | .error t => return .error (.during ("failed to write " ++ path) (t.opening path))
      | .ok () => return .ok ()

end TaintFlow.Schema.Code
