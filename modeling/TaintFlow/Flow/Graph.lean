import TaintFlow.Facts.Records
import TaintFlow.Text.Name
import TaintFlow.Text.Order
import TaintFlow.Words

/-!
# Control-flow graphs

The functions of the analysed code with their basic blocks, edges and parameters.  A function can
be analysed when its graph is well formed: block ids are distinct, edges stay inside the function,
there is one entry block, every block but an exit has a successor, and every block can be reached
from the entry.

## Main definitions

* `Flow.Block`, `Flow.Function`, `Flow.Code` — blocks, functions and all functions.
* `Flow.Defect` — why a function cannot be analysed.
* `Flow.search` — the breadth-first search for the blocks that can be reached.
* `Flow.Function.reaches` — whether a non-empty path leads from one block to another.
* `Flow.Code.resolve` — the function that a call refers to.
* `Flow.Code.place` — the innermost block that holds a line.
-/

namespace TaintFlow.Flow

open Facts (Cache)

/-- A basic block; its neighbours are given by their positions in the function. -/
structure Block where
  id : Int
  type : String
  start : Int
  stop : Int
  succ : List Nat := []
  pred : List Nat := []
  deriving DecidableEq, Repr, Inhabited

/-- Whether a block is where a function starts. -/
def Block.isEntry (b : Block) : Bool :=
  b.type == "entry"

/-- Whether a function may end after a block. -/
def Block.isExit (b : Block) : Bool :=
  b.type == "exit"

/-- Whether a block holds a line. -/
def Block.holds (b : Block) (line : Int) : Bool :=
  b.start ≤ line && line ≤ b.stop

/-- Why a function cannot be analysed. -/
inductive Defect where
  | duplicateBlock (id : Int)
  | strayEdge (id : Int)
  | multipleEntries
  | noEntry
  | noSuccessor (id : Int)
  | unreachable (id : Int)
  deriving DecidableEq, Repr

/-- The wording of a defect. -/
def Defect.text : Defect → String
  | .duplicateBlock id => s!"duplicate block id {id}"
  | .strayEdge id => s!"edge {id} references block outside the function"
  | .multipleEntries => "multiple entry blocks"
  | .noEntry => "no entry block"
  | .noSuccessor id => s!"block {id} has no successor"
  | .unreachable id => s!"block {id} is unreachable from entry"

/-- A function. -/
structure Function where
  file : String
  name : String
  blocks : Array Block
  /-- The names of the parameters by position; empty where none is known. -/
  params : List String
  /-- The positions under which parameter names were recorded, the last one counting. -/
  paramPositions : List (String × Nat)
  /-- The position of the entry block, as far as it is known. -/
  entry : Option Nat
  /-- The first line of the entry block, as far as it is known. -/
  line : Int
  /-- For every block the set of blocks that a non-empty path leads to, in words. -/
  reach : Array (Array UInt64)
  defect : Option Defect
  deriving DecidableEq, Repr, Inhabited

namespace Function

/-- Whether the function can be analysed. -/
def analyzable (f : Function) : Bool :=
  f.defect.isNone

/-- Whether a non-empty path leads from block `i` to block `j`. -/
def reaches (f : Function) (i j : Nat) : Bool :=
  Words.has (f.reach.getD i #[]) j

/-- The position of a parameter by its name. -/
def paramPosition? (f : Function) (name : String) : Option Nat :=
  (f.paramPositions.reverse.find? (·.1 == name)).map (·.2)

end Function

/-- Parameters beyond this many are not tracked. -/
def maxParams : Nat := 64

/-! ### Building a function -/

/-- The rows of blocks without those whose id occurred before. -/
def distinctBlocks (rows : List Facts.BlockFact) : List Facts.BlockFact :=
  rows.foldl (fun kept r => if kept.any (·.id == r.id) then kept else kept ++ [r]) []

/-- The id of the last row that repeats an id. -/
def lastDuplicate? (seen : List Int) : List Facts.BlockFact → Option Int
  | [] => none
  | r :: rows =>
    let later := lastDuplicate? (r.id :: seen) rows
    if seen.contains r.id then later <|> some r.id else later

/-- The positions of the two ends of an edge. -/
def edgeEnds? (blocks : List Facts.BlockFact) (e : Facts.EdgeFact) : Option (Nat × Nat) := do
  let i ← blocks.findIdx? (·.id == e.source)
  let j ← blocks.findIdx? (·.id == e.target)
  return (i, j)

/-- Numbers in ascending order. -/
def ascending (l : List Nat) : List Nat :=
  sortBy compare l

/-- The blocks of a function with their neighbours. -/
def connect (rows : List Facts.BlockFact) (pairs : List (Nat × Nat)) : Array Block :=
  (rows.zipIdx.map fun (r, i) =>
    { id := r.id, type := r.type, start := r.start, stop := r.stop,
      succ := ascending (pairs.filter (·.1 == i) |>.map (·.2)),
      pred := ascending (pairs.filter (·.2 == i) |>.map (·.1)) }).toArray

/-! ### Reachable blocks -/

/-- How many successors those of the first `n` blocks have that are not met yet. -/
def unmet (blocks : Array Block) (met : Array UInt64) : Nat → Nat
  | 0 => 0
  | n + 1 =>
    unmet blocks met n + if Words.has met n then 0 else (blocks.getD n default).succ.length

/-- Meeting a block takes its successors from those to come. -/
theorem unmet_add {blocks : Array Block} (met : Words blocks.size) {i : Nat} (h : i < blocks.size)
    (hnew : Words.has met.toArray i = false) (n : Nat) :
    unmet blocks (met.add i h).toArray n + (if i < n then blocks[i].succ.length else 0) =
      unmet blocks met.toArray n := by
  induction n with
  | zero => rfl
  | succ n ih =>
    rw [unmet, unmet, Words.has_add]
    by_cases hn : n = i
    · subst hn
      simp only [Nat.lt_irrefl, if_false, Nat.add_zero] at ih
      simp [hnew, ih, Array.getD_eq_getD_getElem?, h]
    · have hbeq : (n == i) = false := beq_eq_false_iff_ne.mpr hn
      have hlt : i < n + 1 ↔ i < n := by omega
      simp only [hbeq, Bool.or_false, hlt]
      omega

/-- The breadth-first search: takes the blocks from the front of a queue, passes over those that
are met, and puts the successors of the others at its end.  A block may stand in the queue more than
once; a position without a block is passed over. -/
def search (blocks : Array Block) (met : Words blocks.size) : List Nat → Words blocks.size
  | [] => met
  | i :: queue =>
    if h : i < blocks.size then
      if Words.has met.toArray i then search blocks met queue
      else search blocks (met.add i h) (queue ++ blocks[i].succ)
    else search blocks met queue
  termination_by queue => queue.length + unmet blocks met.toArray blocks.size
  decreasing_by
  · simp only [List.length_cons]
    omega
  · next hnew =>
    have hunmet := unmet_add met h (Bool.eq_false_iff.mpr hnew) blocks.size
    rw [if_pos h] at hunmet
    simp only [List.length_append, List.length_cons]
    omega
  · simp only [List.length_cons]
    omega

/-- For every block the set of blocks that a non-empty path leads to. -/
def reachability (blocks : Array Block) : Array (Array UInt64) :=
  blocks.map fun b => (search blocks (Words.empty blocks.size) b.succ).toArray

/-! ### The checks of a graph -/

/-- What is known of the entry of a function, and what is wrong with its graph. -/
structure Check where
  entry : Option Nat := none
  line : Int := 0
  defect : Option Defect := none

/-- Checks the graph of a function. -/
def checkGraph (blocks : Array Block) (reach : Array (Array UInt64)) : Check :=
  let entries := blocks.toList.zipIdx.filter (·.1.isEntry)
  match entries with
  | [] => { defect := some .noEntry }
  | (_, i) :: _ :: _ => { entry := some i, defect := some .multipleEntries }
  | [(b, i)] =>
    let dead := blocks.toList.find? fun c => !c.isExit && c.succ.isEmpty
    let lost := blocks.toList.zipIdx.find? fun (_, j) => j != i && !Words.has (reach.getD i #[]) j
    { entry := some i, line := b.start,
      defect := match dead with
        | some c => some (.noSuccessor c.id)
        | none => lost.map fun (c, _) => .unreachable c.id }

/-- Puts a name at a position, filling up with empty names. -/
def setParam (params : List String) (i : Nat) (name : String) : List String :=
  (params ++ List.replicate (i + 1 - params.length) "").set i name

/-- The parameters of a function that are tracked, in row order. -/
def trackedParams (file name : String) (rows : List Facts.Parameter) : List (String × Nat) :=
  (rows.filter fun p => p.file == file && p.function == name && 0 ≤ p.index
    && p.index < (maxParams : Int)).map fun p => (p.name, p.index.toNat)

/-- A function from its facts. -/
def buildFunction (c : Cache) (file name : String) : Function :=
  let rows := c.blocks.filter fun b => b.file == file && b.function == name
  let distinct := distinctBlocks rows
  let edges := c.edges.filter fun e => e.file == file && e.function == name
  let blocks := connect distinct (firsts (edges.filterMap (edgeEnds? distinct)))
  let reach := reachability blocks
  let stray := edges.find? fun e => (edgeEnds? distinct e).isNone
  let early := (lastDuplicate? [] rows).map Defect.duplicateBlock
    <|> stray.map fun e => .strayEdge e.id
  let check : Check := match early with
    | some d => { defect := some d }
    | none => checkGraph blocks reach
  let params := trackedParams file name c.parameters
  { file, name, blocks, reach, entry := check.entry, line := check.line, defect := check.defect,
    params := params.foldl (fun ps (n, i) => setParam ps i n) [], paramPositions := params }

/-! ### All functions -/

/-- The functions of the analysed code, by file and name. -/
structure Code where
  functions : Array Function
  deriving Inhabited

namespace Code

/-- The files and names of all functions in ascending order. -/
def keys (c : Cache) : List (String × String) :=
  sortBy (fun a b => (compareText a.1 b.1).then (compareText a.2 b.2))
    (firsts (c.blocks.map fun b => (b.file, b.function)))

/-- The functions of a cache. -/
def ofCache (c : Cache) : Code :=
  ⟨((keys c).map fun (file, name) => buildFunction c file name).toArray⟩

/-- The function with a given file and name. -/
def find? (a : Code) (file name : String) : Option Nat :=
  a.functions.findIdx? fun f => f.file == file && f.name == name

/-- The only position whose function satisfies `p`. -/
def unique? (a : Code) (p : Function → Bool) : Option Nat :=
  match (a.functions.toList.zipIdx.filter fun (f, _) => p f) with
  | [(_, i)] => some i
  | _ => none

/-- The function of a file that a callee names, as a whole or by its last segment. -/
def inFile? (a : Code) (file name : String) : Option Nat :=
  if file.isEmpty then none
  else a.find? file name <|> a.find? file (Name.lastSegment name)

/-- The function that a call refers to: in the named file, else in the caller's file, else the
only function with that name, else the only one with its last segment. -/
def resolve (a : Code) (name calleeFile callerFile : String) : Option Nat :=
  if name.isEmpty then none
  else
    let last := Name.lastSegment name
    a.inFile? calleeFile name <|> a.inFile? callerFile name
      <|> a.unique? (·.name == name) <|> a.unique? (Name.lastSegment ·.name == last)

/-- The width of a block in lines, as a 64-bit number. -/
def width (b : Block) : Int :=
  Int.bmod (b.stop - b.start) 0x10000000000000000

/-- Whether block `b` is further inside than block `c`: neither entry nor exit, fewer lines, or a
smaller id. -/
def innerThan (b c : Block) : Bool :=
  let bEdge := b.isEntry || b.isExit
  let cEdge := c.isEntry || c.isExit
  if bEdge != cEdge then !bEdge
  else if width b != width c then width b < width c
  else b.id < c.id

/-- A block of a function by its positions. -/
structure Spot where
  function : Nat
  block : Nat
  deriving DecidableEq, Repr

/-- The blocks of a function that hold a line. -/
def spotsIn (line : Int) (i : Nat) (f : Function) : List (Spot × Block) :=
  (f.blocks.toList.zipIdx.filter fun (b, _) => b.holds line).map fun (b, j) => (⟨i, j⟩, b)

/-- The functions in which a line is looked for: the hinted one if the file has it, else all
functions of the file. -/
def candidates (a : Code) (file hint : String) : List (Nat × Function) :=
  let hinted := if hint.isEmpty then none else a.find? file hint
  match hinted.bind fun i => (a.functions[i]?).map (i, ·) with
  | some c => [c]
  | none => (a.functions.toList.zipIdx.filter fun (f, _) => f.file == file).map fun (f, i) => (i, f)

/-- The innermost of the given blocks, the first one of equals. -/
def innermost : List (Spot × Block) → Option (Spot × Block)
  | [] => none
  | x :: xs => some (xs.foldl (fun best y => if innerThan y.2 best.2 then y else best) x)

/-- The innermost block that holds a line. -/
def place (a : Code) (file : String) (line : Int) (hint : String) : Option Spot :=
  (innermost ((a.candidates file hint).flatMap fun (i, f) => spotsIn line i f)).map (·.1)

end Code

end TaintFlow.Flow
