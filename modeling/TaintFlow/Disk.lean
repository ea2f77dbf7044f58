import TaintFlow.Failure
import TaintFlow.Text.Blank

/-!
# Files

Commands read and write files through a `Disk`, so that they run on real files as well as on a
`Folder` that is a plain value.

## Main definitions

* `Disk.Trouble` — why a file cannot be used.
* `Disk` — the operations on files, in any monad.
* `Folder` — the files of a directory, by path; `Folder.disk` is its disk.
* `Disk.expandHome` — replaces a leading `~`.
-/

namespace TaintFlow

/-- Why a file cannot be used. -/
inductive Disk.Trouble where
  | absent
  | isDirectory
  | notDirectory
  /-- Any other trouble, in words. -/
  | other (text : String)
  deriving DecidableEq, Repr

/-- The words for a trouble. -/
def Disk.Trouble.text : Disk.Trouble → String
  | .absent => "no such file or directory"
  | .isDirectory => "is a directory"
  | .notDirectory => "not a directory"
  | .other text => text

/-- The operations on files. -/
structure Disk (m : Type → Type) where
  /-- The text of a file. -/
  read : String → m (Except Disk.Trouble String)
  /-- Makes a file with a text, replacing what was there. -/
  write : String → String → m (Except Disk.Trouble Unit)
  /-- Whether a path is a directory. -/
  isDirectory : String → m (Except Disk.Trouble Bool)

namespace Disk

/-- The failure of opening a file. -/
def Trouble.opening (path : String) (t : Trouble) : Failure :=
  .because ("open " ++ path ++ ": " ++ t.text)

/-- The failure of reading a whole file: a directory can be opened but not read. -/
def Trouble.reading (path : String) : Trouble → Failure
  | .isDirectory => .because ("read " ++ path ++ ": " ++ Trouble.isDirectory.text)
  | t => t.opening path

/-- The failure of looking at a file. -/
def Trouble.looking (path : String) (t : Trouble) : Failure :=
  .because ("stat " ++ path ++ ": " ++ t.text)

/-- A path with a leading `~` replaced by the home directory.  The home of another user cannot be
looked up. -/
def expandHome (home path : String) : Except Failure String :=
  match path.toList with
  | '~' :: c :: rest =>
    if c == '/' || c == '\\' then .ok (home ++ String.ofList (c :: rest))
    else failBecause "cannot expand user-specific home dir"
  | ['~'] => .ok home
  | _ => .ok path

end Disk

/-- The files of a directory: path and text. -/
structure Folder where
  files : List (String × String) := []
  deriving Repr, Inhabited, DecidableEq

namespace Folder

/-- Adds one part of a path to the parts before it, innermost first. -/
def addPart (parts : List String) (part : String) : List String :=
  if part.isEmpty || part == "." then parts
  else if part == ".." then parts.drop 1
  else part :: parts

/-- The parts of a path without empty ones, `.` and `..`. -/
def parts (path : String) : List String :=
  ((Text.split '/' path).foldl addPart []).reverse

/-- What stands at a path. -/
inductive Entry where
  | file (text : String)
  | directory
  /-- Nothing, because a part on the way is a file. -/
  | beyondFile
  | nothing
  deriving DecidableEq, Repr

/-- What stands at a path. -/
def entry (f : Folder) (path : String) : Entry :=
  let ps := parts path
  if path.isEmpty then .nothing
  else match f.files.find? (fun x => parts x.1 == ps) with
  | some (_, text) => if Text.endsWith path "/" then .beyondFile else .file text
  | none =>
    if ps.isEmpty || f.files.any (fun x => ps.isPrefixOf (parts x.1)) then .directory
    else if f.files.any (fun x => (parts x.1).isPrefixOf ps) then .beyondFile
    else .nothing

/-- The text of a file. -/
def read (f : Folder) (path : String) : Except Disk.Trouble String :=
  match f.entry path with
  | .file text => .ok text
  | .directory => .error .isDirectory
  | .beyondFile => .error .notDirectory
  | .nothing => .error .absent

/-- Puts a text at a path, in place of the text there or at the end. -/
def put (path text : String) : List (String × String) → List (String × String)
  | [] => [(path, text)]
  | x :: rest =>
    if parts x.1 == parts path then (x.1, text) :: rest else x :: put path text rest

/-- Makes a file; its directory must exist. -/
def write (f : Folder) (path text : String) : Except Disk.Trouble Folder :=
  match f.entry path with
  | .file _ => .ok ⟨put path text f.files⟩
  | .directory => .error .isDirectory
  | .beyondFile => .error .notDirectory
  | .nothing =>
    if f.entry ("/".intercalate ("." :: (parts path).dropLast)) == .directory && !path.isEmpty then
      .ok ⟨put ("/".intercalate (parts path)) text f.files⟩
    else .error .absent

/-- Makes a file and the directories on its way. -/
def writeDeep (f : Folder) (path text : String) : Folder :=
  ⟨put path text f.files⟩

/-- The folder as a disk. -/
def disk : Disk (StateM Folder) where
  read path := do return (← get).read path
  write path text := do
    match (← get).write path text with
    | .ok f => set f; return .ok ()
    | .error t => return .error t
  isDirectory path := do
    match (← get).read path with
    | .ok _ => return .ok false
    | .error .isDirectory => return .ok true
    | .error t => return .error t

end Folder

end TaintFlow
