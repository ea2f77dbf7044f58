import TaintFlow.Number.Duration
import TaintFlow.Number.Numeral
import TaintFlow.Text.Quoted

/-!
# Flags

A command takes flags and arguments in any order.  A flag has a long name and perhaps a letter.
Its value follows it after an equals sign or as the next argument; a letter's value may also follow
at once.  A switch needs no value, so several of them can share one dash.  After `--` there are
arguments only.

## Main definitions

* `Flag` — a flag that a command knows.
* `Given` — a value that was given.
* `FlagError` — why a command line cannot be read; `FlagError.text` is its wording.
* `parseFlags` — the flags and the arguments of a command line.
-/

namespace TaintFlow.Command

/-- The kinds of values that flags take. -/
inductive FlagKind where
  | text
  | int
  | duration
  /-- True or false; given without a value it is true. -/
  | switch
  deriving DecidableEq, Repr

/-- A flag that a command knows. -/
structure Flag where
  name : String
  letter : Option Char := none
  kind : FlagKind := .text
  /-- The value of a flag that is not given, as help shows it. -/
  initial : String := ""
  usage : String := ""
  deriving DecidableEq, Repr

/-- A value that was given for a flag. -/
inductive Given where
  | text (s : String)
  | int (n : Int)
  | duration (d : Duration)
  | switch (b : Bool)
  deriving DecidableEq, Repr

/-- Why a command line cannot be read. -/
inductive FlagError where
  | malformed (argument : String)
  | unknown (name : String)
  | unknownLetter (letters : String)
  | noValue (name : String)
  | noLetterValue (letters : String)
  | badValue (flag : Flag) (value problem : String)
  deriving DecidableEq, Repr

/-- The first byte of a text as a quoted character. -/
def quotedFirst (s : String) : String :=
  match Text.bytes s with
  | b :: _ =>
    let c := Char.ofNat b.toNat
    "'" ++ (if c == '"' then "\"" else if c == '\'' then "\\'" else Text.quotedChar c) ++ "'"
  | [] => "''"

/-- A flag as messages name it. -/
def Flag.shown (f : Flag) : String :=
  match f.letter with
  | some c => "-" ++ String.singleton c ++ ", --" ++ f.name
  | none => "--" ++ f.name

/-- The wording of an error. -/
def FlagError.text : FlagError → String
  | .malformed argument => "bad flag syntax: " ++ argument
  | .unknown name => "unknown flag: --" ++ name
  | .unknownLetter letters =>
    "unknown shorthand flag: " ++ quotedFirst letters ++ " in -" ++ letters
  | .noValue name => "flag needs an argument: --" ++ name
  | .noLetterValue letters =>
    "flag needs an argument: " ++ quotedFirst letters ++ " in -" ++ letters
  | .badValue flag value problem =>
    "invalid argument " ++ Text.quoted value ++ " for " ++ Text.quoted flag.shown ++ " flag: "
      ++ problem

/-- What is wrong with a numeral. -/
def numeralProblem (reader value problem : String) : String :=
  reader ++ ": parsing " ++ Text.quoted value ++ ": " ++ problem

/-- The value that a text gives to a flag. -/
def Flag.read (f : Flag) (value : String) : Except FlagError Given :=
  let bad (problem : String) : Except FlagError Given := .error (.badValue f value problem)
  match f.kind with
  | .text => .ok (.text value)
  | .int =>
    match Numeral.general value with
    | .value n => .ok (.int n)
    | .outOfRange _ => bad (numeralProblem "strconv.ParseInt" value "value out of range")
    | .malformed => bad (numeralProblem "strconv.ParseInt" value "invalid syntax")
  | .duration =>
    match Duration.read value with
    | .ok d => .ok (.duration d)
    | .error m => bad m.text
  | .switch =>
    match Numeral.truth? value with
    | some b => .ok (.switch b)
    | none => bad (numeralProblem "strconv.ParseBool" value "invalid syntax")

/-- The flag with a given name. -/
def named? (flags : List Flag) (name : String) : Option Flag :=
  flags.find? (·.name == name)

/-- The flag with a given letter. -/
def lettered? (flags : List Flag) (c : Char) : Option Flag :=
  flags.find? (·.letter == some c)

/-- The flags of a command line as they were given, and its arguments. -/
structure Parsed where
  given : List (String × Given) := []
  args : List String := []
  deriving DecidableEq, Repr

/-- Flags that one argument gives, and whether the next argument is the value of the last one. -/
abbrev Step := List (String × Given) × Bool

/-- A flag with a value. -/
def Flag.give (f : Flag) (value : String) : Except FlagError (String × Given) :=
  (f.read value).map (f.name, ·)

/-- The flag that an argument with a long name gives; `body` follows the dashes. -/
def longFlag (flags : List Flag) (argument : String) (body : List Char) (next : Option String) :
    Except FlagError Step :=
  match body with
  | [] => .error (.malformed argument)
  | c :: _ =>
    if c == '-' || c == '=' then .error (.malformed argument)
    else
      let name := String.ofList (body.takeWhile (· != '='))
      match named? flags name, body.dropWhile (· != '='), next with
      | none, _, _ => .error (.unknown name)
      | some f, _ :: value, _ => do return ([← f.give (String.ofList value)], false)
      | some f, [], next =>
        if f.kind == .switch then do return ([← f.give "true"], false)
        else match next with
          | some value => do return ([← f.give value], true)
          | none => .error (.noValue name)

/-- The flags that an argument with letters gives. -/
def letterFlags (flags : List Flag) (next : Option String) : List Char → Except FlagError Step
  | [] => .ok ([], false)
  | c :: cs =>
    if "test.".toList.isPrefixOf (c :: cs) then .ok ([], false)
    else match lettered? flags c with
      | none => .error (.unknownLetter (String.ofList (c :: cs)))
      | some f =>
        match cs with
        | '=' :: v :: more => do return ([← f.give (String.ofList (v :: more))], false)
        | cs =>
          if f.kind == .switch then do
            let first ← f.give "true"
            let (rest, taken) ← letterFlags flags next cs
            return (first :: rest, taken)
          else if !cs.isEmpty then do return ([← f.give (String.ofList cs)], false)
          else match next with
            | some value => do return ([← f.give value], true)
            | none => .error (.noLetterValue (String.ofList (c :: cs)))

/-- What an argument is. -/
inductive Argument where
  | plain
  /-- The mark after which there are arguments only. -/
  | mark
  | long (body : List Char)
  | letters (body : List Char)
  deriving DecidableEq, Repr

/-- What an argument is; a single dash is a plain one. -/
def Argument.of (s : String) : Argument :=
  match s.toList with
  | ['-', '-'] => .mark
  | '-' :: '-' :: body => .long body
  | '-' :: c :: body => .letters (c :: body)
  | _ => .plain

/-- The flags and the arguments of a command line. -/
def parseFlags (flags : List Flag) : List String → Except FlagError Parsed
  | [] => .ok {}
  | s :: rest => do
    match Argument.of s with
    | .plain =>
      let p ← parseFlags flags rest
      return { p with args := s :: p.args }
    | .mark => return { args := rest }
    | .long body =>
      let (given, taken) ← longFlag flags s body rest.head?
      let p ← parseFlags flags (if taken then rest.tail else rest)
      return { p with given := given ++ p.given }
    | .letters body =>
      let (given, taken) ← letterFlags flags rest.head? body
      let p ← parseFlags flags (if taken then rest.tail else rest)
      return { p with given := given ++ p.given }
termination_by args => args.length
decreasing_by all_goals (simp; try split <;> (simp; try omega))

namespace Parsed

/-- The last value given for a flag. -/
def last? (p : Parsed) (name : String) : Option Given :=
  (p.given.reverse.find? (·.1 == name)).map (·.2)

/-- The text given for a flag, or the one it has otherwise. -/
def textOr (p : Parsed) (name otherwise : String) : String :=
  match p.last? name with
  | some (.text s) => s
  | _ => otherwise

/-- Whether a switch is on. -/
def isOn (p : Parsed) (name : String) : Bool :=
  p.last? name == some (.switch true)

end Parsed

end TaintFlow.Command
