import TaintFlow.Json.Basic
import TaintFlow.Text.Bytes

/-!
# Reading JSON

A text is cut into tokens, and a machine with a stack of open containers consumes one token per
step until the first value is complete.  What follows that value is for the caller to judge.

## Main definitions

* `Json.tokens` — the tokens of a text; the list ends at the first malformed one.
* `Json.Reading` — the machine's state.
* `Json.parseFirst?` — the first value of a text; what follows it is ignored.
* `Json.parse?` — the value of a text that holds nothing else.
-/

namespace TaintFlow.Json

/-- A token. -/
inductive Token where
  | beginObject
  | endObject
  | beginArray
  | endArray
  | colon
  | comma
  /-- A string, a number or one of the three words. -/
  | scalar (v : Json)
  /-- Text that starts no token. -/
  | malformed
  deriving Inhabited

/-- The four white-space characters of the format. -/
def isSpace (c : Char) : Bool :=
  c == ' ' || c == '\n' || c == '\t' || c == '\r'

/-- The characters that numbers are made of. -/
def isNumeric (c : Char) : Bool :=
  c.isDigit || c == '-' || c == '+' || c == '.' || c == 'e' || c == 'E'

/-- The value of four hexadecimal digits. -/
def unit? (a b c d : Char) : Option Nat := do
  let w ← Text.hexValue? a
  let x ← Text.hexValue? b
  let y ← Text.hexValue? c
  let z ← Text.hexValue? d
  return ((w * 16 + x) * 16 + y) * 16 + z

/-- The characters of a list of code units; a surrogate without its partner is U+FFFD. -/
def joinUnits : List Nat → List Char
  | [] => []
  | h :: rest =>
    if 0xD800 ≤ h && h < 0xDC00 then
      match rest with
      | l :: more =>
        if 0xDC00 ≤ l && l < 0xE000 then
          Char.ofNat (0x10000 + (h - 0xD800) * 1024 + (l - 0xDC00)) :: joinUnits more
        else '\uFFFD' :: joinUnits (l :: more)
      | [] => ['\uFFFD']
    else if 0xDC00 ≤ h && h < 0xE000 then '\uFFFD' :: joinUnits rest
    else Char.ofNat h :: joinUnits rest

/-- The character that a one-letter escape stands for. -/
def escape? : Char → Option Char
  | '"' => some '"'
  | '\\' => some '\\'
  | '/' => some '/'
  | 'b' => some '\x08'
  | 'f' => some '\x0c'
  | 'n' => some '\n'
  | 'r' => some '\r'
  | 't' => some '\t'
  | _ => none

/-- The code units of a string up to its closing quote, newest first, and the text after it.
Control characters are refused as long as no escape has been met. -/
def stringUnits (escaped : Bool) (acc : List Nat) : List Char → Option (List Nat × List Char)
  | [] => none
  | '"' :: rest => some (acc, rest)
  | '\\' :: 'u' :: a :: b :: c :: d :: rest =>
    match unit? a b c d with
    | some n => stringUnits true (n :: acc) rest
    | none => none
  | '\\' :: e :: rest =>
    match escape? e with
    | some c => stringUnits true (c.toNat :: acc) rest
    | none => none
  | c :: rest =>
    if c == '\\' || (!escaped && c.toNat < 0x20) then none
    else stringUnits escaped (c.toNat :: acc) rest

/-- Reads a word that must stand at the front. -/
def word (w : String) (v : Json) (cs : List Char) : Token × List Char :=
  if w.toList.isPrefixOf cs then (.scalar v, cs.drop w.length) else (.malformed, [])

/-- The token at the front of `c :: cs`, where `c` is no white space, and the text after it. -/
def nextToken (c : Char) (cs : List Char) : Token × List Char :=
  if c == '\x7b' then (.beginObject, cs)
  else if c == '\x7d' then (.endObject, cs)
  else if c == '[' then (.beginArray, cs)
  else if c == ']' then (.endArray, cs)
  else if c == ':' then (.colon, cs)
  else if c == ',' then (.comma, cs)
  else if c == '"' then
    match stringUnits false [] cs with
    | some (units, rest) =>
      (.scalar (.str (String.ofList (joinUnits units.reverse))), rest)
    | none => (.malformed, [])
  else if c == '-' || c.isDigit then
    (.scalar (.num (String.ofList (c :: cs.takeWhile isNumeric))), cs.dropWhile isNumeric)
  else if c == 'n' then word "ull" .null cs
  else if c == 't' then word "rue" (.bool true) cs
  else if c == 'f' then word "alse" (.bool false) cs
  else (.malformed, [])

theorem length_dropWhile_le {α : Type} (p : α → Bool) (l : List α) :
    (l.dropWhile p).length ≤ l.length :=
  (List.dropWhile_sublist p).length_le

theorem stringUnits_length {escaped : Bool} {acc : List Nat} {cs : List Char}
    {r : List Nat × List Char} (h : stringUnits escaped acc cs = some r) :
    r.2.length ≤ cs.length := by
  fun_induction stringUnits escaped acc cs with
  | case1 => simp at h
  | case2 => simp at h; subst h; simp
  | case3 _ _ _ _ _ _ _ _ _ ih => have := ih h; simp; omega
  | case4 => simp at h
  | case5 _ _ _ _ _ _ _ ih => have := ih h; simp; omega
  | case6 => simp at h
  | case7 => simp at h
  | case8 _ _ _ _ _ _ _ _ ih => have := ih h; simp; omega

theorem word_length (w : String) (v : Json) (cs : List Char) :
    (word w v cs).2.length ≤ cs.length := by
  unfold word; split <;> simp

theorem nextToken_length (c : Char) (cs : List Char) :
    (nextToken c cs).2.length ≤ cs.length := by
  unfold nextToken
  repeat' split
  all_goals first
    | exact Nat.le_refl _
    | exact word_length _ _ _
    | exact length_dropWhile_le _ _
    | exact Nat.zero_le _
    | (rename_i h; exact stringUnits_length h)

/-- The tokens of a text; the list ends at the first malformed one. -/
def tokens (cs : List Char) : List Token :=
  match cs with
  | [] => []
  | c :: rest =>
    if isSpace c then tokens rest
    else (nextToken c rest).1 :: tokens (nextToken c rest).2
termination_by cs.length
decreasing_by
  · simp
  · have := nextToken_length c rest; simp; omega

/-- A container that has been opened: what it holds so far, newest first. -/
inductive Open where
  | array (done : List Json)
  /-- `key` awaits its value. -/
  | object (done : List (String × Json)) (key : String)

/-- What the machine waits for. -/
inductive Reading where
  /-- A value, for the innermost container or on its own. -/
  | value (stack : List Open)
  /-- The first item of an array, or its end. -/
  | item (stack : List Open)
  /-- The first key of an object, or its end. -/
  | key (stack : List Open)
  /-- A key, after a comma. -/
  | nextKey (done : List (String × Json)) (stack : List Open)
  /-- The colon after a key. -/
  | colon (done : List (String × Json)) (key : String) (stack : List Open)
  /-- A comma or the end of the innermost container, after a value. -/
  | separator (v : Json) (o : Open) (stack : List Open)
  /-- The first value is complete. -/
  | complete (v : Json)
  /-- The text is malformed. -/
  | failed

/-- A value is complete: it stands alone, or the innermost container goes on. -/
def Reading.close (v : Json) : List Open → Reading
  | [] => .complete v
  | o :: stack => .separator v o stack

/-- A token where a value is expected. -/
def Reading.begin (stack : List Open) : Token → Reading
  | .beginObject => .key stack
  | .beginArray => .item stack
  | .scalar v => .close v stack
  | _ => .failed

/-- One step of the machine. -/
def Reading.step (r : Reading) (t : Token) : Reading :=
  match r with
  | .value stack => .begin stack t
  | .item stack =>
    match t with
    | .endArray => .close (.arr []) stack
    | t => .begin (.array [] :: stack) t
  | .key stack =>
    match t with
    | .endObject => .close (.obj []) stack
    | .scalar (.str k) => .colon [] k stack
    | _ => .failed
  | .nextKey done stack =>
    match t with
    | .scalar (.str k) => .colon done k stack
    | _ => .failed
  | .colon done k stack =>
    match t with
    | .colon => .value (.object done k :: stack)
    | _ => .failed
  | .separator v (.array done) stack =>
    match t with
    | .comma => .value (.array (v :: done) :: stack)
    | .endArray => .close (.arr (v :: done).reverse) stack
    | _ => .failed
  | .separator v (.object done k) stack =>
    match t with
    | .comma => .nextKey ((k, v) :: done) stack
    | .endObject => .close (.obj (lastWins ((k, v) :: done).reverse)) stack
    | _ => .failed
  | .complete v => .complete v
  | .failed => .failed

/-- Runs the machine until the first value is complete; gives that value and the tokens left. -/
def Reading.run (r : Reading) : List Token → Option (Json × List Token)
  | [] =>
    match r with
    | .complete v => some (v, [])
    | _ => none
  | t :: ts =>
    match r with
    | .complete v => some (v, t :: ts)
    | .failed => none
    | r => (r.step t).run ts

/-- The first value of a text; what follows it is ignored. -/
def parseFirst? (s : String) : Option Json :=
  ((Reading.value []).run (tokens s.toList)).map (·.1)

/-- The value of a text that holds nothing else. -/
def parse? (s : String) : Option Json :=
  match (Reading.value []).run (tokens s.toList) with
  | some (v, []) => some v
  | _ => none

end TaintFlow.Json
