/-!
# White space

The characters with the white-space property, and trimming them off both ends of a text.
-/

namespace TaintFlow.Text

/-- The white-space characters: the ASCII ones, the next-line and no-break spaces, and the
spaces and separators of the general punctuation block. -/
def isBlank (c : Char) : Bool :=
  let n := c.toNat
  (0x09 ≤ n && n ≤ 0x0D) || n == 0x20 || n == 0x85 || n == 0xA0 || n == 0x1680
    || (0x2000 ≤ n && n ≤ 0x200A) || n == 0x2028 || n == 0x2029 || n == 0x202F
    || n == 0x205F || n == 0x3000

/-- Drops the elements at the end of a list that satisfy `p`. -/
def dropEndWhile {α : Type} (p : α → Bool) (l : List α) : List α :=
  (l.reverse.dropWhile p).reverse

/-- A list without the blanks at its two ends. -/
def trimChars (cs : List Char) : List Char :=
  dropEndWhile isBlank (cs.dropWhile isBlank)

/-- A text without the white space at its two ends. -/
def trim (s : String) : String :=
  String.ofList (trimChars s.toList)

/-- Whether `needle` stands somewhere in a list. -/
def containsList {α : Type} [BEq α] (needle : List α) : List α → Bool
  | [] => needle.isEmpty
  | c :: cs => needle.isPrefixOf (c :: cs) || containsList needle cs

/-- Whether `needle` stands somewhere in `s`. -/
def contains (s needle : String) : Bool :=
  containsList needle.toList s.toList

/-- Whether `s` begins with `start`. -/
def startsWith (s start : String) : Bool :=
  start.toList.isPrefixOf s.toList

/-- Whether `s` ends with `tail`. -/
def endsWith (s tail : String) : Bool :=
  tail.toList.isSuffixOf s.toList

/-- A list cut at every element that equals `sep`; there is always at least one piece. -/
def splitList {α : Type} [BEq α] (sep : α) : List α → List (List α)
  | [] => [[]]
  | c :: cs =>
    if c == sep then [] :: splitList sep cs
    else match splitList sep cs with
      | [] => [[c]]
      | piece :: pieces => (c :: piece) :: pieces

/-- A text cut at every `sep`. -/
def split (sep : Char) (s : String) : List String :=
  (splitList sep s.toList).map String.ofList

/-- The texts one after another, with `sep` between neighbours. -/
def join (sep : String) (parts : List String) : String :=
  sep.intercalate parts

/-- `n` copies of a text. -/
def times (n : Nat) (s : String) : String :=
  String.join (List.replicate n s)

/-- A text filled up with blanks on its right to `width` characters. -/
def padRight (width : Nat) (s : String) : String :=
  s ++ String.ofList (List.replicate (width - s.length) ' ')

/-- The texts before and after the first `sep`. -/
def cut? (sep : Char) (s : String) : Option (String × String) :=
  let cs := s.toList
  match cs.dropWhile (· != sep) with
  | [] => none
  | _ :: after => some (String.ofList (cs.takeWhile (· != sep)), String.ofList after)

end TaintFlow.Text
