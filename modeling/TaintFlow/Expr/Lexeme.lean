import TaintFlow.Text.Bytes

/-!
# Lexemes of an expression

An expression is source text of some programming language.  It is cut into lexemes: names, numbers,
single marks and the text of literals.  The inside of a substitution — `${ … }` in a template
literal, `{ … }` in a formatted literal — is code again, so the lexer keeps a stack of the
substitutions that are open.

## Main definitions

* `Frame` — a substitution that is open, with the brackets open inside it.
* `templateText`, `formatText`, `quotedText` — where the text of a literal stops.
* `brace` — what a byte does to the innermost substitution.
* `lexemes` — the lexemes of a text.  Their bytes, one after another, are the text.

A name is read either as a whole chain such as `req.body.id` or as one run of identifier bytes;
`Grain` says which.
-/

namespace TaintFlow.Expr

open TaintFlow.Text

/-! ### Bytes -/

abbrev doubleQuote : UInt8 := 0x22
abbrev dollar : UInt8 := 0x24
abbrev singleQuote : UInt8 := 0x27
abbrev openParen : UInt8 := 0x28
abbrev closeParen : UInt8 := 0x29
abbrev hyphen : UInt8 := 0x2D
abbrev point : UInt8 := 0x2E
abbrev colon : UInt8 := 0x3A
abbrev equals : UInt8 := 0x3D
abbrev greater : UInt8 := 0x3E
abbrev question : UInt8 := 0x3F
abbrev bang : UInt8 := 0x21
abbrev openSquare : UInt8 := 0x5B
abbrev backslash : UInt8 := 0x5C
abbrev closeSquare : UInt8 := 0x5D
abbrev backquote : UInt8 := 0x60
abbrev openBrace : UInt8 := 0x7B
abbrev closeBrace : UInt8 := 0x7D
abbrev space : UInt8 := 0x20
abbrev tab : UInt8 := 0x09

/-- The bytes that an identifier may begin with: letters, `_` and `$`. -/
def isIdentStart (c : UInt8) : Bool :=
  c == 0x5F || c == dollar || (0x61 ≤ c && c ≤ 0x7A) || (0x41 ≤ c && c ≤ 0x5A)

/-- A decimal digit. -/
def isDigit (c : UInt8) : Bool :=
  0x30 ≤ c && c ≤ 0x39

/-- The bytes that an identifier is made of. -/
def isIdentPart (c : UInt8) : Bool :=
  isIdentStart c || isDigit c

/-- A quote that opens and closes literals. -/
def isQuote (c : UInt8) : Bool :=
  c == doubleQuote || c == singleQuote

/-- The letters `f` and `F`, which mark a literal with substitutions. -/
def isFormatMark (c : UInt8) : Bool :=
  c == 0x66 || c == 0x46

/-- The letters that may stand before the opening quote of a literal: `f`, `r`, `b`, `u` and
their capitals. -/
def isLiteralMark (c : UInt8) : Bool :=
  isFormatMark c || c == 0x72 || c == 0x52 || c == 0x62 || c == 0x42 || c == 0x75 || c == 0x55

/-! ### Literals -/

/-- A substitution that is open. -/
inductive Frame where
  /-- `${ … }` in a template literal, with the number of braces open inside. -/
  | template (depth : Nat)
  /-- `{ … }` in a formatted literal closed by `quote`, with the number of brackets open
  inside. -/
  | field (quote : List UInt8) (depth : Nat)
  deriving DecidableEq, Repr

/-- Where the lexer stands: the open substitutions, innermost first, and the text ahead. -/
structure Place where
  frames : List Frame
  rest : List UInt8
  deriving DecidableEq, Repr

/-- What follows the text of a plain literal and its closing quote.  A backslash keeps the next
byte from closing the literal. -/
def quotedText (quote : List UInt8) : List UInt8 → List UInt8
  | [] => []
  | c :: cs =>
    if c == backslash then
      match cs with
      | [] => []
      | _ :: cs' => quotedText quote cs'
    else if quote.isPrefixOf (c :: cs) then (c :: cs).drop quote.length
    else quotedText quote cs

/-- Reads the text of a template literal up to its closing backquote or to the opening of a
substitution. -/
def templateText (frames : List Frame) : List UInt8 → Place
  | [] => ⟨frames, []⟩
  | c :: cs =>
    if c == backslash then
      match cs with
      | [] => ⟨frames, []⟩
      | _ :: cs' => templateText frames cs'
    else if c == backquote then ⟨frames, cs⟩
    else if c == dollar && cs.head? == some openBrace then ⟨.template 0 :: frames, cs.tail⟩
    else templateText frames cs

/-- Reads the text of a formatted literal up to its closing quote or to the opening of a
substitution.  A doubled brace is text. -/
def formatText (quote : List UInt8) (frames : List Frame) : List UInt8 → Place
  | [] => ⟨frames, []⟩
  | c :: cs =>
    if c == backslash then
      match cs with
      | [] => ⟨frames, []⟩
      | _ :: cs' => formatText quote frames cs'
    else if quote.isPrefixOf (c :: cs) then ⟨frames, (c :: cs).drop quote.length⟩
    else if (c == openBrace || c == closeBrace) && cs.head? == some c then
      match cs with
      | [] => ⟨frames, []⟩
      | _ :: cs' => formatText quote frames cs'
    else if c == openBrace then ⟨.field quote 0 :: frames, cs⟩
    else formatText quote frames cs

/-- Skips a conversion or a format specification up to the brace that closes its substitution,
then reads on in the text of the literal.  `depth` counts the braces open in the
specification. -/
def formatSpec (quote : List UInt8) (frames : List Frame) (depth : Nat) : List UInt8 → Place
  | [] => ⟨frames, []⟩
  | c :: cs =>
    if c == openBrace then formatSpec quote frames (depth + 1) cs
    else if c == closeBrace then
      match depth with
      | 0 => formatText quote frames cs
      | d + 1 => formatSpec quote frames d cs
    else formatSpec quote frames depth cs

/-- The quote of a literal that starts with a quote: three in a row, or one. -/
def delimiter : List UInt8 → List UInt8
  | a :: b :: c :: _ => if a == b && b == c then [a, b, c] else [a]
  | a :: _ => [a]
  | [] => []

/-- The opening of a quoted literal: whether it has substitutions, and the text from its quote
on.  At most two letters may stand before the quote. -/
def opening? : List UInt8 → Option (Bool × List UInt8)
  | [] => none
  | a :: as =>
    if isQuote a then some (false, a :: as)
    else if isLiteralMark a then
      match as with
      | [] => none
      | b :: bs =>
        if isQuote b then some (isFormatMark a, b :: bs)
        else if isLiteralMark b then
          match bs with
          | [] => none
          | c :: cs =>
            if isQuote c then some (isFormatMark a || isFormatMark b, c :: cs) else none
        else none
    else none

/-- Reads a literal that starts here, up to its end or to its first substitution. -/
def literal? (frames : List Frame) (c : UInt8) (cs : List UInt8) : Option Place :=
  if c == backquote then some (templateText frames cs)
  else
    match opening? (c :: cs) with
    | none => none
    | some (formatted, quoted) =>
      let quote := delimiter quoted
      let body := quoted.drop quote.length
      some (if formatted then formatText quote frames body else ⟨frames, quotedText quote body⟩)

/-! ### Substitutions -/

/-- What a byte of code does to the open substitutions. -/
inductive Brace where
  /-- It is an ordinary byte; the brackets open in the innermost substitution are counted. -/
  | inside (frames : List Frame)
  /-- It ends the innermost substitution, or starts the conversion that ends it, and the text of
  the literal goes on. -/
  | resumed (place : Place)
  deriving DecidableEq, Repr

/-- What the byte `c`, followed by `cs`, does to the open substitutions. -/
def brace (frames : List Frame) (c : UInt8) (cs : List UInt8) : Brace :=
  match frames with
  | [] => .inside []
  | .template depth :: outer =>
    if c == openBrace then .inside (.template (depth + 1) :: outer)
    else if c == closeBrace then
      match depth with
      | 0 => .resumed (templateText outer cs)
      | d + 1 => .inside (.template d :: outer)
    else .inside (.template depth :: outer)
  | .field quote depth :: outer =>
    if c == openParen || c == openSquare || c == openBrace then
      .inside (.field quote (depth + 1) :: outer)
    else if c == closeParen || c == closeSquare then
      .inside (.field quote (depth - 1) :: outer)
    else if c == closeBrace then
      match depth with
      | 0 => .resumed (formatText quote outer cs)
      | d + 1 => .inside (.field quote d :: outer)
    else if depth == 0 && (c == colon
        || (c == bang && (cs.head?.map (· != equals)).getD false)) then
      .resumed (formatSpec quote outer 0 (c :: cs))
    else .inside (.field quote depth :: outer)

/-! ### Names -/

/-- Whether a text begins like an identifier. -/
def startsIdent : List UInt8 → Bool
  | c :: _ => isIdentStart c
  | [] => false

/-- What follows a chain of identifiers joined by `.`, `?.` or `->`.  A connector belongs to the
chain only if an identifier follows it. -/
def chainEnd : List UInt8 → List UInt8
  | [] => []
  | c :: cs =>
    if isIdentPart c then chainEnd cs
    else if c == point && startsIdent cs then chainEnd cs
    else if ((c == question && cs.head? == some point)
        || (c == hyphen && cs.head? == some greater)) && startsIdent cs.tail then
      match cs with
      | [] => []
      | _ :: cs' => chainEnd cs'
    else c :: cs

/-- How far a name reaches. -/
inductive Grain where
  /-- Over a whole chain of identifiers. -/
  | chain
  /-- Over one run of identifier bytes. -/
  | word
  deriving DecidableEq, Repr

/-- What follows the name at the front of a text. -/
def nameEnd : Grain → List UInt8 → List UInt8
  | .chain, cs => chainEnd cs
  | .word, cs => cs.dropWhile isIdentPart

/-! ### Lexemes -/

/-- What a lexeme is. -/
inductive LexemeKind where
  /-- A name. -/
  | name
  /-- A run of identifier bytes that begins with a digit. -/
  | number
  /-- Text of a literal, its delimiters included. -/
  | literal
  /-- Any other single byte. -/
  | mark
  deriving DecidableEq, Repr

/-- A piece of an expression. -/
structure Lexeme where
  kind : LexemeKind
  bytes : List UInt8
  deriving DecidableEq, Repr

/-- The kind of the lexeme at the front of `c :: cs` and where the lexer stands after it. -/
def next (g : Grain) (frames : List Frame) (c : UInt8) (cs : List UInt8) : LexemeKind × Place :=
  match literal? frames c cs with
  | some place => (.literal, place)
  | none =>
    match brace frames c cs with
    | .resumed place => (.literal, place)
    | .inside frames =>
      if isIdentStart c then (.name, ⟨frames, nameEnd g (c :: cs)⟩)
      else if isDigit c then (.number, ⟨frames, cs.dropWhile isIdentPart⟩)
      else (.mark, ⟨frames, cs⟩)

/-! ### Every step moves forward -/

theorem quotedText_length (quote cs : List UInt8) :
    (quotedText quote cs).length ≤ cs.length := by
  fun_induction quotedText quote cs <;> simp_all <;> omega

theorem templateText_length (frames : List Frame) (cs : List UInt8) :
    (templateText frames cs).rest.length ≤ cs.length := by
  fun_induction templateText frames cs <;> simp_all <;> omega

theorem formatText_length (quote : List UInt8) (frames : List Frame) (cs : List UInt8) :
    (formatText quote frames cs).rest.length ≤ cs.length := by
  fun_induction formatText quote frames cs <;> simp_all <;> omega

theorem formatSpec_length (quote : List UInt8) (frames : List Frame) (depth : Nat)
    (cs : List UInt8) : (formatSpec quote frames depth cs).rest.length ≤ cs.length := by
  fun_induction formatSpec quote frames depth cs with
  | case1 => simp
  | case2 _ _ _ _ ih => simp; omega
  | case3 c cs _ _ => have := formatText_length quote frames cs; simp; omega
  | case4 _ _ _ _ _ ih => simp; omega
  | case5 _ _ _ _ _ ih => simp; omega

theorem chainEnd_length (cs : List UInt8) : (chainEnd cs).length ≤ cs.length := by
  fun_induction chainEnd cs <;> simp_all <;> omega

theorem opening?_length {cs quoted : List UInt8} {f : Bool} (h : opening? cs = some (f, quoted)) :
    quoted.length ≤ cs.length ∧ quoted ≠ [] := by
  unfold opening? at h
  repeat' split at h
  all_goals simp_all
  all_goals (obtain ⟨_, rfl⟩ := h; simp)

theorem delimiter_length {quoted : List UInt8} (h : quoted ≠ []) :
    0 < (delimiter quoted).length := by
  unfold delimiter
  repeat' split
  all_goals simp_all

theorem literal?_length {frames : List Frame} {c : UInt8} {cs : List UInt8} {place : Place}
    (h : literal? frames c cs = some place) : place.rest.length ≤ cs.length := by
  unfold literal? at h
  split at h
  · obtain rfl := Option.some.inj h
    exact templateText_length frames cs
  · split at h
    · simp at h
    · next formatted quoted heq =>
      have hq := opening?_length heq
      have hd := delimiter_length hq.2
      have hf := formatText_length (delimiter quoted) frames
        (quoted.drop (delimiter quoted).length)
      have ht := quotedText_length (delimiter quoted) (quoted.drop (delimiter quoted).length)
      simp only [List.length_drop, List.length_cons] at hq hf ht
      obtain rfl := Option.some.inj h
      split
      · omega
      · dsimp only; omega

theorem brace_length {frames : List Frame} {c : UInt8} {cs : List UInt8} {place : Place}
    (h : brace frames c cs = .resumed place) : place.rest.length ≤ cs.length := by
  unfold brace at h
  repeat' split at h
  all_goals (try (simp at h; done))
  · obtain rfl := Brace.resumed.inj h
    exact templateText_length _ cs
  · obtain rfl := Brace.resumed.inj h
    exact formatText_length _ _ cs
  · next hnp _ hc _ =>
    obtain rfl := Brace.resumed.inj h
    simp only [formatSpec]
    split
    · simp_all
    · exact formatSpec_length _ _ _ cs

theorem nameEnd_length (g : Grain) (c : UInt8) (cs : List UInt8) (h : isIdentStart c = true) :
    (nameEnd g (c :: cs)).length ≤ cs.length := by
  have hp : isIdentPart c = true := by simp [isIdentPart, h]
  cases g with
  | chain =>
    rw [nameEnd, chainEnd.eq_def]
    simpa [hp] using chainEnd_length cs
  | word => simpa [nameEnd, hp] using (List.dropWhile_sublist isIdentPart).length_le

theorem next_length (g : Grain) (frames : List Frame) (c : UInt8) (cs : List UInt8) :
    (next g frames c cs).2.rest.length ≤ cs.length := by
  unfold next
  split
  · next h => exact literal?_length h
  · split
    · next h => exact brace_length h
    · split
      · next h => exact nameEnd_length g c cs h
      · split
        · exact (List.dropWhile_sublist isIdentPart).length_le
        · exact Nat.le_refl _

/-- The lexemes of a text, with `frames` open in front of it. -/
def lexemes (g : Grain) (frames : List Frame) (cs : List UInt8) : List Lexeme :=
  match cs with
  | [] => []
  | c :: rest =>
    let step := next g frames c rest
    ⟨step.1, (c :: rest).take (rest.length + 1 - step.2.rest.length)⟩ ::
      lexemes g step.2.frames step.2.rest
termination_by cs.length
decreasing_by
  have := next_length g frames c rest
  simp; omega

end TaintFlow.Expr
