import TaintFlow.Proofs.Expr.Spans

/-!
# Scanning by offsets

The scan of an expression as a program over one offset into its bytes.  It moves the offset by one,
by two or by the length of a delimiter, past the end of the text if a backslash is its last byte, and
reads single bytes and the text from an offset on.  Each read fails outside the text.  The scan never
fails: on every text it yields the chains, the calls and the closing parentheses that the lexemes of
the text give.

Every function is related to the one on the bytes that are left: where it stops, the bytes left are
those that the other one leaves.

## Main definitions

* `textFrom?`, `byteIs?`, `insideAt` — the reads.
* `quotedAt`, `templateAt`, `formatAt`, `formatSpecAt`, `literalAt`, `braceAt` — the texts of literals
  and the open substitutions.
* `walkAt`, `callsAt`, `matchAt` — the chains, the calls and the closing parenthesis.
* `Stops` — a scan by offsets goes on to a place.

## Main results

* `stops_templateAt`, `stops_formatAt`, `stops_formatSpecAt` — the texts of literals are passed over.
* `foundAt_cases` — what is found at an offset is the next lexeme or a byte of it.
-/

namespace TaintFlow.Expr

/-! ### The scan -/

/-- Where a scan by offsets stands. -/
structure Cursor where
  pos : Nat
  frames : List Frame
  deriving DecidableEq, Repr

section

variable (e : List UInt8)

/-- The text from an offset on, which must not lie behind the end. -/
def textFrom? (pos : Nat) : Option (List UInt8) :=
  if pos ≤ e.length then some (e.drop pos) else none

/-- Whether there is a byte at an offset and `p` holds of it. -/
def byteIs? (p : UInt8 → Bool) (pos : Nat) : Option Bool :=
  if pos < e.length then e[pos]?.map p else some false

/-- Whether the byte before an offset belongs to an identifier. -/
def insideAt (pos : Nat) : Option Bool :=
  if pos = 0 then some false else e[pos - 1]?.map isIdentPart

/-- Where the text of a plain literal ends. -/
def quotedAt (quote : List UInt8) (pos : Nat) : Option Nat :=
  if pos < e.length then do
    let c ← e[pos]?
    let text ← textFrom? e pos
    if c == backslash then quotedAt quote (pos + 2)
    else if quote.isPrefixOf text then some (pos + quote.length)
    else quotedAt quote (pos + 1)
  else some pos
termination_by e.length - pos

/-- Where the text of a template literal ends, or a substitution in it begins. -/
def templateAt (frames : List Frame) (pos : Nat) : Option Cursor :=
  if pos < e.length then do
    let c ← e[pos]?
    if c == backslash then templateAt frames (pos + 2)
    else if c == backquote then some ⟨pos + 1, frames⟩
    else if c == dollar then do
      let opens ← byteIs? e (· == openBrace) (pos + 1)
      if opens then some ⟨pos + 2, .template 0 :: frames⟩ else templateAt frames (pos + 1)
    else templateAt frames (pos + 1)
  else some ⟨pos, frames⟩
termination_by e.length - pos

/-- Where the text of a formatted literal ends, or a field in it begins. -/
def formatAt (quote : List UInt8) (frames : List Frame) (pos : Nat) : Option Cursor :=
  if pos < e.length then do
    let c ← e[pos]?
    let text ← textFrom? e pos
    if c == backslash then formatAt quote frames (pos + 2)
    else if quote.isPrefixOf text then some ⟨pos + quote.length, frames⟩
    else if [openBrace, openBrace].isPrefixOf text || [closeBrace, closeBrace].isPrefixOf text then
      formatAt quote frames (pos + 2)
    else if c == openBrace then some ⟨pos + 1, .field quote 0 :: frames⟩
    else formatAt quote frames (pos + 1)
  else some ⟨pos, frames⟩
termination_by e.length - pos

/-- Where the literal stops whose text goes on behind a conversion or a format specification. -/
def formatSpecAt (quote : List UInt8) (frames : List Frame) (depth pos : Nat) : Option Cursor :=
  if pos < e.length then do
    let c ← e[pos]?
    if c == openBrace then formatSpecAt quote frames (depth + 1) (pos + 1)
    else if c == closeBrace then
      if depth = 0 then formatAt e quote frames (pos + 1)
      else formatSpecAt quote frames (depth - 1) (pos + 1)
    else formatSpecAt quote frames depth (pos + 1)
  else some ⟨pos, frames⟩
termination_by e.length - pos

/-- The number of letters before a quote, `limit` at most, and whether one of them marks a literal
with fields. -/
def lettersAt : Nat → Nat → Option (Nat × Bool)
  | 0, _ => some (0, false)
  | limit + 1, pos =>
    if pos < e.length then do
      let c ← e[pos]?
      if isLiteralMark c then do
        let (n, formatted) ← lettersAt limit (pos + 1)
        some (n + 1, isFormatMark c || formatted)
      else some (0, false)
    else some (0, false)

/-- The letters of a literal that begins at an offset: those that a quote follows, unless the offset
is inside a word. -/
def prefixAt (pos : Nat) : Option (Nat × Bool) := do
  let inside ← insideAt e pos
  if inside then some (0, false)
  else do
    let (n, formatted) ← lettersAt e 2 pos
    let quoted ← byteIs? e isQuote (pos + n)
    some (if quoted then (n, formatted) else (0, false))

/-- Where a literal that begins at an offset stops, if one does. -/
def literalAt (frames : List Frame) (pos : Nat) : Option (Option Cursor) := do
  let c ← e[pos]?
  if c == backquote then (templateAt e frames (pos + 1)).map some
  else do
    let (n, formatted) ← prefixAt e pos
    let quoted ← byteIs? e isQuote (pos + n)
    if quoted then do
      let q ← e[pos + n]?
      let text ← textFrom? e (pos + n)
      let quote := if [q, q, q].isPrefixOf text then [q, q, q] else [q]
      if formatted then (formatAt e quote frames (pos + n + quote.length)).map some
      else (quotedAt e quote (pos + n + quote.length)).map fun p => some ⟨p, frames⟩
    else some none

/-- What a scan by offsets comes upon. -/
inductive Found where
  /-- A byte of code, the brackets open in the innermost substitution being counted. -/
  | code (frames : List Frame)
  /-- The text of a literal, which stops at a cursor. -/
  | text (stop : Cursor)
  deriving DecidableEq, Repr

/-- What the byte at an offset does to the open substitutions. -/
def braceAt (frames : List Frame) (pos : Nat) : Option Found :=
  match frames with
  | [] => some (.code [])
  | .template depth :: outer => do
    let c ← e[pos]?
    if c == openBrace then some (.code (.template (depth + 1) :: outer))
    else if c == closeBrace then
      if depth = 0 then (templateAt e outer (pos + 1)).map .text
      else some (.code (.template (depth - 1) :: outer))
    else some (.code (.template depth :: outer))
  | .field quote depth :: outer => do
    let c ← e[pos]?
    if c == openParen || c == openSquare || c == openBrace then
      some (.code (.field quote (depth + 1) :: outer))
    else if c == closeParen || c == closeSquare then
      some (.code (.field quote (depth - 1) :: outer))
    else if c == closeBrace then
      if depth = 0 then (formatAt e quote outer (pos + 1)).map .text
      else some (.code (.field quote (depth - 1) :: outer))
    else if c == bang && depth == 0 then do
      let converts ← byteIs? e (· != equals) (pos + 1)
      if converts then (formatSpecAt e quote outer 0 pos).map .text
      else some (.code (.field quote depth :: outer))
    else if c == colon && depth == 0 then (formatSpecAt e quote outer 0 pos).map .text
    else some (.code (.field quote depth :: outer))

/-- What stands at an offset: text of a literal or a byte of code. -/
def foundAt (frames : List Frame) (pos : Nat) : Option Found := do
  match ← literalAt e frames pos with
  | some stop => some (.text stop)
  | none => braceAt e frames pos

/-- Where a run of identifier bytes ends. -/
def wordAt (pos : Nat) : Option Nat :=
  if pos < e.length then do
    let c ← e[pos]?
    if isIdentPart c then wordAt (pos + 1) else some pos
  else some pos
termination_by e.length - pos

/-- The length of the connector that a text begins with. -/
def connectorLength (text : List UInt8) : Nat :=
  if [question, point].isPrefixOf text || [hyphen, greater].isPrefixOf text then 2
  else if [point].isPrefixOf text then 1
  else 0

/-- Where a chain of identifiers ends.  The scan fails where it would not move on. -/
def chainAt (pos : Nat) : Option Nat := do
  let p ← wordAt e pos
  let text ← textFrom? e p
  let n := connectorLength text
  if n = 0 then some p
  else do
    let starts ← byteIs? e isIdentStart (p + n)
    if starts then
      if pos < p + n ∧ pos < e.length then chainAt (p + n) else none
    else some p
termination_by e.length - pos

/-- The name of the chain between two offsets: its text with `?.` and `->` replaced by dots. -/
def nameAt (start stop : Nat) : Option String :=
  if start ≤ stop ∧ stop ≤ e.length then
    some (String.ofList ((replacePair hyphen greater point
      (replacePair question point point (slice e ⟨start, stop⟩))).map fun b => Char.ofNat b.toNat))
  else none

/-- The chains from an offset on. -/
def walkAt (frames : List Frame) (pos : Nat) : Option (List Chain) :=
  if pos < e.length then do
    match ← foundAt e frames pos with
    | .text stop => if pos < stop.pos then walkAt stop.frames stop.pos else none
    | .code frames => do
      let c ← e[pos]?
      let inside ← insideAt e pos
      if isIdentStart c && !inside then do
        let stop ← chainAt e pos
        let name ← nameAt e pos stop
        if pos < stop then do
          let more ← walkAt frames stop
          some (⟨name, ⟨pos, stop⟩⟩ :: more)
        else none
      else if isDigit c then do
        let stop ← wordAt e pos
        if pos < stop then walkAt frames stop else none
      else walkAt frames (pos + 1)
  else some []
termination_by e.length - pos

/-- The closing parenthesis that brings the depth back to zero. -/
def matchAt (frames : List Frame) (depth : Int) (pos : Nat) : Option (Option Nat) :=
  if pos < e.length then do
    match ← foundAt e frames pos with
    | .text stop => if pos < stop.pos then matchAt stop.frames depth stop.pos else none
    | .code frames => do
      let c ← e[pos]?
      if c == openParen then matchAt frames (depth + 1) (pos + 1)
      else if c == closeParen then
        if depth == 1 then some (some pos) else matchAt frames (depth - 1) (pos + 1)
      else matchAt frames depth (pos + 1)
  else some none
termination_by e.length - pos

/-- Where the blanks from an offset on end. -/
def gapAt (pos : Nat) : Option Nat :=
  if pos < e.length then do
    let c ← e[pos]?
    if isGap c then gapAt (pos + 1) else some pos
  else some pos
termination_by e.length - pos

/-- The call that a chain begins, if it does. -/
def callFrom (c : Chain) : Option (Option Call) := do
  let paren ← gapAt e c.span.stop
  let opens ← byteIs? e (· == openParen) paren
  if opens && !keywords.contains c.name then do
    let close ← matchAt e [] 0 paren
    some (close.map fun stop => ⟨c.name, ⟨c.span.start, stop + 1⟩⟩)
  else some none

/-- The calls that some chains begin. -/
def callsFrom : List Chain → Option (List Call)
  | [] => some []
  | c :: cs => do
    let call ← callFrom e c
    let more ← callsFrom cs
    some (call.toList ++ more)

/-- The calls of a text. -/
def callsAt : Option (List Call) := do
  callsFrom e (← walkAt e [] 0)

end

/-! ### Reads -/

section

variable {e : List UInt8} {pos : Nat} {c : UInt8} {cs : List UInt8}

/-- **Induction on the offset**, from the end of the text. -/
theorem offset_induction {motive : Nat → Prop} (e : List UInt8)
    (stop : ∀ pos, e.drop pos = [] → motive pos)
    (step : ∀ pos c cs, e.drop pos = c :: cs → (∀ p, pos < p → motive p) → motive pos)
    (pos : Nat) : motive pos := by
  induction hn : e.length - pos using Nat.strongRecOn generalizing pos with
  | ind n ih =>
    cases h : e.drop pos with
    | nil => exact stop pos h
    | cons c cs =>
      have hlt : pos < e.length := by
        have := congrArg List.length h
        rw [List.length_drop, List.length_cons] at this
        omega
      exact step pos c cs h fun p hp => ih _ (by omega) p rfl

theorem lt_of_drop (h : e.drop pos = c :: cs) : pos < e.length := by
  have := congrArg List.length h
  rw [List.length_drop, List.length_cons] at this
  omega

theorem not_lt_of_drop (h : e.drop pos = []) : ¬ pos < e.length :=
  Nat.not_lt.mpr (List.drop_eq_nil_iff.mp h)

theorem byte_of_drop (h : e.drop pos = c :: cs) : e[pos]? = some c := by
  rw [← List.head?_drop, h, List.head?_cons]

theorem textFrom?_of_drop (h : e.drop pos = c :: cs) : textFrom? e pos = some (c :: cs) := by
  rw [textFrom?, if_pos (Nat.le_of_lt (lt_of_drop h)), h]

theorem drop_add_of_drop (front : List UInt8) (h : e.drop pos = front ++ cs) :
    e.drop (pos + front.length) = cs := by
  rw [← List.drop_drop, h, List.drop_left]

theorem drop_one_of_drop (h : e.drop pos = c :: cs) : e.drop (pos + 1) = cs :=
  drop_add_of_drop [c] h

theorem drop_two_of_drop (h : e.drop pos = c :: cs) : e.drop (pos + 2) = cs.tail := by
  rw [← List.tail_drop, drop_one_of_drop h]

/-- Whether there is a byte that `p` holds of can be asked at any offset. -/
theorem byteIs?_eq (p : UInt8 → Bool) (pos : Nat) :
    byteIs? e p pos = some ((e.drop pos).head?.any p) := by
  rw [byteIs?, List.head?_drop]
  split
  · next h => rw [List.getElem?_eq_getElem h]; rfl
  · next h => rw [List.getElem?_eq_none (Nat.le_of_not_lt h)]; rfl

theorem byteIs?_of_drop (p : UInt8 → Bool) (h : e.drop pos = c :: cs) :
    byteIs? e p pos = some (p c) := by
  rw [byteIs?_eq, h]
  rfl

theorem insideAt_eq (h : pos ≤ e.length) : insideAt e pos = some (insideWord e pos) := by
  cases pos with
  | zero => rfl
  | succ n =>
    rw [insideAt, if_neg (Nat.succ_ne_zero n), Nat.add_sub_cancel, insideWord,
      List.getElem?_eq_getElem h]
    rfl

end

/-! ### Texts of literals -/

section

variable {e q : List UInt8} {frames : List Frame} {pos : Nat}

theorem quotedText_backslash (cs : List UInt8) :
    quotedText q (backslash :: cs) = quotedText q cs.tail := by
  cases cs with
  | nil => rw [quotedText.eq_def]; rfl
  | cons b cs => exact quotedText_escape

theorem templateText_backslash (cs : List UInt8) :
    templateText frames (backslash :: cs) = templateText frames cs.tail := by
  cases cs with
  | nil => rw [templateText.eq_def]; rfl
  | cons b cs => exact templateText_escape

theorem formatText_backslash (cs : List UInt8) :
    formatText q frames (backslash :: cs) = formatText q frames cs.tail := by
  cases cs with
  | nil => rw [formatText.eq_def]; rfl
  | cons b cs => exact formatText_escape

theorem exists_quotedAt (e q : List UInt8) (pos : Nat) :
    ∃ p, quotedAt e q pos = some p ∧ pos ≤ p ∧ e.drop p = quotedText q (e.drop pos) := by
  induction pos using offset_induction e with
  | stop pos h =>
    rw [quotedAt, if_neg (not_lt_of_drop h), h]
    exact ⟨pos, rfl, Nat.le_refl _, h⟩
  | step pos c cs h ih =>
    rw [quotedAt, if_pos (lt_of_drop h), byte_of_drop h, textFrom?_of_drop h, h]
    simp only [Option.bind_eq_bind, Option.bind_some, beq_iff_eq]
    by_cases hc : c = backslash
    · rw [if_pos hc, hc, quotedText_backslash, ← drop_two_of_drop h]
      obtain ⟨p, hp, hle, hrest⟩ := ih (pos + 2) (by omega)
      exact ⟨p, hp, by omega, hrest⟩
    · rw [if_neg hc]
      by_cases hq : q.isPrefixOf (c :: cs) = true
      · rw [if_pos hq, quotedText_close hc hq, ← h, List.drop_drop]
        exact ⟨_, rfl, Nat.le_add_right _ _, rfl⟩
      · rw [if_neg hq, quotedText_plain hc (eq_false_of_ne_true hq), ← drop_one_of_drop h]
        obtain ⟨p, hp, hle, hrest⟩ := ih (pos + 1) (by omega)
        exact ⟨p, hp, by omega, hrest⟩

theorem any_head?_eq_false {cs : List UInt8} {b : UInt8} (h : cs.head?.any (· == b) = false) :
    (cs.head? == some b) = false := by
  cases cs with
  | nil => rfl
  | cons a cs => exact h

/-- Two braces in a row are one doubled brace. -/
theorem isPrefixOf_pair (c : UInt8) (cs : List UInt8) :
    ([openBrace, openBrace].isPrefixOf (c :: cs) || [closeBrace, closeBrace].isPrefixOf (c :: cs)) =
      ((c == openBrace || c == closeBrace) && cs.head? == some c) := by
  cases cs with
  | nil => simp [List.isPrefixOf]
  | cons b cs =>
    rw [Bool.eq_iff_iff]
    simp only [List.isPrefixOf_cons_cons, List.isPrefixOf_nil_left, Bool.and_true, Bool.or_eq_true,
      Bool.and_eq_true, beq_iff_eq, List.head?_cons, Option.some.injEq]
    grind

/-- A backslash in the last place moves the offset past the end of the text. -/
example : quotedAt [0x27, 0x61, backslash] [singleQuote] 1 = some 4 := by decide +kernel

/-- A scan by offsets goes from an offset on to a place. -/
def Stops (e : List UInt8) (pos : Nat) (stop : Option Cursor) (place : Place) : Prop :=
  ∃ p, stop = some ⟨p, place.frames⟩ ∧ pos ≤ p ∧ e.drop p = place.rest

theorem Stops.of_le {stop : Option Cursor} {place : Place} {pos' : Nat}
    (h : Stops e pos' stop place) (hle : pos ≤ pos') : Stops e pos stop place := by
  obtain ⟨p, hp, hpos, hrest⟩ := h
  exact ⟨p, hp, Nat.le_trans hle hpos, hrest⟩

theorem stops_templateAt (e : List UInt8) (frames : List Frame) (pos : Nat) :
    Stops e pos (templateAt e frames pos) (templateText frames (e.drop pos)) := by
  induction pos using offset_induction e with
  | stop pos h =>
    rw [templateAt, if_neg (not_lt_of_drop h), h]
    exact ⟨pos, rfl, Nat.le_refl _, h⟩
  | step pos c cs h ih =>
    have hone := (ih (pos + 1) (Nat.lt_succ_self _)).of_le (Nat.le_succ pos)
    have htwo := (ih (pos + 2) (by omega)).of_le (Nat.le_add_right pos 2)
    rw [drop_one_of_drop h] at hone
    rw [drop_two_of_drop h] at htwo
    rw [templateAt, if_pos (lt_of_drop h), byte_of_drop h, h]
    simp only [Option.bind_eq_bind, Option.bind_some, beq_iff_eq, byteIs?_eq, drop_one_of_drop h]
    by_cases hc : c = backslash
    · rw [if_pos hc, hc, templateText_backslash]
      exact htwo
    rw [if_neg hc]
    by_cases hclose : c = backquote
    · rw [if_pos hclose, hclose, templateText_close]
      exact ⟨pos + 1, rfl, Nat.le_succ pos, drop_one_of_drop h⟩
    rw [if_neg hclose]
    by_cases hdollar : c = dollar
    · rw [if_pos hdollar]
      cases hopen : cs.head?.any (· == openBrace) with
      | true =>
        obtain ⟨b, hb, hbrace⟩ := (Option.any_eq_true _ _).mp hopen
        obtain ⟨cs, rfl⟩ := List.head?_eq_some_iff.mp hb
        obtain rfl := beq_iff_eq.mp hbrace
        rw [if_pos rfl, hdollar, templateText_open]
        exact ⟨pos + 2, rfl, Nat.le_add_right pos 2, drop_two_of_drop h⟩
      | false =>
        rw [if_neg (by decide), templateText_plain hc hclose]
        · exact hone
        · rw [Bool.and_eq_false_iff]
          exact Or.inr (any_head?_eq_false hopen)
    · rw [if_neg hdollar, templateText_plain hc hclose]
      · exact hone
      · rw [beq_eq_false_iff_ne.mpr hdollar, Bool.false_and]

theorem stops_formatAt (e q : List UInt8) (frames : List Frame) (pos : Nat) :
    Stops e pos (formatAt e q frames pos) (formatText q frames (e.drop pos)) := by
  induction pos using offset_induction e with
  | stop pos h =>
    rw [formatAt, if_neg (not_lt_of_drop h), h]
    exact ⟨pos, rfl, Nat.le_refl _, h⟩
  | step pos c cs h ih =>
    have hone := (ih (pos + 1) (Nat.lt_succ_self _)).of_le (Nat.le_succ pos)
    have htwo := (ih (pos + 2) (by omega)).of_le (Nat.le_add_right pos 2)
    rw [drop_one_of_drop h] at hone
    rw [drop_two_of_drop h] at htwo
    rw [formatAt, if_pos (lt_of_drop h), byte_of_drop h, textFrom?_of_drop h, h]
    simp only [Option.bind_eq_bind, Option.bind_some, beq_iff_eq, isPrefixOf_pair]
    by_cases hc : c = backslash
    · rw [if_pos hc, hc, formatText_backslash]
      exact htwo
    rw [if_neg hc]
    by_cases hq : q.isPrefixOf (c :: cs) = true
    · rw [if_pos hq, formatText_close hc hq, ← h, List.drop_drop]
      exact ⟨_, rfl, Nat.le_add_right _ _, rfl⟩
    rw [if_neg hq]
    have hq' := eq_false_of_ne_true hq
    cases hdouble : (c == openBrace || c == closeBrace) && cs.head? == some c with
    | true =>
      rw [if_pos rfl]
      cases cs with
      | nil => simp at hdouble
      | cons b cs =>
        rw [formatText_double hc hq' hdouble]
        exact htwo
    | false =>
      rw [if_neg (by decide)]
      by_cases hopen : c = openBrace
      · subst hopen
        rw [if_pos rfl, formatText_open hq' (by simpa using hdouble)]
        exact ⟨pos + 1, rfl, Nat.le_succ pos, drop_one_of_drop h⟩
      · rw [if_neg hopen, formatText_plain hc hq' hdouble hopen]
        exact hone

theorem stops_formatSpecAt (e q : List UInt8) (frames : List Frame) (depth pos : Nat) :
    Stops e pos (formatSpecAt e q frames depth pos) (formatSpec q frames depth (e.drop pos)) := by
  induction pos using offset_induction e generalizing depth with
  | stop pos h =>
    rw [formatSpecAt, if_neg (not_lt_of_drop h), h]
    exact ⟨pos, rfl, Nat.le_refl _, h⟩
  | step pos c cs h ih =>
    have hone : ∀ depth, Stops e pos (formatSpecAt e q frames depth (pos + 1))
        (formatSpec q frames depth cs) := by
      intro depth
      have := (ih (pos + 1) (Nat.lt_succ_self _) depth).of_le (Nat.le_succ pos)
      rwa [drop_one_of_drop h] at this
    have htext := (stops_formatAt e q frames (pos + 1)).of_le (Nat.le_succ pos)
    rw [drop_one_of_drop h] at htext
    rw [formatSpecAt, if_pos (lt_of_drop h), byte_of_drop h, h, formatSpec.eq_def]
    simp only [Option.bind_eq_bind, Option.bind_some]
    cases c == openBrace with
    | true => exact hone (depth + 1)
    | false =>
      cases c == closeBrace with
      | false => exact hone depth
      | true =>
        cases depth with
        | zero => exact htext
        | succ depth => exact hone depth

end

/-! ### Literals and substitutions -/

section

variable {e cs : List UInt8} {frames fs : List Frame} {pos : Nat} {c : UInt8}

theorem isLiteralMark_eq_false_of_isQuote {b : UInt8} (hb : isQuote b = true) :
    isLiteralMark b = false := by
  rw [isQuote, Bool.or_eq_true, beq_iff_eq, beq_iff_eq] at hb
  rcases hb with rfl | rfl
  · decide
  · decide

/-- The letters before a quote are counted. -/
theorem lettersAt_append {letters : List UInt8} (hletters : letters.all isLiteralMark = true)
    {limit : Nat} (hlimit : letters.length ≤ limit) {b : UInt8} (hb : isQuote b = true)
    {v : List UInt8} (h : e.drop pos = letters ++ b :: v) :
    lettersAt e limit pos = some (letters.length, letters.any isFormatMark) := by
  induction letters generalizing limit pos with
  | nil =>
    cases limit with
    | zero => rfl
    | succ limit =>
      rw [lettersAt, if_pos (lt_of_drop h), byte_of_drop h]
      simp [isLiteralMark_eq_false_of_isQuote hb]
  | cons a letters ih =>
    rw [List.all_cons, Bool.and_eq_true] at hletters
    cases limit with
    | zero => cases hlimit
    | succ limit =>
      rw [lettersAt, if_pos (lt_of_drop h), byte_of_drop h]
      simp [hletters.1, ih hletters.2 (Nat.le_of_succ_le_succ hlimit) (drop_one_of_drop h)]

/-- What is counted are letters. -/
theorem exists_lettersAt (e : List UInt8) (limit pos : Nat) :
    ∃ letters rest, e.drop pos = letters ++ rest ∧ letters.length ≤ limit ∧
      letters.all isLiteralMark = true ∧
      lettersAt e limit pos = some (letters.length, letters.any isFormatMark) := by
  induction limit generalizing pos with
  | zero => exact ⟨[], _, rfl, Nat.le_refl _, rfl, rfl⟩
  | succ limit ih =>
    cases h : e.drop pos with
    | nil =>
      refine ⟨[], [], rfl, Nat.zero_le _, rfl, ?_⟩
      rw [lettersAt, if_neg (not_lt_of_drop h)]
      rfl
    | cons c cs =>
      rw [lettersAt, if_pos (lt_of_drop h), byte_of_drop h]
      cases hc : isLiteralMark c with
      | false => exact ⟨[], c :: cs, rfl, Nat.zero_le _, rfl, by simp [hc]⟩
      | true =>
        obtain ⟨letters, rest, hrest, hlength, hletters, hat⟩ := ih (pos + 1)
        rw [drop_one_of_drop h] at hrest
        refine ⟨c :: letters, rest, congrArg (c :: ·) hrest, Nat.succ_le_succ hlength, ?_, ?_⟩
        · rw [List.all_cons, hc, hletters, Bool.and_self]
        · simp [hc, hat]

theorem quote_delimiter (q : UInt8) (v : List UInt8) :
    (if [q, q, q].isPrefixOf (q :: v) then [q, q, q] else [q]) = delimiter (q :: v) := by
  have hiff : [q, q, q].isPrefixOf (q :: v) = true ↔ [q, q] <+: v := by
    rw [List.isPrefixOf_iff_prefix, List.cons_prefix_cons, and_iff_right rfl]
  by_cases hv : [q, q] <+: v
  · rw [if_pos (hiff.mpr hv)]
    obtain ⟨w, rfl⟩ := hv
    exact (delimiter_triple q w).symm
  · rw [if_neg (fun h => hv (hiff.mp h)), delimiter_single hv]

/-- No word goes across an offset. -/
def WordSeam (e : List UInt8) (pos : Nat) : Prop :=
  insideWord e pos = true → ∀ b ∈ (e.drop pos).head?, isIdentPart b = false

theorem wordSeam_zero : WordSeam e 0 :=
  fun hinside => nomatch hinside

theorem not_isQuote_of_opening? (h : opening? (c :: cs) = none) : isQuote c = false := by
  rw [← Bool.not_eq_true]
  intro hc
  rw [show c :: cs = [] ++ c :: cs from rfl, opening?_letters (Nat.zero_le _) rfl hc] at h
  cases h

theorem literalAt_of_prefixAt (h : e.drop pos = c :: cs) (hback : c ≠ backquote)
    (hletters : prefixAt e pos = some (0, false)) (hquote : isQuote c = false) :
    literalAt e frames pos = some none := by
  rw [literalAt, byte_of_drop h]
  simp only [Option.bind_eq_bind, Option.bind_some, beq_eq_false_iff_ne.mpr hback, hletters,
    Nat.add_zero, byteIs?_of_drop _ h, hquote, if_false, Bool.false_eq_true]

/-- Where no literal begins, none is found. -/
theorem literalAt_none (h : e.drop pos = c :: cs) (hlit : literal? frames c cs = none) :
    literalAt e frames pos = some none := by
  have hback : c ≠ backquote := by
    rintro rfl
    cases hlit
  have hopening : opening? (c :: cs) = none := by
    rw [literal?, beq_eq_false_iff_ne.mpr hback] at hlit
    cases hopened : opening? (c :: cs) with
    | none => rfl
    | some opened =>
      rw [hopened] at hlit
      cases hlit
  refine literalAt_of_prefixAt h hback ?_ (not_isQuote_of_opening? hopening)
  rw [prefixAt, insideAt_eq (Nat.le_of_lt (lt_of_drop h))]
  cases insideWord e pos with
  | true => rfl
  | false =>
    obtain ⟨letters, rest, hrest, hshort, hletters, hat⟩ := exists_lettersAt e 2 pos
    have hquoted : (e.drop (pos + letters.length)).head?.any isQuote = false := by
      rw [drop_add_of_drop letters hrest, ← Bool.not_eq_true]
      intro hquote
      obtain ⟨b, hb, hquote⟩ := (Option.any_eq_true _ _).mp hquote
      obtain ⟨v, rfl⟩ := List.head?_eq_some_iff.mp hb
      rw [← h, hrest, opening?_letters hshort hletters hquote] at hopening
      cases hopening
    simp only [Option.bind_eq_bind, Option.bind_some, hat, byteIs?_eq, hquoted, if_false,
      Bool.false_eq_true]

/-- Nor is one found inside a word. -/
theorem literalAt_inside (h : e.drop pos = c :: cs) (hinside : insideWord e pos = true)
    (hc : isIdentPart c = true) : literalAt e frames pos = some none := by
  refine literalAt_of_prefixAt h (ne_backquote_of_isIdentPart hc) ?_
    (isQuote_eq_false_of_isIdentPart hc)
  rw [prefixAt, insideAt_eq (Nat.le_of_lt (lt_of_drop h)), hinside]
  rfl

theorem prefixAt_start {formatted : Bool} (start : LiteralStart formatted) {d : Delimiter}
    {body : List UInt8} (h : e.drop pos = start.letters ++ (d.bytes ++ body))
    (hseam : WordSeam e pos) : prefixAt e pos = some (start.letters.length, formatted) := by
  obtain ⟨q, hq⟩ := d.bytes_eq_cons
  rw [hq, List.cons_append] at h
  have hle : pos ≤ e.length := by
    refine Nat.le_of_not_lt fun hlt => ?_
    rw [List.drop_eq_nil_of_le (Nat.le_of_lt hlt)] at h
    exact absurd (congrArg List.length h) (by simp)
  rw [prefixAt, insideAt_eq hle]
  cases hinside : insideWord e pos with
  | false =>
    have hquote : byteIs? e isQuote (pos + start.letters.length) = some true := by
      rw [byteIs?_of_drop _ (drop_add_of_drop start.letters h), d.quote_ok]
    have hat := lettersAt_append start.letters_ok start.short d.quote_ok h
    rw [start.formats] at hat
    simp only [Option.bind_eq_bind, Option.bind_some, hat, hquote, if_true, if_false,
      Bool.false_eq_true]
  | true =>
    -- no letters stand in front of the quote, since the word before them has ended
    have hnone : start.letters = [] := by
      cases hletters : start.letters with
      | nil => rfl
      | cons a letters =>
        have hmark := start.letters_ok
        rw [hletters, List.all_cons, Bool.and_eq_true] at hmark
        have ha := hseam hinside a (by rw [h, hletters]; rfl)
        rw [isIdentPart_of_isIdentStart (isIdentStart_of_isLiteralMark hmark.1)] at ha
        cases ha
    have hformatted := start.formats
    rw [hnone] at hformatted ⊢
    rw [← hformatted]
    rfl

theorem LiteralStart.ne_backquote {formatted : Bool} (start : LiteralStart formatted)
    {d : Delimiter} {body : List UInt8} (h : c :: cs = start.letters ++ (d.bytes ++ body)) :
    c ≠ backquote := by
  have hmarks := start.letters_ok
  cases hletters : start.letters with
  | nil =>
    obtain ⟨q, hq⟩ := d.bytes_eq_cons
    rw [hletters, List.nil_append, hq, List.cons_append] at h
    rw [(List.cons.inj h).1]
    exact Delimiter.quote_ne (by decide)
  | cons a letters =>
    rw [hletters, List.all_cons, Bool.and_eq_true] at hmarks
    rw [hletters, List.cons_append] at h
    rw [(List.cons.inj h).1]
    exact ne_backquote_of_isIdentPart
      (isIdentPart_of_isIdentStart (isIdentStart_of_isLiteralMark hmarks.1))

/-- Where a literal begins, its text is found, and the scan moves on. -/
theorem literalAt_some (h : e.drop pos = c :: cs) (hseam : WordSeam e pos) {place : Place}
    (hlit : literal? frames c cs = some place) :
    ∃ p, literalAt e frames pos = some (some ⟨p, place.frames⟩) ∧ pos < p ∧
      e.drop p = place.rest := by
  rcases literal?_eq_some hlit with ⟨rfl, rfl⟩ | ⟨formatted, start, d, body, hcs, hd, rfl⟩
  · obtain ⟨p, hp, hle, hrest⟩ := stops_templateAt e frames (pos + 1)
    rw [drop_one_of_drop h] at hp hrest
    refine ⟨p, ?_, hle, hrest⟩
    rw [literalAt, byte_of_drop h]
    simp [hp]
  · have hback := beq_eq_false_iff_ne.mpr (start.ne_backquote hcs)
    have hstart : e.drop pos = start.letters ++ (d.bytes ++ body) := h.trans hcs
    have hpos := d.bytes_length_pos
    have hquoted := drop_add_of_drop _ hstart
    have hbody := drop_add_of_drop _ hquoted
    obtain ⟨q, hq⟩ := d.bytes_eq_cons
    have hfirst : e.drop (pos + start.letters.length) = d.quote :: (q ++ body) := by
      rw [hquoted, hq, List.cons_append]
    have hquote : (if [d.quote, d.quote, d.quote].isPrefixOf (d.quote :: (q ++ body)) then
        [d.quote, d.quote, d.quote] else [d.quote]) = d.bytes := by
      rw [quote_delimiter, ← List.cons_append, ← hq, hd]
    rw [literalAt, byte_of_drop h]
    simp only [Option.bind_eq_bind, Option.bind_some, hback, prefixAt_start start hstart hseam,
      byteIs?_of_drop _ hfirst, d.quote_ok, byte_of_drop hfirst, textFrom?_of_drop hfirst, hquote,
      if_true, if_false, Bool.false_eq_true]
    cases formatted with
    | true =>
      obtain ⟨p, hp, hle, hrest⟩ := stops_formatAt e d.bytes frames
        (pos + start.letters.length + d.bytes.length)
      rw [hbody] at hp hrest
      exact ⟨p, by rw [if_pos rfl, hp]; rfl, by omega, hrest⟩
    | false =>
      obtain ⟨p, hp, hle, hrest⟩ := exists_quotedAt e d.bytes
        (pos + start.letters.length + d.bytes.length)
      rw [hbody] at hrest
      exact ⟨p, by rw [if_neg (by decide), hp]; rfl, by omega, hrest⟩

/-- What is found at an offset is what a byte does to the open substitutions. -/
def FoundAs (e : List UInt8) (pos : Nat) (found : Option Found) : Brace → Prop
  | .inside frames => found = some (.code frames)
  | .resumed place =>
    ∃ p, found = some (.text ⟨p, place.frames⟩) ∧ pos < p ∧ e.drop p = place.rest

theorem foundAs_of_stops {stop : Option Cursor} {place : Place}
    (h : Stops e (pos + 1) stop place) :
    FoundAs e pos (stop.map .text) (.resumed place) := by
  obtain ⟨p, rfl, hle, hrest⟩ := h
  exact ⟨p, rfl, hle, hrest⟩

theorem foundAs_formatSpecAt (q : List UInt8) (outer : List Frame) (h : e.drop pos = c :: cs)
    (hopen : (c == openBrace) = false) (hclose : (c == closeBrace) = false) :
    FoundAs e pos ((formatSpecAt e q outer 0 pos).map .text)
      (.resumed (formatSpec q outer 0 (c :: cs))) := by
  obtain ⟨p, hp, hle, hrest⟩ := stops_formatSpecAt e q outer 0 pos
  rw [h, formatSpec.eq_def] at hp hrest
  rw [hp, formatSpec.eq_def]
  simp only [hopen, hclose, if_false, Bool.false_eq_true] at hrest ⊢
  refine ⟨p, rfl, Nat.lt_of_le_of_ne hle ?_, hrest⟩
  rintro rfl
  have := formatSpec_length q outer 0 cs
  rw [← hrest, h, List.length_cons] at this
  exact absurd this (Nat.not_succ_le_self _)

theorem braceAt_found (frames : List Frame) (h : e.drop pos = c :: cs) :
    FoundAs e pos (braceAt e frames pos) (brace frames c cs) := by
  have htemplate : ∀ outer, Stops e (pos + 1) (templateAt e outer (pos + 1))
      (templateText outer cs) := by
    intro outer
    rw [← drop_one_of_drop h]
    exact stops_templateAt e outer (pos + 1)
  have hformat : ∀ q outer, Stops e (pos + 1) (formatAt e q outer (pos + 1))
      (formatText q outer cs) := by
    intro q outer
    rw [← drop_one_of_drop h]
    exact stops_formatAt e q outer (pos + 1)
  match frames with
  | [] => exact rfl
  | .template depth :: outer =>
    unfold braceAt brace
    rw [byte_of_drop h]
    simp only [Option.bind_eq_bind, Option.bind_some]
    cases c == openBrace with
    | true => exact rfl
    | false =>
      cases c == closeBrace with
      | false => exact rfl
      | true =>
        cases depth with
        | zero => exact foundAs_of_stops (htemplate outer)
        | succ depth => exact rfl
  | .field q depth :: outer =>
    have hconverts : byteIs? e (· != equals) (pos + 1) =
        some ((cs.head?.map (· != equals)).getD false) := by
      rw [byteIs?_eq, drop_one_of_drop h]
      cases cs <;> rfl
    unfold braceAt brace
    rw [byte_of_drop h]
    simp only [Option.bind_eq_bind, Option.bind_some, hconverts]
    cases hbracket : c == openParen || c == openSquare || c == openBrace with
    | true => exact rfl
    | false =>
      cases c == closeParen || c == closeSquare with
      | true => exact rfl
      | false =>
        cases hclose : c == closeBrace with
        | true =>
          cases depth with
          | zero => exact foundAs_of_stops (hformat q outer)
          | succ depth => exact rfl
        | false =>
          have hspec := foundAs_formatSpecAt q outer h (Bool.or_eq_false_iff.mp hbracket).2 hclose
          cases depth with
          | succ depth => simp [FoundAs]
          | zero =>
            by_cases hbang : c = bang
            · subst hbang
              cases (cs.head?.map (· != equals)).getD false with
              | true => exact hspec
              | false => exact rfl
            · rw [beq_eq_false_iff_ne.mpr hbang]
              cases c == colon with
              | true => exact hspec
              | false => exact rfl

theorem next_code (hlit : literal? frames c cs = none) (hbrace : brace frames c cs = .inside fs)
    (g : Grain) :
    next g frames c cs = if isIdentStart c then (.name, ⟨fs, nameEnd g (c :: cs)⟩)
      else if isDigit c then (.number, ⟨fs, cs.dropWhile isIdentPart⟩) else (.mark, ⟨fs, cs⟩) := by
  rw [next, hlit]
  simp only [hbrace]

/-- **What the scan finds where no word goes on is the next lexeme**, or a byte of code that it
begins with. -/
theorem foundAt_cases (frames : List Frame) (h : e.drop pos = c :: cs) (hseam : WordSeam e pos) :
    (∃ p place, foundAt e frames pos = some (.text ⟨p, place.frames⟩) ∧ pos < p ∧
      e.drop p = place.rest ∧ ∀ g, next g frames c cs = (.literal, place)) ∨
    ∃ fs, foundAt e frames pos = some (.code fs) ∧ ∀ g, next g frames c cs =
      if isIdentStart c then (.name, ⟨fs, nameEnd g (c :: cs)⟩)
      else if isDigit c then (.number, ⟨fs, cs.dropWhile isIdentPart⟩) else (.mark, ⟨fs, cs⟩) := by
  cases hlit : literal? frames c cs with
  | some place =>
    obtain ⟨p, hat, hlt, hrest⟩ := literalAt_some h hseam hlit
    exact Or.inl ⟨p, place, by rw [foundAt, hat]; rfl, hlt, hrest, fun g => next_of_literal? hlit⟩
  | none =>
    have hat : foundAt e frames pos = braceAt e frames pos := by
      rw [foundAt, literalAt_none h hlit]
      rfl
    have hfound := braceAt_found frames h
    cases hbrace : brace frames c cs with
    | resumed place =>
      rw [hbrace] at hfound
      obtain ⟨p, hp, hlt, hrest⟩ := hfound
      exact Or.inl ⟨p, place, hat.trans hp, hlt, hrest, fun g => next_of_resumed hlit hbrace⟩
    | inside fs =>
      rw [hbrace] at hfound
      exact Or.inr ⟨fs, hat.trans hfound, next_code hlit hbrace⟩

/-- Inside a word the scan finds code. -/
theorem foundAt_inside (h : e.drop pos = c :: cs) (hinside : insideWord e pos = true)
    (hc : isIdentPart c = true) : foundAt e frames pos = some (.code frames) := by
  have hfound := braceAt_found frames h
  rw [brace_identPart hc] at hfound
  rw [foundAt, literalAt_inside h hinside hc]
  exact hfound

end

end TaintFlow.Expr
