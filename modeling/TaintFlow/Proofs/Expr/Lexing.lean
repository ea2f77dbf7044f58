import TaintFlow.Proofs.Expr.Tree

/-!
# The lexer reads trees back

The lexemes of the rendering of a tree are the lexemes of its tokens, in order, whatever
substitutions are open around it and whatever follows it.  The lexer keeps its place in a stack of
frames; the invariant is that a tree of code leaves the stack as it found it, and that the rest of a
literal leaves the stack without the substitutions that the literal itself opens.

## Main definitions

* `Tree.lexed` — the lexemes of a tree.
* `Bounded` — what may stand right behind a token.
* `Admits` — the stacks under which code is read as code.

## Main results

* `templateText_append`, `formatText_append`, `quotedText_append` — the text of a literal is passed
  over.
* `lexemes_leaf` — a token without code inside is read as itself.
* `lexemes_render` — so is the rendering of a tree.
-/

namespace TaintFlow.Expr

/-! ### The lexemes of a tree -/

/-- A lexeme of one byte. -/
abbrev markOf (b : UInt8) : Lexeme :=
  ⟨.mark, [b]⟩

/-- The lexemes of the links of a chain, when names reach over one identifier only. -/
def DottedName.linkLexemes : List (Connector × Word isIdentStart) → List Lexeme
  | [] => []
  | (k, w) :: links => k.bytes.map markOf ++ (⟨.name, w.bytes⟩ :: linkLexemes links)

/-- The lexemes of a chain. -/
def DottedName.lexed (n : DottedName) : Grain → List Lexeme
  | .chain => [⟨.name, n.bytes⟩]
  | .word => ⟨.name, n.head.bytes⟩ :: linkLexemes n.links

/-- The lexemes of what stands behind the whole part of a number. -/
def NumberText.fractionLexemes : Option (Word isDigit) → List Lexeme
  | none => []
  | some w => [markOf point, ⟨.number, w.bytes⟩]

/-- The lexemes of a token without code inside. -/
def Leaf.lexed {field : Bool} (g : Grain) : Leaf field → List Lexeme
  | .chain n => n.lexed g
  | .number n => ⟨.number, n.whole.bytes⟩ :: NumberText.fractionLexemes n.fraction
  | .mark m => [markOf m.byte]
  | .quoted l => [⟨.literal, l.bytes⟩]

/-- The lexemes of a tree.  In a literal, `head` is what the lexeme that holds the next text part
begins with. -/
def Tree.lexed (g : Grain) : {r : Region} → List UInt8 → Tree r → List Lexeme
  | _, _, .done gap => (blanks gap).map markOf
  | _, _, .leaf gap l rest => (blanks gap.1).map markOf ++ (l.lexed g ++ rest.lexed g [])
  | _, _, .group gap b inside rest =>
    (blanks gap.1).map markOf ++ (markOf b.opening ::
      (inside.lexed g [] ++ (markOf space :: markOf b.closing :: rest.lexed g [])))
  | _, _, .template gap parts rest =>
    (blanks gap.1).map markOf ++ (parts.lexed g [backquote] ++ rest.lexed g [])
  | _, _, .format gap start d parts rest =>
    (blanks gap.1).map markOf ++ (parts.lexed g (start.letters ++ d.bytes) ++ rest.lexed g [])
  | _, head, .templateEnd text => [⟨.literal, head ++ (text.bytes ++ [backquote])⟩]
  | _, head, .substitution text inside more =>
    ⟨.literal, head ++ (text.bytes ++ [dollar, openBrace])⟩ ::
      (inside.lexed g [] ++ more.lexed g [closeBrace])
  | .format d, head, .formatEnd text => [⟨.literal, head ++ (text.bytes ++ d.bytes)⟩]
  | _, head, .field text inside tail more =>
    ⟨.literal, head ++ (text.bytes ++ [openBrace])⟩ ::
      (inside.lexed g [] ++ more.lexed g (tail.bytes ++ [closeBrace]))

/-! ### Bytes -/

section

variable {c : UInt8}

theorem isIdentPart_of_isIdentStart (h : isIdentStart c = true) : isIdentPart c = true := by
  rw [isIdentPart, h, Bool.true_or]

theorem isIdentPart_of_isDigit (h : isDigit c = true) : isIdentPart c = true := by
  rw [isIdentPart, h, Bool.or_true]

theorem isIdentStart_of_isLiteralMark (h : isLiteralMark c = true) : isIdentStart c = true := by
  simp only [isLiteralMark, isFormatMark, Bool.or_eq_true, beq_iff_eq, or_assoc] at h
  rcases h with rfl | rfl | rfl | rfl | rfl | rfl | rfl | rfl <;> decide

theorem isIdentStart_eq_false_of_isDigit (h : isDigit c = true) : isIdentStart c = false := by
  simp only [isDigit, Bool.and_eq_true, decide_eq_true_eq, UInt8.le_iff_toNat_le] at h
  simp only [isIdentStart, Bool.or_eq_false_iff, Bool.and_eq_false_iff, beq_eq_false_iff_ne,
    decide_eq_false_iff_not, UInt8.le_iff_toNat_le, ne_eq, ← UInt8.toNat_inj]
  simp [dollar] at h ⊢
  omega

theorem isQuote_eq_false_of_isIdentPart (h : isIdentPart c = true) : isQuote c = false := by
  rw [isQuote, Bool.or_eq_false_iff, beq_eq_false_iff_ne, beq_eq_false_iff_ne]
  constructor
  · rintro rfl
    exact absurd h (by decide)
  · rintro rfl
    exact absurd h (by decide)

theorem ne_backquote_of_isIdentPart (h : isIdentPart c = true) : c ≠ backquote := by
  rintro rfl
  exact absurd h (by decide)

end

/-! ### The texts of literals -/

section

variable {q cs : List UInt8} {frames : List Frame} {c b : UInt8}

theorem quotedText_escape : quotedText q (backslash :: b :: cs) = quotedText q cs := by
  rw [quotedText.eq_def]
  rfl

theorem quotedText_close (hc : c ≠ backslash) (hq : q.isPrefixOf (c :: cs) = true) :
    quotedText q (c :: cs) = (c :: cs).drop q.length := by
  rw [quotedText.eq_def]
  simp [hc, hq]

theorem quotedText_plain (hc : c ≠ backslash) (hq : q.isPrefixOf (c :: cs) = false) :
    quotedText q (c :: cs) = quotedText q cs := by
  rw [quotedText.eq_def]
  simp [hc, hq]

theorem templateText_escape :
    templateText frames (backslash :: b :: cs) = templateText frames cs := by
  rw [templateText.eq_def]
  rfl

theorem templateText_close : templateText frames (backquote :: cs) = ⟨frames, cs⟩ := by
  rw [templateText.eq_def]
  rfl

theorem templateText_open :
    templateText frames (dollar :: openBrace :: cs) = ⟨.template 0 :: frames, cs⟩ := by
  rw [templateText.eq_def]
  rfl

theorem templateText_plain (hc : c ≠ backslash) (hclose : c ≠ backquote)
    (hopen : (c == dollar && cs.head? == some openBrace) = false) :
    templateText frames (c :: cs) = templateText frames cs := by
  rw [templateText.eq_def]
  simp only [beq_iff_eq, hc, hclose, hopen, if_false, Bool.false_eq_true]

theorem formatText_escape :
    formatText q frames (backslash :: b :: cs) = formatText q frames cs := by
  rw [formatText.eq_def]
  rfl

theorem formatText_close (hc : c ≠ backslash) (hq : q.isPrefixOf (c :: cs) = true) :
    formatText q frames (c :: cs) = ⟨frames, (c :: cs).drop q.length⟩ := by
  rw [formatText.eq_def]
  simp [hc, hq]

theorem formatText_double (hc : c ≠ backslash) (hq : q.isPrefixOf (c :: b :: cs) = false)
    (hb : ((c == openBrace || c == closeBrace) && some b == some c) = true) :
    formatText q frames (c :: b :: cs) = formatText q frames cs := by
  rw [formatText.eq_def]
  simp only [beq_iff_eq, hc, hq, if_false, List.head?_cons, hb, Bool.false_eq_true, if_true]

theorem formatText_open (hq : q.isPrefixOf (openBrace :: cs) = false)
    (hcs : cs.head? ≠ some openBrace) :
    formatText q frames (openBrace :: cs) = ⟨.field q 0 :: frames, cs⟩ := by
  rw [formatText.eq_def]
  simp [show openBrace ≠ backslash by decide, hq, hcs]

theorem formatText_plain (hc : c ≠ backslash) (hq : q.isPrefixOf (c :: cs) = false)
    (hdouble : ((c == openBrace || c == closeBrace) && cs.head? == some c) = false)
    (hopen : c ≠ openBrace) : formatText q frames (c :: cs) = formatText q frames cs := by
  rw [formatText.eq_def]
  simp only [beq_iff_eq, hc, hq, hdouble, hopen, if_false, Bool.false_eq_true]

end

/-- Whether `q` begins at the end of a text is settled by `q` itself: what follows it does not
matter. -/
theorem isPrefixOf_append_self (q x rest : List UInt8) :
    q.isPrefixOf (x ++ (q ++ rest)) = q.isPrefixOf (x ++ q) := by
  rw [Bool.eq_iff_iff, List.isPrefixOf_iff_prefix, List.isPrefixOf_iff_prefix, ← List.append_assoc]
  constructor
  · intro h
    exact List.prefix_of_prefix_length_le h (List.prefix_append _ _) (by simp)
  · exact fun h => h.trans (List.prefix_append _ _)

/-- It is settled by a byte that does not occur in `q`, too. -/
theorem isPrefixOf_append_of_notMem {q : List UInt8} {b : UInt8} (hb : b ∉ q)
    (x rest : List UInt8) :
    q.isPrefixOf (x ++ ([b] ++ rest)) = q.isPrefixOf (x ++ [b]) := by
  induction x generalizing q with
  | nil =>
    cases q with
    | nil => rfl
    | cons a q =>
      have hab : (a == b) = false := beq_eq_false_iff_ne.mpr (List.ne_of_not_mem_cons hb).symm
      simp [List.isPrefixOf_cons_cons, hab]
  | cons a x ih =>
    cases q with
    | nil => rfl
    | cons a' q =>
      have hrest := ih (List.not_mem_of_not_mem_cons hb)
      simp only [List.cons_append, List.nil_append, List.isPrefixOf_cons_cons] at hrest ⊢
      rw [hrest]

theorem Delimiter.bytes_eq_cons (d : Delimiter) : ∃ q, d.bytes = d.quote :: q := by
  unfold bytes
  split
  · exact ⟨_, rfl⟩
  · exact ⟨_, rfl⟩

theorem Delimiter.quote_ne {d : Delimiter} {b : UInt8} (hb : isQuote b = false) : d.quote ≠ b := by
  rintro rfl
  exact absurd d.quote_ok (by simp [hb])

theorem Delimiter.notMem_bytes {d : Delimiter} {b : UInt8} (hb : isQuote b = false) :
    b ∉ d.bytes := by
  have hne : d.quote ≠ b := Delimiter.quote_ne hb
  unfold bytes
  split <;> simp [hne.symm]

theorem isPrefixOf_cons_of_notMem (d : Delimiter) {b : UInt8} (hb : b ∉ d.bytes)
    (u : List UInt8) : d.bytes.isPrefixOf (b :: u) = false := by
  obtain ⟨q, hq⟩ := d.bytes_eq_cons
  rw [hq] at hb ⊢
  rw [List.isPrefixOf_cons_cons, beq_eq_false_iff_ne.mpr (List.ne_of_not_mem_cons hb).symm,
    Bool.false_and]

/-- Where a delimiter stands, its first byte is the next one and the delimiter is seen. -/
theorem Delimiter.exists_cons (d : Delimiter) (rest : List UInt8) :
    ∃ cs, d.bytes ++ rest = d.quote :: cs ∧ d.bytes.isPrefixOf (d.quote :: cs) = true := by
  obtain ⟨q, hq⟩ := d.bytes_eq_cons
  have hcons : d.bytes ++ rest = d.quote :: (q ++ rest) := by rw [hq, List.cons_append]
  refine ⟨q ++ rest, hcons, ?_⟩
  rw [← hcons]
  exact List.isPrefixOf_iff_prefix.mpr (List.prefix_append _ _)

/-- A formatted literal ends with its delimiter. -/
theorem formatText_delimiter (d : Delimiter) (frames : List Frame) (rest : List UInt8) :
    formatText d.bytes frames (d.bytes ++ rest) = ⟨frames, rest⟩ := by
  obtain ⟨cs, hcs, hself⟩ := d.exists_cons rest
  rw [hcs, formatText_close (Delimiter.quote_ne (by decide)) hself, ← hcs, List.drop_left]

/-- A plain literal ends with its delimiter. -/
theorem quotedText_delimiter (d : Delimiter) (rest : List UInt8) :
    quotedText d.bytes (d.bytes ++ rest) = rest := by
  obtain ⟨cs, hcs, hself⟩ := d.exists_cons rest
  rw [hcs, quotedText_close (Delimiter.quote_ne (by decide)) hself, ← hcs, List.drop_left]

/-- **The text of a plain literal is passed over** up to the delimiter that closes it. -/
theorem quotedText_append {d : Delimiter} {text : List UInt8}
    (h : isQuotedText d.bytes text = true) (rest : List UInt8) :
    quotedText d.bytes (text ++ (d.bytes ++ rest)) = rest := by
  fun_induction isQuotedText d.bytes text with
  | case1 => exact quotedText_delimiter d rest
  | case2 => cases h
  | case3 c hc b cs ih =>
    obtain rfl := beq_iff_eq.mp hc
    rw [List.cons_append, List.cons_append, quotedText_escape]
    exact ih h
  | case4 c cs hc ih =>
    rw [Bool.and_eq_true, Bool.not_eq_true', ← isPrefixOf_append_self _ _ rest,
      List.cons_append] at h
    rw [List.cons_append, quotedText_plain (by simpa using hc) h.1]
    exact ih h.2

/-- **The text of a template literal is passed over** up to what does not continue it. -/
theorem templateText_append {text : List UInt8} (h : isTemplateText text = true)
    (frames : List Frame) {u : List UInt8} (hu : u.head? ≠ some openBrace) :
    templateText frames (text ++ u) = templateText frames u := by
  fun_induction isTemplateText text with
  | case1 => rfl
  | case2 => cases h
  | case3 c hc b cs ih =>
    obtain rfl := beq_iff_eq.mp hc
    rw [List.cons_append, List.cons_append, templateText_escape]
    exact ih h
  | case4 c cs hc ih =>
    simp only [Bool.and_eq_true, Bool.not_eq_true', bne_iff_ne] at h
    obtain ⟨⟨hclose, hopen⟩, hcs⟩ := h
    have hopen' : (c == dollar && (cs ++ u).head? == some openBrace) = false := by
      cases cs with
      | nil => simp [hu]
      | cons b cs => exact hopen
    rw [List.cons_append, templateText_plain (by simpa using hc) hclose hopen']
    exact ih hcs

/-- **The text of a formatted literal is passed over** up to its end or to the next field.  `after`
is enough to tell where the delimiter begins, and does not double a closing brace. -/
theorem formatText_append {q after text : List UInt8} (h : isFormatText q after text = true)
    (frames : List Frame) {rest : List UInt8}
    (hshows : ∀ x, q.isPrefixOf (x ++ (after ++ rest)) = q.isPrefixOf (x ++ after))
    (hafter : (after ++ rest).head? ≠ some closeBrace) :
    formatText q frames (text ++ (after ++ rest)) = formatText q frames (after ++ rest) := by
  fun_induction isFormatText q after text with
  | case1 => rfl
  | case2 => cases h
  | case3 c hc b cs ih =>
    obtain rfl := beq_iff_eq.mp hc
    rw [List.cons_append, List.cons_append, formatText_escape]
    exact ih h
  | case4 => cases h
  | case5 c hc hq hdouble => simp at hdouble
  | case6 c hc b cs hq hdouble ih =>
    rw [← hshows, Bool.not_eq_true, List.cons_append, List.cons_append] at hq
    rw [List.cons_append, List.cons_append,
      formatText_double (by simpa using hc) hq (by simpa using hdouble)]
    exact ih h
  | case7 c cs hc hq hdouble ih =>
    simp only [Bool.and_eq_true, bne_iff_ne] at h
    obtain ⟨hopen, hcs⟩ := h
    have hdouble' : ((c == openBrace || c == closeBrace)
        && (cs ++ (after ++ rest)).head? == some c) = false := by
      cases cs with
      | nil =>
        rw [← Bool.not_eq_true]
        simp only [List.nil_append, Bool.and_eq_true, Bool.or_eq_true, beq_iff_eq]
        rintro ⟨rfl | rfl, hhead⟩
        · exact hopen rfl
        · exact hafter hhead
      | cons b cs => exact Bool.not_eq_true _ ▸ hdouble
    rw [← hshows, Bool.not_eq_true, List.cons_append] at hq
    rw [List.cons_append, formatText_plain (by simpa using hc) hq hdouble' hopen]
    exact ih hcs

/-- The text of the literal goes on behind the brace that closes a field. -/
theorem formatSpec_append {q bytes : List UInt8} {frames : List Frame} {depth : Nat}
    (h : isBalanced depth bytes = true) (rest : List UInt8) :
    formatSpec q frames depth (bytes ++ (closeBrace :: rest)) = formatText q frames rest := by
  fun_induction isBalanced depth bytes with
  | case1 depth =>
    obtain rfl := beq_iff_eq.mp h
    rw [List.nil_append, formatSpec.eq_def]
    rfl
  | case2 depth c cs hc ih =>
    rw [List.cons_append, formatSpec.eq_def]
    simp only [hc, if_true]
    exact ih h
  | case3 => cases h
  | case4 c cs hopen hclose depth ih =>
    rw [List.cons_append, formatSpec.eq_def]
    simp only [hopen, hclose, if_false, if_true, Bool.false_eq_true]
    exact ih h
  | case5 depth c cs hopen hclose ih =>
    rw [List.cons_append, formatSpec.eq_def]
    simp only [hopen, hclose, if_false, Bool.false_eq_true]
    exact ih h

/-! ### What stands behind a token -/

/-- The bytes that end a token: no identifier or quote goes on with them, and no connector begins
with them. -/
def endsToken (b : UInt8) : Bool :=
  !isIdentPart b && !isQuote b && b != point && b != question && b != hyphen

/-- What may stand right behind a token: nothing, or a byte that ends it. -/
def Bounded (u : List UInt8) : Prop :=
  ∀ b ∈ u.head?, endsToken b = true

theorem bounded_cons {b : UInt8} (h : endsToken b = true) (u : List UInt8) : Bounded (b :: u) := by
  intro c hc
  obtain rfl : b = c := by simpa using hc
  exact h

theorem bounded_blanks_append (n : Nat) {u : List UInt8} (hu : Bounded u) :
    Bounded (blanks n ++ u) := by
  cases n with
  | zero => exact hu
  | succ n => exact bounded_cons (by decide) _

theorem bounded_blanks_append_of_pos {n : Nat} (hn : 0 < n) (u : List UInt8) :
    Bounded (blanks n ++ u) := by
  cases n with
  | zero => exact absurd hn (Nat.lt_irrefl 0)
  | succ n => exact bounded_cons (by decide) _

theorem Bounded.head {u : List UInt8} (hu : Bounded u) :
    ∀ b ∈ u.head?, isQuote b = false ∧ isIdentPart b = false := by
  intro b hb
  have h := hu b hb
  simp only [endsToken, Bool.and_eq_true, Bool.not_eq_true'] at h
  exact ⟨h.1.1.1.2, h.1.1.1.1⟩

theorem Bounded.chainEnd_eq {u : List UInt8} (hu : Bounded u) : chainEnd u = u := by
  cases u with
  | nil => rfl
  | cons b u =>
    have hb := hu b rfl
    simp only [endsToken, Bool.and_eq_true, Bool.not_eq_true', bne_iff_ne] at hb
    obtain ⟨⟨⟨⟨hpart, -⟩, hpoint⟩, hquestion⟩, hhyphen⟩ := hb
    rw [chainEnd.eq_def]
    simp [hpart, hpoint, hquestion, hhyphen]

theorem dropWhile_append_of_all {w : List UInt8} (hw : w.all isIdentPart = true)
    (u : List UInt8) : (w ++ u).dropWhile isIdentPart = u.dropWhile isIdentPart := by
  induction w with
  | nil => rfl
  | cons b w ih =>
    rw [List.all_cons, Bool.and_eq_true] at hw
    rw [List.cons_append, List.dropWhile_cons, if_pos hw.1, ih hw.2]

theorem chainEnd_append_of_all {w : List UInt8} (hw : w.all isIdentPart = true)
    (u : List UInt8) : chainEnd (w ++ u) = chainEnd u := by
  induction w with
  | nil => rfl
  | cons b w ih =>
    rw [List.all_cons, Bool.and_eq_true] at hw
    rw [List.cons_append, chainEnd.eq_def]
    simp only [hw.1, if_true]
    exact ih hw.2

theorem Word.all_bytes (w : Word isIdentStart) : w.bytes.all isIdentPart = true := by
  rw [bytes, List.all_cons, isIdentPart_of_isIdentStart w.first_ok, w.more_ok, Bool.and_true]

theorem chainEnd_connector (k : Connector) (w : Word isIdentStart) (u : List UInt8) :
    chainEnd (k.bytes ++ (w.bytes ++ u)) = chainEnd (w.bytes ++ u) := by
  have hstarts : startsIdent (w.bytes ++ u) = true := w.first_ok
  have hpart : isIdentPart point = false := by decide
  have hpart' : isIdentPart question = false := by decide
  have hpart'' : isIdentPart hyphen = false := by decide
  cases k with
  | dot =>
    rw [Connector.bytes, List.cons_append, List.nil_append, chainEnd.eq_def]
    simp [hpart, hstarts]
  | optional =>
    rw [Connector.bytes, List.cons_append, List.cons_append, List.nil_append, chainEnd.eq_def]
    simp [hpart', hstarts, show question ≠ point by decide]
  | arrow =>
    rw [Connector.bytes, List.cons_append, List.cons_append, List.nil_append, chainEnd.eq_def]
    simp [hpart'', hstarts, show hyphen ≠ point by decide]

/-- **A chain ends where its identifiers end.** -/
theorem chainEnd_bytes (n : DottedName) {u : List UInt8} (hu : Bounded u) :
    chainEnd (n.bytes ++ u) = u := by
  have hlinks : ∀ links, chainEnd (DottedName.linkBytes links ++ u) = u := by
    intro links
    induction links with
    | nil => exact hu.chainEnd_eq
    | cons link links ih =>
      obtain ⟨k, w⟩ := link
      rw [DottedName.linkBytes, List.append_assoc, List.append_assoc, chainEnd_connector,
        chainEnd_append_of_all w.all_bytes, ih]
  rw [DottedName.bytes, List.append_assoc, chainEnd_append_of_all n.head.all_bytes, hlinks]

/-! ### Where a literal opens -/

theorem delimiter_triple (b : UInt8) (u : List UInt8) :
    delimiter (b :: b :: b :: u) = [b, b, b] := by
  simp [delimiter]

theorem delimiter_single {b : UInt8} {u : List UInt8} (hu : ¬ [b, b] <+: u) :
    delimiter (b :: u) = [b] := by
  match u, hu with
  | [], _ => rfl
  | [_], _ => rfl
  | a :: c :: u, hu =>
    have hne : ¬ (b = a ∧ a = c) := by
      rintro ⟨rfl, rfl⟩
      exact hu ⟨u, rfl⟩
    simp [delimiter, hne]

/-- The delimiter of a literal is found unless its text makes three quotes out of one. -/
theorem delimiter_append (d : Delimiter) {u : List UInt8}
    (hu : d.triple = false → ¬ [d.quote, d.quote] <+: u) : delimiter (d.bytes ++ u) = d.bytes := by
  unfold Delimiter.bytes
  split
  · exact delimiter_triple _ _
  · next h => exact delimiter_single (hu (by simpa using h))

theorem opening?_letters {letters : List UInt8} (hshort : letters.length ≤ 2)
    (hletters : letters.all isLiteralMark = true) {b : UInt8} (hb : isQuote b = true)
    (u : List UInt8) :
    opening? (letters ++ b :: u) = some (letters.any isFormatMark, b :: u) := by
  have hquote : ∀ a, isLiteralMark a = true → isQuote a = false := fun a ha =>
    isQuote_eq_false_of_isIdentPart (isIdentPart_of_isIdentStart (isIdentStart_of_isLiteralMark ha))
  match letters, hshort, hletters with
  | [], _, _ => simp [opening?, hb]
  | [a], _, h =>
    rw [List.all_cons, Bool.and_eq_true] at h
    simp [opening?, hb, h.1, hquote a h.1]
  | [a, a'], _, h =>
    rw [List.all_cons, List.all_cons, Bool.and_eq_true, Bool.and_eq_true] at h
    simp [opening?, hb, h.1, h.2.1, hquote a h.1, hquote a' h.2.1]

/-- No literal opens at a word that no quote follows. -/
theorem opening?_word {w u : List UInt8} (hne : w ≠ []) (hw : w.all isIdentPart = true)
    (hu : ∀ b ∈ u.head?, isQuote b = false ∧ isIdentPart b = false) : opening? (w ++ u) = none := by
  have hquote : ∀ a, isIdentPart a = true → isQuote a = false := fun a =>
    isQuote_eq_false_of_isIdentPart
  have hmark : ∀ a, isIdentPart a = false → isLiteralMark a = false := by
    intro a ha
    rw [← Bool.not_eq_true] at ha ⊢
    exact fun h => ha (isIdentPart_of_isIdentStart (isIdentStart_of_isLiteralMark h))
  match w, hne, hw with
  | [a], _, h =>
    rw [List.all_cons, Bool.and_eq_true] at h
    cases u with
    | nil => simp [opening?, hquote a h.1]
    | cons b u =>
      have hb := hu b rfl
      simp [opening?, hquote a h.1, hb.1, hmark b hb.2]
  | [a, a'], _, h =>
    rw [List.all_cons, List.all_cons, Bool.and_eq_true, Bool.and_eq_true] at h
    cases u with
    | nil => simp [opening?, hquote a h.1, hquote a' h.2.1]
    | cons b u =>
      have hb := hu b rfl
      simp [opening?, hquote a h.1, hquote a' h.2.1, hb.1]
  | a :: a' :: a'' :: w, _, h =>
    rw [List.all_cons, List.all_cons, List.all_cons, Bool.and_eq_true, Bool.and_eq_true,
      Bool.and_eq_true] at h
    simp [opening?, hquote a h.1, hquote a' h.2.1, hquote a'' h.2.2.1]

theorem literal?_word {w u : List UInt8} {frames : List Frame} {c : UInt8} {cs : List UInt8}
    (hcs : c :: cs = w ++ u) (hne : w ≠ []) (hw : w.all isIdentPart = true)
    (hu : ∀ b ∈ u.head?, isQuote b = false ∧ isIdentPart b = false) :
    literal? frames c cs = none := by
  have hc : isIdentPart c = true := by
    cases w with
    | nil => exact absurd rfl hne
    | cons a w =>
      rw [List.cons_append, List.cons.injEq] at hcs
      rw [List.all_cons, Bool.and_eq_true] at hw
      exact hcs.1 ▸ hw.1
  have hback : (c == backquote) = false :=
    beq_eq_false_iff_ne.mpr (ne_backquote_of_isIdentPart hc)
  rw [literal?, hback, hcs, opening?_word hne hw hu]
  rfl

/-- No literal opens at a byte that is neither a quote nor part of an identifier. -/
theorem literal?_mark {frames : List Frame} {c : UInt8} {cs : List UInt8}
    (hpart : isIdentPart c = false) (hquote : isQuote c = false) (hback : c ≠ backquote) :
    literal? frames c cs = none := by
  have hmark : isLiteralMark c = false := by
    rw [← Bool.not_eq_true] at hpart ⊢
    exact fun h => hpart (isIdentPart_of_isIdentStart (isIdentStart_of_isLiteralMark h))
  rw [literal?, beq_eq_false_iff_ne.mpr hback]
  simp [opening?, hquote, hmark]

/-- The text of a plain literal in one quote does not begin with the quote. -/
theorem head_quotedText {d : Delimiter} {text : List UInt8} (hsingle : d.triple = false)
    (h : isQuotedText d.bytes text = true) : text.head? ≠ some d.quote := by
  rintro htext
  obtain ⟨cs, rfl⟩ := List.head?_eq_some_iff.mp htext
  have hne : d.quote ≠ backslash := Delimiter.quote_ne (by decide)
  rw [isQuotedText.eq_def] at h
  simp [hne, Delimiter.bytes, hsingle] at h

/-- Nor does a text part of a formatted literal. -/
theorem head_formatText {d : Delimiter} {after text : List UInt8} (hsingle : d.triple = false)
    (h : isFormatText d.bytes after text = true) : text.head? ≠ some d.quote := by
  rintro htext
  obtain ⟨cs, rfl⟩ := List.head?_eq_some_iff.mp htext
  have hne : d.quote ≠ backslash := Delimiter.quote_ne (by decide)
  rw [isFormatText.eq_def] at h
  simp [hne, Delimiter.bytes, hsingle] at h

/-- One quote is not taken for three: the text does not begin with the quote, and what follows an
empty literal is no quote. -/
theorem not_doubled {d : Delimiter} {text u : List UInt8} (htext : text.head? ≠ some d.quote)
    (hsingle : d.triple = false) (hu : Bounded u) :
    ¬ [d.quote, d.quote] <+: text ++ (d.bytes ++ u) := by
  rintro ⟨v, hv⟩
  cases text with
  | nil =>
    have hbytes : d.bytes = [d.quote] := by simp [Delimiter.bytes, hsingle]
    rw [hbytes] at hv
    simp only [List.nil_append, List.cons_append, List.cons.injEq, true_and] at hv
    have := (hu.head d.quote (by rw [← hv]; rfl)).1
    rw [d.quote_ok] at this
    cases this
  | cons c cs =>
    simp only [List.cons_append, List.cons.injEq] at hv
    exact htext (by rw [hv.1]; rfl)

/-- A literal opens at its letters, and its text is read with the delimiter that follows them. -/
theorem exists_literal? {formatted : Bool} (start : LiteralStart formatted) {d : Delimiter}
    {u : List UInt8} (hd : delimiter (d.bytes ++ u) = d.bytes) (frames : List Frame) :
    ∃ c cs, start.letters ++ (d.bytes ++ u) = c :: cs ∧ literal? frames c cs =
      some (if formatted then formatText d.bytes frames u
        else ⟨frames, quotedText d.bytes u⟩) := by
  obtain ⟨q, hq⟩ := d.bytes_eq_cons
  have hopen := opening?_letters start.short start.letters_ok d.quote_ok (q ++ u)
  rw [start.formats, ← List.cons_append, ← hq] at hopen
  cases hcs : start.letters ++ (d.bytes ++ u) with
  | nil => simp [hcs, opening?] at hopen
  | cons c cs =>
    refine ⟨c, cs, rfl, ?_⟩
    rw [hcs] at hopen
    have hback : (c == backquote) = false := by
      rw [beq_eq_false_iff_ne]
      rintro rfl
      simp [opening?, show isQuote backquote = false by decide,
        show isLiteralMark backquote = false by decide] at hopen
    rw [literal?, hback, hopen]
    simp only [hd, List.drop_left]
    rfl

/-! ### Brackets and the open substitutions -/

/-- Code is read as code under a stack of frames: a colon or an exclamation mark does not end it,
or it has none. -/
def Admits (field : Bool) (frames : List Frame) : Prop :=
  field = true ∨ ∀ q outer, frames ≠ .field q 0 :: outer

theorem admits_nil : Admits false [] :=
  Or.inr fun _ _ h => nomatch h

theorem admits_template (outer : List Frame) : Admits false (.template 0 :: outer) :=
  Or.inr fun _ _ h => nomatch h

/-- The frames behind an opening bracket. -/
def opened (b : Bracket) : List Frame → List Frame
  | .template depth :: outer => .template (if b = .curly then depth + 1 else depth) :: outer
  | .field q depth :: outer => .field q (depth + 1) :: outer
  | [] => []

theorem admits_opened (b : Bracket) (frames : List Frame) : Admits false (opened b frames) := by
  refine Or.inr fun q outer heq => ?_
  match frames with
  | [] => cases heq
  | .template _ :: _ => cases heq
  | .field _ _ :: _ => cases heq

theorem brace_opening (b : Bracket) (frames : List Frame) (cs : List UInt8) :
    brace frames b.opening cs = .inside (opened b frames) := by
  match frames, b with
  | [], _ => rfl
  | .template _ :: _, .round => rfl
  | .template _ :: _, .square => rfl
  | .template _ :: _, .curly => rfl
  | .field _ _ :: _, .round => rfl
  | .field _ _ :: _, .square => rfl
  | .field _ _ :: _, .curly => rfl

/-- A closing bracket undoes what its opening bracket did to the frames. -/
theorem brace_closing (b : Bracket) (frames : List Frame) (cs : List UInt8) :
    brace (opened b frames) b.closing cs = .inside frames := by
  match frames, b with
  | [], _ => rfl
  | .template _ :: _, .round => rfl
  | .template _ :: _, .square => rfl
  | .template _ :: _, .curly => rfl
  | .field _ _ :: _, .round => rfl
  | .field _ _ :: _, .square => rfl
  | .field _ _ :: _, .curly => rfl

/-- A byte that is no bracket leaves the frames as they are, unless it ends the code of a field. -/
theorem brace_plain {frames : List Frame} {c : UInt8}
    (hc : c ≠ openParen ∧ c ≠ closeParen ∧ c ≠ openSquare ∧ c ≠ closeSquare ∧ c ≠ openBrace ∧
      c ≠ closeBrace)
    (hends : (c = colon ∨ c = bang) → ∀ q outer, frames ≠ .field q 0 :: outer)
    (cs : List UInt8) : brace frames c cs = .inside frames := by
  obtain ⟨h1, h2, h3, h4, h5, h6⟩ := hc
  match frames, hends with
  | [], _ => rfl
  | .template _ :: _, _ => simp [brace, h5, h6]
  | .field q 0 :: outer, hends =>
    have hcolon : c ≠ colon := fun h => hends (Or.inl h) q outer rfl
    have hbang : c ≠ bang := fun h => hends (Or.inr h) q outer rfl
    simp [brace, h1, h2, h3, h4, h5, h6, hcolon, hbang]
  | .field _ (_ + 1) :: _, _ => simp [brace, h1, h2, h3, h4, h5, h6]

/-! ### One lexeme -/

section

variable {g : Grain} {frames fs : List Frame} {c : UInt8} {cs u bytes : List UInt8}
  {k : LexemeKind}

/-- The first lexeme is what stands before the place that the lexer comes to. -/
theorem lexemes_cons (hnext : next g frames c cs = (k, ⟨fs, u⟩)) (hcs : c :: cs = bytes ++ u) :
    lexemes g frames (c :: cs) = ⟨k, bytes⟩ :: lexemes g fs u := by
  have hlen : cs.length + 1 - u.length = bytes.length := by
    have := congrArg List.length hcs
    rw [List.length_cons, List.length_append] at this
    omega
  rw [lexemes]
  simp only [hnext, hlen]
  rw [hcs, List.take_left]

theorem next_of_literal? {place : Place} (h : literal? frames c cs = some place) :
    next g frames c cs = (.literal, place) := by
  rw [next, h]

theorem next_of_resumed {place : Place} (hlit : literal? frames c cs = none)
    (h : brace frames c cs = .resumed place) : next g frames c cs = (.literal, place) := by
  rw [next, hlit]
  simp only [h]

theorem next_mark (hlit : literal? frames c cs = none) (hbrace : brace frames c cs = .inside fs)
    (hpart : isIdentPart c = false) : next g frames c cs = (.mark, ⟨fs, cs⟩) := by
  rw [isIdentPart, Bool.or_eq_false_iff] at hpart
  rw [next, hlit]
  simp only [hbrace, hpart.1, hpart.2, if_false, Bool.false_eq_true]

theorem lexemes_mark (hpart : isIdentPart c = false) (hquote : isQuote c = false)
    (hback : c ≠ backquote) (hbrace : brace frames c cs = .inside fs) :
    lexemes g frames (c :: cs) = markOf c :: lexemes g fs cs :=
  lexemes_cons (next_mark (literal?_mark hpart hquote hback) hbrace hpart) rfl

theorem lexemes_blanks (n : Nat) (u : List UInt8) :
    lexemes g frames (blanks n ++ u) = (blanks n).map markOf ++ lexemes g frames u := by
  induction n with
  | zero => rfl
  | succ n ih =>
    have hbrace : brace frames space (blanks n ++ u) = .inside frames :=
      brace_plain (by decide) (fun h => absurd h (by decide)) _
    rw [blanks, List.replicate_succ, List.cons_append, ← blanks,
      lexemes_mark (by decide) (by decide) (by decide) hbrace, ih]
    rfl

end

/-! ### Tokens without code inside -/

section

variable {g : Grain} {frames : List Frame} {u : List UInt8}

/-- Brackets, colons and exclamation marks are not part of identifiers. -/
theorem brace_identPart {c : UInt8} (hc : isIdentPart c = true) (cs : List UInt8) :
    brace frames c cs = .inside frames := by
  have hne : ∀ b, isIdentPart b = false → c ≠ b := by
    rintro b hb rfl
    rw [hc] at hb
    cases hb
  refine brace_plain ⟨hne _ (by decide), hne _ (by decide), hne _ (by decide), hne _ (by decide),
    hne _ (by decide), hne _ (by decide)⟩ ?_ cs
  rintro (h | h)
  · exact absurd h (hne _ (by decide))
  · exact absurd h (hne _ (by decide))

/-- A byte that joins identifiers or the parts of a number is read as a mark. -/
theorem lexemes_joint {c : UInt8} (hc : c = point ∨ c = question ∨ c = hyphen ∨ c = greater)
    (cs : List UInt8) : lexemes g frames (c :: cs) = markOf c :: lexemes g frames cs := by
  have hplain : ∀ b : UInt8, (b ≠ openParen ∧ b ≠ closeParen ∧ b ≠ openSquare ∧ b ≠ closeSquare ∧
      b ≠ openBrace ∧ b ≠ closeBrace) → ¬ (b = colon ∨ b = bang) →
      brace frames b cs = .inside frames :=
    fun b hb hends => brace_plain hb (fun h => absurd h hends) cs
  rcases hc with rfl | rfl | rfl | rfl <;>
    exact lexemes_mark (by decide) (by decide) (by decide) (hplain _ (by decide) (by decide))

theorem lexemes_word (w : Word isIdentStart)
    (hu : ∀ b ∈ u.head?, isQuote b = false ∧ isIdentPart b = false) :
    lexemes .word frames (w.bytes ++ u) = ⟨.name, w.bytes⟩ :: lexemes .word frames u := by
  have hpart := isIdentPart_of_isIdentStart w.first_ok
  have hlit : literal? frames w.first (w.more ++ u) = none :=
    literal?_word (w := w.bytes) rfl (List.cons_ne_nil _ _) w.all_bytes hu
  have hend : nameEnd .word (w.first :: (w.more ++ u)) = u := by
    rw [nameEnd, List.dropWhile_cons, if_pos hpart, dropWhile_append_of_all w.more_ok]
    cases u with
    | nil => rfl
    | cons b u => rw [List.dropWhile_cons, (hu b rfl).2, if_neg (by decide)]
  rw [Word.bytes, List.cons_append]
  refine lexemes_cons ?_ rfl
  rw [next, hlit]
  simp only [brace_identPart hpart, w.first_ok, if_true, hend]

theorem lexemes_number (w : Word isDigit)
    (hu : ∀ b ∈ u.head?, isIdentPart b = false) :
    lexemes g frames (w.bytes ++ u) = ⟨.number, w.bytes⟩ :: lexemes g frames u := by
  have hpart := isIdentPart_of_isDigit w.first_ok
  have hstart := isIdentStart_eq_false_of_isDigit w.first_ok
  have hmark : isLiteralMark w.first = false := by
    rw [← Bool.not_eq_true]
    exact fun h => by rw [isIdentStart_of_isLiteralMark h] at hstart; cases hstart
  have hlit : literal? frames w.first (w.more ++ u) = none := by
    rw [literal?, beq_eq_false_iff_ne.mpr (ne_backquote_of_isIdentPart hpart)]
    simp [opening?, isQuote_eq_false_of_isIdentPart hpart, hmark]
  have hend : (w.more ++ u).dropWhile isIdentPart = u := by
    rw [dropWhile_append_of_all w.more_ok]
    cases u with
    | nil => rfl
    | cons b u => rw [List.dropWhile_cons, hu b rfl, if_neg (by decide)]
  rw [Word.bytes, List.cons_append]
  refine lexemes_cons ?_ rfl
  rw [next, hlit]
  simp only [brace_identPart hpart, hstart, w.first_ok, if_true, if_false, hend,
    Bool.false_eq_true]

/-- What stands behind an identifier of a chain is no quote and no part of an identifier. -/
theorem head_linkBytes (links : List (Connector × Word isIdentStart)) (hu : Bounded u) :
    ∀ b ∈ (DottedName.linkBytes links ++ u).head?, isQuote b = false ∧ isIdentPart b = false := by
  cases links with
  | nil => exact hu.head
  | cons link links =>
    obtain ⟨k, w⟩ := link
    intro b hb
    cases k with
    | dot | optional | arrow =>
      obtain rfl := Option.some.inj hb
      decide

theorem lexemes_links (links : List (Connector × Word isIdentStart)) (hu : Bounded u) :
    lexemes .word frames (DottedName.linkBytes links ++ u) =
      DottedName.linkLexemes links ++ lexemes .word frames u := by
  induction links with
  | nil => rfl
  | cons link links ih =>
    obtain ⟨k, w⟩ := link
    have hjoint : ∀ bs : List UInt8,
        (∀ b ∈ bs, b = point ∨ b = question ∨ b = hyphen ∨ b = greater) → ∀ v,
        lexemes .word frames (bs ++ v) = bs.map markOf ++ lexemes .word frames v := by
      intro bs hbs v
      induction bs with
      | nil => rfl
      | cons b bs ih =>
        rw [List.cons_append, lexemes_joint (hbs b List.mem_cons_self),
          ih fun b hb => hbs b (List.mem_cons_of_mem _ hb)]
        rfl
    rw [DottedName.linkBytes, List.append_assoc, List.append_assoc,
      hjoint k.bytes fun _ => Connector.mem_bytes, lexemes_word w (head_linkBytes links hu), ih]
    simp [DottedName.linkLexemes]

theorem lexemes_chain (n : DottedName) (hu : Bounded u) :
    lexemes g frames (n.bytes ++ u) = n.lexed g ++ lexemes g frames u := by
  cases g with
  | word =>
    rw [DottedName.bytes, List.append_assoc, lexemes_word _ (head_linkBytes n.links hu),
      lexemes_links n.links hu]
    rfl
  | chain =>
    have hpart := isIdentPart_of_isIdentStart n.head.first_ok
    have hlit : literal? frames n.head.first (n.head.more ++ (DottedName.linkBytes n.links ++ u))
        = none :=
      literal?_word (w := n.head.bytes) rfl (List.cons_ne_nil _ _) n.head.all_bytes
        (head_linkBytes n.links hu)
    have hcons : n.bytes ++ u =
        n.head.first :: (n.head.more ++ (DottedName.linkBytes n.links ++ u)) := by
      rw [DottedName.bytes, List.append_assoc]
      rfl
    have hend := chainEnd_bytes n hu
    rw [hcons] at hend ⊢
    refine lexemes_cons ?_ hcons.symm
    rw [next, hlit]
    simp only [brace_identPart hpart, n.head.first_ok, if_true, nameEnd, hend]

theorem lexemes_quoted (l : Quoted) (hu : Bounded u) :
    lexemes g frames (l.bytes ++ u) = ⟨.literal, l.bytes⟩ :: lexemes g frames u := by
  have hdelimiter : delimiter (l.delimiter.bytes ++ (l.text ++ (l.delimiter.bytes ++ u))) =
      l.delimiter.bytes :=
    delimiter_append _ fun hsingle =>
      not_doubled (head_quotedText hsingle l.text_ok) hsingle hu
  have hbytes : l.bytes ++ u = l.start.letters ++
      (l.delimiter.bytes ++ (l.text ++ (l.delimiter.bytes ++ u))) := by
    simp [Quoted.bytes]
  obtain ⟨c, cs, hcs, hlit⟩ := exists_literal? l.start hdelimiter frames
  rw [hbytes, hcs]
  refine lexemes_cons (next_of_literal? ?_) (hcs.symm.trans hbytes.symm)
  rw [hlit, if_neg (by decide), quotedText_append l.text_ok]

/-- A mark is read as a mark. -/
theorem lexemes_punctuation {field : Bool} (m : Punctuation field) (h : Admits field frames) :
    lexemes g frames (m.byte :: u) = markOf m.byte :: lexemes g frames u := by
  have hok := m.ok
  simp only [isPunctuation, isReserved, Bool.and_eq_true, Bool.not_eq_true', Bool.or_eq_false_iff,
    beq_eq_false_iff_ne] at hok
  obtain ⟨⟨hpart, ⟨⟨⟨⟨⟨⟨⟨⟨-, h1⟩, h2⟩, h3⟩, h4⟩, h5⟩, h6⟩, hquote⟩, hback⟩, -⟩, hends⟩ := hok
  refine lexemes_mark hpart hquote hback (brace_plain ⟨h1, h2, h3, h4, h5, h6⟩ ?_ u)
  intro hbyte
  rcases h with rfl | h
  · rcases hbyte with hbyte | hbyte <;> simp [hbyte] at hends
  · exact h

/-- **A token without code inside is read as itself.** -/
theorem lexemes_leaf {field : Bool} (l : Leaf field) (h : Admits field frames) (hu : Bounded u) :
    lexemes g frames (l.bytes ++ u) = l.lexed g ++ lexemes g frames u := by
  cases l with
  | chain n => exact lexemes_chain n hu
  | mark m => exact lexemes_punctuation m h
  | quoted l => exact lexemes_quoted l hu
  | number n =>
    obtain ⟨whole, fraction⟩ := n
    have hhead : ∀ b ∈ u.head?, isIdentPart b = false := fun b hb => (hu.head b hb).2
    cases fraction with
    | none => simpa [Leaf.bytes, NumberText.bytes, NumberText.fractionBytes, Leaf.lexed,
        NumberText.fractionLexemes] using lexemes_number whole hhead
    | some w =>
      have hpoint : ∀ b ∈ ((point :: w.bytes) ++ u).head?, isIdentPart b = false := by
        intro b hb
        obtain rfl := Option.some.inj hb
        decide
      rw [Leaf.bytes, NumberText.bytes, List.append_assoc, NumberText.fractionBytes,
        lexemes_number whole hpoint, List.cons_append, lexemes_joint (by decide),
        lexemes_number w hhead]
      rfl

end

/-! ### Trees -/

section

variable {field : Bool} {g : Grain} {outer : List Frame} {u : List UInt8}

theorem bounded_render (t : Tree (.code field true)) (hu : Bounded u) :
    Bounded (t.render ++ u) := by
  cases t with
  | done gap => exact bounded_blanks_append gap hu
  | leaf gap | group gap | template gap | format gap =>
    rw [Tree.render, List.append_assoc]
    exact bounded_blanks_append_of_pos (gap.2 rfl) _

theorem head_blanks_append_ne {b : UInt8} (hb : b ≠ space) {n : Nat} (hn : 0 < n) :
    (blanks n ++ u).head? ≠ some b := by
  cases n with
  | zero => exact absurd hn (Nat.lt_irrefl 0)
  | succ n => exact fun h => hb (Option.some.inj h).symm

/-- Spaced code begins with a blank or is empty. -/
theorem head_render_ne {b : UInt8} (hb : b ≠ space) (t : Tree (.code field true))
    (hu : u.head? ≠ some b) : (t.render ++ u).head? ≠ some b := by
  cases t with
  | done gap =>
    cases gap with
    | zero => exact hu
    | succ gap => exact head_blanks_append_ne hb (Nat.succ_pos gap)
  | leaf gap | group gap | template gap | format gap =>
    rw [Tree.render, List.append_assoc]
    exact head_blanks_append_ne hb (gap.2 rfl)

theorem FieldTail.head_append {tail : FieldTail} {b : UInt8}
    (hb : b ∈ (tail.bytes ++ closeBrace :: u).head?) : b = closeBrace ∨ b = colon ∨ b = bang := by
  have hbegins := tail.begins
  cases hbytes : tail.bytes with
  | nil =>
    rw [hbytes] at hb
    exact Or.inl (Option.some.inj hb).symm
  | cons c cs =>
    rw [hbytes] at hb hbegins
    obtain rfl := Option.some.inj hb
    simp only [List.isEmpty_cons, isConversion, Bool.false_or, Bool.or_eq_true, Bool.and_eq_true,
      beq_iff_eq] at hbegins
    rcases hbegins with h | h
    · exact Or.inr (Or.inl h)
    · exact Or.inr (Or.inr h.1)

theorem FieldTail.bounded_append (tail : FieldTail) : Bounded (tail.bytes ++ closeBrace :: u) := by
  intro b hb
  rcases FieldTail.head_append hb with rfl | rfl | rfl <;> decide

/-- What follows the code of a field is passed over, and the text of the literal goes on. -/
theorem FieldTail.exists_next (tail : FieldTail) (q : List UInt8) :
    ∃ c cs, tail.bytes ++ closeBrace :: u = c :: cs ∧
      next g (.field q 0 :: outer) c cs = (.literal, formatText q outer u) := by
  have hbalanced := tail.balanced
  have hbegins := tail.begins
  cases hbytes : tail.bytes with
  | nil =>
    exact ⟨closeBrace, u, rfl,
      next_of_resumed (literal?_mark (by decide) (by decide) (by decide)) rfl⟩
  | cons c cs =>
    rw [hbytes] at hbalanced hbegins
    have hspec : formatSpec q outer 0 (c :: (cs ++ closeBrace :: u)) = formatText q outer u :=
      formatSpec_append hbalanced u
    refine ⟨c, cs ++ closeBrace :: u, rfl, ?_⟩
    rw [← hspec]
    simp only [List.isEmpty_cons, isConversion, Bool.false_or, Bool.or_eq_true, Bool.and_eq_true,
      beq_iff_eq, bne_iff_ne] at hbegins
    rcases hbegins with rfl | ⟨rfl, hne⟩
    · exact next_of_resumed (literal?_mark (by decide) (by decide) (by decide)) rfl
    · have hhead : ((cs ++ closeBrace :: u).head?.map (· != equals)).getD false = true := by
        cases cs with
        | nil => rfl
        | cons b cs => simpa using hne
      refine next_of_resumed (literal?_mark (by decide) (by decide) (by decide)) ?_
      unfold brace
      rw [hhead]
      rfl

/-- The delimiter of a formatted literal is found. -/
theorem delimiter_render {d : Delimiter} (parts : Tree (.format d)) (hu : Bounded u) :
    delimiter (d.bytes ++ (parts.render ++ u)) = d.bytes := by
  refine delimiter_append d fun hsingle => ?_
  cases parts with
  | formatEnd text =>
    rw [Tree.render, List.append_assoc]
    exact not_doubled (head_formatText hsingle text.ok) hsingle hu
  | field text inside tail more =>
    have hhead := head_formatText hsingle text.ok
    rintro ⟨v, hv⟩
    rw [Tree.render] at hv
    cases htext : text.bytes with
    | nil =>
      simp only [htext, List.nil_append, List.cons_append, List.cons.injEq] at hv
      exact Delimiter.quote_ne (by decide) hv.1
    | cons c cs =>
      simp only [htext, List.cons_append, List.cons.injEq] at hv
      exact hhead (by rw [htext, hv.1]; rfl)

/-- How the lexer reads on from a text part of a literal. -/
def Region.readText : Region → List Frame → List UInt8 → Place
  | .code _ _, frames, u => ⟨frames, u⟩
  | .template, frames, u => templateText frames u
  | .format d, frames, u => formatText d.bytes frames u

/-- The lexer reads a tree back.  Code may stand under any frames that admit it.  The rest of a
literal is entered from a lexeme that begins with `head`, and is left with the frames `outer`
around the literal. -/
def Reads (g : Grain) : {r : Region} → Tree r → Prop
  | .code field _, t => ∀ frames rest, Admits field frames → Bounded rest →
    lexemes g frames (t.render ++ rest) = t.lexed g [] ++ lexemes g frames rest
  | r, t => ∀ frames outer head c cs rest, c :: cs = head ++ (t.render ++ rest) →
    next g frames c cs = (.literal, r.readText outer (t.render ++ rest)) →
    lexemes g frames (c :: cs) = t.lexed g head ++ lexemes g outer rest

/-- **The lexer reads trees back.** -/
theorem lexemes_render {r : Region} (t : Tree r) : Reads g t := by
  induction t with
  | done gap =>
    intro frames rest _ _
    exact lexemes_blanks gap rest
  | leaf gap l rest ih =>
    intro frames after hadmits hafter
    rw [Tree.render, Tree.lexed, List.append_assoc, List.append_assoc, List.append_assoc,
      List.append_assoc, lexemes_blanks, lexemes_leaf l hadmits (bounded_render rest hafter),
      ih frames after hadmits hafter]
  | group gap b inside rest ihInside ihRest =>
    intro frames after hadmits hafter
    have hopening : isIdentPart b.opening = false ∧ isQuote b.opening = false ∧
        b.opening ≠ backquote := by cases b <;> decide
    have hclosing : isIdentPart b.closing = false ∧ isQuote b.closing = false ∧
        b.closing ≠ backquote := by cases b <;> decide
    -- the frames behind the opening bracket are those before the closing one
    have hin := ihInside (opened b frames) (blanks 1 ++ b.closing :: (rest.render ++ after))
      (admits_opened b frames) (bounded_blanks_append_of_pos Nat.one_pos _)
    rw [lexemes_blanks, lexemes_mark hclosing.1 hclosing.2.1 hclosing.2.2
      (brace_closing b frames _), ihRest frames after hadmits hafter] at hin
    rw [Tree.render, List.append_assoc, lexemes_blanks, List.cons_append,
      lexemes_mark hopening.1 hopening.2.1 hopening.2.2 (brace_opening b frames _)]
    simpa [Tree.lexed, blanks] using hin
  | template gap parts rest ihParts ihRest =>
    intro frames after hadmits hafter
    have hparts : lexemes g frames (backquote :: (parts.render ++ (rest.render ++ after))) =
        parts.lexed g [backquote] ++ lexemes g frames (rest.render ++ after) :=
      ihParts frames frames [backquote] _ _ _ rfl (next_of_literal? rfl)
    rw [Tree.render, List.append_assoc, lexemes_blanks, List.cons_append, List.append_assoc,
      hparts, ihRest frames after hadmits hafter]
    simp [Tree.lexed]
  | format gap start d parts rest ihParts ihRest =>
    intro frames after hadmits hafter
    obtain ⟨c, cs, hcs, hlit⟩ := exists_literal? start
      (delimiter_render parts (bounded_render rest hafter)) frames
    have hparts := ihParts frames frames (start.letters ++ d.bytes) c cs (rest.render ++ after)
      (by rw [← hcs, List.append_assoc]) (next_of_literal? hlit)
    rw [Tree.render, List.append_assoc, lexemes_blanks, List.append_assoc, List.append_assoc,
      List.append_assoc, hcs, hparts, ihRest frames after hadmits hafter]
    simp [Tree.lexed]
  | templateEnd text =>
    intro frames outer head c cs rest hcs hnext
    rw [Tree.render, List.append_assoc, List.singleton_append] at hcs hnext
    rw [Region.readText, templateText_append text.ok outer (by simp [backquote, openBrace]),
      templateText_close] at hnext
    exact lexemes_cons hnext (by rw [hcs]; simp)
  | substitution text inside more ihInside ihMore =>
    intro frames outer head c cs rest hcs hnext
    rw [Tree.render, List.append_assoc, List.cons_append, List.cons_append, List.append_assoc,
      List.cons_append] at hcs hnext
    rw [Region.readText, templateText_append text.ok outer (by simp [dollar, openBrace]),
      templateText_open] at hnext
    have hfirst : lexemes g frames (c :: cs) =
        ⟨.literal, head ++ (text.bytes ++ [dollar, openBrace])⟩ ::
          lexemes g (.template 0 :: outer)
            (inside.render ++ (closeBrace :: (more.render ++ rest))) :=
      lexemes_cons hnext (by rw [hcs]; simp)
    -- the code of a substitution closes its own braces, so this one ends the substitution
    have hmore : lexemes g (.template 0 :: outer) (closeBrace :: (more.render ++ rest)) =
        more.lexed g [closeBrace] ++ lexemes g outer rest :=
      ihMore _ outer [closeBrace] _ _ rest rfl
        (next_of_resumed (literal?_mark (by decide) (by decide) (by decide)) rfl)
    rw [hfirst, ihInside _ _ (admits_template outer) (bounded_cons (by decide) _), hmore]
    simp [Tree.lexed]
  | @formatEnd d text =>
    intro frames outer head c cs rest hcs hnext
    obtain ⟨q, hq⟩ := d.bytes_eq_cons
    have hhead : (d.bytes ++ rest).head? ≠ some closeBrace := by
      rw [hq]
      exact fun h => Delimiter.quote_ne (by decide) (Option.some.inj h)
    rw [Tree.render, List.append_assoc] at hcs hnext
    rw [Region.readText, formatText_append text.ok outer (fun x => isPrefixOf_append_self _ x _)
      hhead, formatText_delimiter] at hnext
    exact lexemes_cons hnext (by rw [hcs]; simp)
  | @field d text inside tail more ihInside ihMore =>
    intro frames outer head c cs rest hcs hnext
    have hbrace : openBrace ∉ d.bytes := Delimiter.notMem_bytes (by decide)
    have hhead : (inside.render ++ (tail.bytes ++ (closeBrace :: (more.render ++ rest)))).head? ≠
        some openBrace := by
      refine head_render_ne (by decide) inside fun h => ?_
      rcases FieldTail.head_append h with h | h | h <;> exact absurd h (by decide)
    rw [Tree.render, List.append_assoc, List.cons_append, List.append_assoc, List.append_assoc,
      List.cons_append] at hcs hnext
    -- a second brace would make the first one text, but the code inside begins with none
    have hopen := formatText_append text.ok outer
      (fun x => isPrefixOf_append_of_notMem hbrace x
        (inside.render ++ (tail.bytes ++ (closeBrace :: (more.render ++ rest)))))
      (by simp [openBrace, closeBrace])
    rw [List.singleton_append, formatText_open (isPrefixOf_cons_of_notMem d hbrace _) hhead]
      at hopen
    rw [Region.readText, hopen] at hnext
    have hfirst : lexemes g frames (c :: cs) = ⟨.literal, head ++ (text.bytes ++ [openBrace])⟩ ::
        lexemes g (.field d.bytes 0 :: outer)
          (inside.render ++ (tail.bytes ++ (closeBrace :: (more.render ++ rest)))) :=
      lexemes_cons hnext (by rw [hcs]; simp)
    obtain ⟨c', cs', hcs', hnext'⟩ := tail.exists_next d.bytes
    have hmore := ihMore (.field d.bytes 0 :: outer) outer (tail.bytes ++ [closeBrace]) c' cs' rest
      (by rw [← hcs']; simp) hnext'
    rw [hfirst, ihInside _ _ (Or.inl rfl) tail.bounded_append, hcs', hmore]
    simp [Tree.lexed]

end

end TaintFlow.Expr
