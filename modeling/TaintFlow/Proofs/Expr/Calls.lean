import Mathlib.Data.List.Basic
import TaintFlow.Proofs.Expr.Lexing

/-!
# The names and calls of a tree

What the lexer finds in the rendering of a tree is what stands in the tree: the chains in their
places, the distinct names, and as calls the chains that a group in round brackets follows, each
with the range up to the parenthesis that closes the group.  The search for that parenthesis starts
with no open substitution in the middle of the expression, even inside a substitution; it finds the
right one because a tree of code is read alike under all frames.

## Main definitions

* `Neutral` — lexemes that leave the depth of parentheses as it is.

## Main results

* `chains_render` — the chains of a rendered expression.
* `closingParen?_render` — the parenthesis that closes a group.
* `callAt?_occurrence` — a chain begins a call when a group in round brackets follows it.
* `names_and_calls_render` — the names and calls of a rendered expression.
-/

namespace TaintFlow.Expr

/-! ### The bytes of lexemes -/

/-- The number of bytes of some lexemes. -/
def byteCount (ls : List Lexeme) : Nat :=
  (ls.flatMap (·.bytes)).length

@[simp] theorem byteCount_nil : byteCount [] = 0 := rfl

@[simp] theorem byteCount_cons (l : Lexeme) (ls : List Lexeme) :
    byteCount (l :: ls) = l.bytes.length + byteCount ls := by
  simp [byteCount]

@[simp] theorem byteCount_append (ls ms : List Lexeme) :
    byteCount (ls ++ ms) = byteCount ls + byteCount ms := by
  simp [byteCount]

@[simp] theorem byteCount_marks (bs : List UInt8) : byteCount (bs.map markOf) = bs.length := by
  induction bs with
  | nil => rfl
  | cons b bs ih =>
    rw [List.map_cons, byteCount_cons, ih]
    exact Nat.add_comm _ _

@[simp] theorem length_blanks (n : Nat) : (blanks n).length = n :=
  List.length_replicate

theorem byteCount_leaf {field : Bool} (g : Grain) (l : Leaf field) :
    byteCount (l.lexed g) = l.bytes.length := by
  cases l with
  | mark m => rfl
  | quoted l => simp [Leaf.lexed, Leaf.bytes]
  | number n =>
    obtain ⟨whole, fraction⟩ := n
    cases fraction with
    | none => simp [Leaf.lexed, Leaf.bytes, NumberText.bytes, NumberText.fractionLexemes,
        NumberText.fractionBytes]
    | some w => simp [Leaf.lexed, Leaf.bytes, NumberText.bytes, NumberText.fractionLexemes,
        NumberText.fractionBytes, Nat.add_comm]
  | chain n =>
    cases g with
    | chain => simp [Leaf.lexed, Leaf.bytes, DottedName.lexed]
    | word =>
      have hlinks : ∀ links,
          byteCount (DottedName.linkLexemes links) = (DottedName.linkBytes links).length := by
        intro links
        induction links with
        | nil => rfl
        | cons link links ih => simp [DottedName.linkLexemes, DottedName.linkBytes, ih]
      simp [Leaf.lexed, Leaf.bytes, DottedName.lexed, DottedName.bytes, hlinks]

/-- What the first lexeme of the rest of a literal begins with; nothing in code. -/
def Region.lead : Region → List UInt8 → List UInt8
  | .code _ _, _ => []
  | _, head => head

/-- The lexemes of a tree have as many bytes as its rendering. -/
theorem byteCount_lexed (g : Grain) {r : Region} (head : List UInt8) (t : Tree r) :
    byteCount (t.lexed g head) = (r.lead head).length + t.render.length := by
  induction t generalizing head with
  | done gap => simp [Tree.lexed, Tree.render, Region.lead]
  | leaf gap l rest ih =>
    simp [Tree.lexed, Tree.render, Region.lead, byteCount_leaf, ih]
  | group gap b inside rest ihInside ihRest =>
    simp [Tree.lexed, Tree.render, Region.lead, ihInside, ihRest]
    omega
  | template gap parts rest ihParts ihRest =>
    simp [Tree.lexed, Tree.render, Region.lead, ihParts, ihRest]
    omega
  | format gap start d parts rest ihParts ihRest =>
    simp [Tree.lexed, Tree.render, Region.lead, ihParts, ihRest]
    omega
  | templateEnd text => simp [Tree.lexed, Tree.render, Region.lead]
  | substitution text inside more ihInside ihMore =>
    simp [Tree.lexed, Tree.render, Region.lead, ihInside, ihMore]
    omega
  | formatEnd text => simp [Tree.lexed, Tree.render, Region.lead]
  | field text inside tail more ihInside ihMore =>
    simp [Tree.lexed, Tree.render, Region.lead, ihInside, ihMore]
    omega

/-! ### Chains -/

theorem chainsFrom_append (start : Nat) (ls ms : List Lexeme) :
    chainsFrom start (ls ++ ms) = chainsFrom start ls ++ chainsFrom (start + byteCount ls) ms := by
  induction ls generalizing start with
  | nil => rfl
  | cons l ls ih =>
    obtain ⟨kind, bytes⟩ := l
    cases kind with
    | name | number | literal | mark => simp [chainsFrom, ih, Nat.add_assoc]

theorem chainsFrom_cons_of_ne {k : LexemeKind} (hk : k ≠ .name) (start : Nat) (bytes : List UInt8)
    (ls : List Lexeme) :
    chainsFrom start (⟨k, bytes⟩ :: ls) = chainsFrom (start + bytes.length) ls := by
  cases k with
  | name => exact absurd rfl hk
  | number | literal | mark => rfl

theorem chainsFrom_marks (start : Nat) (bs : List UInt8) :
    chainsFrom start (bs.map markOf) = [] := by
  induction bs generalizing start with
  | nil => rfl
  | cons b bs ih => rw [List.map_cons, chainsFrom_cons_of_ne (by decide), ih]

theorem dotted_append_of_all {w : List UInt8} (hw : w.all isIdentPart = true) (u : List UInt8) :
    dotted (w ++ u) = w.map (fun b => Char.ofNat b.toNat) ++ dotted u := by
  induction w with
  | nil => rfl
  | cons b w ih =>
    rw [List.all_cons, Bool.and_eq_true] at hw
    have hne : ∀ c, isIdentPart c = false → (b == c) = false := by
      intro c hc
      rw [beq_eq_false_iff_ne]
      rintro rfl
      rw [hw.1] at hc
      cases hc
    rw [List.cons_append, dotted, hne question (by decide), hne hyphen (by decide),
      hne greater (by decide), ih hw.2]
    rfl

theorem dotted_linkBytes (links : List (Connector × Word isIdentStart)) :
    dotted (DottedName.linkBytes links) =
      links.flatMap fun (_, w) => '.' :: DottedName.chars w := by
  induction links with
  | nil => rfl
  | cons link links ih =>
    obtain ⟨k, w⟩ := link
    have hword : dotted (w.bytes ++ DottedName.linkBytes links) =
        DottedName.chars w ++ dotted (DottedName.linkBytes links) :=
      dotted_append_of_all w.all_bytes _
    have hjoint : ∀ u, dotted (k.bytes ++ u) = '.' :: dotted u := by
      intro u
      cases k <;> rfl
    rw [DottedName.linkBytes, List.append_assoc, hjoint, hword, ih]
    simp

/-- The dotted name of the bytes of a chain is its name. -/
theorem dotted_bytes (n : DottedName) : String.ofList (dotted n.bytes) = n.name := by
  rw [DottedName.bytes, dotted_append_of_all n.head.all_bytes, dotted_linkBytes]
  rfl

theorem chainsFrom_leaf {field : Bool} (start : Nat) (close : Option Nat) (l : Leaf field) :
    chainsFrom start (l.lexed .chain) = (l.occurrences start close).map (·.chain) := by
  cases l with
  | chain n =>
    simp [Leaf.lexed, DottedName.lexed, chainsFrom, Leaf.occurrences, dotted_bytes]
  | mark m => rfl
  | quoted l => rfl
  | number n =>
    obtain ⟨whole, fraction⟩ := n
    cases fraction <;> rfl

/-- The chains among the lexemes of a tree are those of the tree. -/
theorem chainsFrom_lexed {r : Region} (head : List UInt8) (t : Tree r) (start : Nat) :
    chainsFrom start (t.lexed .chain head) =
      (t.occurrences (start + (r.lead head).length)).map (·.chain) := by
  induction t generalizing head start with
  | done gap => exact chainsFrom_marks start _
  | leaf gap l rest ih =>
    rw [Tree.lexed, chainsFrom_append, chainsFrom_append, chainsFrom_marks, ih,
      chainsFrom_leaf _ (rest.argumentsEnd? (start + gap.1 + l.bytes.length)), byteCount_leaf]
    simp [Tree.occurrences, Region.lead]
  | group gap b inside rest ihInside ihRest =>
    rw [Tree.lexed, chainsFrom_append, chainsFrom_marks, chainsFrom_cons_of_ne (by decide),
      chainsFrom_append, ihInside, chainsFrom_cons_of_ne (by decide),
      chainsFrom_cons_of_ne (by decide), ihRest, byteCount_lexed]
    simp [Tree.occurrences, Region.lead, Nat.add_assoc]
  | template gap parts rest ihParts ihRest =>
    rw [Tree.lexed, chainsFrom_append, chainsFrom_marks, chainsFrom_append, ihParts, ihRest,
      byteCount_lexed]
    simp [Tree.occurrences, Region.lead, Nat.add_assoc]
  | format gap letters d parts rest ihParts ihRest =>
    rw [Tree.lexed, chainsFrom_append, chainsFrom_marks, chainsFrom_append, ihParts, ihRest,
      byteCount_lexed]
    simp [Tree.occurrences, Region.lead, Nat.add_assoc]
  | templateEnd text => rfl
  | substitution text inside more ihInside ihMore =>
    rw [Tree.lexed, chainsFrom_cons_of_ne (by decide), chainsFrom_append, ihInside, ihMore,
      byteCount_lexed]
    simp [Tree.occurrences, Region.lead, Nat.add_assoc]
  | formatEnd text => rfl
  | field text inside tail more ihInside ihMore =>
    rw [Tree.lexed, chainsFrom_cons_of_ne (by decide), chainsFrom_append, ihInside, ihMore,
      byteCount_lexed]
    simp [Tree.occurrences, Region.lead, Nat.add_assoc]

theorem bounded_nil : Bounded [] :=
  fun _ h => nomatch h

/-- **The chains of a rendered expression are those of its tree.** -/
theorem chains_render (t : Expression) : chains t.render = (t.occurrences 0).map (·.chain) := by
  have hlexemes : lexemes .chain [] t.render = t.lexed .chain [] := by
    have h := lexemes_render (g := .chain) t [] [] admits_nil bounded_nil
    rwa [List.append_nil, lexemes, List.append_nil] at h
  rw [chains, hlexemes, chainsFrom_lexed]
  rfl

/-! ### Closing parentheses -/

/-- Lexemes that leave the depth of parentheses as it is, and do not close the outermost one. -/
def Neutral (ls : List Lexeme) : Prop :=
  ∀ depth start more, 1 ≤ depth →
    closingFrom depth start (ls ++ more) = closingFrom depth (start + byteCount ls) more

theorem neutral_nil : Neutral [] :=
  fun _ _ _ _ => rfl

theorem Neutral.append {ls ms : List Lexeme} (hls : Neutral ls) (hms : Neutral ms) :
    Neutral (ls ++ ms) := by
  intro depth start more hdepth
  rw [List.append_assoc, hls _ _ _ hdepth, hms _ _ _ hdepth, byteCount_append, Nat.add_assoc]

/-- A lexeme that is no parenthesis is neutral. -/
theorem Neutral.cons {l : Lexeme} (hopen : l ≠ markOf openParen) (hclose : l ≠ markOf closeParen)
    {ls : List Lexeme} (hls : Neutral ls) : Neutral (l :: ls) := by
  intro depth start more hdepth
  rw [List.cons_append, closingFrom, if_neg (by simpa using hopen), if_neg (by simpa using hclose),
    hls _ _ _ hdepth, byteCount_cons, Nat.add_assoc]

theorem neutral_marks {bs : List UInt8} (h : ∀ b ∈ bs, b ≠ openParen ∧ b ≠ closeParen) :
    Neutral (bs.map markOf) := by
  induction bs with
  | nil => exact neutral_nil
  | cons b bs ih =>
    obtain ⟨hopen, hclose⟩ := h b List.mem_cons_self
    exact Neutral.cons (by simpa using hopen) (by simpa using hclose)
      (ih fun b hb => h b (List.mem_cons_of_mem _ hb))

theorem neutral_blanks (n : Nat) : Neutral ((blanks n).map markOf) :=
  neutral_marks fun b hb => by
    obtain rfl := List.eq_of_mem_replicate hb
    decide

/-- A group is neutral when what stands in it is. -/
theorem Neutral.group (b : Bracket) {ls ms : List Lexeme} (hls : Neutral ls) (hms : Neutral ms) :
    Neutral (markOf b.opening :: (ls ++ (markOf space :: markOf b.closing :: ms))) := by
  cases b with
  | round =>
    intro depth start more hdepth
    have hdeeper : depth + 1 ≠ 1 := by omega
    have hopen : closingFrom depth start
        (markOf openParen :: (ls ++ (markOf space :: markOf closeParen :: (ms ++ more)))) =
        closingFrom (depth + 1) (start + 1)
          (ls ++ (markOf space :: markOf closeParen :: (ms ++ more))) := rfl
    have hclose : ∀ at', closingFrom (depth + 1) at'
        (markOf space :: markOf closeParen :: (ms ++ more)) =
        closingFrom depth (at' + 2) (ms ++ more) := by
      intro at'
      rw [closingFrom, if_neg (by decide), if_neg (by decide), closingFrom, if_neg (by decide),
        if_pos (by decide), if_neg (by simpa using hdeeper), Int.add_sub_cancel]
      rfl
    simp only [Bracket.opening, Bracket.closing, List.cons_append, List.append_assoc]
    rw [hopen, hls _ _ _ (by omega), hclose, hms _ _ _ hdepth]
    congr 1
    simp
    omega
  | square | curly =>
    exact Neutral.cons (by decide) (by decide)
      (hls.append (Neutral.cons (by decide) (by decide) (Neutral.cons (by decide) (by decide) hms)))

theorem neutral_leaf {field : Bool} (g : Grain) (l : Leaf field) : Neutral (l.lexed g) := by
  have hname : ∀ bytes ls, Neutral ls → Neutral (⟨.name, bytes⟩ :: ls) :=
    fun bytes ls => Neutral.cons (by simp) (by simp)
  have hnumber : ∀ bytes ls, Neutral ls → Neutral (⟨.number, bytes⟩ :: ls) :=
    fun bytes ls => Neutral.cons (by simp) (by simp)
  cases l with
  | mark m =>
    have hok := m.ok
    simp only [isPunctuation, isReserved, Bool.and_eq_true, Bool.not_eq_true',
      Bool.or_eq_false_iff, beq_eq_false_iff_ne] at hok
    obtain ⟨⟨-, ⟨⟨⟨⟨⟨⟨⟨⟨-, hopen⟩, hclose⟩, -⟩, -⟩, -⟩, -⟩, -⟩, -⟩, -⟩, -⟩ := hok
    exact Neutral.cons (by simpa using hopen) (by simpa using hclose) neutral_nil
  | quoted l => exact Neutral.cons (by simp) (by simp) neutral_nil
  | number n =>
    obtain ⟨whole, fraction⟩ := n
    cases fraction with
    | none => exact hnumber _ _ neutral_nil
    | some w => exact hnumber _ _ (Neutral.cons (by decide) (by decide) (hnumber _ _ neutral_nil))
  | chain n =>
    cases g with
    | chain => exact hname _ _ neutral_nil
    | word =>
      have hlinks : ∀ links, Neutral (DottedName.linkLexemes links) := by
        intro links
        induction links with
        | nil => exact neutral_nil
        | cons link links ih =>
          obtain ⟨k, w⟩ := link
          have hmarks : ∀ b ∈ k.bytes, b ≠ openParen ∧ b ≠ closeParen := by
            intro b hb
            rcases Connector.mem_bytes hb with rfl | rfl | rfl | rfl <;> decide
          exact (neutral_marks hmarks).append (hname _ _ ih)
      exact hname _ _ (hlinks n.links)

/-- **The lexemes of a tree leave the depth of parentheses as it is.** -/
theorem neutral_lexed (g : Grain) {r : Region} (head : List UInt8) (t : Tree r) :
    Neutral (t.lexed g head) := by
  have hliteral : ∀ bytes ls, Neutral ls → Neutral (⟨.literal, bytes⟩ :: ls) :=
    fun bytes ls => Neutral.cons (by simp) (by simp)
  induction t generalizing head with
  | done gap => exact neutral_blanks gap
  | leaf gap l rest ih => exact (neutral_blanks _).append ((neutral_leaf g l).append (ih []))
  | group gap b inside rest ihInside ihRest =>
    exact (neutral_blanks _).append (Neutral.group b (ihInside []) (ihRest []))
  | template gap parts rest ihParts ihRest =>
    exact (neutral_blanks _).append ((ihParts _).append (ihRest []))
  | format gap letters d parts rest ihParts ihRest =>
    exact (neutral_blanks _).append ((ihParts _).append (ihRest []))
  | templateEnd text => exact hliteral _ _ neutral_nil
  | substitution text inside more ihInside ihMore =>
    exact hliteral _ _ ((ihInside []).append (ihMore _))
  | formatEnd text => exact hliteral _ _ neutral_nil
  | field text inside tail more ihInside ihMore =>
    exact hliteral _ _ ((ihInside []).append (ihMore _))

/-- **The parenthesis that closes a group is found**, wherever in an expression the group stands:
no blank before it is part of an identifier. -/
theorem closingParen?_render {before : List UInt8} (inside : Tree (.code false true))
    (after : List UInt8)
    (hword : insideWord
      (before ++ openParen :: (inside.render ++ (space :: closeParen :: after))) before.length =
        false) :
    closingParen? (before ++ openParen :: (inside.render ++ (space :: closeParen :: after)))
      before.length = some (before.length + inside.render.length + 2) := by
  have hopen : lexemes .word []
      (openParen :: (inside.render ++ (space :: closeParen :: after))) =
      markOf openParen :: lexemes .word [] (inside.render ++ (space :: closeParen :: after)) :=
    lexemes_mark (by decide) (by decide) (by decide) rfl
  have hinside := lexemes_render (g := .word) inside [] (space :: closeParen :: after)
    (Or.inr fun _ _ h => nomatch h) (bounded_cons (by decide) _)
  have hspace : lexemes .word [] (space :: closeParen :: after) =
      markOf space :: lexemes .word [] (closeParen :: after) :=
    lexemes_mark (by decide) (by decide) (by decide) rfl
  have hclose : lexemes .word [] (closeParen :: after) =
      markOf closeParen :: lexemes .word [] after :=
    lexemes_mark (by decide) (by decide) (by decide) rfl
  have hcount : byteCount (inside.lexed .word []) = inside.render.length := by
    simp [byteCount_lexed, Region.lead]
  unfold closingParen?
  simp only [hword, List.drop_left, if_false, Bool.false_eq_true, List.drop_zero, Nat.add_zero,
    hopen, hinside, hspace, hclose]
  rw [closingFrom, if_pos (by decide), neutral_lexed .word [] inside _ _ _ (by decide), hcount,
    closingFrom, if_neg (by decide), if_neg (by decide), closingFrom, if_neg (by decide),
    if_pos (by decide), if_pos (by decide)]
  simp only [List.length_singleton, Option.some.injEq]
  omega

/-! ### Calls -/

/-- The blanks between a chain and a parenthesis. -/
abbrev isGap (b : UInt8) : Bool :=
  b == space || b == tab

/-- Behind a chain stands a call if the first byte that is no blank is a parenthesis. -/
theorem callAt?_eq {before u : List UInt8} {c : Chain} (hc : c.span.stop = before.length) :
    callAt? (before ++ u) c =
      if (u.dropWhile isGap).head? = some openParen ∧ keywords.contains c.name = false then
        (closingParen? (before ++ u) (before.length + (u.takeWhile isGap).length)).map
          fun stop => ⟨c.name, ⟨c.span.start, stop + 1⟩⟩
      else none := by
  have hbyte : (before ++ u)[before.length + (u.takeWhile isGap).length]? =
      (u.dropWhile isGap).head? := by
    rw [List.getElem?_append_right (Nat.le_add_right _ _), Nat.add_sub_cancel_left]
    conv => lhs; arg 1; rw [← List.takeWhile_append_dropWhile (p := isGap) (l := u)]
    rw [List.getElem?_append_right (Nat.le_refl _), Nat.sub_self, List.head?_eq_getElem?]
  unfold callAt?
  simp only [hc, List.drop_left, hbyte, Bool.and_eq_true, beq_iff_eq, Bool.not_eq_true']

theorem dropWhile_blanks (n : Nat) (u : List UInt8) :
    (blanks n ++ u).dropWhile isGap = u.dropWhile isGap := by
  induction n with
  | zero => rfl
  | succ n ih => exact ih

theorem takeWhile_blanks (n : Nat) {u : List UInt8} (hu : ∀ b ∈ u.head?, isGap b = false) :
    (blanks n ++ u).takeWhile isGap = blanks n := by
  induction n with
  | zero =>
    cases u with
    | nil => rfl
    | cons b u => simp [blanks, hu b rfl]
  | succ n ih =>
    rw [blanks, List.replicate_succ, List.cons_append, List.takeWhile_cons, if_pos (by decide)]
    exact congrArg (space :: ·) ih

/-- What does not begin a group in round brackets, blanks aside. -/
def NoParen (u : List UInt8) : Prop :=
  (u.dropWhile isGap).head? ≠ some openParen

theorem noParen_blanks {n : Nat} {u : List UInt8} (hu : NoParen u) : NoParen (blanks n ++ u) := by
  rwa [NoParen, dropWhile_blanks]

theorem noParen_cons {b : UInt8} (hgap : isGap b = false) (hb : b ≠ openParen) (u : List UInt8) :
    NoParen (b :: u) := by
  rw [NoParen, List.dropWhile_cons, hgap, if_neg (by decide)]
  simpa using hb

/-- No blank and no parenthesis begins an identifier or a number. -/
theorem noParen_identPart {b : UInt8} (hb : isIdentPart b = true) (u : List UInt8) :
    NoParen (b :: u) := by
  have hne : ∀ c, isIdentPart c = false → b ≠ c := by
    rintro c hc rfl
    rw [hb] at hc
    cases hc
  exact noParen_cons (by simp [hne space (by decide), hne tab (by decide)]) (hne _ (by decide)) u

theorem noParen_quote {b : UInt8} (hb : isQuote b = true) (u : List UInt8) : NoParen (b :: u) := by
  simp only [isQuote, Bool.or_eq_true, beq_iff_eq] at hb
  rcases hb with rfl | rfl
  · exact noParen_cons (by decide) (by decide) u
  · exact noParen_cons (by decide) (by decide) u

theorem noParen_literal {formatted : Bool} (start : LiteralStart formatted) (d : Delimiter)
    (u : List UInt8) : NoParen (start.letters ++ (d.bytes ++ u)) := by
  have hletters := start.letters_ok
  cases hstart : start.letters with
  | nil =>
    obtain ⟨q, hq⟩ := d.bytes_eq_cons
    rw [hq]
    exact noParen_quote d.quote_ok _
  | cons b bs =>
    rw [hstart, List.all_cons, Bool.and_eq_true] at hletters
    exact noParen_identPart
      (isIdentPart_of_isIdentStart (isIdentStart_of_isLiteralMark hletters.1)) _

theorem noParen_leaf {field : Bool} (l : Leaf field) (u : List UInt8) : NoParen (l.bytes ++ u) := by
  cases l with
  | chain n => exact noParen_identPart (isIdentPart_of_isIdentStart n.head.first_ok) _
  | number n => exact noParen_identPart (isIdentPart_of_isDigit n.whole.first_ok) _
  | quoted l =>
    rw [Leaf.bytes, Quoted.bytes, List.append_assoc, List.append_assoc]
    exact noParen_literal l.start l.delimiter _
  | mark m =>
    have hok := m.ok
    simp only [isPunctuation, isReserved, Bool.and_eq_true, Bool.not_eq_true',
      Bool.or_eq_false_iff, beq_eq_false_iff_ne] at hok
    obtain ⟨⟨-, ⟨⟨⟨⟨⟨⟨⟨⟨⟨hspace, htab⟩, hopen⟩, -⟩, -⟩, -⟩, -⟩, -⟩, -⟩, -⟩, -⟩, -⟩ := hok
    exact noParen_cons (by simp [hspace, htab]) hopen u

/-- Code that does not begin with a group in round brackets does not do so when rendered. -/
theorem noParen_render {field spaced : Bool} (t : Tree (.code field spaced)) {start : Nat}
    (ht : t.argumentsEnd? start = none) {after : List UInt8} (hafter : NoParen after) :
    NoParen (t.render ++ after) := by
  cases t with
  | done gap => exact noParen_blanks hafter
  | leaf gap l rest =>
    rw [Tree.render, List.append_assoc, List.append_assoc]
    exact noParen_blanks (noParen_leaf l _)
  | template gap parts rest =>
    rw [Tree.render, List.append_assoc]
    exact noParen_blanks (noParen_cons (by decide) (by decide) _)
  | format gap letters d parts rest =>
    rw [Tree.render, List.append_assoc, List.append_assoc, List.append_assoc]
    exact noParen_blanks (noParen_literal letters d _)
  | group gap b inside rest =>
    rw [Tree.render, List.append_assoc]
    cases b with
    | round => cases ht
    | square | curly => exact noParen_blanks (noParen_cons (by decide) (by decide) _)

theorem FieldTail.noParen_append (tail : FieldTail) {u : List UInt8} :
    NoParen (tail.bytes ++ closeBrace :: u) := by
  cases hcs : tail.bytes ++ closeBrace :: u with
  | nil => exact fun h => nomatch h
  | cons b bs =>
    have hb : b ∈ (tail.bytes ++ closeBrace :: u).head? := by rw [hcs]; rfl
    rcases FieldTail.head_append hb with rfl | rfl | rfl
    · exact noParen_cons (by decide) (by decide) bs
    · exact noParen_cons (by decide) (by decide) bs
    · exact noParen_cons (by decide) (by decide) bs

/-- What may follow a tree for its last chain to begin no call. -/
def Region.Ends : Region → List UInt8 → Prop
  | .code _ _, after => NoParen after
  | _, _ => True

/-- Blanks keep what follows them apart from the chain before them. -/
theorem insideWord_blanks (before : List UInt8) {n : Nat} (hn : 0 < n) (u : List UInt8) :
    insideWord ((before ++ blanks n) ++ u) (before ++ blanks n).length = false := by
  obtain ⟨n, rfl⟩ : ∃ m, n = m + 1 := ⟨n - 1, by omega⟩
  have hbyte : ((before ++ blanks (n + 1)) ++ u)[before.length + n]? = some space := by
    rw [List.append_assoc, List.getElem?_append_right (Nat.le_add_right _ _),
      Nat.add_sub_cancel_left, List.getElem?_append_left (by simp)]
    simp [blanks]
  rw [List.length_append, length_blanks, ← Nat.add_assoc, insideWord, hbyte]
  decide

/-- A chain begins a call exactly if a group in round brackets follows it. -/
theorem callAt?_leaf {field : Bool} (before : List UInt8) {after : List UInt8} (c : Chain)
    (hc : c.span.stop = before.length) (rest : Tree (.code field true)) (hafter : NoParen after) :
    callAt? (before ++ (rest.render ++ after)) c =
      Occurrence.call? ⟨c, rest.argumentsEnd? before.length⟩ := by
  rw [callAt?_eq hc, Occurrence.call?]
  cases hend : rest.argumentsEnd? before.length with
  | none =>
    have hparen : ((rest.render ++ after).dropWhile isGap).head? ≠ some openParen :=
      noParen_render rest hend hafter
    simp [hparen]
  | some stop =>
    cases rest with
    | done | leaf | template | format => cases hend
    | group gap b inside more =>
      cases b with
      | square | curly => cases hend
      | round =>
        obtain rfl := Option.some.inj hend
        have hrender : before ++ ((Tree.group gap .round inside more).render ++ after) =
            (before ++ blanks gap.1) ++ openParen ::
              (inside.render ++ (space :: closeParen :: (more.render ++ after))) := by
          simp [Tree.render, Bracket.opening, Bracket.closing]
        have hdrop : (((Tree.group gap .round inside more).render ++ after).dropWhile isGap).head? =
            some openParen := by
          rw [Tree.render, List.append_assoc, dropWhile_blanks]
          rfl
        have htake : ((Tree.group gap .round inside more).render ++ after).takeWhile isGap =
            blanks gap.1 := by
          rw [Tree.render, List.append_assoc]
          exact takeWhile_blanks _ fun b hb => by
            obtain rfl := Option.some.inj hb
            decide
        have hclose := closingParen?_render inside (more.render ++ after)
          (insideWord_blanks before (gap.2 rfl) _)
        rw [hdrop, htake, ← List.length_append, hrender, hclose]
        cases keywords.contains c.name with
        | true => rfl
        | false => simp

/-- **Every chain of a tree begins a call exactly if a group in round brackets follows it**,
wherever in an expression the rendering of the tree stands. -/
theorem callAt?_occurrence {r : Region} (t : Tree r) (before after : List UInt8) {e : List UInt8}
    {start : Nat} (he : e = before ++ (t.render ++ after)) (hstart : start = before.length)
    (hafter : r.Ends after) :
    ∀ o ∈ t.occurrences start, callAt? e o.chain = o.call? := by
  -- the text `e` stays the same: what is passed over goes from the tree into `before`
  induction t generalizing before after start with
  | done | templateEnd | formatEnd => exact fun o ho => nomatch ho
  | leaf gap l rest ih =>
    intro o ho
    rcases List.mem_append.mp ho with ho | ho
    · cases l with
      | number | mark | quoted => cases ho
      | chain n =>
        obtain rfl := List.mem_singleton.mp ho
        have h := callAt?_leaf (before ++ (blanks gap.1 ++ n.bytes))
          ⟨n.name, ⟨start + gap.1, start + gap.1 + n.bytes.length⟩⟩
          (by simp [hstart, Nat.add_assoc]) rest hafter
        simpa [he, hstart, Tree.render, Leaf.bytes, Nat.add_assoc] using h
    · exact ih (before ++ (blanks gap.1 ++ l.bytes)) after (by simp [he, Tree.render])
        (by simp [hstart, Nat.add_assoc]) hafter o ho
  | group gap b inside rest ihInside ihRest =>
    intro o ho
    rcases List.mem_append.mp ho with ho | ho
    · have hends : NoParen (blanks 1 ++ b.closing :: (rest.render ++ after)) :=
        noParen_blanks (noParen_cons (by cases b <;> decide) (by cases b <;> decide) _)
      exact ihInside (before ++ (blanks gap.1 ++ [b.opening])) _ (by simp [he, Tree.render, blanks])
        (by simp [hstart, Nat.add_assoc]) hends o ho
    · exact ihRest
        (before ++ (blanks gap.1 ++ (b.opening :: (inside.render ++ [space, b.closing])))) after
        (by simp [he, Tree.render]) (by simp [hstart]; omega) hafter o ho
  | template gap parts rest ihParts ihRest =>
    intro o ho
    rcases List.mem_append.mp ho with ho | ho
    · exact ihParts (before ++ (blanks gap.1 ++ [backquote])) (rest.render ++ after)
        (by simp [he, Tree.render]) (by simp [hstart, Nat.add_assoc]) trivial o ho
    · exact ihRest (before ++ (blanks gap.1 ++ (backquote :: parts.render))) after
        (by simp [he, Tree.render]) (by simp [hstart]; omega) hafter o ho
  | format gap letters d parts rest ihParts ihRest =>
    intro o ho
    rcases List.mem_append.mp ho with ho | ho
    · exact ihParts (before ++ (blanks gap.1 ++ (letters.letters ++ d.bytes)))
        (rest.render ++ after) (by simp [he, Tree.render]) (by simp [hstart, Nat.add_assoc])
        trivial o ho
    · exact ihRest
        (before ++ (blanks gap.1 ++ (letters.letters ++ (d.bytes ++ parts.render)))) after
        (by simp [he, Tree.render]) (by simp [hstart, Nat.add_assoc]) hafter o ho
  | substitution text inside more ihInside ihMore =>
    intro o ho
    rcases List.mem_append.mp ho with ho | ho
    · exact ihInside (before ++ (text.bytes ++ [dollar, openBrace]))
        (closeBrace :: (more.render ++ after)) (by simp [he, Tree.render])
        (by simp [hstart, Nat.add_assoc]) (noParen_cons (by decide) (by decide) _) o ho
    · exact ihMore
        (before ++ (text.bytes ++ (dollar :: openBrace :: (inside.render ++ [closeBrace]))))
        after (by simp [he, Tree.render]) (by simp [hstart]; omega) trivial o ho
  | field text inside tail more ihInside ihMore =>
    intro o ho
    rcases List.mem_append.mp ho with ho | ho
    · exact ihInside (before ++ (text.bytes ++ [openBrace]))
        (tail.bytes ++ (closeBrace :: (more.render ++ after))) (by simp [he, Tree.render])
        (by simp [hstart, Nat.add_assoc]) tail.noParen_append o ho
    · exact ihMore
        (before ++ (text.bytes ++ (openBrace :: (inside.render ++ (tail.bytes ++ [closeBrace])))))
        after (by simp [he, Tree.render]) (by simp [hstart]; omega) trivial o ho

/-! ### The names and calls of an expression -/

/-- The names of a tree are those of its chains. -/
theorem names_eq_map {r : Region} (t : Tree r) (start : Nat) :
    t.names = (t.occurrences start).map (·.chain.name) := by
  induction t generalizing start with
  | done | templateEnd | formatEnd => rfl
  | leaf gap l rest ih =>
    cases l with
    | chain n => exact congrArg (n.name :: ·) (ih _)
    | number | mark | quoted => exact ih _
  | group gap b inside rest ihInside ihRest =>
    rw [Tree.names, Tree.occurrences, List.map_append, ← ihInside, ← ihRest]
  | template gap parts rest ihParts ihRest =>
    rw [Tree.names, Tree.occurrences, List.map_append, ← ihParts, ← ihRest]
  | format gap letters d parts rest ihParts ihRest =>
    rw [Tree.names, Tree.occurrences, List.map_append, ← ihParts, ← ihRest]
  | substitution text inside more ihInside ihMore =>
    rw [Tree.names, Tree.occurrences, List.map_append, ← ihInside, ← ihMore]
  | field text inside tail more ihInside ihMore =>
    rw [Tree.names, Tree.occurrences, List.map_append, ← ihInside, ← ihMore]

/-- The value names of a rendered expression are those of its tree. -/
theorem identifiers_render (t : Expression) : identifiers t.render = t.valueNames := by
  rw [identifiers, chains_render, List.map_map, Tree.valueNames, names_eq_map t 0]
  rfl

/-- The calls of a rendered expression are the chains that a group in round brackets follows. -/
theorem calls_render (t : Expression) : calls t.render = (t.occurrences 0).filterMap (·.call?) := by
  rw [calls, chains_render, List.filterMap_map]
  refine List.filterMap_congr fun o ho => ?_
  have hnil : NoParen [] := fun h => nomatch h
  exact callAt?_occurrence t [] [] (by simp) rfl hnil o ho

/-- **The lexer implements the grammar**: in a rendered expression it finds the chains of the tree
in their places, the distinct names of the tree, and as calls the chains that a group in round
brackets follows, each up to the parenthesis that closes its group. -/
theorem names_and_calls_render (t : Expression) :
    chains t.render = (t.occurrences 0).map (·.chain) ∧
      identifiers t.render = t.valueNames ∧
      calls t.render = (t.occurrences 0).filterMap (·.call?) :=
  ⟨chains_render t, identifiers_render t, calls_render t⟩

end TaintFlow.Expr
