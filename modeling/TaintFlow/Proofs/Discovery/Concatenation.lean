import Mathlib.Algebra.Ring.Parity
import Mathlib.Data.List.Basic
import TaintFlow.Discovery.Risk

/-!
# When an expression concatenates

An expression is split from left to right into literals and code.  It concatenates if its code has
a run of plus signs of odd length, as plus signs in pairs are increments, or a dot between spaces.
The scanner follows the split piece by piece: it passes over a literal as a whole, over plus signs
two at a time, and over any other byte of code by itself.

## Main definitions

* `Closes` — where a literal ends behind its opening quote.
* `SplitsInto` — the pieces of an expression.
* `HasOddRun` — a maximal run of an element that has odd length.
* `HasSpacedDot` — a dot of code between spaces.

## Main results

* `SplitsInto.unique`, `exists_splitsInto` — an expression splits in one way.
* `hasOddRun_cons_cons`, `hasOddRun_cons_of_ne` — which elements at the front do not matter.
* `concatenates_iff_pieces` — an expression concatenates by its pieces.
-/

namespace TaintFlow.Discovery

/-! ### Literals and code -/

/-- The quotes of literals. -/
def quotes : List UInt8 :=
  [0x22, 0x27, 0x60]

/-- Behind an opening quote `q` a text goes on with the rest of a literal, and then with what
follows the literal.  The literal ends with the next quote that has no backslash before it, or with
the text. -/
inductive Closes (q : UInt8) : List UInt8 → List UInt8 → List UInt8 → Prop where
  | stop : Closes q [] [] []
  | quote (e : List UInt8) : Closes q (q :: e) [q] e
  | byte {c : UInt8} {text lit e : List UInt8} (hslash : c ≠ 0x5C) (hquote : c ≠ q)
      (h : Closes q text lit e) : Closes q (c :: text) (c :: lit) e
  | escaped {d : UInt8} {text lit e : List UInt8} (h : Closes q text lit e) :
      Closes q (0x5C :: d :: text) (0x5C :: d :: lit) e
  | lastSlash : Closes q [0x5C] [0x5C] []

/-- A piece of an expression: a byte of code, or a literal with its quotes. -/
inductive Piece where
  | code (c : UInt8)
  | literal (bs : List UInt8)
  deriving DecidableEq, Repr

/-- The bytes of a piece. -/
def Piece.bytes : Piece → List UInt8
  | .code c => [c]
  | .literal bs => bs

/-- The pieces of an expression from left to right.  A quote in the code opens a literal. -/
inductive SplitsInto : List UInt8 → List Piece → Prop where
  | nil : SplitsInto [] []
  | code {c : UInt8} {e : List UInt8} {ps : List Piece} (hc : c ∉ quotes) (h : SplitsInto e ps) :
      SplitsInto (c :: e) (.code c :: ps)
  | literal {q : UInt8} {text lit e : List UInt8} {ps : List Piece} (hq : q ∈ quotes)
      (hlit : Closes q text lit e) (h : SplitsInto e ps) :
      SplitsInto (q :: text) (.literal (q :: lit) :: ps)

namespace Closes

variable {q : UInt8} {text lit e : List UInt8}

theorem append_eq (h : Closes q text lit e) : lit ++ e = text := by
  induction h with
  | stop => rfl
  | quote e => rfl
  | byte _ _ _ ih => rw [List.cons_append, ih]
  | escaped _ ih => rw [List.cons_append, List.cons_append, ih]
  | lastSlash => rfl

/-- A literal ends at one place only. -/
theorem unique (hq : q ≠ 0x5C) {lit' e' : List UInt8} (h : Closes q text lit e)
    (h' : Closes q text lit' e') : lit = lit' ∧ e = e' := by
  induction h generalizing lit' with
  | stop =>
    cases h'
    exact ⟨rfl, rfl⟩
  | quote e =>
    cases h' with
    | quote => exact ⟨rfl, rfl⟩
    | byte _ hquote => exact absurd rfl hquote
    | escaped => exact absurd rfl hq
    | lastSlash => exact absurd rfl hq
  | byte hslash hquote _ ih =>
    cases h' with
    | quote => exact absurd rfl hquote
    | byte _ _ h' =>
      obtain ⟨rfl, rfl⟩ := ih h'
      exact ⟨rfl, rfl⟩
    | escaped => exact absurd rfl hslash
    | lastSlash => exact absurd rfl hslash
  | escaped _ ih =>
    cases h' with
    | quote => exact absurd rfl hq
    | byte hslash => exact absurd rfl hslash
    | escaped h' =>
      obtain ⟨rfl, rfl⟩ := ih h'
      exact ⟨rfl, rfl⟩
  | lastSlash =>
    cases h' with
    | quote => exact absurd rfl hq
    | byte hslash => exact absurd rfl hslash
    | lastSlash => exact ⟨rfl, rfl⟩

end Closes

/-- A literal ends somewhere, at the end of the text at the latest. -/
theorem exists_closes (q : UInt8) : ∀ text, ∃ lit e, Closes q text lit e
  | [] => ⟨_, _, .stop⟩
  | c :: text => by
    by_cases hslash : c = 0x5C
    · subst hslash
      match text with
      | [] => exact ⟨_, _, .lastSlash⟩
      | d :: text =>
        obtain ⟨lit, e, h⟩ := exists_closes q text
        exact ⟨_, _, .escaped h⟩
    · by_cases hquote : c = q
      · subst hquote
        exact ⟨_, _, .quote text⟩
      · obtain ⟨lit, e, h⟩ := exists_closes q text
        exact ⟨_, _, .byte hslash hquote h⟩

theorem ne_slash_of_mem_quotes {q : UInt8} (h : q ∈ quotes) : q ≠ 0x5C := by
  rintro rfl
  revert h
  decide

/-- The pieces spell the expression. -/
theorem SplitsInto.flatMap_bytes {e : List UInt8} {ps : List Piece} (h : SplitsInto e ps) :
    ps.flatMap Piece.bytes = e := by
  induction h with
  | nil => rfl
  | code _ _ ih => rw [List.flatMap_cons, ih]; rfl
  | literal _ hlit _ ih =>
    rw [List.flatMap_cons, ih, ← hlit.append_eq]
    rfl

/-- **An expression splits in one way only.** -/
theorem SplitsInto.unique {e : List UInt8} {ps ps' : List Piece} (h : SplitsInto e ps)
    (h' : SplitsInto e ps') : ps = ps' := by
  induction h generalizing ps' with
  | nil =>
    cases h'
    rfl
  | code hc _ ih =>
    cases h' with
    | code _ h' => rw [ih h']
    | literal hq => exact absurd hq hc
  | literal hq hlit _ ih =>
    cases h' with
    | code hc => exact absurd hq hc
    | literal _ hlit' h' =>
      obtain ⟨rfl, rfl⟩ := hlit.unique (ne_slash_of_mem_quotes hq) hlit'
      rw [ih h']

/-- Every expression splits into pieces. -/
theorem exists_splitsInto (e : List UInt8) : ∃ ps, SplitsInto e ps := by
  -- what follows a literal is shorter than the expression
  induction hn : e.length using Nat.strong_induction_on generalizing e with
  | _ n ih =>
    cases e with
    | nil => exact ⟨[], .nil⟩
    | cons c text =>
      rw [List.length_cons] at hn
      by_cases hc : c ∈ quotes
      · obtain ⟨lit, e, hlit⟩ := exists_closes c text
        have hlength := congrArg List.length hlit.append_eq
        rw [List.length_append] at hlength
        obtain ⟨ps, hps⟩ := ih e.length (by omega) e rfl
        exact ⟨_, .literal hc hlit hps⟩
      · obtain ⟨ps, hps⟩ := ih text.length (by omega) text rfl
        exact ⟨_, .code hc hps⟩

/-! ### Runs of odd length -/

section

variable {α : Type} {x y : α} {l : List α}

/-- Some maximal run of an element has odd length. -/
def HasOddRun (x : α) (l : List α) : Prop :=
  ∃ front n back, l = front ++ List.replicate n x ++ back ∧ Odd n ∧ front.getLast? ≠ some x ∧
    back.head? ≠ some x

theorem not_hasOddRun_nil (x : α) : ¬ HasOddRun x [] := by
  rintro ⟨front, n, back, heq, hodd, -, -⟩
  have hlength := congrArg List.length heq
  simp only [List.length_nil, List.length_append, List.length_replicate] at hlength
  obtain ⟨m, rfl⟩ := hodd
  omega

/-- An element that stands alone is a run. -/
theorem hasOddRun_cons (h : l.head? ≠ some x) : HasOddRun x (x :: l) :=
  ⟨[], 1, l, rfl, odd_one, nofun, h⟩

/-- A different element does not matter. -/
theorem hasOddRun_cons_of_ne (hy : y ≠ x) : HasOddRun x (y :: l) ↔ HasOddRun x l := by
  constructor
  · rintro ⟨front, n, back, heq, hodd, hfront, hback⟩
    cases front with
    | nil =>
      -- the run is not empty, so it begins with the other element
      obtain ⟨m, rfl⟩ := hodd
      cases heq
      exact absurd rfl hy
    | cons z front =>
      cases heq
      refine ⟨front, n, back, rfl, hodd, fun hlast => hfront ?_, hback⟩
      rw [List.getLast?_cons, hlast]
      rfl
  · rintro ⟨front, n, back, rfl, hodd, hfront, hback⟩
    refine ⟨y :: front, n, back, rfl, hodd, fun hlast => ?_, hback⟩
    rw [List.getLast?_cons] at hlast
    cases hf : front.getLast? with
    | none =>
      rw [hf] at hlast
      exact hy (Option.some.inj hlast)
    | some z =>
      rw [hf] at hlast
      exact hfront (hf.trans hlast)

/-- Two more elements keep a run odd or even. -/
theorem hasOddRun_cons_cons : HasOddRun x (x :: x :: l) ↔ HasOddRun x l := by
  constructor
  · rintro ⟨front, n, back, heq, hodd, hfront, hback⟩
    match front with
    | [] =>
      match n with
      | 0 => exact absurd hodd (by decide)
      | 1 =>
        cases heq
        exact absurd rfl hback
      | n + 2 =>
        cases heq
        exact ⟨[], n, back, rfl, by simpa [Nat.odd_add] using hodd, nofun, hback⟩
    | [z] =>
      -- the run would begin behind one of its own elements
      obtain rfl : x = z := (List.cons.inj heq).1
      exact absurd rfl hfront
    | [z, z'] =>
      cases heq
      exact absurd rfl hfront
    | z :: z' :: z'' :: front =>
      cases heq
      exact ⟨z'' :: front, n, back, rfl, hodd, hfront, hback⟩
  · rintro ⟨front, n, back, rfl, hodd, hfront, hback⟩
    cases front with
    | nil => exact ⟨[], n + 2, back, rfl, by simpa [Nat.odd_add] using hodd, nofun, hback⟩
    | cons z front => exact ⟨x :: x :: z :: front, n, back, rfl, hodd, hfront, hback⟩

end

/-! ### Dots between spaces -/

/-- A dot of code has a space directly before and directly behind it, `before` being the byte before
the pieces. -/
def HasSpacedDot (before : Option UInt8) (ps : List Piece) : Prop :=
  ∃ front back, ps = front ++ .code 0x2E :: back ∧
    (front.flatMap Piece.bytes).getLast?.or before = some 0x20 ∧
    (back.flatMap Piece.bytes).head? = some 0x20

theorem not_hasSpacedDot_nil (before : Option UInt8) : ¬ HasSpacedDot before [] := by
  rintro ⟨front, back, heq, -, -⟩
  exact absurd heq.symm (by simp)

/-- The first piece is such a dot, or the dot stands behind it. -/
theorem hasSpacedDot_cons {before : Option UInt8} {p : Piece} {ps : List Piece} :
    HasSpacedDot before (p :: ps) ↔
      (p = .code 0x2E ∧ before = some 0x20 ∧ (ps.flatMap Piece.bytes).head? = some 0x20) ∨
        HasSpacedDot (p.bytes.getLast?.or before) ps := by
  constructor
  · rintro ⟨front, back, heq, hbefore, hback⟩
    cases front with
    | nil =>
      cases heq
      exact Or.inl ⟨rfl, hbefore, hback⟩
    | cons p front =>
      cases heq
      rw [List.flatMap_cons, List.getLast?_append, Option.or_assoc] at hbefore
      exact Or.inr ⟨front, back, rfl, hbefore, hback⟩
  · rintro (⟨rfl, hbefore, hback⟩ | ⟨front, back, rfl, hbefore, hback⟩)
    · exact ⟨[], ps, rfl, hbefore, hback⟩
    · refine ⟨p :: front, back, rfl, ?_, hback⟩
      rw [List.flatMap_cons, List.getLast?_append, Option.or_assoc]
      exact hbefore

/-! ### The scanner -/

theorem opensLiteral_iff {c : UInt8} : opensLiteral c = true ↔ c ∈ quotes := by
  simp [opensLiteral, quotes, or_assoc]

section

variable {c d q : UInt8} {e : List UInt8} (before : Option UInt8)

theorem concatenatesFrom_byte (hslash : c ≠ 0x5C) (hquote : c ≠ q) :
    concatenatesFrom (some q) before (c :: e) = concatenatesFrom (some q) (some c) e := by
  cases e <;> simp [concatenatesFrom, hslash, hquote]

theorem concatenatesFrom_quote (hq : q ≠ 0x5C) :
    concatenatesFrom (some q) before (q :: e) = concatenatesFrom none (some q) e := by
  cases e <;> simp [concatenatesFrom, hq]

theorem concatenatesFrom_opening (hq : q ∈ quotes) :
    concatenatesFrom none before (q :: e) = concatenatesFrom (some q) (some q) e := by
  cases e <;> simp [concatenatesFrom, opensLiteral_iff.mpr hq]

theorem concatenatesFrom_pair : concatenatesFrom none before (0x2B :: 0x2B :: e) =
    concatenatesFrom none (some 0x2B) e := by
  simp [concatenatesFrom, opensLiteral]

theorem concatenatesFrom_plus (he : e.head? ≠ some 0x2B) :
    concatenatesFrom none before (0x2B :: e) = true := by
  cases e with
  | nil => rfl
  | cons d e =>
    have hd : d ≠ 0x2B := by simpa using he
    simp [concatenatesFrom, opensLiteral, hd]

theorem concatenatesFrom_code (hc : c ∉ quotes) (hplus : c ≠ 0x2B) :
    concatenatesFrom none before (c :: e) = true ↔
      (c = 0x2E ∧ before = some 0x20 ∧ e.head? = some 0x20) ∨
        concatenatesFrom none (some c) e = true := by
  have hopens : opensLiteral c = false := by
    rw [← Bool.not_eq_true, opensLiteral_iff]
    exact hc
  cases e <;> simp [concatenatesFrom, hopens, hplus, and_assoc]

end

/-- A literal is passed over as a whole, `b` being a byte of it that stands before `text`. -/
theorem concatenatesFrom_literal {q : UInt8} {text lit e : List UInt8} (hq : q ≠ 0x5C)
    (h : Closes q text lit e) : ∀ before b,
      concatenatesFrom (some q) before text = concatenatesFrom none (b :: lit).getLast? e := by
  induction h with
  | stop => exact fun _ _ => rfl
  | quote e => exact fun before _ => concatenatesFrom_quote before hq
  | @byte c text lit e hslash hquote _ ih =>
    intro before b
    rw [concatenatesFrom_byte before hslash hquote, ih (some c) c, List.getLast?_cons_cons]
  | @escaped d text lit e _ ih =>
    intro before b
    rw [List.getLast?_cons_cons, List.getLast?_cons_cons, ← ih (some d) d]
    rfl
  | lastSlash => exact fun _ _ => rfl

/-- The first piece shows the first byte of code. -/
theorem SplitsInto.head?_eq_code_iff {e : List UInt8} {ps : List Piece} (h : SplitsInto e ps)
    {c : UInt8} (hc : c ∉ quotes) : ps.head? = some (.code c) ↔ e.head? = some c := by
  cases h with
  | nil => simp
  | code => simp
  | literal hq =>
    simp only [List.head?_cons, Option.some.injEq, reduceCtorEq, false_iff]
    rintro rfl
    exact hc hq

/-- **An expression concatenates by its pieces.** -/
theorem concatenatesFrom_iff {e : List UInt8} {ps : List Piece} (h : SplitsInto e ps)
    (before : Option UInt8) : concatenatesFrom none before e = true ↔
      HasOddRun (.code 0x2B) ps ∨ HasSpacedDot before ps := by
  -- plus signs are passed over two at a time
  induction hn : e.length using Nat.strong_induction_on generalizing e ps before with
  | _ n ih =>
    cases h with
    | nil => simp [concatenatesFrom, not_hasOddRun_nil, not_hasSpacedDot_nil]
    | @code c e ps hc h =>
      by_cases hplus : c = 0x2B
      · subst hplus
        by_cases he : e.head? = some 0x2B
        · cases h with
          | nil => cases he
          | literal hq =>
            obtain rfl := Option.some.inj he
            exact absurd hq hc
          | @code d e ps _ h =>
            obtain rfl := Option.some.inj he
            rw [List.length_cons, List.length_cons] at hn
            rw [concatenatesFrom_pair, hasOddRun_cons_cons, hasSpacedDot_cons, hasSpacedDot_cons,
              ih e.length (by omega) h _ rfl]
            simp [Piece.bytes]
        · rw [concatenatesFrom_plus before he]
          have hrun : HasOddRun (.code 0x2B) (.code 0x2B :: ps) :=
            hasOddRun_cons ((h.head?_eq_code_iff hc).not.mpr he)
          simp [hrun]
      · have hne : Piece.code c ≠ .code 0x2B := by simpa using hplus
        rw [concatenatesFrom_code before hc hplus, hasOddRun_cons_of_ne hne, hasSpacedDot_cons,
          h.flatMap_bytes, ih e.length (by rw [← hn]; exact Nat.lt_succ_self _) h _ rfl]
        simp [Piece.bytes, or_left_comm]
    | @literal q text lit e ps hq hlit h =>
      have hlength := congrArg List.length hlit.append_eq
      rw [List.length_append] at hlength
      rw [List.length_cons] at hn
      have hlast : (Piece.literal (q :: lit)).bytes.getLast?.or before = (q :: lit).getLast? := by
        rw [Piece.bytes, List.getLast?_cons]
        rfl
      rw [concatenatesFrom_opening before hq,
        concatenatesFrom_literal (ne_slash_of_mem_quotes hq) hlit (some q) q,
        hasOddRun_cons_of_ne (by simp), hasSpacedDot_cons, hlast, ih e.length (by omega) h _ rfl]
      simp

/-- **An expression concatenates by its lexical definition.**  Every expression splits in one way
into literals and code, and the pieces spell it.  It concatenates if and only if some maximal run of
plus signs in its code has odd length, or some dot of its code has a space directly before and
directly behind it. -/
theorem concatenates_iff_pieces (e : List UInt8) :
    ∃ ps, (∀ ps', SplitsInto e ps' ↔ ps' = ps) ∧ ps.flatMap Piece.bytes = e ∧
      (concatenates e = true ↔ HasOddRun (.code 0x2B) ps ∨ HasSpacedDot none ps) := by
  obtain ⟨ps, hps⟩ := exists_splitsInto e
  refine ⟨ps, fun ps' => ⟨fun h => h.unique hps, fun h => h ▸ hps⟩, hps.flatMap_bytes, ?_⟩
  exact concatenatesFrom_iff hps none

/-- Three plus signs are an increment and an addition; in a literal they are text. -/
example : concatenates (Text.bytes "i+++1") = true ∧
    concatenates (Text.bytes "'+' i++") = false := by
  decide

end TaintFlow.Discovery
