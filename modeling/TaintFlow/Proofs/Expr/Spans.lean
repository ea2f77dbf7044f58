import TaintFlow.Proofs.Expr.Calls
import TaintFlow.Proofs.Expr.Words

/-!
# Where names and calls stand

The lexer cuts any text into lexemes without losing a byte, whatever the text is: literals that do
not end, backslashes in the last place, brackets without a partner.  So a chain stands at the bytes
of its lexeme, chains follow one another, and a call begins at a chain and ends behind a closing
parenthesis.  Every proof about an arbitrary text goes by `scan_induction`: what holds of the empty
text, and of a text if it holds behind its first lexeme, holds of every text.

## Main definitions

* `Quoting` — the open fields belong to literals in quotes.
* `slice` — the bytes of a span.
* `replacePair` — a text with two bytes in a row replaced by one.
* `StandsIn`, `CallsIn` — where a chain stands, and where a call.

## Main results

* `literal?_eq_some`, `brace_eq_resumed` — where the text of a literal begins or goes on.
* `scan_induction` — induction on the lexemes of a text.
* `flatMap_lexemes` — the bytes of the lexemes are the text.
* `exists_dottedName` — the bytes of a name are those of identifiers and connectors.
* `standsIn_of_mem_chains`, `pairwise_chains` — where the chains of a text stand.
* `closingParen?_eq_some` — a closing parenthesis is found where one stands.
* `exists_chain_of_mem_calls`, `pairwise_calls` — where the calls of a text stand.
-/

namespace TaintFlow.Expr

/-! ### The lexer moves along the text -/

section

variable {g : Grain} {frames fs : List Frame} {c : UInt8} {cs u : List UInt8} {k : LexemeKind}

theorem templateText_suffix (frames : List Frame) (cs : List UInt8) :
    (templateText frames cs).rest <:+ cs := by
  fun_induction templateText frames cs with
  | case1 => exact List.suffix_refl _
  | case2 => exact List.nil_suffix
  | case3 c _ b cs ih => exact (ih.trans (List.suffix_cons b cs)).trans (List.suffix_cons c _)
  | case4 c cs _ _ => exact List.suffix_cons c cs
  | case5 c cs _ _ _ => exact (List.tail_suffix cs).trans (List.suffix_cons c cs)
  | case6 c cs _ _ _ ih => exact ih.trans (List.suffix_cons c cs)

theorem formatText_suffix (quote : List UInt8) (frames : List Frame) (cs : List UInt8) :
    (formatText quote frames cs).rest <:+ cs := by
  fun_induction formatText quote frames cs with
  | case1 => exact List.suffix_refl _
  | case2 => exact List.nil_suffix
  | case3 c _ b cs ih => exact (ih.trans (List.suffix_cons b cs)).trans (List.suffix_cons c _)
  | case4 c cs _ _ => exact List.drop_suffix _ _
  | case5 => exact List.nil_suffix
  | case6 c _ b cs _ _ ih => exact (ih.trans (List.suffix_cons b cs)).trans (List.suffix_cons c _)
  | case7 c cs _ _ _ _ => exact List.suffix_cons c cs
  | case8 c cs _ _ _ _ ih => exact ih.trans (List.suffix_cons c cs)

theorem formatSpec_suffix (quote : List UInt8) (frames : List Frame) (depth : Nat)
    (cs : List UInt8) : (formatSpec quote frames depth cs).rest <:+ cs := by
  fun_induction formatSpec quote frames depth cs with
  | case1 => exact List.suffix_refl _
  | case2 _ c cs _ ih => exact ih.trans (List.suffix_cons c cs)
  | case3 c cs _ _ => exact (formatText_suffix quote frames cs).trans (List.suffix_cons c cs)
  | case4 c cs _ _ _ ih => exact ih.trans (List.suffix_cons c cs)
  | case5 _ c cs _ _ ih => exact ih.trans (List.suffix_cons c cs)

theorem chainEnd_suffix (cs : List UInt8) : chainEnd cs <:+ cs := by
  fun_induction chainEnd cs with
  | case1 => exact List.suffix_refl _
  | case2 c cs _ ih => exact ih.trans (List.suffix_cons c cs)
  | case3 c cs _ _ ih => exact ih.trans (List.suffix_cons c cs)
  | case4 => exact List.nil_suffix
  | case5 c _ b cs _ _ ih => exact (ih.trans (List.suffix_cons b cs)).trans (List.suffix_cons c _)
  | case6 => exact List.suffix_refl _

/-- A literal opens at a quote, two letters at most standing before it. -/
theorem exists_letters {quoted : List UInt8} {f : Bool} (h : opening? cs = some (f, quoted)) :
    ∃ letters b v, cs = letters ++ quoted ∧ quoted = b :: v ∧ letters.length ≤ 2 ∧
      letters.all isLiteralMark = true ∧ isQuote b = true ∧ f = letters.any isFormatMark := by
  unfold opening? at h
  repeat' split at h
  all_goals simp only [Option.some.injEq, Prod.mk.injEq, reduceCtorEq] at h
  · next a as hquote =>
    exact ⟨[], a, as, h.2 ▸ rfl, h.2.symm, by decide, rfl, hquote, h.1.symm⟩
  · next a _ ha _ b bs hquote =>
    obtain ⟨rfl, rfl⟩ := h
    exact ⟨[a], b, bs, rfl, rfl, Nat.le_succ 1, by simp [ha], hquote, by simp⟩
  · next a _ ha _ b _ hb _ c cs hquote =>
    obtain ⟨rfl, rfl⟩ := h
    exact ⟨[a, b], c, cs, rfl, rfl, Nat.le_refl 2, by simp [ha, hb], hquote, by simp⟩

theorem delimiter_append_iff (d : Delimiter) (u : List UInt8) :
    delimiter (d.bytes ++ u) = d.bytes ↔ (d.triple = false → ¬ [d.quote, d.quote] <+: u) := by
  refine ⟨?_, delimiter_append d⟩
  rintro h hsingle ⟨v, rfl⟩
  have hbytes : d.bytes = [d.quote] := by simp [Delimiter.bytes, hsingle]
  rw [hbytes, ← List.append_assoc] at h
  exact absurd (h.symm.trans (delimiter_triple d.quote v)) (by simp)

/-- A text that begins with a quote begins with the delimiter that is taken there. -/
theorem exists_delimiter {b : UInt8} (hb : isQuote b = true) (v : List UInt8) :
    ∃ (d : Delimiter) (body : List UInt8), b :: v = d.bytes ++ body ∧
      delimiter (b :: v) = d.bytes := by
  by_cases hv : [b, b] <+: v
  · obtain ⟨w, rfl⟩ := hv
    exact ⟨⟨b, true, hb⟩, w, rfl, delimiter_triple b w⟩
  · exact ⟨⟨b, false, hb⟩, v, rfl, delimiter_single hv⟩

/-- A literal is a backquoted one, or a quoted one behind letters that say what its text is. -/
theorem literal?_eq_some {place : Place} (h : literal? frames c cs = some place) :
    (c = backquote ∧ place = templateText frames cs) ∨
      ∃ (formatted : Bool) (start : LiteralStart formatted) (d : Delimiter) (body : List UInt8),
        c :: cs = start.letters ++ (d.bytes ++ body) ∧ delimiter (d.bytes ++ body) = d.bytes ∧
        place = if formatted then formatText d.bytes frames body
          else ⟨frames, quotedText d.bytes body⟩ := by
  unfold literal? at h
  split at h
  · next hback => exact Or.inl ⟨beq_iff_eq.mp hback, (Option.some.inj h).symm⟩
  · split at h
    · cases h
    · next formatted quoted heq =>
      obtain ⟨letters, b, v, hcs, rfl, hshort, hletters, hb, hformatted⟩ := exists_letters heq
      obtain ⟨d, body, hbody, hd⟩ := exists_delimiter hb v
      rw [hbody] at hcs hd h
      refine Or.inr ⟨formatted, ⟨letters, hshort, hletters, hformatted.symm⟩, d, body, hcs, hd, ?_⟩
      simpa only [hd, List.drop_left] using (Option.some.inj h).symm

theorem Delimiter.bytes_length_pos (d : Delimiter) : 0 < d.bytes.length := by
  obtain ⟨q, hq⟩ := d.bytes_eq_cons
  rw [hq]
  exact Nat.succ_pos _

/-- The text of a quoted literal stands behind its first byte. -/
theorem LiteralStart.body_suffix {formatted : Bool} (start : LiteralStart formatted)
    (d : Delimiter) {body : List UInt8} (h : c :: cs = start.letters ++ (d.bytes ++ body)) :
    body <:+ cs := by
  have hbody : body <:+ c :: cs := ⟨start.letters ++ d.bytes, by rw [h, List.append_assoc]⟩
  refine List.suffix_of_suffix_length_le hbody (List.suffix_cons c cs) ?_
  have hpos := d.bytes_length_pos
  have := congrArg List.length h
  simp only [List.length_append, List.length_cons] at this
  omega

/-- A literal is at least one byte long. -/
theorem literal?_suffix {place : Place} (h : literal? frames c cs = some place) :
    place.rest <:+ cs := by
  rcases literal?_eq_some h with ⟨-, rfl⟩ | ⟨formatted, start, d, body, hcs, -, rfl⟩
  · exact templateText_suffix frames cs
  · have hbody := start.body_suffix d hcs
    cases formatted with
    | true => exact (formatText_suffix _ _ _).trans hbody
    | false => exact (quotedText_suffix _ _).trans hbody

/-- A substitution ends at a closing brace, and the code of a field also at its conversion or format
specification. -/
theorem brace_eq_resumed {place : Place} (h : brace frames c cs = .resumed place) :
    (∃ outer, frames = .template 0 :: outer ∧ c = closeBrace ∧ place = templateText outer cs) ∨
      (∃ q outer, frames = .field q 0 :: outer ∧ c = closeBrace ∧ place = formatText q outer cs) ∨
      ∃ q outer, frames = .field q 0 :: outer ∧
        (c = colon ∨ (c = bang ∧ (cs.head?.map (· != equals)).getD false = true)) ∧
        place = formatSpec q outer 0 cs := by
  unfold brace at h
  repeat' split at h
  all_goals try cases h
  · next outer _ hc _ => exact Or.inl ⟨outer, rfl, beq_iff_eq.mp hc, rfl⟩
  · next q outer _ _ hc _ => exact Or.inr (Or.inl ⟨q, outer, rfl, beq_iff_eq.mp hc, rfl⟩)
  · next q depth outer hbracket _ hclose hends =>
    simp only [Bool.and_eq_true, Bool.or_eq_true, beq_iff_eq] at hends
    obtain ⟨rfl, hends⟩ := hends
    have hopen : ¬ (c == openBrace) = true := fun h => hbracket (by rw [h, Bool.or_true])
    refine Or.inr (Or.inr ⟨q, outer, rfl, hends, ?_⟩)
    rw [formatSpec.eq_def]
    simp only [hopen, hclose, if_false, Bool.false_eq_true]

theorem brace_conversion {q : List UInt8} {outer : List Frame}
    (hc : c = colon ∨ (c = bang ∧ (cs.head?.map (· != equals)).getD false = true)) :
    brace (.field q 0 :: outer) c cs = .resumed (formatSpec q outer 0 cs) := by
  rcases hc with rfl | ⟨rfl, hne⟩
  · rfl
  · unfold brace
    rw [hne]
    rfl

theorem brace_suffix {place : Place} (h : brace frames c cs = .resumed place) :
    place.rest <:+ cs := by
  rcases brace_eq_resumed h with ⟨outer, -, -, rfl⟩ | ⟨q, outer, -, -, rfl⟩ | ⟨q, outer, -, -, rfl⟩
  · exact templateText_suffix outer cs
  · exact formatText_suffix q outer cs
  · exact formatSpec_suffix q outer 0 cs

theorem nameEnd_suffix (g : Grain) (hc : isIdentStart c = true) : nameEnd g (c :: cs) <:+ cs := by
  have hpart := isIdentPart_of_isIdentStart hc
  cases g with
  | chain =>
    rw [nameEnd, chainEnd.eq_def]
    simpa only [hpart, if_true] using chainEnd_suffix cs
  | word =>
    rw [nameEnd, List.dropWhile_cons, if_pos hpart]
    exact List.dropWhile_suffix _

/-- Behind a lexeme stands what is left of the text. -/
theorem next_suffix (g : Grain) (frames : List Frame) (c : UInt8) (cs : List UInt8) :
    (next g frames c cs).2.rest <:+ cs := by
  unfold next
  split
  · next h => exact literal?_suffix h
  · split
    · next h => exact brace_suffix h
    · split
      · next h => exact nameEnd_suffix g h
      · split
        · exact List.dropWhile_suffix _
        · exact List.suffix_refl _

/-- **Induction on the lexemes of a text.**  What holds of the empty text, and of a text if it holds
behind its first lexeme, holds of every text. -/
theorem scan_induction {g : Grain} {motive : List Frame → List UInt8 → Prop}
    (nil : ∀ frames, motive frames [])
    (cons : ∀ frames c cs k fs bytes u, next g frames c cs = (k, ⟨fs, u⟩) →
      c :: cs = bytes ++ u → bytes ≠ [] → motive fs u → motive frames (c :: cs))
    (frames : List Frame) (cs : List UInt8) : motive frames cs := by
  induction hn : cs.length using Nat.strongRecOn generalizing frames cs with
  | ind n ih =>
    cases cs with
    | nil => exact nil frames
    | cons c cs =>
      obtain ⟨front, hfront⟩ := next_suffix g frames c cs
      cases hnext : next g frames c cs with
      | mk k place =>
        have hlength : place.rest.length ≤ cs.length := by
          simpa only [hnext] using next_length g frames c cs
        rw [hnext] at hfront
        rw [List.length_cons] at hn
        exact cons frames c cs k place.frames (c :: front) place.rest hnext
          (congrArg (c :: ·) hfront.symm) (List.cons_ne_nil c front)
          (ih _ (by omega) _ _ rfl)

/-- **No byte is lost**: the bytes of the lexemes, one after another, are the text. -/
theorem flatMap_lexemes (g : Grain) (frames : List Frame) (cs : List UInt8) :
    (lexemes g frames cs).flatMap (·.bytes) = cs := by
  induction frames, cs using scan_induction (g := g) with
  | nil frames =>
    rw [lexemes]
    rfl
  | cons frames c cs k fs bytes u hnext hcs _ ih =>
    rw [lexemes_cons hnext hcs, List.flatMap_cons, ih, hcs]

end

/-! ### The quotes of open fields -/

/-- What delimits a literal: quotes, at least one. -/
def IsQuoting (q : List UInt8) : Prop :=
  q ≠ [] ∧ ∀ b ∈ q, isQuote b = true

/-- The open fields belong to literals in quotes. -/
def Quoting (frames : List Frame) : Prop :=
  ∀ q depth, .field q depth ∈ frames → IsQuoting q

section

variable {frames fs : List Frame} {c : UInt8} {cs q : List UInt8} {depth : Nat}

@[simp] theorem quoting_nil : Quoting [] :=
  fun _ _ h => nomatch h

@[simp] theorem quoting_template : Quoting (.template depth :: frames) ↔ Quoting frames := by
  simp [Quoting]

@[simp] theorem quoting_field :
    Quoting (.field q depth :: frames) ↔ IsQuoting q ∧ Quoting frames := by
  simp [Quoting, or_imp, forall_and]

theorem Delimiter.isQuoting (d : Delimiter) : IsQuoting d.bytes := by
  refine ⟨List.ne_nil_of_length_pos d.bytes_length_pos, ?_⟩
  unfold bytes
  split <;> simp [d.quote_ok]

theorem templateText_quoting (h : Quoting frames) (cs : List UInt8) :
    Quoting (templateText frames cs).frames := by
  fun_induction templateText frames cs with
  | case3 _ _ _ _ ih => exact ih
  | case6 _ _ _ _ _ ih => exact ih
  | case5 => exact quoting_template.mpr h
  | _ => exact h

theorem formatText_quoting (hq : IsQuoting q) (h : Quoting frames) (cs : List UInt8) :
    Quoting (formatText q frames cs).frames := by
  fun_induction formatText q frames cs with
  | case3 _ _ _ _ ih => exact ih
  | case6 _ _ _ _ _ _ ih => exact ih
  | case8 _ _ _ _ _ _ ih => exact ih
  | case7 => exact quoting_field.mpr ⟨hq, h⟩
  | _ => exact h

theorem formatSpec_quoting (hq : IsQuoting q) (h : Quoting frames) (depth : Nat)
    (cs : List UInt8) : Quoting (formatSpec q frames depth cs).frames := by
  fun_induction formatSpec q frames depth cs with
  | case1 => exact h
  | case2 _ _ _ _ ih => exact ih
  | case3 c cs => exact formatText_quoting hq h cs
  | case4 _ _ _ _ _ ih => exact ih
  | case5 _ _ _ _ _ ih => exact ih

theorem literal?_quoting (h : Quoting frames) {place : Place}
    (hlit : literal? frames c cs = some place) : Quoting place.frames := by
  rcases literal?_eq_some hlit with ⟨-, rfl⟩ | ⟨formatted, -, d, body, -, -, rfl⟩
  · exact templateText_quoting h cs
  · cases formatted with
    | true => exact formatText_quoting d.isQuoting h body
    | false => exact h

/-- What a byte of code leaves open are fields of the same literals. -/
theorem brace_inside_quoting (h : Quoting frames) (hfs : brace frames c cs = .inside fs) :
    Quoting fs := by
  unfold brace at hfs
  repeat' split at hfs
  all_goals cases hfs
  all_goals first
    | exact quoting_nil
    | exact quoting_template.mpr (quoting_template.mp h)
    | exact quoting_field.mpr (quoting_field.mp h)

theorem brace_resumed_quoting (h : Quoting frames) {place : Place}
    (hplace : brace frames c cs = .resumed place) : Quoting place.frames := by
  rcases brace_eq_resumed hplace with
    ⟨outer, rfl, -, rfl⟩ | ⟨q, outer, rfl, -, rfl⟩ | ⟨q, outer, rfl, -, rfl⟩
  · exact templateText_quoting (quoting_template.mp h) cs
  · exact formatText_quoting (quoting_field.mp h).1 (quoting_field.mp h).2 cs
  · exact formatSpec_quoting (quoting_field.mp h).1 (quoting_field.mp h).2 0 cs

theorem next_quoting (g : Grain) (h : Quoting frames) (c : UInt8) (cs : List UInt8) :
    Quoting (next g frames c cs).2.frames := by
  unfold next
  split
  · next hlit => exact literal?_quoting h hlit
  · split
    · next hbrace => exact brace_resumed_quoting h hbrace
    · next hbrace =>
      have hfs := brace_inside_quoting h hbrace
      split
      · exact hfs
      · split
        · exact hfs
        · exact hfs

end

/-! ### What the bytes of a lexeme are -/

section

variable {g : Grain} {frames fs : List Frame} {c : UInt8} {cs u : List UInt8} {k : LexemeKind}

/-- A connector and the word behind it are a link. -/
theorem exists_linkBytes (k : Connector) {v : List UInt8} (hv : startsIdent v = true)
    (h : ∃ links, v = v.takeWhile isIdentPart ++ (DottedName.linkBytes links ++ u)) :
    ∃ links, k.bytes ++ v = DottedName.linkBytes links ++ u := by
  obtain ⟨links, hlinks⟩ := h
  cases v with
  | nil => cases hv
  | cons b v =>
    let w : Word isIdentStart := ⟨b, v.takeWhile isIdentPart, hv, List.all_takeWhile⟩
    refine ⟨(k, w) :: links, ?_⟩
    rw [List.takeWhile_cons, if_pos (isIdentPart_of_isIdentStart hv)] at hlinks
    rw [DottedName.linkBytes, List.append_assoc, List.append_assoc]
    exact congrArg (k.bytes ++ ·) hlinks

/-- What stands before the end of a chain is a word and its links. -/
theorem exists_links (cs : List UInt8) :
    ∃ links, cs = cs.takeWhile isIdentPart ++ (DottedName.linkBytes links ++ chainEnd cs) := by
  fun_induction chainEnd cs with
  | case1 => exact ⟨[], rfl⟩
  | case2 c cs hc ih =>
    obtain ⟨links, hlinks⟩ := ih
    refine ⟨links, ?_⟩
    rw [List.takeWhile_cons, if_pos hc, List.cons_append, ← hlinks]
  | case3 c cs hc hpoint ih =>
    simp only [Bool.and_eq_true, beq_iff_eq] at hpoint
    obtain ⟨rfl, hstarts⟩ := hpoint
    exact exists_linkBytes .dot hstarts ih
  | case4 c _ _ hjoint => simp [startsIdent] at hjoint
  | case5 c hc b cs _ hjoint ih =>
    simp only [Bool.and_eq_true, Bool.or_eq_true, beq_iff_eq, List.head?_cons, Option.some.injEq,
      List.tail_cons] at hjoint
    obtain ⟨⟨rfl, rfl⟩ | ⟨rfl, rfl⟩, hstarts⟩ := hjoint
    · exact exists_linkBytes .optional hstarts ih
    · exact exists_linkBytes .arrow hstarts ih
  | case6 c cs hc _ _ =>
    refine ⟨[], ?_⟩
    rw [List.takeWhile_cons, if_neg hc]
    rfl

/-- No identifier goes on behind a chain. -/
theorem head_chainEnd (cs : List UInt8) :
    ∀ b ∈ (chainEnd cs).head?, isIdentPart b = false := by
  fun_induction chainEnd cs with
  | case1 =>
    intro b hb
    cases hb
  | case2 c cs _ ih => exact ih
  | case3 c cs _ _ ih => exact ih
  | case4 =>
    intro b hb
    cases hb
  | case5 c _ b cs _ _ ih => exact ih
  | case6 c cs hc _ _ =>
    intro b hb
    obtain rfl := Option.some.inj hb
    exact eq_false_of_ne_true hc

theorem startsIdent_chainEnd (cs : List UInt8) : startsIdent (chainEnd cs) = false := by
  have hhead := head_chainEnd cs
  cases h : chainEnd cs with
  | nil => rfl
  | cons b u =>
    have hb := hhead b (by rw [h]; rfl)
    rw [isIdentPart, Bool.or_eq_false_iff] at hb
    exact hb.1

/-- **The bytes of a name are those of identifiers joined by connectors.** -/
theorem exists_dottedName (hnext : next .chain frames c cs = (.name, ⟨fs, u⟩)) :
    ∃ n : DottedName, c :: cs = n.bytes ++ u := by
  unfold next at hnext
  split at hnext
  · cases hnext
  · split at hnext
    · cases hnext
    · split at hnext
      · next hc =>
        obtain ⟨links, hlinks⟩ := exists_links (c :: cs)
        let w : Word isIdentStart := ⟨c, cs.takeWhile isIdentPart, hc, List.all_takeWhile⟩
        refine ⟨⟨w, links⟩, ?_⟩
        rw [List.takeWhile_cons, if_pos (isIdentPart_of_isIdentStart hc)] at hlinks
        obtain rfl : chainEnd (c :: cs) = u := by
          simp only [Prod.mk.injEq, Place.mk.injEq, true_and] at hnext
          exact hnext.2
        rw [DottedName.bytes, List.append_assoc]
        exact hlinks
      · split at hnext
        · cases hnext
        · cases hnext

/-- The lexemes of any text: none is empty, and names are made of identifiers. -/
theorem forall_mem_lexemes (frames : List Frame) (cs : List UInt8) :
    ∀ l ∈ lexemes .chain frames cs,
      l.bytes ≠ [] ∧ (l.kind = .name → ∃ n : DottedName, l.bytes = n.bytes) := by
  induction frames, cs using scan_induction (g := .chain) with
  | nil frames =>
    rw [lexemes]
    exact List.forall_mem_nil _
  | cons frames c cs k fs bytes u hnext hcs hbytes ih =>
    rw [lexemes_cons hnext hcs, List.forall_mem_cons]
    refine ⟨⟨hbytes, ?_⟩, ih⟩
    rintro rfl
    obtain ⟨n, hn⟩ := exists_dottedName hnext
    exact ⟨n, List.append_cancel_right (hcs.symm.trans hn)⟩

end

/-! ### The text of a name -/

/-- A text with every two bytes `a` and `b` in a row replaced by `r`. -/
def replacePair (a b r : UInt8) : List UInt8 → List UInt8
  | x :: y :: cs =>
    if x == a && y == b then r :: replacePair a b r cs else x :: replacePair a b r (y :: cs)
  | cs => cs

/-- The bytes of a chain with a dot for every connector. -/
def DottedName.dots (n : DottedName) : List UInt8 :=
  n.head.bytes ++ n.links.flatMap fun (_, w) => point :: w.bytes

theorem DottedName.name_eq (n : DottedName) :
    n.name = String.ofList (n.dots.map fun b => Char.ofNat b.toNat) := by
  simp [name, dots, chars, List.map_flatMap, show Char.ofNat point.toNat = '.' by decide]

theorem replacePair_append {a b r : UInt8} {w : List UInt8} (hw : a ∉ w) (u : List UInt8) :
    replacePair a b r (w ++ u) = w ++ replacePair a b r u := by
  induction w with
  | nil => rfl
  | cons x w ih =>
    rw [List.mem_cons, not_or] at hw
    have hx : (x == a) = false := beq_eq_false_iff_ne.mpr (Ne.symm hw.1)
    rw [List.cons_append, List.cons_append, ← ih hw.2]
    cases w ++ u with
    | nil => rfl
    | cons y v => rw [replacePair, hx, Bool.false_and, if_neg (by decide)]

theorem replacePair_pair (a b r : UInt8) (u : List UInt8) :
    replacePair a b r (a :: b :: u) = r :: replacePair a b r u := by
  rw [replacePair, beq_self_eq_true, beq_self_eq_true, if_pos (by decide)]

theorem Word.notMem_bytes (w : Word isIdentStart) {b : UInt8} (hb : isIdentPart b = false) :
    b ∉ w.bytes := by
  intro h
  have := List.all_eq_true.mp w.all_bytes b h
  rw [hb] at this
  cases this

/-- **The name of a chain is its text with `?.` and `->` replaced by dots.** -/
theorem replacePair_bytes (n : DottedName) :
    replacePair hyphen greater point (replacePair question point point n.bytes) = n.dots := by
  have hquestion : isIdentPart question = false := by decide
  have hhyphen : isIdentPart hyphen = false := by decide
  have hlinks : ∀ links, replacePair hyphen greater point
      (replacePair question point point (DottedName.linkBytes links)) =
      links.flatMap fun (_, w) => point :: w.bytes := by
    intro links
    induction links with
    | nil => rfl
    | cons link links ih =>
      obtain ⟨k, w⟩ := link
      have hq : question ∉ w.bytes := w.notMem_bytes hquestion
      have hh : hyphen ∉ point :: w.bytes :=
        List.not_mem_cons_of_ne_of_not_mem (by decide) (w.notMem_bytes hhyphen)
      rw [DottedName.linkBytes, List.flatMap_cons, ← ih, List.append_assoc]
      cases k with
      | dot =>
        have hq' : question ∉ point :: w.bytes := List.not_mem_cons_of_ne_of_not_mem (by decide) hq
        rw [Connector.bytes, List.singleton_append, ← List.cons_append, replacePair_append hq',
          replacePair_append hh]
      | optional =>
        rw [Connector.bytes, List.cons_append, List.singleton_append, replacePair_pair,
          replacePair_append hq, ← List.cons_append, replacePair_append hh]
      | arrow =>
        have hq' : question ∉ hyphen :: greater :: w.bytes :=
          List.not_mem_cons_of_ne_of_not_mem (by decide)
            (List.not_mem_cons_of_ne_of_not_mem (by decide) hq)
        rw [Connector.bytes, List.cons_append, List.singleton_append, ← List.cons_append,
          ← List.cons_append, replacePair_append hq', List.cons_append, List.cons_append,
          replacePair_pair, replacePair_append (w.notMem_bytes hhyphen)]
        rfl
  rw [DottedName.bytes, replacePair_append (n.head.notMem_bytes hquestion),
    replacePair_append (n.head.notMem_bytes hhyphen), hlinks]
  rfl

/-! ### Where chains stand -/

/-- The bytes of a span. -/
def slice (e : List UInt8) (s : Span) : List UInt8 :=
  (e.drop s.start).take (s.stop - s.start)

/-- A chain stands for a lexeme that is a name, at the place that the bytes before it give. -/
theorem mem_chainsFrom {start : Nat} {ls : List Lexeme} {c : Chain} (h : c ∈ chainsFrom start ls) :
    ∃ before l after, ls = before ++ l :: after ∧ l.kind = .name ∧
      c = ⟨String.ofList (dotted l.bytes),
        ⟨start + byteCount before, start + byteCount before + l.bytes.length⟩⟩ := by
  induction ls generalizing start with
  | nil => cases h
  | cons m ls ih =>
    obtain ⟨kind, bytes⟩ := m
    have hlater : c ∈ chainsFrom (start + bytes.length) ls →
        ∃ before l after, ⟨kind, bytes⟩ :: ls = before ++ l :: after ∧ l.kind = .name ∧
          c = ⟨String.ofList (dotted l.bytes),
            ⟨start + byteCount before, start + byteCount before + l.bytes.length⟩⟩ := by
      intro h
      obtain ⟨before, l, after, rfl, hl, rfl⟩ := ih h
      refine ⟨⟨kind, bytes⟩ :: before, l, after, rfl, hl, ?_⟩
      rw [byteCount_cons, ← Nat.add_assoc]
    cases kind with
    | number | literal | mark => exact hlater h
    | name =>
      rcases List.mem_cons.mp h with rfl | h
      · exact ⟨[], ⟨.name, bytes⟩, ls, rfl, rfl, rfl⟩
      · exact hlater h

/-- A chain ends before the next one begins. -/
theorem pairwise_chainsFrom (start : Nat) (ls : List Lexeme) :
    (chainsFrom start ls).Pairwise fun c d => c.span.stop ≤ d.span.start := by
  induction ls generalizing start with
  | nil => exact List.Pairwise.nil
  | cons m ls ih =>
    obtain ⟨kind, bytes⟩ := m
    cases kind with
    | number | literal | mark => exact ih _
    | name =>
      refine List.Pairwise.cons (fun d hd => ?_) (ih _)
      obtain ⟨before, l, after, -, -, rfl⟩ := mem_chainsFrom hd
      exact Nat.le_add_right _ _

/-- **A chain stands where its identifiers stand**: its span is a nonempty range of the text, whose
bytes are those of identifiers and connectors, and its name is those bytes with `?.` and `->`
replaced by dots. -/
structure StandsIn (c : Chain) (e : List UInt8) : Prop where
  nonempty : c.span.start < c.span.stop
  within : c.span.stop ≤ e.length
  bytes : ∃ n : DottedName, slice e c.span = n.bytes ∧ c.name = n.name
  name : c.name = String.ofList ((replacePair hyphen greater point
    (replacePair question point point (slice e c.span))).map fun b => Char.ofNat b.toNat)

theorem standsIn_of_mem_chains {e : List UInt8} {c : Chain} (h : c ∈ chains e) : StandsIn c e := by
  obtain ⟨before, l, after, hls, hkind, rfl⟩ := mem_chainsFrom h
  have hl : l ∈ lexemes .chain [] e := by
    rw [hls]
    exact List.mem_append_right _ List.mem_cons_self
  obtain ⟨hne, hname⟩ := forall_mem_lexemes [] e l hl
  obtain ⟨n, hn⟩ := hname hkind
  have htext : e = before.flatMap (·.bytes) ++ (l.bytes ++ after.flatMap (·.bytes)) := by
    rw [← flatMap_lexemes .chain [] e, hls, List.flatMap_append, List.flatMap_cons]
  have hslice : slice e ⟨0 + byteCount before, 0 + byteCount before + l.bytes.length⟩ = l.bytes := by
    rw [slice, Nat.add_sub_cancel_left, htext, Nat.zero_add, byteCount, List.drop_left,
      List.take_left]
  refine ⟨?_, ?_, ⟨n, hslice.trans hn, ?_⟩, ?_⟩
  · exact Nat.lt_add_of_pos_right (List.length_pos_iff.mpr hne)
  · rw [htext, List.length_append, List.length_append, Nat.zero_add, byteCount, ← Nat.add_assoc]
    exact Nat.le_add_right _ _
  · rw [hn, dotted_bytes]
  · rw [hslice, hn, replacePair_bytes, dotted_bytes, DottedName.name_eq]

theorem pairwise_chains (e : List UInt8) :
    (chains e).Pairwise fun c d => c.span.stop ≤ d.span.start :=
  pairwise_chainsFrom 0 _

/-! ### Where calls stand -/

/-- A closing parenthesis is found at a lexeme that is one. -/
theorem closingFrom_eq_some {depth : Int} {start i : Nat} {ls : List Lexeme}
    (h : closingFrom depth start ls = some i) :
    ∃ before after, ls = before ++ markOf closeParen :: after ∧ i = start + byteCount before := by
  induction ls generalizing depth start with
  | nil => cases h
  | cons l ls ih =>
    have hlater : ∀ {depth : Int}, closingFrom depth (start + l.bytes.length) ls = some i →
        ∃ before after, l :: ls = before ++ markOf closeParen :: after ∧
          i = start + byteCount before := by
      intro depth h
      obtain ⟨before, after, rfl, rfl⟩ := ih h
      refine ⟨l :: before, after, rfl, ?_⟩
      rw [byteCount_cons, Nat.add_assoc]
    rw [closingFrom] at h
    split at h
    · exact hlater h
    · split at h
      · next hclose =>
        split at h
        · rw [beq_iff_eq] at hclose
          exact ⟨[], ls, congrArg (· :: ls) hclose, (Option.some.inj h).symm⟩
        · exact hlater h
      · exact hlater h

/-- **A closing parenthesis is found where one stands**, not before the place where the search
begins, which may be any place. -/
theorem closingParen?_eq_some {e : List UInt8} {start i : Nat} (h : closingParen? e start = some i) :
    start ≤ i ∧ i < e.length ∧ e[i]? = some closeParen := by
  unfold closingParen? at h
  obtain ⟨before, after, hls, rfl⟩ := closingFrom_eq_some h
  have htext := flatMap_lexemes .word [] ((e.drop start).drop
    (if insideWord e start then ((e.drop start).takeWhile isIdentPart).length else 0))
  rw [hls, List.flatMap_append, List.flatMap_cons, List.drop_drop] at htext
  have hbyte : e[start + (if insideWord e start then ((e.drop start).takeWhile isIdentPart).length
      else 0) + byteCount before]? = some closeParen := by
    rw [← List.getElem?_drop, ← htext, byteCount, List.getElem?_append_right (Nat.le_refl _),
      Nat.sub_self]
    rfl
  exact ⟨Nat.le_trans (Nat.le_add_right _ _) (Nat.le_add_right _ _),
    (List.getElem?_eq_some_iff.mp hbyte).1, hbyte⟩

/-- A call begins at a chain and ends right behind a closing parenthesis. -/
structure CallsIn (k : Call) (c : Chain) (e : List UInt8) : Prop where
  name : k.name = c.name
  start : k.span.start = c.span.start
  after : c.span.stop < k.span.stop
  within : k.span.stop ≤ e.length
  closes : e[k.span.stop - 1]? = some closeParen

theorem callAt?_eq_some {e : List UInt8} {c : Chain} {k : Call} (h : callAt? e c = some k) :
    CallsIn k c e := by
  unfold callAt? at h
  simp only at h
  split at h
  · obtain ⟨i, hi, rfl⟩ := Option.map_eq_some_iff.mp h
    obtain ⟨hstart, hlt, hbyte⟩ := closingParen?_eq_some hi
    exact ⟨rfl, rfl, Nat.lt_succ_of_le (Nat.le_trans (Nat.le_add_right _ _) hstart), hlt, hbyte⟩
  · cases h

/-- **A call begins at a chain of the text.** -/
theorem exists_chain_of_mem_calls {e : List UInt8} {k : Call} (h : k ∈ calls e) :
    ∃ c ∈ chains e, CallsIn k c e := by
  obtain ⟨c, hc, hk⟩ := List.mem_filterMap.mp h
  exact ⟨c, hc, callAt?_eq_some hk⟩

/-- **Calls are ordered by where they start.** -/
theorem pairwise_calls (e : List UInt8) :
    (calls e).Pairwise fun k l => k.span.start < l.span.start := by
  refine List.pairwise_filterMap.mpr ((pairwise_chains e).imp_of_mem ?_)
  intro c d hc _ hcd k hk l hl
  rw [(callAt?_eq_some hk).start, (callAt?_eq_some hl).start]
  exact Nat.lt_of_lt_of_le (standsIn_of_mem_chains hc).nonempty hcd

end TaintFlow.Expr
