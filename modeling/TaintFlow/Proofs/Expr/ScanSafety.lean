import TaintFlow.Proofs.Expr.Offsets

/-!
# The scan of any text is safe

The scan by offsets does not fail on any text, and finds the chains, the calls and the closing
parentheses that the lexemes of the text give.  A lexeme may be passed over in one step or, when the
search for a parenthesis meets a word, byte by byte; the invariant that keeps both scans together is
that the scan for chains never stands inside a word, and the search only inside words whose rest the
lexemes leave out.

## Main definitions

* `Apart` — no word goes on from what is read to what is left.
* `wordRest` — the rest of the word that an offset stands in.
* `SearchesOn` — from an offset on, the search for a parenthesis agrees with the lexemes.

## Main results

* `next_apart` — no word goes on behind a lexeme.
* `walkAt_eq`, `matchAt_eq`, `callsAt_eq` — the scan does not fail, and agrees with the lexemes.
* `scan_safe` — the scan of any text is safe, and what it reports stands in the text.
-/

namespace TaintFlow.Expr

/-! ### Where words end -/

section

variable {q cs u : List UInt8} {frames : List Frame} {c : UInt8}

/-- No identifier goes on from the bytes that are read to those that are left. -/
def Apart (cs u : List UInt8) : Prop :=
  (∀ b ∈ u.head?, isIdentPart b = false) ∨ ∃ front b, cs = front ++ b :: u ∧ isIdentPart b = false

theorem apart_nil (cs : List UInt8) : Apart cs [] :=
  Or.inl fun _ h => nomatch h

theorem apart_cons (hc : isIdentPart c = false) (cs : List UInt8) : Apart (c :: cs) cs :=
  Or.inr ⟨[], c, rfl, hc⟩

theorem Apart.append (front : List UInt8) (h : Apart cs u) : Apart (front ++ cs) u := by
  rcases h with h | ⟨front', b, rfl, hb⟩
  · exact Or.inl h
  · exact Or.inr ⟨front ++ front', b, (List.append_assoc _ _ _).symm, hb⟩

theorem Apart.cons (c : UInt8) (h : Apart cs u) : Apart (c :: cs) u :=
  h.append [c]

theorem apart_delimiter (hq : IsQuoting q) (h : q.isPrefixOf cs = true) :
    Apart cs (cs.drop q.length) := by
  obtain ⟨v, rfl⟩ := List.isPrefixOf_iff_prefix.mp h
  have hlast := hq.2 _ (List.getLast_mem hq.1)
  refine Or.inr ⟨q.dropLast, q.getLast hq.1, ?_, ?_⟩
  · rw [List.drop_left, List.append_cons, List.dropLast_concat_getLast]
  · rw [← Bool.not_eq_true]
    intro hpart
    rw [isQuote_eq_false_of_isIdentPart hpart] at hlast
    cases hlast

theorem quotedText_apart (hq : IsQuoting q) (cs : List UInt8) : Apart cs (quotedText q cs) := by
  fun_induction quotedText q cs with
  | case1 => exact apart_nil _
  | case2 => exact apart_nil _
  | case3 c _ b cs ih => exact (ih.cons b).cons c
  | case4 c cs _ hprefixed => exact apart_delimiter hq hprefixed
  | case5 c cs _ _ ih => exact ih.cons c

theorem templateText_apart (frames : List Frame) (cs : List UInt8) :
    Apart cs (templateText frames cs).rest := by
  fun_induction templateText frames cs with
  | case1 => exact apart_nil _
  | case2 => exact apart_nil _
  | case3 c _ b cs ih => exact (ih.cons b).cons c
  | case4 c cs _ hclose =>
    obtain rfl := beq_iff_eq.mp hclose
    exact apart_cons (by decide) cs
  | case5 c cs _ _ hopen =>
    simp only [Bool.and_eq_true, beq_iff_eq] at hopen
    obtain ⟨cs, rfl⟩ := List.head?_eq_some_iff.mp hopen.2
    exact (apart_cons (by decide) cs).cons c
  | case6 c cs _ _ _ ih => exact ih.cons c

theorem formatText_apart (hq : IsQuoting q) (frames : List Frame) (cs : List UInt8) :
    Apart cs (formatText q frames cs).rest := by
  fun_induction formatText q frames cs with
  | case1 => exact apart_nil _
  | case2 => exact apart_nil _
  | case3 c _ b cs ih => exact (ih.cons b).cons c
  | case4 c cs _ hprefixed => exact apart_delimiter hq hprefixed
  | case5 => exact apart_nil _
  | case6 c _ b cs _ _ ih => exact (ih.cons b).cons c
  | case7 c cs _ _ _ hopen =>
    obtain rfl := beq_iff_eq.mp hopen
    exact apart_cons (by decide) cs
  | case8 c cs _ _ _ _ ih => exact ih.cons c

theorem formatSpec_apart (hq : IsQuoting q) (frames : List Frame) (depth : Nat) (cs : List UInt8) :
    Apart cs (formatSpec q frames depth cs).rest := by
  fun_induction formatSpec q frames depth cs with
  | case1 => exact apart_nil _
  | case2 _ c cs _ ih => exact ih.cons c
  | case3 c cs _ _ => exact (formatText_apart hq frames cs).cons c
  | case4 c cs _ _ _ ih => exact ih.cons c
  | case5 _ c cs _ _ ih => exact ih.cons c

theorem literal?_apart {place : Place} (h : literal? frames c cs = some place) :
    Apart (c :: cs) place.rest := by
  rcases literal?_eq_some h with ⟨-, rfl⟩ | ⟨formatted, start, d, body, hcs, -, rfl⟩
  · exact (templateText_apart frames cs).cons c
  · rw [hcs]
    cases formatted with
    | true => exact ((formatText_apart d.isQuoting frames body).append _).append _
    | false => exact ((quotedText_apart d.isQuoting body).append _).append _

theorem brace_apart (hframes : Quoting frames) {place : Place}
    (h : brace frames c cs = .resumed place) : Apart (c :: cs) place.rest := by
  rcases brace_eq_resumed h with
    ⟨outer, -, -, rfl⟩ | ⟨q, outer, rfl, -, rfl⟩ | ⟨q, outer, rfl, -, rfl⟩
  · exact (templateText_apart outer cs).cons c
  · exact (formatText_apart (quoting_field.mp hframes).1 outer cs).cons c
  · exact (formatSpec_apart (quoting_field.mp hframes).1 outer 0 cs).cons c

/-- **No identifier goes on behind a lexeme.** -/
theorem next_apart (g : Grain) (hframes : Quoting frames) (c : UInt8) (cs : List UInt8) :
    Apart (c :: cs) (next g frames c cs).2.rest := by
  cases hlit : literal? frames c cs with
  | some place =>
    rw [next_of_literal? hlit]
    exact literal?_apart hlit
  | none =>
    cases hbrace : brace frames c cs with
    | resumed place =>
      rw [next_of_resumed hlit hbrace]
      exact brace_apart hframes hbrace
    | inside fs =>
      rw [next_code hlit hbrace]
      split
      · cases g with
        | chain => exact Or.inl (head_chainEnd _)
        | word => exact Or.inl (head_dropWhile _)
      · next hstart =>
        split
        · exact Or.inl (head_dropWhile cs)
        · next hdigit =>
          refine apart_cons ?_ cs
          rw [isIdentPart, eq_false_of_ne_true hstart, eq_false_of_ne_true hdigit]
          rfl

end

section

variable {e bytes u : List UInt8} {pos p : Nat}

/-- Two offsets that leave the same bytes are the same, unless none are left. -/
theorem eq_or_nil (h : e.drop pos = bytes ++ u) (hp : e.drop p = u) :
    u = [] ∨ p = pos + bytes.length := by
  cases u with
  | nil => exact Or.inl rfl
  | cons b u =>
    have hlt := lt_of_drop hp
    have hlt' := lt_of_drop (drop_add_of_drop bytes h)
    have := congrArg List.length (hp.trans (drop_add_of_drop bytes h).symm)
    rw [List.length_drop, List.length_drop] at this
    exact Or.inr (by omega)

theorem wordSeam_of_apart {cs : List UInt8} (h : e.drop pos = cs) (hp : e.drop p = u)
    (hapart : Apart cs u) : WordSeam e p := by
  intro hinside b hb
  rw [hp] at hb
  rcases hapart with hapart | ⟨front, b', rfl, hb'⟩
  · exact hapart b hb
  · have h' : e.drop pos = (front ++ [b']) ++ u := by rw [h, List.append_assoc]; rfl
    rcases eq_or_nil h' hp with rfl | rfl
    · cases hb
    · have hbefore := byte_of_drop (drop_add_of_drop front h)
      rw [List.length_append, List.length_singleton, ← Nat.add_assoc, insideWord, hbefore] at hinside
      simp [hb'] at hinside

end

/-! ### Names -/

section

variable {e cs : List UInt8} {pos : Nat} {c : UInt8}

theorem exists_wordAt (e : List UInt8) {pos : Nat} (hpos : pos ≤ e.length) :
    ∃ p, wordAt e pos = some p ∧ pos ≤ p ∧ p ≤ e.length ∧
      e.drop p = (e.drop pos).dropWhile isIdentPart := by
  induction pos using offset_induction e with
  | stop pos h =>
    rw [wordAt, if_neg (not_lt_of_drop h), h]
    exact ⟨pos, rfl, Nat.le_refl _, hpos, h⟩
  | step pos c cs h ih =>
    rw [wordAt, if_pos (lt_of_drop h), byte_of_drop h, h, List.dropWhile_cons]
    simp only [Option.bind_eq_bind, Option.bind_some]
    cases isIdentPart c with
    | false => exact ⟨pos, rfl, Nat.le_refl _, hpos, h⟩
    | true =>
      obtain ⟨p, hp, hle, hend, hrest⟩ := ih (pos + 1) (Nat.lt_succ_self _) (lt_of_drop h)
      rw [drop_one_of_drop h] at hrest
      exact ⟨p, hp, by omega, hend, hrest⟩

theorem chainEnd_dropWhile (cs : List UInt8) :
    chainEnd (cs.dropWhile isIdentPart) = chainEnd cs := by
  have h := chainEnd_append_of_all (w := cs.takeWhile isIdentPart) List.all_takeWhile
    (cs.dropWhile isIdentPart)
  rw [List.takeWhile_append_dropWhile] at h
  exact h.symm

theorem startsIdent_eq (cs : List UInt8) : startsIdent cs = cs.head?.any isIdentStart := by
  cases cs <;> rfl

theorem connectorLength_cons (c : UInt8) (cs : List UInt8) :
    connectorLength (c :: cs) =
      if (c == question && cs.head? == some point) || (c == hyphen && cs.head? == some greater) then 2
      else if c == point then 1 else 0 := by
  unfold connectorLength
  cases cs with
  | nil => simp [List.isPrefixOf, Bool.beq_comm]
  | cons b cs => simp [List.isPrefixOf, Bool.beq_comm]

/-- Where no identifier goes on, a chain does behind a connector that an identifier follows. -/
theorem chainEnd_connectorLength (hhead : ∀ b ∈ cs.head?, isIdentPart b = false) :
    chainEnd cs =
      if connectorLength cs ≠ 0 ∧ startsIdent (cs.drop (connectorLength cs)) = true then
        chainEnd (cs.drop (connectorLength cs))
      else cs := by
  cases cs with
  | nil => rfl
  | cons c cs =>
    have hc : isIdentPart c = false := hhead c rfl
    rw [connectorLength_cons, chainEnd.eq_def]
    simp only [hc, if_false, Bool.false_eq_true]
    cases hjoint : (c == question && cs.head? == some point)
        || (c == hyphen && cs.head? == some greater) with
    | true =>
      simp only [Bool.or_eq_true, Bool.and_eq_true, beq_iff_eq] at hjoint
      rcases hjoint with ⟨rfl, hb⟩ | ⟨rfl, hb⟩
      all_goals
        obtain ⟨cs, rfl⟩ := List.head?_eq_some_iff.mp hb
        simp [show question ≠ point by decide, show hyphen ≠ point by decide]
    | false =>
      cases c == point with
      | true => simp
      | false => simp

theorem exists_chainAt (e : List UInt8) {pos : Nat} (hpos : pos ≤ e.length) :
    ∃ p, chainAt e pos = some p ∧ pos ≤ p ∧ p ≤ e.length ∧ e.drop p = chainEnd (e.drop pos) := by
  induction pos using offset_induction e with
  | stop pos h =>
    obtain ⟨p, hp, hle, hend, hrest⟩ := exists_wordAt e hpos
    rw [h] at hrest
    have htext : textFrom? e p = some [] := (if_pos hend).trans (congrArg some hrest)
    rw [chainAt, hp, h]
    simp only [Option.bind_eq_bind, Option.bind_some, htext]
    exact ⟨p, rfl, hle, hend, hrest⟩
  | step pos c cs h ih =>
    obtain ⟨p, hp, hle, hend, hrest⟩ := exists_wordAt e hpos
    have htext : textFrom? e p = some (e.drop p) := if_pos hend
    have hhead : ∀ b ∈ (e.drop p).head?, isIdentPart b = false := hrest ▸ head_dropWhile _
    rw [chainAt, hp, ← chainEnd_dropWhile, ← hrest, chainEnd_connectorLength hhead]
    simp only [Option.bind_eq_bind, Option.bind_some, htext, byteIs?_eq, ← List.drop_drop,
      ← startsIdent_eq]
    by_cases hn : connectorLength (e.drop p) = 0
    · rw [if_pos hn, if_neg (fun h => h.1 hn)]
      exact ⟨p, rfl, hle, hend, rfl⟩
    cases hstarts : startsIdent ((e.drop p).drop (connectorLength (e.drop p))) with
    | false =>
      rw [if_neg hn, if_neg (by decide), if_neg (by simp)]
      exact ⟨p, rfl, hle, hend, rfl⟩
    | true =>
      have hlt := lt_of_drop h
      have hle' : p + connectorLength (e.drop p) ≤ e.length := by
        refine Nat.le_of_not_lt fun hgt => ?_
        rw [List.drop_drop, List.drop_eq_nil_of_le (Nat.le_of_lt hgt)] at hstarts
        cases hstarts
      obtain ⟨stop, hstop, hlestop, hendstop, hreststop⟩ :=
        ih (p + connectorLength (e.drop p)) (by omega) hle'
      rw [if_neg hn, if_pos rfl, if_pos ⟨by omega, hlt⟩, if_pos ⟨hn, rfl⟩, List.drop_drop]
      exact ⟨stop, hstop, by omega, hendstop, hreststop⟩

end

/-! ### The chains -/

section

variable {e cs bytes u : List UInt8} {frames fs : List Frame} {pos p : Nat} {c : UInt8}
  {k : LexemeKind} {g : Grain}

/-- What stands in front of the rest behind a lexeme. -/
theorem exists_bytes (hnext : next g frames c cs = (k, ⟨fs, u⟩)) : ∃ bytes, c :: cs = bytes ++ u := by
  obtain ⟨front, hfront⟩ := next_suffix g frames c cs
  rw [hnext] at hfront
  exact ⟨c :: front, congrArg (c :: ·) hfront.symm⟩

theorem lt_of_next (h : e.drop pos = c :: cs) (hnext : next g frames c cs = (k, ⟨fs, u⟩))
    (hp : e.drop p = u) (hle : pos ≤ p) : pos < p := by
  refine Nat.lt_of_le_of_ne hle ?_
  rintro rfl
  have hlength := next_length g frames c cs
  rw [hnext, ← hp, h, List.length_cons] at hlength
  exact absurd hlength (Nat.not_succ_le_self _)

theorem chainsFrom_of_drop (h : e.drop pos = bytes ++ u) (hp : e.drop p = u) (fs : List Frame) :
    chainsFrom (pos + bytes.length) (lexemes g fs u) = chainsFrom p (lexemes g fs u) := by
  rcases eq_or_nil h hp with rfl | rfl
  · rw [lexemes]
    rfl
  · rfl

/-- Behind a lexeme the frames are in order and no word goes on. -/
theorem wordSeam_of_next (hframes : Quoting frames) (h : e.drop pos = c :: cs)
    (hnext : next g frames c cs = (k, ⟨fs, u⟩)) (hp : e.drop p = u) :
    Quoting fs ∧ WordSeam e p := by
  have hquoting := next_quoting g hframes c cs
  have hapart := next_apart g hframes c cs
  rw [hnext] at hquoting hapart
  exact ⟨hquoting, wordSeam_of_apart h hp hapart⟩

/-- A lexeme that is no name begins no chain. -/
theorem chainsFrom_next (hk : k ≠ .name) (h : e.drop pos = c :: cs)
    (hnext : next g frames c cs = (k, ⟨fs, u⟩)) (hp : e.drop p = u) :
    chainsFrom pos (lexemes g frames (c :: cs)) = chainsFrom p (lexemes g fs u) := by
  obtain ⟨bytes, hbytes⟩ := exists_bytes hnext
  rw [lexemes_cons hnext hbytes, chainsFrom_cons_of_ne hk,
    chainsFrom_of_drop (h.trans hbytes) hp]

/-- A name is the text of a chain. -/
theorem chainsFrom_name (h : e.drop pos = c :: cs)
    (hnext : next .chain frames c cs = (.name, ⟨fs, u⟩)) (hp : e.drop p = u) (hle : pos ≤ p)
    (hend : p ≤ e.length) :
    ∃ name, nameAt e pos p = some name ∧
      chainsFrom pos (lexemes .chain frames (c :: cs)) =
        ⟨name, ⟨pos, p⟩⟩ :: chainsFrom p (lexemes .chain fs u) := by
  obtain ⟨n, hn⟩ := exists_dottedName hnext
  have hp' : pos + n.bytes.length = p := by
    have hlength := congrArg List.length (h.trans hn)
    have hlength' := congrArg List.length hp
    rw [List.length_drop, List.length_append] at hlength
    rw [List.length_drop] at hlength'
    omega
  have hslice : slice e ⟨pos, p⟩ = n.bytes := by
    rw [slice, h, hn, ← hp', Nat.add_sub_cancel_left, List.take_left]
  refine ⟨n.name, ?_, ?_⟩
  · rw [nameAt, if_pos ⟨hle, hend⟩, hslice, replacePair_bytes, n.name_eq]
  · rw [lexemes_cons hnext hn, chainsFrom, hp', dotted_bytes]

/-- **The scan for chains does not fail**, and finds those of the lexemes. -/
theorem walkAt_eq (hframes : Quoting frames) (hseam : WordSeam e pos) :
    walkAt e frames pos = some (chainsFrom pos (lexemes .chain frames (e.drop pos))) := by
  induction pos using offset_induction e generalizing frames with
  | stop pos h =>
    rw [walkAt, if_neg (not_lt_of_drop h), h, lexemes]
    rfl
  | step pos c cs h ih =>
    have hle := Nat.le_of_lt (lt_of_drop h)
    rw [walkAt, if_pos (lt_of_drop h), h]
    rcases foundAt_cases frames h hseam with
      ⟨p, ⟨fs, u⟩, hfound, hlt, hp, hnext⟩ | ⟨fs, hfound, hnext⟩
    · obtain ⟨hquoting, hseam'⟩ := wordSeam_of_next hframes h (hnext .chain) hp
      have hrec := ih p hlt hquoting hseam'
      rw [hp] at hrec
      simp only [Option.bind_eq_bind, Option.bind_some, hfound]
      rw [if_pos hlt, hrec, chainsFrom_next (by decide) h (hnext .chain) hp]
    · have hnext := hnext .chain
      simp only [Option.bind_eq_bind, Option.bind_some, hfound, byte_of_drop h, insideAt_eq hle]
      cases hstart : isIdentStart c with
      | true =>
        rw [hstart, if_pos rfl] at hnext
        have hinside : insideWord e pos = false := by
          rw [← Bool.not_eq_true]
          intro hinside
          have hc := hseam hinside c (by rw [h]; rfl)
          rw [isIdentPart_of_isIdentStart hstart] at hc
          cases hc
        obtain ⟨p, hat, hlep, hend, hp⟩ := exists_chainAt e hle
        rw [h] at hp
        have hlt := lt_of_next h hnext hp hlep
        obtain ⟨name, hname, hchains⟩ := chainsFrom_name h hnext hp hlep hend
        obtain ⟨hquoting, hseam'⟩ := wordSeam_of_next hframes h hnext hp
        have hrec := ih p hlt hquoting hseam'
        rw [hp] at hrec
        simp only [hinside, Bool.not_false, Bool.and_self, if_true, hat, hname, Option.bind_some]
        rw [if_pos hlt, hrec, hchains]
        rfl
      | false =>
        rw [hstart, if_neg (by decide)] at hnext
        rw [Bool.false_and, if_neg (by decide)]
        cases hdigit : isDigit c with
        | true =>
          rw [hdigit, if_pos rfl] at hnext
          obtain ⟨p, hat, hlep, hend, hp⟩ := exists_wordAt e hle
          rw [h, List.dropWhile_cons, if_pos (isIdentPart_of_isDigit hdigit)] at hp
          have hlt := lt_of_next h hnext hp hlep
          obtain ⟨hquoting, hseam'⟩ := wordSeam_of_next hframes h hnext hp
          have hrec := ih p hlt hquoting hseam'
          rw [hp] at hrec
          simp only [hat, if_true, Option.bind_some]
          rw [if_pos hlt, hrec, chainsFrom_next (by decide) h hnext hp]
        | false =>
          rw [hdigit, if_neg (by decide)] at hnext
          have hp := drop_one_of_drop h
          obtain ⟨hquoting, hseam'⟩ := wordSeam_of_next hframes h hnext hp
          have hrec := ih (pos + 1) (Nat.lt_succ_self _) hquoting hseam'
          rw [hp] at hrec
          rw [if_neg (by decide), hrec, chainsFrom_next (by decide) h hnext hp]

end

/-! ### The closing parenthesis -/

section

variable {e cs bytes u : List UInt8} {frames fs : List Frame} {pos p : Nat} {c : UInt8}
  {k : LexemeKind} {depth : Int}

/-- The number of bytes from an offset on that belong to a word which begins before it. -/
def wordRest (e : List UInt8) (pos : Nat) : Nat :=
  if insideWord e pos then ((e.drop pos).takeWhile isIdentPart).length else 0

theorem wordRest_of_wordSeam (h : WordSeam e pos) : wordRest e pos = 0 := by
  unfold wordRest
  split
  · next hinside =>
    have hhead := h hinside
    cases hcs : e.drop pos with
    | nil => rfl
    | cons c cs =>
      rw [List.takeWhile_cons, hhead c (by rw [hcs]; rfl)]
      rfl
  · rfl

/-- The next lexeme but one begins where the word ends that a byte belongs to. -/
theorem wordRest_succ (h : e.drop pos = c :: cs) :
    wordRest e (pos + 1) = if isIdentPart c then (cs.takeWhile isIdentPart).length else 0 := by
  have hinside : insideWord e (pos + 1) = isIdentPart c := by
    rw [insideWord, byte_of_drop h]
    rfl
  rw [wordRest, hinside, drop_one_of_drop h]

theorem closingFrom_of_drop (h : e.drop pos = bytes ++ u) (hp : e.drop p = u) (fs : List Frame) :
    closingFrom depth (pos + bytes.length) (lexemes .word fs u) =
      closingFrom depth p (lexemes .word fs u) := by
  rcases eq_or_nil h hp with rfl | rfl
  · rw [lexemes]
    rfl
  · rfl

/-- A lexeme that is no mark does not change the depth. -/
theorem closingFrom_next (hk : k ≠ .mark) (h : e.drop pos = c :: cs)
    (hnext : next .word frames c cs = (k, ⟨fs, u⟩)) (hp : e.drop p = u) :
    closingFrom depth pos (lexemes .word frames (c :: cs)) =
      closingFrom depth p (lexemes .word fs u) := by
  obtain ⟨bytes, hbytes⟩ := exists_bytes hnext
  have hopen : ((⟨k, bytes⟩ : Lexeme) == markOf openParen) = false := by
    rw [beq_eq_false_iff_ne]
    exact fun h => hk (congrArg Lexeme.kind h)
  have hclose : ((⟨k, bytes⟩ : Lexeme) == markOf closeParen) = false := by
    rw [beq_eq_false_iff_ne]
    exact fun h => hk (congrArg Lexeme.kind h)
  rw [lexemes_cons hnext hbytes, closingFrom, hopen, hclose, if_neg (by decide),
    if_neg (by decide), closingFrom_of_drop (h.trans hbytes) hp]

/-- The code of a word is one lexeme. -/
theorem next_word (hc : isIdentPart c = true)
    (hnext : next .word frames c cs =
      if isIdentStart c then (.name, ⟨fs, nameEnd .word (c :: cs)⟩)
      else if isDigit c then (.number, ⟨fs, cs.dropWhile isIdentPart⟩) else (.mark, ⟨fs, cs⟩)) :
    ∃ k, k ≠ .mark ∧ next .word frames c cs = (k, ⟨fs, cs.dropWhile isIdentPart⟩) := by
  cases hstart : isIdentStart c with
  | true =>
    rw [hstart, if_pos rfl, nameEnd, List.dropWhile_cons, if_pos hc] at hnext
    exact ⟨.name, by decide, hnext⟩
  | false =>
    rw [isIdentPart, hstart, Bool.false_or] at hc
    rw [hstart, hc, if_neg (by decide), if_pos rfl] at hnext
    exact ⟨.number, by decide, hnext⟩

theorem closingFrom_mark
    (hnext : next .word frames c cs = (.mark, ⟨fs, cs⟩)) :
    closingFrom depth pos (lexemes .word frames (c :: cs)) =
      if c == openParen then closingFrom (depth + 1) (pos + 1) (lexemes .word fs cs)
      else if c == closeParen then
        if depth == 1 then some pos else closingFrom (depth - 1) (pos + 1) (lexemes .word fs cs)
      else closingFrom depth (pos + 1) (lexemes .word fs cs) := by
  have hmark : ∀ b, (markOf c == markOf b) = (c == b) := by
    intro b
    rw [Bool.eq_iff_iff]
    simp
  rw [lexemes_cons hnext List.singleton_append.symm, closingFrom, hmark, hmark]
  rfl

theorem paren_of_isIdentPart (hc : isIdentPart c = true) :
    (c == openParen) = false ∧ (c == closeParen) = false := by
  rw [beq_eq_false_iff_ne, beq_eq_false_iff_ne]
  constructor
  · rintro rfl
    cases hc
  · rintro rfl
    cases hc

/-- The search goes on behind the first byte of what is left. -/
def SearchesOn (e : List UInt8) (pos : Nat) : Prop :=
  ∀ frames depth, Quoting frames → matchAt e frames depth pos =
    some (closingFrom depth (pos + wordRest e pos)
      (lexemes .word frames (e.drop (pos + wordRest e pos))))

theorem drop_takeWhile_length (cs : List UInt8) :
    cs.drop (cs.takeWhile isIdentPart).length = cs.dropWhile isIdentPart := by
  conv => lhs; arg 2; rw [← List.takeWhile_append_dropWhile (p := isIdentPart) (l := cs)]
  rw [List.drop_left]

/-- Inside a word the search passes over one byte. -/
theorem searchesOn_inside (h : e.drop pos = c :: cs) (hinside : insideWord e pos = true)
    (hc : isIdentPart c = true) (hnext : SearchesOn e (pos + 1)) : SearchesOn e pos := by
  intro frames depth hframes
  obtain ⟨hopen, hclose⟩ := paren_of_isIdentPart hc
  have hword : pos + wordRest e pos = pos + 1 + wordRest e (pos + 1) := by
    rw [wordRest_succ h, if_pos hc, wordRest, if_pos hinside, h, List.takeWhile_cons, if_pos hc,
      List.length_cons]
    omega
  rw [matchAt, if_pos (lt_of_drop h), hword, ← hnext frames depth hframes]
  simp only [Option.bind_eq_bind, Option.bind_some, foundAt_inside h hinside hc, byte_of_drop h,
    hopen, hclose, if_false, Bool.false_eq_true]

/-- Where a word begins, its other bytes are passed over one by one. -/
theorem matchAt_word (h : e.drop pos = c :: cs) (hframes : Quoting frames)
    (hfound : foundAt e frames pos = some (.code fs)) (hc : isIdentPart c = true) (hk : k ≠ .mark)
    (hnext : next .word frames c cs = (k, ⟨fs, cs.dropWhile isIdentPart⟩))
    (hrec : SearchesOn e (pos + 1)) :
    matchAt e frames depth pos = some (closingFrom depth pos (lexemes .word frames (c :: cs))) := by
  obtain ⟨hopen, hclose⟩ := paren_of_isIdentPart hc
  have hp : e.drop (pos + 1 + wordRest e (pos + 1)) = cs.dropWhile isIdentPart := by
    rw [← List.drop_drop, drop_one_of_drop h, wordRest_succ h, if_pos hc, drop_takeWhile_length]
  have hquoting := (wordSeam_of_next hframes h hnext hp).1
  rw [matchAt, if_pos (lt_of_drop h)]
  simp only [Option.bind_eq_bind, Option.bind_some, hfound, byte_of_drop h, hopen, hclose, if_false,
    Bool.false_eq_true]
  rw [hrec fs depth hquoting, hp, closingFrom_next hk h hnext hp]

/-- A mark is passed over, or counted if it is a parenthesis. -/
theorem matchAt_mark (h : e.drop pos = c :: cs) (hframes : Quoting frames)
    (hfound : foundAt e frames pos = some (.code fs)) (hc : isIdentPart c = false)
    (hnext : next .word frames c cs = (.mark, ⟨fs, cs⟩)) (hrec : SearchesOn e (pos + 1)) :
    matchAt e frames depth pos = some (closingFrom depth pos (lexemes .word frames (c :: cs))) := by
  have hquoting := (wordSeam_of_next hframes h hnext (drop_one_of_drop h)).1
  have hword : pos + 1 + wordRest e (pos + 1) = pos + 1 := by
    rw [wordRest_succ h, hc]
    rfl
  have hmore : ∀ depth, matchAt e fs depth (pos + 1) =
      some (closingFrom depth (pos + 1) (lexemes .word fs cs)) := by
    intro depth
    rw [hrec fs depth hquoting, hword, drop_one_of_drop h]
  rw [matchAt, if_pos (lt_of_drop h), closingFrom_mark hnext]
  simp only [Option.bind_eq_bind, Option.bind_some, hfound, byte_of_drop h, hmore]
  cases c == openParen with
  | true => rfl
  | false =>
    cases c == closeParen with
    | false => rfl
    | true =>
      cases depth == 1 with
      | true => rfl
      | false => rfl

/-- **The search for a parenthesis does not fail**, from any offset, and finds the one that the
lexemes behind the word there give. -/
theorem searchesOn (e : List UInt8) (pos : Nat) : SearchesOn e pos := by
  induction pos using offset_induction e with
  | stop pos h =>
    intro frames depth _
    have hrest : e.drop (pos + wordRest e pos) = [] := by
      rw [← List.drop_drop, h, List.drop_nil]
    rw [matchAt, if_neg (not_lt_of_drop h), hrest, lexemes]
    rfl
  | step pos c cs h ih =>
    have hrec := ih (pos + 1) (Nat.lt_succ_self _)
    by_cases hinside : insideWord e pos = true ∧ isIdentPart c = true
    · exact searchesOn_inside h hinside.1 hinside.2 hrec
    · have hseam : WordSeam e pos := by
        intro hin b hb
        rw [h] at hb
        obtain rfl := Option.some.inj hb
        rw [← Bool.not_eq_true]
        exact fun hc => hinside ⟨hin, hc⟩
      intro frames depth hframes
      rw [wordRest_of_wordSeam hseam, Nat.add_zero pos, h]
      rcases foundAt_cases frames h hseam with
        ⟨p, ⟨fs, u⟩, hfound, hlt, hp, hnext⟩ | ⟨fs, hfound, hnext⟩
      · obtain ⟨hquoting, hseam'⟩ := wordSeam_of_next hframes h (hnext .word) hp
        rw [matchAt, if_pos (lt_of_drop h)]
        simp only [Option.bind_eq_bind, Option.bind_some, hfound]
        rw [if_pos hlt, ih p hlt fs depth hquoting, wordRest_of_wordSeam hseam', Nat.add_zero p, hp,
          closingFrom_next (by decide) h (hnext .word) hp]
      · cases hc : isIdentPart c with
        | true =>
          obtain ⟨k, hk, hnext⟩ := next_word hc (hnext .word)
          exact matchAt_word h hframes hfound hc hk hnext hrec
        | false =>
          have hnext := hnext .word
          obtain ⟨hstart, hdigit⟩ := Bool.or_eq_false_iff.mp hc
          rw [hstart, hdigit, if_neg (by decide), if_neg (by decide)] at hnext
          exact matchAt_mark h hframes hfound hc hnext hrec

theorem matchAt_eq (e : List UInt8) (start : Nat) :
    matchAt e [] 0 start = some (closingParen? e start) := by
  rw [searchesOn e start [] 0 quoting_nil, ← List.drop_drop]
  rfl

end

/-! ### The calls -/

theorem gapAt_eq (e : List UInt8) {pos : Nat} (hpos : pos ≤ e.length) :
    gapAt e pos = some (pos + ((e.drop pos).takeWhile isGap).length) := by
  induction pos using offset_induction e with
  | stop pos h =>
    rw [gapAt, if_neg (not_lt_of_drop h), h]
    rfl
  | step pos c cs h ih =>
    rw [gapAt, if_pos (lt_of_drop h), byte_of_drop h, h, List.takeWhile_cons]
    simp only [Option.bind_eq_bind, Option.bind_some]
    cases isGap c with
    | false => rfl
    | true =>
      rw [if_pos rfl, if_pos rfl, ih (pos + 1) (Nat.lt_succ_self _) (lt_of_drop h),
        drop_one_of_drop h, List.length_cons, Nat.add_right_comm, Nat.add_assoc]

theorem callFrom_eq {e : List UInt8} {c : Chain} (hc : c.span.stop ≤ e.length) :
    callFrom e c = some (callAt? e c) := by
  have hopens : ∀ paren, byteIs? e (· == openParen) paren = some (e[paren]? == some openParen) := by
    intro paren
    rw [byteIs?_eq, List.head?_drop]
    cases e[paren]? <;> rfl
  rw [callFrom, gapAt_eq e hc, callAt?]
  simp only [Option.bind_eq_bind, Option.bind_some, hopens, matchAt_eq]
  split
  · rfl
  · rfl

theorem callsFrom_eq {e : List UInt8} {cs : List Chain} (h : ∀ c ∈ cs, c.span.stop ≤ e.length) :
    callsFrom e cs = some (cs.filterMap (callAt? e)) := by
  induction cs with
  | nil => rfl
  | cons c cs ih =>
    obtain ⟨hc, hcs⟩ := List.forall_mem_cons.mp h
    rw [callsFrom, callFrom_eq hc, ih hcs, List.filterMap_cons]
    cases callAt? e c <;> rfl

/-- **The scan for calls does not fail**, and finds the calls of the text. -/
theorem callsAt_eq (e : List UInt8) : callsAt e = some (calls e) := by
  have hwalk : walkAt e [] 0 = some (chains e) := walkAt_eq quoting_nil wordSeam_zero
  rw [callsAt, hwalk]
  exact callsFrom_eq fun c hc => (standsIn_of_mem_chains hc).within

/-- **The scan of any text is safe.**  It ends without a read outside the text: the chains, the calls
and the closing parenthesis behind any offset are found.  Each chain has a place in the text and the
name that stands there, and ends before the next one begins.  Each call begins at a chain and ends
right behind a closing parenthesis, and calls are ordered by where they start.  A closing parenthesis
is found where one stands, not before the offset that the search began at. -/
theorem scan_safe (e : List UInt8) :
    (walkAt e [] 0 = some (chains e) ∧ callsAt e = some (calls e) ∧
      ∀ start, matchAt e [] 0 start = some (closingParen? e start)) ∧
    ((∀ c ∈ chains e, StandsIn c e) ∧
      (chains e).Pairwise fun c d => c.span.stop ≤ d.span.start) ∧
    ((∀ k ∈ calls e, k.span.start < k.span.stop ∧ ∃ c ∈ chains e, CallsIn k c e) ∧
      (calls e).Pairwise fun k l => k.span.start < l.span.start) ∧
    ∀ start i, closingParen? e start = some i →
      start ≤ i ∧ i < e.length ∧ e[i]? = some closeParen := by
  refine ⟨⟨walkAt_eq quoting_nil wordSeam_zero, callsAt_eq e, matchAt_eq e⟩,
    ⟨fun c hc => standsIn_of_mem_chains hc, pairwise_chains e⟩,
    ⟨fun k hk => ?_, pairwise_calls e⟩, fun start i hi => closingParen?_eq_some hi⟩
  obtain ⟨c, hc, hcall⟩ := exists_chain_of_mem_calls hk
  refine ⟨?_, c, hc, hcall⟩
  rw [hcall.start]
  exact Nat.lt_trans (standsIn_of_mem_chains hc).nonempty hcall.after

end TaintFlow.Expr
