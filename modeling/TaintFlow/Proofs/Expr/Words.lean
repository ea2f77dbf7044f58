import TaintFlow.Proofs.Expr.Calls
import TaintFlow.Text.Blank
import TaintFlow.Proofs.Text.Order

/-!
# Names outside of literals

What names a text reads where no substitution is open: marks and the text of literals read none, and
a text without quotes reads one exactly if a word in it begins with a letter.

## Main definitions

* `beginsWord` — whether some run of identifier bytes begins with the start of an identifier.
* `lexemeNames` — the names among lexemes.
* `ReadsWords` — the names of a text tell whether a word begins in it.

## Main results

* `identifiers_plain_append`, `identifiers_literal` — what reads no name.
* `lexemeNames_word` — a single word.
* `readsWords_of_forall` — which texts without quotes read a name.
-/

namespace TaintFlow.Expr

/-- A byte that is a mark wherever no substitution is open. -/
def isPlain (b : UInt8) : Bool :=
  !isIdentPart b && !isQuote b && b != backquote

/-- Whether some run of identifier bytes begins with the start of an identifier; `inWord` says that
such a run stands in front. -/
def beginsWord (inWord : Bool) : List UInt8 → Bool
  | [] => false
  | b :: bs => (!inWord && isIdentStart b) || beginsWord (isIdentPart b) bs

/-- The names among lexemes. -/
def lexemeNames : List Lexeme → List String
  | [] => []
  | l :: ls =>
    match l.kind with
    | .name => String.ofList (dotted l.bytes) :: lexemeNames ls
    | _ => lexemeNames ls

theorem map_name_chainsFrom (start : Nat) (ls : List Lexeme) :
    (chainsFrom start ls).map (·.name) = lexemeNames ls := by
  induction ls generalizing start with
  | nil => rfl
  | cons l ls ih =>
    obtain ⟨kind, bytes⟩ := l
    cases kind with
    | name => exact congrArg (String.ofList (dotted bytes) :: ·) (ih _)
    | number | literal | mark => exact ih _

theorem identifiers_eq (e : List UInt8) :
    identifiers e =
      firsts ((lexemeNames (lexemes .chain [] e)).filter (! keywords.contains ·)) := by
  rw [identifiers, chains, map_name_chainsFrom]

theorem lexemeNames_marks_append (bs : List UInt8) (ls : List Lexeme) :
    lexemeNames (bs.map markOf ++ ls) = lexemeNames ls := by
  induction bs with
  | nil => rfl
  | cons b bs ih => exact ih

/-- A text reads no name exactly if all its names are keywords. -/
theorem identifiers_eq_nil_iff (e : List UInt8) :
    identifiers e = [] ↔ ∀ n ∈ lexemeNames (lexemes .chain [] e), n ∈ keywords := by
  rw [identifiers_eq, List.eq_nil_iff_forall_not_mem]
  simp only [mem_firsts, List.mem_filter, not_and]
  refine forall_congr' fun n => imp_congr_right fun _ => ?_
  simp

/-! ### What reads no name -/

theorem lexemes_plain_append {front : List UInt8} (hfront : ∀ b ∈ front, isPlain b = true)
    (u : List UInt8) :
    lexemes .chain [] (front ++ u) = front.map markOf ++ lexemes .chain [] u := by
  induction front with
  | nil => rfl
  | cons b front ih =>
    obtain ⟨hb, hfront⟩ := List.forall_mem_cons.mp hfront
    simp only [isPlain, Bool.and_eq_true, Bool.not_eq_true', bne_iff_ne] at hb
    rw [List.cons_append, lexemes_mark hb.1.1 hb.1.2 hb.2 rfl, ih hfront]
    rfl

/-- Marks in front of a text do not matter. -/
theorem identifiers_plain_append {front : List UInt8} (hfront : ∀ b ∈ front, isPlain b = true)
    (u : List UInt8) : identifiers (front ++ u) = identifiers u := by
  rw [identifiers_eq, identifiers_eq, lexemes_plain_append hfront, lexemeNames_marks_append]

theorem identifiers_plain {bs : List UInt8} (hbs : ∀ b ∈ bs, isPlain b = true) :
    identifiers bs = [] := by
  have h := identifiers_plain_append hbs []
  rw [List.append_nil] at h
  rw [h, identifiers_eq, lexemes]
  rfl

/-- A literal that opens no substitution reads no name. -/
theorem identifiers_literal {c : UInt8} {cs u : List UInt8}
    (h : literal? [] c cs = some ⟨[], u⟩) : identifiers (c :: cs) = identifiers u := by
  have hnext : next .chain [] c cs = (.literal, ⟨[], u⟩) := next_of_literal? h
  rw [identifiers_eq, identifiers_eq, lexemes]
  simp only [hnext]
  rfl

/-- A single word reads itself. -/
theorem lexemeNames_word (w : Word isIdentStart) {u : List UInt8}
    (hu : ∀ b ∈ u, isPlain b = true) (hbounded : Bounded u) :
    lexemeNames (lexemes .chain [] (w.bytes ++ u)) = [String.ofList (DottedName.chars w)] := by
  have hbytes : (DottedName.mk w []).bytes = w.bytes := List.append_nil _
  have hlexemes : lexemes .chain [] ((DottedName.mk w []).bytes ++ u) =
      ⟨.name, (DottedName.mk w []).bytes⟩ :: lexemes .chain [] u := lexemes_chain _ hbounded
  have hrest : lexemeNames (lexemes .chain [] u) = [] := by
    have h := lexemes_plain_append hu []
    rw [List.append_nil] at h
    rw [h, lexemeNames_marks_append, lexemes]
    rfl
  rw [← hbytes, hlexemes, lexemeNames, hrest, dotted_bytes]
  exact congrArg (fun cs => [String.ofList cs]) (List.append_nil _)

/-! ### Quoted texts -/

theorem quotedText_suffix (q cs : List UInt8) : quotedText q cs <:+ cs := by
  fun_induction quotedText q cs with
  | case1 => exact List.suffix_refl _
  | case2 => exact List.nil_suffix
  | case3 c _ b cs ih => exact (ih.trans (List.suffix_cons b cs)).trans (List.suffix_cons c _)
  | case4 c cs _ _ => exact List.drop_suffix _ _
  | case5 c cs _ _ ih => exact ih.trans (List.suffix_cons c cs)

/-- A text ends at its quote, or behind it if the quote is escaped. -/
theorem quotedText_of_notMem {q : UInt8} (hq : q ≠ backslash) {tail : List UInt8} :
    ∀ {mid : List UInt8}, q ∉ mid → quotedText [q] (mid ++ q :: tail) <:+ tail
  | [], _ => by
    rw [List.nil_append, quotedText_close hq (by simp)]
    exact List.suffix_refl tail
  | c :: mid, hmid => by
    rw [List.mem_cons, not_or] at hmid
    by_cases hc : c = backslash
    · subst hc
      match mid, hmid with
      | [], _ =>
        rw [List.cons_append, List.nil_append, quotedText_escape]
        exact quotedText_suffix [q] tail
      | d :: mid, hmid =>
        rw [List.cons_append, List.cons_append, quotedText_escape]
        exact quotedText_of_notMem hq fun h => hmid.2 (List.mem_cons_of_mem d h)
    · rw [List.cons_append, quotedText_plain hc (by simp [List.isPrefixOf, hmid.1])]
      exact quotedText_of_notMem hq hmid.2

/-- A quoted text without its quote inside reads no name. -/
theorem identifiers_quoted {q : UInt8} (hq : isQuote q = true) {mid back : List UInt8}
    (hmid : q ∉ mid) (hback : ∀ b ∈ back, isPlain b = true) :
    identifiers (q :: (mid ++ q :: back)) = [] := by
  have hslash : q ≠ backslash := by
    rintro rfl
    cases hq
  have hbackquote : (q == backquote) = false := by
    rw [beq_eq_false_iff_ne]
    rintro rfl
    cases hq
  have hback' : q ∉ back := by
    intro h
    have hplain := hback q h
    rw [isPlain, hq] at hplain
    simp at hplain
  have hdelimiter : delimiter (q :: (mid ++ q :: back)) = [q] := by
    refine delimiter_single fun hprefix => ?_
    -- the quote occurs only once behind the first one
    have hcount := hprefix.sublist.count_le q
    simp [List.count_eq_zero.mpr hmid, List.count_eq_zero.mpr hback'] at hcount
  have hliteral : literal? [] q (mid ++ q :: back) =
      some ⟨[], quotedText [q] (mid ++ q :: back)⟩ := by
    simp [literal?, hbackquote, opening?, hq, hdelimiter]
  rw [identifiers_literal hliteral]
  exact identifiers_plain fun b hb => hback b ((quotedText_of_notMem hslash hmid).subset hb)

/-! ### Backquoted texts -/

theorem templateText_frames {cs : List UInt8} (h : Text.containsList [dollar, openBrace] cs = false)
    (frames : List Frame) : (templateText frames cs).frames = frames := by
  fun_induction templateText frames cs with
  | case1 => rfl
  | case2 => rfl
  | case3 c _ b cs ih =>
    simp only [Text.containsList, Bool.or_eq_false_iff] at h
    exact ih h.2.2
  | case4 => rfl
  | case5 c cs _ _ hopen =>
    simp only [Text.containsList, Bool.or_eq_false_iff] at h
    simp only [Bool.and_eq_true, beq_iff_eq] at hopen
    obtain ⟨rfl, hhead⟩ := hopen
    cases cs with
    | nil => cases hhead
    | cons b cs =>
      obtain rfl := Option.some.inj hhead
      simp at h
  | case6 c cs _ _ _ ih =>
    simp only [Text.containsList, Bool.or_eq_false_iff] at h
    exact ih h.2

/-- A backquoted text that opens no substitution reads the names behind its first closing
backquote. -/
theorem identifiers_template {cs : List UInt8}
    (h : Text.containsList [dollar, openBrace] cs = false) :
    identifiers (backquote :: cs) = identifiers (templateText [] cs).rest := by
  have hframes := templateText_frames h []
  have hliteral : literal? [] backquote cs = some (templateText [] cs) := rfl
  cases hplace : templateText [] cs with
  | mk frames rest =>
    rw [hplace] at hframes hliteral
    obtain rfl : frames = [] := hframes
    exact identifiers_literal hliteral

/-! ### Words in a text without quotes -/

/-- No literal opens where no quote follows. -/
theorem literal?_of_forall {c : UInt8} {cs : List UInt8}
    (h : ∀ b ∈ c :: cs, isQuote b = false ∧ b ≠ backquote) : literal? [] c cs = none := by
  have hquote : ∀ b ∈ c :: cs, isQuote b = false := fun b hb => (h b hb).1
  have hback : c ≠ backquote := (h c List.mem_cons_self).2
  have hopening : opening? (c :: cs) = none := by
    match cs with
    | [] => simp [opening?, hquote c]
    | [a] => simp [opening?, hquote c, hquote a]
    | a :: b :: cs => simp [opening?, hquote c, hquote a, hquote b]
  rw [literal?, beq_eq_false_iff_ne.mpr hback, hopening]
  rfl

theorem beginsWord_of_head {u : List UInt8} (hu : ∀ b ∈ u.head?, isIdentPart b = false)
    (inWord : Bool) : beginsWord inWord u = beginsWord false u := by
  cases u with
  | nil => rfl
  | cons b u =>
    have hb := hu b rfl
    rw [isIdentPart, Bool.or_eq_false_iff] at hb
    simp [beginsWord, hb.1]

/-- The rest of a word begins none. -/
theorem beginsWord_append_of_all {w : List UInt8} (hw : w.all isIdentPart = true) (u : List UInt8) :
    beginsWord true (w ++ u) = beginsWord true u := by
  induction w with
  | nil => rfl
  | cons b w ih =>
    rw [List.all_cons, Bool.and_eq_true] at hw
    rw [List.cons_append, beginsWord, hw.1, ih hw.2]
    rfl

theorem head_dropWhile (cs : List UInt8) :
    ∀ b ∈ (cs.dropWhile isIdentPart).head?, isIdentPart b = false := by
  intro b hb
  have hfirst := List.head?_dropWhile_not isIdentPart cs
  rw [Option.mem_def.mp hb] at hfirst
  simpa using hfirst

theorem beginsWord_dropWhile (cs : List UInt8) :
    beginsWord true cs = beginsWord false (cs.dropWhile isIdentPart) := by
  have hword : (cs.takeWhile isIdentPart).all isIdentPart = true := List.all_takeWhile
  calc beginsWord true cs
      = beginsWord true (cs.takeWhile isIdentPart ++ cs.dropWhile isIdentPart) := by
        rw [List.takeWhile_append_dropWhile]
    _ = beginsWord true (cs.dropWhile isIdentPart) := beginsWord_append_of_all hword _
    _ = beginsWord false (cs.dropWhile isIdentPart) := beginsWord_of_head (head_dropWhile cs) true

/-- A text reads a name exactly if a word begins in it. -/
structure ReadsWords (bs : List UInt8) : Prop where
  none : beginsWord false bs = false → lexemeNames (lexemes .chain [] bs) = []
  some : beginsWord false bs = true → ∃ w ⊆ bs,
    String.ofList (dotted w) ∈ lexemeNames (lexemes .chain [] bs)

/-- A lexeme that is no name, and in which no word begins, does not matter. -/
theorem ReadsWords.step {c : UInt8} {cs u : List UInt8} (hu : ReadsWords u) {k : LexemeKind}
    (hk : k ≠ .name) (hnext : next .chain [] c cs = (k, ⟨[], u⟩)) (hsuffix : u <:+ cs)
    (hword : beginsWord false (c :: cs) = beginsWord false u) : ReadsWords (c :: cs) := by
  have hnames : lexemeNames (lexemes .chain [] (c :: cs)) = lexemeNames (lexemes .chain [] u) := by
    rw [lexemes]
    simp only [hnext]
    cases k with
    | name => exact absurd rfl hk
    | number | literal | mark => rfl
  constructor
  · rw [hnames, hword]
    exact hu.none
  · rw [hnames, hword]
    intro hbegins
    obtain ⟨w, hw, hname⟩ := hu.some hbegins
    exact ⟨w, List.Subset.trans hw (List.subset_cons_of_subset c hsuffix.subset), hname⟩

/-- **A text without quotes reads a name exactly if a word in it begins with a letter.** -/
theorem readsWords_of_forall {bs : List UInt8}
    (h : ∀ b ∈ bs, isQuote b = false ∧ b ≠ backquote) : ReadsWords bs := by
  -- a number takes more than one byte, so the induction is on the length
  induction hn : bs.length using Nat.strongRecOn generalizing bs with
  | ind n ih =>
    cases bs with
    | nil =>
      refine ⟨fun _ => ?_, fun hword => absurd hword Bool.false_ne_true⟩
      rw [lexemes]
      rfl
    | cons c cs =>
      have hlit := literal?_of_forall h
      have hrest : ∀ u, u <:+ cs → ReadsWords u := by
        intro u hu
        have := hu.length_le
        exact ih u.length (by simp at hn; omega)
          (fun b hb => h b (List.mem_cons_of_mem c (hu.subset hb))) rfl
      cases hstart : isIdentStart c with
      | true =>
        have hnext : next .chain [] c cs = (.name, ⟨[], chainEnd (c :: cs)⟩) := by
          simp [next, hlit, brace, hstart, nameEnd]
        constructor
        · intro hword
          rw [beginsWord, hstart] at hword
          cases hword
        · rw [lexemes]
          simp only [hnext]
          exact fun _ => ⟨_, List.take_subset _ _, List.mem_cons_self⟩
      | false =>
        cases hdigit : isDigit c with
        | true =>
          have hsuffix := List.dropWhile_suffix isIdentPart (l := cs)
          refine (hrest _ hsuffix).step (k := .number) (by decide) ?_ hsuffix ?_
          · simp [next, hlit, brace, hstart, hdigit]
          · rw [beginsWord, hstart, isIdentPart_of_isDigit hdigit, beginsWord_dropWhile]
            rfl
        | false =>
          refine (hrest cs (List.suffix_refl cs)).step (k := .mark) (by decide) ?_
            (List.suffix_refl cs) ?_
          · simp [next, hlit, brace, hstart, hdigit]
          · rw [beginsWord, isIdentPart, hstart, hdigit]
            rfl

end TaintFlow.Expr
