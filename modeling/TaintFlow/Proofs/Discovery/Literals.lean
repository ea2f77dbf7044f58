import TaintFlow.Discovery.Compiled
import TaintFlow.Proofs.Expr.Words
import TaintFlow.Proofs.Number.Spelling

/-!
# The names in constant expressions

Two scanners look at the argument of a call: one says whether it is constant, the other which names
it reads.  They agree on quoted texts, on the constant words and on integers.  They disagree on two
kinds of expressions that count as constant: a backquoted text may end and go on as code before its
last backquote, and a floating-point numeral may hold a word.

## Main definitions

* `Classes` — how the scanner of names classifies the byte of a character.
* `goesOn` — a backquoted text behind whose first closing backquote a name is read.
* `spellsName` — a floating-point numeral in which a word begins with a letter.

## Main results

* `identifiers_of_quoted`, `identifiers_of_backquoted`, `identifiers_of_numeral` — the names in
  quoted texts, backquoted texts and numerals.
* `identifiers_eq_nil_iff_of_isLiteral` — the constant expressions that read no name.
* `identifiers_backquoted` — a constant expression that reads one.
-/

namespace TaintFlow.Discovery

open TaintFlow.Expr
open TaintFlow.Text (encode)

/-! ### Characters and bytes -/

/-- The bytes of blanks: they are marks and end the token before them. -/
def isSpacer (b : UInt8) : Bool :=
  isPlain b && endsToken b && b != openBrace

/-- The bytes of numerals in digits and of blanks. -/
def isNumeralByte (b : UInt8) : Bool :=
  !isIdentStart b || Numeral.isNumeralChar (Char.ofNat b.toNat)

/-- The bytes that open no literal. -/
def opensNothing (b : UInt8) : Bool :=
  !isQuote b && b != backquote

/-- How the scanner of names classifies the byte of a character. -/
structure Classes (c : Char) (b : UInt8) : Prop where
  blank : Text.isBlank c = true → isSpacer b = true
  sign : c = '+' ∨ c = '-' → isPlain b = true
  letter : c.isAlpha = true → isIdentStart b = true
  digit : c.isDigit = true → isDigit b = true
  part : c.isAlphanum = true ∨ c = '_' → isIdentPart b = true
  numeral : Numeral.isNumeralChar c = true → isNumeralByte b = true
  bare : Numeral.isNumeralChar c = true ∨ c.isAlphanum = true → opensNothing b = true

instance (c : Char) (b : UInt8) : Decidable (Classes c b) :=
  decidable_of_iff
    ((Text.isBlank c = true → isSpacer b = true) ∧ (c = '+' ∨ c = '-' → isPlain b = true) ∧
      (c.isAlpha = true → isIdentStart b = true) ∧ (c.isDigit = true → isDigit b = true) ∧
      (c.isAlphanum = true ∨ c = '_' → isIdentPart b = true) ∧
      (Numeral.isNumeralChar c = true → isNumeralByte b = true) ∧
      (Numeral.isNumeralChar c = true ∨ c.isAlphanum = true → opensNothing b = true))
    ⟨fun ⟨h1, h2, h3, h4, h5, h6, h7⟩ => ⟨h1, h2, h3, h4, h5, h6, h7⟩,
      fun ⟨h1, h2, h3, h4, h5, h6, h7⟩ => ⟨h1, h2, h3, h4, h5, h6, h7⟩⟩

/-- The classes of the ASCII characters, each of them one byte. -/
theorem classes {c : Char} (hc : c.toNat < 128) : Classes c (UInt8.ofNat c.toNat) :=
  Text.forall_ascii (p := fun c => Classes c (UInt8.ofNat c.toNat)) (by decide +kernel) hc

/-- The bytes above the ASCII range are blanks to the scanner. -/
theorem isSpacer_of_le {b : UInt8} (h : 128 ≤ b.toNat) : isSpacer b = true := by
  have hall : ∀ n < 256, 128 ≤ n → isSpacer (UInt8.ofNat n) = true := by decide +kernel
  have hb := hall b.toNat (UInt8.toNat_lt b) h
  rwa [UInt8.ofNat_toNat] at hb

theorem isPlain_of_isSpacer {b : UInt8} (h : isSpacer b = true) : isPlain b = true := by
  rw [isSpacer, Bool.and_eq_true, Bool.and_eq_true] at h
  exact h.1.1

theorem isNumeralByte_of_isPlain {b : UInt8} (h : isPlain b = true) : isNumeralByte b = true := by
  simp only [isPlain, isIdentPart, Bool.and_eq_true, Bool.not_eq_true', Bool.or_eq_false_iff] at h
  rw [isNumeralByte, h.1.1.1]
  rfl

theorem opensNothing_of_isPlain {b : UInt8} (h : isPlain b = true) : opensNothing b = true := by
  simp only [isPlain, Bool.and_eq_true] at h
  rw [opensNothing, h.1.2, h.2]
  rfl

theorem bounded_of_forall {u : List UInt8} (hu : ∀ b ∈ u, isSpacer b = true) : Bounded u := by
  intro b hb
  have h := hu b (List.mem_of_mem_head? hb)
  rw [isSpacer, Bool.and_eq_true, Bool.and_eq_true] at h
  exact h.1.2

/-- The bytes of an expression are those of its trimmed form between blanks. -/
theorem exists_encode_trim (e : String) :
    ∃ front back, Text.bytes e = front ++ (encode (Text.trimChars e.toList) ++ back) ∧
      (∀ b ∈ front, isSpacer b = true) ∧ ∀ b ∈ back, isSpacer b = true := by
  obtain ⟨front, back, hcs, hfront, hback⟩ := Text.exists_trim e.toList
  have hspacers : ∀ cs : List Char, (∀ c ∈ cs, Text.isBlank c = true) →
      ∀ b ∈ encode cs, isSpacer b = true := fun cs hcs =>
    Text.forall_mem_encode (fun _ => isSpacer_of_le) fun c hc hlt => (classes hlt).blank (hcs c hc)
  refine ⟨encode front, encode back, ?_, hspacers front hfront, hspacers back hback⟩
  rw [Text.bytes_eq_encode, ← Text.encode_append, ← Text.encode_append, ← hcs]

/-- What holds of plain bytes and of a text holds of the text between plain bytes. -/
theorem forall_mem_between {q : UInt8 → Prop} (hplain : ∀ b, isPlain b = true → q b)
    {front mid back : List UInt8} (hfront : ∀ b ∈ front, isPlain b = true)
    (hmid : ∀ b ∈ mid, q b) (hback : ∀ b ∈ back, isPlain b = true) :
    ∀ b ∈ front ++ (mid ++ back), q b := by
  intro b hb
  rw [List.mem_append, List.mem_append] at hb
  rcases hb with hb | hb | hb
  · exact hplain b (hfront b hb)
  · exact hmid b hb
  · exact hplain b (hback b hb)

/-! ### Expressions that go on behind a constant -/

/-- What stands behind the first closing backquote of a text, its first backquote being the opening
one. -/
def behindTemplate (e : List UInt8) : List UInt8 :=
  (templateText [] ((e.dropWhile (· != backquote)).drop 1)).rest

/-- Whether a backquoted text goes on behind its first closing backquote and reads a name there. -/
def goesOn (e : String) : Bool :=
  (Text.trimChars e.toList).head? == some '\x60' &&
    !(identifiers (behindTemplate (Text.bytes e))).isEmpty

/-- Whether an expression is a floating-point numeral in which a word begins with a letter. -/
def spellsName (e : String) : Bool :=
  (Numeral.binary .double (Text.trim e)).isValue && beginsWord false (Text.bytes e)

/-! ### Single words -/

/-- A word of letters reads itself. -/
theorem lexemeNames_letters {front back : List UInt8} (hfront : ∀ b ∈ front, isPlain b = true)
    (hback : ∀ b ∈ back, isSpacer b = true) {w : List Char} (hne : w ≠ [])
    (hw : ∀ c ∈ w, c.isAlpha = true) :
    lexemeNames (lexemes .chain [] (front ++ (encode w ++ back))) = [String.ofList w] := by
  have hascii : ∀ c ∈ w, c.toNat < 128 := fun c hc => Text.toNat_lt_of_isAlpha (hw c hc)
  have hstart : ∀ b ∈ encode w, isIdentStart b = true :=
    Text.forall_mem_encode_of_lt fun c hc =>
      ⟨hascii c hc, (classes (hascii c hc)).letter (hw c hc)⟩
  match hbytes : encode w with
  | [] =>
    have h := Text.map_encode hascii
    rw [hbytes] at h
    exact absurd h.symm hne
  | b :: bs =>
    rw [hbytes] at hstart
    obtain ⟨hb, hbs⟩ := List.forall_mem_cons.mp hstart
    let word : Word isIdentStart :=
      ⟨b, bs, hb, List.all_eq_true.mpr fun c hc => isIdentPart_of_isIdentStart (hbs c hc)⟩
    have hchars : DottedName.chars word = w := by
      rw [← Text.map_encode hascii, hbytes]
      rfl
    have hnames := lexemeNames_word word (fun b hb => isPlain_of_isSpacer (hback b hb))
      (bounded_of_forall hback)
    rw [lexemes_plain_append hfront, lexemeNames_marks_append, ← hchars]
    exact hnames

/-- The words for constants are keywords. -/
theorem identifiers_constantWord {front back : List UInt8} (hfront : ∀ b ∈ front, isSpacer b = true)
    (hback : ∀ b ∈ back, isSpacer b = true) {cs : List Char}
    (hcs : constantWords.contains (String.ofList cs) = true) :
    identifiers (front ++ (encode cs ++ back)) = [] := by
  have hword : ∀ w ∈ constantWords, w.toList ≠ [] ∧ w.toList.all Char.isAlpha = true ∧
      w ∈ keywords := by decide
  obtain ⟨hne, hletters, hkeyword⟩ := hword _ (List.contains_iff_mem.mp hcs)
  rw [String.toList_ofList] at hne hletters
  rw [List.all_eq_true] at hletters
  rw [identifiers_eq_nil_iff,
    lexemeNames_letters (fun b hb => isPlain_of_isSpacer (hfront b hb)) hback hne hletters]
  simpa using hkeyword

/-! ### Quoted and backquoted texts -/

/-- A quoted text is constant only if its quote does not occur inside, and then it reads no
name. -/
theorem identifiers_of_quoted {front back : List UInt8} (hfront : ∀ b ∈ front, isSpacer b = true)
    (hback : ∀ b ∈ back, isSpacer b = true) {q : Char} (hq : q = '"' ∨ q = '\'') {rest : List Char}
    (hlast : rest.getLast? = some q) (hinside : (inside (q :: rest)).contains q = false) :
    identifiers (front ++ (encode (q :: rest) ++ back)) = [] := by
  have hascii : q.toNat < 128 := by rcases hq with rfl | rfl <;> decide
  have hquote : isQuote (UInt8.ofNat q.toNat) = true := by rcases hq with rfl | rfl <;> decide
  obtain ⟨mid, rfl⟩ := List.getLast?_eq_some_iff.mp hlast
  have hnot : q ∉ mid := by simpa [inside] using hinside
  have hmid : UInt8.ofNat q.toNat ∉ encode mid := by
    intro h
    obtain ⟨c, hc, hb⟩ := List.mem_flatMap.mp h
    exact hnot (Text.eq_of_mem_utf8EncodeChar hascii hb ▸ hc)
  have hbytes : encode (q :: (mid ++ [q])) ++ back =
      UInt8.ofNat q.toNat :: (encode mid ++ UInt8.ofNat q.toNat :: back) := by
    rw [Text.encode_cons_of_lt hascii, Text.encode_append, Text.encode_cons_of_lt hascii]
    simp [encode]
  -- the first quote that closes the literal is its last character
  rw [identifiers_plain_append fun b hb => isPlain_of_isSpacer (hfront b hb), hbytes]
  exact identifiers_quoted hquote hmid fun b hb => isPlain_of_isSpacer (hback b hb)

/-- A backquoted text without the opening of a substitution reads what stands behind its first
closing backquote. -/
theorem identifiers_of_backquoted {front back : List UInt8}
    (hfront : ∀ b ∈ front, isSpacer b = true) (hback : ∀ b ∈ back, isSpacer b = true)
    {rest : List Char} (hrest : Text.containsList ['$', '\x7b'] ('\x60' :: rest) = false) :
    identifiers (front ++ (encode ('\x60' :: rest) ++ back)) =
      identifiers (behindTemplate (front ++ (encode ('\x60' :: rest) ++ back))) := by
  have hbytes : encode ('\x60' :: rest) ++ back = backquote :: (encode rest ++ back) :=
    congrArg (· ++ back) (Text.encode_cons_of_lt (by decide) rest)
  have hopen : Text.containsList [dollar, openBrace] (encode rest ++ back) = false := by
    rw [Text.containsList_pair_cons, Bool.or_eq_false_iff] at hrest
    refine Text.containsList_append_right
      (Text.containsList_encode (by decide) (by decide) hrest.2) fun h => ?_
    exact absurd (hback _ h) (by decide)
  have hplain : ∀ b ∈ front, (b != backquote) = true := by
    intro b hb
    have h := isPlain_of_isSpacer (hfront b hb)
    rw [isPlain, Bool.and_eq_true] at h
    exact h.2
  have hbehind : behindTemplate (front ++ backquote :: (encode rest ++ back)) =
      (templateText [] (encode rest ++ back)).rest := by
    rw [behindTemplate, List.dropWhile_append_of_pos hplain]
    rfl
  rw [hbytes, identifiers_plain_append fun b hb => isPlain_of_isSpacer (hfront b hb), hbehind]
  exact identifiers_template hopen

/-! ### Numerals -/

theorem isPlain_sign {sign : List Char} (h : ∀ c ∈ sign, c = '+' ∨ c = '-') :
    ∀ b ∈ encode sign, isPlain b = true :=
  Text.forall_mem_encode (fun _ hb => isPlain_of_isSpacer (isSpacer_of_le hb))
    fun c hc hlt => (classes hlt).sign (h c hc)

theorem beginsWord_plain_append {front : List UInt8} (hfront : ∀ b ∈ front, isPlain b = true)
    (u : List UInt8) : beginsWord false (front ++ u) = beginsWord false u := by
  induction front with
  | nil => rfl
  | cons b front ih =>
    obtain ⟨hb, hfront⟩ := List.forall_mem_cons.mp hfront
    simp only [isPlain, Bool.and_eq_true, Bool.not_eq_true'] at hb
    have hpart := hb.1.1
    rw [isIdentPart, Bool.or_eq_false_iff] at hpart
    rw [List.cons_append, beginsWord, hb.1.1, hpart.1, ih hfront]
    rfl

theorem beginsWord_plain {bs : List UInt8} (hbs : ∀ b ∈ bs, isPlain b = true) (inWord : Bool) :
    beginsWord inWord bs = false := by
  have hhead : ∀ b ∈ bs.head?, isIdentPart b = false := by
    intro b hb
    have h := hbs b (List.mem_of_mem_head? hb)
    simp only [isPlain, Bool.and_eq_true, Bool.not_eq_true'] at h
    exact h.1.1
  have h := beginsWord_plain_append hbs []
  rw [List.append_nil] at h
  rw [beginsWord_of_head hhead, h]
  rfl

/-- The letters of the words for infinity and for no number. -/
theorem isAlpha_of_word {w : List Char}
    (h : w.map Char.toLower ∈ ["inf".toList, "infinity".toList, "nan".toList]) :
    ∀ c ∈ w, c.isAlpha = true := by
  have hwords :
      ["inf".toList, "infinity".toList, "nan".toList].all (·.all Char.isAlpha) = true := by decide
  intro c hc
  have hlower := List.all_eq_true.mp (List.all_eq_true.mp hwords _ h) _ (List.mem_map_of_mem hc)
  unfold Char.toLower at hlower
  split at hlower
  · next hupper =>
    have hc : c.isUpper = true := decide_eq_true hupper
    exact Bool.or_eq_true_iff.mpr (Or.inl hc)
  · exact hlower

/-- An infinity, or no number, is a name. -/
theorem identifiers_of_word {front back : List UInt8} (hfront : ∀ b ∈ front, isSpacer b = true)
    (hback : ∀ b ∈ back, isSpacer b = true) {cs : List Char} {x : Binary}
    (h : Numeral.word? cs = some x) : identifiers (front ++ (encode cs ++ back)) ≠ [] := by
  obtain ⟨sign, w, rfl, hsign, hw⟩ := Numeral.exists_word h
  have hne : w ≠ [] := by
    rintro rfl
    revert hw
    decide
  have hplain : ∀ b ∈ front ++ encode sign, isPlain b = true := by
    intro b hb
    rcases List.mem_append.mp hb with hb | hb
    · exact isPlain_of_isSpacer (hfront b hb)
    · exact isPlain_sign hsign b hb
  have hkeyword : String.ofList w ∉ keywords := by
    have hall : ∀ k ∈ keywords, k.toList.map Char.toLower ∉
        ["inf".toList, "infinity".toList, "nan".toList] := by decide
    intro hmem
    have hlist : (String.ofList w).toList = w := String.toList_ofList
    exact hall _ hmem (hlist.symm ▸ hw)
  have hnames := lexemeNames_letters hplain hback hne (isAlpha_of_word hw)
  rw [List.append_assoc, ← List.append_assoc (encode sign), ← Text.encode_append] at hnames
  rw [Ne, identifiers_eq_nil_iff, hnames]
  simpa using hkeyword

/-- Which characters a name is spelled with. -/
theorem mem_dotted {w : List UInt8} {c : Char} (h : c ∈ dotted w) :
    c = '.' ∨ ∃ b ∈ w, c = Char.ofNat b.toNat := by
  have hcons : ∀ {a : UInt8} {w : List UInt8}, (c = '.' ∨ ∃ b ∈ w, c = Char.ofNat b.toNat) →
      c = '.' ∨ ∃ b ∈ a :: w, c = Char.ofNat b.toNat :=
    fun h => h.imp_right fun ⟨b, hb, hc⟩ => ⟨b, List.mem_cons_of_mem _ hb, hc⟩
  fun_induction dotted w with
  | case1 => cases h
  | case2 a w _ ih => exact hcons (ih h)
  | case3 a w _ _ ih =>
    rcases List.mem_cons.mp h with rfl | h
    · exact Or.inl rfl
    · exact hcons (ih h)
  | case4 a w _ _ ih =>
    rcases List.mem_cons.mp h with rfl | h
    · exact Or.inr ⟨a, List.mem_cons_self, rfl⟩
    · exact hcons (ih h)

/-- The letters of numerals spell no keyword. -/
theorem notMem_keywords {w : List UInt8} (hw : ∀ b ∈ w, isNumeralByte b = true) :
    String.ofList (dotted w) ∉ keywords := by
  intro h
  have hall : ∀ k ∈ keywords, k.toList.any (fun c => isIdentStart (UInt8.ofNat c.toNat) &&
      !Numeral.isNumeralChar c) = true := by decide +kernel
  obtain ⟨c, hc, hbad⟩ := List.any_eq_true.mp (hall _ h)
  rw [String.toList_ofList] at hc
  rw [Bool.and_eq_true, Bool.not_eq_true'] at hbad
  obtain ⟨hstart, hletter⟩ := hbad
  rcases mem_dotted hc with rfl | ⟨b, hb, rfl⟩
  · revert hstart
    decide
  · have hsame : ∀ n < 256, (Char.ofNat n).toNat = n := fun n hn => by
      rw [Char.ofNat, dif_pos (Or.inl (by omega))]
      rfl
    have hbyte := hw b hb
    rw [hsame b.toNat (UInt8.toNat_lt b), UInt8.ofNat_toNat] at hstart
    rw [isNumeralByte, hstart, hletter] at hbyte
    cases hbyte

theorem isNumeralByte_of_forall {cs : List Char}
    (h : ∀ c ∈ cs, Numeral.isNumeralChar c = true) : ∀ b ∈ encode cs, isNumeralByte b = true :=
  Text.forall_mem_encode
    (fun _ hb => isNumeralByte_of_isPlain (isPlain_of_isSpacer (isSpacer_of_le hb)))
    fun c hc hlt => (classes hlt).numeral (h c hc)

/-- A run that begins with a digit begins no word. -/
theorem beginsWord_of_digit_run {front back : List UInt8} (hfront : ∀ b ∈ front, isPlain b = true)
    (hback : ∀ b ∈ back, isPlain b = true) {d : Char} (hd : d.isDigit = true) {more : List Char}
    (hmore : ∀ c ∈ more, c.isAlphanum = true ∨ c = '_') :
    beginsWord false (front ++ (encode (d :: more) ++ back)) = false := by
  have hlt : d.toNat < 128 :=
    Text.toNat_lt_of_isAlphanum (by rw [Char.isAlphanum, hd, Bool.or_true])
  have hbyte := (classes hlt).digit hd
  have hparts : ∀ b ∈ encode more, isIdentPart b = true := by
    refine Text.forall_mem_encode_of_lt fun c hc => ?_
    have hascii : c.toNat < 128 := by
      rcases hmore c hc with hc | rfl
      · exact Text.toNat_lt_of_isAlphanum hc
      · decide
    exact ⟨hascii, (classes hascii).part (hmore c hc)⟩
  rw [beginsWord_plain_append hfront, Text.encode_cons_of_lt hlt, List.cons_append, beginsWord,
    isIdentStart_eq_false_of_isDigit hbyte, isIdentPart_of_isDigit hbyte,
    beginsWord_append_of_all (List.all_eq_true.mpr hparts), beginsWord_plain hback]
  rfl

/-- No literal opens in a numeral. -/
theorem opensNothing_of_numeral {cs : List Char}
    (h : (Numeral.binary .double (String.ofList cs)).isValue = true ∨
      (Numeral.general (String.ofList cs)).isValue = true) :
    ∀ b ∈ encode cs, opensNothing b = true := by
  have hsigned : ∀ {sign rest : List Char}, (∀ c ∈ sign, c = '+' ∨ c = '-') →
      (∀ c ∈ rest, c.isAlphanum = true ∨ c = '_') →
      ∀ c ∈ sign ++ rest, Numeral.isNumeralChar c = true ∨ c.isAlphanum = true := by
    intro sign rest hsign hrest c hc
    rcases List.mem_append.mp hc with hc | hc
    · exact Or.inl (Numeral.isNumeralChar_sign (hsign c hc))
    · rcases hrest c hc with hc | rfl
      · exact Or.inr hc
      · exact Or.inl (by decide)
  suffices hchars : ∀ c ∈ cs, Numeral.isNumeralChar c = true ∨ c.isAlphanum = true from
    Text.forall_mem_encode
      (fun _ hb => opensNothing_of_isPlain (isPlain_of_isSpacer (isSpacer_of_le hb)))
      fun c hc hlt => (classes hlt).bare (hchars c hc)
  rcases h with h | h
  · rw [Numeral.binary, String.toList_ofList] at h
    split at h
    · next x hword =>
      obtain ⟨sign, w, rfl, hsign, hw⟩ := Numeral.exists_word hword
      refine hsigned hsign fun c hc => Or.inl ?_
      rw [Char.isAlphanum, isAlpha_of_word hw c hc, Bool.true_or]
    · exact fun c hc => Or.inl (Numeral.isNumeralChar_of_digitsBinary h c hc)
  · obtain ⟨sign, d, more, hcs, hsign, hd, hmore⟩ := Numeral.exists_digit_run h
    rw [String.toList_ofList] at hcs
    rw [hcs]
    refine hsigned hsign (List.forall_mem_cons.mpr ⟨Or.inl ?_, hmore⟩)
    rw [Char.isAlphanum, hd, Bool.or_true]

/-- An integer begins no word. -/
theorem beginsWord_of_integer {front back : List UInt8} (hfront : ∀ b ∈ front, isPlain b = true)
    (hback : ∀ b ∈ back, isPlain b = true) {cs : List Char}
    (h : (Numeral.general (String.ofList cs)).isValue = true) :
    beginsWord false (front ++ (encode cs ++ back)) = false := by
  obtain ⟨sign, d, more, hcs, hsign, hd, hmore⟩ := Numeral.exists_digit_run h
  rw [String.toList_ofList] at hcs
  have hsigned : ∀ b ∈ front ++ encode sign, isPlain b = true := fun b hb =>
    (List.mem_append.mp hb).elim (hfront b) (isPlain_sign hsign b)
  have hnone := beginsWord_of_digit_run hsigned hback hd hmore
  rwa [List.append_assoc, ← List.append_assoc (encode sign), ← Text.encode_append, ← hcs] at hnone

/-- A floating-point numeral in digits reads a name if a word begins in it. -/
theorem identifiers_of_digits {front back : List UInt8} (hfront : ∀ b ∈ front, isPlain b = true)
    (hback : ∀ b ∈ back, isPlain b = true) {cs : List Char}
    (hcs : ∀ c ∈ cs, Numeral.isNumeralChar c = true)
    (hreads : ReadsWords (front ++ (encode cs ++ back)))
    (hbegins : beginsWord false (front ++ (encode cs ++ back)) = true) :
    identifiers (front ++ (encode cs ++ back)) ≠ [] := by
  obtain ⟨w, hw, hname⟩ := hreads.some hbegins
  have hnumeral := forall_mem_between (fun _ => isNumeralByte_of_isPlain) hfront
    (isNumeralByte_of_forall hcs) hback
  -- the letters of numerals spell no keyword, so the name is not dropped
  rw [Ne, identifiers_eq_nil_iff]
  exact fun hkeywords => notMem_keywords (fun b hb => hnumeral b (hw hb)) (hkeywords _ hname)

/-- **A numeral reads a name exactly if it is a floating-point numeral in which a word begins with a
letter.** -/
theorem identifiers_of_numeral {front back : List UInt8} (hfront : ∀ b ∈ front, isSpacer b = true)
    (hback : ∀ b ∈ back, isSpacer b = true) {cs : List Char}
    (h : (Numeral.binary .double (String.ofList cs)).isValue = true ∨
      (Numeral.general (String.ofList cs)).isValue = true) :
    identifiers (front ++ (encode cs ++ back)) = [] ↔
      ((Numeral.binary .double (String.ofList cs)).isValue &&
        beginsWord false (front ++ (encode cs ++ back))) = false := by
  have hfront' : ∀ b ∈ front, isPlain b = true := fun b hb => isPlain_of_isSpacer (hfront b hb)
  have hback' : ∀ b ∈ back, isPlain b = true := fun b hb => isPlain_of_isSpacer (hback b hb)
  have hbare := forall_mem_between (fun _ => opensNothing_of_isPlain) hfront'
    (opensNothing_of_numeral h) hback'
  have hreads : ReadsWords (front ++ (encode cs ++ back)) :=
    readsWords_of_forall fun b hb => by simpa [opensNothing] using hbare b hb
  cases hbegins : beginsWord false (front ++ (encode cs ++ back)) with
  | false =>
    rw [Bool.and_false, identifiers_eq_nil_iff, hreads.none hbegins]
    simp
  | true =>
    have hbinary : (Numeral.binary .double (String.ofList cs)).isValue = true := by
      refine h.resolve_right fun hgeneral => ?_
      rw [beginsWord_of_integer hfront' hback' hgeneral] at hbegins
      cases hbegins
    rw [hbinary, Bool.true_and, iff_false_right (by decide)]
    -- a word for infinity or for no number is a name as a whole, digits may hold one
    cases hword : Numeral.word? cs with
    | some x => exact identifiers_of_word hfront hback hword
    | none =>
      rw [Numeral.binary, String.toList_ofList, hword] at hbinary
      exact identifiers_of_digits hfront' hback' (Numeral.isNumeralChar_of_digitsBinary hbinary)
        hreads hbegins

/-! ### Constant expressions -/

/-- What begins with a quote or a backquote is no numeral. -/
theorem not_numeral_of_quote {q : Char} (hq : q = '"' ∨ q = '\'' ∨ q = '\x60') (rest : List Char) :
    ¬ ((Numeral.binary .double (String.ofList (q :: rest))).isValue = true ∨
      (Numeral.general (String.ofList (q :: rest))).isValue = true) := by
  intro h
  have hlt : q.toNat < 128 := by rcases hq with rfl | rfl | rfl <;> decide
  have hfirst : UInt8.ofNat q.toNat ∈ encode (q :: rest) := by
    rw [Text.encode_cons_of_lt hlt]
    exact List.mem_cons_self
  have hbare := opensNothing_of_numeral h _ hfirst
  rcases hq with rfl | rfl | rfl <;> revert hbare <;> decide

theorem binary_of_quote {q : Char} (hq : q = '"' ∨ q = '\'' ∨ q = '\x60') (rest : List Char) :
    (Numeral.binary .double (String.ofList (q :: rest))).isValue = false :=
  Bool.eq_false_iff.mpr fun h => not_numeral_of_quote hq rest (Or.inl h)

/-- **The constant expressions that read no name**: all but backquoted texts that go on behind their
first closing backquote and read a name there, and floating-point numerals in which a word begins
with a letter. -/
theorem identifiers_eq_nil_iff_of_isLiteral {e : String} (h : isLiteral e = true) :
    identifiers (Text.bytes e) = [] ↔ goesOn e = false ∧ spellsName e = false := by
  obtain ⟨front, back, hbytes, hfront, hback⟩ := exists_encode_trim e
  rw [isLiteral] at h
  rw [goesOn, spellsName, Text.trim, hbytes]
  generalize Text.trimChars e.toList = cs at h
  match cs, h with
  | [], _ =>
    have hplain : ∀ b ∈ front ++ (encode [] ++ back), isPlain b = true :=
      forall_mem_between (fun _ h => h) (fun b hb => isPlain_of_isSpacer (hfront b hb))
        (fun _ hb => absurd hb List.not_mem_nil) fun b hb => isPlain_of_isSpacer (hback b hb)
    rw [identifiers_plain hplain, beginsWord_plain hplain]
    simp
  | first :: rest, h =>
    rw [isConstant] at h
    split at h
    · next hword =>
      have hall : ∀ w ∈ constantWords, (w.toList.head? == some '\x60') = false ∧
          (Numeral.binary .double w).isValue = false := by decide +kernel
      obtain ⟨hhead, hbinary⟩ := hall _ (List.contains_iff_mem.mp hword)
      rw [String.toList_ofList] at hhead
      rw [identifiers_constantWord hfront hback hword, hhead, hbinary]
      simp
    · split at h
      · next hquote =>
        simp only [Bool.and_eq_true, Bool.or_eq_true, beq_iff_eq] at hquote
        have hhead : ((first :: rest).head? == some '\x60') = false := by
          rcases hquote.1 with rfl | rfl <;> rfl
        rw [identifiers_of_quoted hfront hback hquote.1 hquote.2 (by simpa using h), hhead,
          binary_of_quote (hquote.1.imp_right Or.inl)]
        simp
      · split at h
        · next hback' =>
          simp only [Bool.and_eq_true, beq_iff_eq] at hback'
          obtain rfl := hback'.1
          rw [identifiers_of_backquoted hfront hback (by simpa using h),
            binary_of_quote (Or.inr (Or.inr rfl))]
          simp
        · rw [Bool.or_eq_true] at h
          have hhead : ((first :: rest).head? == some '\x60') = false := by
            rw [beq_eq_false_iff_ne]
            intro hfirst
            obtain rfl := Option.some.inj hfirst
            exact not_numeral_of_quote (Or.inr (Or.inr rfl)) rest h
          rw [identifiers_of_numeral hfront hback h, hhead]
          simp

theorem identifiers_backquoted_pair :
    isLiteral "`/srv/` + `a.txt`" = true ∧ identifiers (Text.bytes "`/srv/` + `a.txt`") = [] := by
  have hliteral : isLiteral "`/srv/` + `a.txt`" = true := by decide +kernel
  refine ⟨hliteral, (identifiers_eq_nil_iff_of_isLiteral hliteral).mpr ?_⟩
  decide +kernel

/-- A name between two backquoted texts: the whole is constant, since its first and last characters
are backquotes and it opens no substitution, so a rule for arguments that are not constant drops it;
yet it reads the name. -/
theorem identifiers_backquoted :
    isLiteral "`/srv/` + name + `.txt`" = true ∧
      Test.holds ⟨{ column := "argument_expr", op := .notLiteral }, .empty⟩
        "`/srv/` + name + `.txt`" = false ∧
      identifiers (Text.bytes "`/srv/` + name + `.txt`") = ["name"] := by
  decide +kernel

end TaintFlow.Discovery
