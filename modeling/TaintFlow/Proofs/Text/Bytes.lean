import TaintFlow.Text.Blank
import TaintFlow.Text.Bytes

/-!
# The bytes of characters

A character of the ASCII range is one byte with its number; every other character is a sequence of
bytes above that range.  So a scanner that looks for ASCII bytes finds the characters themselves.

## Main definitions

* `encode` — the bytes of characters.

## Main results

* `bytes_eq_encode`, `bytes_inj` — the bytes of a text are those of its characters, and tell texts
  apart.
* `forall_mem_encode` — what holds of every byte of a text.
* `forall_ascii` — what holds of every ASCII character.
* `exists_trim` — a text is its trimmed form between blanks.
-/

namespace TaintFlow.Text

/-- The bytes of characters. -/
def encode (cs : List Char) : List UInt8 :=
  cs.flatMap String.utf8EncodeChar

theorem bytes_eq_encode (s : String) : bytes s = encode s.toList := by
  rw [bytes, String.toUTF8, ← String.utf8Encode_toList, List.utf8Encode, List.data_toByteArray,
    List.toList_toArray]
  rfl

/-- Texts with the same bytes are equal. -/
theorem bytes_inj {s t : String} : bytes s = bytes t ↔ s = t := by
  refine ⟨fun h => ?_, fun h => by rw [h]⟩
  exact String.toByteArray_inj.mp (ByteArray.ext (Array.toList_inj.mp h))

theorem encode_append (cs ds : List Char) : encode (cs ++ ds) = encode cs ++ encode ds :=
  List.flatMap_append

theorem utf8EncodeChar_of_lt {c : Char} (h : c.toNat < 128) :
    String.utf8EncodeChar c = [UInt8.ofNat c.toNat] := by
  have hle : c.val.toNat ≤ 127 := Nat.le_of_lt_succ h
  rw [String.utf8EncodeChar]
  simp only [hle, if_true]
  rfl

theorem encode_cons_of_lt {c : Char} (hc : c.toNat < 128) (cs : List Char) :
    encode (c :: cs) = UInt8.ofNat c.toNat :: encode cs := by
  rw [encode, List.flatMap_cons, utf8EncodeChar_of_lt hc]
  rfl

theorem toNat_ofNat_of_lt {c : Char} (h : c.toNat < 128) :
    (UInt8.ofNat c.toNat).toNat = c.toNat := by
  rw [UInt8.toNat_ofNat']
  omega

/-- A byte of a character is the character itself, or it is above the ASCII range. -/
theorem mem_utf8EncodeChar {c : Char} {b : UInt8} (h : b ∈ String.utf8EncodeChar c) :
    (c.toNat < 128 ∧ b.toNat = c.toNat) ∨ 128 ≤ b.toNat := by
  by_cases hc : c.toNat < 128
  · rw [utf8EncodeChar_of_lt hc, List.mem_singleton] at h
    subst h
    exact Or.inl ⟨hc, toNat_ofNat_of_lt hc⟩
  · have hlt : ¬ c.val.toNat ≤ 127 := fun hle => hc (Nat.lt_succ_of_le hle)
    rw [String.utf8EncodeChar] at h
    simp only [hlt, if_false] at h
    refine Or.inr ?_
    have hbyte : ∀ n, 128 ≤ n → n < 256 → 128 ≤ (UInt8.ofNat n).toNat := by
      intro n hn hn'
      rw [UInt8.toNat_ofNat']
      omega
    split at h
    · simp only [List.mem_cons, List.not_mem_nil, or_false] at h
      rcases h with rfl | rfl <;> exact hbyte _ (by omega) (by omega)
    · split at h
      · simp only [List.mem_cons, List.not_mem_nil, or_false] at h
        rcases h with rfl | rfl | rfl <;> exact hbyte _ (by omega) (by omega)
      · simp only [List.mem_cons, List.not_mem_nil, or_false] at h
        rcases h with rfl | rfl | rfl | rfl <;> exact hbyte _ (by omega) (by omega)

/-- A property of the bytes of a text is checked for its ASCII characters and for the bytes above
them. -/
theorem forall_mem_encode {q : UInt8 → Prop} (hhigh : ∀ b : UInt8, 128 ≤ b.toNat → q b)
    {cs : List Char} (hcs : ∀ c ∈ cs, c.toNat < 128 → q (UInt8.ofNat c.toNat)) :
    ∀ b ∈ encode cs, q b := by
  intro b hb
  obtain ⟨c, hc, hb⟩ := List.mem_flatMap.mp hb
  rcases mem_utf8EncodeChar hb with ⟨hlt, hbyte⟩ | hb
  · have hq := hcs c hc hlt
    rwa [← hbyte, UInt8.ofNat_toNat] at hq
  · exact hhigh b hb

/-- The same for a text of ASCII characters. -/
theorem forall_mem_encode_of_lt {q : UInt8 → Prop} {cs : List Char}
    (hcs : ∀ c ∈ cs, c.toNat < 128 ∧ q (UInt8.ofNat c.toNat)) : ∀ b ∈ encode cs, q b := by
  intro b hb
  obtain ⟨c, hc, hb⟩ := List.mem_flatMap.mp hb
  obtain ⟨hlt, hq⟩ := hcs c hc
  rw [utf8EncodeChar_of_lt hlt, List.mem_singleton] at hb
  rwa [hb]

/-- ASCII characters can be read off their bytes. -/
theorem map_encode {cs : List Char} (h : ∀ c ∈ cs, c.toNat < 128) :
    (encode cs).map (fun b => Char.ofNat b.toNat) = cs := by
  induction cs with
  | nil => rfl
  | cons c cs ih =>
    obtain ⟨hc, hcs⟩ := List.forall_mem_cons.mp h
    rw [encode_cons_of_lt hc, List.map_cons, ih hcs, toNat_ofNat_of_lt hc, Char.ofNat_toNat]

/-- A property of the ASCII characters is checked one by one. -/
theorem forall_ascii {p : Char → Prop} (h : ∀ n < 128, p (Char.ofNat n)) {c : Char}
    (hc : c.toNat < 128) : p c := by
  have hp := h c.toNat hc
  rwa [Char.ofNat_toNat] at hp

theorem toNat_lt_of_isAlphanum {c : Char} (h : c.isAlphanum = true) : c.toNat < 128 := by
  have hle : ∀ a : Char, c.val ≤ a.val → a.toNat < 128 → c.toNat < 128 := fun a ha =>
    Nat.lt_of_le_of_lt (UInt32.le_iff_toNat_le.mp ha)
  change ((c.isUpper || c.isLower) || c.isDigit) = true at h
  rw [Bool.or_eq_true, Bool.or_eq_true] at h
  rcases h with (h | h) | h
  · exact hle 'Z' (of_decide_eq_true h).2 (by decide)
  · exact hle 'z' (of_decide_eq_true (Bool.and_eq_true_iff.mp h).2) (by decide)
  · exact hle '9' (of_decide_eq_true (Bool.and_eq_true_iff.mp h).2) (by decide)

theorem toNat_lt_of_isAlpha {c : Char} (h : c.isAlpha = true) : c.toNat < 128 :=
  toNat_lt_of_isAlphanum (by rw [Char.isAlphanum, h, Bool.true_or])

/-- A text is its trimmed form between blanks. -/
theorem exists_trim (cs : List Char) :
    ∃ front back, cs = front ++ (trimChars cs ++ back) ∧ (∀ c ∈ front, isBlank c = true) ∧
      ∀ c ∈ back, isBlank c = true := by
  let rest := cs.dropWhile isBlank
  refine ⟨cs.takeWhile isBlank, (rest.reverse.takeWhile isBlank).reverse, ?_, fun c hc => ?_,
    fun c hc => ?_⟩
  · have hrest : trimChars cs ++ (rest.reverse.takeWhile isBlank).reverse = rest := by
      rw [trimChars, dropEndWhile, ← List.reverse_append, List.takeWhile_append_dropWhile,
        List.reverse_reverse]
    rw [hrest, List.takeWhile_append_dropWhile]
  · exact List.all_eq_true.mp List.all_takeWhile c hc
  · exact List.all_eq_true.mp List.all_takeWhile c (List.mem_reverse.mp hc)

/-! ### Two elements in a row -/

section

variable {α : Type} [BEq α] [LawfulBEq α] {a b : α} {xs ys : List α}

/-- Two elements stand in a row if they do so at the front, or further behind. -/
theorem containsList_pair_cons (c : α) :
    containsList [a, b] (c :: xs) = (a == c && xs.head? == some b || containsList [a, b] xs) := by
  cases xs with
  | nil => simp [containsList, List.isPrefixOf]
  | cons d xs => simp [containsList, List.isPrefixOf, BEq.comm]

theorem containsList_append_left (ha : a ∉ xs) :
    containsList [a, b] (xs ++ ys) = containsList [a, b] ys := by
  induction xs with
  | nil => rfl
  | cons c xs ih =>
    rw [List.mem_cons, not_or] at ha
    rw [List.cons_append, containsList_pair_cons, ih ha.2, beq_eq_false_iff_ne.mpr ha.1]
    rfl

theorem containsList_append_right (hxs : containsList [a, b] xs = false) (hb : b ∉ ys) :
    containsList [a, b] (xs ++ ys) = false := by
  induction xs with
  | nil =>
    rw [List.nil_append]
    clear hxs
    induction ys with
    | nil => rfl
    | cons c ys ih =>
      rw [List.mem_cons, not_or] at hb
      rw [containsList_pair_cons, ih hb.2, Bool.or_false, Bool.and_eq_false_iff]
      refine Or.inr ?_
      rw [beq_eq_false_iff_ne]
      exact fun h => hb.2 (List.mem_of_mem_head? h)
  | cons c xs ih =>
    rw [containsList_pair_cons, Bool.or_eq_false_iff, Bool.and_eq_false_iff] at hxs
    rw [List.cons_append, containsList_pair_cons, ih hxs.2, Bool.or_false, Bool.and_eq_false_iff]
    refine hxs.1.imp_right fun hhead => ?_
    cases xs with
    | nil =>
      rw [beq_eq_false_iff_ne]
      exact fun h => hb (List.mem_of_mem_head? h)
    | cons d xs => exact hhead

end

/-- An ASCII character among the bytes of a character is that character. -/
theorem eq_of_mem_utf8EncodeChar {a c : Char} (ha : a.toNat < 128)
    (h : UInt8.ofNat a.toNat ∈ String.utf8EncodeChar c) : a = c := by
  rcases mem_utf8EncodeChar h with ⟨-, hbyte⟩ | hhigh
  · rw [toNat_ofNat_of_lt ha] at hbyte
    exact Char.toNat_inj.mp hbyte
  · rw [toNat_ofNat_of_lt ha] at hhigh
    omega

/-- The first byte of a text is an ASCII character only if the text begins with it. -/
theorem head?_encode {a : Char} (ha : a.toNat < 128) {cs : List Char}
    (h : (encode cs).head? = some (UInt8.ofNat a.toNat)) : cs.head? = some a := by
  cases cs with
  | nil => cases h
  | cons c cs =>
    obtain ⟨b, bs, hbs⟩ := List.exists_cons_of_ne_nil (String.utf8EncodeChar_ne_nil (c := c))
    rw [encode, List.flatMap_cons, hbs, List.cons_append, List.head?_cons] at h
    obtain rfl := Option.some.inj h
    rw [List.head?_cons, eq_of_mem_utf8EncodeChar ha (hbs ▸ List.mem_cons_self)]

/-- Two ASCII characters stand in a row in the bytes of a text only if they do so in the text. -/
theorem containsList_encode {a b : Char} (ha : a.toNat < 128) (hb : b.toNat < 128) {cs : List Char}
    (h : containsList [a, b] cs = false) :
    containsList [UInt8.ofNat a.toNat, UInt8.ofNat b.toNat] (encode cs) = false := by
  induction cs with
  | nil => rfl
  | cons c cs ih =>
    rw [containsList_pair_cons, Bool.or_eq_false_iff] at h
    rw [encode, List.flatMap_cons, ← encode]
    by_cases hmem : UInt8.ofNat a.toNat ∈ String.utf8EncodeChar c
    · obtain rfl := eq_of_mem_utf8EncodeChar ha hmem
      rw [utf8EncodeChar_of_lt ha, List.singleton_append, containsList_pair_cons, ih h.2,
        Bool.or_false, beq_self_eq_true, Bool.true_and, beq_eq_false_iff_ne]
      intro hhead
      rw [head?_encode hb hhead] at h
      simp at h
    · rw [containsList_append_left hmem]
      exact ih h.2

end TaintFlow.Text
