import TaintFlow.Number.Numeral
import TaintFlow.Proofs.Text.Bytes

/-!
# The characters of numerals

How numerals are spelled, as far as scanners of expressions care: which letters occur in a
floating-point numeral, and that an integer numeral is a sign and a run of letters and digits that
begins with a digit.

## Main results

* `isNumeralChar_of_digitsBinary` — the characters of a floating-point numeral in digits.
* `exists_word` — the words for infinity and for no number.
* `exists_digit_run` — the shape of an integer numeral.
-/

namespace TaintFlow.Numeral

/-- The characters of floating-point numerals in digits. -/
def isNumeralChar (c : Char) : Bool :=
  c.isDigit || "abcdefABCDEFpPxX_.+-".toList.contains c

theorem exists_sign (cs : List Char) :
    ∃ sign, cs = sign ++ (signed cs).2 ∧ ∀ c ∈ sign, c = '+' ∨ c = '-' := by
  unfold signed
  split
  · next r => exact ⟨['-'], rfl, by simp⟩
  · next r => exact ⟨['+'], rfl, by simp⟩
  · exact ⟨[], rfl, by simp⟩

theorem isNumeralChar_sign {c : Char} (h : c = '+' ∨ c = '-') : isNumeralChar c = true := by
  rcases h with rfl | rfl <;> decide

theorem toNat_lt_of_toLower {c : Char} (h : c.toLower.toNat < 128) : c.toNat < 128 := by
  unfold Char.toLower at h
  split at h
  · next hupper => exact Nat.lt_of_le_of_lt (UInt32.le_iff_toNat_le.mp hupper.2) (by decide)
  · exact h

theorem toNat_lt_of_digitValue? {c : Char} {d : Nat} (h : digitValue? c = some d) :
    c.toNat < 128 := by
  have hle : ∀ a : Char, c ≤ a → c.toNat ≤ a.toNat := fun a ha => UInt32.le_iff_toNat_le.mp ha
  unfold digitValue? at h
  split at h
  · next hc =>
    have := hle '9' (by simpa using ((Bool.and_eq_true _ _).mp hc).2)
    exact Nat.lt_of_le_of_lt this (by decide)
  · split at h
    · next hc =>
      have := hle 'z' (by simpa using ((Bool.and_eq_true _ _).mp hc).2)
      exact Nat.lt_of_le_of_lt this (by decide)
    · split at h
      · next hc =>
        have := hle 'Z' (by simpa using ((Bool.and_eq_true _ _).mp hc).2)
        exact Nat.lt_of_le_of_lt this (by decide)
      · cases h

/-- The letters that mark a hexadecimal numeral and an exponent. -/
theorem isNumeralChar_of_toLower {c : Char}
    (h : c.toLower = 'x' ∨ c.toLower = 'p' ∨ c.toLower = 'e') : isNumeralChar c = true := by
  have hlt : c.toLower.toNat < 128 := by
    rcases h with h | h | h <;> rw [h] <;> decide
  exact Text.forall_ascii (p := fun c => c.toLower = 'x' ∨ c.toLower = 'p' ∨ c.toLower = 'e' →
    isNumeralChar c = true) (by decide +kernel) (toNat_lt_of_toLower hlt) h

/-- The digits of the bases up to sixteen and up to ten. -/
theorem of_digitValue? {c : Char} {d : Nat} (h : digitValue? c = some d) :
    (d < 16 → isNumeralChar c = true ∧ c.isAlphanum = true) ∧ (d < 10 → c.isDigit = true) :=
  Text.forall_ascii (p := fun c => ∀ d ∈ digitValue? c,
    (d < 16 → isNumeralChar c = true ∧ c.isAlphanum = true) ∧ (d < 10 → c.isDigit = true))
    (by decide +kernel) (toNat_lt_of_digitValue? h) d h

/-! ### Floating-point numerals -/

/-- What a significand takes from a text. -/
theorem exists_significand (base : Nat) (hbase : base ≤ 16) (s : Significand) (cs : List Char) :
    ∃ used, cs = used ++ (significand base s cs).2 ∧ ∀ c ∈ used, isNumeralChar c = true := by
  have hcons : ∀ {c : Char} {cs rest : List Char}, isNumeralChar c = true →
      (∃ used, cs = used ++ rest ∧ ∀ c ∈ used, isNumeralChar c = true) →
      ∃ used, c :: cs = used ++ rest ∧ ∀ c ∈ used, isNumeralChar c = true := by
    rintro c cs rest hc ⟨used, rfl, hused⟩
    exact ⟨c :: used, rfl, List.forall_mem_cons.mpr ⟨hc, hused⟩⟩
  fun_induction significand base s cs with
  | case1 => exact ⟨[], rfl, by simp⟩
  | case2 s c cs hunder ih =>
    obtain rfl := beq_iff_eq.mp hunder
    exact hcons (by decide) ih
  | case3 s c cs _ hpoint => exact ⟨[], rfl, by simp⟩
  | case4 s c cs _ hpoint _ ih =>
    obtain rfl := beq_iff_eq.mp hpoint
    exact hcons (by decide) ih
  | case5 s c cs _ _ d hd hlt value scale ih =>
    exact hcons ((of_digitValue? hd).1 (Nat.lt_of_lt_of_le hlt hbase)).1 ih
  | case6 => exact ⟨[], rfl, by simp⟩
  | case7 => exact ⟨[], rfl, by simp⟩

theorem isNumeralChar_of_isDigit {c : Char} (h : c.isDigit = true) : isNumeralChar c = true := by
  rw [isNumeralChar, h]
  rfl

theorem isNumeralChar_of_exponent? {cs : List Char} {e : Int} (h : exponent? cs = some e) :
    ∀ c ∈ cs, isNumeralChar c = true := by
  obtain ⟨sign, hcs, hsign⟩ := exists_sign cs
  unfold exponent? at h
  rw [hcs]
  intro c hc
  rcases List.mem_append.mp hc with hc | hc
  · exact isNumeralChar_sign (hsign c hc)
  · dsimp only at h
    split at h
    · cases h
    · next d more heq =>
      split at h
      · next hdigits =>
        rw [heq] at hc
        rw [Bool.and_eq_true, List.all_eq_true] at hdigits
        rcases List.mem_cons.mp hc with rfl | hc
        · exact isNumeralChar_of_isDigit hdigits.1
        · have hdigit := hdigits.2 c hc
          rw [Bool.or_eq_true, beq_iff_eq] at hdigit
          rcases hdigit with hdigit | rfl
          · exact isNumeralChar_of_isDigit hdigit
          · decide
      · cases h

/-- Whether an unsigned numeral is hexadecimal, and what stands behind its mark. -/
def hexBody (r : List Char) : Bool × List Char :=
  match r with
  | '0' :: x :: d :: more => if x.toLower == 'x' then (true, d :: more) else (false, r)
  | _ => (false, r)

/-- The value of a significand with what follows it. -/
def scaled (p : Precision) (negative hex : Bool) (s : Significand) : List Char → Outcome Binary
  | [] => if hex then .malformed else ranged (ofDecimal p negative s.value (-(s.scale : Int)))
  | x :: after =>
    match exponent? after with
    | none => .malformed
    | some e =>
      if hex && x.toLower == 'p' then ranged (ofHexadecimal p negative s.value (e - 4 * s.scale))
      else if !hex && x.toLower == 'e' then ranged (ofDecimal p negative s.value (e - s.scale))
      else .malformed

theorem digitsBinary_eq (p : Precision) (cs : List Char) :
    digitsBinary p cs =
      let hb := hexBody (signed cs).2
      let sr := significand (if hb.1 then 16 else 10) {} hb.2
      if !sr.1.any || (cs.contains '_' && !underscoresOk cs) then .malformed
      else scaled p (signed cs).1 hb.1 sr.1 sr.2 := by
  rfl

theorem exists_hexBody (r : List Char) :
    ∃ mark, r = mark ++ (hexBody r).2 ∧ ∀ c ∈ mark, isNumeralChar c = true := by
  unfold hexBody
  split
  · next x d more =>
    split
    · next hx =>
      refine ⟨['0', x], rfl, ?_⟩
      simp only [List.forall_mem_cons, List.not_mem_nil, false_implies, implies_true, and_true]
      exact ⟨by decide, isNumeralChar_of_toLower (Or.inl (beq_iff_eq.mp hx))⟩
    · exact ⟨[], rfl, by simp⟩
  · exact ⟨[], rfl, by simp⟩

/-- What follows a significand is nothing or an exponent. -/
theorem isNumeralChar_of_scaled {p : Precision} {negative hex : Bool} {s : Significand}
    {rest : List Char} (h : (scaled p negative hex s rest).isValue = true) :
    ∀ c ∈ rest, isNumeralChar c = true := by
  cases rest with
  | nil => simp
  | cons x after =>
    rw [scaled] at h
    split at h
    · cases h
    · next e he =>
      refine List.forall_mem_cons.mpr ⟨isNumeralChar_of_toLower ?_, isNumeralChar_of_exponent? he⟩
      split at h
      · next hx => exact Or.inr (Or.inl (beq_iff_eq.mp ((Bool.and_eq_true _ _).mp hx).2))
      · split at h
        · next hx => exact Or.inr (Or.inr (beq_iff_eq.mp ((Bool.and_eq_true _ _).mp hx).2))
        · cases h

theorem isValue_of_ite {α : Type} {bad : Bool} {o : Outcome α}
    (h : (if bad then Outcome.malformed else o).isValue = true) : o.isValue = true := by
  cases bad with
  | true => cases h
  | false => exact h

/-- **The characters of a floating-point numeral in digits.** -/
theorem isNumeralChar_of_digitsBinary {p : Precision} {cs : List Char}
    (h : (digitsBinary p cs).isValue = true) : ∀ c ∈ cs, isNumeralChar c = true := by
  obtain ⟨sign, hcs, hsign⟩ := exists_sign cs
  obtain ⟨mark, hmark, hmarks⟩ := exists_hexBody (signed cs).2
  obtain ⟨used, hused, hdigits⟩ := exists_significand
    (if (hexBody (signed cs).2).1 then 16 else 10) (by split <;> decide) {}
    (hexBody (signed cs).2).2
  rw [digitsBinary_eq] at h
  have hrest := isNumeralChar_of_scaled (isValue_of_ite h)
  intro c hc
  rw [hcs, hmark, hused] at hc
  simp only [List.mem_append] at hc
  rcases hc with hc | hc | hc | hc
  · exact isNumeralChar_sign (hsign c hc)
  · exact hmarks c hc
  · exact hdigits c hc
  · exact hrest c hc

/-- The words for infinity and for no number. -/
theorem exists_word {cs : List Char} {x : Binary} (h : word? cs = some x) :
    ∃ sign w, cs = sign ++ w ∧ (∀ c ∈ sign, c = '+' ∨ c = '-') ∧
      w.map Char.toLower ∈ ["inf".toList, "infinity".toList, "nan".toList] := by
  obtain ⟨sign, hcs, hsign⟩ := exists_sign cs
  unfold word? at h
  dsimp only at h
  split at h
  · next hw =>
    refine ⟨sign, (signed cs).2, hcs, hsign, ?_⟩
    rw [Bool.or_eq_true, beq_iff_eq, beq_iff_eq] at hw
    rcases hw with hw | hw <;> rw [hw] <;> decide
  · split at h
    · next hnan =>
      refine ⟨[], cs, rfl, by simp, ?_⟩
      rw [beq_iff_eq.mp hnan]
      decide
    · cases h

/-! ### Integer numerals -/

theorem digit_of_digitsFrom {base n m : Nat} {cs : List Char}
    (h : digitsFrom base n cs = .value m) :
    ∀ c ∈ cs, ∃ d, digitValue? c = some d ∧ d < base := by
  fun_induction digitsFrom base n cs with
  | case1 => simp
  | case2 => cases h
  | case3 => cases h
  | case4 => cases h
  | case5 n c cs d hd hbase hfits ih =>
    exact List.forall_mem_cons.mpr ⟨⟨d, hd, Nat.lt_of_not_le hbase⟩, ih h⟩

theorem isValue_of_fitOutcome {negative : Bool} {o : Outcome Nat}
    (h : (fitOutcome negative o).isValue = true) : ∃ n, o = .value n := by
  cases o with
  | value n => exact ⟨n, rfl⟩
  | outOfRange | malformed => cases h

/-- An underscore does not stand at the beginning. -/
theorem underscoresOk_under (cs : List Char) : underscoresOk ('_' :: cs) = false := by
  rfl

/-- The text behind the base mark of an integer numeral: digits and well placed underscores. -/
theorem of_magnitude {cs : List Char} {n : Nat} (h : magnitude cs = .value n) :
    (baseMark cs).2 ≠ [] ∧
    (∀ c ∈ (baseMark cs).2, c ≠ '_' → ∃ d, digitValue? c = some d ∧ d < (baseMark cs).1) ∧
    ('_' ∈ (baseMark cs).2 → underscoresOk cs = true) := by
  unfold magnitude at h
  dsimp only at h
  split at h
  · next m hdigits =>
    rw [digits] at hdigits
    split at hdigits
    · cases hdigits
    · next hne =>
      refine ⟨fun hnil => hne (by rw [hnil]; rfl), fun c hc hunder => ?_, fun hunder => ?_⟩
      · exact digit_of_digitsFrom hdigits c (List.mem_filter.mpr ⟨hc, by simpa using hunder⟩)
      · cases hok : underscoresOk cs with
        | true => rfl
        | false =>
          rw [if_pos (by simp [hunder, hok])] at h
          cases h
  · next hnone => exact (hnone n h).elim

/-- A numeral has base ten and no mark, or it begins with a zero. -/
theorem baseMark_cases (cs : List Char) :
    baseMark cs = (10, cs) ∨
    ((baseMark cs).1 ≤ 16 ∧ ∃ more, cs = '0' :: more ∧
      ∀ c ∈ more, c.isAlphanum = true ∨ c ∈ (baseMark cs).2) := by
  have hmark : ∀ {m x y : Char} {r : List Char}, x.isAlphanum = true → y.isAlphanum = true →
      ((m == x || m == y) && !r.isEmpty) = true → ∀ c ∈ m :: r, c.isAlphanum = true ∨ c ∈ r := by
    intro m x y r hx hy hm c hc
    rcases List.mem_cons.mp hc with rfl | hc
    · rw [Bool.and_eq_true, Bool.or_eq_true, beq_iff_eq, beq_iff_eq] at hm
      rcases hm.1 with rfl | rfl
      · exact Or.inl hx
      · exact Or.inl hy
    · exact Or.inr hc
  unfold baseMark
  split
  · next m r =>
    refine Or.inr ?_
    split
    · next hm => exact ⟨by simp, m :: r, rfl, hmark (by decide) (by decide) hm⟩
    · split
      · next hm => exact ⟨by simp, m :: r, rfl, hmark (by decide) (by decide) hm⟩
      · split
        · next hm => exact ⟨by simp, m :: r, rfl, hmark (by decide) (by decide) hm⟩
        · exact ⟨by simp, m :: r, rfl, fun c hc => Or.inr hc⟩
  · exact Or.inr ⟨by decide, [], rfl, by simp⟩
  · exact Or.inl rfl

/-- The shape of an unsigned integer numeral. -/
theorem digit_run_of_magnitude {cs : List Char} {n : Nat} (h : magnitude cs = .value n) :
    ∃ d more, cs = d :: more ∧ d.isDigit = true ∧ ∀ c ∈ more, c.isAlphanum = true ∨ c = '_' := by
  obtain ⟨hne, hdigits, hunder⟩ := of_magnitude h
  have hpart : (baseMark cs).1 ≤ 16 → ∀ c ∈ (baseMark cs).2, c.isAlphanum = true ∨ c = '_' := by
    intro hbase c hc
    by_cases hc' : c = '_'
    · exact Or.inr hc'
    · obtain ⟨d, hd, hlt⟩ := hdigits c hc hc'
      exact Or.inl ((of_digitValue? hd).1 (Nat.lt_of_lt_of_le hlt hbase)).2
  rcases baseMark_cases cs with hten | ⟨hbase, more, rfl, hmore⟩
  · rw [hten] at hne hdigits hunder hpart
    match cs, hne with
    | c :: more, _ =>
      -- the first character is no underscore
      have hfirst : c ≠ '_' := by
        rintro rfl
        have hok := hunder List.mem_cons_self
        rw [underscoresOk_under] at hok
        cases hok
      obtain ⟨d, hd, hlt⟩ := hdigits c List.mem_cons_self hfirst
      exact ⟨c, more, rfl, (of_digitValue? hd).2 hlt, fun c hc =>
        hpart (by simp) c (List.mem_cons_of_mem _ hc)⟩
  · refine ⟨'0', more, rfl, by decide, fun c hc => ?_⟩
    rcases hmore c hc with hc | hc
    · exact Or.inl hc
    · exact hpart hbase c hc

/-- **The shape of an integer numeral**: a sign, and a run of letters, digits and underscores that
begins with a digit. -/
theorem exists_digit_run {s : String} (h : (general s).isValue = true) :
    ∃ sign d more, s.toList = sign ++ d :: more ∧ (∀ c ∈ sign, c = '+' ∨ c = '-') ∧
      d.isDigit = true ∧ ∀ c ∈ more, c.isAlphanum = true ∨ c = '_' := by
  obtain ⟨sign, hcs, hsign⟩ := exists_sign s.toList
  obtain ⟨n, hn⟩ := isValue_of_fitOutcome h
  obtain ⟨d, more, hmore, hd, hparts⟩ := digit_run_of_magnitude hn
  exact ⟨sign, d, more, hmore ▸ hcs, hsign, hd, hparts⟩

end TaintFlow.Numeral
