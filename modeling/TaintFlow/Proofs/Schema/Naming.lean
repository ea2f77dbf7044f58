import TaintFlow.Proofs.Text.Bytes
import TaintFlow.Schema.Naming

/-!
# When generated names coincide

A name in snake case has two forms in generated code, which differ in the first word only: the
exported one has it in capitals or with a capital first letter, the other one has it as it is.  So
where exported names are different, the other forms are too, unless the boundary of the first word
is lost, as `api_1` and `api1` both give `api1`.  That takes an initialism, since the capitals of
other words do not depend on where the word ends.

## Main definitions

* `firstWord`, `laterWords` — a name at its first underscore.
* `Clash` — the names that have one field name though their exported names differ.

## Main results

* `exportedName_eq`, `fieldName_eq` — both forms by the first word and the later ones.
* `fieldName_eq_iff` — when two names with different exported names have one field name.
* `fieldName_ne_exportedName` — field names are no exported names, unless a name starts with an
  underscore.
-/

namespace TaintFlow.Schema

variable {a b s x y : String} {c : Char}

/-! ### Words -/

/-- A name up to its first underscore. -/
def firstWord (s : String) : String :=
  String.ofList (s.toList.takeWhile (· != '_'))

/-- A name after its first underscore. -/
def laterWords (s : String) : String :=
  String.ofList (s.toList.dropWhile (· != '_')).tail

theorem firstWord_append (s : String) : ∃ rest, s = firstWord s ++ rest := by
  refine ⟨String.ofList (s.toList.dropWhile (· != '_')), ?_⟩
  rw [firstWord, ← String.ofList_append, List.takeWhile_append_dropWhile, String.ofList_toList]

/-- A name with later words has an underscore before them. -/
theorem eq_of_laterWords (h : laterWords s ≠ "") : s = firstWord s ++ "_" ++ laterWords s := by
  have hhead := List.head?_dropWhile_not (· != '_') s.toList
  cases hdrop : s.toList.dropWhile (· != '_') with
  | nil =>
    rw [laterWords, hdrop] at h
    exact absurd rfl h
  | cons d rest =>
    rw [hdrop] at hhead
    obtain rfl : d = '_' := bne_eq_false_iff_eq.mp hhead
    rw [firstWord, laterWords, hdrop, List.tail_cons, ← String.toList_inj]
    simp only [String.toList_append, String.toList_ofList, List.append_assoc]
    exact (hdrop ▸ List.takeWhile_append_dropWhile).symm

theorem splitList_eq {α : Type} [BEq α] (sep : α) (cs : List α) :
    Text.splitList sep cs = cs.takeWhile (· != sep) ::
      (match cs.dropWhile (· != sep) with
        | [] => []
        | _ :: rest => Text.splitList sep rest) := by
  induction cs with
  | nil => rfl
  | cons d cs ih =>
    rw [Text.splitList, List.takeWhile_cons, List.dropWhile_cons]
    cases hd : d == sep
    · simp only [bne, hd, Bool.not_false, if_true, Bool.false_eq_true, if_false, ih]
    · simp only [bne, hd, Bool.not_true, if_true, Bool.false_eq_true, if_false]

theorem exportedWord_empty : exportedWord "" = "" := by decide +kernel

theorem exportedName_empty : exportedName "" = "" := by decide +kernel

/-- The exported form of a name, by its first word and the later ones. -/
theorem exportedName_eq (s : String) :
    exportedName s = exportedWord (firstWord s) ++ exportedName (laterWords s) := by
  rw [exportedName, Text.split, splitList_eq, List.map_cons, List.map_cons, String.join_cons]
  refine congrArg (exportedWord (firstWord s) ++ ·) ?_
  rw [laterWords]
  cases s.toList.dropWhile (· != '_') with
  | nil => exact exportedName_empty.symm
  | cons d rest =>
    rw [exportedName, Text.split, List.tail_cons, String.toList_ofList]

/-- The other form of a name. -/
theorem fieldName_eq (s : String) :
    fieldName s = firstWord s ++ exportedName (laterWords s) := by
  rw [fieldName, Text.cut?, firstWord, laterWords]
  cases hdrop : s.toList.dropWhile (· != '_') with
  | nil =>
    have htake : s.toList.takeWhile (· != '_') = s.toList := by
      have happend := List.takeWhile_append_dropWhile (p := (· != '_')) (l := s.toList)
      rwa [hdrop, List.append_nil] at happend
    rw [htake, String.ofList_toList, List.tail_nil, String.ofList_nil, exportedName_empty]
    exact String.append_empty.symm
  | cons d rest => rfl

/-! ### Characters of names -/

theorem toNat_lt_of_isNameChar (hc : isNameChar c = true) : c.toNat < 128 := by
  simp only [isNameChar, Bool.or_eq_true, Bool.and_eq_true, beq_iff_eq, decide_eq_true_eq] at hc
  rcases hc with (rfl | ⟨-, hle⟩) | ⟨-, hle⟩
  · decide
  · exact Nat.lt_of_le_of_lt (UInt32.le_iff_toNat_le.mp hle) (by decide)
  · exact Nat.lt_of_le_of_lt (UInt32.le_iff_toNat_le.mp hle) (by decide)

/-- A character of a name is an underscore, a small letter or a digit, and case does not change
the last one. -/
theorem isNameChar_cases (hc : isNameChar c = true) :
    (c = '_' ∨ c.isLower = true ∨ c.isDigit = true) ∧ Text.lowerChar c = c ∧
      (Text.upperChar c).isLower = false := by
  have hall : ∀ n < 128, isNameChar (Char.ofNat n) = true →
      (Char.ofNat n = '_' ∨ (Char.ofNat n).isLower = true ∨ (Char.ofNat n).isDigit = true) ∧
        Text.lowerChar (Char.ofNat n) = Char.ofNat n ∧
        (Text.upperChar (Char.ofNat n)).isLower = false := by
    decide
  exact Text.forall_ascii
    (p := fun c => isNameChar c = true → (c = '_' ∨ c.isLower = true ∨ c.isDigit = true) ∧
      Text.lowerChar c = c ∧ (Text.upperChar c).isLower = false)
    hall (toNat_lt_of_isNameChar hc) hc

theorem lower_eq_self (hs : ∀ c ∈ s.toList, isNameChar c = true) : Text.lower s = s := by
  rw [← String.toList_inj, Text.lower, String.toList_map]
  exact (List.map_congr_left fun c hc => (isNameChar_cases (hs c hc)).2.1).trans (List.map_id _)

/-- A name consists of characters of names, and no digit comes first. -/
theorem isIdentifier_iff : isIdentifier s = true ↔
    (∀ c ∈ s.toList, isNameChar c = true) ∧
      ∃ c, s.toList.head? = some c ∧ c.isDigit = false := by
  rw [isIdentifier]
  cases s.toList with
  | nil => simp
  | cons c cs =>
    simp only [Bool.and_eq_true, Bool.not_eq_true', List.all_eq_true, List.forall_mem_cons,
      List.head?_cons, Option.some.injEq, exists_eq_left']
    constructor
    · rintro ⟨⟨hc, hdigit⟩, hcs⟩
      exact ⟨⟨hc, hcs⟩, hdigit⟩
    · rintro ⟨⟨hc, hcs⟩, hdigit⟩
      exact ⟨⟨hc, hdigit⟩, hcs⟩

/-! ### How names begin -/

/-- No word of an exported name begins with a small letter. -/
theorem isLower_head_exportedWord (hs : ∀ c ∈ s.toList, isNameChar c = true)
    (hc : (exportedWord s).toList.head? = some c) : c.isLower = false := by
  rw [exportedWord] at hc
  split at hc
  · next hinitialism =>
    have hall : ∀ w ∈ initialisms, (Text.upper w).toList.all (!·.isLower) = true := by
      decide +kernel
    have hlower := List.all_eq_true.mp (hall _ (List.contains_iff_mem.mp hinitialism)) c
      (List.mem_of_head? hc)
    exact Bool.not_eq_eq_eq_not.mp hlower
  · cases hlist : s.toList with
    | nil =>
      rw [hlist] at hc
      cases hc
    | cons d cs =>
      rw [hlist] at hc
      simp only [String.toList_ofList, List.head?_cons, Option.some.injEq] at hc
      rw [← hc]
      exact (isNameChar_cases (hs d (hlist ▸ List.mem_cons_self))).2.2

theorem mem_of_mem_splitList {α : Type} [BEq α] {sep d : α} {cs w : List α}
    (hw : w ∈ Text.splitList sep cs) (hd : d ∈ w) : d ∈ cs := by
  induction cs generalizing w with
  | nil =>
    rw [List.mem_singleton.mp hw] at hd
    exact hd
  | cons e cs ih =>
    rw [Text.splitList] at hw
    split at hw
    · rcases List.mem_cons.mp hw with rfl | hw
      · exact absurd hd List.not_mem_nil
      · exact List.mem_cons_of_mem _ (ih hw hd)
    · split at hw
      · rw [List.mem_singleton.mp hw] at hd
        exact List.mem_singleton.mp hd ▸ List.mem_cons_self
      · next piece pieces hsplit =>
        rw [hsplit] at ih
        rcases List.mem_cons.mp hw with rfl | hw
        · rcases List.mem_cons.mp hd with rfl | hd
          · exact List.mem_cons_self
          · exact List.mem_cons_of_mem _ (ih List.mem_cons_self hd)
        · exact List.mem_cons_of_mem _ (ih (List.mem_cons_of_mem _ hw) hd)

/-- No exported name begins with a small letter. -/
theorem isLower_head_exportedName (hs : ∀ c ∈ s.toList, isNameChar c = true)
    (hc : (exportedName s).toList.head? = some c) : c.isLower = false := by
  have hwords : ∀ w ∈ Text.split '_' s, ∀ c ∈ w.toList, isNameChar c = true := by
    intro w hw c hc
    obtain ⟨cs, hcs, rfl⟩ := List.mem_map.mp hw
    rw [String.toList_ofList] at hc
    exact hs c (mem_of_mem_splitList hcs hc)
  rw [exportedName] at hc
  generalize Text.split '_' s = words at hc hwords
  induction words with
  | nil => cases hc
  | cons w words ih =>
    obtain ⟨hw, hwords⟩ := List.forall_mem_cons.mp hwords
    rw [List.map_cons, String.join_cons, String.toList_append, List.head?_append] at hc
    cases hhead : (exportedWord w).toList.head? with
    | none =>
      rw [hhead] at hc
      exact ih hc hwords
    | some d =>
      rw [hhead] at hc
      cases hc
      exact isLower_head_exportedWord hw hhead

theorem forall_mem_firstWord (hs : ∀ c ∈ s.toList, isNameChar c = true) :
    ∀ c ∈ (firstWord s).toList, isNameChar c = true ∧ c ≠ '_' := by
  intro c hc
  rw [firstWord, String.toList_ofList] at hc
  refine ⟨hs c ((List.takeWhile_prefix _).subset hc), ?_⟩
  exact bne_iff_ne.mp (List.all_eq_true.mp List.all_takeWhile c hc)

theorem forall_mem_laterWords (hs : ∀ c ∈ s.toList, isNameChar c = true) :
    ∀ c ∈ (laterWords s).toList, isNameChar c = true := by
  intro c hc
  rw [laterWords, String.toList_ofList] at hc
  exact hs c ((List.dropWhile_suffix _).subset (List.mem_of_mem_tail hc))

/-- What stands at the head of a name stands at the head of its first word, unless it is an
underscore. -/
theorem head?_firstWord (hc : s.toList.head? = some c) (hne : c ≠ '_') :
    (firstWord s).toList.head? = some c := by
  rw [firstWord, String.toList_ofList]
  cases hlist : s.toList with
  | nil =>
    rw [hlist] at hc
    cases hc
  | cons d cs =>
    rw [hlist] at hc
    cases hc
    rw [List.takeWhile_cons, if_pos (bne_iff_ne.mpr hne), List.head?_cons]

/-- A field name begins with a small letter, unless the name starts with an underscore. -/
theorem isLower_head_fieldName (hs : isIdentifier s = true) (hne : s.toList.head? ≠ some '_') :
    ∃ c, (fieldName s).toList.head? = some c ∧ c.isLower = true := by
  obtain ⟨hchars, c, hc, hdigit⟩ := isIdentifier_iff.mp hs
  have hunderscore : c ≠ '_' := fun h => hne (h ▸ hc)
  refine ⟨c, ?_, ?_⟩
  · rw [fieldName_eq, String.toList_append, List.head?_append, head?_firstWord hc hunderscore]
    rfl
  · rcases (isNameChar_cases (hchars c (List.mem_of_head? hc))).1 with h | h | h
    · exact absurd h hunderscore
    · exact h
    · rw [hdigit] at h
      cases h

/-- **Field names are no exported names**, unless a name starts with an underscore. -/
theorem fieldName_ne_exportedName (ha : isIdentifier a = true) (hne : a.toList.head? ≠ some '_')
    (hb : isIdentifier b = true) : fieldName a ≠ exportedName b := by
  intro heq
  obtain ⟨c, hc, hlower⟩ := isLower_head_fieldName ha hne
  rw [heq] at hc
  rw [isLower_head_exportedName (isIdentifier_iff.mp hb).1 hc] at hlower
  cases hlower

/-- A name that starts with an underscore has one form only. -/
theorem fieldName_eq_exportedName (h : s.toList.head? = some '_') :
    fieldName s = exportedName s := by
  have hfirst : firstWord s = "" := by
    rw [firstWord]
    cases hlist : s.toList with
    | nil => rfl
    | cons d cs =>
      rw [hlist, List.head?_cons, Option.some.injEq] at h
      rw [h]
      rfl
  rw [fieldName_eq, exportedName_eq s, hfirst, exportedWord_empty]

/-! ### Names that clash -/

/-- Two names with one field name, though their exported names differ: the first word of the one is
an initialism, in the other one it goes on with a digit. -/
def Clash (a b : String) : Prop :=
  ∃ w ∈ initialisms, ∃ more rest : String, a = w ++ "_" ++ more ∧ b = w ++ rest ∧
    (∃ d, rest.toList.head? = some d ∧ d.isDigit = true) ∧ fieldName a = fieldName b

theorem Clash.ne (h : Clash a b) : a ≠ b := by
  obtain ⟨w, -, more, rest, rfl, rfl, ⟨d, hd, hdigit⟩, -⟩ := h
  intro heq
  rw [String.append_assoc, String.append_right_inj] at heq
  rw [← heq, String.toList_append] at hd
  cases hd
  cases hdigit

/-- The capitals of a word that is no initialism do not depend on where it ends. -/
theorem exportedWord_append (hx : x ≠ "") (hlow : Text.lower x ∉ initialisms)
    (hy : ∃ c ∈ y.toList, c.isDigit = true ∧ Text.lowerChar c = c) :
    exportedWord (x ++ y) = exportedWord x ++ y := by
  have hdigits : ∀ w ∈ initialisms, w.toList.all (!·.isDigit) = true := by decide
  have hlow' : Text.lower (x ++ y) ∉ initialisms := by
    intro hmem
    obtain ⟨c, hc, hdigit, hlower⟩ := hy
    have hin : c ∈ (Text.lower (x ++ y)).toList := by
      rw [Text.lower, String.toList_map, String.toList_append, List.map_append]
      exact List.mem_append_right _ (List.mem_map.mpr ⟨c, hc, hlower⟩)
    have hno := List.all_eq_true.mp (hdigits _ hmem) c hin
    rw [hdigit] at hno
    cases hno
  rw [exportedWord, exportedWord, if_neg (mt List.contains_iff_mem.mp hlow'),
    if_neg (mt List.contains_iff_mem.mp hlow)]
  cases hlist : x.toList with
  | nil => exact absurd (String.toList_eq_nil_iff.mp hlist) hx
  | cons c cs =>
    rw [String.toList_append, hlist, ← String.toList_inj]
    simp only [List.cons_append, String.toList_ofList, String.toList_append]

/-- If the first word of one name goes on in the other one, the two clash. -/
theorem clash_of_firstWord_append (ha : isIdentifier a = true) (hb : isIdentifier b = true)
    (hne : exportedName a ≠ exportedName b) (hfield : fieldName a = fieldName b) {u : List Char}
    (hfirst : (firstWord b).toList = (firstWord a).toList ++ u)
    (hlater : (exportedName (laterWords a)).toList = u ++ (exportedName (laterWords b)).toList) :
    Clash a b := by
  obtain ⟨hca, -⟩ := isIdentifier_iff.mp ha
  obtain ⟨hcb, e, he, hedigit⟩ := isIdentifier_iff.mp hb
  -- otherwise both forms agree
  have hu : u ≠ [] := by
    rintro rfl
    rw [List.append_nil, String.toList_inj] at hfirst
    rw [List.nil_append, String.toList_inj] at hlater
    exact hne (by rw [exportedName_eq a, exportedName_eq b, hfirst, hlater])
  obtain ⟨c, u', rfl⟩ := List.exists_cons_of_ne_nil hu
  have hcfirst : c ∈ (firstWord b).toList := by
    rw [hfirst]
    exact List.mem_append_right _ List.mem_cons_self
  obtain ⟨hname, hunderscore⟩ := forall_mem_firstWord hcb c hcfirst
  -- what follows the first word is no small letter, and a part of the other first word
  have hdigit : c.isDigit = true := by
    have hlower : c.isLower = false :=
      isLower_head_exportedName (forall_mem_laterWords hca) (by rw [hlater]; rfl)
    rcases (isNameChar_cases hname).1 with h | h | h
    · exact absurd h hunderscore
    · rw [hlower] at h
      cases h
    · exact h
  have hlaterne : laterWords a ≠ "" := by
    intro h
    rw [h, exportedName_empty] at hlater
    cases hlater
  have hfirstne : firstWord a ≠ "" := by
    intro h
    rw [h] at hfirst
    obtain ⟨rest, hrest⟩ := firstWord_append b
    rw [hrest, String.toList_append, hfirst] at he
    cases he
    rw [hdigit] at hedigit
    cases hedigit
  have hword : firstWord b = firstWord a ++ String.ofList (c :: u') := by
    rw [← String.toList_inj, String.toList_append, String.toList_ofList]
    exact hfirst
  have hinitialism : firstWord a ∈ initialisms := by
    refine Decidable.byContradiction fun hno => hne ?_
    have hlow : Text.lower (firstWord a) ∉ initialisms := by
      rw [lower_eq_self fun c hc => (forall_mem_firstWord hca c hc).1]
      exact hno
    have hmem : c ∈ (String.ofList (c :: u')).toList := by
      rw [String.toList_ofList]
      exact List.mem_cons_self
    have happend := exportedWord_append hfirstne hlow ⟨c, hmem, hdigit, (isNameChar_cases hname).2.1⟩
    rw [exportedName_eq a, exportedName_eq b, hword, happend, ← String.toList_inj]
    simp only [String.toList_append, String.toList_ofList, hlater, List.append_assoc]
  obtain ⟨rest, hrest⟩ := firstWord_append b
  refine ⟨firstWord a, hinitialism, laterWords a, String.ofList (c :: u') ++ rest,
    eq_of_laterWords hlaterne, ?_, ⟨c, ?_, hdigit⟩, hfield⟩
  · rw [← String.append_assoc, ← hword]
    exact hrest
  · rw [String.toList_append, String.toList_ofList]
    rfl

/-- **Two names with different exported names have one field name iff they clash.** -/
theorem fieldName_eq_iff (ha : isIdentifier a = true) (hb : isIdentifier b = true)
    (hne : exportedName a ≠ exportedName b) :
    fieldName a = fieldName b ↔ Clash a b ∨ Clash b a := by
  constructor
  · intro hfield
    have hlists := congrArg String.toList hfield
    rw [fieldName_eq a, fieldName_eq b, String.toList_append, String.toList_append] at hlists
    rcases List.append_eq_append_iff.mp hlists with ⟨u, hfirst, hlater⟩ | ⟨u, hfirst, hlater⟩
    · exact Or.inl (clash_of_firstWord_append ha hb hne hfield hfirst hlater)
    · exact Or.inr (clash_of_firstWord_append hb ha hne.symm hfield.symm hfirst hlater)
  · rintro (⟨_, -, _, _, -, -, -, hfield⟩ | ⟨_, -, _, _, -, -, -, hfield⟩)
    · exact hfield
    · exact hfield.symm

end TaintFlow.Schema
