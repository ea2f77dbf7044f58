import TaintFlow.Proofs.Expr.Spans

/-!
# Lexing up to a cleared identifier

A lexeme does not change when the text behind it is overwritten with blanks from the beginning of
some identifier on.  The lexer looks a few bytes ahead — for the rest of a delimiter, for the second
of two braces, for an identifier behind a connector — but nothing it looks for is a blank, and where
it looks for an identifier and finds one, that identifier belongs to the lexeme.

## Main definitions

* `Cleared` — two texts that agree up to where an identifier begins in one of them and a blank
  stands in the other.

## Main results

* `isPrefixOf_cleared` — bytes that neither begin an identifier nor are blanks stand in front of
  both texts or of neither.
* `next_cleared` — the first lexeme of a text does not depend on what is cleared behind it.
-/

namespace TaintFlow.Expr

/-- The second text is the first one with a blank where an identifier begins, and anything behind
that blank. -/
inductive Cleared : List UInt8 → List UInt8 → Prop where
  | nil : Cleared [] []
  | keep (c : UInt8) {u u' : List UInt8} (h : Cleared u u') : Cleared (c :: u) (c :: u')
  | clear {c : UInt8} (hc : isIdentStart c = true) (u u' : List UInt8) :
      Cleared (c :: u) (space :: u')

section

variable {u u' : List UInt8}

theorem Cleared.append (text : List UInt8) (h : Cleared u u') :
    Cleared (text ++ u) (text ++ u') := by
  induction text with
  | nil => exact h
  | cons c text ih => exact ih.keep c

theorem Cleared.eq_nil (h : Cleared [] u') : u' = [] := by
  cases h
  rfl

/-- A byte that is looked for behind a lexeme. -/
def IsGuide (b : UInt8) : Prop :=
  isIdentStart b = false ∧ b ≠ space

theorem isGuide_of_isQuote {b : UInt8} (hb : isQuote b = true) : IsGuide b := by
  rw [isQuote, Bool.or_eq_true, beq_iff_eq, beq_iff_eq] at hb
  rcases hb with rfl | rfl
  · exact ⟨by decide, by decide⟩
  · exact ⟨by decide, by decide⟩

theorem isGuide_openBrace : IsGuide openBrace :=
  ⟨by decide, by decide⟩

theorem isGuide_closeBrace : IsGuide closeBrace :=
  ⟨by decide, by decide⟩

theorem IsQuoting.isGuide {q : List UInt8} (hq : IsQuoting q) : ∀ b ∈ q, IsGuide b :=
  fun b hb => isGuide_of_isQuote (hq.2 b hb)

theorem isPrefixOf_cleared {p : List UInt8} (hp : ∀ b ∈ p, IsGuide b) (h : Cleared u u') :
    p.isPrefixOf u' = p.isPrefixOf u := by
  induction h generalizing p with
  | nil => rfl
  | keep c h ih =>
    cases p with
    | nil => rfl
    | cons b p =>
      rw [List.isPrefixOf_cons_cons, List.isPrefixOf_cons_cons,
        ih fun a ha => hp a (List.mem_cons_of_mem b ha)]
  | @clear c hc v v' =>
    cases p with
    | nil => rfl
    | cons b p =>
      obtain ⟨hstart, hspace⟩ := hp b List.mem_cons_self
      have hne : b ≠ c := by
        rintro rfl
        rw [hc] at hstart
        cases hstart
      rw [List.isPrefixOf_cons_cons, List.isPrefixOf_cons_cons, beq_eq_false_iff_ne.mpr hspace,
        beq_eq_false_iff_ne.mpr hne]
      rfl

/-- Without blanks, what stands in front of the second text stands in front of the first. -/
theorem prefix_of_cleared {p : List UInt8} (hp : space ∉ p) (h : Cleared u u') (hu : p <+: u') :
    p <+: u := by
  induction h generalizing p with
  | nil => exact hu
  | keep c h ih =>
    cases p with
    | nil => exact List.nil_prefix
    | cons b p =>
      rw [List.cons_prefix_cons] at hu ⊢
      exact ⟨hu.1, ih (List.not_mem_of_not_mem_cons hp) hu.2⟩
  | clear hc v v' =>
    cases p with
    | nil => exact List.nil_prefix
    | cons b p =>
      rw [List.cons_prefix_cons] at hu
      exact absurd hu.1 (List.ne_of_not_mem_cons hp).symm

theorem head?_cleared {b : UInt8} (hb : IsGuide b) (h : Cleared u u') :
    (u'.head? == some b) = (u.head? == some b) := by
  have hfront : ∀ v : List UInt8, (v.head? == some b) = [b].isPrefixOf v := by
    intro v
    cases v with
    | nil => rfl
    | cons a v =>
      rw [List.isPrefixOf_cons_cons, List.isPrefixOf_nil_left, Bool.and_true, List.head?_cons]
      exact Bool.beq_comm
  have hguide : ∀ a ∈ [b], IsGuide a := by
    intro a ha
    obtain rfl := List.mem_singleton.mp ha
    exact hb
  rw [hfront, hfront, isPrefixOf_cleared hguide h]

/-- Where an identifier begins in the second text, the same one begins in the first. -/
theorem Cleared.startsIdent (h : Cleared u u') (hu : startsIdent u = false) :
    startsIdent u' = false := by
  cases h with
  | nil => exact hu
  | keep c h => exact hu
  | clear hc u u' => rfl

/-- What is left behind a lexeme that takes at least one byte. -/
theorem exists_cons {text : List UInt8} {c : UInt8} {cs : List UInt8} (h : text ++ u = c :: cs)
    (hu : u.length ≤ cs.length) : ∃ t, text = c :: t ∧ t ++ u = cs := by
  cases text with
  | nil =>
    rw [List.nil_append] at h
    rw [h, List.length_cons] at hu
    exact absurd hu (Nat.not_succ_le_self _)
  | cons b t =>
    obtain ⟨rfl, ht⟩ := List.cons.inj h
    exact ⟨t, rfl, ht⟩

/-! ### Texts of literals -/

section

variable {q text : List UInt8} {frames fs : List Frame}

/-- What stands before the rest behind a delimiter is the delimiter. -/
theorem eq_of_drop_eq (hq : q.isPrefixOf (text ++ u) = true)
    (hdrop : (text ++ u).drop q.length = u) : text = q := by
  obtain ⟨v, hv⟩ := List.isPrefixOf_iff_prefix.mp hq
  rw [← hv, List.drop_left] at hdrop
  rw [hdrop] at hv
  exact (List.append_cancel_right hv).symm

theorem quotedText_cleared (hq : IsQuoting q) (h : Cleared u u')
    (hrest : quotedText q (text ++ u) = u) : quotedText q (text ++ u') = u' := by
  by_cases hu : u = []
  · subst hu
    rw [h.eq_nil]
    exact hrest
  generalize hcs : text ++ u = cs at hrest
  fun_induction quotedText q cs generalizing text with
  | case1 => exact absurd hrest.symm hu
  | case2 => exact absurd hrest.symm hu
  | case3 c hc b cs ih =>
    have hlen : u.length ≤ cs.length := hrest ▸ quotedText_length q cs
    obtain ⟨t, rfl, ht⟩ := exists_cons hcs (Nat.le_succ_of_le hlen)
    obtain ⟨t, rfl, ht'⟩ := exists_cons ht hlen
    rw [List.cons_append, List.cons_append, beq_iff_eq.mp hc, quotedText_escape]
    exact ih ht' hrest
  | case4 c cs hc hfront =>
    have hlen : u.length ≤ cs.length := by
      have := List.length_pos_iff.mpr hq.1
      rw [← hrest, List.length_drop, List.length_cons]
      omega
    rw [← hcs] at hfront hrest
    obtain ⟨t, rfl, -⟩ := exists_cons hcs hlen
    obtain rfl := eq_of_drop_eq hfront hrest
    rw [List.cons_append, quotedText_close (by simpa using hc)
      (List.isPrefixOf_iff_prefix.mpr (List.prefix_append _ _)), ← List.cons_append, List.drop_left]
  | case5 c cs hc hfront ih =>
    have hlen : u.length ≤ cs.length := hrest ▸ quotedText_length q cs
    obtain ⟨t, rfl, rfl⟩ := exists_cons hcs hlen
    rw [Bool.not_eq_true, ← isPrefixOf_cleared hq.isGuide ((h.append t).keep c)] at hfront
    rw [List.cons_append, quotedText_plain (by simpa using hc) hfront]
    exact ih rfl hrest

theorem templateText_cleared (h : Cleared u u')
    (hrest : templateText frames (text ++ u) = ⟨fs, u⟩) :
    templateText frames (text ++ u') = ⟨fs, u'⟩ := by
  by_cases hu : u = []
  · subst hu
    rw [h.eq_nil]
    exact hrest
  have hlength : ∀ {cs}, templateText frames cs = ⟨fs, u⟩ → u.length ≤ cs.length := by
    intro cs hcs
    have := templateText_length frames cs
    rwa [hcs] at this
  generalize hcs : text ++ u = cs at hrest
  fun_induction templateText frames cs generalizing text with
  | case1 => exact absurd (congrArg Place.rest hrest).symm hu
  | case2 => exact absurd (congrArg Place.rest hrest).symm hu
  | case3 c hc b cs ih =>
    obtain ⟨t, rfl, ht⟩ := exists_cons hcs (Nat.le_succ_of_le (hlength hrest))
    obtain ⟨t, rfl, ht'⟩ := exists_cons ht (hlength hrest)
    rw [List.cons_append, List.cons_append, beq_iff_eq.mp hc, templateText_escape]
    exact ih ht' hrest
  | case4 c cs hc hclose =>
    obtain ⟨rfl, rfl⟩ := Place.mk.inj hrest
    obtain ⟨t, rfl, ht⟩ := exists_cons hcs (Nat.le_refl _)
    obtain rfl := List.append_left_eq_self.mp ht
    rw [beq_iff_eq.mp hclose, List.singleton_append, templateText_close]
  | case5 c cs hc hclose hopen =>
    obtain ⟨rfl, rfl⟩ := Place.mk.inj hrest
    simp only [Bool.and_eq_true, beq_iff_eq] at hopen
    obtain ⟨rfl, hhead⟩ := hopen
    obtain ⟨cs, rfl⟩ := List.head?_eq_some_iff.mp hhead
    obtain ⟨t, rfl, ht⟩ := exists_cons hcs (Nat.le_succ _)
    obtain ⟨t, rfl, ht'⟩ := exists_cons ht (Nat.le_refl _)
    obtain rfl := List.append_left_eq_self.mp ht'
    rw [List.cons_append, List.singleton_append]
    exact templateText_open
  | case6 c cs hc hclose hopen ih =>
    obtain ⟨t, rfl, rfl⟩ := exists_cons hcs (hlength hrest)
    rw [Bool.not_eq_true, ← head?_cleared isGuide_openBrace (h.append t)] at hopen
    rw [List.cons_append, templateText_plain (by simpa using hc) (by simpa using hclose) hopen]
    exact ih rfl hrest

theorem formatText_cleared (hq : IsQuoting q) (h : Cleared u u')
    (hrest : formatText q frames (text ++ u) = ⟨fs, u⟩) :
    formatText q frames (text ++ u') = ⟨fs, u'⟩ := by
  by_cases hu : u = []
  · subst hu
    rw [h.eq_nil]
    exact hrest
  have hlength : ∀ {cs}, formatText q frames cs = ⟨fs, u⟩ → u.length ≤ cs.length := by
    intro cs hcs
    have := formatText_length q frames cs
    rwa [hcs] at this
  -- the delimiter is seen behind the same bytes
  have hsame : ∀ t, q.isPrefixOf (t ++ u') = q.isPrefixOf (t ++ u) :=
    fun t => isPrefixOf_cleared hq.isGuide (h.append t)
  generalize hcs : text ++ u = cs at hrest
  fun_induction formatText q frames cs generalizing text with
  | case1 => exact absurd (congrArg Place.rest hrest).symm hu
  | case2 => exact absurd (congrArg Place.rest hrest).symm hu
  | case5 => exact absurd (congrArg Place.rest hrest).symm hu
  | case3 c hc b cs ih =>
    obtain ⟨t, rfl, ht⟩ := exists_cons hcs (Nat.le_succ_of_le (hlength hrest))
    obtain ⟨t, rfl, ht'⟩ := exists_cons ht (hlength hrest)
    rw [List.cons_append, List.cons_append, beq_iff_eq.mp hc, formatText_escape]
    exact ih ht' hrest
  | case4 c cs hc hfront =>
    obtain ⟨rfl, hdrop⟩ := Place.mk.inj hrest
    have hlen : u.length ≤ cs.length := by
      have := List.length_pos_iff.mpr hq.1
      rw [← hdrop, List.length_drop, List.length_cons]
      omega
    rw [← hcs] at hfront hdrop
    obtain ⟨t, rfl, -⟩ := exists_cons hcs hlen
    obtain rfl := eq_of_drop_eq hfront hdrop
    rw [List.cons_append, formatText_close (by simpa using hc)
      (List.isPrefixOf_iff_prefix.mpr (List.prefix_append _ _)), ← List.cons_append, List.drop_left]
  | case6 c hc b cs hfront hdouble ih =>
    obtain ⟨t, rfl, ht⟩ := exists_cons hcs (Nat.le_succ_of_le (hlength hrest))
    obtain ⟨t, rfl, rfl⟩ := exists_cons ht (hlength hrest)
    have hfront' := hsame (c :: b :: t)
    rw [List.cons_append, List.cons_append] at hfront' ⊢
    rw [formatText_double (by simpa using hc) (hfront'.trans (eq_false_of_ne_true hfront))
      (by simpa using hdouble)]
    exact ih rfl hrest
  | case7 c cs hc hfront hdouble hopen =>
    obtain ⟨rfl, rfl⟩ := Place.mk.inj hrest
    obtain ⟨t, rfl, ht⟩ := exists_cons hcs (Nat.le_refl _)
    obtain rfl := List.append_left_eq_self.mp ht
    obtain rfl := beq_iff_eq.mp hopen
    have hfront' := hsame [openBrace]
    have hhead := head?_cleared isGuide_openBrace h
    rw [List.singleton_append] at hfront' ⊢
    refine formatText_open (hfront'.trans (eq_false_of_ne_true hfront)) ?_
    rw [← beq_eq_false_iff_ne, hhead]
    simpa using hdouble
  | case8 c cs hc hfront hdouble hopen ih =>
    obtain ⟨t, rfl, rfl⟩ := exists_cons hcs (hlength hrest)
    have hfront' := hsame (c :: t)
    have hdouble' : ((c == openBrace || c == closeBrace) && (t ++ u').head? == some c) = false := by
      rw [Bool.and_eq_true, Bool.or_eq_true, beq_iff_eq, beq_iff_eq] at hdouble
      rw [← Bool.not_eq_true, Bool.and_eq_true, Bool.or_eq_true, beq_iff_eq, beq_iff_eq]
      rintro ⟨hbrace, hhead⟩
      refine hdouble ⟨hbrace, ?_⟩
      rcases hbrace with rfl | rfl
      · rwa [head?_cleared isGuide_openBrace (h.append t)] at hhead
      · rwa [head?_cleared isGuide_closeBrace (h.append t)] at hhead
    rw [List.cons_append] at hfront' ⊢
    rw [formatText_plain (by simpa using hc) (hfront'.trans (eq_false_of_ne_true hfront)) hdouble'
      (by simpa using hopen)]
    exact ih rfl hrest

theorem formatSpec_cleared (hq : IsQuoting q) (h : Cleared u u') {depth : Nat}
    (hrest : formatSpec q frames depth (text ++ u) = ⟨fs, u⟩) :
    formatSpec q frames depth (text ++ u') = ⟨fs, u'⟩ := by
  by_cases hu : u = []
  · subst hu
    rw [h.eq_nil]
    exact hrest
  have hlength : ∀ {depth cs}, formatSpec q frames depth cs = ⟨fs, u⟩ → u.length ≤ cs.length := by
    intro depth cs hcs
    have := formatSpec_length q frames depth cs
    rwa [hcs] at this
  generalize hcs : text ++ u = cs at hrest
  fun_induction formatSpec q frames depth cs generalizing text with
  | case1 => exact absurd (congrArg Place.rest hrest).symm hu
  | case2 depth c cs hopen ih =>
    obtain ⟨t, rfl, ht⟩ := exists_cons hcs (hlength hrest)
    rw [List.cons_append, formatSpec.eq_def]
    simp only [hopen, if_true]
    exact ih ht hrest
  | case3 c cs hopen hclose =>
    have hlen : u.length ≤ cs.length := by
      have := formatText_length q frames cs
      rwa [hrest] at this
    obtain ⟨t, rfl, rfl⟩ := exists_cons hcs hlen
    rw [List.cons_append, formatSpec.eq_def]
    simp only [hopen, hclose, if_true, if_false, Bool.false_eq_true]
    exact formatText_cleared hq h hrest
  | case4 c cs hopen hclose depth ih =>
    obtain ⟨t, rfl, ht⟩ := exists_cons hcs (hlength hrest)
    rw [List.cons_append, formatSpec.eq_def]
    simp only [hopen, hclose, if_true, if_false, Bool.false_eq_true]
    exact ih ht hrest
  | case5 depth c cs hopen hclose ih =>
    obtain ⟨t, rfl, ht⟩ := exists_cons hcs (hlength hrest)
    rw [List.cons_append, formatSpec.eq_def]
    simp only [hopen, hclose, if_false, Bool.false_eq_true]
    exact ih ht hrest

end

/-! ### One lexeme -/

section

variable {frames fs : List Frame} {c : UInt8} {text : List UInt8} {k : LexemeKind}

/-- No literal opens because something is cleared. -/
theorem opening?_cleared (h : Cleared u u') (hnone : opening? (c :: u) = none) :
    opening? (c :: u') = none := by
  cases hopening : opening? (c :: u') with
  | none => rfl
  | some opened =>
    obtain ⟨formatted, quoted⟩ := opened
    obtain ⟨letters, b, v, hcs, rfl, hshort, hletters, hb, -⟩ := exists_letters hopening
    -- neither the letters nor the quote are blanks
    have hspace : space ∉ letters ++ [b] := by
      rw [List.mem_append, List.mem_singleton, not_or]
      refine ⟨fun hmem => ?_, ?_⟩
      · exact absurd (List.all_eq_true.mp hletters space hmem) (by decide)
      · rintro rfl
        cases hb
    obtain ⟨w, hw⟩ := prefix_of_cleared hspace (h.keep c) ⟨v, by rw [hcs, List.append_assoc]; rfl⟩
    rw [← hw, List.append_assoc, List.singleton_append, opening?_letters hshort hletters hb] at hnone
    cases hnone

theorem literal?_none_cleared (h : Cleared u u') (hnone : literal? frames c u = none) :
    literal? frames c u' = none := by
  unfold literal? at hnone ⊢
  split at hnone
  · cases hnone
  · next hback =>
    cases hopening : opening? (c :: u) with
    | some opened =>
      rw [hopening] at hnone
      cases hnone
    | none => rw [if_neg hback, opening?_cleared h hopening]

theorem literal?_some_cleared (h : Cleared u u')
    (hlit : literal? frames c (text ++ u) = some ⟨fs, u⟩) :
    literal? frames c (text ++ u') = some ⟨fs, u'⟩ := by
  rcases literal?_eq_some hlit with
    ⟨rfl, hplace⟩ | ⟨formatted, start, d, body, hcs, hd, hplace⟩
  · rw [literal?, beq_self_eq_true, if_pos rfl, templateText_cleared h hplace.symm]
  · have hsuffix : u <:+ body := by
      cases formatted with
      | true =>
        obtain rfl : u = (formatText d.bytes frames body).rest := congrArg Place.rest hplace
        exact formatText_suffix d.bytes frames body
      | false =>
        obtain rfl : u = quotedText d.bytes body := congrArg Place.rest hplace
        exact quotedText_suffix d.bytes body
    obtain ⟨t, rfl⟩ := hsuffix
    have hfront : c :: text = start.letters ++ (d.bytes ++ t) := by
      have hall : c :: text ++ u = start.letters ++ (d.bytes ++ t) ++ u := by
        rw [List.cons_append, hcs, List.append_assoc, List.append_assoc]
      exact List.append_cancel_right hall
    -- the delimiter is not doubled by what is cleared
    have hd' : delimiter (d.bytes ++ (t ++ u')) = d.bytes := by
      rw [delimiter_append_iff, ← List.isPrefixOf_iff_prefix] at hd ⊢
      have hguide : ∀ b ∈ [d.quote, d.quote], IsGuide b := by
        intro b hb
        obtain rfl | rfl : b = d.quote ∨ b = d.quote := by simpa using hb
        all_goals exact isGuide_of_isQuote d.quote_ok
      rwa [isPrefixOf_cleared hguide (h.append t)]
    obtain ⟨c', cs', hcs', hlit'⟩ := exists_literal? start hd' frames
    obtain ⟨rfl, rfl⟩ : c = c' ∧ text ++ u' = cs' := by
      rw [← List.append_assoc, ← List.append_assoc, List.append_assoc start.letters, ← hfront,
        List.cons_append] at hcs'
      exact List.cons.inj hcs'
    rw [hlit']
    cases formatted with
    | true => exact congrArg some (formatText_cleared d.isQuoting h hplace.symm)
    | false =>
      obtain ⟨rfl, hrest⟩ := Place.mk.inj hplace
      exact congrArg (fun v => some (Place.mk fs v)) (quotedText_cleared d.isQuoting h hrest.symm)

/-- Whether an exclamation mark begins a conversion does not depend on what is cleared. -/
theorem conversion_cleared (h : Cleared u u') :
    (u'.head?.map (· != equals)).getD false = (u.head?.map (· != equals)).getD false := by
  cases h with
  | nil => rfl
  | keep c h => rfl
  | @clear c hc v v' =>
    have hne : (c != equals) = true := by
      rw [bne_iff_ne]
      rintro rfl
      cases hc
    exact hne.symm

theorem brace_inside_cleared (h : Cleared u u') (hinside : brace frames c u = .inside fs) :
    brace frames c u' = .inside fs := by
  unfold brace at hinside ⊢
  rw [conversion_cleared h]
  repeat' split at hinside
  all_goals simp_all

theorem brace_resumed_cleared (hframes : Quoting frames) (h : Cleared u u')
    (hresumed : brace frames c (text ++ u) = .resumed ⟨fs, u⟩) :
    brace frames c (text ++ u') = .resumed ⟨fs, u'⟩ := by
  rcases brace_eq_resumed hresumed with
    ⟨outer, rfl, rfl, hplace⟩ | ⟨q, outer, rfl, rfl, hplace⟩ | ⟨q, outer, rfl, hc, hplace⟩
  · rw [← templateText_cleared h hplace.symm]
    rfl
  · rw [← formatText_cleared (quoting_field.mp hframes).1 h hplace.symm]
    rfl
  · rw [← conversion_cleared (h.append text)] at hc
    rw [← formatSpec_cleared (quoting_field.mp hframes).1 h hplace.symm]
    exact brace_conversion hc

theorem chainEnd_stop {cs : List UInt8} (hc : isIdentPart c = false)
    (hpoint : (c == point && startsIdent cs) = false)
    (hjoint : (((c == question && cs.head? == some point)
      || (c == hyphen && cs.head? == some greater)) && startsIdent cs.tail) = false) :
    chainEnd (c :: cs) = c :: cs := by
  rw [chainEnd.eq_def]
  simp only [hc, hpoint, hjoint, if_false, Bool.false_eq_true]

/-- No connector begins because something is cleared. -/
theorem chainEnd_stop_cleared {cs : List UInt8} (h : Cleared (c :: cs) u')
    (hc : isIdentPart c = false) (hpoint : (c == point && startsIdent cs) = false)
    (hjoint : (((c == question && cs.head? == some point)
      || (c == hyphen && cs.head? == some greater)) && startsIdent cs.tail) = false) :
    chainEnd u' = u' := by
  cases h with
  | clear hstart =>
    rw [isIdentPart_of_isIdentStart hstart] at hc
    cases hc
  | @keep _ _ v' h =>
    refine chainEnd_stop hc ?_ ?_
    · rw [Bool.and_eq_false_iff] at hpoint ⊢
      exact hpoint.imp_right h.startsIdent
    · cases h with
      | nil => exact hjoint
      | clear => simp [show space ≠ point by decide, show space ≠ greater by decide]
      | keep b h =>
        rw [Bool.and_eq_false_iff] at hjoint ⊢
        exact hjoint.imp_right h.startsIdent

theorem startsIdent_append {u' : List UInt8} (hu : startsIdent u = false)
    (h : startsIdent (text ++ u) = true) : startsIdent (text ++ u') = true := by
  cases text with
  | nil =>
    rw [List.nil_append, hu] at h
    cases h
  | cons c text => exact h

theorem chainEnd_cleared (text : List UInt8) (h : Cleared u u')
    (hend : chainEnd (text ++ u) = u) : chainEnd (text ++ u') = u' := by
  have hlength : ∀ {cs}, chainEnd cs = u → u.length ≤ cs.length :=
    fun {cs} hcs => hcs ▸ chainEnd_length cs
  have hstarts : startsIdent u = false := hend ▸ startsIdent_chainEnd _
  generalize hcs : text ++ u = cs at hend
  fun_induction chainEnd cs generalizing text with
  | case1 =>
    obtain ⟨rfl, rfl⟩ := List.append_eq_nil_iff.mp hcs
    rw [h.eq_nil]
    rfl
  | case2 c cs hc ih =>
    obtain ⟨t, rfl, ht⟩ := exists_cons hcs (hlength hend)
    rw [List.cons_append, chainEnd.eq_def]
    simp only [hc, if_true]
    exact ih t ht hend
  | case3 c cs hc hpoint ih =>
    obtain ⟨t, rfl, rfl⟩ := exists_cons hcs (hlength hend)
    rw [Bool.and_eq_true] at hpoint
    rw [List.cons_append, chainEnd.eq_def]
    simp only [hc, hpoint.1, startsIdent_append hstarts hpoint.2, Bool.and_self, if_true, if_false,
      Bool.false_eq_true]
    exact ih t rfl hend
  | case4 c _ _ hjoint => simp [startsIdent] at hjoint
  | case5 c hc b cs hpoint hjoint ih =>
    obtain ⟨t, rfl, ht⟩ := exists_cons hcs (Nat.le_succ_of_le (hlength hend))
    obtain ⟨t, rfl, rfl⟩ := exists_cons ht (hlength hend)
    rw [Bool.and_eq_true] at hjoint
    obtain ⟨hjoint, hnext⟩ := hjoint
    have hpoint' : (c == point && startsIdent (b :: (t ++ u'))) = false := eq_false_of_ne_true hpoint
    have hnext' : startsIdent (t ++ u') = true := startsIdent_append hstarts hnext
    rw [List.head?_cons] at hjoint
    rw [List.cons_append, List.cons_append, chainEnd.eq_def]
    simp only [hc, hpoint', List.head?_cons, hjoint, List.tail_cons, hnext', Bool.and_self, if_true,
      if_false, Bool.false_eq_true]
    exact ih t rfl hend
  | case6 c cs hc hpoint hjoint =>
    obtain rfl : text = [] := by
      rw [hend] at hcs
      exact List.append_left_eq_self.mp hcs
    rw [← hend] at h
    exact chainEnd_stop_cleared h (eq_false_of_ne_true hc) (eq_false_of_ne_true hpoint)
      (eq_false_of_ne_true hjoint)

theorem dropWhile_cleared (h : Cleared u u') (hend : (text ++ u).dropWhile isIdentPart = u) :
    (text ++ u').dropWhile isIdentPart = u' := by
  induction text with
  | nil =>
    cases h with
    | nil => rfl
    | clear hc u u' => rfl
    | @keep c v v' h =>
      rw [List.nil_append, List.dropWhile_cons] at hend ⊢
      split at hend
      · have := (List.dropWhile_suffix isIdentPart (l := v)).length_le
        rw [hend, List.length_cons] at this
        exact absurd this (Nat.not_succ_le_self _)
      · next hc => rw [if_neg hc]
  | cons c text ih =>
    rw [List.cons_append, List.dropWhile_cons] at hend ⊢
    split at hend
    · next hc =>
      rw [if_pos hc]
      exact ih hend
    · have := congrArg List.length hend
      rw [List.length_cons, List.length_append] at this
      omega

/-- **What is cleared behind a lexeme does not change it.** -/
theorem next_cleared (hframes : Quoting frames) (h : Cleared u u')
    (hnext : next .chain frames c (text ++ u) = (k, ⟨fs, u⟩)) :
    next .chain frames c (text ++ u') = (k, ⟨fs, u'⟩) := by
  cases hlit : literal? frames c (text ++ u) with
  | some place =>
    rw [next_of_literal? hlit] at hnext
    obtain ⟨rfl, rfl⟩ := Prod.mk.inj hnext
    exact next_of_literal? (literal?_some_cleared h hlit)
  | none =>
    have hlit' := literal?_none_cleared (h.append text) hlit
    cases hbrace : brace frames c (text ++ u) with
    | resumed place =>
      rw [next_of_resumed hlit hbrace] at hnext
      obtain ⟨rfl, rfl⟩ := Prod.mk.inj hnext
      exact next_of_resumed hlit' (brace_resumed_cleared hframes h hbrace)
    | inside fs' =>
      have hbrace' := brace_inside_cleared (h.append text) hbrace
      unfold next at hnext ⊢
      rw [hlit] at hnext
      rw [hlit']
      simp only [hbrace, hbrace'] at hnext ⊢
      split at hnext
      · next hc =>
        simp only [Prod.mk.injEq, Place.mk.injEq] at hnext
        obtain ⟨rfl, rfl, hend⟩ := hnext
        rw [if_pos hc]
        exact congrArg (fun rest => (LexemeKind.name, Place.mk _ rest))
          (chainEnd_cleared (c :: text) h hend)
      · next hc =>
        rw [if_neg hc]
        split at hnext
        · next hdigit =>
          simp only [Prod.mk.injEq, Place.mk.injEq] at hnext
          obtain ⟨rfl, rfl, hend⟩ := hnext
          rw [if_pos hdigit, dropWhile_cleared h hend]
        · next hdigit =>
          simp only [Prod.mk.injEq, Place.mk.injEq] at hnext
          obtain ⟨rfl, rfl, hend⟩ := hnext
          obtain rfl := List.append_left_eq_self.mp hend
          rw [if_neg hdigit]
          rfl

end

end

end TaintFlow.Expr
