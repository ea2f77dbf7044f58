import Mathlib.Data.Nat.Find
import TaintFlow.Proofs.Expr.Clearing
import TaintFlow.Proofs.Expr.Removal

/-!
# Overwriting spans of an expression

When spans of an expression are overwritten with blanks, the scan of what is left goes on behind an
overwritten stretch with the substitutions that were open in front of it.  So the chains outside the
stretches stay chains, and no text becomes code, if the scan of the expression itself comes to the
end of each stretch with the substitutions it had at its beginning: then the stretch is `Level`.

A stretch is a longest range of overwritten bytes.  It is not enough that every span is level: two
spans that overlap in part are left by the scan at one end only.

## Main definitions

* `framesAt?` — the substitutions that are open where the scan comes to a byte.
* `overwritten`, `Stretch` — the bytes in some spans, and the longest ranges of them.
* `Level` — overwriting some spans leaves the scan of an expression where it was.
* `Rooted` — spans that begin where a chain does.

## Main results

* `chains_blank` — the chains of an expression with level spans overwritten are the chains of the
  expression that begin outside them.
* `residualNames_anti` — more sanitizers never expose more names, as long as what they remove is
  level.
* `residualNames_exposes_text` — a call in a substitution whose parenthesis is looked for without
  regard to the literal around it: the text behind the substitution becomes code.
-/

namespace TaintFlow.Expr

/-! ### Where the scan stands -/

/-- The substitutions that are open where the scan comes to the byte at an offset, if a lexeme
begins there or the text ends. -/
def framesAt? (frames : List Frame) (cs : List UInt8) : Nat → Option (List Frame)
  | 0 => some frames
  | n + 1 =>
    match cs with
    | [] => none
    | c :: rest =>
      let place := (next .chain frames c rest).2
      let width := rest.length + 1 - place.rest.length
      if width ≤ n + 1 then framesAt? place.frames place.rest (n + 1 - width) else none
termination_by n => n
decreasing_by
  have := next_length .chain frames c rest
  omega

section

variable {frames fs : List Frame} {c : UInt8} {cs bytes u : List UInt8} {k : LexemeKind} {n : Nat}

@[simp] theorem framesAt?_zero : framesAt? frames cs 0 = some frames := by
  rw [framesAt?]

/-- The scan comes to no byte inside a lexeme. -/
theorem framesAt?_of_lt (hnext : next .chain frames c cs = (k, ⟨fs, u⟩)) (hcs : c :: cs = bytes ++ u)
    (hpos : 0 < n) (hn : n < bytes.length) : framesAt? frames (c :: cs) n = none := by
  have hlen := congrArg List.length hcs
  rw [List.length_cons, List.length_append] at hlen
  obtain ⟨n, rfl⟩ : ∃ m, n = m + 1 := ⟨n - 1, by omega⟩
  rw [framesAt?]
  simp only [hnext]
  rw [if_neg (by omega)]

/-- Behind a lexeme it goes on. -/
theorem framesAt?_add_length (hnext : next .chain frames c cs = (k, ⟨fs, u⟩))
    (hcs : c :: cs = bytes ++ u) :
    framesAt? frames (c :: cs) (bytes.length + n) = framesAt? fs u n := by
  have hlen := congrArg List.length hcs
  have hlt := next_length .chain frames c cs
  rw [List.length_cons, List.length_append] at hlen
  rw [hnext] at hlt
  obtain ⟨m, hm⟩ : ∃ m, bytes.length + n = m + 1 := ⟨bytes.length + n - 1, by simp only at hlt; omega⟩
  rw [hm, framesAt?]
  simp only [hnext]
  rw [if_pos (by omega)]
  congr 1
  omega

/-- The scan goes on from a byte that it comes to, some lexemes standing in front. -/
structure Reaches (frames : List Frame) (cs : List UInt8) (n : Nat) (fs : List Frame) : Prop where
  le : n ≤ cs.length
  add : ∀ m, framesAt? frames cs (n + m) = framesAt? fs (cs.drop n) m
  quoting : Quoting frames → Quoting fs
  lexemes : ∃ ls, byteCount ls = n ∧ lexemes .chain frames cs = ls ++ lexemes .chain fs (cs.drop n)

theorem reaches_zero (frames : List Frame) (cs : List UInt8) : Reaches frames cs 0 frames :=
  ⟨Nat.zero_le _, fun m => by rw [Nat.zero_add, List.drop_zero], id, [], rfl, rfl⟩

theorem reaches_of_framesAt? (h : framesAt? frames cs n = some fs) : Reaches frames cs n fs := by
  induction frames, cs using scan_induction (g := .chain) generalizing n with
  | nil frames =>
    cases n with
    | zero =>
      obtain rfl := Option.some.inj (framesAt?_zero.symm.trans h)
      exact reaches_zero frames []
    | succ n =>
      rw [framesAt?] at h
      cases h
  | cons frames c cs k fs' bytes u hnext hcs _ ih =>
    cases n with
    | zero =>
      obtain rfl := Option.some.inj (framesAt?_zero.symm.trans h)
      exact reaches_zero frames (c :: cs)
    | succ n =>
      by_cases hn : n + 1 < bytes.length
      · rw [framesAt?_of_lt hnext hcs (Nat.succ_pos n) hn] at h
        cases h
      · obtain ⟨m, hm⟩ := Nat.exists_eq_add_of_le (Nat.le_of_not_lt hn)
        rw [hm] at h ⊢
        rw [framesAt?_add_length hnext hcs] at h
        obtain ⟨hle, hadd, hquoting, ls, hcount, hls⟩ := ih h
        have hdrop : (c :: cs).drop (bytes.length + m) = u.drop m := by
          rw [hcs, ← List.drop_drop, List.drop_left]
        constructor
        · rw [hcs, List.length_append]
          exact Nat.add_le_add_left hle _
        · intro l
          rw [Nat.add_assoc, framesAt?_add_length hnext hcs, hadd, hdrop]
        · intro hframes
          refine hquoting ?_
          rw [show fs' = (next .chain frames c cs).2.frames by rw [hnext]]
          exact next_quoting .chain hframes c cs
        · refine ⟨⟨k, bytes⟩ :: ls, ?_, ?_⟩
          · rw [byteCount_cons, hcount]
          · rw [lexemes_cons hnext hcs, hls, hdrop, List.cons_append]

/-- A lexeme begins where the scan comes to a byte. -/
theorem exists_framesAt? {before after : List Lexeme}
    (h : lexemes .chain frames cs = before ++ after) :
    ∃ fs, framesAt? frames cs (byteCount before) = some fs := by
  induction frames, cs using scan_induction (g := .chain) generalizing before with
  | nil frames =>
    rw [lexemes, List.nil_eq_append_iff] at h
    rw [h.1]
    exact ⟨frames, framesAt?_zero⟩
  | cons frames c cs k fs bytes u hnext hcs _ ih =>
    cases before with
    | nil => exact ⟨frames, framesAt?_zero⟩
    | cons l before =>
      rw [lexemes_cons hnext hcs, List.cons_append, List.cons.injEq] at h
      obtain ⟨rfl, h⟩ := h
      rw [byteCount_cons, framesAt?_add_length hnext hcs]
      exact ih h

end

/-! ### Stretches -/

/-- Whether the byte at an offset lies in one of the spans. -/
def overwritten (spans : List Span) (n : Nat) : Bool :=
  spans.any fun s => s.start ≤ n && n < s.stop

/-- A longest range of overwritten bytes. -/
def Stretch (spans : List Span) (a b : Nat) : Prop :=
  a < b ∧ (∀ n < b, a ≤ n → overwritten spans n = true) ∧ overwritten spans b = false ∧
    (0 < a → overwritten spans (a - 1) = false)

instance (spans : List Span) (a b : Nat) : Decidable (Stretch spans a b) :=
  inferInstanceAs (Decidable (_ ∧ _))

/-- The scan of an expression comes to the end of every stretch with the substitutions that are open
at its beginning. -/
def Level (e : List UInt8) (spans : List Span) : Prop :=
  ∀ b ≤ e.length, ∀ a < b, Stretch spans a b → framesAt? [] e a = framesAt? [] e b

instance (e : List UInt8) (spans : List Span) : Decidable (Level e spans) :=
  inferInstanceAs (Decidable (∀ b ≤ e.length, ∀ a < b, _ → _))

/-- Spans of an expression that begin where an identifier does, at a byte to which the scan comes. -/
def Rooted (e : List UInt8) (spans : List Span) : Prop :=
  ∀ s ∈ spans, s.stop ≤ e.length ∧ (framesAt? [] e s.start).isSome ∧
    ∃ b, e[s.start]? = some b ∧ isIdentStart b = true

section

variable {e : List UInt8} {spans : List Span} {n : Nat}

theorem overwritten_iff : overwritten spans n = true ↔ ∃ s ∈ spans, s.start ≤ n ∧ n < s.stop := by
  simp [overwritten]

/-- No stretch goes across an offset. -/
def Seam (spans : List Span) (n : Nat) : Prop :=
  overwritten spans n = true → 0 < n → overwritten spans (n - 1) = false

theorem seam_zero : Seam spans 0 :=
  fun _ h => absurd h (Nat.lt_irrefl 0)

theorem seam_of_free (h : overwritten spans n = false) : Seam spans n := by
  rw [Seam, h]
  exact fun h => nomatch h

theorem seam_succ (h : overwritten spans n = false) : Seam spans (n + 1) :=
  fun _ _ => h

/-- A stretch begins where a span does. -/
theorem exists_start (h : overwritten spans n = true) (hseam : Seam spans n) :
    ∃ s ∈ spans, s.start = n := by
  obtain ⟨s, hs, hstart, hstop⟩ := overwritten_iff.mp h
  refine ⟨s, hs, Nat.le_antisymm hstart (Nat.le_of_not_lt fun hlt => ?_)⟩
  have hbefore := hseam h (Nat.zero_lt_of_lt hlt)
  rw [overwritten_iff.mpr ⟨s, hs, by omega, by omega⟩] at hbefore
  cases hbefore

theorem Rooted.free (h : Rooted e spans) (hn : e.length ≤ n) : overwritten spans n = false := by
  rw [← Bool.not_eq_true, overwritten_iff]
  rintro ⟨s, hs, -, hstop⟩
  exact absurd (Nat.lt_of_lt_of_le hstop (h s hs).1) (Nat.not_lt.mpr hn)

/-- A stretch begins at an overwritten byte that has none before it. -/
theorem exists_stretch (hrooted : Rooted e spans) (h : overwritten spans n = true)
    (hseam : Seam spans n) : ∃ b, b ≤ e.length ∧ Stretch spans n b := by
  have hlt : n < e.length := by
    refine Nat.lt_of_not_le fun hle => ?_
    rw [hrooted.free hle] at h
    cases h
  have hex : ∃ b, n < b ∧ overwritten spans b = false := ⟨_, hlt, hrooted.free (Nat.le_refl _)⟩
  refine ⟨Nat.find hex, Nat.find_min' hex ⟨hlt, hrooted.free (Nat.le_refl _)⟩,
    (Nat.find_spec hex).1, fun m hm hle => ?_, (Nat.find_spec hex).2, hseam h⟩
  rcases Nat.eq_or_lt_of_le hle with rfl | hlt
  · exact h
  · rw [← Bool.not_eq_false]
    exact fun hfree => Nat.find_min hex hm ⟨hlt, hfree⟩

/-! ### The overwritten text -/

theorem blankFrom_free {bs : List UInt8}
    (h : ∀ m, n ≤ m → m < n + bs.length → overwritten spans m = false) :
    blankFrom spans n bs = bs := by
  induction bs generalizing n with
  | nil => rfl
  | cons b bs ih =>
    rw [List.length_cons] at h
    have hfree : (spans.any fun s => s.start ≤ n && n < s.stop) = false :=
      h n (Nat.le_refl n) (by omega)
    rw [blankFrom, hfree, ih fun m hm hlt => h m (by omega) (by omega)]
    rfl

theorem blankFrom_stretch {bs : List UInt8}
    (h : ∀ m < n + bs.length, n ≤ m → overwritten spans m = true) :
    blankFrom spans n bs = blanks bs.length := by
  induction bs generalizing n with
  | nil => rfl
  | cons b bs ih =>
    rw [List.length_cons] at h
    have hover : (spans.any fun s => s.start ≤ n && n < s.stop) = true :=
      h n (by omega) (Nat.le_refl n)
    rw [blankFrom, hover, ih fun m hlt hm => h m (by omega) (by omega)]
    rfl

/-- The overwritten text is cleared from the first stretch on, which begins with an identifier. -/
theorem cleared_blankFrom (hrooted : Rooted e spans) (hseam : Seam spans n) :
    Cleared (e.drop n) (blankFrom spans n (e.drop n)) := by
  induction hu : e.drop n generalizing n with
  | nil => exact Cleared.nil
  | cons c u ih =>
    have hu' : e.drop (n + 1) = u := by rw [← List.drop_drop, hu, List.drop_one, List.tail_cons]
    have hc : e[n]? = some c := by rw [← List.head?_drop, hu, List.head?_cons]
    cases hover : overwritten spans n with
    | false =>
      have h := (ih (seam_succ hover) hu').keep c
      rwa [blankFrom, show (spans.any fun s => s.start ≤ n && n < s.stop) = false from hover]
    | true =>
      obtain ⟨s, hs, rfl⟩ := exists_start hover hseam
      obtain ⟨b, hb, hstart⟩ := (hrooted s hs).2.2
      obtain rfl := Option.some.inj (hc.symm.trans hb)
      rw [blankFrom, show (spans.any fun t => t.start ≤ s.start && s.start < t.stop) = true from
        hover]
      exact Cleared.clear hstart u _

/-- A stretch is left as blanks. -/
theorem blankFrom_drop_stretch {b : Nat} (hstretch : Stretch spans n b) (hb : b ≤ e.length) :
    blankFrom spans n (e.drop n) = blanks (b - n) ++ blankFrom spans b (e.drop b) := by
  have hadd : n + (b - n) = b := Nat.add_sub_cancel' (Nat.le_of_lt hstretch.1)
  have hlen : ((e.drop n).take (b - n)).length = b - n := by
    rw [List.length_take, List.length_drop]
    omega
  have hover : blankFrom spans n ((e.drop n).take (b - n)) = blanks (b - n) := by
    rw [blankFrom_stretch, hlen]
    rw [hlen, hadd]
    exact hstretch.2.1
  rw [← List.take_append_drop (b - n) (e.drop n), blankFrom_append, hover, hlen, hadd,
    List.drop_drop, hadd]

/-- No stretch begins inside a lexeme. -/
theorem free_of_lexeme {frames fs : List Frame} {c : UInt8} {front u : List UInt8} {k : LexemeKind}
    (hrooted : Rooted e spans) (hreaches : Reaches [] e n frames) (hu : e.drop n = c :: (front ++ u))
    (hover : overwritten spans n = false)
    (hnext : next .chain frames c (front ++ u) = (k, ⟨fs, u⟩)) :
    ∀ j < (c :: front).length, overwritten spans (n + j) = false := by
  intro j hj
  induction j with
  | zero => exact hover
  | succ j ih =>
    have hbefore := ih (Nat.lt_of_succ_lt hj)
    rw [← Bool.not_eq_true]
    intro h
    obtain ⟨s, hs, hstart⟩ := exists_start h (seam_succ hbefore)
    have hsome := (hrooted s hs).2.1
    rw [hstart, hreaches.add, hu,
      framesAt?_of_lt hnext List.cons_append.symm (Nat.succ_pos j) hj] at hsome
    cases hsome

/-- From an offset on, the chains of the overwritten text are those of the text that begin outside
the stretches. -/
def KeepsChains (e : List UInt8) (spans : List Span) (n : Nat) (frames : List Frame) : Prop :=
  chainsFrom n (lexemes .chain frames (blankFrom spans n (e.drop n))) =
    (chainsFrom n (lexemes .chain frames (e.drop n))).filter fun c => !overwritten spans c.span.start

section

variable {frames fs : List Frame}

/-- The scan of the overwritten text passes a stretch as blanks, and that of the text comes to its
end with the same substitutions. -/
theorem keepsChains_stretch {b : Nat} (hreaches : Reaches [] e n frames)
    (hstretch : Stretch spans n b) (hb : b ≤ e.length) (hframes : framesAt? [] e b = some frames)
    (hrec : KeepsChains e spans b frames) : KeepsChains e spans n frames := by
  have hadd : n + (b - n) = b := Nat.add_sub_cancel' (Nat.le_of_lt hstretch.1)
  have hwithin : framesAt? frames (e.drop n) (b - n) = some frames := by
    rw [← hreaches.add, hadd, hframes]
  obtain ⟨ls, hcount, hls⟩ := (reaches_of_framesAt? hwithin).lexemes
  have hinside : (chainsFrom n ls).filter (fun c => !overwritten spans c.span.start) = [] := by
    rw [List.filter_eq_nil_iff]
    intro c hc
    obtain ⟨before, l, after, rfl, -, rfl⟩ := mem_chainsFrom hc
    have hl : l ∈ lexemes .chain frames (e.drop n) := by simp [hls]
    have hpos := List.length_pos_iff.mpr (forall_mem_lexemes frames (e.drop n) l hl).1
    rw [byteCount_append, byteCount_cons] at hcount
    simp [hstretch.2.1 (n + byteCount before) (by omega) (Nat.le_add_right _ _)]
  rw [KeepsChains, blankFrom_drop_stretch hstretch hb, lexemes_blanks, chainsFrom_append,
    chainsFrom_marks, List.nil_append, byteCount_marks, length_blanks, hls, List.drop_drop, hadd,
    chainsFrom_append, List.filter_append, hinside, List.nil_append, hcount, hadd]
  exact hrec

/-- A lexeme outside the stretches is read in the overwritten text as well. -/
theorem keepsChains_lexeme {c : UInt8} {front u : List UInt8} {k : LexemeKind}
    (hframes : Quoting frames) (hu : e.drop n = c :: front ++ u)
    (hfree : ∀ j < (c :: front).length, overwritten spans (n + j) = false)
    (hnext : next .chain frames c (front ++ u) = (k, ⟨fs, u⟩))
    (hcleared : Cleared u (blankFrom spans (n + (c :: front).length) u))
    (hrec : KeepsChains e spans (n + (c :: front).length) fs) : KeepsChains e spans n frames := by
  have hdrop : e.drop (n + (c :: front).length) = u := by
    rw [← List.drop_drop, hu, List.drop_left]
  have hblank : blankFrom spans n (e.drop n) =
      c :: front ++ blankFrom spans (n + (c :: front).length) u := by
    rw [hu, blankFrom_append, blankFrom_free]
    intro m hm hlt
    obtain ⟨j, rfl⟩ := Nat.exists_eq_add_of_le hm
    exact hfree j (by omega)
  have hfirst : (chainsFrom n [⟨k, c :: front⟩]).filter
      (fun c => !overwritten spans c.span.start) = chainsFrom n [⟨k, c :: front⟩] := by
    have hstart : overwritten spans n = false := hfree 0 (Nat.succ_pos _)
    cases k <;> simp [chainsFrom, hstart]
  rw [KeepsChains, hdrop] at hrec
  rw [KeepsChains, hblank, hu, List.cons_append, List.cons_append,
    lexemes_cons (next_cleared hframes hcleared hnext) List.cons_append.symm,
    lexemes_cons hnext List.cons_append.symm, ← List.singleton_append,
    ← List.singleton_append (l := lexemes .chain fs u), chainsFrom_append, chainsFrom_append,
    List.filter_append, hfirst, byteCount_cons, byteCount_nil, Nat.add_zero]
  exact congrArg (chainsFrom n [⟨k, c :: front⟩] ++ ·) hrec

/-- From any offset that the scan of the text comes to and that no stretch goes across, the chains
outside the stretches are kept. -/
theorem keepsChains (hrooted : Rooted e spans) (hlevel : Level e spans)
    (hframes : framesAt? [] e n = some frames) (hseam : Seam spans n) :
    KeepsChains e spans n frames := by
  induction hm : e.length - n using Nat.strongRecOn generalizing n frames with
  | ind m ih =>
    have hreaches := reaches_of_framesAt? hframes
    cases hover : overwritten spans n with
    | true =>
      obtain ⟨b, hb, hstretch⟩ := exists_stretch hrooted hover hseam
      have hlt := hstretch.1
      have hframes' : framesAt? [] e b = some frames :=
        (hlevel b hb n hlt hstretch).symm.trans hframes
      exact keepsChains_stretch hreaches hstretch hb hframes'
        (ih _ (by omega) hframes' (seam_of_free hstretch.2.2.1) rfl)
    | false =>
      cases hu : e.drop n with
      | nil =>
        rw [KeepsChains, hu, blankFrom, lexemes]
        rfl
      | cons c cs =>
        obtain ⟨front, hfront⟩ := next_suffix .chain frames c cs
        cases hnext : next .chain frames c cs with
        | mk k place =>
          obtain ⟨fs, u⟩ := place
          rw [hnext] at hfront
          obtain rfl : front ++ u = cs := hfront
          have hlt : n < e.length := by
            have := congrArg List.length hu
            rw [List.length_drop, List.length_cons] at this
            omega
          have hframes' : framesAt? [] e (n + (c :: front).length) = some fs := by
            rw [hreaches.add, hu]
            exact (framesAt?_add_length (n := 0) hnext List.cons_append.symm).trans framesAt?_zero
          have hdrop : e.drop (n + (c :: front).length) = u := by
            rw [← List.drop_drop, hu, ← List.cons_append, List.drop_left]
          have hfree := free_of_lexeme hrooted hreaches hu hover hnext
          have hseam' : Seam spans (n + (c :: front).length) :=
            seam_succ (hfree front.length (Nat.lt_succ_self _))
          refine keepsChains_lexeme (hreaches.quoting quoting_nil) hu hfree hnext ?_
            (ih _ (by rw [List.length_cons]; omega) hframes' hseam' rfl)
          have hcleared := cleared_blankFrom hrooted hseam'
          rwa [hdrop] at hcleared

end

/-- **Overwriting level spans removes the chains in them**, and leaves all others as they are. -/
theorem chains_blank (hrooted : Rooted e spans) (hlevel : Level e spans) :
    chains (blank e spans) = (chains e).filter fun c => !overwritten spans c.span.start :=
  keepsChains hrooted hlevel framesAt?_zero seam_zero

/-- Calls begin where an identifier does. -/
theorem rooted_calls {ks : List Call} (hks : ks ⊆ calls e) : Rooted e (ks.map (·.span)) := by
  intro s hs
  obtain ⟨k, hk, rfl⟩ := List.mem_map.mp hs
  obtain ⟨c, hc, hcall⟩ := exists_chain_of_mem_calls (hks hk)
  refine ⟨hcall.within, ?_, ?_⟩
  · obtain ⟨before, l, after, hls, -, rfl⟩ := mem_chainsFrom hc
    obtain ⟨fs, hfs⟩ := exists_framesAt? hls
    rw [hcall.start, Nat.zero_add, hfs]
    rfl
  · obtain ⟨n, hn, -⟩ := (standsIn_of_mem_chains hc).bytes
    refine ⟨n.head.first, ?_, n.head.first_ok⟩
    have hhead : (slice e c.span).head? = some n.head.first := by rw [hn]; rfl
    have hpos := (standsIn_of_mem_chains hc).nonempty
    rw [hcall.start, ← List.head?_drop]
    rwa [slice, List.head?_take, if_neg (by omega)] at hhead

end

end TaintFlow.Expr

namespace TaintFlow.Sanitizers

open TaintFlow.Expr

/-! ### More sanitizers -/

section

variable {s s' : Sanitizers} {e : List UInt8} {file : String} {line : Int} {cut : Call → Bool}

/-- One set of sanitizers is part of another one. -/
structure PartOf (s s' : Sanitizers) : Prop where
  names : s.names ⊆ s'.names
  validators : s.validators ⊆ s'.validators

theorem PartOf.cleans (h : PartOf s s') {name : String} (hname : s.cleans name file line = true) :
    s'.cleans name file line = true := by
  simp only [Sanitizers.cleans, Bool.or_eq_true, List.contains_iff_mem] at hname ⊢
  rcases hname with (hname | hlast) | hvalidator
  · exact Or.inl (Or.inl (h.names hname))
  · exact Or.inl (Or.inr (h.names hlast))
  · exact Or.inr (h.validators hvalidator)

/-- The calls that are cut are calls to be removed. -/
theorem mem_of_mem_cutCalls {q : Call → Bool} {done cs : List Call} {c : Call}
    (h : c ∈ cutCalls q done cs) : c ∈ done ∨ (c ∈ cs ∧ q c = true) := by
  induction cs generalizing done with
  | nil => exact Or.inl h
  | cons d cs ih =>
    rw [cutCalls] at h
    split at h
    · next hd =>
      rw [Bool.and_eq_true] at hd
      rcases ih h with hc | ⟨hc, hq⟩
      · rcases List.mem_append.mp hc with hc | hc
        · exact Or.inl hc
        · obtain rfl := List.mem_singleton.mp hc
          exact Or.inr ⟨List.mem_cons_self, hd.2⟩
      · exact Or.inr ⟨List.mem_cons_of_mem d hc, hq⟩
    · rcases ih h with hc | ⟨hc, hq⟩
      · exact Or.inl hc
      · exact Or.inr ⟨List.mem_cons_of_mem d hc, hq⟩

theorem subset_cutCalls (q : Call → Bool) (done cs : List Call) : done ⊆ cutCalls q done cs := by
  induction cs generalizing done with
  | nil => exact List.Subset.refl done
  | cons d cs ih =>
    rw [cutCalls]
    split
    · exact List.Subset.trans (List.subset_append_left done [d]) (ih _)
    · exact ih done

/-- **Every call to be removed lies in one that is cut.** -/
theorem covered_cutCalls {q : Call → Bool} (done : List Call) {cs : List Call} {c : Call}
    (hc : c ∈ cs) (hq : q c = true) :
    ∃ d ∈ cutCalls q done cs, d.span.start ≤ c.span.start ∧ c.span.stop ≤ d.span.stop := by
  induction cs generalizing done with
  | nil => cases hc
  | cons d cs ih =>
    rcases List.mem_cons.mp hc with rfl | hc
    · rw [cutCalls, hq, Bool.and_true]
      cases hcovered : covered (done.map (·.span)) c.span with
      | false =>
        exact ⟨c, subset_cutCalls q _ cs (List.mem_append_right _ List.mem_cons_self),
          Nat.le_refl _, Nat.le_refl _⟩
      | true =>
        rw [covered, List.any_map, List.any_eq_true] at hcovered
        obtain ⟨d, hd, hin⟩ := hcovered
        exact ⟨d, subset_cutCalls q done cs hd, by simpa using hin⟩
    · rw [cutCalls]
      split
      · exact ih _ hc
      · exact ih _ hc

/-- What fewer sanitizers remove, more sanitizers remove as well. -/
theorem PartOf.overwritten (h : PartOf s s') {n : Nat}
    (hn : overwritten ((s.removedCalls e file line cut).map (·.span)) n = true) :
    Expr.overwritten ((s'.removedCalls e file line cut).map (·.span)) n = true := by
  obtain ⟨_, hs, hstart, hstop⟩ := overwritten_iff.mp hn
  obtain ⟨c, hc, rfl⟩ := List.mem_map.mp hs
  obtain hc | ⟨hc, hq⟩ := mem_of_mem_cutCalls hc
  · cases hc
  · have hq' : (s'.cleans c.name file line || cut c) = true := by
      rw [Bool.or_eq_true] at hq ⊢
      exact hq.imp_left h.cleans
    obtain ⟨d, hd, hle, hge⟩ :=
      covered_cutCalls (q := fun c => s'.cleans c.name file line || cut c) [] hc hq'
    exact overwritten_iff.mpr ⟨d.span, List.mem_map_of_mem hd, Nat.le_trans hle hstart,
      Nat.lt_of_lt_of_le hstop hge⟩

/-- The calls that are removed from an expression are level. -/
def RemovesLevel (s : Sanitizers) (e : List UInt8) (file : String) (line : Int)
    (cut : Call → Bool) : Prop :=
  Level e ((s.removedCalls e file line cut).map (·.span))

instance : Decidable (s.RemovesLevel e file line cut) :=
  inferInstanceAs (Decidable (Level _ _))

/-- The residual names of an expression are the names that it reads outside the removed calls. -/
theorem mem_residualNames_iff (hlevel : s.RemovesLevel e file line cut) {name : String} :
    name ∈ s.residualNames e file line cut ↔ name ∉ keywords ∧ ∃ c ∈ chains e, c.name = name ∧
      overwritten ((s.removedCalls e file line cut).map (·.span)) c.span.start = false := by
  have hcalls : s.removedCalls e file line cut ⊆ calls e := by
    intro c hc
    obtain hc | ⟨hc, -⟩ := mem_of_mem_cutCalls hc
    · cases hc
    · exact hc
  have hkeyword : (!keywords.contains name) = true ↔ name ∉ keywords := by simp
  rw [residualNames, identifiers, chains_blank (rooted_calls hcalls) hlevel, mem_firsts,
    List.mem_filter, hkeyword, List.mem_map, and_comm]
  refine and_congr_right fun _ => exists_congr fun c => ?_
  rw [List.mem_filter, Bool.not_eq_true', and_assoc, and_comm (b := c.name = name)]

/-- **More sanitizers never expose more names**: when what they remove is level, the names that are
left are among those that fewer sanitizers leave, and among those of the expression. -/
theorem residualNames_anti (s s' : Sanitizers) (hpart : PartOf s s') (e : List UInt8)
    (file : String) (line : Int) (cut : Call → Bool) (hlevel : s.RemovesLevel e file line cut)
    (hlevel' : s'.RemovesLevel e file line cut) :
    s'.residualNames e file line cut ⊆ s.residualNames e file line cut ∧
      s.residualNames e file line cut ⊆ identifiers e := by
  constructor
  · intro name hname
    obtain ⟨hkeyword, c, hc, hname, hfree⟩ := (mem_residualNames_iff hlevel').mp hname
    refine (mem_residualNames_iff hlevel).mpr ⟨hkeyword, c, hc, hname, ?_⟩
    rw [← Bool.not_eq_true] at hfree ⊢
    exact fun hover => hfree (hpart.overwritten hover)
  · intro name hname
    obtain ⟨hkeyword, c, hc, hname, -⟩ := (mem_residualNames_iff hlevel).mp hname
    rw [identifiers, mem_firsts, List.mem_filter]
    exact ⟨hname ▸ List.mem_map_of_mem hc, by simpa using hkeyword⟩

/-- In the text `` `${escape(cleanX(a), b)} ${c}` `` a second sanitizer removes no less. -/
theorem residualNames_anti_template :
    let e := "`${escape(cleanX(a), b)} ${c}`".toUTF8.toList
    let s : Sanitizers := ⟨["cleanX"], []⟩
    let s' : Sanitizers := ⟨["cleanX", "escape"], []⟩
    (s'.residualNames e "app.js" 1 noCut = ["c"] ∧
      s.residualNames e "app.js" 1 noCut = ["escape", "b", "c"]) ∧
    (s'.residualNames e "app.js" 1 noCut ⊆ s.residualNames e "app.js" 1 noCut ∧
      s.residualNames e "app.js" 1 noCut ⊆ identifiers e) := by
  intro e s s'
  refine ⟨by decide +kernel, ?_⟩
  exact residualNames_anti s s' ⟨by decide, by decide⟩ e "app.js" 1 noCut (by decide +kernel)
    (by decide +kernel)

/-- The parenthesis of a call is looked for without regard to the literal that the call stands in.
In `` `${escape(/[(]/)}) id` `` it is found in the text of the template; with the bytes up to it goes
the brace that closes the substitution, and the text behind it is read as code. -/
theorem residualNames_exposes_text :
    let e := "`${escape(/[(]/)}) id`".toUTF8.toList
    let s : Sanitizers := ⟨[], []⟩
    let s' : Sanitizers := ⟨["escape"], []⟩
    PartOf s s' ∧ s'.residualNames e "app.js" 1 noCut = ["id"] ∧
      ¬ s'.residualNames e "app.js" 1 noCut ⊆ s.residualNames e "app.js" 1 noCut ∧
      ¬ s'.residualNames e "app.js" 1 noCut ⊆ identifiers e := by
  intro e s s'
  exact ⟨⟨List.nil_subset _, List.nil_subset _⟩, by decide +kernel⟩

end

end TaintFlow.Sanitizers
