import TaintFlow.Proofs.Flow.Collections
import TaintFlow.Proofs.Flow.Fixpoint
import TaintFlow.Proofs.Flow.VisitingOrder

/-!
# The order in which results are joined

The results of a round may be joined in any order, and the entries of each result too.  A collection
of best chains holds the least of all chains offered for a key, and the order of chains only fails
to tell chains apart that show the same.  Parameters are sets of bits.  A function becomes due when
the summary of a callee is improved by some result, or when some result marks a parameter of it that
was not marked, and whichever comes first, it stays due.

## Main definitions

* `Best.Alike` — two collections hold chains for the same keys, and those show the same.
* `SameOffers`, `SameResults` — the same offers, and the same results, in any order.
* `Knowledge.Alike` — what is known is the same.
* `Knowledge.Marks` — a result makes a function due.

## Main results

* `Best.alike_offerAll` — the order of offers does not matter.
* `Knowledge.getD_due_foldl_merge` — what is due after joining results.
* `Knowledge.alike_foldl_merge` — the order of results does not matter.
-/

namespace TaintFlow

namespace Flow

/-! ### Chains that show the same -/

/-- Every chain that is offered has one that shows the same among other offers. -/
def Offered {κ : Type} (es es' : List (κ × Chain)) : Prop :=
  ∀ k c, (k, c) ∈ es → ∃ d, (k, d) ∈ es' ∧ c.view = d.view

/-- The same chains are offered, as to what they show. -/
def SameOffers {κ : Type} (es es' : List (κ × Chain)) : Prop :=
  Offered es es' ∧ Offered es' es

theorem SameOffers.symm {κ : Type} {es es' : List (κ × Chain)} (h : SameOffers es es') :
    SameOffers es' es :=
  ⟨h.2, h.1⟩

theorem SameOffers.trans {κ : Type} {es es' es'' : List (κ × Chain)} (h : SameOffers es es')
    (h' : SameOffers es' es'') : SameOffers es es'' := by
  have htrans : ∀ {es es' es'' : List (κ × Chain)}, Offered es es' → Offered es' es'' →
      Offered es es'' := by
    intro es es' es'' h h' k c hc
    obtain ⟨d, hd, hview⟩ := h k c hc
    obtain ⟨e, he, hview'⟩ := h' k d hd
    exact ⟨e, he, hview.trans hview'⟩
  exact ⟨htrans h.1 h'.1, htrans h'.2 h.2⟩

/-- Offers in another order. -/
theorem sameOffers_of_perm {κ : Type} {es es' : List (κ × Chain)} (h : es.Perm es') :
    SameOffers es es' :=
  ⟨fun _ c hc => ⟨c, h.mem_iff.mp hc, rfl⟩, fun _ c hc => ⟨c, h.mem_iff.mpr hc, rfl⟩⟩

namespace Best

variable {κ : Type} [BEq κ]

/-- Two collections hold chains for the same keys, and those show the same. -/
def Alike (m m' : Best κ) : Prop :=
  m.SameBy (fun c d => c.view = d.view) m'

theorem Alike.refl (m : Best κ) : m.Alike m := by
  intro k
  cases m.get? k with
  | none => exact .none
  | some c => exact .some rfl

theorem Alike.symm {m m' : Best κ} (h : m.Alike m') : m'.Alike m := by
  intro k
  have hk := h k
  revert hk
  cases m.get? k <;> cases m'.get? k <;> intro hk <;> cases hk
  · exact .none
  · next hview => exact .some hview.symm

theorem Alike.exists_get? {m m' : Best κ} (h : m.Alike m') {k : κ} {c : Chain}
    (hc : m.get? k = some c) : ∃ d, m'.get? k = some d ∧ c.view = d.view := by
  have hk := h k
  rw [hc] at hk
  revert hk
  cases m'.get? k with
  | none => intro hk; cases hk
  | some d => intro hk; cases hk; exact ⟨d, rfl, ‹_›⟩

theorem Alike.covers {m m' : Best κ} (h : m.Alike m') {k : κ} {c d : Chain} (hc : m.Covers k c)
    (hview : c.view = d.view) : m'.Covers k d := by
  obtain ⟨e, he, hle⟩ := hc
  obtain ⟨e', he', hview'⟩ := h.exists_get? he
  exact ⟨e', he', Std.TransCmp.isLE_trans (isLE_of_view hview'.symm)
    (Std.TransCmp.isLE_trans hle (isLE_of_view hview))⟩

/-- Collections each of which covers what the other one holds are alike. -/
theorem alike_of_covers {m m' : Best κ} (h : ∀ k c, m.get? k = some c → m'.Covers k c)
    (h' : ∀ k c, m'.get? k = some c → m.Covers k c) : m.Alike m' := by
  intro k
  cases hc : m.get? k with
  | none =>
    cases hd : m'.get? k with
    | none => exact .none
    | some d =>
      obtain ⟨c, hc', -⟩ := h' k d hd
      rw [hc] at hc'
      cases hc'
  | some c =>
    obtain ⟨d, hd, hdc⟩ := h k c hc
    obtain ⟨c', hc', hcd⟩ := h' k d hd
    obtain rfl : c = c' := Option.some.inj (hc.symm.trans hc')
    rw [hd]
    exact .some (view_eq_of_isLE hcd hdc)

theorem coversAll_of_alike {m m' : Best κ} {other other' : Best κ} (h : m.Alike m')
    (ho : Offered other'.entries other.entries) (hall : m.CoversAll other) :
    m'.CoversAll other' := by
  intro k c hc
  obtain ⟨d, hd, hview⟩ := ho k c hc
  exact h.covers (hall k d hd) hview.symm

/-- Whether something better is offered does not depend on the order. -/
theorem improvedBy_eq {m m' other other' : Best κ} (h : m.Alike m')
    (ho : SameOffers other.entries other'.entries) : m.improvedBy other = m'.improvedBy other' := by
  rw [Bool.eq_iff_iff, ← Bool.not_eq_false, ← Bool.not_eq_false (m'.improvedBy other'),
    ← coversAll_iff_improvedBy, ← coversAll_iff_improvedBy]
  exact not_congr ⟨coversAll_of_alike h ho.2, coversAll_of_alike h.symm ho.1⟩

variable [LawfulBEq κ]

/-- All that is held after some offers is covered after the same offers in another order. -/
theorem covers_offerAll_of_alike {m m' : Best κ} {es es' : List (κ × Chain)} (h : m.Alike m')
    (hes : Offered es es') {k : κ} {c : Chain} (hc : (m.offerAll es).get? k = some c) :
    (m'.offerAll es').Covers k c := by
  rcases get?_offerAll hc with hc | hc
  · exact (h.covers ⟨c, hc, isLE_compareChains_self c⟩ rfl).offerAll es'
  · obtain ⟨d, hd, hview⟩ := hes k c hc
    exact (covers_offerAll m' hd).of_isLE (isLE_of_view hview.symm)

/-- **The order of offers does not matter.** -/
theorem alike_offerAll {m m' : Best κ} {es es' : List (κ × Chain)} (h : m.Alike m')
    (hes : SameOffers es es') : (m.offerAll es).Alike (m'.offerAll es') :=
  alike_of_covers (fun _ _ hc => covers_offerAll_of_alike h hes.1 hc)
    fun _ _ hc => covers_offerAll_of_alike h.symm hes.2 hc

end Best

/-! ### Results -/

/-- Two summaries hold chains for the same keys, and those show the same. -/
structure Summary.Alike (a b : Summary) : Prop where
  sinks : a.sinks.Alike b.sinks
  returns : a.returns.Alike b.returns
  intrinsic : a.intrinsic.Alike b.intrinsic

/-- Two summaries offer the same chains. -/
structure Summary.SameOffers (a b : Summary) : Prop where
  sinks : Flow.SameOffers a.sinks.entries b.sinks.entries
  returns : Flow.SameOffers a.returns.entries b.returns.entries
  intrinsic : Flow.SameOffers a.intrinsic.entries b.intrinsic.entries

/-- Two results of one function offer the same chains and mark the same parameters. -/
structure FunctionResult.SameOffers (r r' : FunctionResult) : Prop where
  function : r'.function = r.function
  flows : Flow.SameOffers r.records.flows.entries r'.records.flows.entries
  summary : r.records.summary.SameOffers r'.records.summary
  args : ∀ a, a ∈ r.records.args ↔ a ∈ r'.records.args
  cancelled : r'.cancelled = r.cancelled

/-- The same results, in any order. -/
def SameResults (rs rs' : List FunctionResult) : Prop :=
  (∀ r ∈ rs, ∃ r' ∈ rs', r.SameOffers r') ∧ ∀ r' ∈ rs', ∃ r ∈ rs, r.SameOffers r'

namespace Summary

theorem Alike.refl (a : Summary) : a.Alike a :=
  ⟨.refl _, .refl _, .refl _⟩

theorem Alike.symm {a b : Summary} (h : a.Alike b) : b.Alike a :=
  ⟨h.sinks.symm, h.returns.symm, h.intrinsic.symm⟩

theorem SameOffers.symm {a b : Summary} (h : a.SameOffers b) : b.SameOffers a :=
  ⟨h.sinks.symm, h.returns.symm, h.intrinsic.symm⟩

theorem improvedBy_eq {a a' b b' : Summary} (h : a.Alike a') (hb : b.SameOffers b') :
    a.improvedBy b = a'.improvedBy b' := by
  rw [improvedBy, improvedBy, Best.improvedBy_eq h.sinks hb.sinks,
    Best.improvedBy_eq h.returns hb.returns, Best.improvedBy_eq h.intrinsic hb.intrinsic]

/-- Joining what is covered changes nothing. -/
theorem CoversAll.join_eq {a b : Summary} (h : a.CoversAll b) : a.join b = a := by
  rw [join, h.sinks.join_eq, h.returns.join_eq, h.intrinsic.join_eq]

/-- Many joins are many offers. -/
theorem foldl_join (a : Summary) (sms : List Summary) : sms.foldl join a =
    ⟨a.sinks.offerAll (sms.flatMap (·.sinks.entries)),
      a.returns.offerAll (sms.flatMap (·.returns.entries)),
      a.intrinsic.offerAll (sms.flatMap (·.intrinsic.entries))⟩ := by
  induction sms generalizing a with
  | nil => rfl
  | cons sm sms ih =>
    rw [List.foldl_cons, ih, List.flatMap_cons, List.flatMap_cons, List.flatMap_cons,
      Best.offerAll_append, Best.offerAll_append, Best.offerAll_append]
    rfl

end Summary

/-- The results of one function among the same results in another order. -/
theorem SameResults.filter {rs rs' : List FunctionResult} (h : SameResults rs rs') (f : Nat) :
    SameResults (rs.filter (·.function == f)) (rs'.filter (·.function == f)) := by
  refine ⟨fun r hr => ?_, fun r' hr' => ?_⟩
  · obtain ⟨hr, hf⟩ := List.mem_filter.mp hr
    obtain ⟨r', hr', hsame⟩ := h.1 r hr
    exact ⟨r', List.mem_filter.mpr ⟨hr', by rw [hsame.function]; exact hf⟩, hsame⟩
  · obtain ⟨hr', hf⟩ := List.mem_filter.mp hr'
    obtain ⟨r, hr, hsame⟩ := h.2 r' hr'
    exact ⟨r, List.mem_filter.mpr ⟨hr, by rw [← hsame.function]; exact hf⟩, hsame⟩

/-- What results offer together does not depend on their order. -/
theorem SameResults.flatMap {rs rs' : List FunctionResult} (h : SameResults rs rs') {κ : Type}
    {offers : FunctionResult → List (κ × Chain)}
    (hoffers : ∀ r r', r.SameOffers r' → SameOffers (offers r) (offers r')) :
    SameOffers (rs.flatMap offers) (rs'.flatMap offers) := by
  refine ⟨fun k c hc => ?_, fun k c hc => ?_⟩
  · obtain ⟨r, hr, hc⟩ := List.mem_flatMap.mp hc
    obtain ⟨r', hr', hsame⟩ := h.1 r hr
    obtain ⟨d, hd, hview⟩ := (hoffers r r' hsame).1 k c hc
    exact ⟨d, List.mem_flatMap.mpr ⟨r', hr', hd⟩, hview⟩
  · obtain ⟨r', hr', hc⟩ := List.mem_flatMap.mp hc
    obtain ⟨r, hr, hsame⟩ := h.2 r' hr'
    obtain ⟨d, hd, hview⟩ := (hoffers r r' hsame).2 k c hc
    exact ⟨d, List.mem_flatMap.mpr ⟨r, hr, hd⟩, hview⟩

namespace Knowledge

variable {p : Program} {k k' : Knowledge}

/-! ### Marked parameters -/

theorem params_addParam (p : Program) (k : Knowledge) (callee param : Nat) :
    (k.addParam p callee param).params =
      k.params.setIfInBounds callee (k.params.getD callee 0 ||| Bits.single param) := by
  by_cases hold : k.params.getD callee 0 ||| Bits.single param = k.params.getD callee 0
  · simp only [addParam, hold, beq_self_eq_true, if_true, setIfInBounds_getD_self]
  · simp only [addParam, beq_eq_false_iff_ne.mpr hold, Bool.false_eq_true, if_false]

theorem testBit_params_addParam (p : Program) (k : Knowledge) (a : Nat × Nat) (g i : Nat) :
    ((k.addParam p a.1 a.2).params.getD g 0).testBit i = true ↔
      (k.params.getD g 0).testBit i = true ∨ g < k.params.size ∧ (g, i) = a := by
  rw [params_addParam, getD_setIfInBounds]
  split
  · next heq =>
    obtain ⟨rfl, hlt⟩ := heq
    rw [Nat.testBit_or, Bits.testBit_single, Bool.or_eq_true, decide_eq_true_eq]
    refine or_congr_right ⟨fun h => ⟨hlt, by rw [← h]⟩, fun h => ?_⟩
    exact (congrArg Prod.snd h.2).symm
  · next hne =>
    refine ⟨Or.inl, fun h => h.resolve_right fun h => hne ?_⟩
    rw [← h.2]
    exact ⟨rfl, h.1⟩

theorem testBit_params_foldl_addParam (p : Program) (args : List (Nat × Nat)) (g i : Nat) :
    ∀ k : Knowledge,
      ((args.foldl (fun k e => k.addParam p e.1 e.2) k).params.getD g 0).testBit i = true ↔
        (k.params.getD g 0).testBit i = true ∨ g < k.params.size ∧ (g, i) ∈ args := by
  induction args with
  | nil => simp
  | cons a args ih =>
    intro k
    rw [List.foldl_cons, ih, testBit_params_addParam, params_addParam, Array.size_setIfInBounds,
      List.mem_cons, or_assoc, ← and_or_left]

/-! ### The parts of a join -/

/-- Adding a parameter changes nothing but parameters and what is due. -/
theorem addParam_frame (p : Program) (k : Knowledge) (callee param : Nat) :
    (k.addParam p callee param).summaries = k.summaries ∧
      (k.addParam p callee param).rounds = k.rounds ∧
      (k.addParam p callee param).params.size = k.params.size ∧
      (k.addParam p callee param).due.size = k.due.size := by
  rw [params_addParam, Array.size_setIfInBounds]
  unfold addParam
  simp only [apply_ite Knowledge.summaries, apply_ite Knowledge.rounds, apply_ite Knowledge.due,
    ite_self, apply_ite Array.size, size_markDue, and_self]

theorem foldl_addParam_frame (p : Program) (args : List (Nat × Nat)) : ∀ k : Knowledge,
    (args.foldl (fun k e => k.addParam p e.1 e.2) k).summaries = k.summaries ∧
      (args.foldl (fun k e => k.addParam p e.1 e.2) k).rounds = k.rounds ∧
      (args.foldl (fun k e => k.addParam p e.1 e.2) k).params.size = k.params.size ∧
      (args.foldl (fun k e => k.addParam p e.1 e.2) k).due.size = k.due.size := by
  induction args with
  | nil => intro k; exact ⟨rfl, rfl, rfl, rfl⟩
  | cons a args ih =>
    intro k
    obtain ⟨hsummaries, hrounds, hparams, hdue⟩ := addParam_frame p k a.1 a.2
    obtain ⟨hsummaries', hrounds', hparams', hdue'⟩ := ih (k.addParam p a.1 a.2)
    exact ⟨hsummaries'.trans hsummaries, hrounds'.trans hrounds, hparams'.trans hparams,
      hdue'.trans hdue⟩

/-- Joining a summary is a join whether it improves the one known or not. -/
theorem summaries_mergeSummary (p : Program) (k : Knowledge) (i : Nat) (sm : Summary) :
    (k.mergeSummary p i sm).summaries =
      k.summaries.setIfInBounds i ((k.summaries.getD i {}).join sm) := by
  by_cases himp : (k.summaries.getD i {}).improvedBy sm = true
  · simp only [mergeSummary, himp, if_true]
  · have hjoin := (Summary.coversAll_iff_improvedBy.mpr (Bool.not_eq_true _ ▸ himp)).join_eq
    simp only [mergeSummary, himp, Bool.false_eq_true, if_false]
    rw [hjoin, setIfInBounds_getD_self]

theorem merge_frame (p : Program) (k : Knowledge) (r : FunctionResult) :
    (k.merge p r).summaries.size = k.summaries.size ∧ (k.merge p r).rounds = k.rounds ∧
      (k.merge p r).params.size = k.params.size ∧ (k.merge p r).due.size = k.due.size := by
  have hsummary : ∀ (k : Knowledge) (i : Nat) (sm : Summary),
      (k.mergeSummary p i sm).summaries.size = k.summaries.size ∧
        (k.mergeSummary p i sm).rounds = k.rounds ∧ (k.mergeSummary p i sm).params = k.params ∧
        (k.mergeSummary p i sm).due.size = k.due.size := by
    intro k i sm
    rw [summaries_mergeSummary, Array.size_setIfInBounds, params_mergeSummary]
    unfold mergeSummary
    simp only [apply_ite Knowledge.rounds, apply_ite Knowledge.due, ite_self, apply_ite Array.size,
      size_foldl_markDue, and_self]
  obtain ⟨hs, hr, hp, hd⟩ := hsummary { k with flows := k.flows.join r.records.flows } r.function
    r.records.summary
  obtain ⟨hs', hr', hp', hd'⟩ := foldl_addParam_frame p r.records.args
    (({ k with flows := k.flows.join r.records.flows } : Knowledge).mergeSummary p r.function
      r.records.summary)
  exact ⟨(congrArg Array.size hs').trans hs, hr'.trans hr, hp'.trans (congrArg Array.size hp),
    hd'.trans hd⟩

theorem summary_merge (p : Program) (k : Knowledge) (r : FunctionResult) (f : Nat) :
    (k.merge p r).snapshot.summary f =
      if r.function = f ∧ r.function < k.summaries.size then
        (k.snapshot.summary f).join r.records.summary
      else k.snapshot.summary f := by
  have hargs := (foldl_addParam_frame p r.records.args
    (({ k with flows := k.flows.join r.records.flows } : Knowledge).mergeSummary p r.function
      r.records.summary)).1
  have hsummaries : (k.merge p r).summaries = k.summaries.setIfInBounds r.function
      ((k.summaries.getD r.function {}).join r.records.summary) :=
    hargs.trans (summaries_mergeSummary p _ _ _)
  rw [Snapshot.summary, Knowledge.snapshot, hsummaries, getD_setIfInBounds]
  split
  · next heq => rw [← heq.1]; rfl
  · rfl

theorem testBit_params_merge (p : Program) (k : Knowledge) (r : FunctionResult) (g i : Nat) :
    ((k.merge p r).params.getD g 0).testBit i = true ↔
      (k.params.getD g 0).testBit i = true ∨ g < k.params.size ∧ (g, i) ∈ r.records.args := by
  have hargs := testBit_params_foldl_addParam p r.records.args g i
    (({ k with flows := k.flows.join r.records.flows } : Knowledge).mergeSummary p r.function
      r.records.summary)
  rw [params_mergeSummary] at hargs
  exact hargs

/-! ### What is due after a join -/

/-- A result makes a function due: it improves the summary of a callee, or it marks a parameter of
the function that was not marked. -/
def Marks (p : Program) (k : Knowledge) (r : FunctionResult) (f : Nat) : Prop :=
  f ∈ p.callers r.function ∧
      (k.snapshot.summary r.function).improvedBy r.records.summary = true ∨
    ∃ i, (f, i) ∈ r.records.args ∧ (k.params.getD f 0).testBit i = false

theorem getD_due_addParam (p : Program) (k : Knowledge) (a : Nat × Nat) {f : Nat}
    (hlt : f < k.due.size) :
    (k.addParam p a.1 a.2).due.getD f false =
      if a.1 = f ∧ (k.params.getD f 0).testBit a.2 = false then p.canAnalyze f
      else k.due.getD f false := by
  cases hbit : (k.params.getD a.1 0).testBit a.2 with
  | true =>
    -- the parameter is marked already
    have hsame := Bits.or_single_eq_self.mpr hbit
    simp only [addParam, hsame, beq_self_eq_true, if_true]
    rw [if_neg]
    rintro ⟨rfl, hnot⟩
    rw [hbit] at hnot
    cases hnot
  | false =>
    have hnew : (k.params.getD a.1 0 ||| Bits.single a.2 == k.params.getD a.1 0) = false := by
      rw [beq_eq_false_iff_ne]
      intro hsame
      rw [Bits.or_single_eq_self.mp hsame] at hbit
      cases hbit
    simp only [addParam, hnew, Bool.false_eq_true, if_false]
    rw [getD_markDue]
    by_cases ha : a.1 = f
    · subst ha
      rw [if_pos ⟨rfl, hlt⟩, if_pos ⟨rfl, hbit⟩]
    · rw [if_neg fun h => ha h.1, if_neg fun h => ha h.1]

/-- What a list of parameters makes due, once one of them is new. -/
theorem getD_due_foldl_addParam (p : Program) {f : Nat} (args : List (Nat × Nat)) :
    ∀ k : Knowledge, f < k.due.size →
      ((∃ i, (f, i) ∈ args ∧ (k.params.getD f 0).testBit i = false) →
        (args.foldl (fun k e => k.addParam p e.1 e.2) k).due.getD f false = p.canAnalyze f) ∧
      ((¬ ∃ i, (f, i) ∈ args ∧ (k.params.getD f 0).testBit i = false) →
        (args.foldl (fun k e => k.addParam p e.1 e.2) k).due.getD f false =
          k.due.getD f false) := by
  induction args with
  | nil => intro k _; exact ⟨fun h => absurd h.choose_spec.1 List.not_mem_nil, fun _ => rfl⟩
  | cons a args ih =>
    intro k hlt
    have hdue := getD_due_addParam p k a hlt
    obtain ⟨hmarked, hother⟩ := ih (k.addParam p a.1 a.2)
      (by rw [(addParam_frame p k a.1 a.2).2.2.2]; exact hlt)
    rw [List.foldl_cons]
    by_cases hfirst : a.1 = f ∧ (k.params.getD f 0).testBit a.2 = false
    · -- it is due from now on, whatever follows
      have hfinal : (args.foldl (fun k e => k.addParam p e.1 e.2) (k.addParam p a.1 a.2)).due.getD f
          false = p.canAnalyze f := by
        rw [if_pos hfirst] at hdue
        by_cases hmore : ∃ i, (f, i) ∈ args ∧
            ((k.addParam p a.1 a.2).params.getD f 0).testBit i = false
        · exact hmarked hmore
        · rw [hother hmore, hdue]
      refine ⟨fun _ => hfinal, fun hnot => absurd ⟨a.2, ?_, hfirst.2⟩ hnot⟩
      rw [← hfirst.1]
      exact List.mem_cons_self
    · -- the parameters of the function are as before
      have hsame : ∀ i, ((k.addParam p a.1 a.2).params.getD f 0).testBit i =
          (k.params.getD f 0).testBit i := by
        intro i
        rw [Bool.eq_iff_iff, testBit_params_addParam]
        refine ⟨fun h => h.elim id fun h => ?_, Or.inl⟩
        cases hbit : (k.params.getD f 0).testBit i with
        | true => rfl
        | false => exact absurd ⟨by rw [← h.2], by rw [← h.2]; exact hbit⟩ hfirst
      have hiff : (∃ i, (f, i) ∈ a :: args ∧ (k.params.getD f 0).testBit i = false) ↔
          ∃ i, (f, i) ∈ args ∧ ((k.addParam p a.1 a.2).params.getD f 0).testBit i = false := by
        refine exists_congr fun i => ?_
        rw [hsame, List.mem_cons]
        refine and_congr_left fun hbit => ⟨fun h => h.resolve_left fun h => hfirst ?_, Or.inr⟩
        rw [← h]
        exact ⟨rfl, hbit⟩
      rw [if_neg hfirst] at hdue
      rw [hiff, ← hdue]
      exact ⟨hmarked, hother⟩

theorem getD_foldl_markDue_eq (p : Program) {f : Nat} (is : List Nat) : ∀ due : Array Bool,
    f < due.size → (is.foldl (markDue p) due).getD f false =
      if f ∈ is then p.canAnalyze f else due.getD f false := by
  induction is with
  | nil => intro due _; rw [if_neg List.not_mem_nil]; rfl
  | cons i is ih =>
    intro due hlt
    rw [List.foldl_cons, ih _ (by rw [size_markDue]; exact hlt), getD_markDue]
    by_cases hmem : f ∈ is
    · rw [if_pos hmem, if_pos (List.mem_cons_of_mem _ hmem)]
    · rw [if_neg hmem]
      by_cases hi : i = f
      · subst hi
        rw [if_pos ⟨rfl, hlt⟩, if_pos List.mem_cons_self]
      · have hnot : f ∉ i :: is := by
          rw [List.mem_cons]
          exact fun h => h.elim (fun h => hi h.symm) hmem
        rw [if_neg fun h => hi h.1, if_neg hnot]

theorem getD_due_mergeSummary (p : Program) (k : Knowledge) (i : Nat) (sm : Summary) {f : Nat}
    (hlt : f < k.due.size) :
    (k.mergeSummary p i sm).due.getD f false =
      if f ∈ p.callers i ∧ (k.snapshot.summary i).improvedBy sm = true then p.canAnalyze f
      else k.due.getD f false := by
  by_cases himp : (k.snapshot.summary i).improvedBy sm = true
  · have hdue : (k.mergeSummary p i sm).due = (p.callers i).foldl (markDue p) k.due := by
      have himp : (k.summaries.getD i {}).improvedBy sm = true := himp
      simp only [mergeSummary, himp, if_true]
    rw [hdue, getD_foldl_markDue_eq p _ _ hlt]
    simp [himp]
  · have hdue : (k.mergeSummary p i sm).due = k.due := by
      have himp : ¬ (k.summaries.getD i {}).improvedBy sm = true := himp
      simp only [mergeSummary, himp, Bool.false_eq_true, if_false]
    rw [hdue, if_neg fun h => himp h.2]

/-- What a result makes due. -/
theorem getD_due_merge (p : Program) (k : Knowledge) (r : FunctionResult) {f : Nat}
    (hlt : f < k.due.size) :
    (k.Marks p r f → (k.merge p r).due.getD f false = p.canAnalyze f) ∧
      (¬ k.Marks p r f → (k.merge p r).due.getD f false = k.due.getD f false) := by
  have hsummary : (({ k with flows := k.flows.join r.records.flows } : Knowledge).mergeSummary p
      r.function r.records.summary).due.getD f false =
      if f ∈ p.callers r.function ∧
          (k.snapshot.summary r.function).improvedBy r.records.summary = true then p.canAnalyze f
      else k.due.getD f false := getD_due_mergeSummary p _ _ _ hlt
  have hsize : f < (({ k with flows := k.flows.join r.records.flows } : Knowledge).mergeSummary p
      r.function r.records.summary).due.size := by
    unfold mergeSummary
    simp only [apply_ite Knowledge.due, apply_ite Array.size, size_foldl_markDue, ite_self]
    exact hlt
  obtain ⟨hmarked, hother⟩ := getD_due_foldl_addParam p r.records.args _ hsize
  rw [params_mergeSummary] at hmarked hother
  refine ⟨fun hmarks => ?_, fun hnot => ?_⟩
  · by_cases hparam : ∃ i, (f, i) ∈ r.records.args ∧ (k.params.getD f 0).testBit i = false
    · exact hmarked hparam
    · have hcaller := hmarks.resolve_right hparam
      rw [if_pos hcaller] at hsummary
      exact (hother hparam).trans hsummary
  · rw [if_neg fun h => hnot (Or.inl h)] at hsummary
    exact (hother fun h => hnot (Or.inr h)).trans hsummary

/-- A result that makes nothing due for a function leaves open what else does. -/
theorem marks_merge_iff {r r' : FunctionResult} {f : Nat} (hnot : ¬ k.Marks p r f) :
    (k.merge p r).Marks p r' f ↔ k.Marks p r' f := by
  have hext := extends_merge p k r
  constructor
  · -- what improves more improves less
    rintro (⟨hcaller, himp⟩ | ⟨i, hi, hbit⟩)
    · refine Or.inl ⟨hcaller, ?_⟩
      by_contra hcovers
      rw [Bool.not_eq_true, ← Summary.coversAll_iff_improvedBy] at hcovers
      rw [Summary.coversAll_iff_improvedBy.mp (hcovers.mono (hext.summary _))] at himp
      cases himp
    · refine Or.inr ⟨i, hi, ?_⟩
      cases hold : (k.params.getD f 0).testBit i with
      | false => rfl
      | true => rw [hext.params f i hold] at hbit; cases hbit
  · rintro (⟨hcaller, himp⟩ | ⟨i, hi, hbit⟩)
    · refine Or.inl ⟨hcaller, ?_⟩
      rw [summary_merge]
      split
      · next heq =>
        -- the same callee was not improved by the first result
        obtain ⟨hfun, -⟩ := heq
        have hcovers : (k.snapshot.summary r'.function).improvedBy r.records.summary = false := by
          rw [← Bool.not_eq_true]
          intro h
          exact hnot (Or.inl ⟨hfun ▸ hcaller, hfun ▸ h⟩)
        rw [(Summary.coversAll_iff_improvedBy.mpr hcovers).join_eq]
        exact himp
      · exact himp
    · refine Or.inr ⟨i, hi, ?_⟩
      rw [← Bool.not_eq_true, testBit_params_merge]
      rintro (h | ⟨-, h⟩)
      · rw [hbit] at h
        cases h
      · exact hnot (Or.inr ⟨i, h, hbit⟩)

/-- **What is due after joining results**: all that some of them makes due, and what was due. -/
theorem getD_due_foldl_merge (p : Program) {f : Nat} (rs : List FunctionResult) : ∀ k : Knowledge,
    f < k.due.size →
      ((∃ r ∈ rs, k.Marks p r f) →
        (rs.foldl (Knowledge.merge p) k).due.getD f false = p.canAnalyze f) ∧
      ((¬ ∃ r ∈ rs, k.Marks p r f) →
        (rs.foldl (Knowledge.merge p) k).due.getD f false = k.due.getD f false) := by
  induction rs with
  | nil => intro k _; exact ⟨fun h => absurd h.choose_spec.1 List.not_mem_nil, fun _ => rfl⟩
  | cons r rs ih =>
    intro k hlt
    obtain ⟨hfirst, hunchanged⟩ := getD_due_merge p k r hlt
    obtain ⟨hmarked, hother⟩ := ih (k.merge p r) (by rw [(merge_frame p k r).2.2.2]; exact hlt)
    rw [List.foldl_cons]
    by_cases hmarks : k.Marks p r f
    · -- it is due from now on, whatever follows
      have hfinal : (rs.foldl (Knowledge.merge p) (k.merge p r)).due.getD f false =
          p.canAnalyze f := by
        by_cases hmore : ∃ r' ∈ rs, (k.merge p r).Marks p r' f
        · exact hmarked hmore
        · rw [hother hmore, hfirst hmarks]
      exact ⟨fun _ => hfinal, fun hnot => absurd ⟨r, List.mem_cons_self, hmarks⟩ hnot⟩
    · have hiff : (∃ r' ∈ r :: rs, k.Marks p r' f) ↔ ∃ r' ∈ rs, (k.merge p r).Marks p r' f := by
        simp only [List.exists_mem_cons_iff, hmarks, false_or, marks_merge_iff hmarks]
      rw [hiff, ← hunchanged hmarks]
      exact ⟨hmarked, hother⟩

/-! ### The order of results -/

theorem foldl_merge_frame (p : Program) (rs : List FunctionResult) : ∀ k : Knowledge,
    (rs.foldl (Knowledge.merge p) k).summaries.size = k.summaries.size ∧
      (rs.foldl (Knowledge.merge p) k).rounds = k.rounds ∧
      (rs.foldl (Knowledge.merge p) k).params.size = k.params.size ∧
      (rs.foldl (Knowledge.merge p) k).due.size = k.due.size := by
  induction rs with
  | nil => intro k; exact ⟨rfl, rfl, rfl, rfl⟩
  | cons r rs ih =>
    intro k
    obtain ⟨hsummaries, hrounds, hparams, hdue⟩ := merge_frame p k r
    obtain ⟨hsummaries', hrounds', hparams', hdue'⟩ := ih (k.merge p r)
    exact ⟨hsummaries'.trans hsummaries, hrounds'.trans hrounds, hparams'.trans hparams,
      hdue'.trans hdue⟩

theorem flows_foldl_merge (p : Program) (rs : List FunctionResult) (k : Knowledge) :
    (rs.foldl (Knowledge.merge p) k).flows =
      k.flows.offerAll (rs.flatMap (·.records.flows.entries)) := by
  induction rs generalizing k with
  | nil => rfl
  | cons r rs ih =>
    rw [List.foldl_cons, ih, flows_merge, List.flatMap_cons, Best.offerAll_append]
    rfl

theorem summary_foldl_merge (p : Program) (f : Nat) (rs : List FunctionResult) (k : Knowledge) :
    (rs.foldl (Knowledge.merge p) k).snapshot.summary f =
      if f < k.summaries.size then
        ((rs.filter (·.function == f)).map (·.records.summary)).foldl Summary.join
          (k.snapshot.summary f)
      else k.snapshot.summary f := by
  induction rs generalizing k with
  | nil => simp
  | cons r rs ih =>
    rw [List.foldl_cons, ih, (merge_frame p k r).1, summary_merge]
    by_cases hf : r.function = f
    · subst hf
      by_cases hlt : r.function < k.summaries.size
      · simp [hlt]
      · simp [hlt]
    · have hne : (r.function == f) = false := beq_eq_false_iff_ne.mpr hf
      rw [List.filter_cons_of_neg (by rw [hne]; exact Bool.false_ne_true)]
      simp only [hf, false_and, if_false]

theorem testBit_params_foldl_merge (p : Program) (rs : List FunctionResult) (g i : Nat) :
    ∀ k : Knowledge, ((rs.foldl (Knowledge.merge p) k).params.getD g 0).testBit i = true ↔
      (k.params.getD g 0).testBit i = true ∨
        g < k.params.size ∧ ∃ r ∈ rs, (g, i) ∈ r.records.args := by
  induction rs with
  | nil => simp
  | cons r rs ih =>
    intro k
    rw [List.foldl_cons, ih, testBit_params_merge, (merge_frame p k r).2.2.1,
      List.exists_mem_cons_iff, or_assoc, ← and_or_left]

/-- Two things known are the same: chains show the same, and the rest is equal. -/
structure Alike (k k' : Knowledge) : Prop where
  flows : k.flows.Alike k'.flows
  size : k.summaries.size = k'.summaries.size
  summary : ∀ f, (k.snapshot.summary f).Alike (k'.snapshot.summary f)
  params : k.params = k'.params
  due : k.due = k'.due
  rounds : k.rounds = k'.rounds

theorem Alike.refl (k : Knowledge) : k.Alike k :=
  ⟨.refl _, rfl, fun _ => .refl _, rfl, rfl, rfl⟩

/-- The same results make the same functions due. -/
theorem marks_of_sameResults {rs rs' : List FunctionResult} (hk : k.Alike k')
    (hrs : SameResults rs rs') (f : Nat) :
    (∃ r ∈ rs, k.Marks p r f) ↔ ∃ r ∈ rs', k'.Marks p r f := by
  have hmarks : ∀ r r' : FunctionResult, r.SameOffers r' →
      (k.Marks p r f ↔ k'.Marks p r' f) := by
    intro r r' hsame
    unfold Marks
    rw [hsame.function, Summary.improvedBy_eq (hk.summary r.function) hsame.summary, hk.params]
    simp only [hsame.args]
  refine ⟨fun ⟨r, hr, h⟩ => ?_, fun ⟨r', hr', h⟩ => ?_⟩
  · obtain ⟨r', hr', hsame⟩ := hrs.1 r hr
    exact ⟨r', hr', (hmarks r r' hsame).mp h⟩
  · obtain ⟨r, hr, hsame⟩ := hrs.2 r' hr'
    exact ⟨r, hr, (hmarks r r' hsame).mpr h⟩

/-- **The order of results does not matter**: the same results, joined in any order into what is
known, lead to the same. -/
theorem alike_foldl_merge {rs rs' : List FunctionResult} (hk : k.Alike k')
    (hrs : SameResults rs rs') :
    (rs.foldl (Knowledge.merge p) k).Alike (rs'.foldl (Knowledge.merge p) k') := by
  obtain ⟨hsummaries, hrounds, hparams, hdue⟩ := foldl_merge_frame p rs k
  obtain ⟨hsummaries', hrounds', hparams', hdue'⟩ := foldl_merge_frame p rs' k'
  refine ⟨?_, ?_, fun f => ?_, ?_, ?_, ?_⟩
  · rw [flows_foldl_merge, flows_foldl_merge]
    exact Best.alike_offerAll hk.flows (hrs.flatMap fun _ _ h => h.flows)
  · rw [hsummaries, hsummaries', hk.size]
  · rw [summary_foldl_merge, summary_foldl_merge, hk.size]
    split
    · have hf := hrs.filter f
      rw [Summary.foldl_join, Summary.foldl_join, List.flatMap_map, List.flatMap_map,
        List.flatMap_map, List.flatMap_map, List.flatMap_map, List.flatMap_map]
      exact ⟨Best.alike_offerAll (hk.summary f).sinks (hf.flatMap fun _ _ h => h.summary.sinks),
        Best.alike_offerAll (hk.summary f).returns (hf.flatMap fun _ _ h => h.summary.returns),
        Best.alike_offerAll (hk.summary f).intrinsic
          (hf.flatMap fun _ _ h => h.summary.intrinsic)⟩
    · exact hk.summary f
  · refine eq_of_getD 0 (by rw [hparams, hparams', hk.params]) fun g _ => ?_
    refine Nat.eq_of_testBit_eq fun i => ?_
    rw [Bool.eq_iff_iff, testBit_params_foldl_merge, testBit_params_foldl_merge, hk.params]
    refine or_congr_right (and_congr_right fun _ => ⟨fun ⟨r, hr, h⟩ => ?_, fun ⟨r', hr', h⟩ => ?_⟩)
    · obtain ⟨r', hr', hsame⟩ := hrs.1 r hr
      exact ⟨r', hr', (hsame.args _).mp h⟩
    · obtain ⟨r, hr, hsame⟩ := hrs.2 r' hr'
      exact ⟨r, hr, (hsame.args _).mpr h⟩
  · refine eq_of_getD false (by rw [hdue, hdue', hk.due]) fun f hf => ?_
    rw [hdue] at hf
    obtain ⟨hmarked, hother⟩ := getD_due_foldl_merge p rs k hf
    obtain ⟨hmarked', hother'⟩ := getD_due_foldl_merge p rs' k' (hk.due ▸ hf)
    have hiff := marks_of_sameResults (p := p) hk hrs f
    by_cases hmarks : ∃ r ∈ rs, k.Marks p r f
    · rw [hmarked hmarks, hmarked' (hiff.mp hmarks)]
    · rw [hother hmarks, hother' fun h => hmarks (hiff.mpr h), hk.due]
  · rw [hrounds, hrounds', hk.rounds]

end Knowledge

end Flow

end TaintFlow
