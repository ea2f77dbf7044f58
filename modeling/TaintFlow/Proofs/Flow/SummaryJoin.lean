import TaintFlow.Proofs.Flow.Cancellation
import TaintFlow.Proofs.Flow.MergeOrder

/-!
# Summaries are joined

Collections of best chains are ordered by what they cover, and joining two of them gives the least
collection that covers both: at every key the better of the two chains.  So joins are commutative,
associative and idempotent, as far as chains show, and a summary that is joined into another one
improves it if and only if the join differs.  What rounds know of a function in the end is therefore
the join of all summaries that the analysis of the function returned, in whatever round it did.

## Main definitions

* `betterOf` — the better of two chains.
* `Summary.HoldsBest` — the better chain at every key of two summaries.
* `Summary.IsJoinOf` — the least summary that covers all summaries of a list.
* `Program.returned` — the results of all rounds, as they are joined.

## Main results

* `Best.get?_join` — a join holds the better chain at every key.
* `Summary.improvedBy_iff` — a summary improves another one iff their join differs from it.
* `Summary.alike_join_comm`, `Summary.alike_join_assoc` — the laws of a join.
* `Summary.isJoinOf_foldl` — many joins give the least summary that covers all of them.
* `Program.summary_roundsFrom` — rounds join all that they return.
* `summaries_are_joined` — all of this, for all summaries and all rounds.
-/

namespace TaintFlow.Flow

/-- The better of two chains, if there are any; the first one of equals. -/
def betterOf (held offered : Option Chain) : Option Chain :=
  match offered with
  | none => held
  | some c => if better c held then some c else held

namespace Best

variable {κ : Type} [BEq κ]

/-- A collection has the keys of two others, and at every key the better of their chains. -/
structure HoldsBest (m a b : Best κ) : Prop where
  has : ∀ k, m.Has k ↔ a.Has k ∨ b.Has k
  get? : ∀ k, m.get? k = betterOf (a.get? k) (b.get? k)

variable [LawfulBEq κ] {m a b c : Best κ}

/-! ### What a join holds -/

theorem get?_offer_eq (m : Best κ) (k : κ) (c : Chain) :
    (m.offer k c).get? k = betterOf (m.get? k) (some c) := by
  rcases m.get?_offer_self k c with ⟨hb, h⟩ | ⟨hb, h⟩
  · rw [h, betterOf, if_pos hb]
  · rw [h, betterOf, hb, if_neg Bool.false_ne_true]

theorem get?_eq_none_of_not_mem {k : κ} (h : k ∉ m.keys) : m.get? k = none := by
  rw [Option.eq_none_iff_forall_ne_some]
  intro c hc
  exact h (mem_keys.mpr ⟨c, mem_entries_of_get? hc⟩)

/-- **A join holds the better chain at every key.** -/
theorem get?_join (a : Best κ) (hb : b.keys.Nodup) (k : κ) :
    (a.join b).get? k = betterOf (a.get? k) (b.get? k) := by
  obtain ⟨es⟩ := b
  rw [join_eq_offerAll]
  induction es generalizing a with
  | nil => rfl
  | cons e es ih =>
    obtain ⟨hnew, hes⟩ := List.nodup_cons.mp hb
    rw [offerAll_cons, ih (a.offer e.1 e.2) hes]
    by_cases hk : e.1 = k
    · -- the key is not offered a second time
      subst hk
      have hrest : (⟨es⟩ : Best κ).get? e.1 = none := get?_eq_none_of_not_mem hnew
      have hfirst : (⟨e :: es⟩ : Best κ).get? e.1 = some e.2 := by simp [get?]
      rw [hrest, hfirst, ← get?_offer_eq]
      rfl
    · have hfirst : (⟨e :: es⟩ : Best κ).get? k = (⟨es⟩ : Best κ).get? k := by simp [get?, hk]
      rw [get?_offer_of_ne a hk, hfirst]

theorem holdsBest_join (a : Best κ) (hb : b.keys.Nodup) : (a.join b).HoldsBest a b where
  has _ := has_offerAll
  get? := get?_join a hb

/-! ### The least collection that covers two others -/

theorem CoversAll.trans (h : a.CoversAll b) (h' : b.CoversAll c) : a.CoversAll c := by
  intro k d hd
  obtain ⟨e, he, hle⟩ := h' k d hd
  exact (h k e (mem_entries_of_get? he)).of_isLE hle

theorem coversAll_join_left (ha : a.keys.Nodup) (b : Best κ) : (a.join b).CoversAll a :=
  (grows_join a b).coversAll ha

omit [LawfulBEq κ] in
theorem CoversAll.join_least (h : m.CoversAll a) (h' : m.CoversAll b) : m.CoversAll (a.join b) :=
  fun k d hd => (mem_offerAll hd).elim (h k d) (h' k d)

/-- Collections that cover each other are alike. -/
theorem alike_of_coversAll (h : a.CoversAll b) (h' : b.CoversAll a) : a.Alike b :=
  alike_of_covers (fun k d hd => h' k d (mem_entries_of_get? hd))
    fun k d hd => h k d (mem_entries_of_get? hd)

omit [LawfulBEq κ] in
theorem Alike.coversAll (h : a.Alike b) (ha : a.CoversAll c) : b.CoversAll c :=
  fun k d hd => h.covers (ha k d hd) rfl

end Best

namespace Summary

variable {a b c sm : Summary}

/-- A summary has the keys of two others, and at every key the better of their chains. -/
structure HoldsBest (sm a b : Summary) : Prop where
  sinks : sm.sinks.HoldsBest a.sinks b.sinks
  returns : sm.returns.HoldsBest a.returns b.returns
  intrinsic : sm.intrinsic.HoldsBest a.intrinsic b.intrinsic

theorem holdsBest_join (a : Summary) (hb : b.Distinct) : (a.join b).HoldsBest a b where
  sinks := Best.holdsBest_join a.sinks hb.sinks
  returns := Best.holdsBest_join a.returns hb.returns
  intrinsic := Best.holdsBest_join a.intrinsic hb.intrinsic

theorem CoversAll.trans (h : a.CoversAll b) (h' : b.CoversAll c) : a.CoversAll c :=
  ⟨h.sinks.trans h'.sinks, h.returns.trans h'.returns, h.intrinsic.trans h'.intrinsic⟩

theorem coversAll_self (ha : a.Distinct) : a.CoversAll a :=
  ⟨Best.coversAll_self ha.sinks, Best.coversAll_self ha.returns, Best.coversAll_self ha.intrinsic⟩

theorem coversAll_join_left (ha : a.Distinct) (b : Summary) : (a.join b).CoversAll a :=
  (coversAll_self ha).mono (grows_join a b)

theorem CoversAll.join_least (h : sm.CoversAll a) (h' : sm.CoversAll b) :
    sm.CoversAll (a.join b) :=
  ⟨h.sinks.join_least h'.sinks, h.returns.join_least h'.returns,
    h.intrinsic.join_least h'.intrinsic⟩

theorem alike_of_coversAll (h : a.CoversAll b) (h' : b.CoversAll a) : a.Alike b :=
  ⟨Best.alike_of_coversAll h.sinks h'.sinks, Best.alike_of_coversAll h.returns h'.returns,
    Best.alike_of_coversAll h.intrinsic h'.intrinsic⟩

/-! ### The laws of joins -/

/-- **A summary improves another one if and only if their join differs from it.** -/
theorem improvedBy_iff : a.improvedBy b = true ↔ ¬ (a.join b).Alike a := by
  rw [← Bool.not_eq_false, ← coversAll_iff_improvedBy, not_iff_not]
  constructor
  · intro h
    rw [h.join_eq]
    exact .refl a
  · intro h
    have hjoin := coversAll_join a b
    exact ⟨h.sinks.coversAll hjoin.sinks, h.returns.coversAll hjoin.returns,
      h.intrinsic.coversAll hjoin.intrinsic⟩

theorem alike_join_comm (ha : a.Distinct) (hb : b.Distinct) : (a.join b).Alike (b.join a) :=
  alike_of_coversAll ((coversAll_join a b).join_least (coversAll_join_left ha b))
    ((coversAll_join b a).join_least (coversAll_join_left hb a))

theorem alike_join_assoc (ha : a.Distinct) (hb : b.Distinct) (c : Summary) :
    ((a.join b).join c).Alike (a.join (b.join c)) := by
  have hleft := coversAll_join_left (ha.join b) c
  have hright := coversAll_join a (b.join c)
  refine alike_of_coversAll ?_ ?_
  · exact (hleft.trans (coversAll_join_left ha b)).join_least
      ((hleft.trans (coversAll_join a b)).join_least (coversAll_join _ c))
  · exact ((coversAll_join_left ha _).join_least
      (hright.trans (coversAll_join_left hb c))).join_least (hright.trans (coversAll_join b c))

theorem join_self (ha : a.Distinct) : a.join a = a :=
  (coversAll_self ha).join_eq

/-- The join of summaries: it covers them, and whatever covers them covers it. -/
structure IsJoinOf (sm : Summary) (sms : List Summary) : Prop where
  covers : ∀ a ∈ sms, sm.CoversAll a
  least : ∀ b : Summary, (∀ a ∈ sms, b.CoversAll a) → b.CoversAll sm

/-- Joins of the same summaries are alike, in whatever order these come. -/
theorem IsJoinOf.alike {sms sms' : List Summary} (h : a.IsJoinOf sms) (h' : b.IsJoinOf sms')
    (hsame : ∀ sm, sm ∈ sms ↔ sm ∈ sms') : a.Alike b :=
  alike_of_coversAll (h'.least a fun sm hsm => h.covers sm ((hsame sm).mpr hsm))
    (h.least b fun sm hsm => h'.covers sm ((hsame sm).mp hsm))

/-- Many joins cover what they began with and all that was joined, and no more than that. -/
theorem coversAll_foldl_join (sms : List Summary) (ha : a.Distinct) :
    (sms.foldl join a).CoversAll a ∧ (∀ sm ∈ sms, (sms.foldl join a).CoversAll sm) ∧
      ∀ b : Summary, b.CoversAll a → (∀ sm ∈ sms, b.CoversAll sm) →
        b.CoversAll (sms.foldl join a) := by
  induction sms generalizing a with
  | nil => exact ⟨coversAll_self ha, nofun, fun _ h _ => h⟩
  | cons sm sms ih =>
    obtain ⟨hstart, hall, hleast⟩ := ih (ha.join sm)
    refine ⟨hstart.trans (coversAll_join_left ha sm), ?_, fun b hb hsms => ?_⟩
    · exact List.forall_mem_cons.mpr ⟨hstart.trans (coversAll_join a sm), hall⟩
    · obtain ⟨hsm, hsms⟩ := List.forall_mem_cons.mp hsms
      exact hleast b (hb.join_least hsm) hsms

/-- **Many joins give the join of all summaries.** -/
theorem isJoinOf_foldl (sms : List Summary) : (sms.foldl join {}).IsJoinOf sms := by
  obtain ⟨-, hall, hleast⟩ := coversAll_foldl_join sms distinct_empty
  exact ⟨hall, fun b hb => hleast b ⟨nofun, nofun, nofun⟩ hb⟩

end Summary

/-! ### Rounds -/

namespace Knowledge

/-- A summary whose join shows nothing new changes nothing that is known. -/
theorem mergeSummary_of_alike (p : Program) {k : Knowledge} {i : Nat} {sm : Summary}
    (h : ((k.summaries.getD i {}).join sm).Alike (k.summaries.getD i {})) :
    k.mergeSummary p i sm = k :=
  if_neg fun himp => Summary.improvedBy_iff.mp himp h

/-- After a summary whose join shows something new the callers are due. -/
theorem due_mergeSummary_of_not_alike (p : Program) {k : Knowledge} {i : Nat} {sm : Summary}
    (h : ¬ ((k.summaries.getD i {}).join sm).Alike (k.summaries.getD i {})) :
    (k.mergeSummary p i sm).due = (p.callers i).foldl (markDue p) k.due := by
  rw [mergeSummary, if_pos (Summary.improvedBy_iff.mpr h)]

end Knowledge

namespace Program

/-- The results of at most `n` rounds, in the order in which they are joined.  The results of a
round that is cancelled are among them. -/
def returned (p : Program) (h : Nat) : Nat → Knowledge → Budget → List FunctionResult
  | 0, _, _ => []
  | n + 1, k, b =>
    if k.work = [] ∨ b.exhausted then []
    else
      p.results h k b.spend ++
        if (p.round h k b.spend).1.2 then []
        else p.returned h n (p.round h k b.spend).1.1 (p.round h k b.spend).2

/-- The summaries that the analysis of a function returns in at most `n` rounds. -/
def returnedBy (p : Program) (h n : Nat) (b : Budget) (f : Nat) : List Summary :=
  ((p.returned h n (.initial p) b).filter (·.function == f)).map (·.records.summary)

variable {p : Program} {h : Nat} {f : Nat}

/-- A round joins the summaries that its functions return. -/
theorem summary_round {k : Knowledge} (hf : f < k.summaries.size) (b : Budget) :
    (p.round h k b).1.1.summaries.size = k.summaries.size ∧
      (p.round h k b).1.1.snapshot.summary f =
        (((p.results h k b).filter (·.function == f)).map (·.records.summary)).foldl Summary.join
          (k.snapshot.summary f) := by
  rw [round_eq]
  refine ⟨(Knowledge.foldl_merge_frame p _ k.cleared).1, ?_⟩
  rw [Knowledge.summary_foldl_merge]
  exact if_pos hf

/-- **Rounds join all that they return.** -/
theorem summary_roundsFrom (n : Nat) : ∀ (k : Knowledge) (b : Budget), f < k.summaries.size →
    (p.roundsFrom h n k b).1.knowledge.snapshot.summary f =
      (((p.returned h n k b).filter (·.function == f)).map (·.records.summary)).foldl Summary.join
        (k.snapshot.summary f) := by
  induction n with
  | zero =>
    intro k b _
    by_cases hk : k.work = []
    · rw [p.roundsFrom_of_work_nil h 0 hk]
      rfl
    · rw [p.roundsFrom_zero h hk]
      rfl
  | succ n ih =>
    intro k b hf
    by_cases hk : k.work = []
    · rw [p.roundsFrom_of_work_nil h _ hk, returned, if_pos (Or.inl hk)]
      rfl
    · rw [p.roundsFrom_succ h n hk, returned]
      by_cases hb : b.exhausted = true
      · rw [if_pos hb, if_pos (Or.inr hb)]
        rfl
      · obtain ⟨hsize, hround⟩ := summary_round (p := p) (h := h) hf b.spend
        have hgo : ¬ (k.work = [] ∨ b.exhausted = true) := fun h => h.elim hk hb
        rw [if_neg hb, if_neg hgo]
        by_cases hc : (p.round h k b.spend).1.2 = true
        · rw [if_pos hc, if_pos hc, List.append_nil]
          exact hround
        · rw [if_neg hc, if_neg hc, ih _ _ (hsize ▸ hf), hround, List.filter_append,
            List.map_append, List.foldl_append]

/-- Every summary that is returned holds every key once. -/
theorem distinct_returned (n : Nat) : ∀ (k : Knowledge) (b : Budget),
    ∀ r ∈ p.returned h n k b, r.records.summary.Distinct := by
  induction n with
  | zero => exact fun _ _ => nofun
  | succ n ih =>
    intro k b r hr
    rw [returned] at hr
    split at hr
    · cases hr
    · rcases List.mem_append.mp hr with hr | hr
      · obtain ⟨i, -, b', rfl⟩ := exists_of_mem_analyzeAll hr
        exact (Scope.distinct_run _ Scope.maxSteps b').summary
      · split at hr
        · cases hr
        · exact ih _ _ r hr

end Program

/-- **Summaries are joined.**  For all summaries, which hold every key once: the join has the keys
of both and at every key the better chain; a summary improves another one if and only if their join
differs from it, and otherwise the join is what it was; joins are commutative, associative and
idempotent as far as chains show.  The join is what is known of a function from then on, and its
callers are due if it differs from what was known.  After any number of rounds, whether they are
cancelled or not, what is known of a function is the join of all summaries that its analysis
returned. -/
theorem summaries_are_joined :
    (∀ a b : Summary, a.Distinct → b.Distinct →
      (a.join b).Distinct ∧ (a.join b).HoldsBest a b ∧
        (a.improvedBy b = true ↔ ¬ (a.join b).Alike a) ∧
        (a.improvedBy b = false → a.join b = a) ∧
        (a.join b).Alike (b.join a) ∧ a.join a = a ∧
        ∀ c : Summary, ((a.join b).join c).Alike (a.join (b.join c))) ∧
    (∀ (p : Program) (k : Knowledge) (i : Nat) (sm : Summary),
      let known := k.summaries.getD i {}
      (k.mergeSummary p i sm).summaries = k.summaries.setIfInBounds i (known.join sm) ∧
        ((known.join sm).Alike known → k.mergeSummary p i sm = k) ∧
        (¬ (known.join sm).Alike known →
          (k.mergeSummary p i sm).due = (p.callers i).foldl (markDue p) k.due)) ∧
    ∀ (p : Program) (h n : Nat) (b : Budget) (f : Nat), f < p.code.functions.size →
      (∀ sm ∈ p.returnedBy h n b f, sm.Distinct) ∧
        (p.rounds h n b).1.knowledge.snapshot.summary f =
          (p.returnedBy h n b f).foldl Summary.join {} ∧
        ((p.rounds h n b).1.knowledge.snapshot.summary f).IsJoinOf (p.returnedBy h n b f) := by
  refine ⟨fun a b ha hb => ?_, fun p k i sm => ?_, fun p h n b f hf => ?_⟩
  · exact ⟨ha.join b, Summary.holdsBest_join a hb, Summary.improvedBy_iff,
      fun h => (Summary.coversAll_iff_improvedBy.mpr h).join_eq, Summary.alike_join_comm ha hb,
      Summary.join_self ha, Summary.alike_join_assoc ha hb⟩
  · exact ⟨Knowledge.summaries_mergeSummary p k i sm, Knowledge.mergeSummary_of_alike p,
      Knowledge.due_mergeSummary_of_not_alike p⟩
  · have hsize : f < (Knowledge.initial p).summaries.size := by
      rwa [Knowledge.initial, Array.size_replicate]
    have hjoin : (p.rounds h n b).1.knowledge.snapshot.summary f =
        (p.returnedBy h n b f).foldl Summary.join {} := by
      rw [Program.rounds, Program.summary_roundsFrom n _ b hsize, Knowledge.summary_initial]
      rfl
    refine ⟨fun sm hsm => ?_, hjoin, hjoin ▸ Summary.isJoinOf_foldl _⟩
    obtain ⟨r, hr, rfl⟩ := List.mem_map.mp hsm
    exact Program.distinct_returned n _ b r (List.mem_of_mem_filter hr)

/-- The chain through the sample's `wrap`. -/
def wrapChain : Chain where
  last := ⟨.ret, 2, 0, 0, 12, "app", "v"⟩
  before := [⟨.parameter, 2, 0, -1, 11, "app", "v"⟩]

/-- A chain of `n` assignments. -/
def assignedChain (n : Nat) : Chain where
  last := ⟨.assignment, 0, 0, n, n, "app", "x"⟩
  before := List.replicate n ⟨.assignment, 0, 0, 0, 0, "app", "x"⟩

/-- Two summaries that hold chains for the first parameter both, and for another key each. -/
def crossedSummaries : Summary × Summary :=
  ({ returns := ⟨[(0, assignedChain 3)]⟩, intrinsic := ⟨[(7, assignedChain 2)]⟩ },
    { sinks := ⟨[((1, 4), assignedChain 5)]⟩, returns := ⟨[(0, assignedChain 1)]⟩ })

/-- Of the summaries above either one improves the other, and in both orders the shorter chain of
the first parameter is held; the sample's `wrap` is known to return its parameter. -/
theorem summaries_are_joined_crossed :
    crossedSummaries.1.improvedBy crossedSummaries.2 = true ∧
      crossedSummaries.2.improvedBy crossedSummaries.1 = true ∧
      (crossedSummaries.1.join crossedSummaries.2).Alike
        (crossedSummaries.2.join crossedSummaries.1) ∧
      (crossedSummaries.1.join crossedSummaries.2).returns.get? 0 = some (assignedChain 1) ∧
      (crossedSummaries.1.join crossedSummaries.2).intrinsic.get? 7 = some (assignedChain 2) ∧
      ((sample.returnedBy 5 100 Budget.unlimited 2).foldl Summary.join {}).returns.get? 0 =
        some wrapChain := by
  have hleft : crossedSummaries.1.Distinct := ⟨by decide, by decide, by decide⟩
  have hright : crossedSummaries.2.Distinct := ⟨by decide, by decide, by decide⟩
  obtain ⟨hlaws, -, hrounds⟩ := summaries_are_joined
  obtain ⟨-, hholds, -, -, hcomm, -, -⟩ := hlaws _ _ hleft hright
  refine ⟨by decide +kernel, by decide +kernel, hcomm, ?_, ?_, ?_⟩
  · rw [hholds.returns.get?]
    decide +kernel
  · rw [hholds.intrinsic.get?]
    decide +kernel
  · rw [← (hrounds sample 5 100 Budget.unlimited 2 (by rw [sample_eq]; decide)).2.1, sample_eq]
    decide +kernel

end TaintFlow.Flow
