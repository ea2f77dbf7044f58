import TaintFlow.Proofs.Flow.MergeOrder

/-!
# The order of entries

Collections of best chains are maps: the analysis of a function does not depend on the order in
which the entries of its states and of the summaries it reads are stored.  With the same maps, in
whatever order, it processes the same blocks and ends with the same maps.

## Main definitions

* `Best.SameMap` — two collections with distinct keys that hold the same chains, as to what they
  show.
* `Snapshot.SameMaps`, `Records.SameMaps`, `Work.SameMaps` — the same maps throughout.

## Main results

* `Scope.sameMap_next`, `Scope.exists_same_report` — the effect of a statement.
* `Scope.sameMaps_process` — the effect of a block.
* `Scope.sameMaps_run` — the result of a function.
-/

namespace TaintFlow.Flow

/-! ### Chains that show the same -/

section

variable {c d tail tail' : Chain}

theorem view_push (h : c.view = d.view) (s : Step) : (c.push s).view = (d.push s).view := by
  simp only [Chain.view, Prod.mk.injEq] at h ⊢
  refine ⟨h.1, h.2.1, ?_⟩
  rw [Chain.newestFirst, Chain.newestFirst, List.map_cons, List.map_cons]
  exact congrArg _ h.2.2

theorem fields_last (h : c.view = d.view) : c.last.fields = d.last.fields := by
  simp only [Chain.view, Prod.mk.injEq, Chain.newestFirst, List.map_cons, List.cons.injEq] at h
  exact h.2.2.1

theorem fields_first (h : c.view = d.view) : c.first.fields = d.first.fields := by
  simp only [Chain.view, Prod.mk.injEq] at h
  have hsteps : c.steps.map Step.fields = d.steps.map Step.fields := by
    rw [Chain.steps, Chain.steps, List.map_reverse, List.map_reverse, h.2.2]
  have hhead := congrArg List.head? hsteps
  rw [List.head?_map, List.head?_map, Chain.head?_steps, Chain.head?_steps] at hhead
  exact Option.some.inj hhead

/-- Chains that cross a call show the same when their parts do. -/
theorem view_compose (s : Scope) (h : c.view = d.view) (htail : tail.view = tail'.view)
    (call : Step) : (s.compose c call tail).view = (s.compose d call tail').view := by
  have hlast := fields_last htail
  have hpush := view_push h call
  simp only [Chain.view, Prod.mk.injEq] at h htail hpush
  obtain ⟨htruncated, hdepth, -⟩ := h
  obtain ⟨htruncated', hdepth', hsteps'⟩ := htail
  unfold Scope.compose
  dsimp only
  rw [hdepth, hdepth']
  split
  · simp only [Chain.view, Prod.mk.injEq]
    refine ⟨?_, rfl, ?_⟩
    · show (c.truncated || tail.truncated) = (d.truncated || tail'.truncated)
      rw [htruncated, htruncated']
    · show ((tail.newestFirst ++ (c.push call).newestFirst).map Step.fields) =
        ((tail'.newestFirst ++ (d.push call).newestFirst).map Step.fields)
      rw [List.map_append, List.map_append, hsteps', hpush.2.2]
  · simp only [Chain.view, Prod.mk.injEq]
    refine ⟨trivial, trivial, ?_⟩
    show (tail.last :: _ :: (c.push call).newestFirst).map Step.fields =
      (tail'.last :: _ :: (d.push call).newestFirst).map Step.fields
    rw [List.map_cons, List.map_cons, List.map_cons, List.map_cons, hlast, hpush.2.2]
    rfl

theorem view_lift (s : Scope) (htail : tail.view = tail'.view) (site : CallSite) :
    (s.lift tail site).view = (s.lift tail' site).view := by
  have hlast := fields_last htail
  have hfirst := fields_first htail
  simp only [Chain.view, Prod.mk.injEq] at htail
  obtain ⟨htruncated, hdepth, hsteps⟩ := htail
  unfold Scope.lift
  dsimp only
  rw [hdepth]
  split
  · simp only [Chain.view, Prod.mk.injEq]
    exact ⟨htruncated, trivial, hsteps⟩
  · simp only [Chain.view, Prod.mk.injEq]
    refine ⟨trivial, trivial, ?_⟩
    show [tail.last, _, tail.first].map Step.fields = [tail'.last, _, tail'.first].map Step.fields
    simp only [List.map_cons, List.map_nil, hlast, hfirst]
    rfl

end

/-! ### Maps -/

namespace Best

variable {κ : Type} [BEq κ]

/-- Two collections with distinct keys that hold the same chains, as to what they show. -/
structure SameMap (m m' : Best κ) : Prop where
  nodup : m.keys.Nodup
  nodup' : m'.keys.Nodup
  alike : m.Alike m'

variable {m m' : Best κ}

theorem SameMap.symm (h : m.SameMap m') : m'.SameMap m :=
  ⟨h.nodup', h.nodup, h.alike.symm⟩

theorem SameMap.refl (h : m.keys.Nodup) : m.SameMap m :=
  ⟨h, h, .refl m⟩

theorem sameMap_empty : ({} : Best κ).SameMap {} :=
  .refl List.nodup_nil

variable [LawfulBEq κ]

theorem SameMap.exists_mem (h : m.SameMap m') {k : κ} {c : Chain} (hc : (k, c) ∈ m.entries) :
    ∃ d, (k, d) ∈ m'.entries ∧ c.view = d.view := by
  obtain ⟨d, hd, hview⟩ := h.alike.exists_get? ((get?_eq_some_iff h.nodup).mpr hc)
  exact ⟨d, mem_entries_of_get? hd, hview⟩

theorem SameMap.sameOffers (h : m.SameMap m') : SameOffers m.entries m'.entries :=
  ⟨fun _ _ hc => h.exists_mem hc, fun _ _ hc => h.symm.exists_mem hc⟩

theorem SameMap.offerAll (h : m.SameMap m') {es es' : List (κ × Chain)}
    (hes : SameOffers es es') : (m.offerAll es).SameMap (m'.offerAll es') :=
  ⟨nodup_keys_offerAll h.nodup es, nodup_keys_offerAll h.nodup' es', alike_offerAll h.alike hes⟩

theorem SameMap.join (h : m.SameMap m') {other other' : Best κ} (ho : other.SameMap other') :
    (m.join other).SameMap (m'.join other') :=
  h.offerAll ho.sameOffers

/-- Maps each of which covers what the other one holds are the same. -/
theorem sameMap_of_covers (hm : m.keys.Nodup) (hm' : m'.keys.Nodup) (h : m'.CoversAll m)
    (h' : m.CoversAll m') : m.SameMap m' :=
  ⟨hm, hm', alike_of_covers (fun k c hc => h k c (mem_entries_of_get? hc))
    fun k c hc => h' k c (mem_entries_of_get? hc)⟩

end Best

/-- Reading the same maps gives the same maps. -/
theorem State.sameMap_read {st st' : State} (h : st.SameMap st') (names : List String) :
    (st.read names).SameMap (st'.read names) := by
  have hobserved : ∀ {st st' : State}, st.SameMap st' →
      Offered (st.observed names) (st'.observed names) := by
    intro st st' h r c hc
    obtain ⟨x, hx, hmem⟩ := State.mem_observed.mp hc
    obtain ⟨d, hd, hview⟩ := h.exists_mem hmem
    exact ⟨d, State.mem_observed.mpr ⟨x, hx, hd⟩, hview⟩
  rw [read_eq_offerAll, read_eq_offerAll]
  exact Best.sameMap_empty.offerAll ⟨hobserved h, hobserved h.symm⟩

/-- Two snapshots hold the same maps and mark the same parameters. -/
structure Snapshot.SameMaps (snap snap' : Snapshot) : Prop where
  distinct : ∀ f, (snap.summary f).Distinct
  distinct' : ∀ f, (snap'.summary f).Distinct
  summary : ∀ f, (snap.summary f).Alike (snap'.summary f)
  params : snap.params = snap'.params

namespace Snapshot.SameMaps

variable {snap snap' : Snapshot}

theorem symm (h : snap.SameMaps snap') : snap'.SameMaps snap :=
  ⟨h.distinct', h.distinct, fun f => (h.summary f).symm, h.params.symm⟩

theorem sinks (h : snap.SameMaps snap') (f : Nat) :
    (snap.summary f).sinks.SameMap (snap'.summary f).sinks :=
  ⟨(h.distinct f).sinks, (h.distinct' f).sinks, (h.summary f).sinks⟩

theorem returns (h : snap.SameMaps snap') (f : Nat) :
    (snap.summary f).returns.SameMap (snap'.summary f).returns :=
  ⟨(h.distinct f).returns, (h.distinct' f).returns, (h.summary f).returns⟩

theorem intrinsic (h : snap.SameMaps snap') (f : Nat) :
    (snap.summary f).intrinsic.SameMap (snap'.summary f).intrinsic :=
  ⟨(h.distinct f).intrinsic, (h.distinct' f).intrinsic, (h.summary f).intrinsic⟩

end Snapshot.SameMaps

/-! ### Statements -/

/-- What a statement leaves is a map. -/
theorem Scope.nodup_keys_next (s : Scope) (block pos : Nat) {st : State} (hst : st.keys.Nodup)
    (q : Placed) : (s.next block pos st q).keys.Nodup := by
  obtain ⟨line, stmt⟩ := q
  cases stmt with
  | seed i slot =>
    simp only [next, transfer]
    split
    · exact hst
    · exact Best.nodup_keys_offer hst _ _
  | call i =>
    simp only [next, transfer]
    split <;> exact hst
  | sink k names =>
    simp only [next, transfer]
    split <;> exact hst
  | assign file target names calls =>
    rw [next_assign]
    refine Best.nodup_keys_offerAll ?_ _
    exact List.Nodup.sublist (List.Sublist.map _ List.filter_sublist) hst
  | ret file expr names => exact hst

namespace Scope

variable {p : Program} {h f : Nat} {snap snap' : Snapshot} {st st' : State} {block pos : Nat}
  {line : Int}

/-- A statement writes the same chains. -/
theorem exists_same_writes (hsnap : snap.SameMaps snap') (hst : st.SameMap st') {stmt : Statement}
    {x : String} {r : Root} {c : Chain}
    (hc : (p.scope h snap f).Writes block pos st line stmt x r c) :
    ∃ d, (p.scope h snap' f).Writes block pos st' line stmt x r d ∧ c.view = d.view := by
  cases hc with
  | seed hsrc => exact ⟨_, .seed hsrc, rfl⟩
  | read hread =>
    obtain ⟨d, hd, hview⟩ := (State.sameMap_read hst _).exists_mem hread
    exact ⟨_, .read hd, view_push hview _⟩
  | bound hi hsite hb htail hread =>
    obtain ⟨d, hd, hview⟩ := (State.sameMap_read hst _).exists_mem hread
    obtain ⟨tail', htail', hviewTail⟩ := (hsnap.returns _).alike.exists_get? htail
    exact ⟨_, .bound hi hsite hb htail' hd,
      view_push (view_compose (p.scope h snap f) hview hviewTail _) _⟩
  | intrinsic hi hsite htail =>
    obtain ⟨tail', htail', hview⟩ := (hsnap.intrinsic _).exists_mem htail
    exact ⟨_, .intrinsic hi hsite htail', view_push (view_lift (p.scope h snap f) hview _) _⟩

/-- **A statement leads from the same maps to the same maps.** -/
theorem sameMap_next (hsnap : snap.SameMaps snap') (hst : st.SameMap st') (q : Placed) :
    ((p.scope h snap f).next block pos st q).SameMap
      ((p.scope h snap' f).next block pos st' q) := by
  have hcovers : ∀ {snap snap' : Snapshot} {st st' : State}, snap.SameMaps snap' →
      st.SameMap st' → ((p.scope h snap' f).next block pos st' q).CoversAll
        ((p.scope h snap f).next block pos st q) := by
    rintro snap snap' st st' hsnap hst ⟨x, r⟩ c hc
    obtain ⟨line, stmt⟩ := q
    rcases mem_next hc with ⟨hx, hold⟩ | hwrites
    · -- a chain that was there before
      obtain ⟨d, hd, hview⟩ := hst.exists_mem hold
      have hkept : ((p.scope h snap' f).next block pos st' ⟨line, stmt⟩).Covers (x, r) d :=
        covers_next_of_not_overwrites hx (Best.coversAll_self hst.nodup' (x, r) d hd)
      exact hkept.of_isLE (isLE_of_view hview.symm)
    · obtain ⟨d, hd, hview⟩ := exists_same_writes hsnap hst hwrites
      exact (covers_next_of_writes hd).of_isLE (isLE_of_view hview.symm)
  exact Best.sameMap_of_covers (nodup_keys_next _ _ _ hst.nodup q)
    (nodup_keys_next _ _ _ hst.nodup' q) (hcovers hsnap hst) (hcovers hsnap.symm hst.symm)

/-- **A statement makes the same reports.** -/
theorem exists_same_report (hsnap : snap.SameMaps snap') (hst : st.SameMap st') {q : Placed}
    {report : Report} (hreport : report ∈ (p.scope h snap f).reports block pos st q) :
    ∃ report' ∈ (p.scope h snap' f).reports block pos st' q,
      report'.Betters (fun c d => c.view = d.view) report := by
  obtain ⟨line, stmt⟩ := q
  cases mem_reports_iff.mp hreport with
  | pass hsite hb hread =>
    obtain ⟨d, hd, -⟩ := (State.sameMap_read hst _).exists_mem hread
    exact ⟨_, mem_reports_iff.mpr (.pass hsite hb hd), .pass _ _⟩
  | call hsite hb hread htail =>
    obtain ⟨d, hd, hview⟩ := (State.sameMap_read hst _).exists_mem hread
    obtain ⟨tail', htail', hviewTail⟩ := (hsnap.sinks _).exists_mem htail
    exact ⟨_, mem_reports_iff.mpr (.call hsite hb hd htail'),
      .sink (view_compose (p.scope h snap f) hview hviewTail _).symm⟩
  | sink hsink hread =>
    obtain ⟨d, hd, hview⟩ := (State.sameMap_read hst _).exists_mem hread
    exact ⟨_, mem_reports_iff.mpr (.sink hsink hd), .sink (view_push hview _).symm⟩
  | ret hread =>
    obtain ⟨d, hd, hview⟩ := (State.sameMap_read hst _).exists_mem hread
    exact ⟨_, mem_reports_iff.mpr (.ret hd), .ret (view_push hview _).symm⟩

/-! ### Blocks -/

theorem sameMap_before (hsnap : snap.SameMaps snap') (hst : st.SameMap st') (n : Nat) :
    ((p.scope h snap f).before block st n).SameMap ((p.scope h snap' f).before block st' n) := by
  induction n with
  | zero => exact hst
  | succ n ih =>
    cases hq : (p.statementsAt f block)[n]? with
    | none =>
      have hnone : ∀ (snap : Snapshot) (st : State), (p.scope h snap f).before block st (n + 1) =
          (p.scope h snap f).before block st n := by
        intro snap st
        have hq : ((p.scope h snap f).program.statementsAt (p.scope h snap f).index block)[n]? =
            none := hq
        rw [before, hq]
      rw [hnone, hnone]
      exact ih
    | some q =>
      rw [before_succ (s := p.scope h snap f) hq, before_succ (s := p.scope h snap' f) hq]
      exact sameMap_next hsnap ih q

theorem exists_same_blockReport (hsnap : snap.SameMaps snap') (hst : st.SameMap st')
    {report : Report} (hreport : report ∈ (p.scope h snap f).blockReports block st) :
    ∃ report' ∈ (p.scope h snap' f).blockReports block st',
      report'.Betters (fun c d => c.view = d.view) report := by
  obtain ⟨n, hn, hreport⟩ := List.mem_flatMap.mp hreport
  have hn : n < (p.statementsAt f block).length := List.mem_range.mp hn
  have hq : (p.statementsAt f block)[n]? = some ((p.statementsAt f block)[n]) :=
    List.getElem?_eq_getElem hn
  rw [reportsAt_eq (s := p.scope h snap f) hq] at hreport
  obtain ⟨report', hmem, hsame⟩ := exists_same_report hsnap (sameMap_before hsnap hst n) hreport
  exact ⟨report', mem_blockReports (s := p.scope h snap' f) hq hmem, hsame⟩

end Scope

/-! ### Records -/

/-- The records of two analyses hold the same maps, and the same parameters receive taint. -/
structure Records.SameMaps (rec rec' : Records) : Prop where
  distinct : rec.Distinct
  distinct' : rec'.Distinct
  flows : rec.flows.Alike rec'.flows
  summary : rec.summary.Alike rec'.summary
  args : ∀ a, a ∈ rec.args ↔ a ∈ rec'.args

namespace Records

variable {rec rec' : Records}

theorem SameMaps.symm (h : rec.SameMaps rec') : rec'.SameMaps rec :=
  ⟨h.distinct', h.distinct, h.flows.symm, h.summary.symm, fun a => (h.args a).symm⟩

theorem sameMaps_empty : Records.SameMaps {} {} :=
  ⟨distinct_empty, distinct_empty, .refl _, .refl _, fun _ => Iff.rfl⟩

/-- What grows out of the same maps is ahead of them. -/
theorem SameMaps.dominates (h : rec.SameMaps rec') {rec'' : Records} (hgrows : rec'.Grows rec'') :
    rec''.Dominates (fun c d => (compareChains c d).isLE) rec := by
  have hcovers : ∀ {κ : Type} [BEq κ] [LawfulBEq κ] {m m' m'' : Best κ}, m.keys.Nodup →
      m.Alike m' → m'.Grows m'' → m''.CoversAll m := by
    intro κ _ _ m m' m'' hm halike hgrows k c hc
    exact hgrows k c (halike.covers (Best.coversAll_self hm k c hc) rfl)
  have hd := h.distinct
  have hs := h.summary
  exact ⟨hcovers hd.summary.sinks hs.sinks hgrows.summary.sinks,
    hcovers hd.summary.returns hs.returns hgrows.summary.returns,
    hcovers hd.summary.intrinsic hs.intrinsic hgrows.summary.intrinsic,
    hcovers hd.flows h.flows hgrows.flows, fun a ha => hgrows.args a ((h.args a).mp ha)⟩

/-- The same reports lead from the same maps to the same maps. -/
theorem SameMaps.foldl_add (h : rec.SameMaps rec') {qs qs' : List Report}
    (hqs : ∀ q ∈ qs, ∃ q' ∈ qs', q'.Betters (fun c d => c.view = d.view) q)
    (hqs' : ∀ q' ∈ qs', ∃ q ∈ qs, q.Betters (fun c d => c.view = d.view) q') :
    (qs.foldl Records.add rec).SameMaps (qs'.foldl Records.add rec') := by
  have hahead : ∀ {rec rec' : Records} {qs qs' : List Report}, rec.SameMaps rec' →
      (∀ q ∈ qs, ∃ q' ∈ qs', q'.Betters (fun c d => c.view = d.view) q) →
      (qs'.foldl Records.add rec').Dominates (fun c d => (compareChains c d).isLE)
        (qs.foldl Records.add rec) := by
    intro rec rec' qs qs' h hqs
    refine (h.dominates (rec'.grows_foldl_add qs')).foldl_add coarsens_isLE fun q hq => ?_
    obtain ⟨q', hq', hsame⟩ := hqs q hq
    refine ⟨q', covers_foldl_add rec' hq', ?_⟩
    cases hsame with
    | sink hview => exact .sink (isLE_of_view hview)
    | ret hview => exact .ret (isLE_of_view hview)
    | pass callee i => exact .pass callee i
  have h₁ := hahead h hqs
  have h₂ := hahead h.symm hqs'
  have hsame : ∀ {κ : Type} [BEq κ] [LawfulBEq κ] {m m' : Best κ}, m'.CoversAll m →
      m.CoversAll m' → m.Alike m' := by
    intro κ _ _ m m' hm hm'
    exact Best.alike_of_covers (fun k c hc => hm k c (Best.mem_entries_of_get? hc))
      fun k c hc => hm' k c (Best.mem_entries_of_get? hc)
  exact ⟨h.distinct.foldl_add qs, h.distinct'.foldl_add qs', hsame h₁.flows h₂.flows,
    ⟨hsame h₁.sinks h₂.sinks, hsame h₁.returns h₂.returns, hsame h₁.intrinsic h₂.intrinsic⟩,
    fun a => ⟨h₁.args a, h₂.args a⟩⟩

/-- Records that hold the same maps offer the same. -/
theorem SameMaps.sameOffers (h : rec.SameMaps rec') :
    SameOffers rec.flows.entries rec'.flows.entries ∧ rec.summary.SameOffers rec'.summary := by
  have hd := h.distinct
  have hd' := h.distinct'
  exact ⟨Best.SameMap.sameOffers ⟨hd.flows, hd'.flows, h.flows⟩,
    Best.SameMap.sameOffers ⟨hd.summary.sinks, hd'.summary.sinks, h.summary.sinks⟩,
    Best.SameMap.sameOffers ⟨hd.summary.returns, hd'.summary.returns, h.summary.returns⟩,
    Best.SameMap.sameOffers ⟨hd.summary.intrinsic, hd'.summary.intrinsic, h.summary.intrinsic⟩⟩

end Records

/-! ### Worklists -/

/-- Two worklists with the same queue that hold the same maps. -/
structure Work.SameMaps (w w' : Work) : Prop where
  queue : w'.queue = w.queue
  size : w'.states.size = w.states.size
  states : ∀ b, Option.Rel Best.SameMap (w.states.getD b none) (w'.states.getD b none)
  records : w.records.SameMaps w'.records

theorem Work.SameMaps.stateAt {w w' : Work} (h : w.SameMaps w') (b : Nat) :
    (w.stateAt b).SameMap (w'.stateAt b) := by
  have hstates := h.states b
  unfold Work.stateAt
  revert hstates
  cases w.states.getD b none <;> cases w'.states.getD b none <;> intro hb <;> cases hb
  · exact Best.sameMap_empty
  · next hsame => exact hsame

namespace Scope

variable {p : Program} {h f : Nat} {snap snap' : Snapshot} {st st' : State} {w w' : Work}

theorem sameMaps_propagate (hw : w.SameMaps w') (hst : st.SameMap st') (block : Nat) :
    (propagate st w block).SameMaps (propagate st' w' block) := by
  refine ⟨?_, by rw [size_propagate, size_propagate, hw.size], fun b => ?_, ?_⟩
  · -- a block is queued by both or by neither
    have hblock := hw.states block
    unfold propagate
    revert hblock
    cases w.states.getD block none <;> cases w'.states.getD block none <;> intro hb <;> cases hb
    · simp only [hw.queue]
    · next old old' hsame =>
      have himp := Best.improvedBy_eq hsame.alike hst.sameOffers
      simp only [hw.queue, himp]
  · rw [states_propagate, states_propagate, getD_setIfInBounds, getD_setIfInBounds, hw.size]
    split
    · exact .some ((hw.stateAt block).join hst)
    · exact hw.states b
  · rw [records_propagate, records_propagate]
    exact hw.records

/-- **A block leads from the same maps to the same maps.** -/
theorem sameMaps_process (hsnap : snap.SameMaps snap') (hw : w.SameMaps w') (block : Nat) :
    ((p.scope h snap f).process w block).SameMaps ((p.scope h snap' f).process w' block) := by
  have hst := hw.stateAt block
  have htaken : ((p.scope h snap f).taken w block).SameMaps
      ((p.scope h snap' f).taken w' block) := by
    refine ⟨?_, hw.size, hw.states, hw.records.foldl_add
      (fun q hq => exists_same_blockReport hsnap hst hq)
      fun q hq => exists_same_blockReport hsnap.symm hst.symm hq⟩
    show w'.queue.erase block = w.queue.erase block
    rw [hw.queue]
  have hend : ((p.scope h snap f).atEnd block (w.stateAt block)).SameMap
      ((p.scope h snap' f).atEnd block (w'.stateAt block)) := sameMap_before hsnap hst _
  have hsucc : (p.scope h snap' f).successors block = (p.scope h snap f).successors block := rfl
  rw [process_eq, process_eq, hsucc]
  generalize (p.scope h snap f).successors block = blocks
  generalize (p.scope h snap f).taken w block = v at htaken
  generalize (p.scope h snap' f).taken w' block = v' at htaken
  induction blocks generalizing v v' with
  | nil => exact htaken
  | cons b blocks ih => exact ih _ _ (sameMaps_propagate htaken hend b)

/-- The same maps go through the same blocks. -/
theorem sameMaps_run (hsnap : snap.SameMaps snap') : ∀ (fuel : Nat) (w w' : Work) (b : Budget),
    w.SameMaps w' →
      ((p.scope h snap f).run fuel w b).1.1.SameMaps ((p.scope h snap' f).run fuel w' b).1.1 ∧
        ((p.scope h snap' f).run fuel w' b).1.2 = ((p.scope h snap f).run fuel w b).1.2 := by
  intro fuel
  induction fuel with
  | zero =>
    intro w w' b hw
    cases hq : w.queue with
    | nil =>
      rw [run_of_queue_nil _ 0 hq, run_of_queue_nil _ 0 (hw.queue.trans hq)]
      exact ⟨hw, rfl⟩
    | cons block rest =>
      rw [run_zero _ hq, run_zero _ (hw.queue.trans hq)]
      exact ⟨hw, rfl⟩
  | succ fuel ih =>
    intro w w' b hw
    cases hq : w.queue with
    | nil =>
      rw [run_of_queue_nil _ _ hq, run_of_queue_nil _ _ (hw.queue.trans hq)]
      exact ⟨hw, rfl⟩
    | cons block rest =>
      rw [run_succ _ fuel hq, run_succ _ fuel (hw.queue.trans hq)]
      split
      · exact ⟨hw, rfl⟩
      · exact ih _ _ _ (sameMaps_process hsnap hw block)

theorem sameMaps_start (s : Scope) : s.start.SameMaps s.start := by
  have hentry : s.entryState.SameMap s.entryState := by
    rw [entryState_eq_offerAll]
    exact Best.sameMap_empty.offerAll (sameOffers_of_perm (.refl _))
  unfold start
  cases s.function.entry with
  | none => exact ⟨rfl, rfl, fun _ => .none, Records.sameMaps_empty⟩
  | some e =>
    refine ⟨rfl, rfl, fun b => ?_, Records.sameMaps_empty⟩
    dsimp only
    rw [getD_setIfInBounds, getD_replicate_self]
    split
    · exact .some hentry
    · exact .none

end Scope

end TaintFlow.Flow
