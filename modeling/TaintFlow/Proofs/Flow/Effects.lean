import TaintFlow.Proofs.Flow.ChainOrder
import TaintFlow.Proofs.Flow.Statements

/-!
# The effect of a statement, case by case

All that a statement can do, said once: every chain that it writes into a slot and every report that
it makes, each with the chains it was made from.  A chain that a state holds after a statement was
there before or was written, and all chains that are written or not overwritten are covered.

## Main definitions

* `Scope.Writes` — the chains that a statement writes.
* `Scope.Makes` — the reports that a statement makes.

## Main results

* `Scope.mem_next` — what a state holds after a statement.
* `Scope.covers_next_of_writes`, `Scope.covers_next_of_not_overwrites` — what it covers.
* `Scope.mem_reports_iff` — the reports of a statement.
-/

namespace TaintFlow.Flow

/-! ### Collections -/

namespace Best

variable {κ : Type} [BEq κ]

/-- What is at least as good as a covered chain demands is covered too. -/
theorem Covers.of_isLE {m : Best κ} {k : κ} {c d : Chain} (h : m.Covers k c)
    (hle : (compareChains c d).isLE) : m.Covers k d := by
  obtain ⟨e, he, hec⟩ := h
  exact ⟨e, he, Std.TransCmp.isLE_trans hec hle⟩

theorem Covers.coversAll {m other : Best κ} [LawfulBEq κ] {k : κ} {c : Chain}
    (h : other.Covers k c) (hall : m.CoversAll other) : m.Covers k c := by
  obtain ⟨d, hd, hle⟩ := h
  exact (hall k d (mem_entries_of_get? hd)).of_isLE hle

theorem get?_map (m : Best κ) (k : κ) (f : Chain → Chain) :
    (⟨m.entries.map fun e => (e.1, f e.2)⟩ : Best κ).get? k = (m.get? k).map f := by
  rw [get?, get?, List.find?_map, Option.map_map, Option.map_map]
  rfl

end Best

theorem State.covers_read {st : State} {names : List String} {x : String} {r : Root} {c : Chain}
    (hx : observes names x = true) (hc : ((x, r), c) ∈ st.entries) :
    (st.read names).Covers r c := by
  rw [read_eq_offerAll]
  exact Best.covers_offerAll _ (mem_observed.mpr ⟨x, hx, hc⟩)

/-- Clearing a slot leaves the slots alone that are not below it. -/
theorem State.get?_kill (st : State) {x t : String} (hx : Name.under x t = false) (r : Root) :
    (st.kill t).get? (x, r) = st.get? (x, r) := by
  rw [Best.get?, Best.get?, kill, List.find?_filter]
  congr 2
  funext e
  obtain ⟨⟨y, r'⟩, c⟩ := e
  by_cases hy : ((y, r') == (x, r)) = true
  · obtain ⟨rfl, rfl⟩ := Prod.mk.inj (beq_iff_eq.mp hy)
    simp [hx]
  · simp [Bool.not_eq_true _ ▸ hy]

namespace Scope

variable {s : Scope} {block pos : Nat} {st : State} {line : Int}

/-! ### What a statement writes -/

/-- A statement writes a chain into a slot: the chain of a source, of a name that it reads, of an
argument that a callee returns, or of a source that a callee returns. -/
inductive Writes (s : Scope) (block pos : Nat) (st : State) (line : Int) :
    Statement → String → Root → Chain → Prop where
  | seed {i : Nat} {slot : String} {src : Discovery.Source}
      (hsrc : s.program.sources[i]? = some src) :
      Writes s block pos st line (.seed i slot) slot (.source i)
        (.single (s.stepAt block pos line .source src.location.file slot))
  | read {file target : String} {names : List String} {calls : List Nat} {r : Root} {c : Chain}
      (hc : (r, c) ∈ (st.read names).entries) :
      Writes s block pos st line (.assign file target names calls) target r
        (c.push (s.stepAt block pos line .assignment file target))
  | bound {file target : String} {names : List String} {calls : List Nat} {i : Nat}
      {site : CallSite} {b : Binding} {tail : Chain} {r : Root} {c : Chain} (hi : i ∈ calls)
      (hsite : s.program.calls[i]? = some site) (hb : b ∈ site.bindings)
      (htail : (s.snapshot.summary site.callee).returns.get? b.param = some tail)
      (hc : (r, c) ∈ (st.read b.names).entries) :
      Writes s block pos st line (.assign file target names calls) target r
        ((s.compose c (s.stepAt block pos line .call file site.name) tail).push
          (s.stepAt block pos line .assignment file target))
  | intrinsic {file target : String} {names : List String} {calls : List Nat} {i k : Nat}
      {site : CallSite} {tail : Chain} (hi : i ∈ calls)
      (hsite : s.program.calls[i]? = some site)
      (htail : (k, tail) ∈ (s.snapshot.summary site.callee).intrinsic.entries) :
      Writes s block pos st line (.assign file target names calls) target (.source k)
        ((s.lift tail site).push (s.stepAt block pos line .assignment file target))

/-- A chain that flows out of a call is that of an argument that is returned, or that of a source
of the callee. -/
theorem mem_returnedBy {file target : String} {names : List String} {calls : List Nat} {r : Root}
    {c : Chain}
    (hc : (r, c) ∈ s.returnedBy st calls (s.stepAt block pos line .assignment file target)) :
    s.Writes block pos st line (.assign file target names calls) target r c := by
  obtain ⟨i, hi, hc⟩ := List.mem_flatMap.mp hc
  obtain ⟨site, hsite, hc⟩ := List.mem_flatMap.mp hc
  have hsite := Option.mem_toList.mp hsite
  rcases List.mem_append.mp hc with hc | hc
  · obtain ⟨b, hb, hc⟩ := List.mem_flatMap.mp hc
    obtain ⟨tail, htail, hc⟩ := List.mem_flatMap.mp hc
    obtain ⟨⟨r', c'⟩, hread, heq⟩ := List.mem_map.mp hc
    cases heq
    exact .bound hi hsite hb (Option.mem_toList.mp htail) hread
  · obtain ⟨⟨k, tail⟩, htail, heq⟩ := List.mem_map.mp hc
    cases heq
    exact .intrinsic hi hsite htail

/-- **What a state holds after a statement** it held before, or the statement wrote it. -/
theorem mem_next {stmt : Statement} {x : String} {r : Root} {c : Chain}
    (hc : ((x, r), c) ∈ (s.next block pos st ⟨line, stmt⟩).entries) :
    (stmt.overwrites x = false ∧ ((x, r), c) ∈ st.entries) ∨
      s.Writes block pos st line stmt x r c := by
  cases stmt with
  | seed i slot =>
    cases hsrc : s.program.sources[i]? with
    | none => exact Or.inl ⟨rfl, by simpa [next, transfer, hsrc] using hc⟩
    | some src =>
      have hc : ((x, r), c) ∈ (st.offer (slot, .source i)
          (.single (s.stepAt block pos line .source src.location.file slot))).entries := by
        simpa [next, transfer, hsrc] using hc
      rcases Best.mem_offer hc with he | he
      · cases he
        exact Or.inr (.seed hsrc)
      · exact Or.inl ⟨rfl, he⟩
  | call i =>
    refine Or.inl ⟨rfl, ?_⟩
    cases hsite : s.program.calls[i]? <;> simpa [next, transfer, hsite] using hc
  | sink k names =>
    refine Or.inl ⟨rfl, ?_⟩
    cases hsink : s.program.sinks[k]? <;> simpa [next, transfer, hsink] using hc
  | assign file target names calls =>
    rw [next_assign] at hc
    rcases Best.mem_offerAll hc with he | he
    · exact Or.inl (State.mem_kill.mp he)
    · obtain ⟨⟨r', c'⟩, hflow, heq⟩ := List.mem_map.mp he
      cases heq
      rw [assignFlows_eq_offerAll] at hflow
      rcases Best.mem_offerAll hflow with hread | hret
      · obtain ⟨⟨r', c'⟩, hmem, heq⟩ := List.mem_map.mp hread
        cases heq
        exact Or.inr (.read hmem)
      · exact Or.inr (mem_returnedBy hret)
  | ret file expr names => exact Or.inl ⟨rfl, hc⟩

/-- Of the chains that an assignment writes it gathers one at least as good. -/
theorem covers_assignFlows {file target x : String} {names : List String} {calls : List Nat}
    {r : Root} {c : Chain}
    (hc : s.Writes block pos st line (.assign file target names calls) x r c) :
    x = target ∧ (s.assignFlows st names calls
      (s.stepAt block pos line .assignment file target)).Covers r c := by
  rw [assignFlows_eq_offerAll]
  cases hc with
  | read hc =>
    refine ⟨rfl, Best.Covers.offerAll ?_ _⟩
    obtain ⟨x, hx, hmem⟩ := State.mem_read hc
    obtain ⟨d, hd, hle⟩ := State.covers_read hx hmem
    have hpushed := Best.get?_map (st.read names) r
      (·.push (s.stepAt block pos line .assignment file target))
    rw [hd] at hpushed
    exact ⟨_, hpushed, isLE_push hle _⟩
  | bound hi hsite hb htail hc =>
    refine ⟨rfl, Best.covers_offerAll _ ?_⟩
    refine List.mem_flatMap.mpr ⟨_, hi, List.mem_flatMap.mpr ⟨_, Option.mem_toList.mpr hsite, ?_⟩⟩
    refine List.mem_append_left _ (List.mem_flatMap.mpr ⟨_, hb, ?_⟩)
    exact List.mem_flatMap.mpr ⟨_, Option.mem_toList.mpr htail, List.mem_map.mpr ⟨_, hc, rfl⟩⟩
  | intrinsic hi hsite htail =>
    refine ⟨rfl, Best.covers_offerAll _ ?_⟩
    refine List.mem_flatMap.mpr ⟨_, hi, List.mem_flatMap.mpr ⟨_, Option.mem_toList.mpr hsite, ?_⟩⟩
    exact List.mem_append_right _ (List.mem_map.mpr ⟨_, htail, rfl⟩)

/-- **What a statement writes is covered afterwards.** -/
theorem covers_next_of_writes {stmt : Statement} {x : String} {r : Root} {c : Chain}
    (hc : s.Writes block pos st line stmt x r c) :
    (s.next block pos st ⟨line, stmt⟩).Covers (x, r) c := by
  cases stmt with
  | seed i slot =>
    cases hc with
    | seed hsrc =>
      simp only [next, transfer, hsrc]
      exact Best.covers_offer _ _ _
  | assign file target names calls =>
    obtain ⟨rfl, d, hd, hle⟩ := covers_assignFlows hc
    rw [next_assign]
    refine Best.Covers.of_isLE (Best.covers_offerAll _ ?_) hle
    exact List.mem_map.mpr ⟨(r, d), Best.mem_entries_of_get? hd, rfl⟩
  | call i => cases hc
  | sink k names => cases hc
  | ret file expr names => cases hc

/-- A slot that a statement does not overwrite keeps what it covers. -/
theorem covers_next_of_not_overwrites {stmt : Statement} {x : String} {r : Root} {c : Chain}
    (hx : stmt.overwrites x = false) (hc : st.Covers (x, r) c) :
    (s.next block pos st ⟨line, stmt⟩).Covers (x, r) c := by
  cases stmt with
  | seed i slot =>
    simp only [next, transfer]
    split
    · exact hc
    · exact hc.offer _ _
  | call i =>
    simp only [next, transfer]
    split <;> exact hc
  | sink k names =>
    simp only [next, transfer]
    split <;> exact hc
  | assign file target names calls =>
    rw [next_assign]
    refine Best.Covers.offerAll ?_ _
    rw [Best.Covers, State.get?_kill st hx]
    exact hc
  | ret file expr names => exact hc

/-! ### What a statement reports -/

/-- A statement makes a report: a call passes taint on and reaches the sinks of its callee, a sink
and a return report what they read. -/
inductive Makes (s : Scope) (block pos : Nat) (st : State) (line : Int) :
    Statement → Report → Prop where
  | pass {i : Nat} {site : CallSite} {b : Binding} {r : Root} {c : Chain}
      (hsite : s.program.calls[i]? = some site) (hb : b ∈ site.bindings)
      (hc : (r, c) ∈ (st.read b.names).entries) :
      Makes s block pos st line (.call i) (.pass site.callee b.param)
  | call {i k : Nat} {site : CallSite} {b : Binding} {r : Root} {c tail : Chain}
      (hsite : s.program.calls[i]? = some site) (hb : b ∈ site.bindings)
      (hc : (r, c) ∈ (st.read b.names).entries)
      (htail : ((b.param, k), tail) ∈ (s.snapshot.summary site.callee).sinks.entries) :
      Makes s block pos st line (.call i)
        (.sink r k (s.compose c (s.stepAt block pos line .call site.file site.name) tail))
  | sink {k : Nat} {names : List String} {snk : Discovery.Sink} {r : Root} {c : Chain}
      (hsink : s.program.sinks[k]? = some snk) (hc : (r, c) ∈ (st.read names).entries) :
      Makes s block pos st line (.sink k names)
        (.sink r k (c.push (s.stepAt block pos line .sink snk.location.file snk.name)))
  | ret {file expr : String} {names : List String} {r : Root} {c : Chain}
      (hc : (r, c) ∈ (st.read names).entries) :
      Makes s block pos st line (.ret file expr names)
        (.ret r (c.push (s.stepAt block pos line .ret file expr)))

/-- **The reports of a statement.** -/
theorem mem_reports_iff {stmt : Statement} {report : Report} :
    report ∈ s.reports block pos st ⟨line, stmt⟩ ↔ s.Makes block pos st line stmt report := by
  constructor
  · intro hreport
    cases stmt with
    | seed i slot => exact absurd hreport List.not_mem_nil
    | assign file target names calls => exact absurd hreport List.not_mem_nil
    | call i =>
      obtain ⟨site, hsite, hreport⟩ := List.mem_flatMap.mp hreport
      have hsite := Option.mem_toList.mp hsite
      obtain ⟨b, hb, hreport⟩ := List.mem_flatMap.mp hreport
      obtain ⟨⟨r, c⟩, hread, hreport⟩ := List.mem_flatMap.mp hreport
      rcases List.mem_cons.mp hreport with rfl | hreport
      · exact .pass hsite hb hread
      · obtain ⟨⟨k, tail⟩, htail, rfl⟩ := List.mem_map.mp hreport
        exact .call hsite hb hread (Summary.mem_sinksOf.mp htail)
    | sink k names =>
      obtain ⟨snk, hsink, hreport⟩ := List.mem_flatMap.mp hreport
      obtain ⟨⟨r, c⟩, hread, rfl⟩ := List.mem_map.mp hreport
      exact .sink (Option.mem_toList.mp hsink) hread
    | ret file expr names =>
      obtain ⟨⟨r, c⟩, hread, rfl⟩ := List.mem_map.mp hreport
      exact .ret hread
  · intro hmakes
    cases hmakes with
    | pass hsite hb hc =>
      refine List.mem_flatMap.mpr ⟨_, Option.mem_toList.mpr hsite, ?_⟩
      refine List.mem_flatMap.mpr ⟨_, hb, List.mem_flatMap.mpr ⟨_, hc, ?_⟩⟩
      exact List.mem_cons_self
    | call hsite hb hc htail =>
      refine List.mem_flatMap.mpr ⟨_, Option.mem_toList.mpr hsite, ?_⟩
      refine List.mem_flatMap.mpr ⟨_, hb, List.mem_flatMap.mpr ⟨_, hc, ?_⟩⟩
      exact List.mem_cons_of_mem _ (List.mem_map.mpr ⟨_, Summary.mem_sinksOf.mpr htail, rfl⟩)
    | sink hsink hc =>
      exact List.mem_flatMap.mpr ⟨_, Option.mem_toList.mpr hsink, List.mem_map.mpr ⟨_, hc, rfl⟩⟩
    | ret hc => exact List.mem_map.mpr ⟨_, hc, rfl⟩

end Scope

end TaintFlow.Flow
