import TaintFlow.Proofs.Flow.Depths
import TaintFlow.Proofs.Flow.Effects
import TaintFlow.Proofs.Flow.Soundness
import TaintFlow.Proofs.Flow.Worklist

/-!
# The order in which blocks are visited

The worklist takes blocks first in, first out.  Any other order of taking queued blocks leads to the
same tainted slots, flows, summaries and passed parameters.  It leads to the same chains as long as
the chains that meet before a call cross equally many calls, or stay clear of the hop limit with it.
Otherwise it need not: the order of chains ranks a short chain above a long one that crosses fewer
calls, and a call may leave out the steps of the one and not of the other.

The proof compares any worklist with one that is finished.  Whatever is held on the way, a finished
worklist holds something at least as good, as its states solve the equations of the blocks.

## Main definitions

* `Scope.Visits` — the worklists that some order of visiting leads to.
* `Coarsens`, `Best.Dominates` — holding something at least as good, for a relation that is no finer
  than the order of chains.
* `Scope.Even` — chains that meet before a call are alike as to the hop limit.
* `Work.SameBy` — two worklists with the same keys and related chains.

## Main results

* `Scope.dominates_next`, `Scope.dominates_process` — what one step preserves.
* `Scope.dominates_of_visits` — what a whole visit preserves.
* `Program.same_results_of_visiting_orders` — the results of two orders.
-/

namespace TaintFlow.Flow

/-! ### Holding something at least as good -/

/-- A relation between chains that is no finer than their order, and that one more step keeps. -/
structure Coarsens (le : Chain → Chain → Prop) : Prop where
  refl : ∀ c, le c c
  trans : ∀ b c d, (compareChains b c).isLE → le c d → le b d
  push : ∀ c d s, le c d → le (c.push s) (d.push s)

theorem coarsens_true : Coarsens fun _ _ => True :=
  ⟨fun _ => trivial, fun _ _ _ _ _ => trivial, fun _ _ _ _ => trivial⟩

theorem coarsens_isLE : Coarsens fun c d => (compareChains c d).isLE :=
  ⟨isLE_compareChains_self, fun _ _ _ => Std.TransCmp.isLE_trans, fun _ _ s h => isLE_push h s⟩

namespace Best

variable {κ : Type} [BEq κ] {le : Chain → Chain → Prop}

/-- For a key something is held that is at least as good as a given chain. -/
def Tops (le : Chain → Chain → Prop) (m : Best κ) (k : κ) (c : Chain) : Prop :=
  ∃ d, m.get? k = some d ∧ le d c

/-- Something at least as good is held for all that another collection holds. -/
def Dominates (le : Chain → Chain → Prop) (m other : Best κ) : Prop :=
  ∀ k c, (k, c) ∈ other.entries → m.Tops le k c

theorem Covers.tops {m : Best κ} {k : κ} {c d : Chain} (h : m.Covers k c) (hle : Coarsens le)
    (hcd : le c d) : m.Tops le k d := by
  obtain ⟨e, he, hec⟩ := h
  exact ⟨e, he, hle.trans e c d hec hcd⟩

theorem Tops.coversAll [LawfulBEq κ] {m m' : Best κ} {k : κ} {c : Chain} (h : m'.Tops le k c)
    (hle : Coarsens le) (hall : m.CoversAll m') : m.Tops le k c := by
  obtain ⟨d, hd, hdc⟩ := h
  exact (hall k d (mem_entries_of_get? hd)).tops hle hdc

theorem dominates_empty (m : Best κ) : m.Dominates le {} :=
  fun _ _ h => absurd h List.not_mem_nil

theorem Dominates.offer {m other : Best κ} (h : m.Dominates le other) {k : κ} {c : Chain}
    (hc : m.Tops le k c) : m.Dominates le (other.offer k c) := by
  intro k' c' hc'
  rcases mem_offer hc' with he | he
  · cases he
    exact hc
  · exact h k' c' he

theorem Dominates.join {m a b : Best κ} (ha : m.Dominates le a) (hb : m.Dominates le b) :
    m.Dominates le (a.join b) := by
  intro k c hc
  rcases mem_offerAll hc with hc | hc
  · exact ha k c hc
  · exact hb k c hc

end Best

/-- Reading a state that dominates another one gives chains that are at least as good. -/
theorem State.exists_mem_read {le : Chain → Chain → Prop} (hle : Coarsens le) {st st' : State}
    (h : st'.Dominates le st) {names : List String} {r : Root} {c : Chain}
    (hc : (r, c) ∈ (st.read names).entries) :
    ∃ d, (r, d) ∈ (st'.read names).entries ∧ le d c := by
  obtain ⟨x, hx, hmem⟩ := mem_read hc
  obtain ⟨d, hd, hdc⟩ := h (x, r) c hmem
  obtain ⟨e, he, hec⟩ := (covers_read hx (Best.mem_entries_of_get? hd)).tops hle hdc
  exact ⟨e, Best.mem_entries_of_get? he, hec⟩

/-- A report that says the same as another one, by a chain at least as good. -/
inductive Report.Betters (le : Chain → Chain → Prop) : Report → Report → Prop where
  | sink {r : Root} {k : Nat} {c d : Chain} (h : le d c) : Betters le (.sink r k d) (.sink r k c)
  | ret {r : Root} {c d : Chain} (h : le d c) : Betters le (.ret r d) (.ret r c)
  | pass (callee i : Nat) : Betters le (.pass callee i) (.pass callee i)

/-- Something at least as good is recorded for all that other records hold. -/
structure Records.Dominates (le : Chain → Chain → Prop) (rec other : Records) : Prop where
  sinks : rec.summary.sinks.Dominates le other.summary.sinks
  returns : rec.summary.returns.Dominates le other.summary.returns
  intrinsic : rec.summary.intrinsic.Dominates le other.summary.intrinsic
  flows : rec.flows.Dominates le other.flows
  args : ∀ a ∈ other.args, a ∈ rec.args

namespace Records

variable {le : Chain → Chain → Prop} {rec other : Records}

theorem dominates_empty (rec : Records) : rec.Dominates le {} where
  sinks := Best.dominates_empty _
  returns := Best.dominates_empty _
  intrinsic := Best.dominates_empty _
  flows := Best.dominates_empty _
  args _ h := absurd h List.not_mem_nil

theorem Dominates.add (hle : Coarsens le) (h : rec.Dominates le other) {q q' : Report}
    (hq : rec.Covers q') (hbetter : q'.Betters le q) : rec.Dominates le (other.add q) := by
  cases hbetter with
  | @sink r k c d hdc =>
    cases r with
    | source s => exact { h with flows := h.flows.offer (Best.Covers.tops hq hle hdc) }
    | param i => exact { h with sinks := h.sinks.offer (Best.Covers.tops hq hle hdc) }
  | @ret r c d hdc =>
    cases r with
    | source s => exact { h with intrinsic := h.intrinsic.offer (Best.Covers.tops hq hle hdc) }
    | param i => exact { h with returns := h.returns.offer (Best.Covers.tops hq hle hdc) }
  | pass callee i =>
    refine { h with args := fun a ha => ?_ }
    rcases mem_addNew.mp ha with ha | rfl
    · exact h.args a ha
    · exact hq

theorem Dominates.foldl_add (hle : Coarsens le) (h : rec.Dominates le other) {qs : List Report}
    (hqs : ∀ q ∈ qs, ∃ q', rec.Covers q' ∧ q'.Betters le q) :
    rec.Dominates le (qs.foldl Records.add other) := by
  induction qs generalizing other with
  | nil => exact h
  | cons q qs ih =>
    obtain ⟨q', hq', hbetter⟩ := hqs q List.mem_cons_self
    exact ih (h.add hle hq' hbetter) fun q hq => hqs q (List.mem_cons_of_mem _ hq)

end Records

/-! ### Statements -/

/-- The call sites that a statement goes through. -/
def Statement.sites : Statement → List Nat
  | .call i => [i]
  | .assign _ _ _ calls => calls
  | _ => []

namespace Scope

variable {s : Scope} {le : Chain → Chain → Prop} {block pos : Nat} {line : Int} {st st' : State}

/-- A callee goes on from a parameter by a chain: to a return or to a sink. -/
def GoesOn (s : Scope) (callee param : Nat) (tail : Chain) : Prop :=
  (s.snapshot.summary callee).returns.get? param = some tail ∨
    ∃ k, ((param, k), tail) ∈ (s.snapshot.summary callee).sinks.entries

/-- The calls of a statement keep a relation between the chains that two states hold for an
argument. -/
def Keeps (s : Scope) (le : Chain → Chain → Prop) (stmt : Statement) (st' st : State) : Prop :=
  ∀ i ∈ stmt.sites, ∀ site, s.program.calls[i]? = some site → ∀ b ∈ site.bindings, ∀ r c d tail,
    s.GoesOn site.callee b.param tail → (r, d) ∈ (st'.read b.names).entries →
      (r, c) ∈ (st.read b.names).entries → le d c →
      ∀ call, le (s.compose d call tail) (s.compose c call tail)

/-- A slot that a statement does not overwrite keeps something at least as good. -/
theorem tops_next_of_not_overwrites (hle : Coarsens le) {stmt : Statement} {x : String} {r : Root}
    {c : Chain} (hx : stmt.overwrites x = false) (hc : st.Tops le (x, r) c) :
    (s.next block pos st ⟨line, stmt⟩).Tops le (x, r) c := by
  obtain ⟨d, hd, hdc⟩ := hc
  exact (covers_next_of_not_overwrites hx ⟨d, hd, isLE_compareChains_self d⟩).tops hle hdc

/-- What a statement writes in one state, it tops in a state that is ahead. -/
theorem tops_next_of_writes (hle : Coarsens le) (h : st'.Dominates le st) {stmt : Statement}
    (hkeeps : s.Keeps le stmt st' st) {x : String} {r : Root} {c : Chain}
    (hc : s.Writes block pos st line stmt x r c) :
    (s.next block pos st' ⟨line, stmt⟩).Tops le (x, r) c := by
  cases hc with
  | seed hsrc => exact (covers_next_of_writes (.seed hsrc)).tops hle (hle.refl _)
  | read hread =>
    obtain ⟨d, hd, hdc⟩ := State.exists_mem_read hle h hread
    exact (covers_next_of_writes (.read hd)).tops hle (hle.push _ _ _ hdc)
  | bound hi hsite hb htail hread =>
    obtain ⟨d, hd, hdc⟩ := State.exists_mem_read hle h hread
    have hcall := hkeeps _ hi _ hsite _ hb _ _ _ _ (Or.inl htail) hd hread hdc
    exact (covers_next_of_writes (.bound hi hsite hb htail hd)).tops hle
      (hle.push _ _ _ (hcall _))
  | intrinsic hi hsite htail =>
    exact (covers_next_of_writes (.intrinsic hi hsite htail)).tops hle (hle.refl _)

/-- **A statement keeps one state ahead of another.** -/
theorem dominates_next (hle : Coarsens le) (h : st'.Dominates le st) {stmt : Statement}
    (hkeeps : s.Keeps le stmt st' st) :
    (s.next block pos st' ⟨line, stmt⟩).Dominates le (s.next block pos st ⟨line, stmt⟩) := by
  rintro ⟨x, r⟩ c hc
  rcases mem_next hc with ⟨hx, hmem⟩ | hwrites
  · exact tops_next_of_not_overwrites hle hx (h (x, r) c hmem)
  · exact tops_next_of_writes hle h hkeeps hwrites

/-- For every report of a statement there is one at least as good from a state that is ahead. -/
theorem exists_betters (hle : Coarsens le) (h : st'.Dominates le st) {stmt : Statement}
    (hkeeps : s.Keeps le stmt st' st) {report : Report}
    (hreport : report ∈ s.reports block pos st ⟨line, stmt⟩) :
    ∃ report' ∈ s.reports block pos st' ⟨line, stmt⟩, report'.Betters le report := by
  cases mem_reports_iff.mp hreport with
  | pass hsite hb hread =>
    obtain ⟨d, hd, -⟩ := State.exists_mem_read hle h hread
    exact ⟨_, mem_reports_iff.mpr (.pass hsite hb hd), .pass _ _⟩
  | call hsite hb hread htail =>
    obtain ⟨d, hd, hdc⟩ := State.exists_mem_read hle h hread
    have hcall := hkeeps _ (List.mem_singleton_self _) _ hsite _ hb _ _ _ _ (Or.inr ⟨_, htail⟩)
      hd hread hdc
    exact ⟨_, mem_reports_iff.mpr (.call hsite hb hd htail), .sink (hcall _)⟩
  | sink hsink hread =>
    obtain ⟨d, hd, hdc⟩ := State.exists_mem_read hle h hread
    exact ⟨_, mem_reports_iff.mpr (.sink hsink hd), .sink (hle.push _ _ _ hdc)⟩
  | ret hread =>
    obtain ⟨d, hd, hdc⟩ := State.exists_mem_read hle h hread
    exact ⟨_, mem_reports_iff.mpr (.ret hd), .ret (hle.push _ _ _ hdc)⟩

/-! ### Blocks -/

/-- The calls of a block keep a relation between chains, when it is entered with two states. -/
def BlockKeeps (s : Scope) (le : Chain → Chain → Prop) (block : Nat) (st' st : State) : Prop :=
  ∀ (pos : Nat) (line : Int) (stmt : Statement),
    (s.program.statementsAt s.index block)[pos]? = some ⟨line, stmt⟩ →
      s.Keeps le stmt (s.before block st' pos) (s.before block st pos)

theorem dominates_before (hle : Coarsens le) (h : st'.Dominates le st)
    (hkeeps : s.BlockKeeps le block st' st) (pos : Nat) :
    (s.before block st' pos).Dominates le (s.before block st pos) := by
  induction pos with
  | zero => exact h
  | succ n ih =>
    cases hq : (s.program.statementsAt s.index block)[n]? with
    | none =>
      rw [before, before, hq]
      exact ih
    | some q =>
      rw [before_succ hq, before_succ hq]
      exact dominates_next hle ih (hkeeps n q.line q.statement hq)

theorem exists_betters_block (hle : Coarsens le) (h : st'.Dominates le st)
    (hkeeps : s.BlockKeeps le block st' st) {report : Report}
    (hreport : report ∈ s.blockReports block st) :
    ∃ report' ∈ s.blockReports block st', report'.Betters le report := by
  obtain ⟨n, hn, hreport⟩ := List.mem_flatMap.mp hreport
  have hn : n < (s.program.statementsAt s.index block).length := List.mem_range.mp hn
  have hq : (s.program.statementsAt s.index block)[n]? =
      some ((s.program.statementsAt s.index block)[n]) := List.getElem?_eq_getElem hn
  rw [reportsAt_eq hq] at hreport
  obtain ⟨report', hmem, hbetter⟩ := exists_betters hle (dominates_before hle h hkeeps n)
    (hkeeps n _ _ hq) hreport
  exact ⟨report', mem_blockReports hq hmem, hbetter⟩

/-! ### Visiting blocks -/

/-- The worklists that visiting queued blocks leads to, in any order. -/
inductive Visits (s : Scope) : Work → Prop where
  | start : Visits s s.start
  | visit {w : Work} {block : Nat} (hw : Visits s w) (hblock : block ∈ w.queue) :
      Visits s (s.process w block)

/-- First in, first out is one of the orders. -/
theorem visits_run (s : Scope) (fuel : Nat) (b : Budget) :
    s.Visits (s.run fuel s.start b).1.1 := by
  refine s.run_preserves (P := s.Visits) (fun w block rest hq hw => hw.visit ?_) fuel s.start b
    .start
  rw [hq]
  exact List.mem_cons_self

variable {w w' : Work}

theorem mem_queue_of_propagate {b : Nat} (h : b ∈ (propagate st w block).queue) :
    b ∈ w.queue ∨ b = block := by
  unfold propagate at h
  cases hold : w.states.getD block none with
  | none =>
    rw [hold] at h
    dsimp only at h
    split at h
    · exact Or.inl h
    · simpa using h
  | some old =>
    rw [hold] at h
    dsimp only at h
    split at h
    · simpa using h
    · exact Or.inl h

theorem mem_queue_of_foldl_propagate {b : Nat} {blocks : List Nat}
    (h : b ∈ (blocks.foldl (propagate st) w).queue) : b ∈ w.queue ∨ b ∈ blocks := by
  induction blocks generalizing w with
  | nil => exact Or.inl h
  | cons b' blocks ih =>
    rcases ih h with h | h
    · rcases mem_queue_of_propagate h with h | rfl
      · exact Or.inl h
      · exact Or.inr List.mem_cons_self
    · exact Or.inr (List.mem_cons_of_mem _ h)

/-- What a state holds after a state was joined into some blocks, it held before, or it was joined
in. -/
theorem mem_stateAt_foldl_propagate {blocks : List Nat} {b : Nat} {e : (String × Root) × Chain}
    (h : e ∈ ((blocks.foldl (propagate st) w).stateAt b).entries) :
    e ∈ (w.stateAt b).entries ∨ b ∈ blocks ∧ e ∈ st.entries := by
  induction blocks generalizing w with
  | nil => exact Or.inl h
  | cons b' blocks ih =>
    rcases ih h with h | ⟨hb, h⟩
    · rw [stateAt_propagate] at h
      split at h
      · next heq =>
        rw [← heq.1]
        rcases Best.mem_offerAll h with h | h
        · exact Or.inl h
        · exact Or.inr ⟨List.mem_cons_self, h⟩
      · exact Or.inl h
    · exact Or.inr ⟨List.mem_cons_of_mem _ hb, h⟩

/-- What a state holds after a block was visited, it held before, or the block led to it. -/
theorem mem_stateAt_process {b : Nat} {e : (String × Root) × Chain}
    (h : e ∈ ((s.process w block).stateAt b).entries) :
    e ∈ (w.stateAt b).entries ∨
      b ∈ s.successors block ∧ e ∈ (s.atEnd block (w.stateAt block)).entries := by
  rw [process_eq] at h
  exact (mem_stateAt_foldl_propagate h).imp id id

/-- What every order keeps: the invariant of the loop, and only blocks of the function are queued. -/
theorem Visits.settled (hs : s.function.Sound) (ha : s.function.analyzable = true)
    (hw : s.Visits w) : w.Settled s ∧ ∀ b ∈ w.queue, b < s.function.blocks.size := by
  obtain ⟨e, he, hlt, -⟩ := hs.entry ha
  induction hw with
  | start =>
    refine ⟨settled_start he hlt, fun b hb => ?_⟩
    rw [Scope.start, he] at hb
    rw [List.mem_singleton.mp hb]
    exact hlt
  | @visit w block hw hblock ih =>
    refine ⟨settled_process hs ih.1 block, fun b hb => ?_⟩
    rw [process_eq] at hb
    rcases mem_queue_of_foldl_propagate hb with hb | hb
    · exact ih.2 b (List.mem_of_mem_erase hb)
    · exact hs.edge block b (mem_successors.mp hb)

end Scope

/-! ### One visit against a finished one -/

/-- Something at least as good is held, in every state and in the records. -/
structure Work.Dominates (le : Chain → Chain → Prop) (w other : Work) : Prop where
  states : ∀ b, (w.stateAt b).Dominates le (other.stateAt b)
  records : w.records.Dominates le other.records

namespace Scope

variable {s : Scope} {le : Chain → Chain → Prop} {w w' : Work}

/-- Before the first step nothing is tainted but on entry. -/
theorem stateAt_start (s : Scope) (b : Nat) : s.start.stateAt b = {} ∨
    s.function.entry = some b ∧ s.start.stateAt b = s.entryState := by
  unfold start Work.stateAt
  cases he : s.function.entry with
  | none => exact Or.inl rfl
  | some e =>
    dsimp only
    rw [getD_setIfInBounds, getD_replicate_self]
    split
    · next heq => exact Or.inr ⟨by rw [heq.1], rfl⟩
    · exact Or.inl rfl

@[simp] theorem records_start (s : Scope) : s.start.records = {} := by
  unfold start
  split <;> rfl

theorem dominates_start (hle : Coarsens le) (hsolves : s.Solves w'.records w'.stateAt) :
    w'.Dominates le s.start := by
  refine ⟨fun b => ?_, ?_⟩
  · rcases s.stateAt_start b with hb | ⟨he, hb⟩
    · rw [hb]
      exact Best.dominates_empty _
    · rw [hb]
      intro k c hc
      exact (hsolves.entry b he k c hc).tops hle (hle.refl c)
  · rw [records_start]
    exact Records.dominates_empty _

/-- **Visiting a block keeps a solution ahead.** -/
theorem dominates_process (hle : Coarsens le) (hsolves : s.Solves w'.records w'.stateAt)
    (hw : w'.Dominates le w) {block : Nat} (hlt : block < s.function.blocks.size)
    (hkeeps : s.BlockKeeps le block (w'.stateAt block) (w.stateAt block)) :
    w'.Dominates le (s.process w block) := by
  have hst := hw.states block
  have hend : ∀ b ∈ s.successors block,
      (w'.stateAt b).Dominates le (s.atEnd block (w.stateAt block)) := by
    intro b hb k c hc
    have htops := dominates_before hle hst hkeeps _ k c hc
    exact htops.coversAll hle (hsolves.edge block b (mem_successors.mp hb))
  have hrec : w'.records.Dominates le (s.taken w block).records := by
    refine hw.records.foldl_add hle fun q hq => ?_
    obtain ⟨q', hq', hbetter⟩ := exists_betters_block hle hst hkeeps hq
    exact ⟨q', hsolves.reports block hlt q' hq', hbetter⟩
  refine ⟨fun b k c hc => ?_, ?_⟩
  · rcases mem_stateAt_process hc with hc | ⟨hb, hc⟩
    · exact hw.states b k c hc
    · exact hend b hb k c hc
  · rw [records_process]
    exact hrec

/-- **A finished visit is ahead of every other one**, by a relation that calls keep. -/
theorem dominates_of_visits (hle : Coarsens le) (hs : s.function.Sound)
    (ha : s.function.analyzable = true) (hw' : s.Visits w') (hq' : w'.queue = [])
    (hkeeps : ∀ w, s.Visits w → ∀ block,
      s.BlockKeeps le block (w'.stateAt block) (w.stateAt block))
    (hw : s.Visits w) : w'.Dominates le w := by
  have hsolves := solves_of_queue_nil hs ha (hw'.settled hs ha).1 hq'
  induction hw with
  | start => exact dominates_start hle hsolves
  | @visit w block hw hblock ih =>
    exact dominates_process hle hsolves ih ((hw.settled hs ha).2 block hblock) (hkeeps w hw block)

end Scope

/-! ### Two finished visits -/

/-- Two collections hold chains for the same keys, and those are related. -/
def Best.SameBy {κ : Type} [BEq κ] (rel : Chain → Chain → Prop) (m m' : Best κ) : Prop :=
  ∀ k, Option.Rel rel (m.get? k) (m'.get? k)

/-- Two worklists have met the same blocks, hold chains for the same slots, flows and summaries,
and these are related; and they have passed taint to the same parameters. -/
structure Work.SameBy (rel : Chain → Chain → Prop) (w w' : Work) : Prop where
  states : ∀ b, Option.Rel (Best.SameBy rel) (w.states.getD b none) (w'.states.getD b none)
  flows : w.records.flows.SameBy rel w'.records.flows
  sinks : w.records.summary.sinks.SameBy rel w'.records.summary.sinks
  returns : w.records.summary.returns.SameBy rel w'.records.summary.returns
  intrinsic : w.records.summary.intrinsic.SameBy rel w'.records.summary.intrinsic
  args : ∀ a, a ∈ w.records.args ↔ a ∈ w'.records.args

/-- Collections that are ahead of each other hold chains for the same keys. -/
theorem Best.sameBy_of_dominates {κ : Type} [BEq κ] [LawfulBEq κ] {le rel : Chain → Chain → Prop}
    (hrel : ∀ c d, le c d → le d c → rel c d) {m m' : Best κ} (h : m.Dominates le m')
    (h' : m'.Dominates le m) : m.SameBy rel m' := by
  intro k
  cases hc : m.get? k with
  | none =>
    cases hd : m'.get? k with
    | none => exact .none
    | some d =>
      obtain ⟨c, hc', -⟩ := h k d (mem_entries_of_get? hd)
      rw [hc] at hc'
      cases hc'
  | some c =>
    obtain ⟨d, hd, hdc⟩ := h' k c (mem_entries_of_get? hc)
    obtain ⟨c', hc', hcd⟩ := h k d (mem_entries_of_get? hd)
    obtain rfl : c = c' := Option.some.inj (hc.symm.trans hc')
    rw [hd]
    exact .some (hrel c d hcd hdc)

namespace Scope

variable {s : Scope} {le rel : Chain → Chain → Prop} {w w' : Work}

/-- **Two finished visits hold the same**, up to a relation that calls keep. -/
theorem sameBy_of_visits (hle : Coarsens le) (hrel : ∀ c d, le c d → le d c → rel c d)
    (hs : s.function.Sound) (ha : s.function.analyzable = true)
    (hkeeps : ∀ w w', s.Visits w → s.Visits w' → ∀ block,
      s.BlockKeeps le block (w'.stateAt block) (w.stateAt block))
    (hw : s.Visits w) (hw' : s.Visits w') (hq : w.queue = []) (hq' : w'.queue = []) :
    w.SameBy rel w' := by
  have h : w.Dominates le w' :=
    dominates_of_visits hle hs ha hw hq (fun v hv => hkeeps v w hv hw) hw'
  have h' : w'.Dominates le w :=
    dominates_of_visits hle hs ha hw' hq' (fun v hv => hkeeps v w' hv hw') hw
  obtain ⟨hset, -⟩ := hw.settled hs ha
  obtain ⟨hset', -⟩ := hw'.settled hs ha
  refine ⟨fun b => ?_, ?_, ?_, ?_, ?_, fun a => ⟨h'.records.args a, h.records.args a⟩⟩
  · have hsame := Best.sameBy_of_dominates hrel (h.states b) (h'.states b)
    by_cases hb : b < s.function.blocks.size
    · -- both have met the block
      obtain ⟨st, hst⟩ := Option.isSome_iff_exists.mp (met_of_queue_nil hs ha hset hq b hb)
      obtain ⟨st', hst'⟩ := Option.isSome_iff_exists.mp (met_of_queue_nil hs ha hset' hq' b hb)
      rw [Work.stateAt, Work.stateAt, hst, hst'] at hsame
      rw [hst, hst']
      exact .some hsame
    · have hnone : ∀ w : Work, w.Settled s → w.states.getD b none = none := by
        intro w hw
        rw [Array.getD_eq_getD_getElem?, Array.getElem?_eq_none (by rw [hw.size]; omega)]
        rfl
      rw [hnone w hset, hnone w' hset']
      exact .none
  · exact Best.sameBy_of_dominates hrel h.records.flows h'.records.flows
  · exact Best.sameBy_of_dominates hrel h.records.sinks h'.records.sinks
  · exact Best.sameBy_of_dominates hrel h.records.returns h'.records.returns
  · exact Best.sameBy_of_dominates hrel h.records.intrinsic h'.records.intrinsic

/-! ### Chains that meet before a call -/

/-- Two chains meet before a call: in some orders of visiting the blocks they are what one argument
of the call reads of one root, and the callee goes on from it by a third chain. -/
inductive Meet (s : Scope) (tail c d : Chain) : Prop where
  | intro {w w' : Work} {block pos i : Nat} {line : Int} {stmt : Statement} {site : CallSite}
      {b : Binding} {r : Root} (hw : s.Visits w) (hw' : s.Visits w')
      (hq : (s.program.statementsAt s.index block)[pos]? = some ⟨line, stmt⟩)
      (hi : i ∈ stmt.sites) (hsite : s.program.calls[i]? = some site) (hb : b ∈ site.bindings)
      (htail : s.GoesOn site.callee b.param tail)
      (hc : (r, c) ∈ ((s.before block (w.stateAt block) pos).read b.names).entries)
      (hd : (r, d) ∈ ((s.before block (w'.stateAt block) pos).read b.names).entries)

/-- All chains that meet before a call are alike as to the hop limit. -/
def Even (s : Scope) : Prop :=
  ∀ tail c d, s.Meet tail c d → s.Alike tail c d

/-- As to the keys, calls keep everything. -/
theorem keeps_true (s : Scope) (stmt : Statement) (st' st : State) :
    s.Keeps (fun _ _ => True) stmt st' st := by
  intro _ _ _ _ _ _ _ _ _ _ _ _ _ _ _
  trivial

theorem blockKeeps_true (s : Scope) (block : Nat) (st' st : State) :
    s.BlockKeeps (fun _ _ => True) block st' st :=
  fun _ _ stmt _ => s.keeps_true stmt _ _

theorem Even.blockKeeps (heven : s.Even) (hw : s.Visits w) (hw' : s.Visits w') (block : Nat) :
    s.BlockKeeps (fun c d => (compareChains c d).isLE) block (w'.stateAt block)
      (w.stateAt block) := by
  intro pos line stmt hq i hi site hsite b hb r c d tail htail hd hc hdc call
  exact (heven tail d c (.intro hw' hw hq hi hsite hb htail hd hc)).isLE_compose hdc call

end Scope

/-! ### Programs with level depths -/

theorem Program.mem_reads_of_mem_sites {p : Program} {stmt : Statement} {i : Nat} {site : CallSite}
    {b : Binding} (hi : i ∈ stmt.sites) (hsite : p.calls[i]? = some site) (hb : b ∈ site.bindings) :
    b.names ∈ p.reads stmt := by
  have hnames := mem_argumentNames hsite hb
  cases stmt with
  | call j =>
    rw [← List.mem_singleton.mp hi]
    exact hnames
  | assign file target names calls =>
    exact List.mem_cons_of_mem _ (List.mem_flatMap.mpr ⟨i, hi, hnames⟩)
  | seed j slot => exact absurd hi List.not_mem_nil
  | sink k names => exact absurd hi List.not_mem_nil
  | ret file expr names => exact absurd hi List.not_mem_nil

namespace Scope

variable {p : Program} {h f : Nat} {fn : Function} {snap : Snapshot} {w : Work}

/-- Whatever the order, all chains are derived. -/
theorem Visits.derived (hf : p.Analyzes f fn) (hsnap : snap.Derived p h)
    (hw : (p.scope h snap f).Visits w) : w.Derived p h f := by
  induction hw with
  | start => exact derived_start hf hsnap
  | visit _ _ ih => exact derived_process hf hsnap ih _

/-- In a program with level depths the chains that meet before a call are alike. -/
theorem even_of_level {g : Depths} (hg : g.Keeps p) (hlevel : g.Level p) (hf : p.Analyzes f fn)
    (hsnap : snap.Derived p h) : (p.scope h snap f).Even := by
  rintro tail c d ⟨hw, hw', hq, hi, hsite, hb, -, hc, hd⟩
  have hpos := (List.getElem?_eq_some_iff.mp hq).1
  obtain ⟨x, hx, hc⟩ := State.Derived.read
    (derived_before hf hsnap (derived_stateAt (hw.derived hf hsnap) _) _ (Nat.le_of_lt hpos)) hc
  obtain ⟨y, hy, hd⟩ := State.Derived.read
    (derived_before hf hsnap (derived_stateAt (hw'.derived hf hsnap) _) _ (Nat.le_of_lt hpos)) hd
  have hdepth : c.depth = d.depth :=
    (Program.Rivals.read hq (Program.mem_reads_of_mem_sites hi hsite hb) hx hy).depth_eq hg hlevel
      hc hd
  refine ⟨?_, Or.inl hdepth⟩
  rw [Bool.eq_iff_iff, hc.limited.depth, hd.limited.depth, hdepth]

/-- Whether blocks can be visited one after another. -/
def inTurn (s : Scope) : Work → List Nat → Bool
  | _, [] => true
  | w, b :: bs => w.queue.contains b && s.inTurn (s.process w b) bs

theorem Visits.foldl {s : Scope} {w : Work} (hw : s.Visits w) {blocks : List Nat}
    (h : s.inTurn w blocks = true) : s.Visits (blocks.foldl s.process w) := by
  induction blocks generalizing w with
  | nil => exact hw
  | cons b blocks ih =>
    rw [inTurn, Bool.and_eq_true, List.contains_iff_mem] at h
    exact ih (hw.visit h.1) h.2

end Scope

/-! ### The results of two orders -/

namespace Program

open Facts (Cache)
open Discovery (Source Sink)

/-- **The order in which blocks are visited changes nothing but chains**, and those only where
chains that differ as to the hop limit meet before a call.  For every program that is built, every
function that can be analysed, every snapshot and every hop limit: two finished visits have met the
same blocks, hold chains for the same slots, flows and summaries, and have passed taint to the same
parameters; and if all chains that meet before a call are alike, the chains show the same. -/
theorem same_results_of_visiting_orders (cache : Cache) (sources : List Source)
    (sinks : List Sink) (san : Sanitizers) (maxHops f : Nat) (snapshot : Snapshot) {fn : Function}
    (hf : (build cache sources sinks san).Analyzes f fn) {w w' : Work}
    (hw : ((build cache sources sinks san).scope maxHops snapshot f).Visits w)
    (hw' : ((build cache sources sinks san).scope maxHops snapshot f).Visits w')
    (hq : w.queue = []) (hq' : w'.queue = []) :
    w.SameBy (fun _ _ => True) w' ∧
      (((build cache sources sinks san).scope maxHops snapshot f).Even →
        w.SameBy (fun c d => c.view = d.view) w') := by
  have hp : (build cache sources sinks san).WellFormed :=
    wellFormed_build cache sources sinks san
  generalize build cache sources sinks san = p at hf hw hw' hp
  have hfun : (p.scope maxHops snapshot f).function = fn := function_scope hf.1
  have hs : (p.scope maxHops snapshot f).function.Sound := by
    rw [hfun]
    exact hp.functions f fn hf.1
  have ha : (p.scope maxHops snapshot f).function.analyzable = true := by
    rw [hfun]
    exact hf.2
  refine ⟨?_, fun heven => ?_⟩
  · exact Scope.sameBy_of_visits coarsens_true (fun _ _ _ _ => trivial) hs ha
      (fun _ _ _ _ _ => Scope.blockKeeps_true _ _ _ _) hw hw' hq hq'
  · exact Scope.sameBy_of_visits coarsens_isLE (fun _ _ => view_eq_of_isLE) hs ha
      (fun _ _ hv hv' => heven.blockKeeps hv hv') hw hw' hq hq'

/-- In the detour with plain assignments the two ways are visited in either order, and the chains
show the same. -/
theorem same_results_of_visiting_orders_plain :
    let s := (detour "x" "t").scope 2
      ((detour "x" "t").rounds 2 100 Budget.unlimited).1.knowledge.snapshot 0
    s.Even ∧ s.inTurn s.start [0, 1, 2, 3] = true ∧ s.inTurn s.start [0, 2, 1, 3] = true ∧
      ([0, 1, 2, 3].foldl s.process s.start).SameBy (fun c d => c.view = d.view)
        ([0, 2, 1, 3].foldl s.process s.start) := by
  intro s
  have hf : (detour "x" "t").Analyzes 0 detourMain := by
    rw [detour_plain]
    exact ⟨rfl, rfl⟩
  obtain ⟨hkeeps, hlevel⟩ := plainDepths_fits
  have heven : s.Even := Scope.even_of_level hkeeps hlevel hf (derived_rounds _ 2 100 _).snapshot
  have hturns : (s.inTurn s.start [0, 1, 2, 3] = true ∧
      ([0, 1, 2, 3].foldl s.process s.start).queue = []) ∧
      s.inTurn s.start [0, 2, 1, 3] = true ∧
        ([0, 2, 1, 3].foldl s.process s.start).queue = [] := by
    simp only [s]
    rw [detour_plain]
    decide +kernel
  obtain ⟨⟨hturn, hq⟩, hturn', hq'⟩ := hturns
  exact ⟨heven, hturn, hturn', (same_results_of_visiting_orders (detourCache "x" "t") sampleSources
    [detourSink] (Sanitizers.make [] none) 2 0 _ hf (Scope.Visits.start.foldl hturn)
    (Scope.Visits.start.foldl hturn') hq hq').2 heven⟩

/-- In the detour with calls, where a chain may cross two calls, the analysis leaves out steps of
the flow from `x` to the sink.  If the long way is visited to its end before the short one, it does
not. -/
theorem visiting_orders_differ :
    let s := (detour "wrap(x)" "wrap(t)").scope 2
      ((detour "wrap(x)" "wrap(t)").rounds 2 100 Budget.unlimited).1.knowledge.snapshot 0
    let w := (s.run Scope.maxSteps s.start Budget.unlimited).1.1
    let w' := [0, 2, 3, 1, 3].foldl s.process s.start
    (detour "wrap(x)" "wrap(t)").Analyzes 0 detourMain ∧
      (s.Visits w ∧ w.queue = []) ∧ (s.Visits w' ∧ w'.queue = []) ∧
      (w.records.flows.get? (0, 0)).map (·.truncated) = some true ∧
      (w'.records.flows.get? (0, 0)).map (·.truncated) = some false ∧
      ¬ w.SameBy (fun c d => c.view = d.view) w' := by
  intro s w w'
  have hf : (detour "wrap(x)" "wrap(t)").Analyzes 0 detourMain := by
    rw [detour_calls]
    exact ⟨rfl, rfl⟩
  have hruns : w.queue = [] ∧ s.inTurn s.start [0, 2, 3, 1, 3] = true ∧ w'.queue = [] ∧
      (w.records.flows.get? (0, 0)).map (·.truncated) = some true ∧
      (w'.records.flows.get? (0, 0)).map (·.truncated) = some false := by
    simp only [w, w', s]
    rw [detour_calls]
    decide +kernel
  obtain ⟨hq, hturn, hq', hcut, hfull⟩ := hruns
  refine ⟨hf, ⟨s.visits_run _ _, hq⟩, ⟨Scope.Visits.start.foldl hturn, hq'⟩, hcut, hfull,
    fun hsame => ?_⟩
  -- chains that show the same are equally complete
  obtain ⟨c, hc, hcut⟩ := Option.map_eq_some_iff.mp hcut
  obtain ⟨d, hd, hfull⟩ := Option.map_eq_some_iff.mp hfull
  have hflow := hsame.flows (0, 0)
  rw [hc, hd] at hflow
  cases hflow with
  | some hview =>
    have htruncated : c.truncated = d.truncated := congrArg Prod.fst hview
    rw [hcut, hfull] at htruncated
    cases htruncated

end Program

end TaintFlow.Flow
