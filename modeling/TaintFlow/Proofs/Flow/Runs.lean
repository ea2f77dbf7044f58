import Mathlib
import TaintFlow.Proofs.Flow.Statements

/-!
# Runs as repeated steps

The loops of the analysis, reduced to their steps.  What processing one block preserves, the
analysis of a function preserves, whenever it is cancelled; what one round preserves, the rounds
preserve.  A run that is not cancelled does not depend on the budget at all.

## Main results

* `Scope.process_eq` — processing a block, by the state at its end and its reports.
* `Scope.run_preserves`, `Program.roundsFrom_preserves` — from one step to a whole run.
* `Scope.run_queue_eq_nil` — a run that is not cancelled empties the queue.
* `Scope.analyze_unlimited` — an analysis that is not cancelled is the one without cancellation.
* `Program.roundsFrom_complete` — what complete rounds preserve holds when no function is due.
-/

namespace TaintFlow.Flow

theorem getD_setIfInBounds {α : Type} (a : Array α) (i j : Nat) (v d : α) :
    (a.setIfInBounds i v).getD j d = if i = j ∧ i < a.size then v else a.getD j d := by
  simp only [Array.getD_eq_getD_getElem?, Array.getElem?_setIfInBounds]
  by_cases hij : i = j
  · subst hij
    by_cases hi : i < a.size
    · simp [hi]
    · simp [hi]
  · simp [hij]

/-- Setting what is there changes nothing. -/
theorem setIfInBounds_getD_self {α : Type} (a : Array α) (i : Nat) (d : α) :
    a.setIfInBounds i (a.getD i d) = a := by
  refine Array.ext_getElem? fun j => ?_
  rw [Array.getElem?_setIfInBounds, Array.getD_eq_getD_getElem?]
  by_cases hij : i = j
  · subst hij
    by_cases hi : i < a.size
    · simp [hi]
    · simp [hi]
  · simp [hij]

theorem getD_replicate_self {α : Type} (n i : Nat) (d : α) :
    (Array.replicate n d).getD i d = d := by
  rw [Array.getD_eq_getD_getElem?, Array.getElem?_replicate]
  split <;> rfl

theorem eq_of_getD {α : Type} {a b : Array α} (d : α) (hsize : a.size = b.size)
    (h : ∀ i, i < a.size → a.getD i d = b.getD i d) : a = b := by
  refine Array.ext hsize fun i hi hi' => ?_
  have hget := h i hi
  rw [Array.getD_eq_getD_getElem?, Array.getD_eq_getD_getElem?, Array.getElem?_eq_getElem hi,
    Array.getElem?_eq_getElem hi'] at hget
  exact hget

/-- The state at the start of a block; nothing is tainted in a block that has not been met. -/
def Work.stateAt (w : Work) (block : Nat) : State :=
  (w.states.getD block none).getD {}

namespace Scope

/-! ### Processing a block -/

theorem states_propagate (st : State) (w : Work) (block : Nat) :
    (propagate st w block).states =
      w.states.setIfInBounds block (some ((w.stateAt block).join st)) := by
  unfold propagate Work.stateAt
  cases w.states.getD block none <;> rfl

@[simp] theorem records_propagate (st : State) (w : Work) (block : Nat) :
    (propagate st w block).records = w.records := by
  unfold propagate
  cases w.states.getD block none <;> rfl

@[simp] theorem size_propagate (st : State) (w : Work) (block : Nat) :
    (propagate st w block).states.size = w.states.size := by
  rw [states_propagate, Array.size_setIfInBounds]

/-- The worklist once a block has been taken from the queue and its reports are recorded. -/
def taken (s : Scope) (w : Work) (block : Nat) : Work :=
  { w with
    queue := w.queue.erase block,
    records := (s.blockReports block (w.stateAt block)).foldl Records.add w.records }

/-- Processing a block records its reports and joins the state at its end into its successors. -/
theorem process_eq (s : Scope) (w : Work) (block : Nat) :
    s.process w block =
      (s.successors block).foldl (propagate (s.atEnd block (w.stateAt block)))
        (s.taken w block) := by
  have h := s.transferBlock_eq block (w.stateAt block) w.records
  unfold Work.stateAt at h
  simp only [process, h]
  rfl

@[simp] theorem records_foldl_propagate (st : State) (w : Work) (blocks : List Nat) :
    (blocks.foldl (propagate st) w).records = w.records := by
  induction blocks generalizing w with
  | nil => rfl
  | cons b blocks ih => rw [List.foldl_cons, ih, records_propagate]

/-- Processing a block adds its reports to the records. -/
theorem records_process (s : Scope) (w : Work) (block : Nat) :
    (s.process w block).records =
      (s.blockReports block (w.stateAt block)).foldl Records.add w.records := by
  rw [process_eq, records_foldl_propagate]
  rfl

/-! ### The worklist -/

theorem run_of_queue_nil (s : Scope) (fuel : Nat) {w : Work} (hw : w.queue = []) (b : Budget) :
    s.run fuel w b = ((w, false), b) := by
  rw [run, hw]
  rfl

theorem run_zero (s : Scope) {w : Work} {block : Nat} {rest : List Nat}
    (hw : w.queue = block :: rest) (b : Budget) : s.run 0 w b = ((w, true), b) := by
  rw [run, hw]
  rfl

theorem run_succ (s : Scope) (fuel : Nat) {w : Work} {block : Nat} {rest : List Nat}
    (hw : w.queue = block :: rest) (b : Budget) :
    s.run (fuel + 1) w b =
      if b.exhausted then ((w, true), b.spend) else s.run fuel (s.process w block) b.spend := by
  rw [run, hw]
  cases h : b.exhausted <;> simp [Budget.poll, h, bind, StateT.bind, pure, StateT.pure]

/-- **What processing a queued block preserves, a run preserves**, whether it is cancelled or
not. -/
theorem run_preserves (s : Scope) {P : Work → Prop}
    (hstep : ∀ w block rest, w.queue = block :: rest → P w → P (s.process w block)) :
    ∀ (fuel : Nat) (w : Work) (b : Budget), P w → P (s.run fuel w b).1.1 := by
  intro fuel
  induction fuel with
  | zero =>
    intro w b hw
    cases hq : w.queue with
    | nil => rw [s.run_of_queue_nil 0 hq]; exact hw
    | cons block rest => rw [s.run_zero hq]; exact hw
  | succ fuel ih =>
    intro w b hw
    cases hq : w.queue with
    | nil => rw [s.run_of_queue_nil _ hq]; exact hw
    | cons block rest =>
      -- cancelled before the block, or going on after it
      rw [s.run_succ fuel hq]
      split
      · exact hw
      · exact ih _ _ (hstep w block rest hq hw)

/-- A run that is not cancelled empties the queue. -/
theorem run_queue_eq_nil (s : Scope) : ∀ (fuel : Nat) (w : Work) (b : Budget),
    (s.run fuel w b).1.2 = false → (s.run fuel w b).1.1.queue = [] := by
  intro fuel
  induction fuel with
  | zero =>
    intro w b h
    cases hq : w.queue with
    | nil => rw [s.run_of_queue_nil 0 hq]; exact hq
    | cons block rest => rw [s.run_zero hq] at h; simp at h
  | succ fuel ih =>
    intro w b h
    cases hq : w.queue with
    | nil => rw [s.run_of_queue_nil _ hq]; exact hq
    | cons block rest =>
      rw [s.run_succ fuel hq] at h ⊢
      split at h
      · simp at h
      · next hb => rw [if_neg hb]; exact ih _ _ h

/-- A run that is not cancelled is the run without cancellation. -/
theorem run_unlimited (s : Scope) : ∀ (fuel : Nat) (w : Work) (b : Budget),
    (s.run fuel w b).1.2 = false → (s.run fuel w Budget.unlimited).1 = (s.run fuel w b).1 := by
  intro fuel
  induction fuel with
  | zero =>
    intro w b h
    cases hq : w.queue with
    | nil => rw [s.run_of_queue_nil 0 hq, s.run_of_queue_nil 0 hq]
    | cons block rest => rw [s.run_zero hq] at h; simp at h
  | succ fuel ih =>
    intro w b h
    cases hq : w.queue with
    | nil => rw [s.run_of_queue_nil _ hq, s.run_of_queue_nil _ hq]
    | cons block rest =>
      rw [s.run_succ fuel hq] at h ⊢
      rw [s.run_succ fuel hq]
      split at h
      · simp at h
      · next hb => rw [if_neg hb]; exact ih _ _ h

theorem analyze_eq (s : Scope) (b : Budget) :
    (s.analyze b).1 =
      ⟨s.index, (s.run maxSteps s.start b).1.1.records, (s.run maxSteps s.start b).1.2⟩ := rfl

/-- An analysis that is not cancelled is the one without cancellation. -/
theorem analyze_unlimited (s : Scope) {b : Budget} (h : (s.analyze b).1.cancelled = false) :
    (s.analyze Budget.unlimited).1 = (s.analyze b).1 := by
  rw [analyze_eq] at h
  rw [analyze_eq, analyze_eq, s.run_unlimited maxSteps s.start b h]

end Scope

/-! ### Functions that are due -/

theorem mem_work {k : Knowledge} {i : Nat} : i ∈ k.work ↔ k.due.getD i false = true := by
  simp only [Knowledge.work, List.mem_map, List.mem_filter, Prod.exists,
    List.mk_mem_zipIdx_iff_getElem?, Array.getElem?_toList, Array.getD_eq_getD_getElem?]
  constructor
  · rintro ⟨d, j, ⟨hd, rfl⟩, rfl⟩
    rw [hd]
    rfl
  · intro h
    cases hd : k.due[i]? with
    | none => rw [hd] at h; simp at h
    | some d => rw [hd] at h; exact ⟨d, i, ⟨hd, h⟩, rfl⟩

/-- What is known at the start of a round, with no function due. -/
def Knowledge.cleared (k : Knowledge) : Knowledge :=
  { k with due := k.due.map fun _ => false, rounds := k.rounds + 1 }

theorem getD_due_cleared (k : Knowledge) (i : Nat) : k.cleared.due.getD i false = false := by
  simp only [Knowledge.cleared, Array.getD_eq_getD_getElem?, Array.getElem?_map]
  cases k.due[i]? <;> rfl

/-- Whether the function at a position can be analysed. -/
def Program.canAnalyze (p : Program) (i : Nat) : Bool :=
  ((p.function? i).map (·.analyzable)).getD false

theorem Program.canAnalyze_iff {p : Program} {i : Nat} :
    p.canAnalyze i = true ↔ ∃ fn, p.Analyzes i fn := by
  unfold canAnalyze Analyzes
  cases p.function? i <;> simp

theorem getD_markDue (p : Program) (due : Array Bool) (i j : Nat) :
    (markDue p due i).getD j false =
      if i = j ∧ i < due.size then p.canAnalyze i else due.getD j false := by
  have hset : markDue p due i = due.setIfInBounds i (p.canAnalyze i) := by
    unfold markDue Array.setIfInBounds
    rfl
  rw [hset, getD_setIfInBounds]

@[simp] theorem size_markDue (p : Program) (due : Array Bool) (i : Nat) :
    (markDue p due i).size = due.size := by
  unfold markDue
  split <;> simp

namespace Program

/-! ### Rounds -/

theorem analyzeAll_cons (p : Program) (h : Nat) (snap : Snapshot) (i : Nat) (is : List Nat)
    (b : Budget) :
    (p.analyzeAll h snap (i :: is) b).1 =
      ((p.scope h snap i).analyze b).1 ::
        (p.analyzeAll h snap is ((p.scope h snap i).analyze b).2).1 := rfl

/-- Every result of a round is the analysis of one of its functions. -/
theorem exists_of_mem_analyzeAll {p : Program} {h : Nat} {snap : Snapshot} {is : List Nat}
    {b : Budget} {r : FunctionResult} (hr : r ∈ (p.analyzeAll h snap is b).1) :
    ∃ i ∈ is, ∃ b', r = ((p.scope h snap i).analyze b').1 := by
  induction is generalizing b with
  | nil => exact absurd hr List.not_mem_nil
  | cons i is ih =>
    rw [analyzeAll_cons] at hr
    rcases List.mem_cons.mp hr with rfl | hr
    · exact ⟨i, List.mem_cons_self, b, rfl⟩
    · obtain ⟨j, hj, hb⟩ := ih hr
      exact ⟨j, List.mem_cons_of_mem _ hj, hb⟩

/-- Every function of a round is analysed. -/
theorem exists_mem_analyzeAll {p : Program} {h : Nat} {snap : Snapshot} {is : List Nat}
    (b : Budget) {i : Nat} (hi : i ∈ is) :
    ∃ b', ((p.scope h snap i).analyze b').1 ∈ (p.analyzeAll h snap is b).1 := by
  induction is generalizing b with
  | nil => exact absurd hi List.not_mem_nil
  | cons j is ih =>
    rw [analyzeAll_cons]
    rcases List.mem_cons.mp hi with rfl | hi
    · exact ⟨b, List.mem_cons_self⟩
    · obtain ⟨b', hb⟩ := ih ((p.scope h snap j).analyze b).2 hi
      exact ⟨b', List.mem_cons_of_mem _ hb⟩

/-- The results of a round. -/
def results (p : Program) (h : Nat) (k : Knowledge) (b : Budget) : List FunctionResult :=
  (p.analyzeAll h k.snapshot k.work b).1

/-- A round joins its results into what was known, with no function due. -/
theorem round_eq (p : Program) (h : Nat) (k : Knowledge) (b : Budget) :
    (p.round h k b).1 =
      ((p.results h k b).foldl (Knowledge.merge p) k.cleared,
        (p.results h k b).any (·.cancelled)) :=
  rfl

theorem roundsFrom_of_work_nil (p : Program) (h fuel : Nat) {k : Knowledge}
    (hk : k.work = []) (b : Budget) : p.roundsFrom h fuel k b = (⟨k, false⟩, b) := by
  cases fuel <;> rw [roundsFrom, hk] <;> rfl

/-- The rounds with work left: they are cancelled, out of rounds, cancelled in the next round, or
they go on after it. -/
theorem roundsFrom_cases (p : Program) (h fuel : Nat) {k : Knowledge} (hk : k.work ≠ [])
    (b : Budget) :
    (p.roundsFrom h fuel k b).1 = ⟨k, true⟩ ∨
      ∃ n, fuel = n + 1 ∧
        (((p.round h k b.spend).1.2 = true ∧
            (p.roundsFrom h fuel k b).1 = ⟨(p.round h k b.spend).1.1, true⟩) ∨
          ((p.round h k b.spend).1.2 = false ∧
            (p.roundsFrom h fuel k b).1 =
              (p.roundsFrom h n (p.round h k b.spend).1.1 (p.round h k b.spend).2).1)) := by
  have hk' : k.work.isEmpty = false := by simpa using hk
  cases fuel with
  | zero =>
    left
    rw [roundsFrom, hk']
    cases hb : b.exhausted <;> simp [Budget.poll, hb, bind, StateT.bind, pure, StateT.pure]
  | succ n =>
    rw [roundsFrom, hk']
    cases hb : b.exhausted with
    | true =>
      left
      simp [Budget.poll, hb, bind, StateT.bind, pure, StateT.pure]
    | false =>
      refine Or.inr ⟨n, rfl, ?_⟩
      rcases hround : p.round h k b.spend with ⟨⟨k', cancelled⟩, b'⟩
      cases cancelled <;> simp [Budget.poll, hb, hround, bind, StateT.bind, pure, StateT.pure]

theorem roundsFrom_zero (p : Program) (h : Nat) {k : Knowledge} (hk : k.work ≠ []) (b : Budget) :
    p.roundsFrom h 0 k b = (⟨k, true⟩, b.spend) := by
  have hk' : k.work.isEmpty = false := by simpa using hk
  rw [roundsFrom, hk']
  cases hb : b.exhausted <;> simp [Budget.poll, hb, bind, StateT.bind, pure, StateT.pure]

/-- One round of many: it is not begun, it is cancelled, or the others follow. -/
theorem roundsFrom_succ (p : Program) (h n : Nat) {k : Knowledge} (hk : k.work ≠ [])
    (b : Budget) :
    p.roundsFrom h (n + 1) k b =
      if b.exhausted then (⟨k, true⟩, b.spend)
      else if (p.round h k b.spend).1.2 then
        (⟨(p.round h k b.spend).1.1, true⟩, (p.round h k b.spend).2)
      else p.roundsFrom h n (p.round h k b.spend).1.1 (p.round h k b.spend).2 := by
  have hk' : k.work.isEmpty = false := by simpa using hk
  rw [roundsFrom, hk']
  cases hb : b.exhausted with
  | true => simp [Budget.poll, hb, bind, StateT.bind, pure, StateT.pure]
  | false =>
    rcases hround : p.round h k b.spend with ⟨⟨k', cancelled⟩, b'⟩
    cases cancelled <;> simp [Budget.poll, hb, hround, bind, StateT.bind, pure, StateT.pure]

/-- **What a round preserves, the rounds preserve**, however they end. -/
theorem roundsFrom_preserves (p : Program) (h : Nat) {P : Knowledge → Prop}
    (hstep : ∀ k b, P k → P (p.round h k b).1.1) :
    ∀ (fuel : Nat) (k : Knowledge) (b : Budget), P k → P (p.roundsFrom h fuel k b).1.knowledge := by
  intro fuel
  induction fuel with
  | zero =>
    intro k b hk
    by_cases hwork : k.work = []
    · rw [p.roundsFrom_of_work_nil h 0 hwork]
      exact hk
    · rcases p.roundsFrom_cases h 0 hwork b with hr | ⟨n, hn, -⟩
      · rw [hr]; exact hk
      · exact absurd hn (Nat.succ_ne_zero n).symm
  | succ fuel ih =>
    intro k b hk
    by_cases hwork : k.work = []
    · rw [p.roundsFrom_of_work_nil h _ hwork]
      exact hk
    · rcases p.roundsFrom_cases h (fuel + 1) hwork b with hr | ⟨n, hn, ⟨-, hr⟩ | ⟨-, hr⟩⟩
      · rw [hr]; exact hk
      · rw [hr]; exact hstep k _ hk
      · obtain rfl : fuel = n := by omega
        rw [hr]
        exact ih _ _ (hstep k _ hk)

/-- **Complete rounds**: what rounds that are not cancelled preserve holds in the end, and no
function is due any more. -/
theorem roundsFrom_complete (p : Program) (h : Nat) {P : Knowledge → Prop}
    (hstep : ∀ k b, P k → (p.round h k b).1.2 = false → P (p.round h k b).1.1) :
    ∀ (fuel : Nat) (k : Knowledge) (b : Budget), P k →
      (p.roundsFrom h fuel k b).1.incomplete = false →
      P (p.roundsFrom h fuel k b).1.knowledge ∧
        (p.roundsFrom h fuel k b).1.knowledge.work = [] := by
  intro fuel
  induction fuel with
  | zero =>
    intro k b hk hc
    by_cases hwork : k.work = []
    · rw [p.roundsFrom_of_work_nil h 0 hwork]
      exact ⟨hk, hwork⟩
    · rcases p.roundsFrom_cases h 0 hwork b with hr | ⟨n, hn, -⟩
      · rw [hr] at hc; simp at hc
      · exact absurd hn (Nat.succ_ne_zero n).symm
  | succ fuel ih =>
    intro k b hk hc
    by_cases hwork : k.work = []
    · rw [p.roundsFrom_of_work_nil h _ hwork]
      exact ⟨hk, hwork⟩
    · rcases p.roundsFrom_cases h (fuel + 1) hwork b with hr | ⟨n, hn, ⟨-, hr⟩ | ⟨hr', hr⟩⟩
      · rw [hr] at hc; simp at hc
      · rw [hr] at hc; simp at hc
      · obtain rfl : fuel = n := by omega
        rw [hr] at hc ⊢
        exact ih _ _ (hstep k _ hk hr') hc

end Program

end TaintFlow.Flow
