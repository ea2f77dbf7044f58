import Mathlib.Data.Nat.SuccPred
import Mathlib.Order.Lattice.Nat
import TaintFlow.Proofs.Facts.Index
import TaintFlow.Proofs.Flow.LeastSolution

/-!
# Sources that taint the target of their own line

A rule may taint the target of the assignment on its own line, as for a value that a call reads and
an assignment stores.  On one line seeds come before assignments, and an assignment overwrites its
target.  So the seed of such a source is live only up to the first assignment of its line, and what
a later sink of the block reads is decided by the last assignment of the line that overwrites the
slot: the source is reported when that assignment stores it again, and else only if it reaches the
sink by another way.

## Main definitions

* `Program.Stores`, `Program.Puts` — what an assignment stores, and what a statement puts into a
  slot.
* `Program.writes` — where a line overwrites a slot.
* `Program.ReachesByCall`, `Program.Bypasses` — a source reaches a sink by a call, or in any way
  but through a given slot.
* `TaintsOwnLine` — a source of such a rule, and a sink further down that reads its slot.

## Main results

* `Program.tainted_succ_iff` — what a slot holds after a statement.
* `Program.reported_iff_stores` — when a source that taints the target of its own line is reported.
-/

namespace TaintFlow.Flow

open Facts (Cache)
open Discovery (Source Sink Engine Hit)

theorem observes_of_under {names : List String} {x y : String} (hxy : Name.under x y = true)
    (hx : observes names x = true) : observes names y = true := by
  obtain ⟨n, hn, hrel⟩ := List.any_eq_true.mp hx
  exact List.any_eq_true.mpr ⟨n, hn, Name.related_of_under hxy hrel⟩

/-- A statement that overwrites a slot overwrites what is below it. -/
theorem Statement.overwrites_of_under {stmt : Statement} {x y : String}
    (hxy : Name.under x y = true) (h : stmt.overwrites y = true) : stmt.overwrites x = true := by
  cases stmt with
  | assign file target names calls => exact Name.under_trans hxy h
  | seed | call | sink | ret => cases h

theorem Statement.exists_assign_of_overwrites {stmt : Statement} {x : String}
    (h : stmt.overwrites x = true) :
    ∃ file target names calls, stmt = .assign file target names calls ∧
      Name.under x target = true := by
  cases stmt with
  | assign file target names calls => exact ⟨file, target, names, calls, rfl, h⟩
  | seed | call | sink | ret => cases h

namespace Program

/-! ### What a slot holds -/

section

/-- What an assignment stores under the statement rules: what it reads, what its calls return of
their arguments, and the sources its calls return. -/
def Stores (p : Program) (f b pos : Nat) (names : List String) (calls : List Nat) (r : Root) :
    Prop :=
  (∃ x, observes names x = true ∧ p.Holds (.tainted f b pos x r)) ∨
    ∃ i ∈ calls, ∃ site, p.calls[i]? = some site ∧
      ((∃ bound ∈ site.bindings, p.Holds (.reachesReturn site.callee (.param bound.param)) ∧
          ∃ x, observes bound.names x = true ∧ p.Holds (.tainted f b pos x r)) ∨
        ∃ s, r = .source s ∧ p.Holds (.reachesReturn site.callee (.source s)))

/-- What a statement puts into a slot. -/
def Puts (p : Program) (f b pos : Nat) : Statement → String → Root → Prop
  | .seed i slot, x, r => x = slot ∧ r = .source i ∧ ∃ src, p.sources[i]? = some src
  | .assign _ target names calls, x, r => x = target ∧ p.Stores f b pos names calls r
  | _, _, _ => False

variable {p : Program} {f b pos : Nat} {fn : Function} {line : Int} {stmt : Statement}
  {x : String} {r : Root}

/-- A position of a block has one statement. -/
theorem Runs.inj {line' : Int} {stmt' : Statement} (hrun : p.Runs f b pos line stmt)
    (hrun' : p.Runs f b pos line' stmt') : line = line' ∧ stmt = stmt' := by
  cases Option.some.inj (hrun.symm.trans hrun')
  exact ⟨rfl, rfl⟩

/-- **After a statement a slot holds what it held, unless it is overwritten, and what the statement
puts into it.** -/
theorem tainted_succ_iff (hf : p.Analyzes f fn) (hrun : p.Runs f b pos line stmt) :
    p.Holds (.tainted f b (pos + 1) x r) ↔
      stmt.overwrites x = false ∧ p.Holds (.tainted f b pos x r) ∨ p.Puts f b pos stmt x r := by
  constructor
  · intro h
    cases h with
    | keep hrun' hx hold =>
      obtain ⟨-, rfl⟩ := hrun.inj hrun'
      exact Or.inl ⟨hx, hold⟩
    | seed _ hrun' hsrc =>
      obtain ⟨-, rfl⟩ := hrun.inj hrun'
      exact Or.inr ⟨rfl, rfl, _, hsrc⟩
    | assign hrun' hx hold =>
      obtain ⟨-, rfl⟩ := hrun.inj hrun'
      exact Or.inr ⟨rfl, Or.inl ⟨_, hx, hold⟩⟩
    | assignBound hrun' hi hsite hbound hx hold hret =>
      obtain ⟨-, rfl⟩ := hrun.inj hrun'
      exact Or.inr ⟨rfl, Or.inr ⟨_, hi, _, hsite, Or.inl ⟨_, hbound, hret, _, hx, hold⟩⟩⟩
    | assignIntrinsic _ hrun' hi hsite hret =>
      obtain ⟨-, rfl⟩ := hrun.inj hrun'
      exact Or.inr ⟨rfl, Or.inr ⟨_, hi, _, hsite, Or.inr ⟨_, rfl, hret⟩⟩⟩
  · rintro (⟨hx, hold⟩ | hputs)
    · exact .keep hrun hx hold
    · cases stmt with
      | seed i slot =>
        obtain ⟨rfl, rfl, src, hsrc⟩ := hputs
        exact .seed hf hrun hsrc
      | assign file target names calls =>
        obtain ⟨rfl, ⟨y, hy, hold⟩ | ⟨i, hi, site, hsite, hret⟩⟩ := hputs
        · exact .assign hrun hy hold
        · rcases hret with ⟨bound, hbound, hret, y, hy, hold⟩ | ⟨s, rfl, hret⟩
          · exact .assignBound hrun hi hsite hbound hy hold hret
          · exact .assignIntrinsic hf hrun hi hsite hret
      | call | sink | ret => exact hputs.elim

/-- After an assignment its target holds what the assignment stores. -/
theorem tainted_target_iff (hf : p.Analyzes f fn) {file target : String} {names : List String}
    {calls : List Nat} (hrun : p.Runs f b pos line (.assign file target names calls)) :
    p.Holds (.tainted f b (pos + 1) target r) ↔ p.Stores f b pos names calls r := by
  rw [tainted_succ_iff hf hrun, Statement.overwrites, Name.under_self, Puts]
  simp

/-- A slot keeps what it holds while no statement overwrites it. -/
theorem tainted_of_le {pos' : Nat} (hle : pos ≤ pos') (hpos' : pos' ≤ (p.statementsAt f b).length)
    (hkeep : ∀ q line stmt, pos ≤ q → q < pos' → p.Runs f b q line stmt →
      stmt.overwrites x = false)
    (h : p.Holds (.tainted f b pos x r)) : p.Holds (.tainted f b pos' x r) := by
  induction pos', hle using Nat.le_induction with
  | base => exact h
  | succ q hq ih =>
    have hrun : p.Runs f b q _ _ := List.getElem?_eq_getElem hpos'
    have hold := ih (Nat.le_of_lt hpos') fun q' line stmt hle hlt =>
      hkeep q' line stmt hle (Nat.lt_succ_of_lt hlt)
    exact .keep hrun (hkeep q _ _ hq q.lt_succ_self hrun) hold

/-- What a slot holds it held before the statements that put nothing into it. -/
theorem tainted_of_ge (hf : p.Analyzes f fn) {pos' : Nat} (hle : pos ≤ pos')
    (hpos' : pos' ≤ (p.statementsAt f b).length)
    (hputs : ∀ q line stmt, pos ≤ q → q < pos' → p.Runs f b q line stmt →
      ¬ p.Puts f b q stmt x r)
    (h : p.Holds (.tainted f b pos' x r)) : p.Holds (.tainted f b pos x r) := by
  induction pos', hle using Nat.le_induction with
  | base => exact h
  | succ q hq ih =>
    have hrun : p.Runs f b q _ _ := List.getElem?_eq_getElem hpos'
    rcases (tainted_succ_iff hf hrun).mp h with ⟨-, hold⟩ | hput
    · refine ih (Nat.le_of_lt hpos') (fun q' line stmt hle hlt => ?_) hold
      exact hputs q' line stmt hle (Nat.lt_succ_of_lt hlt)
    · exact absurd hput (hputs q _ _ hq q.lt_succ_self hrun)

end

/-! ### The last write of a line -/

section

/-- Where the statements of a line overwrite a slot. -/
def writes (p : Program) (f b : Nat) (line : Int) (slot : String) : Set Nat :=
  {pos | ∃ stmt, p.Runs f b pos line stmt ∧ stmt.overwrites slot = true}

/-- A source enters a call from which a sink is reached. -/
def ReachesByCall (p : Program) (i k : Nat) : Prop :=
  ∃ f b pos line j site bound x, p.Runs f b pos line (.call j) ∧ p.calls[j]? = some site ∧
    bound ∈ site.bindings ∧ observes bound.names x = true ∧
    p.Holds (.tainted f b pos x (.source i)) ∧
    p.Holds (.reachesSink site.callee (.param bound.param) k)

/-- A source reaches a sink of a block, but not through a given slot: the sink reads another slot
that holds the source, or the source enters a call from which the sink is reached. -/
def Bypasses (p : Program) (f b : Nat) (slot : String) (i k : Nat) : Prop :=
  (∃ pos line names x, p.Runs f b pos line (.sink k names) ∧ x ≠ slot ∧
      observes names x = true ∧ p.Holds (.tainted f b pos x (.source i))) ∨
    p.ReachesByCall i k

variable {p : Program} {f b : Nat} {line : Int} {slot : String}

theorem bddAbove_writes : BddAbove (p.writes f b line slot) := by
  refine ⟨(p.statementsAt f b).length, fun pos hpos => ?_⟩
  obtain ⟨stmt, hrun, -⟩ := hpos
  obtain ⟨hlt, -⟩ := List.getElem?_eq_some_iff.mp hrun
  exact Nat.le_of_lt hlt

variable {fn : Function} {i k : Nat} {src : Source}

/-- Before the first write of its line a slot holds what a seed of the line puts into it. -/
theorem tainted_first_write (hp : p.WellFormed) (hf : p.Analyzes f fn)
    (hsrc : p.sources[i]? = some src) {seed first : Nat}
    (hseed : p.Runs f b seed line (.seed i slot))
    (hfirst : IsLeast (p.writes f b line slot) first) :
    p.Holds (.tainted f b first slot (.source i)) := by
  obtain ⟨⟨stmt, hrun, hover⟩, hleast⟩ := hfirst
  obtain ⟨file, target, names, calls, rfl, -⟩ := Statement.exists_assign_of_overwrites hover
  -- on one line seeds come before assignments
  have hlt : seed < first := hp.lt_of_rank_lt hseed hrun (by simp [Statement.rank])
  refine tainted_of_le hlt (List.getElem?_eq_some_iff.mp hrun).1.le ?_ (.seed hf hseed hsrc)
  intro q line' stmt hq hq' hrun'
  rw [← Bool.not_eq_true]
  intro hover'
  have hline : line = line' :=
    le_antisymm (hp.line_le_of_le hseed hrun' (Nat.le_of_lt hq))
      (hp.line_le_of_le hrun' hrun (Nat.le_of_lt hq'))
  exact Nat.not_le_of_lt hq' (hleast ⟨stmt, hline ▸ hrun', hover'⟩)

/-- A statement between the last write of a line and a sink further down does not overwrite the
slot, if no line between the two does. -/
theorem not_overwrites_after_last_write (hp : p.WellFormed) {last pos : Nat} {line' : Int}
    {names : List String} {stmt : Statement} (hlast : IsGreatest (p.writes f b line slot) last)
    (hrun : p.Runs f b last line stmt) (hsink : p.Runs f b pos line' (.sink k names))
    (hkept : ∀ q ∈ p.statementsAt f b, line < q.line → q.line < line' →
      q.statement.overwrites slot = false)
    {q : Nat} {lineq : Int} {stmtq : Statement} (hq : last < q) (hq' : q < pos)
    (hrunq : p.Runs f b q lineq stmtq) : stmtq.overwrites slot = false := by
  rw [← Bool.not_eq_true]
  intro hover
  obtain ⟨file, target, reads, calls, rfl, -⟩ := Statement.exists_assign_of_overwrites hover
  rcases hp.le_of_lt hrun hrunq hq with hline | ⟨rfl, -⟩
  · -- on a later line; that of the sink has its assignments after the sink
    rcases hp.le_of_lt hrunq hsink hq' with hline' | ⟨-, hrank⟩
    · have hnot := hkept _ (List.mem_of_getElem? hrunq) hline hline'
      exact absurd hover (by rw [hnot]; exact Bool.false_ne_true)
    · exact absurd hrank (by simp [Statement.rank])
  · exact Nat.not_le_of_lt hq (hlast.2 ⟨_, hrunq, hover⟩)

/-- **What a sink further down finds in the target of the last write is what that write stored.** -/
theorem tainted_sink_iff_stores (hp : p.WellFormed) (hf : p.Analyzes f fn)
    (hsrc : p.sources[i]? = some src) {last pos : Nat} {line' : Int} {ns names : List String}
    {file target : String} {calls : List Nat}
    (hlast : IsGreatest (p.writes f b src.location.line slot) last)
    (hrun : p.Runs f b last src.location.line (.assign file target names calls))
    (hunder : Name.under slot target = true) (hsink : p.Runs f b pos line' (.sink k ns))
    (hafter : src.location.line < line')
    (hkept : ∀ q ∈ p.statementsAt f b, src.location.line < q.line → q.line < line' →
      q.statement.overwrites slot = false) :
    p.Holds (.tainted f b pos target (.source i)) ↔ p.Stores f b last names calls (.source i) := by
  have hlt : last < pos :=
    Nat.lt_of_not_le fun hle => not_le_of_gt hafter (hp.line_le_of_le hsink hrun hle)
  have hpos : pos ≤ (p.statementsAt f b).length := (List.getElem?_eq_some_iff.mp hsink).1.le
  have hnot : ∀ q lineq stmtq, last + 1 ≤ q → q < pos → p.Runs f b q lineq stmtq →
      stmtq.overwrites target = false := by
    intro q lineq stmtq hq hq' hrunq
    have h := not_overwrites_after_last_write hp hlast hrun hsink hkept hq hq' hrunq
    rw [← Bool.not_eq_true] at h ⊢
    exact fun hover => h (Statement.overwrites_of_under hunder hover)
  rw [← tainted_target_iff hf hrun]
  refine ⟨tainted_of_ge hf hlt hpos ?_, tainted_of_le hlt hpos hnot⟩
  intro q lineq stmtq hq hq' hrunq hputs
  cases stmtq with
  | seed j x =>
    -- the source has its seed on its own line, before the assignments
    obtain ⟨-, heq, -⟩ := hputs
    cases heq
    obtain ⟨src', hsrc', hline, -⟩ := hp.statements f b _ (List.mem_of_getElem? hrunq)
    obtain rfl : src = src' := Option.some.inj (hsrc.symm.trans hsrc')
    rcases hp.le_of_lt hrun hrunq hq with h | ⟨-, hrank⟩
    · exact absurd hline (Int.ne_of_lt h)
    · exact absurd hrank (by simp [Statement.rank])
  | assign file' target' names' calls' =>
    obtain ⟨rfl, -⟩ := hputs
    have h := hnot q lineq _ hq hq' hrunq
    rw [Statement.overwrites, Name.under_self] at h
    cases h
  | call | sink | ret => exact hputs

end

end Program

/-! ### Sources of rules that taint the target of their line -/

/-- The first assignment that is recorded at a location. -/
def firstAssignment? (cache : Cache) (l : Facts.Location) : Option Facts.Assignment :=
  ((cache.select Schema.assignments "file" l.file).map Facts.Assignment.ofRow).find?
    (·.line == l.line)

/-- The first assignment at a location is the one of the first row with its file and line. -/
theorem firstAssignment?_eq {cache : Cache} (hc : cache.Indexed) (l : Facts.Location) :
    firstAssignment? cache l =
      ((Facts.withKey Schema.assignments "file" (.text l.file)
        (cache.rows Schema.assignments)).map Facts.Assignment.ofRow).find? (·.line == l.line) := by
  rw [firstAssignment?, hc.select_eq (by decide) (by decide)]

theorem mem_of_firstAssignment? {cache : Cache} {l : Facts.Location} {a : Facts.Assignment}
    (h : firstAssignment? cache l = some a) : a ∈ cache.assignments ∧ a.line = l.line := by
  have hline := List.find?_some h
  obtain ⟨r, hr, rfl⟩ := List.mem_map.mp (List.mem_of_find?_eq_some h)
  exact ⟨List.mem_map.mpr ⟨r, Facts.Cache.mem_rows_of_mem_select hr, rfl⟩, beq_iff_eq.mp hline⟩

/-- The slot of a source of a rule that names no column for it. -/
theorem symbol_source {e : Engine} {cache : Cache} {h : Hit} {a : Facts.Assignment}
    (hsymbol : h.via.rule.symbol = "") (htargets : h.via.rule.assignTargets = true)
    (ha : firstAssignment? cache (e.source cache h).location = some a) :
    (e.source cache h).symbol = a.target := by
  simp only [firstAssignment?, Engine.source] at ha
  simp [Engine.source, Discovery.slotOf, Discovery.assignTarget, hsymbol, htargets, ha]

/-- The program of a cache with the sources and sinks that an engine finds. -/
abbrev Program.found (e : Engine) (cache : Cache) (san : Sanitizers) : Program :=
  .build cache (e.sources cache) (e.sinks cache) san

/-- A source of a rule that taints the target of the assignment on its line, that assignment, and a
sink further down in the same block that reads the target, with no assignment on the lines between
that overwrites it. -/
structure TaintsOwnLine (e : Engine) (cache : Cache) (san : Sanitizers) (f b i k : Nat) (h : Hit)
    (a : Facts.Assignment) (snk : Sink) : Prop where
  hit : h ∈ e.hits .source cache
  rule : h.via.rule.assignTargets = true
  source : (e.sources cache)[i]? = some (e.source cache h)
  first : firstAssignment? cache (e.source cache h).location = some a
  /-- A rule that names a column for the slot as well takes the slot from there. -/
  slot : h.via.rule.symbol = "" ∨ (e.source cache h).symbol = a.target
  analyzes : ∃ fn, (Program.found e cache san).Analyzes f fn
  /-- Only a source with a slot is placed. -/
  seedPlaced : ∃ q, seedPlacement? (Code.ofCache cache) (e.source cache h) i = some ⟨⟨f, b⟩, q⟩
  assignPlaced : ∃ q,
    assignPlacement? (Code.ofCache cache) cache san (callSites cache san) a = some ⟨⟨f, b⟩, q⟩
  sink : (e.sinks cache)[k]? = some snk
  sinkPlaced : ∃ q, sinkPlacement? (Code.ofCache cache) cache san snk k = some ⟨⟨f, b⟩, q⟩
  after : (e.source cache h).location.line < snk.location.line
  reads : observes (sinkNames san snk) (e.source cache h).symbol = true
  kept : ∀ q ∈ (Program.found e cache san).statementsAt f b,
    (e.source cache h).location.line < q.line → q.line < snk.location.line →
      q.statement.overwrites (e.source cache h).symbol = false

/-- What is placed in a block runs there. -/
theorem Program.exists_runs {cache : Cache} {sources : List Source} {sinks : List Sink}
    {san : Sanitizers} {f b : Nat} {q : Placed}
    (h : ⟨⟨f, b⟩, q⟩ ∈ placements cache sources sinks san) :
    ∃ pos, (build cache sources sinks san).Runs f b pos q.line q.statement :=
  List.getElem?_of_mem ((mem_statementsAt_build cache sources sinks san).mpr h)

/-- A sink runs where it is placed, and nowhere else. -/
theorem Program.placement_of_runs_sink {cache : Cache} {sources : List Source} {sinks : List Sink}
    {san : Sanitizers} {f b pos k : Nat} {line : Int} {names : List String}
    (h : (build cache sources sinks san).Runs f b pos line (.sink k names)) :
    ∃ s, sinks[k]? = some s ∧
      sinkPlacement? (Code.ofCache cache) cache san s k =
        some ⟨⟨f, b⟩, ⟨line, .sink k names⟩⟩ := by
  have hmem := (mem_statementsAt_build cache sources sinks san).mp (List.mem_of_getElem? h)
  rcases (mem_placements cache sources sinks san).mp hmem with
    ⟨s, i, -, hpl⟩ | ⟨c, i, -, hpl⟩ | ⟨s, i, hs, hpl⟩ | ⟨a, -, hpl⟩ | ⟨r, -, hpl⟩
  · cases (of_seedPlacement? hpl).2
  · injection hpl with _ hq
    cases hq
  · cases (of_sinkPlacement? hpl).2
    exact ⟨s, hs, hpl⟩
  · obtain ⟨_, _, -, hq⟩ := of_assignPlacement? hpl
    cases hq
  · obtain ⟨_, -, hq⟩ := of_returnPlacement? hpl
    cases hq

/-- A source reaches a sink where the sink is placed, or by a call. -/
theorem Program.exists_reachesSink_iff {cache : Cache} {sources : List Source} {sinks : List Sink}
    {san : Sanitizers} {f b i k : Nat} {snk : Sink} {q : Placed} (hk : sinks[k]? = some snk)
    (hq : sinkPlacement? (Code.ofCache cache) cache san snk k = some ⟨⟨f, b⟩, q⟩) :
    (∃ g, (build cache sources sinks san).Holds (.reachesSink g (.source i) k)) ↔
      (∃ pos x, (build cache sources sinks san).Runs f b pos snk.location.line
          (.sink k (sinkNames san snk)) ∧ observes (sinkNames san snk) x = true ∧
        (build cache sources sinks san).Holds (.tainted f b pos x (.source i))) ∨
      (build cache sources sinks san).ReachesByCall i k := by
  constructor
  · rintro ⟨g, hreach⟩
    cases hreach with
    | callSink hrun hsite hbound hx hold hsink =>
      exact Or.inr ⟨_, _, _, _, _, _, _, _, hrun, hsite, hbound, hx, hold, hsink⟩
    | sink hrun _ hx hold =>
      obtain ⟨s, hs, hpl⟩ := placement_of_runs_sink hrun
      obtain rfl : snk = s := Option.some.inj (hk.symm.trans hs)
      cases hq.symm.trans hpl
      cases (of_sinkPlacement? hq).2
      exact Or.inl ⟨_, _, hrun, hx, hold⟩
  · have hsnk : (build cache sources sinks san).sinks[k]? = some snk := by
      rw [getElem?_sinks_build, hk]
    rintro (⟨pos, x, hrun, hx, hold⟩ |
      ⟨g, b', pos, line, j, site, bound, x, hrun, hsite, hbound, hx, hold, hsink⟩)
    · exact ⟨f, .sink hrun hsnk hx hold⟩
    · exact ⟨g, .callSink hrun hsite hbound hx hold hsink⟩

namespace TaintsOwnLine

variable {e : Engine} {cache : Cache} {san : Sanitizers} {f b i k : Nat} {h : Hit}
  {a : Facts.Assignment} {snk : Sink}

theorem exists_seed (hown : TaintsOwnLine e cache san f b i k h a snk) :
    ∃ pos, (Program.found e cache san).Runs f b pos (e.source cache h).location.line
      (.seed i (e.source cache h).symbol) := by
  obtain ⟨q, hq⟩ := hown.seedPlaced
  have hmem := (mem_placements cache (e.sources cache) (e.sinks cache) san).mpr
    (Or.inl ⟨_, i, hown.source, hq⟩)
  cases (of_seedPlacement? hq).2
  exact Program.exists_runs hmem

theorem exists_sink (hown : TaintsOwnLine e cache san f b i k h a snk) :
    ∃ pos, (Program.found e cache san).Runs f b pos snk.location.line
      (.sink k (sinkNames san snk)) := by
  obtain ⟨q, hq⟩ := hown.sinkPlaced
  have hmem := (mem_placements cache (e.sources cache) (e.sinks cache) san).mpr
    (Or.inr (Or.inr (Or.inl ⟨_, k, hown.sink, hq⟩)))
  cases (of_sinkPlacement? hq).2
  exact Program.exists_runs hmem

/-- The assignment overwrites the slot. -/
theorem nonempty_writes (hown : TaintsOwnLine e cache san f b i k h a snk) :
    ((Program.found e cache san).writes f b (e.source cache h).location.line
      (e.source cache h).symbol).Nonempty := by
  obtain ⟨ha, hline⟩ := mem_of_firstAssignment? hown.first
  have htarget : (e.source cache h).symbol = a.target := by
    rcases hown.slot with hsymbol | htarget
    · exact symbol_source hsymbol hown.rule hown.first
    · exact htarget
  obtain ⟨q, hq⟩ := hown.assignPlaced
  have hmem := (mem_placements cache (e.sources cache) (e.sinks cache) san).mpr
    (Or.inr (Or.inr (Or.inr (Or.inl ⟨a, ha, hq⟩))))
  obtain ⟨names, sites, -, heq⟩ := of_assignPlacement? hq
  cases heq
  obtain ⟨pos, hrun⟩ := Program.exists_runs hmem
  rw [htarget, ← hline]
  exact ⟨pos, _, hrun, Name.under_self a.target⟩

end TaintsOwnLine

namespace Program

/-- **When a source that taints the target of its own line is reported.**  The slot holds the source
when the first assignment of the line that overwrites it is run.  A sink further down is reported
for the source if and only if the last such assignment stores the source in its target, or the
source reaches the sink without that target. -/
theorem reported_iff_stores (e : Engine) (cache : Cache) (san : Sanitizers)
    (maxHops maxRounds : Nat) (budget : Budget) {f b i k : Nat} {h : Hit} {a : Facts.Assignment}
    {snk : Sink} (hown : TaintsOwnLine e cache san f b i k h a snk)
    (hc : ((found e cache san).rounds maxHops maxRounds budget).1.incomplete = false) :
    let p := found e cache san
    let line := (e.source cache h).location.line
    let slot := (e.source cache h).symbol
    ∃ first last file target names calls,
      IsLeast (p.writes f b line slot) first ∧
      p.Holds (.tainted f b first slot (.source i)) ∧
      IsGreatest (p.writes f b line slot) last ∧
      p.Runs f b last line (.assign file target names calls) ∧
      ((p.rounds maxHops maxRounds budget).1.knowledge.flows.Has (i, k) ↔
        p.Stores f b last names calls (.source i) ∨ p.Bypasses f b target i k) := by
  intro p line slot
  have hp : p.WellFormed := wellFormed_build _ _ _ _
  obtain ⟨fn, hf⟩ := hown.analyzes
  have hsrc : p.sources[i]? = some (e.source cache h) := by
    rw [getElem?_sources_build, hown.source]
  have hsnk : p.sinks[k]? = some snk := by
    rw [getElem?_sinks_build, hown.sink]
  obtain ⟨seed, hseed⟩ := hown.exists_seed
  obtain ⟨last, hlast⟩ := bddAbove_writes.exists_isGreatest_of_nonempty hown.nonempty_writes
  have hfirst : IsLeast (p.writes f b line slot) (sInf (p.writes f b line slot)) :=
    ⟨Nat.sInf_mem hown.nonempty_writes, fun _ h => Nat.sInf_le h⟩
  obtain ⟨stmt, hrun, hover⟩ := hlast.1
  obtain ⟨file, target, names, calls, rfl, hunder⟩ := Statement.exists_assign_of_overwrites hover
  refine ⟨_, last, file, target, names, calls, hfirst, tainted_first_write hp hf hsrc hseed hfirst,
    hlast, hrun, ?_⟩
  -- when the sink is run, the target of the last write holds what that write stored
  have hstores {pos : Nat} {ns : List String}
      (hsink : p.Runs f b pos snk.location.line (.sink k ns)) :=
    tainted_sink_iff_stores hp hf hsrc hlast hrun hunder hsink hown.after hown.kept
  obtain ⟨q, hq⟩ := hown.sinkPlaced
  rw [(exact_rounds hp hc).flows, exists_reachesSink_iff hown.sink hq]
  constructor
  · rintro (⟨pos, x, hsink, hx, hold⟩ | hcall)
    · by_cases hxt : x = target
      · rw [hxt] at hold
        exact Or.inl ((hstores hsink).mp hold)
      · exact Or.inr (Or.inl ⟨pos, _, _, x, hsink, hxt, hx, hold⟩)
    · exact Or.inr (Or.inr hcall)
  · rintro (hstored | ⟨pos, line', ns, x, hsink, -, hx, hold⟩ | hcall)
    · obtain ⟨pos, hsink⟩ := hown.exists_sink
      have hreads := observes_of_under hunder hown.reads
      exact Or.inl ⟨pos, target, hsink, hreads, (hstores hsink).mpr hstored⟩
    · exact (exists_reachesSink_iff hown.sink hq).mp ⟨f, .sink hsink hsnk hx hold⟩
    · exact Or.inr hcall

end Program

/-! ### A value that is read and executed

A function that reads a value by a call of `input`, assigns `expr` to `x` on that line, and executes
`x` on the next one. -/

/-- The facts of the function. -/
def inputCache (expr : String) : Cache where
  tables := [
    .ofRows Schema.cfgBlocks [
      ⟨[.int 1, .text "app", .text "main", .text "entry", .int 1, .int 9, .null]⟩,
      ⟨[.int 2, .text "app", .text "main", .text "exit", .int 9, .int 9, .null]⟩],
    .ofRows Schema.cfgEdges [
      ⟨[.int 1, .text "app", .text "main", .int 1, .int 2, .text "normal"]⟩],
    .ofRows Schema.functionCallArgs [
      ⟨[.text "app", .int 2, .text "main", .text "input", .int 0, .text "", .null, .null]⟩,
      ⟨[.text "app", .int 3, .text "main", .text "exec", .int 0, .text "x", .null, .null]⟩],
    .ofRows Schema.assignments [
      ⟨[.text "app", .int 2, .text "x", .text expr, .text "main", .null]⟩]]

/-- A rule about the calls of a function. -/
def callRule (kind : Discovery.Kind) (callee : String) : Discovery.Compiled where
  rule := { id := callee, kind, table := "function_call_args", category := callee,
            risk := ⟨.fixed, .medium, ""⟩, assignTargets := kind == .source,
            args := { column := "argument_expr" } }
  table := Schema.functionCallArgs
  tests := [⟨{ column := "callee_function", op := .eq, value := callee }, .empty⟩]

/-- Calls of `input` are sources, calls of `exec` are sinks. -/
def inputEngine : Engine where
  compiled := [callRule .source "input", callRule .sink "exec"]
  scorer := Discovery.structuralRisk
  weightAuth := false

/-- The call of `input`. -/
def inputHit : Hit where
  via := callRule .source "input"
  row := ⟨[.text "app", .int 2, .text "main", .text "input", .int 0, .text "", .null, .null]⟩
  origin := ⟨"function_call_args", 0⟩

/-- The source it stands for. -/
def inputSource : Source where
  id := "src:input:function_call_args#0"
  rule := "input"
  category := "input"
  location := ⟨"app", 2, 0⟩
  symbol := "x"
  risk := .medium
  origin := ⟨"function_call_args", 0⟩

/-- The sink that the call of `exec` stands for. -/
def execSink : Sink where
  id := "sink:exec:function_call_args#1"
  rule := "exec"
  category := "exec"
  location := ⟨"app", 3, 0⟩
  name := "exec"
  args := ["x"]
  risk := .medium
  origin := ⟨"function_call_args", 1⟩

/-- The program, where the assignment reads the given names. -/
def inputProgram (names : List String) : Program where
  code := ⟨#[sampleFunction "main" 1 1 9 []]⟩
  sources := #[inputSource]
  sinks := #[execSink]
  calls := #[]
  statements := #[#[[⟨2, .seed 0 "x"⟩, ⟨2, .assign "app" "x" names []⟩, ⟨3, .sink 0 ["x"]⟩], []]]
  endpoints := #[[]]
  links := []
  diagnostics := []

section

variable (expr : String)

theorem indexed_inputCache : (inputCache expr).Indexed := by
  intro f hf
  simp only [inputCache, List.mem_cons, List.not_mem_nil, or_false] at hf
  rcases hf with rfl | rfl | rfl | rfl
  all_goals
    refine ⟨?_, Facts.TableFacts.indexed_ofRows _ _⟩
    rw [Facts.TableFacts.table_ofRows]
    decide

theorem firstAssignment?_inputCache :
    firstAssignment? (inputCache expr) ⟨"app", 2, 0⟩ = some ⟨"app", 2, "x", expr, "main"⟩ := by
  rw [firstAssignment?_eq (indexed_inputCache expr)]
  rfl

theorem source_inputHit : inputEngine.source (inputCache expr) inputHit = inputSource := by
  have hsymbol : (inputEngine.source (inputCache expr) inputHit).symbol = "x" :=
    symbol_source (a := ⟨"app", 2, "x", expr, "main"⟩) rfl rfl (firstAssignment?_inputCache expr)
  calc inputEngine.source (inputCache expr) inputHit
      = { inputSource with symbol := (inputEngine.source (inputCache expr) inputHit).symbol } := rfl
    _ = inputSource := by rw [hsymbol, inputSource]

theorem sources_inputCache : inputEngine.sources (inputCache expr) = [inputSource] := by
  have hhits : inputEngine.hits .source (inputCache expr) = [inputHit] := rfl
  rw [Engine.sources, hhits, List.map_singleton, source_inputHit, sortBy, List.mergeSort_singleton]

theorem sinks_inputCache : inputEngine.sinks (inputCache expr) = [execSink] := by
  have hmap : (inputEngine.hits .sink (inputCache expr)).map
      (inputEngine.sink (inputCache expr)) = [execSink] := rfl
  rw [Engine.sinks, hmap, sortBy, List.mergeSort_singleton]

theorem ofCache_inputCache : Code.ofCache (inputCache expr) = (inputProgram []).code := by
  have hblocks : (inputCache expr).blocks =
      [⟨1, "app", "main", "entry", 1, 9⟩, ⟨2, "app", "main", "exit", 9, 9⟩] := rfl
  have hedges : (inputCache expr).edges = [⟨1, "app", "main", 1, 2⟩] := rfl
  have hparams : (inputCache expr).parameters = [] := rfl
  unfold Code.ofCache Code.keys buildFunction
  rw [hblocks, hedges, hparams]
  cbv

/-- The source taints the target of its own line, and the sink reads it on the next one. -/
theorem taintsOwnLine_inputCache :
    TaintsOwnLine inputEngine (inputCache expr) (Sanitizers.make [] none) 0 0 0 0 inputHit
      ⟨"app", 2, "x", expr, "main"⟩ execSink where
  hit := List.mem_singleton_self inputHit
  rule := rfl
  source := by rw [sources_inputCache, source_inputHit, List.getElem?_cons_zero]
  first := firstAssignment?_inputCache expr
  slot := Or.inl rfl
  analyzes := by
    refine ⟨sampleFunction "main" 1 1 9 [], ?_, rfl⟩
    rw [Program.function?, Program.found, Program.build, ofCache_inputCache]
    rfl
  seedPlaced := by
    rw [source_inputHit, ofCache_inputCache]
    exact ⟨_, rfl⟩
  assignPlaced := by
    have hplace : (inputProgram []).code.place "app" 2 "main" = some ⟨0, 0⟩ := by
      decide +kernel
    rw [ofCache_inputCache]
    simp only [assignPlacement?, hplace]
    exact ⟨_, rfl⟩
  sink := by rw [sinks_inputCache, List.getElem?_cons_zero]
  sinkPlaced := by
    have hhint : sinkHint (inputCache expr) execSink = "main" := rfl
    rw [ofCache_inputCache, sinkPlacement?, hhint]
    exact ⟨⟨3, .sink 0 ["x"]⟩, by decide +kernel⟩
  after := by
    rw [source_inputHit]
    decide
  reads := by
    rw [source_inputHit]
    decide +kernel
  kept q hq hlt hlt' := by
    rw [source_inputHit] at hlt
    exact absurd hlt' (Int.not_lt.mpr hlt)

end

/-- The program, by what its assignment reads. -/
theorem found_inputCache {expr : String} {names : List String}
    (h : assignPlacement? (inputProgram []).code (inputCache expr) (Sanitizers.make [] none) []
      ⟨"app", 2, "x", expr, "main"⟩ = some ⟨⟨0, 0⟩, ⟨2, .assign "app" "x" names []⟩⟩) :
    Program.found inputEngine (inputCache expr) (Sanitizers.make [] none) =
      inputProgram names := by
  have hcalls : (inputCache expr).callArguments =
      [⟨"app", 2, "main", "input", some 0, some "", none, none⟩,
        ⟨"app", 3, "main", "exec", some 0, some "x", none, none⟩] := rfl
  have hassigns : (inputCache expr).assignments = [⟨"app", 2, "x", expr, "main"⟩] := rfl
  have hreturns : (inputCache expr).returns = [] := rfl
  have hhint : sinkHint (inputCache expr) execSink = "main" := rfl
  rw [Program.found, sources_inputCache, sinks_inputCache, Program.build]
  rw [ofCache_inputCache, hcalls, hassigns, hreturns]
  -- neither call is one of a known function
  have hrows : [⟨"app", 2, "main", "input", some 0, some "", none, none⟩,
      ⟨"app", 3, "main", "exec", some 0, some "x", none, none⟩].filterMap
        (resolveCall? (inputProgram []).code) = [] := by
    cbv
  rw [hrows]
  simp only [List.zipIdx_cons, List.zipIdx_nil, List.filterMap_cons, List.filterMap_nil, siteHeads,
    List.foldl_nil, List.map_nil, h, sinkPlacement?, hhint]
  cbv

/-- `x = input()` reads no slot but that of the called name. -/
theorem found_input : Program.found inputEngine (inputCache "input()") (Sanitizers.make [] none) =
    inputProgram ["input"] :=
  found_inputCache (by decide +kernel)

/-- `x = x + input()` reads `x` as well. -/
theorem found_append_input :
    Program.found inputEngine (inputCache "x + input()") (Sanitizers.make [] none) =
      inputProgram ["x", "input"] :=
  found_inputCache (by decide +kernel)

/-- Line 2 has one write of `x`. -/
theorem eq_one_of_mem_writes {names : List String} {pos : Nat}
    (h : pos ∈ (inputProgram names).writes 0 0 2 "x") : pos = 1 := by
  obtain ⟨stmt, hrun, hover⟩ := h
  match pos, hrun with
  | 0, hrun => cases hrun; cases hover
  | 1, _ => rfl
  | 2, hrun => cases hrun

namespace Program

/-- In `x = x + input()` the assignment stores the source again, which is therefore reported for the
sink on the next line. -/
theorem reported_iff_stores_append_input :
    ((found inputEngine (inputCache "x + input()") (Sanitizers.make [] none)).rounds 5 100
      Budget.unlimited).1.incomplete = false ∧
    ((found inputEngine (inputCache "x + input()") (Sanitizers.make [] none)).rounds 5 100
      Budget.unlimited).1.knowledge.flows.Has (0, 0) := by
  have hc : ((found inputEngine (inputCache "x + input()") (Sanitizers.make [] none)).rounds 5 100
      Budget.unlimited).1.incomplete = false := by
    rw [found_append_input]
    decide +kernel
  obtain ⟨first, last, file, target, names, calls, hfirst, hold, hlast, hrun, hiff⟩ :=
    reported_iff_stores inputEngine (inputCache "x + input()") (Sanitizers.make [] none) 5 100
      Budget.unlimited (taintsOwnLine_inputCache "x + input()") hc
  refine ⟨hc, hiff.mpr (Or.inl (Or.inl ⟨"x", ?_, ?_⟩))⟩
  · rw [source_inputHit, found_append_input] at hlast hrun
    obtain rfl := eq_one_of_mem_writes hlast.1
    cases hrun
    decide
  · rw [source_inputHit, found_append_input] at *
    rwa [eq_one_of_mem_writes hlast.1, ← eq_one_of_mem_writes hfirst.1]

/-- In `x = input()` the assignment overwrites the source, which is not reported for the sink on the
next line. -/
theorem not_reported_input :
    TaintsOwnLine inputEngine (inputCache "input()") (Sanitizers.make [] none) 0 0 0 0 inputHit
      ⟨"app", 2, "x", "input()", "main"⟩ execSink ∧
    ((found inputEngine (inputCache "input()") (Sanitizers.make [] none)).rounds 5 100
      Budget.unlimited).1.incomplete = false ∧
    ¬ ((found inputEngine (inputCache "input()") (Sanitizers.make [] none)).rounds 5 100
      Budget.unlimited).1.knowledge.flows.Has (0, 0) := by
  refine ⟨taintsOwnLine_inputCache "input()", ?_⟩
  rw [found_input, Best.has_iff_get?, ← Option.isSome_iff_exists]
  decide +kernel

end Program

end TaintFlow.Flow
