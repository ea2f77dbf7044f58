import TaintFlow.Proofs.Flow.VisitingOrder

/-!
# The worklist as a join over all paths

Instead of joining states where paths meet, one could execute the blocks of every path of the graph
on its own.  There are infinitely many paths as soon as there is a loop, and on each of them fewer
slots are tainted than on all together.  The worklist finds what all of them find: a slot is tainted
at the start of a block iff it is on some path to that block, and a statement observes a root iff it
does so on some path.

That it finds no less holds of every solution of the equations of the blocks, by induction over the
path.  That it finds no more rests on statements being distributive: every chain that a statement
writes or reports stems from a single entry of the state before, so that one path is enough for it.

## Main definitions

* `Scope.Path`, `Scope.execute` — the paths from the entry, and what executing one leaves and
  records.
* `Scope.Invariant` — a condition on chains that holds on entry and is kept by statements and edges.
* `State.parts` — the parts of a state on which statements act one by one.
* `Scope.Backs` — some path holds a chain at least as good.
* `Scope.Obtains` — a report that a statement makes after some path.

## Main results

* `Scope.dominates_along` — a solution is ahead of every path.
* `Scope.Invariant.visits` — an invariant holds in all worklists.
* `Scope.invariant_backs` — what the worklist holds is backed by a path.
* `Program.join_over_paths` — the worklist is the join over all paths.
-/

namespace TaintFlow.Flow

namespace Scope

/-! ### Paths -/

/-- A path of the control-flow graph: the blocks passed from the entry on, and the one arrived
at. -/
inductive Path (s : Scope) : List Nat → Nat → Prop where
  | entry {e : Nat} (he : s.function.entry = some e) : Path s [] e
  | edge {path : List Nat} {b b' : Nat} (h : Path s path b) (hedge : s.function.Edge b b') :
      Path s (path ++ [b]) b'

/-- What the blocks of a path leave and record when they are executed one after another, the state
on entry being the first. -/
def execute (s : Scope) (path : List Nat) : State × Records :=
  path.foldl (fun x b => s.transferBlock b x) (s.entryState, {})

/-- The state at the end of a path. -/
def along (s : Scope) (path : List Nat) : State :=
  (s.execute path).1

@[simp] theorem along_nil (s : Scope) : s.along [] = s.entryState := rfl

@[simp] theorem along_concat (s : Scope) (path : List Nat) (b : Nat) :
    s.along (path ++ [b]) = s.atEnd b (s.along path) := by
  rw [along, execute, List.foldl_append, List.foldl_cons, List.foldl_nil]
  exact congrArg Prod.fst (s.transferBlock_eq b (s.execute path).1 (s.execute path).2)

variable {s : Scope} {le : Chain → Chain → Prop} {b : Nat}

/-- A path leads to every block of a function that can be analysed. -/
theorem exists_path (hs : s.function.Sound) (ha : s.function.analyzable = true)
    (hb : b < s.function.blocks.size) : ∃ path, s.Path path b := by
  obtain ⟨e, he, -, hall⟩ := hs.entry ha
  rcases hall b hb with rfl | hreach
  · exact ⟨[], .entry he⟩
  · have hpath := hs.reaches_iff.mp hreach
    clear hb hreach
    induction hpath with
    | single hedge => exact ⟨_, (Path.entry he).edge hedge⟩
    | tail _ hedge ih =>
      obtain ⟨path, hpath⟩ := ih
      exact ⟨_, hpath.edge hedge⟩

theorem Path.lt (hs : s.function.Sound) (ha : s.function.analyzable = true) {path : List Nat}
    (h : s.Path path b) : b < s.function.blocks.size := by
  cases h with
  | entry he =>
    obtain ⟨e, he', hlt, -⟩ := hs.entry ha
    rw [he] at he'
    cases he'
    exact hlt
  | edge _ hedge => exact hs.edge _ _ hedge

/-! ### Solutions are ahead of paths -/

/-- The calls of a function keep a relation between chains. -/
def CallsKeep (s : Scope) (le : Chain → Chain → Prop) : Prop :=
  ∀ (b pos : Nat) (line : Int) (stmt : Statement),
    (s.program.statementsAt s.index b)[pos]? = some ⟨line, stmt⟩ →
      ∀ st' st, s.Keeps le stmt st' st

theorem CallsKeep.blockKeeps (h : s.CallsKeep le) (b : Nat) (st' st : State) :
    s.BlockKeeps le b st' st :=
  fun pos line stmt hq => h b pos line stmt hq _ _

theorem callsKeep_true (s : Scope) : s.CallsKeep fun _ _ => True :=
  fun _ _ _ stmt _ => s.keeps_true stmt

/-- **A solution of the equations is ahead of every path.** -/
theorem dominates_along (hle : Coarsens le) (hkeeps : s.CallsKeep le) {rec : Records}
    {states : Nat → State} (hsolves : s.Solves rec states) {path : List Nat} (h : s.Path path b) :
    (states b).Dominates le (s.along path) := by
  induction h with
  | entry he =>
    intro k c hc
    exact (hsolves.entry _ he k c hc).tops hle (hle.refl c)
  | @edge path b b' _ hedge ih =>
    rw [along_concat]
    intro k c hc
    have hend := dominates_before hle ih (hkeeps.blockKeeps b _ _) _ k c hc
    exact hend.coversAll hle (hsolves.edge b b' hedge)

end Scope

/-! ### Invariants of chains -/

/-- All chains of a state satisfy a condition. -/
def State.All (P : String × Root → Chain → Prop) (st : State) : Prop :=
  ∀ k c, (k, c) ∈ st.entries → P k c

namespace Scope

variable {s : Scope} {b pos : Nat} {st : State} {w : Work}
  {P : Nat → Nat → String × Root → Chain → Prop}

/-- A condition on the chains at a position of a block that holds on entry, and that statements and
edges keep. -/
structure Invariant (s : Scope) (P : Nat → Nat → String × Root → Chain → Prop) : Prop where
  entry : ∀ e, s.function.entry = some e → s.entryState.All (P e 0)
  statement : ∀ b pos q st, (s.program.statementsAt s.index b)[pos]? = some q →
    st.All (P b pos) → (s.next b pos st q).All (P b (pos + 1))
  edge : ∀ b b' k c, s.function.Edge b b' →
    P b (s.program.statementsAt s.index b).length k c → P b' 0 k c

theorem Invariant.before (h : s.Invariant P) (hst : st.All (P b 0))
    (hpos : pos ≤ (s.program.statementsAt s.index b).length) :
    (s.before b st pos).All (P b pos) := by
  induction pos with
  | zero => exact hst
  | succ n ih =>
    have hq : (s.program.statementsAt s.index b)[n]? =
        some ((s.program.statementsAt s.index b)[n]) := List.getElem?_eq_getElem hpos
    rw [before_succ hq]
    exact h.statement b n _ _ hq (ih (Nat.le_of_lt hpos))

theorem Invariant.atEnd (h : s.Invariant P) (hst : st.All (P b 0)) {b' : Nat}
    (hedge : s.function.Edge b b') : (s.atEnd b st).All (P b' 0) :=
  fun k c hc => h.edge b b' k c hedge (h.before hst (Nat.le_refl _) k c hc)

/-- **An invariant holds along every path.** -/
theorem Invariant.along (h : s.Invariant P) {path : List Nat} (hpath : s.Path path b) :
    (s.along path).All (P b 0) := by
  induction hpath with
  | entry he => exact h.entry _ he
  | edge _ hedge ih =>
    rw [along_concat]
    exact h.atEnd ih hedge

/-- **An invariant holds in every worklist**, whatever the order of visiting. -/
theorem Invariant.visits (h : s.Invariant P) (hw : s.Visits w) (b : Nat) :
    (w.stateAt b).All (P b 0) := by
  induction hw generalizing b with
  | start =>
    rcases s.stateAt_start b with hb | ⟨he, hb⟩
    · rw [hb]
      exact fun _ _ hc => absurd hc List.not_mem_nil
    · rw [hb]
      exact h.entry b he
  | @visit w block _ _ ih =>
    intro k c hc
    rcases mem_stateAt_process hc with hc | ⟨hb, hc⟩
    · exact ih b k c hc
    · exact h.atEnd (ih block) (mem_successors.mp hb) k c hc

end Scope

/-! ### What is recorded -/

/-- Where the analysis of a function records roots: at a sink, or at a return. -/
inductive Outlet where
  | sink (k : Nat)
  | ret

/-- The report that a root reaches an outlet. -/
def Outlet.report (o : Outlet) (r : Root) (c : Chain) : Report :=
  match o with
  | .sink k => .sink r k c
  | .ret => .ret r c

/-- The chain that is recorded for a root at an outlet. -/
def Records.chain? (rec : Records) : Root → Outlet → Option Chain
  | .param i, .sink k => rec.summary.sinks.get? (i, k)
  | .param i, .ret => rec.summary.returns.get? i
  | .source i, .sink k => rec.flows.get? (i, k)
  | .source i, .ret => rec.summary.intrinsic.get? i

/-- What betters the report of a root at an outlet is one of the same root at the same outlet. -/
theorem Outlet.exists_of_betters {le : Chain → Chain → Prop} {o : Outlet} {r : Root} {c : Chain}
    {report : Report} (h : report.Betters le (o.report r c)) :
    ∃ d, report = o.report r d ∧ le d c := by
  cases o <;> cases h <;> exact ⟨_, rfl, ‹_›⟩

theorem Best.get?_offer {κ : Type} [BEq κ] [LawfulBEq κ] {m : Best κ} {k k' : κ} {c d : Chain}
    (h : (m.offer k c).get? k' = some d) : (k = k' ∧ c = d) ∨ m.get? k' = some d := by
  by_cases hk : k = k'
  · subst hk
    rcases m.get?_offer_self k c with ⟨-, h'⟩ | ⟨-, h'⟩
    · rw [h'] at h
      exact Or.inl ⟨rfl, Option.some.inj h⟩
    · rw [h'] at h
      exact Or.inr h
  · rw [m.get?_offer_of_ne hk] at h
    exact Or.inr h

namespace Records

variable {rec : Records} {Q : Report → Prop}

/-- Everything recorded was reported, and reports satisfy a condition. -/
structure All (Q : Report → Prop) (rec : Records) : Prop where
  chains : ∀ r o c, rec.chain? r o = some c → Q (o.report r c)
  args : ∀ callee i, (callee, i) ∈ rec.args → Q (.pass callee i)

theorem all_empty (Q : Report → Prop) : ({} : Records).All Q where
  chains r o c h := by
    cases r <;> cases o <;> cases h
  args _ _ h := absurd h List.not_mem_nil

theorem All.add (h : rec.All Q) {q : Report} (hq : Q q) : (rec.add q).All Q := by
  refine ⟨fun r o c hc => ?_, fun callee i hi => ?_⟩
  · -- the report is of this root and outlet, or the chain was recorded before
    rcases q with ⟨⟨s⟩ | ⟨j⟩, k, d⟩ | ⟨⟨s⟩ | ⟨j⟩, d⟩ | ⟨callee, j⟩ <;>
      rcases r with ⟨s'⟩ | ⟨j'⟩ <;> rcases o with ⟨k'⟩ | _ <;>
      first
      | exact h.chains _ _ _ hc
      | (rcases Best.get?_offer hc with ⟨hk, rfl⟩ | hc
         · cases hk
           exact hq
         · exact h.chains _ _ _ hc)
  · rcases q with ⟨⟨s⟩ | ⟨j⟩, k, d⟩ | ⟨⟨s⟩ | ⟨j⟩, d⟩ | ⟨callee', j⟩
    all_goals first
      | exact h.args callee i hi
      | (rcases mem_addNew.mp hi with hi | hi
         · exact h.args callee i hi
         · cases hi
           exact hq)

theorem All.foldl_add (h : rec.All Q) {qs : List Report} (hqs : ∀ q ∈ qs, Q q) :
    (qs.foldl Records.add rec).All Q := by
  induction qs generalizing rec with
  | nil => exact h
  | cons q qs ih =>
    exact ih (h.add (hqs q List.mem_cons_self)) fun q' hq' => hqs q' (List.mem_cons_of_mem _ hq')

/-- Of a report that is covered something at least as good is recorded. -/
theorem exists_chain?_of_covers {r : Root} {o : Outlet} {c : Chain}
    (h : rec.Covers (o.report r c)) :
    ∃ d, rec.chain? r o = some d ∧ (compareChains d c).isLE := by
  cases r <;> cases o <;> exact h

end Records

namespace Scope

variable {s : Scope} {w : Work} {P : Nat → Nat → String × Root → Chain → Prop}
  {Q : Report → Prop}

/-- What an invariant says of the reports of all statements holds of all that is recorded. -/
theorem Invariant.records (h : s.Invariant P)
    (hreports : ∀ b pos q st, (s.program.statementsAt s.index b)[pos]? = some q →
      st.All (P b pos) → ∀ report ∈ s.reports b pos st q, Q report)
    (hw : s.Visits w) : w.records.All Q := by
  induction hw with
  | start =>
    rw [records_start]
    exact Records.all_empty Q
  | @visit w block hw _ ih =>
    rw [records_process]
    refine ih.foldl_add fun report hreport => ?_
    obtain ⟨n, hn, hreport⟩ := List.mem_flatMap.mp hreport
    have hn : n < (s.program.statementsAt s.index block).length := List.mem_range.mp hn
    have hq : (s.program.statementsAt s.index block)[n]? =
        some ((s.program.statementsAt s.index block)[n]) := List.getElem?_eq_getElem hn
    rw [reportsAt_eq hq] at hreport
    exact hreports block n _ _ hq (h.before (h.visits hw block) (Nat.le_of_lt hn)) report hreport

end Scope

/-! ### Statements are distributive -/

/-- The parts of a state: nothing, and each of its entries. -/
def State.parts (st : State) : List State :=
  {} :: st.entries.map fun e => ⟨[e]⟩

theorem State.empty_mem_parts (st : State) : {} ∈ st.parts :=
  List.mem_cons_self

/-- What reading a state observes, reading one of its parts observes. -/
theorem State.exists_part_of_mem_read {st : State} {names : List String} {r : Root} {c : Chain}
    (hc : (r, c) ∈ (st.read names).entries) : ∃ p ∈ st.parts, (r, c) ∈ (p.read names).entries := by
  obtain ⟨x, hx, hmem⟩ := mem_read hc
  refine ⟨⟨[((x, r), c)]⟩, List.mem_cons_of_mem _ (List.mem_map.mpr ⟨_, hmem, rfl⟩), ?_⟩
  have hcovers : (State.read ⟨[((x, r), c)]⟩ names).Covers r c :=
    covers_read hx (List.mem_singleton_self _)
  obtain ⟨d, hd, -⟩ := hcovers
  have hd := Best.mem_entries_of_get? hd
  obtain ⟨y, -, hy⟩ := mem_read hd
  cases List.mem_singleton.mp hy
  exact hd

namespace Scope

variable {s : Scope} {le : Chain → Chain → Prop} {b pos : Nat} {line : Int} {st : State}
  {w : Work}

/-- **What a statement writes stems from one part of the state before.** -/
theorem exists_part_of_writes {stmt : Statement} {x : String} {r : Root} {c : Chain}
    (h : s.Writes b pos st line stmt x r c) :
    ∃ p ∈ st.parts, s.Writes b pos p line stmt x r c := by
  cases h with
  | seed hsrc => exact ⟨{}, st.empty_mem_parts, .seed hsrc⟩
  | read hc =>
    obtain ⟨p, hp, hc⟩ := State.exists_part_of_mem_read hc
    exact ⟨p, hp, .read hc⟩
  | bound hi hsite hb htail hc =>
    obtain ⟨p, hp, hc⟩ := State.exists_part_of_mem_read hc
    exact ⟨p, hp, .bound hi hsite hb htail hc⟩
  | intrinsic hi hsite htail => exact ⟨{}, st.empty_mem_parts, .intrinsic hi hsite htail⟩

/-- **What a statement reports stems from one part of the state before.** -/
theorem exists_part_of_makes {stmt : Statement} {report : Report}
    (h : s.Makes b pos st line stmt report) :
    ∃ p ∈ st.parts, s.Makes b pos p line stmt report := by
  cases h with
  | pass hsite hb hc =>
    obtain ⟨p, hp, hc⟩ := State.exists_part_of_mem_read hc
    exact ⟨p, hp, .pass hsite hb hc⟩
  | call hsite hb hc htail =>
    obtain ⟨p, hp, hc⟩ := State.exists_part_of_mem_read hc
    exact ⟨p, hp, .call hsite hb hc htail⟩
  | sink hsink hc =>
    obtain ⟨p, hp, hc⟩ := State.exists_part_of_mem_read hc
    exact ⟨p, hp, .sink hsink hc⟩
  | ret hc =>
    obtain ⟨p, hp, hc⟩ := State.exists_part_of_mem_read hc
    exact ⟨p, hp, .ret hc⟩

/-! ### The worklist is backed by paths -/

/-- On some path something at least as good as a chain is held at a position of a block. -/
def Backs (s : Scope) (le : Chain → Chain → Prop) (b pos : Nat) (k : String × Root) (c : Chain) :
    Prop :=
  ∃ path, s.Path path b ∧ (s.before b (s.along path) pos).Tops le k c

/-- A report that a statement makes after some path to its block. -/
def Obtains (s : Scope) (report : Report) : Prop :=
  ∃ (path : List Nat) (b pos : Nat) (line : Int) (stmt : Statement), s.Path path b ∧
    (s.program.statementsAt s.index b)[pos]? = some ⟨line, stmt⟩ ∧
      s.Makes b pos (s.before b (s.along path) pos) line stmt report

/-- For every part of a state that is backed by paths, one of them is ahead of it. -/
theorem exists_path_of_mem_parts (hpath : ∃ path, s.Path path b) (h : st.All (s.Backs le b pos))
    {p : State} (hp : p ∈ st.parts) :
    ∃ path, s.Path path b ∧ (s.before b (s.along path) pos).Dominates le p := by
  rcases List.mem_cons.mp hp with rfl | hp
  · obtain ⟨path, hpath⟩ := hpath
    exact ⟨path, hpath, Best.dominates_empty _⟩
  · obtain ⟨⟨k, c⟩, hc, rfl⟩ := List.mem_map.mp hp
    obtain ⟨path, hpath, htops⟩ := h k c hc
    refine ⟨path, hpath, fun k' c' hc' => ?_⟩
    cases List.mem_singleton.mp hc'
    exact htops

/-- **What the worklist holds is backed by a path.** -/
theorem invariant_backs (hle : Coarsens le) (hkeeps : s.CallsKeep le)
    (hpaths : ∀ b q, q ∈ s.program.statementsAt s.index b → ∃ path, s.Path path b) :
    s.Invariant (s.Backs le) where
  entry e he k c hc := by
    refine ⟨[], .entry he, ?_⟩
    have hcovers : s.entryState.Covers k c := by
      rw [entryState_eq_offerAll] at hc ⊢
      rcases Best.mem_offerAll hc with hc | hc
      · exact absurd hc List.not_mem_nil
      · exact Best.covers_offerAll _ hc
    exact hcovers.tops hle (hle.refl c)
  statement b pos q st hq hst := by
    obtain ⟨line, stmt⟩ := q
    rintro ⟨x, r⟩ c hc
    rcases mem_next hc with ⟨hx, hmem⟩ | hwrites
    · obtain ⟨path, hpath, htops⟩ := hst (x, r) c hmem
      refine ⟨path, hpath, ?_⟩
      rw [before_succ hq]
      exact tops_next_of_not_overwrites hle hx htops
    · obtain ⟨p, hp, hwrites⟩ := exists_part_of_writes hwrites
      obtain ⟨path, hpath, hahead⟩ :=
        exists_path_of_mem_parts (hpaths b _ (List.mem_of_getElem? hq)) hst hp
      refine ⟨path, hpath, ?_⟩
      rw [before_succ hq]
      exact tops_next_of_writes hle hahead (hkeeps b pos line stmt hq _ _) hwrites
  edge b b' k c hedge := by
    rintro ⟨path, hpath, htops⟩
    refine ⟨path ++ [b], hpath.edge hedge, ?_⟩
    rw [along_concat]
    exact htops

/-- Everything recorded is at least matched by what some statement reports after some path. -/
theorem all_records_backed (hle : Coarsens le) (hkeeps : s.CallsKeep le)
    (hpaths : ∀ b q, q ∈ s.program.statementsAt s.index b → ∃ path, s.Path path b)
    (hw : s.Visits w) :
    w.records.All fun report => ∃ report', s.Obtains report' ∧ report'.Betters le report := by
  refine (invariant_backs hle hkeeps hpaths).records (fun b pos q st hq hst report hreport => ?_) hw
  obtain ⟨line, stmt⟩ := q
  obtain ⟨p, hp, hmakes⟩ := exists_part_of_makes (mem_reports_iff.mp hreport)
  obtain ⟨path, hpath, hahead⟩ :=
    exists_path_of_mem_parts (hpaths b _ (List.mem_of_getElem? hq)) hst hp
  obtain ⟨report', hreport', hbetter⟩ := exists_betters hle hahead
    (hkeeps b pos line stmt hq _ _) (mem_reports_iff.mpr hmakes)
  exact ⟨report', ⟨path, b, pos, line, stmt, hpath, hq, mem_reports_iff.mp hreport'⟩, hbetter⟩

/-- **What a statement reports after a path is recorded**, by something at least as good. -/
theorem exists_covers_of_obtains (hle : Coarsens le) (hkeeps : s.CallsKeep le)
    (hs : s.function.Sound) (ha : s.function.analyzable = true) {rec : Records}
    {states : Nat → State} (hsolves : s.Solves rec states) {report : Report}
    (h : s.Obtains report) : ∃ report', rec.Covers report' ∧ report'.Betters le report := by
  obtain ⟨path, b, pos, line, stmt, hpath, hq, hmakes⟩ := h
  have hahead := dominates_before hle (dominates_along hle hkeeps hsolves hpath)
    (hkeeps.blockKeeps b _ _) pos
  obtain ⟨report', hreport', hbetter⟩ := exists_betters hle hahead
    (hkeeps b pos line stmt hq _ _) (mem_reports_iff.mpr hmakes)
  exact ⟨report', hsolves.reports b (hpath.lt hs ha) report' (mem_blockReports hq hreport'),
    hbetter⟩

end Scope

/-! ### The join over all paths -/

namespace Program

open Facts (Cache)
open Discovery (Source Sink)

variable {p : Program} {maxHops f : Nat} {snapshot : Snapshot} {fn : Function}

/-- The function under analysis in a well-formed program. -/
theorem WellFormed.sound_scope (hp : p.WellFormed) (maxHops : Nat) (snapshot : Snapshot)
    (hf : p.Analyzes f fn) :
    (p.scope maxHops snapshot f).function.Sound ∧
      (p.scope maxHops snapshot f).function.analyzable = true := by
  rw [function_scope hf.1]
  exact ⟨hp.functions f fn hf.1, hf.2⟩

/-- A path leads to every block in which statements stand. -/
theorem WellFormed.exists_path (hp : p.WellFormed) (hf : p.Analyzes f fn) {b : Nat} {q : Placed}
    (hq : q ∈ p.statementsAt f b) : ∃ path, (p.scope maxHops snapshot f).Path path b := by
  obtain ⟨hs, ha⟩ := hp.sound_scope maxHops snapshot hf
  obtain ⟨fn', hf', hb⟩ := hp.blocks f b q hq
  refine Scope.exists_path hs ha ?_
  rw [function_scope hf']
  exact hb

/-- **The worklist is the join over all paths.**  For every program that is built, every function
that can be analysed, every snapshot and every hop limit, when the worklist ends without being
cancelled: every block has been met; a root is held for a slot at the start of a block iff it is
held on some path to the block; a statement observes a root iff it does so after some path and the
earlier statements of its block; and what is recorded is what statements report after some path. -/
theorem join_over_paths (cache : Cache) (sources : List Source) (sinks : List Sink)
    (san : Sanitizers) (maxHops f : Nat) (snapshot : Snapshot) {fn : Function}
    (hf : (build cache sources sinks san).Analyzes f fn) (steps : Nat) (budget : Budget)
    (hrun : (((build cache sources sinks san).scope maxHops snapshot f).run steps
      ((build cache sources sinks san).scope maxHops snapshot f).start budget).1.2 = false) :
    let s := (build cache sources sinks san).scope maxHops snapshot f
    let w := (s.run steps s.start budget).1.1
    (∀ b, b < fn.blocks.size → w.Met b) ∧
    (∀ b x r, (w.stateAt b).Has (x, r) ↔ ∃ path, s.Path path b ∧ (s.along path).Has (x, r)) ∧
    (∀ b pos q, (s.program.statementsAt s.index b)[pos]? = some q → ∀ names r,
      ((s.before b (w.stateAt b) pos).read names).Has r ↔
        ∃ path, s.Path path b ∧ ((s.before b (s.along path) pos).read names).Has r) ∧
    (∀ r o, (∃ c, w.records.chain? r o = some c) ↔ ∃ c, s.Obtains (o.report r c)) ∧
    ∀ callee i, (callee, i) ∈ w.records.args ↔ s.Obtains (.pass callee i) := by
  intro s w
  have hp : (build cache sources sinks san).WellFormed :=
    wellFormed_build cache sources sinks san
  have hfun : s.function = fn := function_scope hf.1
  obtain ⟨hs, ha⟩ := hp.sound_scope maxHops snapshot hf
  have hw : s.Visits w := s.visits_run steps budget
  have hq : w.queue = [] := s.run_queue_eq_nil steps s.start budget hrun
  have hsolves : s.Solves w.records w.stateAt :=
    Scope.solves_of_queue_nil hs ha (hw.settled hs ha).1 hq
  have hpaths : ∀ b q, q ∈ s.program.statementsAt s.index b → ∃ path, s.Path path b :=
    fun b q hq => hp.exists_path hf hq
  have hback := Scope.invariant_backs coarsens_true s.callsKeep_true hpaths
  have hrecords := Scope.all_records_backed coarsens_true s.callsKeep_true hpaths hw
  have hahead : ∀ {b path}, s.Path path b → ∀ pos,
      (s.before b (w.stateAt b) pos).Dominates (fun _ _ => True) (s.before b (s.along path) pos) :=
    fun hpath => Scope.dominates_before coarsens_true
      (Scope.dominates_along coarsens_true s.callsKeep_true hsolves hpath)
      (s.blockKeeps_true _ _ _)
  -- what is held, before any statement
  have hholds : ∀ b pos, pos ≤ (s.program.statementsAt s.index b).length → ∀ x r,
      (s.before b (w.stateAt b) pos).Has (x, r) ↔
        ∃ path, s.Path path b ∧ (s.before b (s.along path) pos).Has (x, r) := by
    intro b pos hpos x r
    constructor
    · rintro ⟨c, hc⟩
      obtain ⟨path, hpath, d, hd, -⟩ := hback.before (hback.visits hw b) hpos (x, r) c hc
      exact ⟨path, hpath, d, Best.mem_entries_of_get? hd⟩
    · rintro ⟨path, hpath, c, hc⟩
      obtain ⟨d, hd, -⟩ := hahead hpath pos (x, r) c hc
      exact ⟨d, Best.mem_entries_of_get? hd⟩
  refine ⟨fun b hb => ?_, fun b => hholds b 0 (Nat.zero_le _), fun b pos q hq names r => ?_,
    fun r o => ?_, fun callee i => ?_⟩
  · exact Scope.met_of_queue_nil hs ha (hw.settled hs ha).1 hq b (hfun ▸ hb)
  · obtain ⟨hpos, -⟩ := List.getElem?_eq_some_iff.mp hq
    simp only [State.has_read, hholds b pos (Nat.le_of_lt hpos)]
    constructor
    · rintro ⟨x, hx, path, hpath, hhas⟩
      exact ⟨path, hpath, x, hx, hhas⟩
    · rintro ⟨path, hpath, x, hx, hhas⟩
      exact ⟨x, hx, path, hpath, hhas⟩
  · constructor
    · rintro ⟨c, hc⟩
      obtain ⟨report, hobtains, hbetter⟩ := hrecords.chains r o c hc
      obtain ⟨d, rfl, -⟩ := Outlet.exists_of_betters hbetter
      exact ⟨d, hobtains⟩
    · rintro ⟨c, hobtains⟩
      obtain ⟨report, hcovers, hbetter⟩ := Scope.exists_covers_of_obtains coarsens_true
        s.callsKeep_true hs ha hsolves hobtains
      obtain ⟨d, rfl, -⟩ := Outlet.exists_of_betters hbetter
      obtain ⟨e, he, -⟩ := Records.exists_chain?_of_covers hcovers
      exact ⟨e, he⟩
  · constructor
    · intro hi
      obtain ⟨report, hobtains, hbetter⟩ := hrecords.args callee i hi
      cases hbetter
      exact hobtains
    · intro hobtains
      obtain ⟨report, hcovers, hbetter⟩ := Scope.exists_covers_of_obtains coarsens_true
        s.callsKeep_true hs ha hsolves hobtains
      cases hbetter
      exact hcovers

/-- In the detour with calls the worklist comes to an end; as it finds `y` tainted at the exit and
the sink reached, some path taints `y`, and after some path the sink is reported. -/
theorem join_over_paths_detour :
    let s := (detour "wrap(x)" "wrap(t)").scope 2
      ((detour "wrap(x)" "wrap(t)").rounds 2 100 Budget.unlimited).1.knowledge.snapshot 0
    (detour "wrap(x)" "wrap(t)").Analyzes 0 detourMain ∧
      (s.run Scope.maxSteps s.start Budget.unlimited).1.2 = false ∧
      (∃ path, s.Path path 3 ∧ (s.along path).Has ("y", .source 0)) ∧
      ∃ c, s.Obtains (.sink (.source 0) 0 c) := by
  intro s
  have hf : (detour "wrap(x)" "wrap(t)").Analyzes 0 detourMain := by
    rw [detour_calls]
    exact ⟨rfl, rfl⟩
  have hruns : (s.run Scope.maxSteps s.start Budget.unlimited).1.2 = false ∧
      (((s.run Scope.maxSteps s.start Budget.unlimited).1.1.stateAt 3).get?
        ("y", .source 0)).isSome = true ∧
      ((s.run Scope.maxSteps s.start Budget.unlimited).1.1.records.chain?
        (.source 0) (.sink 0)).isSome = true := by
    simp only [s]
    rw [detour_calls]
    decide +kernel
  obtain ⟨hrun, hy, hk⟩ := hruns
  obtain ⟨-, hstates, -, hrecords, -⟩ := join_over_paths (detourCache "wrap(x)" "wrap(t)")
    sampleSources [detourSink] (Sanitizers.make [] none) 2 0 _ hf Scope.maxSteps Budget.unlimited
    hrun
  obtain ⟨c, hc⟩ := Option.isSome_iff_exists.mp hy
  exact ⟨hf, hrun, (hstates 3 "y" (.source 0)).mp ⟨c, Best.mem_entries_of_get? hc⟩,
    (hrecords (.source 0) (.sink 0)).mp (Option.isSome_iff_exists.mp hk)⟩

end Program

end TaintFlow.Flow
