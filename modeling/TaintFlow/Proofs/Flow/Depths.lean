import TaintFlow.Proofs.Flow.Brackets

/-!
# How many calls the chains of a place cross

A table says for every function how many calls the chains of its slots, returns and sinks may cross.
Whether a program keeps to a table is checked statement by statement, and then every chain of the
statement rules crosses as many calls as the table says, up to the hop limit.  A table is level when
it leaves no choice wherever chains are compared: there all chains cross equally many calls.

## Main definitions

* `Program.reads` — the lists of names that a statement reads.
* `Depths` — a table of depths.
* `Depths.Keeps` — a program keeps to a table.
* `Depths.Level` — a table leaves no choice.
* `Program.Rivals` — facts whose chains are compared.
* `detour` — a program of three functions with a short way that crosses two calls, and a long way
  that crosses none.

## Main results

* `Program.Derives.depth` — chains cross as many calls as the table says.
* `Program.Rivals.depth_eq` — in a level table chains that are compared cross equally many calls.
-/

namespace TaintFlow.Flow

open Facts (Cache)
open Discovery (Source Sink)

/-! ### What statements read -/

/-- The lists of names that the arguments of a call site read. -/
def Program.argumentNames (p : Program) (i : Nat) : List (List String) :=
  (p.calls[i]?).toList.flatMap fun site => site.bindings.map (·.names)

/-- The lists of names that a statement reads.  Of the chains that one list observes, the best one
per root goes on. -/
def Program.reads (p : Program) : Statement → List (List String)
  | .seed .. => []
  | .call i => p.argumentNames i
  | .sink _ names => [names]
  | .assign _ _ names calls => names :: calls.flatMap p.argumentNames
  | .ret _ _ names => [names]

theorem Program.mem_argumentNames {p : Program} {i : Nat} {site : CallSite} {b : Binding}
    (hsite : p.calls[i]? = some site) (hb : b ∈ site.bindings) : b.names ∈ p.argumentNames i := by
  rw [argumentNames, hsite]
  exact List.mem_flatMap.mpr ⟨site, List.mem_singleton_self site, List.mem_map.mpr ⟨b, hb, rfl⟩⟩

/-! ### Tables of depths -/

/-- How many calls chains cross: those of a slot of a function, those that a function returns, and
those from a function to a sink. -/
structure Depths where
  slots : List (Nat × String × Nat)
  returns : List (Nat × Nat)
  sinks : List (Nat × Nat × Nat)

namespace Depths

/-- The depths of the slots of a function that names observe. -/
def observed (g : Depths) (f : Nat) (names : List String) : List Nat :=
  (g.slots.filter fun e => e.1 == f && observes names e.2.1).map (·.2.2)

/-- The depths of what a function returns. -/
def returned (g : Depths) (f : Nat) : List Nat :=
  (g.returns.filter (·.1 == f)).map (·.2)

/-- The sinks that a function reaches, with the depths. -/
def reached (g : Depths) (f : Nat) : List (Nat × Nat) :=
  (g.sinks.filter (·.1 == f)).map (·.2)

/-- A statement of a function keeps to a table. -/
def Admits (g : Depths) (p : Program) (f : Nat) : Statement → Prop
  | .seed _ slot => (f, slot, 0) ∈ g.slots
  | .call i => ∀ site ∈ (p.calls[i]?).toList, ∀ b ∈ site.bindings, ∀ n ∈ g.observed f b.names,
      ∀ t ∈ g.reached site.callee, (f, t.1, n + t.2 + 1) ∈ g.sinks
  | .sink k names => ∀ n ∈ g.observed f names, (f, k, n) ∈ g.sinks
  | .assign _ target names calls => (∀ n ∈ g.observed f names, (f, target, n) ∈ g.slots) ∧
      ∀ i ∈ calls, ∀ site ∈ (p.calls[i]?).toList, ∀ m ∈ g.returned site.callee,
        (f, target, m + 1) ∈ g.slots ∧
          ∀ b ∈ site.bindings, ∀ n ∈ g.observed f b.names, (f, target, n + m + 1) ∈ g.slots
  | .ret _ _ names => ∀ n ∈ g.observed f names, (f, n) ∈ g.returns

instance (g : Depths) (p : Program) (f : Nat) (stmt : Statement) :
    Decidable (g.Admits p f stmt) := by
  cases stmt <;> dsimp only [Admits] <;> infer_instance

/-- A program keeps to a table: all its parameters and statements do. -/
structure Keeps (g : Depths) (p : Program) : Prop where
  params : ∀ e ∈ p.code.functions.toList.zipIdx, ∀ name ∈ e.1.params, name ≠ "" →
    (e.2, name, 0) ∈ g.slots
  statements : ∀ e ∈ p.statements.toList.zipIdx, ∀ qs ∈ e.1.toList, ∀ q ∈ qs,
    g.Admits p e.2 q.statement

/-- A table leaves no choice: one depth for a slot, for the returns of a function, for a sink, and
for all slots that a list of names observes. -/
structure Level (g : Depths) (p : Program) : Prop where
  slots : ∀ e ∈ g.slots, ∀ e' ∈ g.slots, e.1 = e'.1 → e.2.1 = e'.2.1 → e.2.2 = e'.2.2
  returns : ∀ e ∈ g.returns, ∀ e' ∈ g.returns, e.1 = e'.1 → e.2 = e'.2
  sinks : ∀ e ∈ g.sinks, ∀ e' ∈ g.sinks, e.1 = e'.1 → e.2.1 = e'.2.1 → e.2.2 = e'.2.2
  reads : ∀ e ∈ p.statements.toList.zipIdx, ∀ qs ∈ e.1.toList, ∀ q ∈ qs,
    ∀ names ∈ p.reads q.statement, ∀ n ∈ g.observed e.2 names, ∀ m ∈ g.observed e.2 names, n = m

/-- The depths that a table gives for the chains of a fact. -/
def Gives (g : Depths) : Fact → Nat → Prop
  | .tainted f _ _ x _, n => (f, x, n) ∈ g.slots
  | .receives .., _ => True
  | .reachesSink f _ k, n => (f, k, n) ∈ g.sinks
  | .reachesReturn f _, n => (f, n) ∈ g.returns

variable {g : Depths} {p : Program} {f n : Nat}

theorem mem_observed {names : List String} :
    n ∈ g.observed f names ↔ ∃ x, observes names x = true ∧ (f, x, n) ∈ g.slots := by
  simp only [observed, List.mem_map, List.mem_filter, Bool.and_eq_true, beq_iff_eq]
  constructor
  · rintro ⟨⟨f', x, n'⟩, ⟨hmem, rfl, hx⟩, rfl⟩
    exact ⟨x, hx, hmem⟩
  · rintro ⟨x, hx, hmem⟩
    exact ⟨(f, x, n), ⟨hmem, rfl, hx⟩, rfl⟩

theorem mem_returned : n ∈ g.returned f ↔ (f, n) ∈ g.returns := by
  simp [returned]

theorem mem_reached {k : Nat} : (k, n) ∈ g.reached f ↔ (f, k, n) ∈ g.sinks := by
  simp [reached]

/-- The statements of a program, by function. -/
theorem exists_of_runs {b pos : Nat} {line : Int} {stmt : Statement}
    (hrun : p.Runs f b pos line stmt) :
    ∃ e ∈ p.statements.toList.zipIdx, e.2 = f ∧ ∃ qs ∈ e.1.toList, ⟨line, stmt⟩ ∈ qs := by
  have hmem : (⟨line, stmt⟩ : Placed) ∈ p.statementsAt f b := List.mem_of_getElem? hrun
  rw [Program.statementsAt, Array.getD_eq_getD_getElem?, Array.getD_eq_getD_getElem?] at hmem
  cases hf : p.statements[f]? with
  | none => simp [hf] at hmem
  | some blocks =>
    rw [hf, Option.getD_some] at hmem
    cases hb : blocks[b]? with
    | none => simp [hb] at hmem
    | some qs =>
      rw [hb, Option.getD_some] at hmem
      refine ⟨(blocks, f), ?_, rfl, qs, ?_, hmem⟩
      · rw [List.mk_mem_zipIdx_iff_getElem?, Array.getElem?_toList]
        exact hf
      · exact Array.mem_toList_iff.mpr (Array.mem_of_getElem? hb)

theorem Keeps.admits (hg : g.Keeps p) {b pos : Nat} {line : Int} {stmt : Statement}
    (hrun : p.Runs f b pos line stmt) : g.Admits p f stmt := by
  obtain ⟨e, he, rfl, qs, hqs, hq⟩ := exists_of_runs hrun
  exact hg.statements e he qs hqs _ hq

theorem Keeps.param (hg : g.Keeps p) {fn : Function} (hf : p.function? f = some fn) {name : String}
    (hname : name ∈ fn.params) (hne : name ≠ "") : (f, name, 0) ∈ g.slots := by
  refine hg.params (fn, f) ?_ name hname hne
  rw [List.mk_mem_zipIdx_iff_getElem?, Array.getElem?_toList]
  exact hf

end Depths

namespace Scope

theorem depth_compose (s : Scope) (c : Chain) (call : Step) (tail : Chain) :
    (s.compose c call tail).depth = min (c.depth + tail.depth + 1) (s.maxHops + 1) := by
  rcases s.compose_cases c call tail with ⟨hle, -, hdepth, -⟩ | ⟨hlt, -, hdepth, -⟩ <;> omega

theorem depth_lift (s : Scope) (tail : Chain) (site : CallSite) :
    (s.lift tail site).depth = min (tail.depth + 1) (s.maxHops + 1) := by
  rcases s.lift_cases tail site with ⟨hle, -, hdepth, -⟩ | ⟨hlt, -, hdepth, -⟩ <;> omega

end Scope

namespace Program

variable {p : Program} {h : Nat} {g : Depths}

/-- **Chains cross as many calls as the table says**, up to the hop limit.  By induction on the
derivation; each rule is what the table admits of one statement. -/
theorem Derives.depth (hg : g.Keeps p) {fact : Fact} {c : Chain} (d : p.Derives h fact c) :
    ∃ n, g.Gives fact n ∧ c.depth = min n (h + 1) := by
  induction d with
  | enterParam hf _ hname hne =>
    exact ⟨0, hg.param hf.1 (List.mem_of_getElem? hname) hne, rfl⟩
  | enterHandler hf _ _ _ hname hne => exact ⟨0, hg.param hf.1 hname hne, rfl⟩
  | edge _ _ _ _ ih => exact ih
  | keep _ _ _ ih => exact ih
  | seed _ hrun _ => exact ⟨0, hg.admits hrun, rfl⟩
  | assign hrun hx _ ih =>
    obtain ⟨n, hn, hdepth⟩ := ih
    exact ⟨n, (hg.admits hrun).1 n (Depths.mem_observed.mpr ⟨_, hx, hn⟩), hdepth⟩
  | @assignBound f b pos i line file target x names calls site bound r c tail hrun hi hsite hbound hx
      _ _ ih ihtail =>
    obtain ⟨n, hn, hdepth⟩ := ih
    obtain ⟨m, hm, hdepth'⟩ := ihtail
    refine ⟨n + m + 1, ?_, ?_⟩
    · have hcalls := (hg.admits hrun).2 i hi site (Option.mem_toList.mpr hsite) m
        (Depths.mem_returned.mpr hm)
      exact hcalls.2 bound hbound n (Depths.mem_observed.mpr ⟨x, hx, hn⟩)
    · have hcompose := (p.bare h f).depth_compose c
        ((p.bare h f).stepAt b pos line .call file site.name) tail
      have hhops : (p.bare h f).maxHops = h := rfl
      show (Scope.compose _ _ _ _).depth = _
      omega
  | @assignIntrinsic f b pos i s fn line file target names calls site tail hf hrun hi hsite _ ih =>
    obtain ⟨m, hm, hdepth⟩ := ih
    refine ⟨m + 1, ?_, ?_⟩
    · exact ((hg.admits hrun).2 i hi site (Option.mem_toList.mpr hsite) m
        (Depths.mem_returned.mpr hm)).1
    · have hlift := (p.bare h f).depth_lift tail site
      have hhops : (p.bare h f).maxHops = h := rfl
      show (Scope.lift _ _ _).depth = _
      omega
  | call hrun hsite hbound hx _ ih =>
    obtain ⟨n, -, hdepth⟩ := ih
    exact ⟨n, trivial, hdepth⟩
  | @callSink f b pos i k line site bound x r c tail hrun hsite hbound hx _ _ ih ihtail =>
    obtain ⟨n, hn, hdepth⟩ := ih
    obtain ⟨m, hm, hdepth'⟩ := ihtail
    refine ⟨n + m + 1, ?_, ?_⟩
    · exact hg.admits hrun site (Option.mem_toList.mpr hsite) bound hbound n
        (Depths.mem_observed.mpr ⟨x, hx, hn⟩) (k, m) (Depths.mem_reached.mpr hm)
    · have hcompose := (p.bare h f).depth_compose c
        ((p.bare h f).stepAt b pos line .call site.file site.name) tail
      have hhops : (p.bare h f).maxHops = h := rfl
      omega
  | sink hrun _ hx _ ih =>
    obtain ⟨n, hn, hdepth⟩ := ih
    exact ⟨n, hg.admits hrun n (Depths.mem_observed.mpr ⟨_, hx, hn⟩), hdepth⟩
  | ret hrun hx _ ih =>
    obtain ⟨n, hn, hdepth⟩ := ih
    exact ⟨n, hg.admits hrun n (Depths.mem_observed.mpr ⟨_, hx, hn⟩), hdepth⟩

/-! ### Chains that are compared -/

/-- Facts whose chains are compared before they go on: chains of one slot, of the slots that one
list of names observes, from one parameter to one sink, and from one root to a return. -/
inductive Rivals (p : Program) : Fact → Fact → Prop where
  | slot (f b pos : Nat) (x : String) (r : Root) :
      Rivals p (.tainted f b pos x r) (.tainted f b pos x r)
  | read {f b pos : Nat} {line : Int} {stmt : Statement} {names : List String} {x y : String}
      {r : Root} (hrun : p.Runs f b pos line stmt) (hnames : names ∈ p.reads stmt)
      (hx : observes names x = true) (hy : observes names y = true) :
      Rivals p (.tainted f b pos x r) (.tainted f b pos y r)
  | sink (f i k : Nat) : Rivals p (.reachesSink f (.param i) k) (.reachesSink f (.param i) k)
  | ret (f : Nat) (r : Root) : Rivals p (.reachesReturn f r) (.reachesReturn f r)

/-- **In a level table chains that are compared cross equally many calls.** -/
theorem Rivals.depth_eq (hg : g.Keeps p) (hlevel : g.Level p) {fact fact' : Fact} {c d : Chain}
    (hrivals : p.Rivals fact fact') (hc : p.Derives h fact c) (hd : p.Derives h fact' d) :
    c.depth = d.depth := by
  obtain ⟨n, hn, hdepth⟩ := hc.depth hg
  obtain ⟨m, hm, hdepth'⟩ := hd.depth hg
  have hnm : n = m := by
    cases hrivals with
    | slot f b pos x r => exact hlevel.slots _ hn _ hm rfl rfl
    | read hrun hnames hx hy =>
      obtain ⟨e, he, rfl, qs, hqs, hq⟩ := Depths.exists_of_runs hrun
      exact hlevel.reads e he qs hqs _ hq _ hnames n (Depths.mem_observed.mpr ⟨_, hx, hn⟩) m
        (Depths.mem_observed.mpr ⟨_, hy, hm⟩)
    | sink f i k => exact hlevel.sinks _ hn _ hm rfl rfl
    | ret f r => exact hlevel.returns _ hn _ hm rfl
  rw [hdepth, hdepth', hnm]

end Program

/-! ### A detour

In `main` an untrusted value `x` comes into `y` on two ways: on the first one by two assignments, on
the second one by nine plain ones.  In the end `y` is handed to `run`, which executes it.  With
`wrap(x)` and `wrap(t)` on the first way its chain is the shorter one, and crosses two calls. -/

/-- The facts of the detour: what the two assignments of the first way read is left open. -/
def detourCache (first second : String) : Cache where
  tables := [
    .ofRows Schema.cfgBlocks [
      ⟨[.int 1, .text "app", .text "main", .text "entry", .int 1, .int 2, .null]⟩,
      ⟨[.int 2, .text "app", .text "main", .text "then", .int 3, .int 4, .null]⟩,
      ⟨[.int 3, .text "app", .text "main", .text "else", .int 5, .int 13, .null]⟩,
      ⟨[.int 4, .text "app", .text "main", .text "exit", .int 14, .int 15, .null]⟩,
      ⟨[.int 5, .text "app", .text "wrap", .text "entry", .int 21, .int 23, .null]⟩,
      ⟨[.int 6, .text "app", .text "wrap", .text "exit", .int 23, .int 23, .null]⟩,
      ⟨[.int 7, .text "app", .text "run", .text "entry", .int 31, .int 33, .null]⟩,
      ⟨[.int 8, .text "app", .text "run", .text "exit", .int 33, .int 33, .null]⟩],
    .ofRows Schema.cfgEdges [
      ⟨[.int 1, .text "app", .text "main", .int 1, .int 2, .text "true"]⟩,
      ⟨[.int 2, .text "app", .text "main", .int 1, .int 3, .text "false"]⟩,
      ⟨[.int 3, .text "app", .text "main", .int 2, .int 4, .text "normal"]⟩,
      ⟨[.int 4, .text "app", .text "main", .int 3, .int 4, .text "normal"]⟩,
      ⟨[.int 5, .text "app", .text "wrap", .int 5, .int 6, .text "normal"]⟩,
      ⟨[.int 6, .text "app", .text "run", .int 7, .int 8, .text "normal"]⟩],
    .ofRows Schema.funcParams [
      ⟨[.text "app", .text "wrap", .int 0, .text "v"]⟩,
      ⟨[.text "app", .text "run", .int 0, .text "cmd"]⟩],
    .ofRows Schema.functionCallArgs [
      ⟨[.text "app", .int 3, .text "main", .text "wrap", .int 0, .text "x", .null, .null]⟩,
      ⟨[.text "app", .int 4, .text "main", .text "wrap", .int 0, .text "t", .null, .null]⟩,
      ⟨[.text "app", .int 14, .text "main", .text "run", .int 0, .text "y", .null, .null]⟩],
    .ofRows Schema.assignments [
      ⟨[.text "app", .int 3, .text "t", .text first, .text "main", .null]⟩,
      ⟨[.text "app", .int 4, .text "y", .text second, .text "main", .null]⟩,
      ⟨[.text "app", .int 5, .text "a", .text "x", .text "main", .null]⟩,
      ⟨[.text "app", .int 6, .text "b", .text "a", .text "main", .null]⟩,
      ⟨[.text "app", .int 7, .text "c", .text "b", .text "main", .null]⟩,
      ⟨[.text "app", .int 8, .text "d", .text "c", .text "main", .null]⟩,
      ⟨[.text "app", .int 9, .text "e", .text "d", .text "main", .null]⟩,
      ⟨[.text "app", .int 10, .text "f", .text "e", .text "main", .null]⟩,
      ⟨[.text "app", .int 11, .text "g", .text "f", .text "main", .null]⟩,
      ⟨[.text "app", .int 12, .text "h", .text "g", .text "main", .null]⟩,
      ⟨[.text "app", .int 13, .text "y", .text "h", .text "main", .null]⟩],
    .ofRows Schema.functionReturns [
      ⟨[.text "app", .int 22, .text "wrap", .text "v", .bool false, .bool false, .null]⟩]]

/-- The sink of the detour. -/
def detourSink : Sink :=
  { id := "k", name := "exec", args := ["cmd"], location := ⟨"app", 32, 0⟩ }

/-- The detour as a program. -/
def detour (first second : String) : Program :=
  Program.build (detourCache first second) sampleSources [detourSink] (Sanitizers.make [] none)

/-- The main function of the detour: two ways from the entry to the exit. -/
def detourMain : Function where
  file := "app"
  name := "main"
  blocks := #[{ id := 1, type := "entry", start := 1, stop := 2, succ := [1, 2] },
    { id := 2, type := "then", start := 3, stop := 4, succ := [3], pred := [0] },
    { id := 3, type := "else", start := 5, stop := 13, succ := [3], pred := [0] },
    { id := 4, type := "exit", start := 14, stop := 15, pred := [1, 2] }]
  params := []
  paramPositions := []
  entry := some 0
  line := 1
  reach := #[#[14], #[8], #[8], #[0]]
  defect := none

/-- The functions of the detour. -/
def detourCode : Code :=
  ⟨#[detourMain, sampleFunction "run" 7 31 33 [("cmd", 0)],
    sampleFunction "wrap" 5 21 23 [("v", 0)]]⟩

/-- The call sites of the detour. -/
def detourCalls : List CallSite :=
  [⟨0, 2, "app", 3, "wrap", [⟨0, "x", ["x"]⟩]⟩, ⟨0, 2, "app", 4, "wrap", [⟨0, "t", ["t"]⟩]⟩,
    ⟨0, 1, "app", 14, "run", [⟨0, "y", ["y"]⟩]⟩]

/-- The facts of the second way. -/
def longWayFacts : List Facts.Assignment :=
  [⟨"app", 5, "a", "x", "main"⟩, ⟨"app", 6, "b", "a", "main"⟩, ⟨"app", 7, "c", "b", "main"⟩,
    ⟨"app", 8, "d", "c", "main"⟩, ⟨"app", 9, "e", "d", "main"⟩, ⟨"app", 10, "f", "e", "main"⟩,
    ⟨"app", 11, "g", "f", "main"⟩, ⟨"app", 12, "h", "g", "main"⟩, ⟨"app", 13, "y", "h", "main"⟩]

/-- The statements of the second way. -/
def longWay : List Placed :=
  [⟨5, .assign "app" "a" ["x"] []⟩, ⟨6, .assign "app" "b" ["a"] []⟩,
    ⟨7, .assign "app" "c" ["b"] []⟩, ⟨8, .assign "app" "d" ["c"] []⟩,
    ⟨9, .assign "app" "e" ["d"] []⟩, ⟨10, .assign "app" "f" ["e"] []⟩,
    ⟨11, .assign "app" "g" ["f"] []⟩, ⟨12, .assign "app" "h" ["g"] []⟩,
    ⟨13, .assign "app" "y" ["h"] []⟩]

/-- The program, where the assignments of the first way read the given names and take the results
of the given calls. -/
def detourProgram (names names' : List String) (calls calls' : List Nat) : Program where
  code := detourCode
  sources := sampleSources.toArray
  sinks := #[detourSink]
  calls := detourCalls.toArray
  statements := #[
    #[[⟨2, .seed 0 "x"⟩],
      [⟨3, .call 0⟩, ⟨3, .assign "app" "t" names calls⟩, ⟨4, .call 1⟩,
        ⟨4, .assign "app" "y" names' calls'⟩],
      longWay,
      [⟨14, .call 2⟩]],
    #[[⟨32, .sink 0 ["cmd"]⟩], []],
    #[[⟨22, .ret "app" "v" ["v"]⟩], []]]
  endpoints := #[[], [], []]
  links := [(0, 2), (0, 1)]
  diagnostics := []

section

variable (first second : String)

theorem ofCache_detourCache : Code.ofCache (detourCache first second) = detourCode := by
  have hblocks : (detourCache first second).blocks =
      [⟨1, "app", "main", "entry", 1, 2⟩, ⟨2, "app", "main", "then", 3, 4⟩,
        ⟨3, "app", "main", "else", 5, 13⟩, ⟨4, "app", "main", "exit", 14, 15⟩,
        ⟨5, "app", "wrap", "entry", 21, 23⟩, ⟨6, "app", "wrap", "exit", 23, 23⟩,
        ⟨7, "app", "run", "entry", 31, 33⟩, ⟨8, "app", "run", "exit", 33, 33⟩] := rfl
  have hedges : (detourCache first second).edges =
      [⟨1, "app", "main", 1, 2⟩, ⟨2, "app", "main", 1, 3⟩, ⟨3, "app", "main", 2, 4⟩,
        ⟨4, "app", "main", 3, 4⟩, ⟨5, "app", "wrap", 5, 6⟩, ⟨6, "app", "run", 7, 8⟩] := rfl
  have hparams : (detourCache first second).parameters =
      [⟨"app", "wrap", 0, "v"⟩, ⟨"app", "run", 0, "cmd"⟩] := rfl
  unfold Code.ofCache Code.keys buildFunction
  rw [hblocks, hedges, hparams]
  cbv

theorem callRows_detourCache : callRows (detourCache first second) =
    [⟨⟨"app", 3, "main", "wrap", some 0, some "x", none, none⟩, 2, ⟨0, 1⟩⟩,
      ⟨⟨"app", 4, "main", "wrap", some 0, some "t", none, none⟩, 2, ⟨0, 1⟩⟩,
      ⟨⟨"app", 14, "main", "run", some 0, some "y", none, none⟩, 1, ⟨0, 3⟩⟩] := by
  have hcalls : (detourCache first second).callArguments =
      [⟨"app", 3, "main", "wrap", some 0, some "x", none, none⟩,
        ⟨"app", 4, "main", "wrap", some 0, some "t", none, none⟩,
        ⟨"app", 14, "main", "run", some 0, some "y", none, none⟩] := rfl
  rw [callRows, ofCache_detourCache, hcalls]
  cbv

theorem callSites_detourCache :
    callSites (detourCache first second) (Sanitizers.make [] none) = detourCalls := by
  rw [callSites, callRows_detourCache, ofCache_detourCache]
  decide +kernel

end

section

variable {first second : String} {names names' : List String} {calls calls' : List Nat}
  (h : assignPlacement? detourCode ⟨[]⟩ (Sanitizers.make [] none) detourCalls
    ⟨"app", 3, "t", first, "main"⟩ = some ⟨⟨0, 1⟩, ⟨3, .assign "app" "t" names calls⟩⟩)
  (h' : assignPlacement? detourCode ⟨[]⟩ (Sanitizers.make [] none) detourCalls
    ⟨"app", 4, "y", second, "main"⟩ = some ⟨⟨0, 1⟩, ⟨4, .assign "app" "y" names' calls'⟩⟩)

include h h'

theorem placements_detourCache :
    placements (detourCache first second) sampleSources [detourSink] (Sanitizers.make [] none) =
      [⟨⟨0, 0⟩, ⟨2, .seed 0 "x"⟩⟩, ⟨⟨0, 1⟩, ⟨3, .call 0⟩⟩, ⟨⟨0, 1⟩, ⟨4, .call 1⟩⟩,
        ⟨⟨0, 3⟩, ⟨14, .call 2⟩⟩, ⟨⟨1, 0⟩, ⟨32, .sink 0 ["cmd"]⟩⟩,
        ⟨⟨0, 1⟩, ⟨3, .assign "app" "t" names calls⟩⟩,
        ⟨⟨0, 1⟩, ⟨4, .assign "app" "y" names' calls'⟩⟩] ++ longWay.map (⟨⟨0, 2⟩, ·⟩) ++
        [⟨⟨2, 0⟩, ⟨22, .ret "app" "v" ["v"]⟩⟩] := by
  have hassigns : (detourCache first second).assignments =
      ⟨"app", 3, "t", first, "main"⟩ :: ⟨"app", 4, "y", second, "main"⟩ :: longWayFacts := rfl
  have hreturns : (detourCache first second).returns = [⟨"app", 22, "wrap", "v"⟩] := rfl
  -- the facts name neither the slots that are read nor the function of the sink
  have hassign : assignPlacement? detourCode (detourCache first second) =
      assignPlacement? detourCode ⟨[]⟩ := rfl
  have hreturn : returnPlacement? detourCode (detourCache first second) =
      returnPlacement? detourCode ⟨[]⟩ := rfl
  have hsink : sinkPlacement? detourCode (detourCache first second) (Sanitizers.make [] none)
      detourSink 0 = some ⟨⟨1, 0⟩, ⟨32, .sink 0 ["cmd"]⟩⟩ := by
    have hhint : sinkHint (detourCache first second) detourSink = "" := rfl
    rw [sinkPlacement?, hhint]
    decide +kernel
  have hlong : longWayFacts.filterMap (assignPlacement? detourCode ⟨[]⟩ (Sanitizers.make [] none)
      detourCalls) = longWay.map (⟨⟨0, 2⟩, ·⟩) := by
    decide +kernel
  have hseed : (sampleSources.zipIdx.filterMap fun e => seedPlacement? detourCode e.1 e.2) =
      [⟨⟨0, 0⟩, ⟨2, .seed 0 "x"⟩⟩] := by
    decide +kernel
  have hret : [⟨"app", 22, "wrap", "v"⟩].filterMap (returnPlacement? detourCode ⟨[]⟩
      (Sanitizers.make [] none)) = [⟨⟨2, 0⟩, ⟨22, .ret "app" "v" ["v"]⟩⟩] := by
    decide +kernel
  rw [placements, callSites_detourCache, callRows_detourCache, ofCache_detourCache, hassigns,
    hreturns, hassign, hreturn, List.filterMap_cons, h, List.filterMap_cons, h']
  dsimp only
  rw [hlong, hseed, hret, List.zipIdx_singleton, List.filterMap_cons, hsink]
  rfl

/-- **The detour, written out**, by what the assignments of the first way read. -/
theorem detour_eq : detour first second = detourProgram names names' calls calls' := by
  rw [detour, Program.build, detourProgram, Program.mk.injEq]
  refine ⟨ofCache_detourCache first second, rfl, rfl, ?_, ?_, ?_, ?_, ?_⟩
  · exact congrArg List.toArray (callSites_detourCache first second)
  · show arrange (Code.ofCache (detourCache first second)) (placements (detourCache first second)
      sampleSources [detourSink] (Sanitizers.make [] none)) = _
    rw [ofCache_detourCache, placements_detourCache h h']
    cbv
  · rw [ofCache_detourCache]
    decide +kernel
  · show firsts ((callSites (detourCache first second) (Sanitizers.make [] none)).map _) = _
    rw [callSites_detourCache]
    decide +kernel
  · show (callRows (detourCache first second)).filterMap (unbound? (Code.ofCache _)) = _
    rw [callRows_detourCache, ofCache_detourCache]
    cbv

end

/-- With plain assignments neither way crosses a call. -/
theorem detour_plain : detour "x" "t" = detourProgram ["x"] ["t"] [] [] :=
  detour_eq (by decide +kernel) (by decide +kernel)

/-- With calls the first way takes the results of both. -/
theorem detour_calls : detour "wrap(x)" "wrap(t)" = detourProgram [] [] [0] [1] :=
  detour_eq (by decide +kernel) (by decide +kernel)

/-- The depths of the detour with plain assignments: one call on the way to the sink. -/
def plainDepths : Depths where
  slots := ["x", "t", "a", "b", "c", "d", "e", "f", "g", "h", "y"].map (0, ·, 0) ++
    [(1, "cmd", 0), (2, "v", 0)]
  returns := [(2, 0)]
  sinks := [(1, 0, 0), (0, 0, 1)]

theorem plainDepths_fits :
    plainDepths.Keeps (detour "x" "t") ∧ plainDepths.Level (detour "x" "t") := by
  rw [detour_plain]
  exact ⟨⟨by decide +kernel, by decide +kernel⟩,
    ⟨by decide +kernel, by decide +kernel, by decide +kernel, by decide +kernel⟩⟩

/-- The depths of the sample: `y` comes out of a call, and there is a second one to the sink. -/
def sampleDepths : Depths where
  slots := [(0, "x", 0), (0, "y", 1), (1, "cmd", 0), (2, "v", 0)]
  returns := [(2, 0)]
  sinks := [(1, 0, 0), (0, 0, 2)]

theorem sampleDepths_fits : sampleDepths.Keeps sample ∧ sampleDepths.Level sample := by
  rw [sample_eq]
  exact ⟨⟨by decide +kernel, by decide +kernel⟩,
    ⟨by decide +kernel, by decide +kernel, by decide +kernel, by decide +kernel⟩⟩

end TaintFlow.Flow
