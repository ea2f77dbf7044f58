import TaintFlow.Proofs.Flow.Placement

/-!
# Every fact stands once

A program has a statement for every fact that matters to taint, and no other: for every source of a
symbol, every call site of a known function, every sink that reads names, every assignment and
every return whose line lies in a block.  A call site is the group of all rows with one file,
caller, callee, callee file and line; it stands where its first row stands, and its bindings are
those of all its rows.

Statements are labelled with the facts that they come from.  The labels follow the order in which
facts were recorded, so that sorting the labelled statements of a block by line and kind, which
keeps that order, gives a strict order.

## Main definitions

* `Item` — a fact by its position.
* `Item.StandsAt` — where a fact stands.
* `Item.Becomes` — the statement of a fact.
* `inventory` — all statements, labelled with their facts.
* `Listing` — the statements of a block, labelled with their facts.

## Main results

* `map_fst_headRows` — the call sites are the first rows of all groups.
* `map_snd_inventory` — the labelled statements are those of the program.
* `exists_listing` — **every fact stands once**, in its block and in its order.
-/

namespace TaintFlow.Flow

open Facts (Cache)
open Discovery (Source Sink)

/-! ### The first rows of call sites -/

section

variable (code : Code)

/-- The first rows of all call sites of known functions, with their positions. -/
def headRows (rows : List Facts.CallArgument) : List (ResolvedCall × Nat) :=
  rows.zipIdx.filterMap fun (row, i) =>
    if (rows.take i).any (siteKey · == siteKey row) then none
    else (resolveCall? code row).map (·, i)

variable {code}

/-- The rows of a call site have one callee and stand in one block. -/
theorem resolveCall?_of_siteKey_eq {row row' : Facts.CallArgument} {c : ResolvedCall}
    (h : resolveCall? code row = some c) (hkey : siteKey row' = siteKey row) :
    resolveCall? code row' = some ⟨row', c.callee, c.spot⟩ := by
  obtain ⟨-, hcallee, hspot⟩ := resolveCall?_eq_some_iff.mp h
  obtain ⟨hfile, hcaller, hname, hcalleeFile, hline⟩ := SiteKey.mk.inj hkey
  refine resolveCall?_eq_some_iff.mpr ⟨rfl, ?_, ?_⟩
  · rw [hname, hcalleeFile, hfile]
    exact hcallee
  · rw [hfile, hline, hcaller]
    exact hspot

theorem siteHeads_concat (l : List ResolvedCall) (c : ResolvedCall) :
    siteHeads (l ++ [c]) =
      if (siteHeads l).any fun h => siteKey h.row == siteKey c.row then siteHeads l
      else siteHeads l ++ [c] := by
  rw [siteHeads, List.foldl_append]
  rfl

/-- Every call site has a first row. -/
theorem any_siteHeads (l : List ResolvedCall) (key : SiteKey) :
    ((siteHeads l).any fun h => siteKey h.row == key) = l.any fun c => siteKey c.row == key := by
  induction l using List.reverseRecOn with
  | nil => rfl
  | append_singleton l c ih =>
    rw [siteHeads_concat, List.any_append, ← ih]
    split
    · next hany =>
      by_cases hkey : siteKey c.row = key
      · rw [hkey] at hany
        simp [hany]
      · simp [hkey]
    · rw [List.any_append]

variable (code)

theorem headRows_concat (rows : List Facts.CallArgument) (row : Facts.CallArgument) :
    headRows code (rows ++ [row]) = headRows code rows ++
      if rows.any (siteKey · == siteKey row) then []
      else ((resolveCall? code row).map (·, rows.length)).toList := by
  unfold headRows
  rw [List.zipIdx_append, List.filterMap_append]
  congr 1
  · -- the rows before a row are still the same
    refine List.filterMap_congr fun ⟨r, i⟩ he => ?_
    obtain ⟨-, hlt, -⟩ := List.mem_zipIdx he
    dsimp only
    rw [List.take_append_of_le_length (by omega)]
  · rw [List.zipIdx_cons, List.zipIdx_nil, Nat.zero_add, List.filterMap_cons, List.filterMap_nil]
    dsimp only
    rw [List.take_left]
    by_cases hany : (rows.any (siteKey · == siteKey row)) = true
    · rw [if_pos hany, if_pos hany]
    · rw [if_neg hany, if_neg hany]
      cases resolveCall? code row <;> rfl

/-- **The call sites are the first rows of all groups.** -/
theorem map_fst_headRows (rows : List Facts.CallArgument) :
    (headRows code rows).map Prod.fst = siteHeads (rows.filterMap (resolveCall? code)) := by
  induction rows using List.reverseRecOn with
  | nil => rfl
  | append_singleton rows row ih =>
    rw [headRows_concat, List.map_append, ih, List.filterMap_append]
    cases hrow : resolveCall? code row with
    | none => simp [hrow]
    | some c =>
      -- a row with the same call site is resolved, too
      have hany : (rows.any fun r => siteKey r == siteKey row) =
          (rows.filterMap (resolveCall? code)).any fun d => siteKey d.row == siteKey c.row := by
        obtain ⟨rfl, -⟩ := resolveCall?_eq_some_iff.mp hrow
        rw [Bool.eq_iff_iff, List.any_eq_true, List.any_eq_true]
        constructor
        · rintro ⟨r, hr, hkey⟩
          have hd := resolveCall?_of_siteKey_eq hrow (beq_iff_eq.mp hkey)
          exact ⟨_, List.mem_filterMap.mpr ⟨r, hr, hd⟩, hkey⟩
        · rintro ⟨d, hd, hkey⟩
          obtain ⟨r, hr, hd⟩ := List.mem_filterMap.mp hd
          obtain ⟨rfl, -⟩ := resolveCall?_eq_some_iff.mp hd
          exact ⟨_, hr, hkey⟩
      have hlast : [row].filterMap (resolveCall? code) = [c] := by
        rw [List.filterMap_cons, hrow, List.filterMap_nil]
      rw [hlast, siteHeads_concat, any_siteHeads, hany]
      split <;> simp

theorem mem_headRows {rows : List Facts.CallArgument} {c : ResolvedCall} {i : Nat} :
    (c, i) ∈ headRows code rows ↔ ∃ row, rows[i]? = some row ∧
      (∀ r ∈ rows.take i, siteKey r ≠ siteKey row) ∧ resolveCall? code row = some c := by
  unfold headRows
  simp only [List.mem_filterMap, Prod.exists, List.mk_mem_zipIdx_iff_getElem?]
  constructor
  · rintro ⟨row, j, hrow, h⟩
    split at h
    · cases h
    · next hany =>
      obtain ⟨d, hd, heq⟩ := Option.map_eq_some_iff.mp h
      obtain ⟨rfl, rfl⟩ := Prod.mk.inj heq
      exact ⟨row, hrow, by simpa using hany, hd⟩
  · rintro ⟨row, hrow, hfirst, hc⟩
    refine ⟨row, i, hrow, ?_⟩
    rw [if_neg (by simpa using hfirst), hc]
    rfl

theorem pairwise_headRows (rows : List Facts.CallArgument) :
    (headRows code rows).Pairwise fun e e' => e.2 < e'.2 := by
  induction rows using List.reverseRecOn with
  | nil => exact List.Pairwise.nil
  | append_singleton rows row ih =>
    rw [headRows_concat, List.pairwise_append]
    refine ⟨ih, ?_, fun e he e' he' => ?_⟩
    · split
      · exact List.Pairwise.nil
      · cases resolveCall? code row <;> simp
    · obtain ⟨r, hr, -⟩ := (mem_headRows code (c := e.1) (i := e.2)).mp he
      have hlt := (List.getElem?_eq_some_iff.mp hr).1
      split at he'
      · cases he'
      · rw [Option.mem_toList, Option.map_eq_some_iff] at he'
        obtain ⟨c, -, rfl⟩ := he'
        exact hlt

end

/-! ### Facts by their positions -/

/-- A fact, by its position among the sources, the rows of calls, the sinks, the assignments or the
returns.  A call site is named by a row of it. -/
inductive Item where
  | source (i : Nat)
  | call (i : Nat)
  | sink (i : Nat)
  | assignment (i : Nat)
  | ret (i : Nat)
  deriving DecidableEq, Repr

namespace Item

/-- The kind of the statement of a fact, as statements on one line are ordered. -/
def rank : Item → Nat
  | .source _ => 0
  | .call _ => 1
  | .sink _ => 2
  | .assignment _ => 3
  | .ret _ => 4

def index : Item → Nat
  | .source i | .call i | .sink i | .assignment i | .ret i => i

/-- A fact was recorded before another one: all sources come first, then all calls, sinks,
assignments and returns. -/
def Earlier (x y : Item) : Prop :=
  x.rank < y.rank ∨ x.rank = y.rank ∧ x.index < y.index

theorem Earlier.ne {x y : Item} (h : x.Earlier y) : x ≠ y := by
  rintro rfl
  rcases h with h | ⟨-, h⟩ <;> exact Nat.lt_irrefl _ h

section

variable (cache : Cache) (sources : List Source) (sinks : List Sink) (san : Sanitizers)

/-- The file and the line of a fact that may become a statement, and the function that is named for
it: a source of a symbol, the first row of a call site of a known function, a sink that reads names,
an assignment or a return. -/
def place? : Item → Option (String × Int × String)
  | .source i => (sources[i]?).bind fun s =>
    if s.function = "" ∧ s.symbol ≠ "" then some (s.location.file, s.location.line, "") else none
  | .call i => (cache.callArguments[i]?).bind fun row =>
    if (∀ r ∈ cache.callArguments.take i, siteKey r ≠ siteKey row) ∧
        ((Code.ofCache cache).resolve row.callee (row.calleeFile.getD "") row.file).isSome then
      some (row.file, row.line, row.caller)
    else none
  | .sink i => (sinks[i]?).bind fun s =>
    if sinkNames san s ≠ [] then some (s.location.file, s.location.line, sinkHint cache s) else none
  | .assignment i => (cache.assignments[i]?).map fun a => (a.file, a.line, a.function)
  | .ret i => (cache.returns[i]?).map fun r => (r.file, r.line, r.function)

/-- A fact stands in the block in which its line is placed. -/
def StandsAt (x : Item) (spot : Code.Spot) (line : Int) : Prop :=
  ∃ file hint, x.place? cache sources sinks san = some (file, line, hint) ∧
    (Code.ofCache cache).place file line hint = some spot

/-- The statement of a fact.  That of a call site refers to a call with the bindings of all rows of
its group. -/
def Becomes (calls : List CallSite) : Item → Statement → Prop
  | .source i, stmt => ∃ s, sources[i]? = some s ∧ stmt = .seed i s.symbol
  | .call i, stmt => ∃ row n site, cache.callArguments[i]? = some row ∧ stmt = .call n ∧
      calls[n]? = some site ∧ site.file = row.file ∧ site.line = row.line ∧
      site.name = row.callee ∧
      (Code.ofCache cache).resolve row.callee (row.calleeFile.getD "") row.file =
        some site.callee ∧
      site.bindings = ((callRows cache).filter fun c => siteKey c.row == siteKey row).filterMap
        (binding? (Code.ofCache cache) san)
  | .sink i, stmt => ∃ s, sinks[i]? = some s ∧ stmt = .sink i (sinkNames san s)
  | .assignment i, stmt => ∃ a names sites, cache.assignments[i]? = some a ∧
      stmt = .assign a.file a.target names sites
  | .ret i, stmt => ∃ r names, cache.returns[i]? = some r ∧ stmt = .ret r.file r.expr names

end

end Item

/-! ### Statements with their facts -/

section

variable {α : Type} {label : Nat → Item} {f : α → Nat → Option Placement} {l : List α}

/-- What the elements of a list are placed as, labelled with their positions. -/
def labelled (label : Nat → Item) (f : α → Nat → Option Placement) (l : List α) :
    List (Item × Placement) :=
  l.zipIdx.filterMap fun (a, i) => (f a i).map (label i, ·)

theorem mem_labelled {x : Item} {pl : Placement} :
    (x, pl) ∈ labelled label f l ↔ ∃ a i, l[i]? = some a ∧ f a i = some pl ∧ label i = x := by
  simp only [labelled, List.mem_filterMap, Prod.exists, List.mk_mem_zipIdx_iff_getElem?,
    Option.map_eq_some_iff, Prod.mk.injEq]
  constructor
  · rintro ⟨a, i, ha, pl', hf, hlabel, rfl⟩
    exact ⟨a, i, ha, hf, hlabel⟩
  · rintro ⟨a, i, ha, hf, hlabel⟩
    exact ⟨a, i, ha, pl, hf, hlabel, rfl⟩

theorem map_snd_labelled :
    (labelled label f l).map Prod.snd = l.zipIdx.filterMap fun (a, i) => f a i := by
  rw [labelled, List.map_filterMap]
  refine List.filterMap_congr fun e _ => ?_
  rw [Option.map_map]
  exact Option.map_id_apply

/-- Labelled statements of one kind, in the order of their facts. -/
structure OfRank (k : Nat) (l : List (Item × Placement)) : Prop where
  earlier : l.Pairwise fun e e' => e.1.Earlier e'.1
  rank : ∀ e ∈ l, e.1.rank = k

/-- Labelled statements of several kinds, in the order of their facts. -/
structure UpToRank (k : Nat) (l : List (Item × Placement)) : Prop where
  earlier : l.Pairwise fun e e' => e.1.Earlier e'.1
  rank : ∀ e ∈ l, e.1.rank < k

theorem ofRank_labelled {k : Nat} (hrank : ∀ i, (label i).rank = k)
    (hindex : ∀ i, (label i).index = i) : OfRank k (labelled label f l) where
  earlier := by
    have hzip : l.zipIdx.Pairwise fun e e' => e.2 < e'.2 := by
      rw [← List.pairwise_map (f := Prod.snd), List.zipIdx_map_snd]
      exact List.pairwise_lt_range'
    refine List.Pairwise.filterMap _ (fun e e' hlt b hb b' hb' => ?_) hzip
    obtain ⟨pl, -, rfl⟩ := Option.map_eq_some_iff.mp hb
    obtain ⟨pl', -, rfl⟩ := Option.map_eq_some_iff.mp hb'
    refine Or.inr ⟨(hrank _).trans (hrank _).symm, ?_⟩
    rw [hindex, hindex]
    exact hlt
  rank := by
    rintro ⟨x, pl⟩ he
    obtain ⟨a, i, -, -, rfl⟩ := mem_labelled.mp he
    exact hrank i

theorem OfRank.upTo {k : Nat} {l : List (Item × Placement)} (h : OfRank k l) :
    UpToRank (k + 1) l :=
  ⟨h.earlier, fun e he => Nat.lt_succ_of_le (h.rank e he).le⟩

/-- Statements of the next kind may be appended. -/
theorem UpToRank.append {k : Nat} {l₁ l₂ : List (Item × Placement)} (h₁ : UpToRank k l₁)
    (h₂ : OfRank k l₂) : UpToRank (k + 1) (l₁ ++ l₂) where
  earlier := by
    refine List.pairwise_append.mpr ⟨h₁.earlier, h₂.earlier, fun e he e' he' => Or.inl ?_⟩
    rw [h₂.rank e' he']
    exact h₁.rank e he
  rank := by
    intro e he
    rcases List.mem_append.mp he with he | he
    · exact Nat.lt_succ_of_lt (h₁.rank e he)
    · exact h₂.upTo.rank e he

end

section

variable (cache : Cache) (sources : List Source) (sinks : List Sink) (san : Sanitizers)

/-- The statements of call sites, labelled with their first rows. -/
def labelledCalls : List (Item × Placement) :=
  (headRows (Code.ofCache cache) cache.callArguments).zipIdx.map fun (e, n) =>
    (.call e.2, ⟨e.1.spot, ⟨e.1.row.line, .call n⟩⟩)

/-- All statements of a program, labelled with the facts that they come from. -/
def inventory : List (Item × Placement) :=
  labelled .source (seedPlacement? (Code.ofCache cache)) sources ++
  labelledCalls cache ++
  labelled .sink (sinkPlacement? (Code.ofCache cache) cache san) sinks ++
  labelled .assignment
    (fun a _ => assignPlacement? (Code.ofCache cache) cache san (callSites cache san) a)
    cache.assignments ++
  labelled .ret (fun r _ => returnPlacement? (Code.ofCache cache) cache san r) cache.returns

/-- **The labelled statements are those of the program.** -/
theorem map_snd_inventory : (inventory cache sources sinks san).map Prod.snd =
    placements cache sources sinks san := by
  have hcalls : (labelledCalls cache).map Prod.snd =
      (siteHeads (callRows cache)).zipIdx.map fun e =>
        ⟨e.1.spot, ⟨e.1.row.line, .call e.2⟩⟩ := by
    rw [labelledCalls, List.map_map, callRows, ← map_fst_headRows, List.zipIdx_map, List.map_map]
    rfl
  have hplain : ∀ {α : Type} (f : α → Option Placement) (l : List α),
      (l.zipIdx.filterMap fun e => f e.1) = l.filterMap f := by
    intro α f l
    conv_rhs => rw [← List.zipIdx_map_fst 0 l, List.filterMap_map]
    rfl
  simp only [inventory, placements, List.map_append, map_snd_labelled, hcalls, hplain]

theorem mem_labelledCalls {x : Item} {pl : Placement} : (x, pl) ∈ labelledCalls cache ↔
    ∃ c i n, (headRows (Code.ofCache cache) cache.callArguments)[n]? = some (c, i) ∧
      x = .call i ∧ pl = ⟨c.spot, ⟨c.row.line, .call n⟩⟩ := by
  simp only [labelledCalls, List.mem_map, Prod.exists, List.mk_mem_zipIdx_iff_getElem?,
    Prod.mk.injEq]
  constructor
  · rintro ⟨c, i, n, hn, rfl, rfl⟩
    exact ⟨c, i, n, hn, rfl, rfl⟩
  · rintro ⟨c, i, n, hn, rfl, rfl⟩
    exact ⟨c, i, n, hn, rfl, rfl⟩

theorem ofRank_labelledCalls : OfRank 1 (labelledCalls cache) where
  earlier := by
    have hheads := pairwise_headRows (Code.ofCache cache) cache.callArguments
    rw [← List.zipIdx_map_fst 0 (headRows (Code.ofCache cache) cache.callArguments),
      List.pairwise_map] at hheads
    exact List.pairwise_map.mpr (hheads.imp fun hlt => Or.inr ⟨rfl, hlt⟩)
  rank := by
    rintro ⟨x, pl⟩ he
    obtain ⟨c, i, n, -, rfl, -⟩ := (mem_labelledCalls cache).mp he
    rfl

/-- Statements are labelled in the order in which their facts were recorded. -/
theorem upToRank_inventory : UpToRank 5 (inventory cache sources sinks san) :=
  .append (.append (.append (.append (OfRank.upTo (ofRank_labelled (fun _ => rfl) fun _ => rfl))
    (ofRank_labelledCalls cache)) (ofRank_labelled (fun _ => rfl) fun _ => rfl))
    (ofRank_labelled (fun _ => rfl) fun _ => rfl)) (ofRank_labelled (fun _ => rfl) fun _ => rfl)

/-! ### Where facts stand -/

variable {cache sources sinks san}

theorem seedPlacement?_eq_some_iff {s : Source} {i : Nat} {pl : Placement} :
    seedPlacement? (Code.ofCache cache) s i = some pl ↔ s.function = "" ∧ s.symbol ≠ "" ∧
      (Code.ofCache cache).place s.location.file s.location.line "" = some pl.spot ∧
      pl.placed = ⟨s.location.line, .seed i s.symbol⟩ := by
  unfold seedPlacement?
  by_cases hslot : (!s.function.isEmpty || s.symbol.isEmpty) = true
  · rw [if_pos hslot]
    simp only [Bool.or_eq_true, Bool.not_eq_true', String.isEmpty_eq_false_iff,
      String.isEmpty_iff] at hslot
    refine ⟨fun h => absurd h (by simp), fun ⟨hfunction, hsymbol, _⟩ => ?_⟩
    rcases hslot with h | h
    · exact absurd hfunction h
    · exact absurd h hsymbol
  · rw [if_neg hslot]
    simp only [Bool.or_eq_true, Bool.not_eq_true', String.isEmpty_eq_false_iff,
      String.isEmpty_iff, not_or, not_not] at hslot
    rw [Option.map_eq_some_iff]
    constructor
    · rintro ⟨spot, hspot, rfl⟩
      exact ⟨hslot.1, hslot.2, hspot, rfl⟩
    · rintro ⟨-, -, hspot, hplaced⟩
      exact ⟨pl.spot, hspot, by rw [← hplaced]⟩

theorem sinkPlacement?_eq_some_iff {s : Sink} {i : Nat} {pl : Placement} :
    sinkPlacement? (Code.ofCache cache) cache san s i = some pl ↔ sinkNames san s ≠ [] ∧
      (Code.ofCache cache).place s.location.file s.location.line (sinkHint cache s) =
        some pl.spot ∧ pl.placed = ⟨s.location.line, .sink i (sinkNames san s)⟩ := by
  constructor
  · intro h
    refine ⟨fun hnil => ?_, of_sinkPlacement? h⟩
    simp only [sinkPlacement?, bind, Option.bind_eq_some_iff, hnil] at h
    obtain ⟨_, -, h⟩ := h
    cases h
  · rintro ⟨hnames, hspot, hplaced⟩
    have hempty : (sinkNames san s).isEmpty = false := by
      rw [List.isEmpty_eq_false_iff]
      exact hnames
    rw [sinkPlacement?, hspot]
    show (if (sinkNames san s).isEmpty then none else some _) = _
    rw [hempty, if_neg Bool.false_ne_true, ← hplaced]

/-- The call site of a first row. -/
theorem getElem?_callSites {c : ResolvedCall} {i n : Nat}
    (hn : (headRows (Code.ofCache cache) cache.callArguments)[n]? = some (c, i)) :
    (callSites cache san)[n]? = some (callSite (Code.ofCache cache) san (callRows cache) c) := by
  rw [callSites, List.getElem?_map, callRows, ← map_fst_headRows, List.getElem?_map, hn]
  rfl

/-- **What is labelled with a fact stands where the fact stands**, and is its statement. -/
theorem of_mem_inventory {x : Item} {pl : Placement}
    (h : (x, pl) ∈ inventory cache sources sinks san) :
    x.StandsAt cache sources sinks san pl.spot pl.placed.line ∧
      x.Becomes cache sources sinks san (callSites cache san) pl.placed.statement ∧
      pl.placed.statement.rank = x.rank := by
  simp only [inventory, List.mem_append, mem_labelled, mem_labelledCalls, or_assoc] at h
  rcases h with ⟨s, i, hs, hpl, rfl⟩ | ⟨c, i, n, hn, rfl, rfl⟩ | ⟨s, i, hs, hpl, rfl⟩ |
    ⟨a, i, ha, hpl, rfl⟩ | ⟨r, i, hr, hpl, rfl⟩
  · obtain ⟨hfunction, hsymbol, hspot, hplaced⟩ := seedPlacement?_eq_some_iff.mp hpl
    rw [hplaced]
    exact ⟨⟨_, _, by simp [Item.place?, hs, hfunction, hsymbol], hspot⟩, ⟨s, hs, rfl⟩, rfl⟩
  · obtain ⟨row, hrow, hfirst, hc⟩ := (mem_headRows _).mp (List.mem_of_getElem? hn)
    obtain ⟨rfl, hcallee, hspot⟩ := resolveCall?_eq_some_iff.mp hc
    refine ⟨⟨_, _, ?_, hspot⟩, ⟨c.row, n, _, hrow, rfl, getElem?_callSites hn, rfl, rfl, rfl,
      hcallee, rfl⟩, rfl⟩
    rw [Item.place?, hrow, Option.bind_some, if_pos ⟨hfirst, by rw [hcallee]; rfl⟩]
  · obtain ⟨hnames, hspot, hplaced⟩ := sinkPlacement?_eq_some_iff.mp hpl
    rw [hplaced]
    exact ⟨⟨_, _, by simp [Item.place?, hs, hnames], hspot⟩, ⟨s, hs, rfl⟩, rfl⟩
  · obtain ⟨names, sites, hspot, hplaced⟩ := of_assignPlacement? hpl
    rw [hplaced]
    exact ⟨⟨_, _, by simp [Item.place?, ha], hspot⟩, ⟨a, names, sites, ha, rfl⟩, rfl⟩
  · obtain ⟨names, hspot, hplaced⟩ := of_returnPlacement? hpl
    rw [hplaced]
    exact ⟨⟨_, _, by simp [Item.place?, hr], hspot⟩, ⟨r, names, hr, rfl⟩, rfl⟩

/-- **Facts that stand somewhere become statements.** -/
theorem exists_mem_inventory {x : Item} {spot : Code.Spot} {line : Int}
    (h : x.StandsAt cache sources sinks san spot line) :
    ∃ stmt, (x, ⟨spot, ⟨line, stmt⟩⟩) ∈ inventory cache sources sinks san := by
  obtain ⟨file, hint, hplace, hspot⟩ := h
  simp only [inventory, List.mem_append, mem_labelled, mem_labelledCalls, or_assoc]
  cases x with
  | source i =>
    obtain ⟨s, hs, hplace⟩ := Option.bind_eq_some_iff.mp hplace
    obtain ⟨⟨hfunction, hsymbol⟩, heq⟩ := Option.ite_none_right_eq_some.mp hplace
    cases heq
    exact ⟨_, Or.inl ⟨s, i, hs,
      seedPlacement?_eq_some_iff.mpr ⟨hfunction, hsymbol, hspot, rfl⟩, rfl⟩⟩
  | call i =>
    obtain ⟨row, hrow, hplace⟩ := Option.bind_eq_some_iff.mp hplace
    obtain ⟨⟨hfirst, hresolve⟩, heq⟩ := Option.ite_none_right_eq_some.mp hplace
    cases heq
    obtain ⟨callee, hcallee⟩ := Option.isSome_iff_exists.mp hresolve
    have hmem : (⟨row, callee, spot⟩, i) ∈ headRows (Code.ofCache cache) cache.callArguments :=
      (mem_headRows _).mpr ⟨row, hrow, hfirst,
        resolveCall?_eq_some_iff.mpr ⟨rfl, hcallee, hspot⟩⟩
    obtain ⟨n, hn⟩ := List.mem_iff_getElem?.mp hmem
    exact ⟨_, Or.inr (Or.inl ⟨_, i, n, hn, rfl, rfl⟩)⟩
  | sink i =>
    obtain ⟨s, hs, hplace⟩ := Option.bind_eq_some_iff.mp hplace
    obtain ⟨hnames, heq⟩ := Option.ite_none_right_eq_some.mp hplace
    cases heq
    exact ⟨_, Or.inr (Or.inr (Or.inl ⟨s, i, hs,
      sinkPlacement?_eq_some_iff.mpr ⟨hnames, hspot, rfl⟩, rfl⟩))⟩
  | assignment i =>
    obtain ⟨a, ha, heq⟩ := Option.map_eq_some_iff.mp hplace
    cases heq
    obtain ⟨stmt, hpl⟩ : ∃ stmt, assignPlacement? (Code.ofCache cache) cache san
        (callSites cache san) a = some ⟨spot, ⟨a.line, stmt⟩⟩ := by
      rw [assignPlacement?, hspot]
      exact ⟨_, rfl⟩
    exact ⟨stmt, Or.inr (Or.inr (Or.inr (Or.inl ⟨a, i, ha, hpl, rfl⟩)))⟩
  | ret i =>
    obtain ⟨r, hr, heq⟩ := Option.map_eq_some_iff.mp hplace
    cases heq
    obtain ⟨stmt, hpl⟩ : ∃ stmt, returnPlacement? (Code.ofCache cache) cache san r =
        some ⟨spot, ⟨r.line, stmt⟩⟩ := by
      rw [returnPlacement?, hspot]
      exact ⟨_, rfl⟩
    exact ⟨stmt, Or.inr (Or.inr (Or.inr (Or.inr ⟨r, i, hr, hpl, rfl⟩)))⟩

/-- A fact stands in one block and on one line. -/
theorem Item.StandsAt.unique {x : Item} {spot spot' : Code.Spot} {line line' : Int}
    (h : x.StandsAt cache sources sinks san spot line)
    (h' : x.StandsAt cache sources sinks san spot' line') : spot = spot' ∧ line = line' := by
  obtain ⟨file, hint, hplace, hspot⟩ := h
  obtain ⟨file', hint', hplace', hspot'⟩ := h'
  cases hplace.symm.trans hplace'
  exact ⟨Option.some.inj (hspot.symm.trans hspot'), rfl⟩

/-- The block in which a fact stands holds its line. -/
theorem Item.StandsAt.holds {x : Item} {spot : Code.Spot} {line : Int}
    (h : x.StandsAt cache sources sinks san spot line) : ∃ fn block,
      (Code.ofCache cache).functions[spot.function]? = some fn ∧
        fn.blocks[spot.block]? = some block ∧ block.holds line = true := by
  obtain ⟨_, _, -, hspot⟩ := h
  exact Code.holds_of_place hspot

/-! ### Blocks -/

variable (cache sources sinks san)

/-- The statements of a block, labelled with their facts. -/
structure Listing (f b : Nat) (es : List (Item × Placed)) : Prop where
  /-- They are all statements of the block. -/
  statements : es.map Prod.snd = (Program.build cache sources sinks san).statementsAt f b
  /-- They come from the facts that stand in the block. -/
  facts : ∀ x, x ∈ es.map Prod.fst ↔ ∃ line, x.StandsAt cache sources sinks san ⟨f, b⟩ line
  /-- Each comes from a fact of its own. -/
  once : (es.map Prod.fst).Nodup
  /-- Each is the statement of its fact, on the line of that fact. -/
  becomes : ∀ e ∈ es, e.1.StandsAt cache sources sinks san ⟨f, b⟩ e.2.line ∧
    e.1.Becomes cache sources sinks san (callSites cache san) e.2.statement
  /-- They stand in a strict order: by line, then by kind, then as their facts were recorded. -/
  order : es.Pairwise fun e e' => e.2.line < e'.2.line ∨
    e.2.line = e'.2.line ∧ e.1.Earlier e'.1

/-- What stands in a block, labelled, in the order in which facts were recorded. -/
def labelledIn (f b : Nat) : List (Item × Placed) :=
  ((inventory cache sources sinks san).filter (·.2.spot == ⟨f, b⟩)).map
    (Prod.map id Placement.placed)

theorem mem_labelledIn {f b : Nat} {e : Item × Placed} :
    e ∈ labelledIn cache sources sinks san f b ↔
      (e.1, ⟨⟨f, b⟩, e.2⟩) ∈ inventory cache sources sinks san := by
  simp only [labelledIn, List.mem_map, List.mem_filter, beq_iff_eq]
  constructor
  · rintro ⟨⟨x, ⟨spot, q⟩⟩, ⟨hmem, rfl⟩, rfl⟩
    exact hmem
  · intro hmem
    exact ⟨_, ⟨hmem, rfl⟩, rfl⟩

theorem map_snd_labelledIn (f b : Nat) : (labelledIn cache sources sinks san f b).map Prod.snd =
    placedIn (placements cache sources sinks san) f b := by
  rw [placedIn, ← map_snd_inventory, labelledIn, List.filter_map, List.map_map, List.map_map]
  rfl

theorem earlier_labelledIn (f b : Nat) : (labelledIn cache sources sinks san f b).Pairwise
    fun e e' => e.1.Earlier e'.1 :=
  List.pairwise_map.mpr ((upToRank_inventory cache sources sinks san).earlier.sublist
    List.filter_sublist)

theorem comparePlaced_eq_lt_iff {q q' : Placed} : comparePlaced q q' = .lt ↔
    q.line < q'.line ∨ q.line = q'.line ∧ q.statement.rank < q'.statement.rank := by
  rw [comparePlaced, Ordering.then_eq_lt, compareInt, compare_lt_iff_lt, compare_eq_iff_eq,
    compare_lt_iff_lt]

/-- Labelled statements are compared as statements. -/
def compareLabelled (e e' : Item × Placed) : Ordering :=
  comparePlaced e.2 e'.2

instance transCmp_compareLabelled : Std.TransCmp compareLabelled :=
  transCmp_onKey comparePlaced Prod.snd

/-- **Every fact stands once**: the statements of a block come from the facts that stand in it, one
each, in the order of lines, kinds and facts. -/
theorem exists_listing (f b : Nat) : ∃ es, Listing cache sources sinks san f b es := by
  have hmem : ∀ {e : Item × Placed},
      e ∈ sortBy compareLabelled (labelledIn cache sources sinks san f b) ↔
        (e.1, ⟨⟨f, b⟩, e.2⟩) ∈ inventory cache sources sinks san :=
    mem_sortBy.trans (mem_labelledIn cache sources sinks san)
  have horder : (sortBy compareLabelled (labelledIn cache sources sinks san f b)).Pairwise
      fun e e' => e.2.line < e'.2.line ∨ e.2.line = e'.2.line ∧ e.1.Earlier e'.1 := by
    refine (pairwise_sortBy_of_pairwise compareLabelled
      (earlier_labelledIn cache sources sinks san f b)).imp_of_mem fun he he' h => ?_
    obtain ⟨-, -, hrank⟩ := of_mem_inventory (hmem.mp he)
    obtain ⟨-, -, hrank'⟩ := of_mem_inventory (hmem.mp he')
    rcases h with hlt | ⟨heq, hearlier⟩
    · exact (comparePlaced_eq_lt_iff.mp hlt).imp_right fun h =>
        ⟨h.1, Or.inl (hrank ▸ hrank' ▸ h.2)⟩
    · rw [compareLabelled, comparePlaced, Ordering.then_eq_eq, compareInt, compare_eq_iff_eq] at heq
      exact Or.inr ⟨heq.1, hearlier⟩
  refine ⟨_, ?_, fun x => ?_, ?_, fun e he => ?_, horder⟩
  · rw [statementsAt_build, ← map_snd_labelledIn]
    exact map_sortBy comparePlaced Prod.snd _
  · constructor
    · intro hx
      obtain ⟨e, he, rfl⟩ := List.mem_map.mp hx
      exact ⟨_, (of_mem_inventory (hmem.mp he)).1⟩
    · rintro ⟨line, hx⟩
      obtain ⟨stmt, hstmt⟩ := exists_mem_inventory hx
      exact List.mem_map.mpr ⟨(x, ⟨line, stmt⟩), hmem.mpr hstmt, rfl⟩
  · -- one fact has one line, and is not recorded before itself
    refine List.pairwise_map.mpr (horder.imp_of_mem fun he he' h heq => ?_)
    have hstands := (of_mem_inventory (hmem.mp he)).1
    have hline := (hstands.unique (heq ▸ (of_mem_inventory (hmem.mp he')).1)).2
    rcases h with hlt | ⟨-, hearlier⟩
    · exact absurd hline (Int.ne_of_lt hlt)
    · exact hearlier.ne heq
  · obtain ⟨hstands, hbecomes, -⟩ := of_mem_inventory (hmem.mp he)
    exact ⟨hstands, hbecomes⟩

end

end TaintFlow.Flow
