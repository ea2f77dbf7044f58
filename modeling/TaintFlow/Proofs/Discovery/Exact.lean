import Mathlib.Data.List.Nodup
import Std.Data.String.ToNat
import TaintFlow.Discovery.Engine
import TaintFlow.Proofs.Discovery.NestedCalls
import TaintFlow.Proofs.Text.Marks
import TaintFlow.Proofs.Text.Order

/-!
# Discovery is exact

What the engine finds, row by row: a row gives one source of a category if some rule for sources
with that table and category accepts it, and it comes from the first such rule; the same holds of
sinks.  Repeated hits are dropped by the key of category and origin, while the result is ordered by
a longer key that includes the rule; both tell all hits apart.

## Main definitions

* `Engine.Checked` — the rules of an engine have been checked and have distinct ids.
* `rowAt?` — the row that an origin names.
* `Engine.firstHit?` — the hit of the first rule that accepts a row.

## Main results

* `filter_hits` — the hits of a row and category are the first one.
* `hitId_inj` — an id tells rule and origin.
* `discovery_exact` — what the engine finds, for every table of rules and every cache.
-/

namespace TaintFlow.Discovery

open Facts (Cache Row Location)

/-! ### Checked rules -/

/-- A rule that has been checked is kept, together with its table. -/
theorem of_compile {r : Rule} {c : Compiled} (h : compile r = .ok c) :
    c.rule = r ∧ Schema.lookup? Schema.factTables r.table = some c.table := by
  unfold compile at h
  split at h
  · cases h
  split at h
  · cases h
  split at h
  · cases h
  split at h
  · cases h
  next t ht =>
    split at h
    · cases h
    split at h
    · cases h
    cases htests : compileConditions r.id t 0 r.conditions with
    | error e =>
      rw [htests] at h
      cases h
    | ok tests =>
      rw [htests] at h
      cases h
      exact ⟨rfl, ht⟩

theorem mem_of_lookup? {name : String} {t : Schema.Table}
    (h : Schema.lookup? Schema.factTables name = some t) :
    t ∈ Schema.factTables ∧ t.name = name := by
  have hname := List.find?_some h
  exact ⟨List.mem_of_find?_eq_some h, beq_iff_eq.mp hname⟩

namespace Engine

/-- The rules of an engine have been checked, and no two have the same id. -/
structure Checked (e : Engine) : Prop where
  compiles : ∀ c ∈ e.compiled, compile c.rule = .ok c
  distinct : (e.compiled.map (·.rule.id)).Nodup

theorem of_compileAll {rs : List Rule} {seen : List String} {cs : List Compiled}
    (h : compileAll seen rs = .ok cs) :
    cs.map (·.rule) = rs ∧ (∀ c ∈ cs, compile c.rule = .ok c) ∧
      (cs.map (·.rule.id)).Nodup ∧ ∀ c ∈ cs, c.rule.id ∉ seen := by
  induction rs generalizing seen cs with
  | nil =>
    cases h
    simp
  | cons r rs ih =>
    rw [compileAll] at h
    split at h
    · cases h
    next hnew =>
      split at h
      · cases h
      next c hc =>
        cases hcs : compileAll (r.id :: seen) rs with
        | error e =>
          rw [hcs] at h
          cases h
        | ok cs' =>
          rw [hcs] at h
          cases h
          obtain ⟨hrules, hcompiles, hdistinct, hseen⟩ := ih hcs
          obtain rfl := (of_compile hc).1
          have hid : ∀ d ∈ cs', d.rule.id ≠ c.rule.id ∧ d.rule.id ∉ seen := fun d hd => by
            simpa using hseen d hd
          refine ⟨by rw [List.map_cons, hrules], List.forall_mem_cons.mpr ⟨hc, hcompiles⟩, ?_,
            List.forall_mem_cons.mpr ⟨by simpa using hnew, fun d hd => (hid d hd).2⟩⟩
          rw [List.map_cons, List.nodup_cons, List.mem_map]
          exact ⟨fun ⟨d, hd, heq⟩ => (hid d hd).1 heq, hdistinct⟩

/-- The rules of an engine are those of its setup, laid over each other. -/
theorem of_make {s : Setup} {e : Engine} (h : make s = .ok e) :
    e.rules = overlay (withPrefixes s.prefixes s.rules) s.extra ∧ e.Checked := by
  cases hcs : compileAll [] (overlay (withPrefixes s.prefixes s.rules) s.extra) with
  | error f =>
    rw [make, hcs] at h
    cases h
  | ok cs =>
    rw [make, hcs] at h
    cases h
    obtain ⟨hrules, hcompiles, hdistinct, -⟩ := of_compileAll hcs
    exact ⟨hrules, hcompiles, hdistinct⟩

/-- Of two checked rules one has the id of the other only if they are the same. -/
theorem Checked.eq_of_id {e : Engine} (he : e.Checked) {c d : Compiled} (hc : c ∈ e.compiled)
    (hd : d ∈ e.compiled) (h : c.rule.id = d.rule.id) : c = d :=
  List.inj_on_of_nodup_map he.distinct hc hd h

/-- The table of a checked rule is the fact table with the name that the rule gives. -/
theorem Checked.lookup? {e : Engine} (he : e.Checked) {c : Compiled} (hc : c ∈ e.compiled) :
    Schema.lookup? Schema.factTables c.rule.table = some c.table :=
  (of_compile (he.compiles c hc)).2

end Engine

/-! ### The hits of a row -/

/-- Whether a hit is of a category and comes from a row. -/
def Hit.isAt (category : String) (o : Origin) (h : Hit) : Bool :=
  h.via.rule.category == category && h.origin == o

/-- Of the hits of a row and category the first one is kept. -/
theorem filter_foldl_addHit (category : String) (o : Origin) (hs found : List Hit) :
    (hs.foldl addHit found).filter (·.isAt category o) =
      if found.any (·.isAt category o) then found.filter (·.isAt category o)
      else (hs.find? (·.isAt category o)).toList := by
  induction hs generalizing found with
  | nil =>
    rw [List.foldl_nil]
    split
    · rfl
    · next hnone =>
      rw [List.find?_nil, Option.toList_none, List.filter_eq_nil_iff]
      simpa using hnone
  | cons h hs ih =>
    rw [List.foldl_cons, ih, addHit]
    cases hat : h.isAt category o with
    | true =>
      obtain ⟨hcategory, horigin⟩ := (Bool.and_eq_true _ _).mp hat
      have hsame : (found.any fun x => x.via.rule.category == h.via.rule.category &&
          x.origin == h.origin) = found.any (·.isAt category o) := by
        rw [beq_iff_eq.mp hcategory, beq_iff_eq.mp horigin]
        rfl
      rw [hsame, List.find?_cons_of_pos hat]
      cases hany : found.any (·.isAt category o) with
      | true => simp [hany]
      | false =>
        have hnil : found.filter (·.isAt category o) = [] := by
          rw [List.filter_eq_nil_iff]
          simpa using hany
        simp [List.filter_append, hnil, hat]
    | false =>
      rw [List.find?_cons_of_neg (by rw [hat]; decide)]
      split
      · rfl
      · simp [List.filter_append, hat]

/-- The row that an origin names. -/
def rowAt? (cache : Cache) (o : Origin) : Option Row :=
  (Schema.lookup? Schema.factTables o.table).bind fun t => (cache.rows t)[o.row]?

/-- Where the row that an origin names points. -/
def locationAt? (cache : Cache) (o : Origin) : Option Location :=
  (Schema.lookup? Schema.factTables o.table).bind fun t => (cache.rows t)[o.row]?.map (·.location t)

/-- The hit of the first rule of a kind, for a table and a category, that accepts a row. -/
def Engine.firstHit? (e : Engine) (kind : Kind) (cache : Cache) (category : String) (o : Origin) :
    Option Hit :=
  (rowAt? cache o).bind fun r =>
    (e.compiled.find? fun c =>
      c.rule.kind == kind && (c.rule.table == o.table && c.rule.category == category &&
        c.accepts r)).map fun c => ⟨c, r, o⟩

/-- The pair that has a given position, if its first part passes a test. -/
theorem find?_filter_zipIdx {α : Type} (q : α → Bool) (l : List α) (n i : Nat) :
    ((l.zipIdx n).filter fun x => q x.1).find? (fun x => x.2 == n + i) =
      l[i]?.bind fun a => if q a then some (a, n + i) else none := by
  induction l generalizing n i with
  | nil => rfl
  | cons a l ih =>
    rw [List.zipIdx_cons, List.filter_cons]
    cases i with
    | zero =>
      cases hq : q a with
      | true => simp [hq]
      | false =>
        -- the positions behind are larger
        have hlater : ((l.zipIdx (n + 1)).filter fun x => q x.1).find? (fun x => x.2 == n + 0) =
            none := by
          rw [List.find?_eq_none]
          intro x hx
          have := List.le_snd_of_mem_zipIdx (List.mem_of_mem_filter hx)
          simp
          omega
        simpa [hq] using hlater
    | succ i =>
      have hnext := ih (n + 1) i
      rw [Nat.add_right_comm, Nat.add_assoc] at hnext
      cases q a <;> simp [hnext]

/-- A rule has one hit in a row of its table that it accepts. -/
theorem find?_hits (cache : Cache) (c : Compiled) (category : String) (o : Origin) :
    (c.hits cache).find? (·.isAt category o) =
      if c.table.name == o.table && c.rule.category == category then
        (cache.rows c.table)[o.row]?.bind fun r => if c.accepts r then some ⟨c, r, o⟩ else none
      else none := by
  obtain ⟨table, row⟩ := o
  have hat : (Hit.isAt category ⟨table, row⟩ ∘ fun x : Row × Nat => ⟨c, x.1, ⟨c.table.name, x.2⟩⟩) =
      fun x => (c.table.name == table && c.rule.category == category) && x.2 == row := by
    funext x
    rw [Function.comp_apply, Hit.isAt, Bool.eq_iff_iff]
    simp
    grind
  rw [Compiled.hits, List.find?_map]
  show ((((cache.rows c.table).zipIdx 0).filter fun x => c.accepts x.1).find? (_ ∘ _)).map _ = _
  rw [hat]
  cases hrule : c.table.name == table && c.rule.category == category with
  | false => simp
  | true =>
    obtain rfl := beq_iff_eq.mp ((Bool.and_eq_true _ _).mp hrule).1
    have hfind := find?_filter_zipIdx c.accepts (cache.rows c.table) 0 row
    rw [Nat.zero_add] at hfind
    simp only [Bool.true_and, hfind, if_true]
    cases (cache.rows c.table)[row]? with
    | none => rfl
    | some r => cases hr : c.accepts r <;> simp [hr]

/-- The first of the answers that the elements of a list give, where only some give one. -/
theorem findSome?_eq_map_find? {α β : Type} {g : α → Option β} {q : α → Bool} {f : α → β}
    {l : List α} (h : ∀ a ∈ l, g a = if q a then some (f a) else none) :
    l.findSome? g = (l.find? q).map f := by
  induction l with
  | nil => rfl
  | cons a l ih =>
    obtain ⟨ha, hl⟩ := List.forall_mem_cons.mp h
    rw [List.findSome?_cons, List.find?_cons, ha]
    cases q a with
    | true => rfl
    | false => exact ih hl

namespace Engine

variable {e : Engine} {kind : Kind} {cache : Cache}

/-- A checked rule finds a row where the row is in its table. -/
theorem Checked.find?_hits (he : e.Checked) {c : Compiled} (hc : c ∈ e.compiled) (category : String)
    (o : Origin) :
    (c.hits cache).find? (·.isAt category o) =
      (rowAt? cache o).bind fun r =>
        if c.rule.table == o.table && c.rule.category == category && c.accepts r then
          some ⟨c, r, o⟩
        else none := by
  have hname := (mem_of_lookup? (he.lookup? hc)).2
  rw [Discovery.find?_hits, hname, rowAt?]
  cases htable : c.rule.table == o.table with
  | false =>
    cases (Schema.lookup? Schema.factTables o.table).bind fun t => (cache.rows t)[o.row]? <;> simp
  | true =>
    rw [← beq_iff_eq.mp htable, he.lookup? hc]
    cases c.rule.category == category with
    | false => simp
    | true => simp

/-- **Of a row and category one hit is kept**, that of the first rule. -/
theorem Checked.filter_hits (he : e.Checked) (category : String) (o : Origin) :
    (e.hits kind cache).filter (·.isAt category o) =
      (e.firstHit? kind cache category o).toList := by
  rw [hits, filter_foldl_addHit, if_neg (by simp), List.find?_flatMap, firstHit?]
  congr 1
  cases hrow : rowAt? cache o with
  | none =>
    refine List.findSome?_eq_none_iff.mpr fun c hc => ?_
    rw [he.find?_hits (List.mem_of_mem_filter hc), hrow]
    rfl
  | some r =>
    have hfind : ∀ c ∈ e.compiled.filter (·.rule.kind == kind),
        (c.hits cache).find? (·.isAt category o) =
          if c.rule.table == o.table && c.rule.category == category && c.accepts r then
            some ⟨c, r, o⟩
          else none := by
      intro c hc
      rw [he.find?_hits (List.mem_of_mem_filter hc), hrow]
      rfl
    rw [findSome?_eq_map_find? hfind, List.find?_filter]
    simp only [Bool.decide_and, Bool.decide_eq_true]
    rfl

theorem Checked.mem_hits (he : e.Checked) {h : Hit} (hh : h ∈ e.hits kind cache) :
    h.via ∈ e.compiled ∧ h.via.rule.table = h.origin.table ∧
      rowAt? cache h.origin = some h.row := by
  have hat : h ∈ (e.hits kind cache).filter (·.isAt h.via.rule.category h.origin) :=
    List.mem_filter.mpr ⟨hh, by simp [Hit.isAt]⟩
  rw [he.filter_hits, Option.mem_toList, firstHit?, Option.bind_eq_some_iff] at hat
  obtain ⟨r, hrow, hfirst⟩ := hat
  obtain ⟨c, hc, heq⟩ := Option.map_eq_some_iff.mp hfirst
  have hvia : c = h.via := congrArg Hit.via heq
  have hr : r = h.row := congrArg Hit.row heq
  subst hvia hr
  have haccepts := List.find?_some hc
  simp only [Bool.and_eq_true, beq_iff_eq] at haccepts
  exact ⟨List.mem_of_find?_eq_some hc, haccepts.2.1.1, hrow⟩

end Engine

/-! ### What is found -/

/-- What the order of sources and sinks compares. -/
structure Mark where
  location : Location
  category : String
  rule : String
  origin : Origin

def Source.mark (s : Source) : Mark :=
  ⟨s.location, s.category, s.rule, s.origin⟩

def Sink.mark (s : Sink) : Mark :=
  ⟨s.location, s.category, s.rule, s.origin⟩

def Hit.mark (h : Hit) : Mark :=
  ⟨h.row.location h.via.table, h.via.rule.category, h.via.rule.id, h.origin⟩

/-- The order of what is found. -/
def compareMarks (a b : Mark) : Ordering :=
  compareFound a.location b.location a.category b.category a.rule b.rule a.origin b.origin

instance transCmp_compareMarks : Std.TransCmp compareMarks :=
  transCmp_then (transCmp_onKey compareText fun m : Mark => m.location.file) <|
  transCmp_then (transCmp_onKey compareInt fun m : Mark => m.location.line) <|
  transCmp_then (transCmp_onKey compareInt fun m : Mark => m.location.column) <|
  transCmp_then (transCmp_onKey compareText Mark.category) <|
  transCmp_then (transCmp_onKey compareText Mark.rule) <|
  transCmp_then (transCmp_onKey compareText fun m : Mark => m.origin.table)
    (transCmp_onKey compare fun m : Mark => m.origin.row)

theorem key_eq_of_compareMarks {a b : Mark} (h : compareMarks a b = .eq) :
    a.category = b.category ∧ a.origin = b.origin := by
  simp only [compareMarks, compareFound, Ordering.then_eq_eq, Nat.compare_eq_eq] at h
  obtain ⟨-, -, -, hcategory, -, htable, hrow⟩ := h
  refine ⟨eq_of_compareText hcategory, ?_⟩
  rw [Origin.mk.injEq]
  exact ⟨eq_of_compareText htable, hrow⟩

/-- What the hits of a kind stand for, in order. -/
def Engine.found {α : Type} (e : Engine) (kind : Kind) (cache : Cache) (make : Hit → α)
    (mark : α → Mark) : List α :=
  sortBy (fun a b => compareMarks (mark a) (mark b)) ((e.hits kind cache).map make)

namespace Engine

section

variable {e : Engine} (kind : Kind) (cache : Cache) {α : Type} {make : Hit → α} {mark : α → Mark}
  (hmark : ∀ h, mark (make h) = h.mark) (he : e.Checked)

include hmark he

/-- **A row gives one result of a category or none**, and it comes from the first rule that accepts
the row. -/
theorem filter_found (category : String) (o : Origin) :
    (e.found kind cache make mark).filter
        (fun x => (mark x).category == category && (mark x).origin == o) =
      ((e.firstHit? kind cache category o).map make).toList := by
  have : Std.TransCmp fun a b => compareMarks (mark a) (mark b) := transCmp_onKey compareMarks mark
  have hat : ((fun x => (mark x).category == category && (mark x).origin == o) ∘ make) =
      Hit.isAt category o := by
    funext h
    rw [Function.comp_apply, hmark]
    rfl
  rw [found, filter_sortBy, List.filter_map, hat, he.filter_hits]
  cases e.firstHit? kind cache category o with
  | none => exact List.mergeSort_nil
  | some h => exact List.mergeSort_singleton _

/-- No two results have the same category and origin. -/
theorem nodup_keys_found :
    ((e.found kind cache make mark).map fun x => ((mark x).category, (mark x).origin)).Nodup := by
  rw [List.nodup_iff_count_le_one]
  rintro ⟨category, o⟩
  rw [List.count_eq_countP, List.countP_map, List.countP_eq_length_filter]
  calc _ = ((e.firstHit? kind cache category o).map make).toList.length :=
        congrArg List.length (filter_found kind cache hmark he category o)
    _ ≤ 1 := by cases e.firstHit? kind cache category o <;> simp

/-- **What is found is strictly ascending.** -/
theorem pairwise_found :
    (e.found kind cache make mark).Pairwise fun a b => compareMarks (mark a) (mark b) = .lt := by
  have : Std.TransCmp fun a b => compareMarks (mark a) (mark b) := transCmp_onKey compareMarks mark
  have hdistinct := List.pairwise_map.mp (nodup_keys_found kind cache hmark he)
  refine List.Pairwise.imp₂ (fun a b hle hne => ?_) (pairwise_sortBy _ _) hdistinct
  cases hab : compareMarks (mark a) (mark b) with
  | lt => rfl
  | eq =>
    obtain ⟨hcategory, horigin⟩ := key_eq_of_compareMarks hab
    exact absurd (Prod.ext hcategory horigin) hne
  | gt =>
    rw [hab] at hle
    cases hle

omit hmark in
/-- Every result comes from a row of the table of its rule. -/
theorem exists_hit {x : α} (hx : x ∈ e.found kind cache make mark) :
    ∃ h, make h = x ∧ h.via ∈ e.compiled ∧ h.via.rule.table = h.origin.table ∧
      rowAt? cache h.origin = some h.row := by
  obtain ⟨h, hh, rfl⟩ := List.mem_map.mp (mem_sortBy.mp hx)
  exact ⟨h, rfl, he.mem_hits hh⟩

/-- The location of a result is that of its row. -/
theorem locationAt?_found {x : α} (hx : x ∈ e.found kind cache make mark) :
    locationAt? cache (mark x).origin = some (mark x).location := by
  obtain ⟨h, rfl, hvia, htable, hrow⟩ := exists_hit kind cache he hx
  have hlookup := he.lookup? hvia
  rw [htable] at hlookup
  rw [rowAt?, hlookup, Option.bind_some] at hrow
  rw [hmark]
  show locationAt? cache h.origin = some (h.row.location h.via.table)
  rw [locationAt?, hlookup, Option.bind_some, hrow]
  rfl

end

end Engine

/-! ### Ids -/

theorem toList_hitId (mark rule : String) (o : Origin) :
    (hitId mark rule o).toList =
      mark.toList ++ ':' :: (rule.toList ++ ':' :: o.table.toList) ++ '#' :: o.row.repr.toList := by
  simp [hitId, toString]

theorem notMem_of_lookup? {name : String} {t : Schema.Table}
    (h : Schema.lookup? Schema.factTables name = some t) : ':' ∉ name.toList := by
  obtain ⟨ht, rfl⟩ := mem_of_lookup? h
  have hall : ∀ t ∈ Schema.factTables, ':' ∉ t.name.toList := by decide
  exact hall t ht

/-- **An id tells rule and origin**: the name of a table has no colon, the number of a row no
number sign, whatever the id of the rule is. -/
theorem hitId_inj {mark rule rule' : String} {o o' : Origin} (ho : ':' ∉ o.table.toList)
    (ho' : ':' ∉ o'.table.toList) (h : hitId mark rule o = hitId mark rule' o') :
    rule = rule' ∧ o = o' := by
  have hlists := congrArg String.toList h
  rw [toList_hitId, toList_hitId] at hlists
  have hnumber : ∀ n : Nat, '#' ∉ n.repr.toList := Text.notMem_natRepr (by decide)
  obtain ⟨hfront, hrow⟩ := Text.cut_last_inj (hnumber o.row) (hnumber o'.row) hlists
  obtain ⟨hrule, htable⟩ := Text.cut_last_inj ho ho'
    (List.cons.inj (List.append_cancel_left hfront)).2
  refine ⟨String.toList_inj.mp hrule, ?_⟩
  rw [Origin.mk.injEq]
  exact ⟨String.toList_inj.mp htable, Nat.repr_inj.mp (String.toList_inj.mp hrow)⟩

theorem hitId_src_ne_sink (rule rule' : String) (o o' : Origin) :
    hitId "src" rule o ≠ hitId "sink" rule' o' := by
  intro h
  have hlists := congrArg String.toList h
  rw [toList_hitId, toList_hitId] at hlists
  simp at hlists

namespace Engine

variable {e : Engine} (he : e.Checked) (kind : Kind) (cache : Cache)

include he

/-- No two results have the same id. -/
theorem nodup_ids_found {α : Type} {make : Hit → α} {mark : α → Mark} {ident : α → String}
    {letters : String} (hmark : ∀ h, mark (make h) = h.mark)
    (hident : ∀ h, ident (make h) = hitId letters h.via.rule.id h.origin) :
    ((e.found kind cache make mark).map ident).Nodup := by
  have hdistinct := List.pairwise_map.mp (nodup_keys_found kind cache hmark he)
  refine List.pairwise_map.mpr (List.Pairwise.imp_of_mem ?_ hdistinct)
  intro x y hx hy hne hids
  obtain ⟨h, rfl, hvia, htable, -⟩ := exists_hit kind cache he hx
  obtain ⟨h', rfl, hvia', htable', -⟩ := exists_hit kind cache he hy
  have hlookup := he.lookup? hvia
  have hlookup' := he.lookup? hvia'
  rw [htable] at hlookup
  rw [htable'] at hlookup'
  rw [hident, hident] at hids
  obtain ⟨hrule, horigin⟩ := hitId_inj (notMem_of_lookup? hlookup) (notMem_of_lookup? hlookup') hids
  have hsame := he.eq_of_id hvia hvia' hrule
  refine hne ?_
  rw [hmark, hmark]
  exact Prod.ext (congrArg (·.rule.category) hsame) horigin

end Engine

/-- **Discovery is exact**, for every table of rules that is accepted, every scorer and every cache.
The rules in force are the enabled ones.  A row gives one source, or one sink, of a category if some
rule of that kind with the table and category accepts it, and none otherwise; it comes from the
first such rule, and its location is that of the row.  What is found is strictly ascending, and all
ids are distinct. -/
theorem discovery_exact {s : Setup} {e : Engine} (h : Engine.make s = .ok e) (cache : Cache) :
    e.rules = overlay (withPrefixes s.prefixes s.rules) s.extra ∧
    (∀ c ∈ e.compiled, compile c.rule = .ok c ∧ c.rule.disabled = false) ∧
    (∀ category o,
      (e.sources cache).filter (fun x => x.category == category && x.origin == o) =
        ((e.firstHit? .source cache category o).map (e.source cache)).toList ∧
      (e.sinks cache).filter (fun x => x.category == category && x.origin == o) =
        ((e.firstHit? .sink cache category o).map (e.sink cache)).toList) ∧
    (∀ x ∈ e.sources cache, locationAt? cache x.origin = some x.location) ∧
    (∀ x ∈ e.sinks cache, locationAt? cache x.origin = some x.location) ∧
    (e.sources cache).Pairwise (compareSources · · = .lt) ∧
    (e.sinks cache).Pairwise (compareSinks · · = .lt) ∧
    ((e.sources cache).map (·.id) ++ (e.sinks cache).map (·.id)).Nodup := by
  obtain ⟨hrules, he⟩ := Engine.of_make h
  have hsources : e.sources cache = e.found .source cache (e.source cache) Source.mark := rfl
  have hsinks : e.sinks cache = e.found .sink cache (e.sink cache) Sink.mark := rfl
  have hsource : ∀ h, (e.source cache h).mark = h.mark := fun _ => rfl
  have hsink : ∀ h, (e.sink cache h).mark = h.mark := fun _ => rfl
  refine ⟨hrules, fun c hc => ⟨he.compiles c hc, ?_⟩, fun category o => ⟨?_, ?_⟩, fun x hx => ?_,
    fun x hx => ?_, ?_, ?_, ?_⟩
  · have hrule : c.rule ∈ e.rules := List.mem_map_of_mem hc
    rw [hrules] at hrule
    simpa using (List.mem_filter.mp hrule).2
  · exact Engine.filter_found .source cache hsource he category o
  · exact Engine.filter_found .sink cache hsink he category o
  · exact Engine.locationAt?_found .source cache hsource he hx
  · exact Engine.locationAt?_found .sink cache hsink he hx
  · exact Engine.pairwise_found .source cache hsource he
  · exact Engine.pairwise_found .sink cache hsink he
  -- ids of sources and of sinks begin differently
  · have hsourceId : ∀ h, (e.source cache h).id = hitId "src" h.via.rule.id h.origin := fun _ => rfl
    have hsinkId : ∀ h, (e.sink cache h).id = hitId "sink" h.via.rule.id h.origin := fun _ => rfl
    rw [hsources, hsinks]
    refine List.nodup_append.mpr ⟨Engine.nodup_ids_found he .source cache hsource hsourceId,
      Engine.nodup_ids_found he .sink cache hsink hsinkId, fun a ha b hb => ?_⟩
    obtain ⟨x, hx, rfl⟩ := List.mem_map.mp ha
    obtain ⟨y, hy, rfl⟩ := List.mem_map.mp hb
    obtain ⟨h, rfl, -⟩ := Engine.exists_hit .source cache he hx
    obtain ⟨h', rfl, -⟩ := Engine.exists_hit .sink cache he hy
    rw [hsourceId, hsinkId]
    exact hitId_src_ne_sink _ _ _ _

/-! ### Two rules for one row

Two rules of one category accept the assignment to `x`; the second one alone accepts that to `y`.
A rule for sinks accepts both, and takes the arguments of the calls of `exec` on the line, or the
assigned text where there is no such call. -/

/-- A rule about assignments. -/
def assignmentRule (id : String) (kind : Kind) (conditions : List Condition) : Rule where
  id := id
  kind := kind
  table := "assignments"
  conditions := conditions
  category := "input"
  risk := ⟨.structural, .unknown "", "source_expr"⟩

/-- The assignments to `x`. -/
def toX : Condition where
  column := "target_var"
  op := .eq
  value := "x"

/-- The rule for sinks. -/
def execRule : Rule :=
  { assignmentRule "last" .sink [] with
    name := "target_var"
    args := { column := "source_expr", sameLineCalls := true, callees := ["exec"] } }

/-- The two rules, the rule for sinks, and a rule that is removed. -/
def overlappingSetup (scorer : String → Severity) : Setup where
  rules := [assignmentRule "first" .source [toX], assignmentRule "gone" .source [],
    assignmentRule "second" .source []]
  extra := [{ assignmentRule "gone" .source [] with disabled := true }, execRule]
  scorer := scorer

/-- The engine of these rules. -/
def overlappingEngine (scorer : String → Severity) : Engine where
  compiled := [⟨assignmentRule "first" .source [toX], Schema.assignments, [⟨toX, .empty⟩]⟩,
    ⟨assignmentRule "second" .source [], Schema.assignments, []⟩,
    ⟨execRule, Schema.assignments, []⟩]
  scorer := scorer
  weightAuth := false

/-- The assignments to `x` and `y`, and two calls on the line of the first one. -/
def overlappingCache : Cache where
  tables := [
    .ofRows Schema.assignments [
      ⟨[.text "app", .int 2, .text "x", .text "exec(a + b)", .text "main", .null]⟩,
      ⟨[.text "app", .int 1, .text "y", .text "read()", .text "main", .null]⟩],
    .ofRows Schema.functionCallArgs [
      ⟨[.text "app", .int 2, .text "main", .text "log", .int 0, .text "done", .null, .null]⟩,
      ⟨[.text "app", .int 2, .text "main", .text "exec", .int 0, .text "a + b", .null, .null]⟩]]

theorem make_overlappingSetup (scorer : String → Severity) :
    Engine.make (overlappingSetup scorer) = .ok (overlappingEngine scorer) := by
  rfl

theorem indexed_overlappingCache : overlappingCache.Indexed := by
  intro f hf
  rcases List.mem_cons.mp hf with rfl | hf
  · rw [Facts.TableFacts.table_ofRows]
    exact ⟨by decide, Facts.TableFacts.indexed_ofRows _ _⟩
  · obtain rfl := List.mem_singleton.mp hf
    rw [Facts.TableFacts.table_ofRows]
    exact ⟨by decide, Facts.TableFacts.indexed_ofRows _ _⟩

/-- Only the call of `exec` supplies arguments, and there is none on the first line. -/
theorem callArgs_overlappingCache :
    callArgs overlappingCache ⟨"app", 2, 0⟩ ["exec"] = ["a + b"] ∧
      callArgs overlappingCache ⟨"app", 1, 0⟩ ["exec"] = [] := by
  simp only [callArgs, callsOnLine_eq indexed_overlappingCache]
  decide +kernel

/-- The assignment to `x` as a hit of the rule for sinks. -/
def hitX : Hit where
  via := ⟨execRule, Schema.assignments, []⟩
  row := ⟨[.text "app", .int 2, .text "x", .text "exec(a + b)", .text "main", .null]⟩
  origin := ⟨"assignments", 0⟩

/-- The assignment to `y` as a hit of the rule for sinks. -/
def hitY : Hit where
  via := ⟨execRule, Schema.assignments, []⟩
  row := ⟨[.text "app", .int 1, .text "y", .text "read()", .text "main", .null]⟩
  origin := ⟨"assignments", 1⟩

/-- The first sink has the argument of the call on its line, the second one the assigned text. -/
theorem sinkArgs_overlappingCache :
    sinkArgs overlappingCache hitX ⟨"app", 2, 0⟩ = ["a + b"] ∧
      sinkArgs overlappingCache hitY ⟨"app", 1, 0⟩ = ["read()"] := by
  obtain ⟨hx, hy⟩ := callArgs_overlappingCache
  rw [sinkArgs, sinkArgs]
  dsimp only [hitX, hitY, execRule]
  simp only [if_true, hx, hy]
  decide +kernel

/-- The source of a row is that of the first rule that accepts it; a sink has the name, the
arguments and the grade that its rule gives it. -/
theorem discovery_exact_overlapping :
    let e := overlappingEngine structuralRisk
    let sourcesOf := fun row => (e.sources overlappingCache).filter fun x =>
      x.category == "input" && x.origin == ⟨"assignments", row⟩
    let sinksOf := fun row => (e.sinks overlappingCache).filter fun x =>
      x.category == "input" && x.origin == ⟨"assignments", row⟩
    Engine.make (overlappingSetup structuralRisk) = .ok e ∧
      (sourcesOf 0).map (·.rule) = ["first"] ∧ (sourcesOf 1).map (·.rule) = ["second"] ∧
      sinksOf 0 = [⟨"sink:last:assignments#0", "last", "input", ⟨"app", 2, 0⟩, "x",
        ["a + b"], .high, ⟨"assignments", 0⟩⟩] ∧
      sinksOf 1 = [⟨"sink:last:assignments#1", "last", "input", ⟨"app", 1, 0⟩, "y",
        ["read()"], .medium, ⟨"assignments", 1⟩⟩] ∧
      ((e.sources overlappingCache).map (·.id) ++ (e.sinks overlappingCache).map (·.id)).Nodup := by
  intro e sourcesOf sinksOf
  obtain ⟨-, -, hrows, -, -, -, -, hids⟩ :=
    discovery_exact (make_overlappingSetup structuralRisk) overlappingCache
  obtain ⟨hx, hy⟩ := sinkArgs_overlappingCache
  refine ⟨make_overlappingSetup structuralRisk, ?_, ?_, ?_, ?_, hids⟩
  · exact congrArg (List.map (·.rule)) (hrows "input" ⟨"assignments", 0⟩).1
  · exact congrArg (List.map (·.rule)) (hrows "input" ⟨"assignments", 1⟩).1
  · refine (hrows "input" ⟨"assignments", 0⟩).2.trans (congrArg (fun x => [x]) ?_)
    show (overlappingEngine structuralRisk).sink overlappingCache hitX = _
    exact (Sink.mk.injEq ..).mpr
      ⟨by decide +kernel, rfl, rfl, rfl, by decide +kernel, hx, by decide +kernel, rfl⟩
  · refine (hrows "input" ⟨"assignments", 1⟩).2.trans (congrArg (fun x => [x]) ?_)
    show (overlappingEngine structuralRisk).sink overlappingCache hitY = _
    exact (Sink.mk.injEq ..).mpr
      ⟨by decide +kernel, rfl, rfl, rfl, by decide +kernel, hy, by decide +kernel, rfl⟩

end TaintFlow.Discovery
