import Mathlib
import TaintFlow.Proofs.Text.Bytes
import TaintFlow.Proofs.Text.Marks
import TaintFlow.Report.Identity

/-!
# Which findings have one identifier

The text that an identifier is derived from joins the texts of a finding with the marks `|`, `@`
and `:`, and does nothing about marks inside those texts.  Where there are none, the text can be
read back: it is cut at `|` into the category, the ends and the steps, an end at its first `@` and
its last two `:`, and a step at its first five `:`.  So findings that differ get different
identifiers, unless the digest itself collides.

Where a text holds marks this fails: a function `load:user` with the detail `id` cannot be told
from a function `load` with the detail `user:id`.

## Main definitions

* `Finding.Agrees` — the findings that are one for an identifier.
* `Finding.Plain` — no text holds a mark that ends it.

## Main results

* `Endpoint.entry_inj`, `PathStep.entry_inj` — ends and steps can be read back.
* `Finding.bytes_key_eq_iff` — equal texts are those of findings that agree.
-/

namespace TaintFlow

open Text (cut_first_inj cut_last_inj joined_inj notMem_intRepr)

/-! ### Ends of findings -/

namespace Endpoint

variable {e e' : Endpoint}

/-- Two ends are one for an identifier. -/
@[mk_iff]
structure Agrees (e e' : Endpoint) : Prop where
  rule : e.rule = e'.rule
  location : e.location = e'.location

/-- No text of an end holds a mark that ends it. -/
@[mk_iff]
structure Plain (e : Endpoint) : Prop where
  rule : '|' ∉ e.rule.toList ∧ '@' ∉ e.rule.toList
  file : '|' ∉ e.location.file.toList

instance : DecidableRel Agrees := fun e e' => decidable_of_iff _ (agrees_iff e e').symm

instance : DecidablePred Plain := fun e => decidable_of_iff _ (plain_iff e).symm

/-- The characters of an end after its mark. -/
def entry (e : Endpoint) : List Char :=
  e.rule.toList ++ '@' :: ((e.location.file.toList ++ ':' :: e.location.line.repr.toList) ++
    ':' :: e.location.column.repr.toList)

theorem toList_key (e : Endpoint) : e.key.toList = '|' :: e.entry := by
  simp [key, Report.placeKey, entry, String.toList_append, ToString.toString]

theorem notMem_entry (h : e.Plain) : '|' ∉ e.entry := by
  have hint : ∀ n : Int, '|' ∉ n.repr.toList := notMem_intRepr (by decide) (by decide)
  simp [entry, h.rule.1, h.file, hint]

/-- **An end can be read back.** -/
theorem entry_inj (h : e.Plain) (h' : e'.Plain) : e.entry = e'.entry ↔ e.Agrees e' := by
  refine ⟨fun heq => ?_, fun heq => by rw [entry, entry, heq.rule, heq.location]⟩
  have hint : ∀ n : Int, ':' ∉ n.repr.toList := notMem_intRepr (by decide) (by decide)
  obtain ⟨hrule, hplace⟩ := cut_first_inj h.rule.2 h'.rule.2 heq
  obtain ⟨hplace, hcolumn⟩ := cut_last_inj (hint _) (hint _) hplace
  obtain ⟨hfile, hline⟩ := cut_last_inj (hint _) (hint _) hplace
  refine ⟨String.toList_inj.mp hrule, ?_⟩
  rw [Facts.Location.mk.injEq]
  exact ⟨String.toList_inj.mp hfile, Int.repr_inj.mp (String.toList_inj.mp hline),
    Int.repr_inj.mp (String.toList_inj.mp hcolumn)⟩

end Endpoint

/-! ### Steps of findings -/

namespace PathStep

variable {s s' : PathStep}

/-- What an identifier takes from a step. -/
def shown (s : PathStep) : String × String × Int × String × String :=
  (s.kind.name, s.file, s.line, s.function, s.detail)

/-- No text of a step holds a mark that ends it. -/
@[mk_iff]
structure Plain (s : PathStep) : Prop where
  kind : '|' ∉ s.kind.name.toList ∧ ':' ∉ s.kind.name.toList
  file : '|' ∉ s.file.toList ∧ ':' ∉ s.file.toList
  function : '|' ∉ s.function.toList ∧ ':' ∉ s.function.toList
  detail : '|' ∉ s.detail.toList

instance : DecidablePred Plain := fun s => decidable_of_iff _ (plain_iff s).symm

/-- The characters of a step after its mark. -/
def entry (s : PathStep) : List Char :=
  s.kind.name.toList ++ ':' :: (s.file.toList ++ ':' :: (s.line.repr.toList ++
    ':' :: '0' :: ':' :: (s.function.toList ++ ':' :: s.detail.toList)))

theorem toList_key (s : PathStep) : s.key.toList = '|' :: s.entry := by
  have hzero : (Int.repr 0).toList = ['0'] := by decide
  simp [hzero, key, Report.placeKey, entry, String.toList_append, ToString.toString]

theorem notMem_entry (h : s.Plain) : '|' ∉ s.entry := by
  have hint : '|' ∉ s.line.repr.toList := notMem_intRepr (by decide) (by decide) _
  simp [entry, h.kind.1, h.file.1, h.function.1, h.detail, hint]

/-- **A step can be read back.** -/
theorem entry_inj (h : s.Plain) (h' : s'.Plain) : s.entry = s'.entry ↔ s.shown = s'.shown := by
  constructor
  · intro heq
    have hint : ∀ n : Int, ':' ∉ n.repr.toList := notMem_intRepr (by decide) (by decide)
    obtain ⟨hkind, hrest⟩ := cut_first_inj h.kind.2 h'.kind.2 heq
    obtain ⟨hfile, hrest⟩ := cut_first_inj h.file.2 h'.file.2 hrest
    obtain ⟨hline, hrest⟩ := cut_first_inj (hint _) (hint _) hrest
    have hrest := (List.cons.inj (List.cons.inj hrest).2).2
    obtain ⟨hfunction, hdetail⟩ := cut_first_inj h.function.2 h'.function.2 hrest
    rw [shown, shown, String.toList_inj.mp hkind, String.toList_inj.mp hfile,
      Int.repr_inj.mp (String.toList_inj.mp hline), String.toList_inj.mp hfunction,
      String.toList_inj.mp hdetail]
  · intro heq
    simp only [shown, Prod.mk.injEq] at heq
    obtain ⟨hkind, hfile, hline, hfunction, hdetail⟩ := heq
    rw [entry, entry, hkind, hfile, hline, hfunction, hdetail]

end PathStep

/-! ### Findings -/

namespace Finding

variable {f g : Finding}

/-- The steps of a finding; one whose path was not recorded has none. -/
def steps (f : Finding) : List PathStep :=
  f.path.getD []

/-- Two findings are one for an identifier. -/
@[mk_iff]
structure Agrees (f g : Finding) : Prop where
  category : f.category = g.category
  source : f.source.Agrees g.source
  sink : f.sink.Agrees g.sink
  steps : f.steps.map PathStep.shown = g.steps.map PathStep.shown

/-- No text of a finding holds a mark that ends it. -/
@[mk_iff]
structure Plain (f : Finding) : Prop where
  category : '|' ∉ f.category.toList
  source : f.source.Plain
  sink : f.sink.Plain
  steps : ∀ s ∈ f.steps, s.Plain

instance : DecidableRel Agrees := fun f g => decidable_of_iff _ (agrees_iff f g).symm

instance : DecidablePred Plain := fun f => decidable_of_iff _ (plain_iff f).symm

/-- The entries that follow the category in the text that identifies a finding. -/
def entries (f : Finding) : List (List Char) :=
  f.source.entry :: f.sink.entry :: f.steps.map PathStep.entry

theorem toList_key (f : Finding) :
    f.key.toList = f.category.toList ++ f.entries.flatMap ('|' :: ·) := by
  have hsteps : (String.join (f.steps.map PathStep.key)).toList =
      (f.steps.map PathStep.entry).flatMap ('|' :: ·) := by
    rw [String.toList_join, List.flatMap_map, List.flatMap_map]
    simp only [PathStep.toList_key]
  rw [key, String.toList_append, String.toList_append, String.toList_append, Endpoint.toList_key,
    Endpoint.toList_key, entries, List.flatMap_cons, List.flatMap_cons, ← hsteps, List.append_assoc,
    List.append_assoc]
  rfl

theorem Plain.notMem_entries (h : f.Plain) : ∀ e ∈ f.entries, '|' ∉ e := by
  refine List.forall_mem_cons.mpr ⟨Endpoint.notMem_entry h.source,
    List.forall_mem_cons.mpr ⟨Endpoint.notMem_entry h.sink, fun e he => ?_⟩⟩
  obtain ⟨s, hs, rfl⟩ := List.mem_map.mp he
  exact PathStep.notMem_entry (h.steps s hs)

/-- Lists of steps can be read back. -/
theorem map_entry_inj {ss ss' : List PathStep} (h : ∀ s ∈ ss, s.Plain) (h' : ∀ s ∈ ss', s.Plain) :
    ss.map PathStep.entry = ss'.map PathStep.entry ↔
      ss.map PathStep.shown = ss'.map PathStep.shown := by
  induction ss generalizing ss' with
  | nil => simp [eq_comm]
  | cons s ss ih =>
    cases ss' with
    | nil => simp
    | cons s' ss' =>
      obtain ⟨hs, hss⟩ := List.forall_mem_cons.mp h
      obtain ⟨hs', hss'⟩ := List.forall_mem_cons.mp h'
      rw [List.map_cons, List.map_cons, List.map_cons, List.map_cons, List.cons.injEq,
        List.cons.injEq, PathStep.entry_inj hs hs', ih hss hss']

/-- The texts that identify two findings are equal iff the findings agree, where no text holds a
mark that ends it. -/
theorem key_eq_iff (hf : f.Plain) (hg : g.Plain) : f.key = g.key ↔ f.Agrees g := by
  rw [← String.toList_inj, toList_key, toList_key]
  constructor
  · intro heq
    obtain ⟨hcategory, hentries⟩ := joined_inj hf.category hg.category hf.notMem_entries
      hg.notMem_entries heq
    obtain ⟨hsource, hrest⟩ := List.cons.inj hentries
    obtain ⟨hsink, hsteps⟩ := List.cons.inj hrest
    exact ⟨String.toList_inj.mp hcategory, (Endpoint.entry_inj hf.source hg.source).mp hsource,
      (Endpoint.entry_inj hf.sink hg.sink).mp hsink, (map_entry_inj hf.steps hg.steps).mp hsteps⟩
  · intro h
    rw [entries, entries, h.category, (Endpoint.entry_inj hf.source hg.source).mpr h.source,
      (Endpoint.entry_inj hf.sink hg.sink).mpr h.sink, (map_entry_inj hf.steps hg.steps).mpr h.steps]

/-- **Findings with one identifier agree.**  For any two findings in which no text holds a mark that
ends it, the bytes that are digested are equal iff the findings agree on the category, on the rules
and locations of both ends, and on all steps; and their identifiers are equal iff they agree or the
digest gives one identifier to two different texts. -/
theorem bytes_key_eq_iff (hf : f.Plain) (hg : g.Plain) :
    (Text.bytes f.key = Text.bytes g.key ↔ f.Agrees g) ∧
      (f.derivedId = g.derivedId ↔ f.Agrees g ∨
        (Text.bytes f.key ≠ Text.bytes g.key ∧
          Report.nameBased Report.findingSpace (Text.bytes f.key) =
            Report.nameBased Report.findingSpace (Text.bytes g.key))) := by
  have hbytes : Text.bytes f.key = Text.bytes g.key ↔ f.Agrees g := by
    rw [Text.bytes_inj, key_eq_iff hf hg]
  refine ⟨hbytes, ?_⟩
  rw [← hbytes, derivedId, derivedId]
  constructor
  · intro hid
    by_cases h : Text.bytes f.key = Text.bytes g.key
    · exact Or.inl h
    · exact Or.inr ⟨h, hid⟩
  · rintro (h | ⟨-, hid⟩)
    · rw [h]
    · exact hid

/-- A finding with one step in a function, about a detail. -/
def within (function detail : String) : Finding where
  severity := .high
  category := "sql_injection"
  source := { location := ⟨"app.js", 2, 0⟩, rule := "source.symbol.request" }
  sink := { location := ⟨"app.js", 3, 0⟩, rule := "sink.sql.query" }
  path := some [⟨.source, "app.js", 2, function, detail⟩]
  hopDepth := 0
  truncated := false

/-- Without marks in the texts, another detail gives another text to digest. -/
theorem bytes_key_within :
    (within "load" "id").Plain ∧ (within "load" "user:id").Plain ∧
      Text.bytes (within "load" "id").key ≠ Text.bytes (within "load" "user:id").key := by
  have hid : (within "load" "id").Plain := by decide
  have huser : (within "load" "user:id").Plain := by decide
  refine ⟨hid, huser, fun h => ?_⟩
  have hagrees := (bytes_key_eq_iff hid huser).1.mp h
  revert hagrees
  decide

/-- A mark may stand in the name of a function or in a detail: two findings that differ in both have
one text to digest, and so one identifier. -/
theorem derivedId_repeats :
    ¬ (within "load:user" "id").Agrees (within "load" "user:id") ∧
      Text.bytes (within "load:user" "id").key = Text.bytes (within "load" "user:id").key ∧
      (within "load:user" "id").derivedId = (within "load" "user:id").derivedId := by
  have hkey : (within "load:user" "id").key = (within "load" "user:id").key := by decide
  exact ⟨by decide, by rw [hkey], by rw [derivedId, derivedId, hkey]⟩

end Finding

end TaintFlow
