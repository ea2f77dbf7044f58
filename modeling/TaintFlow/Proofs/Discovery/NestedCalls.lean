import Mathlib.Data.List.TakeWhile
import TaintFlow.Discovery.Engine
import TaintFlow.Proofs.Facts.Index

/-!
# Calls in the arguments of other calls

A call is nested if its callee stands, as the name of a call, in the argument of a different call
that is recorded on its line.  The search goes from one occurrence of the callee to the next one,
which may overlap the one before.  So it passes over no occurrence, and it ends because every
occurrence lies behind the one before.

## Main definitions

* `CalledAt` — the name of a call stands at an offset of an argument.
* `NestedIn` — a call is nested in another one.
* `recordedAt` — the calls that are recorded at a location.

## Main results

* `Text.indexOf?_eq_some_iff`, `Text.indexOf?_eq_none_iff` — what a search finds.
* `callsFrom_iff` — the search looks at every occurrence.
* `nestedCall_iff` — whether a call is nested.
* `nested_calls_left_out` — of the arguments on a line those of nested calls are left out.
-/

namespace TaintFlow

namespace Text

variable {α : Type} [BEq α] [LawfulBEq α] {needle l : List α} {k n : Nat}

/-- Nothing is found if and only if the needle stands nowhere. -/
theorem indexOf?_eq_none_iff : indexOf? needle l = none ↔ ∀ n, ¬ needle <+: l.drop n := by
  induction l with
  | nil => simp [indexOf?]
  | cons c cs ih =>
    rw [← Nat.and_forall_add_one, List.drop_zero, indexOf?, ← List.isPrefixOf_iff_prefix]
    simp only [List.drop_succ_cons]
    split
    · next h => simp [h]
    · next h => simp [h, ih]

/-- What is found is the first offset at which the needle stands. -/
theorem indexOf?_eq_some_iff : indexOf? needle l = some n ↔
    needle <+: l.drop n ∧ ∀ m < n, ¬ needle <+: l.drop m := by
  induction l generalizing n with
  | nil =>
    cases needle with
    | nil =>
      have hzero : n = 0 ↔ ∀ m, n ≤ m :=
        ⟨fun h m => h ▸ Nat.zero_le m, fun h => Nat.le_zero.mp (h 0)⟩
      simpa [indexOf?, eq_comm] using hzero
    | cons => simp [indexOf?]
  | cons c cs ih =>
    rw [indexOf?]
    split
    · next h =>
      rw [List.isPrefixOf_iff_prefix] at h
      cases n with
      | zero => simp [h]
      | succ n =>
        exact iff_of_false (fun heq => Nat.succ_ne_zero n (Option.some.inj heq).symm)
          fun hfirst => hfirst.2 0 (Nat.zero_lt_succ n) h
    · next h =>
      rw [List.isPrefixOf_iff_prefix] at h
      cases n with
      | zero => simp [h]
      | succ n =>
        simp only [Option.map_eq_some_iff, Nat.add_right_cancel_iff, exists_eq_right, ih,
          Nat.forall_lt_succ_left', List.drop_zero, List.drop_succ_cons, h, not_false_eq_true,
          true_and]

/-- The first occurrence from `k` on. -/
theorem first_of_indexOf?_drop (h : indexOf? needle (l.drop k) = some n) :
    needle <+: l.drop (k + n) ∧ ∀ j, k ≤ j → needle <+: l.drop j → k + n ≤ j := by
  obtain ⟨hocc, hfirst⟩ := indexOf?_eq_some_iff.mp h
  rw [List.drop_drop] at hocc
  refine ⟨hocc, fun j hj hoccj => ?_⟩
  by_contra hlt
  refine hfirst (j - k) (by omega) ?_
  rwa [List.drop_drop, Nat.add_sub_cancel' hj]

theorem not_prefix_of_indexOf?_drop (h : indexOf? needle (l.drop k) = none) {j : Nat}
    (hj : k ≤ j) : ¬ needle <+: l.drop j := by
  have hnone := indexOf?_eq_none_iff.mp h (j - k)
  rwa [List.drop_drop, Nat.add_sub_cancel' hj] at hnone

omit [BEq α] [LawfulBEq α] in
/-- An element behind elements that satisfy `p`, the first one that does not. -/
theorem head?_dropWhile_eq_some_iff {p : α → Bool} {b : α} (hb : p b = false) :
    (l.dropWhile p).head? = some b ↔ ∃ gap rest, l = gap ++ b :: rest ∧ ∀ c ∈ gap, p c = true := by
  constructor
  · intro h
    obtain ⟨rest, hrest⟩ := List.head?_eq_some_iff.mp h
    refine ⟨l.takeWhile p, rest, ?_, fun c hc => List.mem_takeWhile_imp hc⟩
    rw [← hrest, List.takeWhile_append_dropWhile]
  · rintro ⟨gap, rest, rfl, hgap⟩
    rw [List.dropWhile_append_of_pos hgap, List.dropWhile_cons_of_neg (by simp [hb]),
      List.head?_cons]

end Text

namespace Discovery

open Facts (Cache Location)

variable {callee arg : List UInt8} {i : Nat}

/-! ### The search -/

/-- The name of a call stands at an offset: an occurrence of the callee that does not go on from a
name, and behind which an opening parenthesis follows, with spaces and tabs before it. -/
structure CalledAt (callee arg : List UInt8) (i : Nat) : Prop where
  occurs : callee <+: arg.drop i
  starts : i = 0 ∨ ∃ b, arg[i - 1]? = some b ∧ isNamePart b = false
  opens : ∃ gap rest, arg.drop (i + callee.length) = gap ++ 0x28 :: rest ∧
    ∀ b ∈ gap, b = 0x20 ∨ b = 0x09

theorem calledAt_iff :
    CalledAt callee arg i ↔ callee <+: arg.drop i ∧ isCallAt callee arg i = true := by
  have hopens : ((arg.drop (i + callee.length)).dropWhile
        fun b => b == 0x20 || b == 0x09).head? = some 0x28 ↔
      ∃ gap rest, arg.drop (i + callee.length) = gap ++ 0x28 :: rest ∧
        ∀ b ∈ gap, b = 0x20 ∨ b = 0x09 := by
    rw [Text.head?_dropWhile_eq_some_iff (by decide)]
    simp only [Bool.or_eq_true, beq_iff_eq]
  rw [isCallAt, Bool.and_eq_true, beq_iff_eq, Bool.or_eq_true, beq_iff_eq, Bool.not_eq_true',
    hopens]
  constructor
  · rintro ⟨hocc, hstart, hopen⟩
    refine ⟨hocc, hopen, hstart.imp_right ?_⟩
    rintro ⟨b, hb, hname⟩
    rw [hb, Option.any_some, hname]
  · rintro ⟨hocc, hopen, hstart⟩
    refine ⟨hocc, ?_, hopen⟩
    rcases Nat.eq_zero_or_pos i with hi | hi
    · exact Or.inl hi
    · -- the parenthesis stands in the argument, and so does the byte before the occurrence
      have hlt : i - 1 < arg.length := by
        obtain ⟨gap, rest, hdrop, -⟩ := hopen
        have hlength := congrArg List.length hdrop
        rw [List.length_drop, List.length_append, List.length_cons] at hlength
        omega
      rw [List.getElem?_eq_getElem hlt] at hstart ⊢
      exact Or.inr ⟨_, rfl, hstart.resolve_left (Nat.ne_of_gt hi)⟩

/-- **The search looks at every occurrence from the one at `i` on.** -/
theorem callsFrom_iff (hcallee : callee ≠ []) (hi : callee <+: arg.drop i) :
    callsFrom callee arg hcallee i = true ↔ ∃ j, i ≤ j ∧ CalledAt callee arg j := by
  fun_induction callsFrom callee arg hcallee i with
  | case1 i hcall => exact iff_of_true rfl ⟨i, Nat.le_refl i, calledAt_iff.mpr ⟨hi, hcall⟩⟩
  | case2 i hcall hnone =>
    refine iff_of_false Bool.false_ne_true ?_
    rintro ⟨j, hij, hj⟩
    obtain ⟨hocc, hat⟩ := calledAt_iff.mp hj
    rcases Nat.eq_or_lt_of_le hij with rfl | hlt
    · exact hcall hat
    · exact Text.not_prefix_of_indexOf?_drop hnone hlt hocc
  | case3 i hcall next hsome ih =>
    obtain ⟨hnext, hfirst⟩ := Text.first_of_indexOf?_drop hsome
    rw [Nat.add_right_comm] at hnext
    rw [ih hnext]
    -- the occurrence at `i` is no call, and there is none between it and the next one
    refine exists_congr fun j => and_congr_left fun hj => ?_
    obtain ⟨hocc, hat⟩ := calledAt_iff.mp hj
    constructor
    · omega
    · intro hij
      have hne : i ≠ j := by
        rintro rfl
        exact hcall hat
      have hbehind := hfirst j (Nat.lt_of_le_of_ne hij hne) hocc
      omega

theorem callsName_iff (hcallee : callee ≠ []) :
    callsName callee arg hcallee = true ↔ ∃ i, CalledAt callee arg i := by
  rw [callsName]
  split
  · next hnone =>
    refine iff_of_false Bool.false_ne_true ?_
    rintro ⟨i, hi⟩
    exact Text.indexOf?_eq_none_iff.mp hnone i hi.occurs
  · next n hsome =>
    obtain ⟨hocc, hfirst⟩ := Text.indexOf?_eq_some_iff.mp hsome
    rw [callsFrom_iff hcallee hocc]
    refine exists_congr fun i => and_iff_right_of_imp fun hi => ?_
    exact Nat.le_of_not_lt fun hlt => hfirst i hlt hi.occurs

/-- Of two occurrences that overlap, the second one is the name of a call. -/
example : callsName [0x29, 0x29] [0x29, 0x29, 0x29, 0x28] (by decide) = true := by
  decide +kernel

/-! ### Calls on a line -/

variable {c : Facts.CallArgument} {rows : List Facts.CallArgument}

/-- A call is nested in another one of `rows`: its callee, without blanks at its ends, is called in
the argument of a row with a different callee. -/
def NestedIn (c : Facts.CallArgument) (rows : List Facts.CallArgument) : Prop :=
  Text.bytes (Text.trim c.callee) ≠ [] ∧ ∃ o ∈ rows, o.callee ≠ c.callee ∧
    ∃ i, CalledAt (Text.bytes (Text.trim c.callee)) (Text.bytes (o.expr.getD "")) i

theorem nestedCall_iff : nestedCall c rows = true ↔ NestedIn c rows := by
  rw [nestedCall, NestedIn]
  split
  · next h => exact iff_of_false Bool.false_ne_true fun hnested => hnested.1 h
  · next h => simp only [List.any_eq_true, Bool.and_eq_true, bne_iff_ne, callsName_iff, h, ne_eq,
      not_false_eq_true, true_and]

instance : Decidable (NestedIn c rows) :=
  decidable_of_iff _ nestedCall_iff

/-- The calls with an argument that are recorded at a location, in load order. -/
def recordedAt (cache : Cache) (l : Location) : List Facts.CallArgument :=
  ((Facts.withKey Schema.functionCallArgs "file" (.text l.file)
    (cache.rows Schema.functionCallArgs)).map Facts.CallArgument.ofRow).filter
      fun c => c.line = l.line ∧ c.expr.getD "" ≠ ""

theorem callsOnLine_eq {cache : Cache} (hc : cache.Indexed) (l : Location) :
    callsOnLine cache l = recordedAt cache l := by
  rw [callsOnLine, recordedAt, hc.select_eq (by decide) (by decide)]
  refine List.filter_congr fun c _ => ?_
  rw [Bool.eq_iff_iff]
  simp

/-- A callee is among names, as a whole or by its last segment, if there are any names. -/
def Admits (callees : List String) (callee : String) : Prop :=
  callees = [] ∨ callee ∈ callees ∨ Name.lastSegment callee ∈ callees

instance (callees : List String) (callee : String) : Decidable (Admits callees callee) :=
  inferInstanceAs (Decidable (_ ∨ _ ∨ _))

/-- **Nested calls are left out.**  A call is nested if and only if some occurrence of its callee,
in the argument of a row with a different callee, is the name of a call.  The arguments of a line
are those of its calls with an admitted callee that are not nested, in load order. -/
theorem nested_calls_left_out :
    (∀ (c : Facts.CallArgument) (rows : List Facts.CallArgument),
      nestedCall c rows = true ↔ NestedIn c rows) ∧
    ∀ cache : Cache, cache.Indexed → ∀ (l : Location) (callees : List String),
      callArgs cache l callees =
        ((recordedAt cache l).filter fun c =>
          Admits callees c.callee ∧ ¬ NestedIn c (recordedAt cache l)).map (·.expr.getD "") := by
  refine ⟨fun _ _ => nestedCall_iff, fun cache hc l callees => ?_⟩
  simp only [callArgs, callsOnLine_eq hc]
  congr 1
  refine List.filter_congr fun c _ => ?_
  rw [Bool.eq_iff_iff, decide_eq_true_iff, Bool.and_eq_true, Bool.not_eq_true',
    ← Bool.not_eq_true, nestedCall_iff]
  refine and_congr_left fun _ => ?_
  simp [Admits, calleeIn]

/-- A query with an argument that is escaped in it. -/
def escapedQuery : String :=
  "\"SELECT * FROM t WHERE id=\" + escape (req.id)"

/-- The calls of the query, on one line with another call. -/
def queryCache : Cache where
  tables := [.ofRows Schema.functionCallArgs [
    ⟨[.text "app.js", .int 3, .text "handler", .text "db.query", .int 0, .text escapedQuery, .null,
      .null]⟩,
    ⟨[.text "app.js", .int 3, .text "handler", .text "escape", .int 0, .text "req.id", .null,
      .null]⟩,
    ⟨[.text "app.js", .int 3, .text "handler", .text "console.log", .int 0, .text "'done'", .null,
      .null]⟩]]

/-- The argument of `escape` is left out, as it is called in the query. -/
theorem nested_calls_left_out_escape :
    callArgs queryCache ⟨"app.js", 3, 0⟩ [] = [escapedQuery, "'done'"] ∧
      callArgs queryCache ⟨"app.js", 3, 0⟩ ["query", "escape"] = [escapedQuery] := by
  have hc : queryCache.Indexed := by
    intro f hf
    obtain rfl := List.mem_singleton.mp hf
    rw [Facts.TableFacts.table_ofRows]
    exact ⟨by decide, Facts.TableFacts.indexed_ofRows _ _⟩
  have hargs := nested_calls_left_out.2 queryCache hc ⟨"app.js", 3, 0⟩
  rw [hargs, hargs]
  decide +kernel

end Discovery

end TaintFlow
