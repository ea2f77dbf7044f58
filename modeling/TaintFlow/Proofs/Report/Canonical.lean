import Mathlib.Data.Int.Order.Basic
import Mathlib.Data.List.Nodup
import Mathlib.Data.List.Sort
import Mathlib.Data.Prod.Lex
import Mathlib.Data.String.Basic
import TaintFlow.Proofs.Text.Order
import TaintFlow.Report.Order

/-!
# The order of a report is canonical

A report does not tell in which order its findings and diagnostics were recorded.  Each comparison
is the lexicographic order of a key: that of findings ends with the identifier, and that of
diagnostics is made of all they say.  So there is one way to put findings with distinct identifiers
in order, and one way to put diagnostics in order, whatever a sort does with elements that compare
equal.

## Main definitions

* `OrdersBy` — a comparison is the order of a key.
* `Facts.Location.orderKey`, `Finding.orderKey`, `Diagnostic.orderKey` — the keys of a report.
* `IsSortOf` — what any sort gives, stable or not.

## Main results

* `ordersBy_then` — one comparison after another is the lexicographic order.
* `IsSortOf.map_eq`, `IsSortOf.eq_of_injOn` — sorts of the same elements.
* `report_order_canonical` — the order of findings and of diagnostics.
-/

namespace TaintFlow

/-! ### Comparisons and keys -/

/-- A comparison is the order of a key. -/
def OrdersBy {α κ : Type} [LinearOrder κ] (cmp : α → α → Ordering) (key : α → κ) : Prop :=
  ∀ a b, (cmp a b = .lt ↔ key a < key b) ∧ (cmp a b = .eq ↔ key a = key b)

section

variable {α κ ν : Type} [LinearOrder κ] [LinearOrder ν]

theorem OrdersBy.isLE_iff {cmp : α → α → Ordering} {key : α → κ} (h : OrdersBy cmp key) (a b : α) :
    (cmp a b).isLE ↔ key a ≤ key b := by
  rw [Ordering.isLE_iff_eq_lt_or_eq_eq, (h a b).1, (h a b).2, le_iff_lt_or_eq]

/-- The order of a key is transitive and total. -/
theorem OrdersBy.transCmp {cmp : α → α → Ordering} {key : α → κ} (h : OrdersBy cmp key) :
    Std.TransCmp cmp where
  eq_swap {a b} := by
    rcases lt_trichotomy (key a) (key b) with hlt | heq | hgt
    · rw [(h a b).1.mpr hlt]
      cases hba : cmp b a with
      | lt => exact absurd ((h b a).1.mp hba) hlt.asymm
      | eq => exact absurd ((h b a).2.mp hba) hlt.ne'
      | gt => rfl
    · rw [(h a b).2.mpr heq, (h b a).2.mpr heq.symm]
      rfl
    · rw [(h b a).1.mpr hgt]
      cases hab : cmp a b with
      | lt => exact absurd ((h a b).1.mp hab) hgt.asymm
      | eq => exact absurd ((h a b).2.mp hab) hgt.ne'
      | gt => rfl
  isLE_trans {a b c} hab hbc := by
    rw [h.isLE_iff] at hab hbc ⊢
    exact le_trans hab hbc

/-- A comparison of parts is the order of their keys. -/
theorem OrdersBy.onPart {β : Type} {cmp : β → β → Ordering} {key : β → κ} (h : OrdersBy cmp key)
    (part : α → β) : OrdersBy (fun a b => cmp (part a) (part b)) fun a => key (part a) :=
  fun a b => h (part a) (part b)

/-- **One comparison after another is the lexicographic order of both keys.** -/
theorem ordersBy_then {f g : α → α → Ordering} {key : α → κ} {more : α → ν}
    (hf : OrdersBy f key) (hg : OrdersBy g more) :
    OrdersBy (fun a b => (f a b).then (g a b)) fun a => toLex (key a, more a) := by
  intro a b
  constructor
  · rw [Ordering.then_eq_lt, (hf a b).1, (hf a b).2, (hg a b).1, Prod.Lex.toLex_lt_toLex]
  · rw [Ordering.then_eq_eq, (hf a b).2, (hg a b).2, toLex_inj, Prod.mk.injEq]

theorem ordersBy_int : OrdersBy compareInt id :=
  fun _ _ => ⟨Int.compare_eq_lt, Int.compare_eq_eq⟩

/-- The larger number comes first. -/
theorem ordersBy_int_swapped : OrdersBy (fun a b => compareInt b a) OrderDual.toDual := by
  intro a b
  exact ⟨Int.compare_eq_lt, Int.compare_eq_eq.trans (eq_comm.trans OrderDual.toDual_inj.symm)⟩

theorem compareChars_eq_lt_iff (as bs : List Char) : compareChars as bs = .lt ↔ as < bs := by
  induction as generalizing bs with
  | nil =>
    cases bs with
    | nil => simp [compareChars]
    | cons b bs => simp [compareChars]
  | cons a as ih =>
    cases bs with
    | nil => simp [compareChars]
    | cons b bs =>
      rw [compareChars, Ordering.then_eq_lt, Nat.compare_eq_lt, Nat.compare_eq_eq, Char.toNat_inj,
        ih, List.cons_lt_cons_iff]
      exact or_congr_left Iff.rfl

theorem ordersBy_text : OrdersBy compareText id := by
  intro a b
  constructor
  · rw [compareText, compareChars_eq_lt_iff]
    exact String.lt_iff_toList_lt.symm
  · constructor
    · exact eq_of_compareText
    · rintro rfl
      exact Std.ReflCmp.compare_self

/-! ### Sorting -/

/-- A list of the same elements in which no element comes after a greater one.  How elements that
compare equal are ordered is left open. -/
def IsSortOf (cmp : α → α → Ordering) (l sorted : List α) : Prop :=
  sorted.Perm l ∧ sorted.Pairwise fun a b => (cmp a b).isLE

variable {cmp : α → α → Ordering} {key : α → κ} {l l' sorted sorted' : List α}

theorem OrdersBy.isSortOf_sortBy (h : OrdersBy cmp key) (l : List α) :
    IsSortOf cmp l (sortBy cmp l) :=
  have := h.transCmp
  ⟨List.mergeSort_perm l _, pairwise_sortBy cmp l⟩

theorem IsSortOf.pairwise_key (hkey : OrdersBy cmp key) (h : IsSortOf cmp l sorted) :
    sorted.Pairwise fun a b => key a ≤ key b :=
  h.2.imp fun hle => (hkey.isLE_iff _ _).mp hle

/-- Sorts of the same elements have the same keys. -/
theorem IsSortOf.map_eq (hkey : OrdersBy cmp key) (h : IsSortOf cmp l sorted)
    (h' : IsSortOf cmp l' sorted') (hperm : l'.Perm l) : sorted'.map key = sorted.map key := by
  refine List.Perm.eq_of_pairwise' (r := (· ≤ ·)) ?_ ?_ ?_
  · exact List.pairwise_map.mpr (h'.pairwise_key hkey)
  · exact List.pairwise_map.mpr (h.pairwise_key hkey)
  · exact (h'.1.trans (hperm.trans h.1.symm)).map key

/-- **Sorts of elements that the key tells apart are the same.** -/
theorem IsSortOf.eq_of_injOn (hkey : OrdersBy cmp key) (h : IsSortOf cmp l sorted)
    (h' : IsSortOf cmp l' sorted') (hperm : l'.Perm l)
    (hinj : ∀ a ∈ l, ∀ b ∈ l, key a = key b → a = b) : sorted' = sorted := by
  have hantisymm : ∀ a b, a ∈ sorted' → b ∈ sorted → key a ≤ key b → key b ≤ key a → a = b :=
    fun a b ha hb hab hba => hinj a (hperm.mem_iff.mp (h'.1.mem_iff.mp ha)) b
      (h.1.mem_iff.mp hb) (le_antisymm hab hba)
  exact List.Perm.eq_of_pairwise hantisymm (h'.pairwise_key hkey) (h.pairwise_key hkey)
    (h'.1.trans (hperm.trans h.1.symm))

end

/-! ### The keys of a report -/

/-- The key of a place: file, line and column. -/
def Facts.Location.orderKey (l : Facts.Location) : String ×ₗ ℤ ×ₗ ℤ :=
  toLex (l.file, toLex (l.line, l.column))

/-- The key of a finding: the rank of its severity, higher ranks first, then the place of the sink,
the category, the place of the source, and the identifier. -/
def Finding.orderKey (f : Finding) :
    ℤᵒᵈ ×ₗ (String ×ₗ ℤ ×ₗ ℤ) ×ₗ String ×ₗ (String ×ₗ ℤ ×ₗ ℤ) ×ₗ String :=
  toLex (OrderDual.toDual f.severity.rank, toLex (f.sink.location.orderKey,
    toLex (f.category, toLex (f.source.location.orderKey, f.id))))

/-- The key of a diagnostic: all that it says, its kind by the name. -/
def Diagnostic.orderKey (d : Diagnostic) : String ×ₗ String ×ₗ ℤ ×ₗ String ×ₗ String :=
  toLex (d.kind.name, toLex (d.file, toLex (d.line, toLex (d.function, d.message))))

namespace Report

theorem ordersBy_comparePlaces : OrdersBy comparePlaces Facts.Location.orderKey :=
  ordersBy_then (ordersBy_text.onPart Facts.Location.file) <|
    ordersBy_then (ordersBy_int.onPart Facts.Location.line)
      (ordersBy_int.onPart Facts.Location.column)

theorem ordersBy_compareFindings : OrdersBy compareFindings Finding.orderKey :=
  ordersBy_then (ordersBy_int_swapped.onPart fun f : Finding => f.severity.rank) <|
    ordersBy_then (ordersBy_comparePlaces.onPart fun f : Finding => f.sink.location) <|
    ordersBy_then (ordersBy_text.onPart Finding.category) <|
    ordersBy_then (ordersBy_comparePlaces.onPart fun f : Finding => f.source.location)
      (ordersBy_text.onPart Finding.id)

theorem ordersBy_compareDiagnostics : OrdersBy compareDiagnostics Diagnostic.orderKey :=
  ordersBy_then (ordersBy_text.onPart fun d : Diagnostic => d.kind.name) <|
    ordersBy_then (ordersBy_text.onPart Diagnostic.file) <|
    ordersBy_then (ordersBy_int.onPart Diagnostic.line) <|
    ordersBy_then (ordersBy_text.onPart Diagnostic.function)
      (ordersBy_text.onPart Diagnostic.message)

/-- Diagnostics that say the same are equal, if their kinds are known by their names. -/
theorem eq_of_orderKey {a b : Diagnostic} (ha : a.kind = .ofName a.kind.name)
    (hb : b.kind = .ofName b.kind.name) (h : a.orderKey = b.orderKey) : a = b := by
  simp only [Diagnostic.orderKey, toLex_inj, Prod.mk.injEq] at h
  obtain ⟨hkind, hfile, hline, hfunction, hmessage⟩ := h
  rw [Diagnostic.mk.injEq, ha, hb, hkind]
  exact ⟨rfl, hmessage, hfile, hfunction, hline⟩

/-- **The order of a report is canonical.**  Findings are put in the order of severity, higher
ranks first, sink, category, source and identifier.  Any sort of findings with distinct
identifiers, in whatever order they were recorded, gives the same list.  Any sort of diagnostics
gives the same texts and lines in the same order, which are the same diagnostics when kinds are
known by their names. -/
theorem report_order_canonical :
    (∀ l, IsSortOf compareFindings l (sortFindings l) ∧
      (sortFindings l).Pairwise fun a b => a.orderKey ≤ b.orderKey) ∧
    (∀ l l' sorted, (l.map Finding.id).Nodup → l'.Perm l → IsSortOf compareFindings l' sorted →
      sorted = sortFindings l) ∧
    (∀ l, IsSortOf compareDiagnostics l (sortDiagnostics l) ∧
      (sortDiagnostics l).Pairwise fun a b => a.orderKey ≤ b.orderKey) ∧
    ∀ l l' sorted, l'.Perm l → IsSortOf compareDiagnostics l' sorted →
      sorted.map Diagnostic.orderKey = (sortDiagnostics l).map Diagnostic.orderKey ∧
      ((∀ d ∈ l, d.kind = .ofName d.kind.name) → sorted = sortDiagnostics l) := by
  have hfindings := ordersBy_compareFindings
  have hdiagnostics := ordersBy_compareDiagnostics
  refine ⟨fun l => ?_, fun l l' sorted hids hperm hsorted => ?_, fun l => ?_,
    fun l l' sorted hperm hsorted => ⟨?_, fun hkinds => ?_⟩⟩
  · have hsort := hfindings.isSortOf_sortBy l
    exact ⟨hsort, hsort.pairwise_key hfindings⟩
  · refine (hfindings.isSortOf_sortBy l).eq_of_injOn hfindings hsorted hperm fun a ha b hb heq => ?_
    -- the identifier is part of the key
    have hid : a.id = b.id := by
      simp only [Finding.orderKey, toLex_inj, Prod.mk.injEq] at heq
      exact heq.2.2.2.2
    exact List.inj_on_of_nodup_map hids ha hb hid
  · have hsort := hdiagnostics.isSortOf_sortBy l
    exact ⟨hsort, hsort.pairwise_key hdiagnostics⟩
  · exact (hdiagnostics.isSortOf_sortBy l).map_eq hdiagnostics hsorted hperm
  · exact (hdiagnostics.isSortOf_sortBy l).eq_of_injOn hdiagnostics hsorted hperm
      fun a ha b hb => eq_of_orderKey (hkinds a ha) (hkinds b hb)

/-- A finding of injected code. -/
def injection (id : String) (severity : Severity) (source sink : Int) : Finding where
  id := id
  severity := severity
  category := "code_injection"
  source := { location := { file := "app", line := source } }
  sink := { location := { file := "app", line := sink } }
  path := none
  hopDepth := 0
  truncated := false

/-- Findings with ties in severity, sink and source. -/
def tiedFindings : List Finding :=
  [injection "b" .high 1 4, injection "a" .high 1 4, injection "c" (.unknown "") 1 2,
    injection "d" .critical 2 9]

/-- Diagnostics that come by kind, not as they were recorded; one of them was recorded twice. -/
def repeatedDiagnostics : List Diagnostic :=
  [{ kind := .maxDepthTruncation, message := "cut", file := "app", line := 4 },
    { kind := .cancelled, message := "stopped" },
    { kind := .maxDepthTruncation, message := "cut", file := "app", line := 4 }]

theorem report_order_canonical_tied :
    (tiedFindings.map Finding.id).Nodup ∧
      sortFindings tiedFindings = [injection "d" .critical 2 9, injection "a" .high 1 4,
        injection "b" .high 1 4, injection "c" (.unknown "") 1 2] ∧
      (∀ d ∈ repeatedDiagnostics, d.kind = .ofName d.kind.name) ∧
      sortDiagnostics repeatedDiagnostics = [{ kind := .cancelled, message := "stopped" },
        { kind := .maxDepthTruncation, message := "cut", file := "app", line := 4 },
        { kind := .maxDepthTruncation, message := "cut", file := "app", line := 4 }] := by
  obtain ⟨-, hfindings, -, hdiagnostics⟩ := report_order_canonical
  have hids : (tiedFindings.map Finding.id).Nodup := by decide
  have hkinds : ∀ d ∈ repeatedDiagnostics, d.kind = .ofName d.kind.name := by decide
  refine ⟨hids, ?_, hkinds, ?_⟩
  · refine (hfindings tiedFindings tiedFindings.reverse _ hids (List.reverse_perm _) ?_).symm
    exact ⟨by decide, by decide⟩
  · refine ((hdiagnostics repeatedDiagnostics repeatedDiagnostics.reverse _
      (List.reverse_perm _) ?_).2 hkinds).symm
    exact ⟨by decide, by decide⟩

end Report

end TaintFlow
