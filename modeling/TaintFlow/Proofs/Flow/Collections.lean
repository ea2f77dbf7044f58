import Mathlib.Data.List.Nodup
import TaintFlow.Proofs.Flow.Effects

/-!
# Collections of best chains as maps

A collection that is built by offers holds every key once, so that looking a key up and being among
its entries are the same.  What it holds after many offers is the best chain offered for each key,
and no longer depends on the order of the offers.

## Main definitions

* `Best.keys` — the keys for which chains are held.
* `Best.Grows` — all that a collection covers another one covers.
* `Records.Distinct`, `Summary.Distinct` — every key is held once.

## Main results

* `Best.get?_eq_some_iff` — in a collection with distinct keys, looking up is being an entry.
* `Best.get?_offerAll` — what is held after many offers was held or offered.
* `Best.Grows.join` — a collection that is ahead stays ahead when results that are ahead are joined.
-/

namespace TaintFlow

theorem nodup_addNew {α : Type} [BEq α] [LawfulBEq α] {l : List α} (h : l.Nodup) (a : α) :
    (addNew l a).Nodup := by
  unfold addNew
  split
  · exact h
  · next hnot => exact List.Nodup.append h (List.nodup_singleton a) (by simpa using hnot)

theorem nodup_firsts {α : Type} [BEq α] [LawfulBEq α] (l : List α) : (firsts l).Nodup := by
  have hfold : ∀ l kept : List α, kept.Nodup → (l.foldl addNew kept).Nodup := by
    intro l
    induction l with
    | nil => exact fun _ h => h
    | cons a l ih => exact fun kept h => ih _ (nodup_addNew h a)
  exact hfold l [] List.nodup_nil

namespace Flow

namespace Best

variable {κ : Type}

/-! ### The keys of a collection -/

/-- The keys for which chains are held. -/
def keys (m : Best κ) : List κ :=
  m.entries.map (·.1)

theorem mem_keys {m : Best κ} {k : κ} : k ∈ m.keys ↔ m.Has k := by
  simp [keys, Has]

theorem nodup_entries {m : Best κ} (h : m.keys.Nodup) : m.entries.Nodup :=
  List.Nodup.of_map _ h

variable [BEq κ]

/-- All that a collection covers another one covers. -/
def Grows (m m' : Best κ) : Prop :=
  ∀ k c, m.Covers k c → m'.Covers k c

theorem Grows.refl (m : Best κ) : m.Grows m :=
  fun _ _ h => h

theorem Grows.trans {m m' m'' : Best κ} (h : m.Grows m') (h' : m'.Grows m'') : m.Grows m'' :=
  fun k c hc => h' k c (h k c hc)

variable [LawfulBEq κ]

theorem keys_put (k : κ) (c : Chain) (es : List (κ × Chain)) :
    (⟨put k c es⟩ : Best κ).keys = addNew (es.map (·.1)) k := by
  induction es with
  | nil => rfl
  | cons e es ih =>
    simp only [keys, put] at ih ⊢
    by_cases he : e.1 = k
    · simp [he, addNew]
    · have hne : (e.1 == k) = false := by simpa using he
      rw [hne, if_neg Bool.false_ne_true, List.map_cons, ih]
      by_cases hk : k ∈ es.map (·.1)
      · simp only [addNew, List.contains_iff_mem, hk, List.map_cons, List.mem_cons, or_true,
          if_true]
      · simp only [addNew, List.contains_iff_mem, hk, List.map_cons, List.mem_cons, Ne.symm he,
          or_false, if_false, List.cons_append]

theorem nodup_keys_offer {m : Best κ} (h : m.keys.Nodup) (k : κ) (c : Chain) :
    (m.offer k c).keys.Nodup := by
  unfold offer
  split
  · rw [keys_put]
    exact nodup_addNew h k
  · exact h

theorem nodup_keys_offerAll {m : Best κ} (h : m.keys.Nodup) (es : List (κ × Chain)) :
    (m.offerAll es).keys.Nodup := by
  induction es generalizing m with
  | nil => exact h
  | cons e es ih => exact ih (nodup_keys_offer h e.1 e.2)

theorem nodup_keys_join {m : Best κ} (h : m.keys.Nodup) (other : Best κ) :
    (m.join other).keys.Nodup :=
  nodup_keys_offerAll h other.entries

/-! ### Looking up -/

/-- In a collection with distinct keys, looking up is being an entry. -/
theorem get?_eq_some_iff {m : Best κ} (h : m.keys.Nodup) {k : κ} {c : Chain} :
    m.get? k = some c ↔ (k, c) ∈ m.entries := by
  refine ⟨mem_entries_of_get?, fun hc => ?_⟩
  obtain ⟨d, hd⟩ := has_iff_get?.mp ⟨c, hc⟩
  have hmem := mem_entries_of_get? hd
  have heq : ((k, c) : κ × Chain) = (k, d) := List.inj_on_of_nodup_map h hc hmem rfl
  rw [hd, (Prod.mk.inj heq).2]

theorem coversAll_self {m : Best κ} (h : m.keys.Nodup) : m.CoversAll m := by
  intro k c hc
  exact ⟨c, (get?_eq_some_iff h).mpr hc, isLE_compareChains_self c⟩

/-- What is held after many offers was held before, or it was offered. -/
theorem get?_offerAll {m : Best κ} {es : List (κ × Chain)} {k : κ} {c : Chain}
    (hc : (m.offerAll es).get? k = some c) : m.get? k = some c ∨ (k, c) ∈ es := by
  induction es generalizing m with
  | nil => exact Or.inl hc
  | cons e es ih =>
    rcases ih hc with h | h
    · by_cases hk : e.1 = k
      · subst hk
        rcases get?_offer_self m e.1 e.2 with ⟨-, hself⟩ | ⟨-, hself⟩
        · rw [hself] at h
          cases h
          exact Or.inr List.mem_cons_self
        · rw [hself] at h
          exact Or.inl h
      · rw [get?_offer_of_ne m hk] at h
        exact Or.inl h
    · exact Or.inr (List.mem_cons_of_mem _ h)

/-! ### Collections that are ahead of others -/

theorem grows_join (m other : Best κ) : m.Grows (m.join other) :=
  fun _ _ h => h.offerAll other.entries

theorem Grows.coversAll {m m' : Best κ} (h : m.Grows m') (hm : m.keys.Nodup) :
    m'.CoversAll m :=
  fun k c hc => h k c (coversAll_self hm k c hc)

/-- A collection that is ahead stays ahead when results that are ahead are joined. -/
theorem Grows.join {m m' other other' : Best κ} (h : m.Grows m')
    (hother : other'.CoversAll other) : (m.join other).Grows (m'.join other') := by
  rintro k c ⟨d, hd, hdc⟩
  refine Covers.of_isLE ?_ hdc
  rcases get?_offerAll hd with hd | hd
  · exact (h k d ⟨d, hd, isLE_compareChains_self d⟩).offerAll other'.entries
  · exact (hother k d hd).coversAll (coversAll_join m' other')

end Best

/-! ### Records with distinct keys -/

/-- A summary holds every key once. -/
structure Summary.Distinct (sm : Summary) : Prop where
  sinks : sm.sinks.keys.Nodup
  returns : sm.returns.keys.Nodup
  intrinsic : sm.intrinsic.keys.Nodup

theorem Summary.distinct_empty : Summary.Distinct {} :=
  ⟨List.nodup_nil, List.nodup_nil, List.nodup_nil⟩

theorem Summary.Distinct.join {a : Summary} (h : a.Distinct) (b : Summary) :
    (a.join b).Distinct where
  sinks := Best.nodup_keys_join h.sinks b.sinks
  returns := Best.nodup_keys_join h.returns b.returns
  intrinsic := Best.nodup_keys_join h.intrinsic b.intrinsic

/-- What the analysis of a function records holds every key once. -/
structure Records.Distinct (rec : Records) : Prop where
  summary : rec.summary.Distinct
  flows : rec.flows.keys.Nodup
  args : rec.args.Nodup

namespace Records

theorem distinct_empty : Records.Distinct {} :=
  ⟨Summary.distinct_empty, List.nodup_nil, List.nodup_nil⟩

theorem Distinct.add {rec : Records} (h : rec.Distinct) (q : Report) : (rec.add q).Distinct := by
  have hsum := h.summary
  rcases q with ⟨⟨s⟩ | ⟨i⟩, k, c⟩ | ⟨⟨s⟩ | ⟨i⟩, c⟩ | ⟨callee, i⟩
  · exact { h with flows := Best.nodup_keys_offer h.flows (s, k) c }
  · exact { h with summary := { hsum with sinks := Best.nodup_keys_offer hsum.sinks (i, k) c } }
  · exact { h with summary := { hsum with intrinsic := Best.nodup_keys_offer hsum.intrinsic s c } }
  · exact { h with summary := { hsum with returns := Best.nodup_keys_offer hsum.returns i c } }
  · exact { h with args := nodup_addNew h.args (callee, i) }

theorem Distinct.foldl_add {rec : Records} (h : rec.Distinct) (qs : List Report) :
    (qs.foldl Records.add rec).Distinct := by
  induction qs generalizing rec with
  | nil => exact h
  | cons q qs ih => exact ih (h.add q)

theorem Grows.refl (rec : Records) : rec.Grows rec :=
  ⟨.refl rec.summary, fun _ _ h => h, fun _ h => h⟩

theorem Grows.trans {rec rec' rec'' : Records} (h : rec.Grows rec') (h' : rec'.Grows rec'') :
    rec.Grows rec'' where
  summary := h.summary.trans h'.summary
  flows k c hc := h'.flows k c (h.flows k c hc)
  args a ha := h'.args a (h.args a ha)

theorem grows_foldl_add (rec : Records) (qs : List Report) :
    rec.Grows (qs.foldl Records.add rec) := by
  induction qs generalizing rec with
  | nil => exact .refl rec
  | cons q qs ih => exact (rec.grows_add q).trans (ih _)

end Records

end Flow

end TaintFlow
