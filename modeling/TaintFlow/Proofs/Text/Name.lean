import TaintFlow.Text.Name

/-!
# The laws of dotted names

Slots form a forest: what is below a slot is below all that contain it, and two slots that contain
the same slot are related.

## Main results

* `Name.under_self`, `Name.under_trans` — `Name.under` is reflexive and transitive.
* `Name.related_of_under` — what observes a slot observes the slots that contain it.
-/

namespace TaintFlow.Name

variable {x y z n : String}

theorem under_self (x : String) : under x x = true := by
  simp [under]

theorem below_iff : below x y = true ↔ y.toList ++ ['.'] <+: x.toList :=
  List.isPrefixOf_iff_prefix

theorem under_iff : under x y = true ↔ x = y ∨ below x y = true := by
  rw [under, Bool.or_eq_true, beq_iff_eq]

theorem related_iff : related x n = true ↔ x = n ∨ below n x = true ∨ below x n = true := by
  rw [related, Bool.or_eq_true, Bool.or_eq_true, beq_iff_eq, or_assoc]

theorem below_trans (hxy : below x y = true) (hyz : below y z = true) : below x z = true := by
  rw [below_iff] at hxy hyz ⊢
  exact hyz.trans ((List.prefix_append _ _).trans hxy)

theorem under_trans (hxy : under x y = true) (hyz : under y z = true) : under x z = true := by
  rw [under_iff] at *
  rcases hxy with rfl | hxy
  · exact hyz
  · rcases hyz with rfl | hyz
    · exact Or.inr hxy
    · exact Or.inr (below_trans hxy hyz)

/-- Two slots that contain the same slot are related. -/
theorem related_of_below_below (hy : below x y = true) (hn : below x n = true) :
    related y n = true := by
  rw [below_iff] at hy hn
  rw [related_iff, below_iff, below_iff]
  rcases List.prefix_or_prefix_of_prefix hy hn with h | h
  · rcases List.prefix_concat_iff.mp h with h | h
    · exact Or.inl (String.toList_inj.mp (List.append_cancel_right h))
    · exact Or.inr (Or.inl h)
  · rcases List.prefix_concat_iff.mp h with h | h
    · exact Or.inl (String.toList_inj.mp (List.append_cancel_right h)).symm
    · exact Or.inr (Or.inr h)

/-- What observes a slot observes the slots that contain it. -/
theorem related_of_under (hxy : under x y = true) (hn : related x n = true) :
    related y n = true := by
  rcases under_iff.mp hxy with rfl | hxy
  · exact hn
  · rcases related_iff.mp hn with rfl | hn | hn
    · exact related_iff.mpr (Or.inr (Or.inl hxy))
    · exact related_iff.mpr (Or.inr (Or.inl (below_trans hn hxy)))
    · exact related_of_below_below hxy hn

end TaintFlow.Name
