/-!
# Texts with marks between them

Texts are joined with a mark between them, a colon say, and nothing is done about marks inside the
texts.  What was joined can still be read back at a mark that is the first one, or the last one.

## Main results

* `cut_first_inj`, `cut_last_inj` — a list is cut in one way at the first place of a mark, and at
  its last place.
* `joined_inj` — entries with a mark before each of them can be read back.
* `notMem_natRepr`, `notMem_intRepr` — the marks that no number is written with.
-/

namespace TaintFlow.Text

section

variable {α : Type} {d : α} {x y xs ys : List α}

/-- What stands before the first mark, and what stands after it. -/
theorem cut_first_inj (hx : d ∉ x) (hy : d ∉ y) (h : x ++ d :: xs = y ++ d :: ys) :
    x = y ∧ xs = ys := by
  induction x generalizing y with
  | nil =>
    cases y with
    | nil => exact ⟨rfl, (List.cons.inj h).2⟩
    | cons b y => exact absurd ((List.cons.inj h).1 ▸ List.mem_cons_self) hy
  | cons a x ih =>
    cases y with
    | nil => exact absurd ((List.cons.inj h).1 ▸ List.mem_cons_self) hx
    | cons b y =>
      obtain ⟨hab, hrest⟩ := List.cons.inj h
      obtain ⟨hxy, hafter⟩ := ih (mt (List.mem_cons_of_mem _) hx) (mt (List.mem_cons_of_mem _) hy)
        hrest
      exact ⟨by rw [hab, hxy], hafter⟩

/-- The same for the last mark. -/
theorem cut_last_inj (hxs : d ∉ xs) (hys : d ∉ ys) (h : x ++ d :: xs = y ++ d :: ys) :
    x = y ∧ xs = ys := by
  have hreverse := congrArg List.reverse h
  simp only [List.reverse_append, List.reverse_cons, List.append_assoc, List.singleton_append]
    at hreverse
  obtain ⟨hafter, hbefore⟩ := cut_first_inj (mt List.mem_reverse.mp hxs)
    (mt List.mem_reverse.mp hys) hreverse
  exact ⟨List.reverse_inj.mp hbefore, List.reverse_inj.mp hafter⟩

/-- Entries with a mark before each of them can be read back. -/
theorem joined_inj {entries entries' : List (List α)} (hx : d ∉ x) (hy : d ∉ y)
    (hentries : ∀ e ∈ entries, d ∉ e) (hentries' : ∀ e ∈ entries', d ∉ e)
    (h : x ++ entries.flatMap (d :: ·) = y ++ entries'.flatMap (d :: ·)) :
    x = y ∧ entries = entries' := by
  induction entries generalizing x y entries' with
  | nil =>
    cases entries' with
    | nil =>
      rw [List.flatMap_nil, List.append_nil, List.append_nil] at h
      exact ⟨h, rfl⟩
    | cons e' entries' =>
      rw [List.flatMap_nil, List.append_nil, List.flatMap_cons] at h
      exact absurd (h ▸ List.mem_append_right _ List.mem_cons_self) hx
  | cons e entries ih =>
    cases entries' with
    | nil =>
      rw [List.flatMap_nil, List.append_nil, List.flatMap_cons] at h
      exact absurd (h ▸ List.mem_append_right _ List.mem_cons_self) hy
    | cons e' entries' =>
      obtain ⟨he, hentries⟩ := List.forall_mem_cons.mp hentries
      obtain ⟨he', hentries'⟩ := List.forall_mem_cons.mp hentries'
      rw [List.flatMap_cons, List.flatMap_cons, List.cons_append, List.cons_append] at h
      obtain ⟨hxy, hrest⟩ := cut_first_inj hx hy h
      obtain ⟨hee', heq⟩ := ih he he' hentries hentries' hrest
      exact ⟨hxy, by rw [hee', heq]⟩

end

/-- A natural number is written with digits. -/
theorem notMem_natRepr {d : Char} (hd : d.isDigit = false) (n : Nat) : d ∉ n.repr.toList := by
  intro hmem
  rw [Nat.toList_repr] at hmem
  rw [Nat.isDigit_of_mem_toDigits (by decide) (by decide) hmem] at hd
  cases hd

/-- A number is written with digits and a minus sign. -/
theorem notMem_intRepr {d : Char} (hd : d.isDigit = false) (hminus : d ≠ '-') (n : Int) :
    d ∉ n.repr.toList := by
  rw [Int.repr_eq_if]
  split
  · exact notMem_natRepr hd _
  · rw [String.toList_append]
    intro hmem
    rcases List.mem_append.mp hmem with hmem | hmem
    · exact hminus (List.mem_singleton.mp hmem)
    · exact notMem_natRepr hd _ hmem

end TaintFlow.Text
