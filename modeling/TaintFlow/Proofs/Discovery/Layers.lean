import Mathlib.Data.List.Induction
import TaintFlow.Proofs.Discovery.Exact

/-!
# Rules laid over each other

Rules with distinct ids keep distinct ids when a rule is laid over them: it takes the place of the
rule with its id, is appended, or, when it is disabled, removes the rule with its id.  So after a
list of extra rules the last rule with an id decides, and is in force unless it is disabled.  Rules
that no extra rule names stay in their order, and no id is met twice when the rules are checked.

## Main results

* `mem_layer`, `filter_layer` — the effect of one rule.
* `mem_layers_iff` — the effect of a list of rules.
* `last_rule_wins` — the rules in force, and what an engine makes of them.
-/

namespace TaintFlow.Discovery

variable {rules base extra : List Rule} {b r : Rule}

/-! ### The effect of one rule -/

theorem eraseP_eq_filter (h : (rules.map (·.id)).Nodup) (x : String) :
    rules.eraseP (·.id == x) = rules.filter (·.id != x) := by
  induction rules with
  | nil => rfl
  | cons c cs ih =>
    rw [List.map_cons, List.nodup_cons] at h
    by_cases hid : c.id = x
    · have hrest : ∀ d ∈ cs, (d.id != x) = true := fun d hd =>
        bne_iff_ne.mpr fun hdx => h.1 (List.mem_map.mpr ⟨d, hd, hdx.trans hid.symm⟩)
      rw [List.eraseP_cons_of_pos (by simpa using hid),
        List.filter_cons_of_neg (by simpa using hid), List.filter_eq_self.mpr hrest]
    · rw [List.eraseP_cons_of_neg (by simpa using hid),
        List.filter_cons_of_pos (by simpa using hid), ih h.2]

theorem replaceFirst_eq_map (h : (rules.map (·.id)).Nodup) (r : Rule) :
    replaceFirst r rules = rules.map fun c => if c.id == r.id then r else c := by
  induction rules with
  | nil => rfl
  | cons c cs ih =>
    rw [List.map_cons, List.nodup_cons] at h
    rw [replaceFirst, List.map_cons]
    split
    · next hid =>
      have hrest : ∀ d ∈ cs, (if d.id == r.id then r else d) = d := fun d hd =>
        if_neg fun hdr => h.1 (List.mem_map.mpr
          ⟨d, hd, (beq_iff_eq.mp hdr).trans (beq_iff_eq.mp hid).symm⟩)
      rw [List.map_congr_left hrest, List.map_id']
    · rw [ih h.2]

/-- **Distinct ids stay distinct.** -/
theorem nodup_layer (h : (rules.map (·.id)).Nodup) (r : Rule) :
    ((layer rules r).map (·.id)).Nodup := by
  unfold layer
  split
  · exact h.sublist (List.eraseP_sublist.map _)
  · split
    · have hids : (rules.map fun c => if c.id == r.id then r else c).map (·.id) =
          rules.map (·.id) := by
        rw [List.map_map]
        refine List.map_congr_left fun c _ => ?_
        show (if c.id == r.id then r else c).id = c.id
        split
        · next hid => exact (beq_iff_eq.mp hid).symm
        · rfl
      rwa [replaceFirst_eq_map h, hids]
    · next hnone =>
      rw [List.map_append, List.map_singleton]
      refine List.nodup_append.mpr ⟨h, List.nodup_singleton _, fun x hx y hy heq => ?_⟩
      obtain ⟨c, hc, rfl⟩ := List.mem_map.mp hx
      rw [List.mem_singleton.mp hy] at heq
      exact hnone (List.any_eq_true.mpr ⟨c, hc, beq_iff_eq.mpr heq⟩)

/-- **A rule that is laid over a table is in it unless it is disabled**, and is the only one with
its id. -/
theorem mem_layer (h : (rules.map (·.id)).Nodup) :
    b ∈ layer rules r ↔ (b = r ∧ r.disabled = false) ∨ (b ∈ rules ∧ b.id ≠ r.id) := by
  unfold layer
  split
  · next hdisabled =>
    rw [eraseP_eq_filter h, List.mem_filter, bne_iff_ne]
    simp [hdisabled]
  · next hdisabled =>
    rw [Bool.not_eq_true] at hdisabled
    split
    · next hany =>
      obtain ⟨c, hc, hid⟩ := List.any_eq_true.mp hany
      rw [replaceFirst_eq_map h, List.mem_map]
      constructor
      · rintro ⟨d, hd, rfl⟩
        split
        · exact Or.inl ⟨rfl, hdisabled⟩
        · next hne => exact Or.inr ⟨hd, by simpa using hne⟩
      · rintro (⟨rfl, -⟩ | ⟨hb, hne⟩)
        · exact ⟨c, hc, if_pos hid⟩
        · exact ⟨b, hb, if_neg (by simpa using hne)⟩
    · next hnone =>
      have hne : ∀ c ∈ rules, c.id ≠ r.id := fun c hc hid =>
        hnone (List.any_eq_true.mpr ⟨c, hc, beq_iff_eq.mpr hid⟩)
      rw [List.mem_append, List.mem_singleton, or_comm]
      exact or_congr (by simp [hdisabled]) ⟨fun hb => ⟨hb, hne b hb⟩, And.left⟩

/-- Rules that pass a test which no rule of its id passes stay as they are. -/
theorem filter_layer (h : (rules.map (·.id)).Nodup) {q : Rule → Bool}
    (hq : ∀ c, c.id = r.id → q c = false) : (layer rules r).filter q = rules.filter q := by
  unfold layer
  split
  · rw [eraseP_eq_filter h, List.filter_filter]
    refine List.filter_congr fun c _ => ?_
    cases hid : c.id != r.id with
    | true => rw [Bool.and_true]
    | false => rw [Bool.and_false, hq c (by simpa using hid)]
  · split
    · -- the rule that is replaced fails the test, and so does the one that replaces it
      have hsame : (q ∘ fun c => if c.id == r.id then r else c) = q := by
        funext c
        show q (if c.id == r.id then r else c) = q c
        split
        · next hid => rw [hq r rfl, hq c (beq_iff_eq.mp hid)]
        · rfl
      have hkept : ∀ c ∈ rules.filter q, (if c.id == r.id then r else c) = c := fun c hc =>
        if_neg fun hid => by simp [hq c (beq_iff_eq.mp hid)] at hc
      rw [replaceFirst_eq_map h, List.filter_map, hsame, List.map_congr_left hkept, List.map_id']
    · rw [List.filter_append, List.filter_singleton, hq r rfl, Bool.cond_false, List.append_nil]

/-! ### The effect of a list of rules -/

theorem nodup_layers (h : (base.map (·.id)).Nodup) (extra : List Rule) :
    ((extra.foldl layer base).map (·.id)).Nodup := by
  induction extra generalizing base with
  | nil => exact h
  | cons r extra ih => exact ih (nodup_layer h r)

theorem filter_layers (h : (base.map (·.id)).Nodup) {q : Rule → Bool}
    (hq : ∀ r ∈ extra, ∀ c, c.id = r.id → q c = false) :
    (extra.foldl layer base).filter q = base.filter q := by
  induction extra generalizing base with
  | nil => rfl
  | cons r extra ih =>
    rw [List.foldl_cons, ih (nodup_layer h r) fun r' hr' => hq r' (List.mem_cons_of_mem r hr'),
      filter_layer h (hq r List.mem_cons_self)]

/-- Of rules with distinct ids the last one with an id is the one with it. -/
theorem findRev?_eq_some_iff (h : (base.map (·.id)).Nodup) :
    base.findRev? (·.id == b.id) = some b ↔ b ∈ base := by
  rw [List.findRev?_eq_find?_reverse]
  constructor
  · exact fun hfind => List.mem_reverse.mp (List.mem_of_find?_eq_some hfind)
  · intro hb
    cases hfind : base.reverse.find? (·.id == b.id) with
    | none => simpa using List.find?_eq_none.mp hfind b (List.mem_reverse.mpr hb)
    | some c =>
      have hc : c ∈ base := List.mem_reverse.mp (List.mem_of_find?_eq_some hfind)
      have hid : c.id = b.id := by
        simpa using List.find?_some hfind
      rw [List.inj_on_of_nodup_map h hc hb hid]

/-- **The last rule with an id decides.** -/
theorem mem_layers_iff (h : (base.map (·.id)).Nodup) :
    (b ∈ extra.foldl layer base ∧ b.disabled = false) ↔
      ((base ++ extra).findRev? (·.id == b.id) = some b ∧ b.disabled = false) := by
  induction extra using List.reverseRecOn with
  | nil => rw [List.foldl_nil, List.append_nil, findRev?_eq_some_iff h]
  | append_singleton extra r ih =>
    have hlast : (base ++ (extra ++ [r])).findRev? (·.id == b.id) =
        if r.id == b.id then some r else (base ++ extra).findRev? (·.id == b.id) := by
      rw [← List.append_assoc, List.findRev?_eq_find?_reverse, List.reverse_concat,
        List.find?_cons, List.findRev?_eq_find?_reverse]
      cases r.id == b.id <;> rfl
    rw [List.foldl_append, List.foldl_cons, List.foldl_nil, mem_layer (nodup_layers h extra), hlast]
    by_cases hid : r.id = b.id
    · rw [if_pos (beq_iff_eq.mpr hid), Option.some.injEq]
      constructor
      · rintro ⟨⟨rfl, hr⟩ | ⟨-, hne⟩, hb⟩
        · exact ⟨rfl, hb⟩
        · exact absurd hid.symm hne
      · rintro ⟨rfl, hr⟩
        exact ⟨Or.inl ⟨rfl, hr⟩, hr⟩
    · rw [if_neg (by simpa using hid), ← ih]
      constructor
      · rintro ⟨⟨rfl, -⟩ | ⟨hb, -⟩, henabled⟩
        · exact absurd rfl hid
        · exact ⟨hb, henabled⟩
      · rintro ⟨hb, henabled⟩
        exact ⟨Or.inr ⟨hb, fun heq => hid heq.symm⟩, henabled⟩

/-! ### Checking the rules -/

/-- Rules with distinct ids are all checked, up to the first one that is not in order. -/
theorem compileAll_of_nodup {seen : List String} (h : (rules.map (·.id)).Nodup)
    (hseen : ∀ r ∈ rules, r.id ∉ seen) :
    (∃ cs, Engine.compileAll seen rules = .ok cs) ∨
      ∃ r ∈ rules, ∃ e, compile r = .error e ∧ Engine.compileAll seen rules =
        .error (.during "failed to compile rules" (.because e.text)) := by
  induction rules generalizing seen with
  | nil => exact Or.inl ⟨[], rfl⟩
  | cons r rules ih =>
    rw [List.map_cons, List.nodup_cons] at h
    have hnew : seen.contains r.id = false := by
      simpa using hseen r List.mem_cons_self
    have hrest : ∀ d ∈ rules, d.id ∉ r.id :: seen := by
      intro d hd hmem
      rcases List.mem_cons.mp hmem with heq | hmem
      · exact h.1 (List.mem_map.mpr ⟨d, hd, heq⟩)
      · exact hseen d (List.mem_cons_of_mem r hd) hmem
    rw [Engine.compileAll, hnew]
    cases hr : compile r with
    | error e => exact Or.inr ⟨r, List.mem_cons_self, e, hr, rfl⟩
    | ok c =>
      rcases ih h.2 hrest with ⟨cs, hcs⟩ | ⟨d, hd, e, he, hcs⟩
      · refine Or.inl ⟨c :: cs, ?_⟩
        rw [hcs]
        rfl
      · refine Or.inr ⟨d, List.mem_cons_of_mem r hd, e, he, ?_⟩
        rw [hcs]
        rfl

theorem map_id_withPrefixes (prefixes : List String) (rules : List Rule) :
    (withPrefixes prefixes rules).map (·.id) = rules.map (·.id) := by
  unfold withPrefixes
  split
  · rfl
  · rw [List.map_map]
    refine List.map_congr_left fun r _ => ?_
    show (if r.id == requestRuleId then requestRule prefixes else r).id = r.id
    split
    · next hid => exact (beq_iff_eq.mp hid).symm
    · rfl

/-! ### Layers of rules -/

/-- **The last rule with an id wins.**  Rules with distinct ids over which any rules are laid have
distinct ids and are all enabled; a rule is among them iff it is the last one with its id and is
enabled; those of the base whose ids no extra rule has stay in their order.  An engine made of
these layers has just these rules, unless one of them is not in order; it never meets an id
twice. -/
theorem last_rule_wins (base extra : List Rule) (h : (base.map (·.id)).Nodup) :
    ((overlay base extra).map (·.id)).Nodup ∧
    (∀ r ∈ overlay base extra, r.disabled = false) ∧
    (∀ x r, (r ∈ overlay base extra ∧ r.id = x) ↔
      (base ++ extra).findRev? (·.id == x) = some r ∧ r.disabled = false) ∧
    ((overlay base extra).filter fun b => !extra.any (·.id == b.id)) =
      base.filter (fun b => !b.disabled && !extra.any (·.id == b.id)) ∧
    ∀ s : Setup, s.rules = base → s.extra = extra →
      (∀ id, Engine.make s ≠ failBecause ("duplicate rule id " ++ id)) ∧
      ((∃ e, Engine.make s = .ok e ∧ e.rules = overlay (withPrefixes s.prefixes base) extra) ∨
        ∃ r ∈ overlay (withPrefixes s.prefixes base) extra, ∃ e, compile r = .error e ∧
          Engine.make s = .error (.during "failed to compile rules" (.because e.text))) := by
  have hnodup : ∀ {base : List Rule}, (base.map (·.id)).Nodup →
      ((overlay base extra).map (·.id)).Nodup := fun hbase =>
    (nodup_layers hbase extra).sublist (List.filter_sublist.map _)
  have hmem : ∀ r, r ∈ overlay base extra ↔ r ∈ extra.foldl layer base ∧ r.disabled = false := by
    intro r
    rw [overlay, List.mem_filter, Bool.not_eq_true']
  refine ⟨hnodup h, fun r hr => ((hmem r).mp hr).2, ?_, ?_, ?_⟩
  · intro x r
    rw [hmem]
    constructor
    · rintro ⟨hr, rfl⟩
      exact (mem_layers_iff h).mp hr
    · rintro ⟨hlast, henabled⟩
      have hid : r.id = x := by
        rw [List.findRev?_eq_find?_reverse] at hlast
        simpa using List.find?_some hlast
      subst hid
      exact ⟨(mem_layers_iff h).mpr ⟨hlast, henabled⟩, rfl⟩
  · have hkept : (extra.foldl layer base).filter
          (fun b => !b.disabled && !extra.any (·.id == b.id)) =
        base.filter (fun b => !b.disabled && !extra.any (·.id == b.id)) := by
      refine filter_layers h fun r hr c hid => ?_
      -- an extra rule has an id that an extra rule has
      have hany : extra.any (·.id == c.id) = true :=
        List.any_eq_true.mpr ⟨r, hr, beq_iff_eq.mpr hid.symm⟩
      rw [hany, Bool.not_true, Bool.and_false]
    rw [overlay, List.filter_filter, ← hkept]
    exact List.filter_congr fun b _ => Bool.and_comm _ _
  · rintro s rfl rfl
    have hids : ((overlay (withPrefixes s.prefixes s.rules) s.extra).map (·.id)).Nodup :=
      hnodup (by rwa [map_id_withPrefixes])
    have hseen : ∀ r ∈ overlay (withPrefixes s.prefixes s.rules) s.extra,
        r.id ∉ ([] : List String) := fun _ _ => List.not_mem_nil
    rcases compileAll_of_nodup hids hseen with ⟨cs, hcs⟩ | ⟨r, hr, e, he, hcs⟩
    · have hmake : Engine.make s = .ok ⟨cs, s.scorer, s.weightAuth⟩ := by
        rw [Engine.make, hcs]
        rfl
      refine ⟨fun id heq => ?_, Or.inl ⟨_, hmake, (Engine.of_make hmake).1⟩⟩
      rw [hmake] at heq
      cases heq
    · have hmake : Engine.make s =
          .error (.during "failed to compile rules" (.because e.text)) := by
        rw [Engine.make, hcs]
        rfl
      refine ⟨fun id heq => ?_, Or.inr ⟨r, hr, e, he, hmake⟩⟩
      rw [hmake] at heq
      cases heq

/-- A table with a disabled rule. -/
def layeredBase : List Rule :=
  [assignmentRule "first" .source [], { assignmentRule "second" .source [] with disabled := true },
    assignmentRule "third" .sink []]

/-- Rules that enable the second rule, take the first one away and add it again, and add and remove
a fourth one. -/
def layeredExtra : List Rule :=
  [assignmentRule "second" .sink [toX], { assignmentRule "first" .source [] with disabled := true },
    assignmentRule "fourth" .source [], assignmentRule "first" .sink [],
    { assignmentRule "fourth" .source [] with disabled := true }]

theorem last_rule_wins_layered :
    (layeredBase.map (·.id)).Nodup ∧
      ((overlay layeredBase layeredExtra).map (·.id)).Nodup ∧
      (∀ r, (r ∈ overlay layeredBase layeredExtra ∧ r.id = "first") ↔
        r = assignmentRule "first" .sink []) ∧
      (∀ r, ¬ (r ∈ overlay layeredBase layeredExtra ∧ r.id = "fourth")) ∧
      ∀ id, Engine.make { rules := layeredBase, extra := layeredExtra } ≠
        failBecause ("duplicate rule id " ++ id) := by
  have hids : (layeredBase.map (·.id)).Nodup := by decide
  obtain ⟨hnodup, -, hlast, -, hmake⟩ := last_rule_wins layeredBase layeredExtra hids
  have hfirst : (layeredBase ++ layeredExtra).findRev? (·.id == "first") =
      some (assignmentRule "first" .sink []) := by decide
  have hfourth : (layeredBase ++ layeredExtra).findRev? (·.id == "fourth") =
      some { assignmentRule "fourth" .source [] with disabled := true } := by decide
  refine ⟨hids, hnodup, fun r => ?_, fun r => ?_, (hmake _ rfl rfl).1⟩
  · rw [hlast, hfirst, Option.some.injEq]
    constructor
    · rintro ⟨rfl, -⟩
      rfl
    · rintro rfl
      exact ⟨rfl, rfl⟩
  · rw [hlast, hfourth, Option.some.injEq]
    rintro ⟨rfl, henabled⟩
    cases henabled

end TaintFlow.Discovery
