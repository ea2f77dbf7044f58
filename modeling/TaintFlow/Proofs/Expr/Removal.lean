import TaintFlow.Expr.Sanitizers
import TaintFlow.Proofs.Expr.Calls

/-!
# Removing calls from an expression

The calls of sanitizers are removed from an expression by overwriting their ranges with blanks and
reading what is left.  On trees this deletes the calls: the callee and its group go, and the blanks
before the next token grow by the width of what was deleted.  So what is left of a rendered
expression is a rendered expression again, and the names it reads are those of the tree without the
calls.

## Main definitions

* `Tree.cut` — a tree without its outermost calls of some callees.
* `Tree.hollow` — a tree with nothing inside those calls.
* `Removal` — overwriting the outermost calls among some turns a text into another one.

## Main results

* `removal_render` — overwriting the calls in a rendered tree renders the tree without them.
* `residualNames_render` — the names that an expression reads once calls are removed.
-/

namespace TaintFlow.Expr

theorem blanks_add (n m : Nat) : blanks (n + m) = blanks n ++ blanks m :=
  List.replicate_append_replicate.symm

namespace Tree

/-! ### Deleting calls from a tree -/

/-- Code with `n` more blanks in front. -/
def widen {field spaced : Bool} (n : Nat) : Tree (.code field true) → Tree (.code field spaced)
  | .done gap => .done (n + gap)
  | .leaf gap l rest => .leaf ⟨n + gap.1, fun _ => Nat.add_pos_right n (gap.2 rfl)⟩ l rest
  | .group gap b inside rest =>
    .group ⟨n + gap.1, fun _ => Nat.add_pos_right n (gap.2 rfl)⟩ b inside rest
  | .template gap parts rest =>
    .template ⟨n + gap.1, fun _ => Nat.add_pos_right n (gap.2 rfl)⟩ parts rest
  | .format gap start d parts rest =>
    .format ⟨n + gap.1, fun _ => Nat.add_pos_right n (gap.2 rfl)⟩ start d parts rest

/-- Whether the call of a callee is to be removed.  A keyword calls nothing. -/
def removes (p : String → Bool) (callee : String) : Bool :=
  !keywords.contains callee && p callee

/-- Whether code begins with a group in round brackets. -/
def startsGroup {r : Region} (t : Tree r) : Bool :=
  (t.argumentsEnd? 0).isSome

/-- Whether a token and the code behind it begin with a call that is to be removed. -/
def startsCall (p : String → Bool) {field : Bool} (l : Leaf field)
    (rest : Tree (.code field true)) : Bool :=
  match l with
  | .chain n => removes p n.name && rest.startsGroup
  | _ => false

/-- Deletes the outermost calls of callees that satisfy `p`; `called` says that the group which the
tree begins with belongs to such a call, whose callee has been deleted.  The blanks before the next
token grow by what is deleted. -/
def cutFrom (p : String → Bool) (called : Bool) : {r : Region} → Tree r → Tree r
  | _, .done gap => .done gap
  | _, .leaf gap l rest =>
    if startsCall p l rest then (rest.cutFrom p true).widen (gap.1 + l.bytes.length)
    else .leaf gap l (rest.cutFrom p false)
  | _, .group gap b inside rest =>
    if called then (rest.cutFrom p false).widen (gap.1 + (inside.render.length + 3))
    else .group gap b (inside.cutFrom p false) (rest.cutFrom p false)
  | _, .template gap parts rest => .template gap (parts.cutFrom p false) (rest.cutFrom p false)
  | _, .format gap start d parts rest =>
    .format gap start d (parts.cutFrom p false) (rest.cutFrom p false)
  | _, .templateEnd text => .templateEnd text
  | _, .substitution text inside more =>
    .substitution text (inside.cutFrom p false) (more.cutFrom p false)
  | _, .formatEnd text => .formatEnd text
  | _, .field text inside tail more =>
    .field text (inside.cutFrom p false) tail (more.cutFrom p false)

/-- A tree without its outermost calls of callees that satisfy `p`. -/
def cut {r : Region} (t : Tree r) (p : String → Bool) : Tree r :=
  t.cutFrom p false

/-- Empties the outermost calls of callees that satisfy `p`; `called` as in `cutFrom`. -/
def hollowFrom (p : String → Bool) (called : Bool) : {r : Region} → Tree r → Tree r
  | _, .done gap => .done gap
  | _, .leaf gap l rest => .leaf gap l (rest.hollowFrom p (startsCall p l rest))
  | _, .group gap b inside rest =>
    .group gap b (if called then .done 0 else inside.hollowFrom p false) (rest.hollowFrom p false)
  | _, .template gap parts rest =>
    .template gap (parts.hollowFrom p false) (rest.hollowFrom p false)
  | _, .format gap start d parts rest =>
    .format gap start d (parts.hollowFrom p false) (rest.hollowFrom p false)
  | _, .templateEnd text => .templateEnd text
  | _, .substitution text inside more =>
    .substitution text (inside.hollowFrom p false) (more.hollowFrom p false)
  | _, .formatEnd text => .formatEnd text
  | _, .field text inside tail more =>
    .field text (inside.hollowFrom p false) tail (more.hollowFrom p false)

/-- A tree with nothing inside its outermost calls of callees that satisfy `p`. -/
def hollow {r : Region} (t : Tree r) (p : String → Bool) : Tree r :=
  t.hollowFrom p false

theorem render_widen {field spaced : Bool} (n : Nat) (t : Tree (.code field true)) :
    (t.widen n : Tree (.code field spaced)).render = blanks n ++ t.render := by
  cases t with
  | done gap => exact blanks_add n gap
  | leaf gap | group gap | template gap | format gap =>
    simp only [widen, render, blanks_add, List.append_assoc]

theorem names_widen {field spaced : Bool} (n : Nat) (t : Tree (.code field true)) :
    (t.widen n : Tree (.code field spaced)).names = t.names := by
  cases t with
  | done | group | template | format => rfl
  | leaf gap l rest => cases l <;> rfl

theorem startsGroup_hollowFrom (p : String → Bool) (called : Bool) {r : Region} (t : Tree r) :
    (t.hollowFrom p called).startsGroup = t.startsGroup := by
  cases t with
  | group gap b inside rest => cases b <;> rfl
  | done | leaf | template | format | templateEnd | substitution | formatEnd | field => rfl

theorem startsCall_hollowFrom (p : String → Bool) (called : Bool) {field : Bool} (l : Leaf field)
    (rest : Tree (.code field true)) :
    startsCall p l (rest.hollowFrom p called) = startsCall p l rest := by
  cases l with
  | chain n => rw [startsCall, startsCall, startsGroup_hollowFrom]
  | number | mark | quoted => rfl

theorem names_leaf {field spaced : Bool} (gap : Gap spaced) (l : Leaf field)
    {rest rest' : Tree (.code field true)} (h : rest.names = rest'.names) :
    (Tree.leaf gap l rest).names = (Tree.leaf gap l rest').names := by
  cases l with
  | chain n => rw [names, names, h]
  | number | mark | quoted => exact h

/-- What stands inside the calls that are cut does not matter. -/
theorem names_cutFrom_hollowFrom (p : String → Bool) {r : Region} (t : Tree r) (called : Bool) :
    ((t.hollowFrom p called).cutFrom p called).names = (t.cutFrom p called).names := by
  induction t generalizing called with
  | done | templateEnd | formatEnd => rfl
  | leaf gap l rest ih =>
    rw [hollowFrom, cutFrom, cutFrom, startsCall_hollowFrom]
    cases startsCall p l rest with
    | true => rw [if_pos rfl, if_pos rfl, names_widen, names_widen, ih]
    | false =>
      rw [if_neg (by decide), if_neg (by decide)]
      exact names_leaf gap l (ih false)
  | group gap b inside rest ihInside ihRest =>
    cases called with
    | true =>
      simp only [hollowFrom, cutFrom, if_true, names_widen, ihRest]
    | false =>
      rw [hollowFrom, cutFrom, cutFrom, if_neg (by decide), if_neg (by decide), if_neg (by decide),
        names, names, ihInside, ihRest]
  | template gap parts rest ihParts ihRest =>
    rw [hollowFrom, cutFrom, cutFrom, names, names, ihParts, ihRest]
  | format gap letters d parts rest ihParts ihRest =>
    rw [hollowFrom, cutFrom, cutFrom, names, names, ihParts, ihRest]
  | substitution text inside more ihInside ihMore =>
    rw [hollowFrom, cutFrom, cutFrom, names, names, ihInside, ihMore]
  | field text inside tail more ihInside ihMore =>
    rw [hollowFrom, cutFrom, cutFrom, names, names, ihInside, ihMore]

/-- The calls in the code of a tree whose rendering begins at `start`. -/
def calls (start : Nat) {r : Region} (t : Tree r) : List Call :=
  (t.occurrences start).filterMap (·.call?)

end Tree

/-! ### Overwriting spans -/

theorem blankFrom_append (spans : List Span) (start : Nat) (bs cs : List UInt8) :
    blankFrom spans start (bs ++ cs) =
      blankFrom spans start bs ++ blankFrom spans (start + bs.length) cs := by
  induction bs generalizing start with
  | nil => rfl
  | cons b bs ih =>
    rw [List.cons_append, blankFrom, blankFrom, ih, List.length_cons, List.cons_append,
      Nat.add_right_comm, Nat.add_assoc]

/-- Spans that end before a text or begin behind it leave it as it is. -/
theorem blankFrom_apart {before after : List Span} {start : Nat} {bs : List UInt8}
    (hbefore : ∀ s ∈ before, s.stop ≤ start) (hafter : ∀ s ∈ after, start + bs.length ≤ s.start) :
    blankFrom (before ++ after) start bs = bs := by
  induction bs generalizing start with
  | nil => rfl
  | cons b bs ih =>
    have houtside : ((before ++ after).any fun s => s.start ≤ start && start < s.stop) = false := by
      rw [List.any_eq_false]
      intro s hs
      rcases List.mem_append.mp hs with hs | hs
      · have := hbefore s hs
        simp
        omega
      · have := hafter s hs
        simp at this ⊢
        omega
    rw [blankFrom, houtside, ih (fun s hs => Nat.le_succ_of_le (hbefore s hs)) fun s hs => by
      have := hafter s hs
      simp at this
      omega]
    rfl

/-- A text inside a span is overwritten. -/
theorem blankFrom_covered {spans : List Span} {s : Span} (hs : s ∈ spans) {start : Nat}
    {bs : List UInt8} (hstart : s.start ≤ start) (hstop : start + bs.length ≤ s.stop) :
    blankFrom spans start bs = blanks bs.length := by
  induction bs generalizing start with
  | nil => rfl
  | cons b bs ih =>
    rw [List.length_cons] at hstop
    have hinside : (spans.any fun s => s.start ≤ start && start < s.stop) = true :=
      List.any_eq_true.mpr ⟨s, hs, by simp; omega⟩
    rw [blankFrom, hinside, ih (by omega) (by omega)]
    rfl

end TaintFlow.Expr

namespace TaintFlow.Sanitizers

open TaintFlow.Expr

/-! ### Choosing the outermost calls -/

/-- A call behind all chosen ones is chosen if it is to be removed. -/
theorem cutCalls_cons_of_apart {q : Call → Bool} {done : List Call} {c : Call}
    (hdone : ∀ d ∈ done, d.span.stop ≤ c.span.start) (hc : c.span.start < c.span.stop)
    (cs : List Call) :
    cutCalls q done (c :: cs) = cutCalls q (if q c then done ++ [c] else done) cs := by
  have hfree : covered (done.map (·.span)) c.span = false := by
    rw [covered, List.any_map, List.any_eq_false]
    intro d hd
    have := hdone d hd
    simp
    omega
  rw [cutCalls, hfree]
  cases q c <;> rfl

/-- Calls inside a chosen one are passed over. -/
theorem cutCalls_append_of_covered {q : Call → Bool} {done : List Call} {d : Call} (hd : d ∈ done)
    {cs : List Call}
    (hcs : ∀ c ∈ cs, d.span.start ≤ c.span.start ∧ c.span.stop ≤ d.span.stop) (more : List Call) :
    cutCalls q done (cs ++ more) = cutCalls q done more := by
  induction cs with
  | nil => rfl
  | cons c cs ih =>
    obtain ⟨hc, hcs⟩ := List.forall_mem_cons.mp hcs
    have hcovered : covered (done.map (·.span)) c.span = true := by
      rw [covered, List.any_map, List.any_eq_true]
      exact ⟨d, hd, by simpa using hc⟩
    rw [List.cons_append, cutCalls, hcovered, ← ih hcs]
    rfl

end TaintFlow.Sanitizers

namespace TaintFlow.Expr

open TaintFlow.Sanitizers

/-! ### Removing calls from a text -/

/-- The bytes from `start` on hold the calls `cs`, and overwriting the outermost ones among them
that satisfy `q` leaves `left`. -/
structure Removal (q : Call → Bool) (start : Nat) (bs left : List UInt8) (cs : List Call) :
    Prop where
  within : ∀ c ∈ cs, start ≤ c.span.start ∧ c.span.start < c.span.stop ∧
    c.span.stop ≤ start + bs.length
  leaves : ∃ out ⊆ cs,
    (∀ done more, (∀ d ∈ done, d.span.stop ≤ start) →
      cutCalls q done (cs ++ more) = cutCalls q (done ++ out) more) ∧
    (∀ before after, (∀ s ∈ before, s.stop ≤ start) → (∀ s ∈ after, start + bs.length ≤ s.start) →
      blankFrom (before ++ (out.map (·.span) ++ after)) start bs = left)

namespace Removal

variable {q : Call → Bool} {start : Nat}

/-- Nothing is removed from a text without calls. -/
theorem text (bs : List UInt8) : Removal q start bs bs [] := by
  refine ⟨(fun c hc => nomatch hc), [], List.Subset.refl [], fun done more _ => ?_,
    fun before after hb ha => ?_⟩
  · rw [List.append_nil, List.nil_append]
  · exact blankFrom_apart hb ha

/-- Calls are removed from two texts one after the other. -/
theorem append {bs left bs' left' : List UInt8} {cs cs' : List Call}
    (h : Removal q start bs left cs) (h' : Removal q (start + bs.length) bs' left' cs') :
    Removal q start (bs ++ bs') (left ++ left') (cs ++ cs') := by
  obtain ⟨hwithin, out, hout, hchosen, hleft⟩ := h
  obtain ⟨hwithin', out', hout', hchosen', hleft'⟩ := h'
  refine ⟨fun c hc => ?_, out ++ out', ?_, fun done more hdone => ?_, fun before after hb ha => ?_⟩
  · rw [List.length_append]
    rcases List.mem_append.mp hc with hc | hc
    · have := hwithin c hc
      omega
    · have := hwithin' c hc
      omega
  · exact List.append_subset.mpr
      ⟨fun c hc => List.mem_append_left _ (hout hc), fun c hc => List.mem_append_right _ (hout' hc)⟩
  · rw [List.append_assoc, hchosen _ _ hdone, hchosen', List.append_assoc]
    intro d hd
    rcases List.mem_append.mp hd with hd | hd
    · exact Nat.le_add_right_of_le (hdone d hd)
    · exact (hwithin d (hout hd)).2.2
  · rw [List.length_append] at ha
    -- the spans of each text lie behind or before the other one
    have hfirst := hleft before (out'.map (·.span) ++ after) hb fun s hs => by
      rcases List.mem_append.mp hs with hs | hs
      · obtain ⟨c, hc, rfl⟩ := List.mem_map.mp hs
        exact (hwithin' c (hout' hc)).1
      · have := ha s hs
        omega
    have hsecond := hleft' (before ++ out.map (·.span)) after
      (fun s hs => by
        rcases List.mem_append.mp hs with hs | hs
        · exact Nat.le_add_right_of_le (hb s hs)
        · obtain ⟨c, hc, rfl⟩ := List.mem_map.mp hs
          exact (hwithin c (hout hc)).2.2)
      fun s hs => by
        have := ha s hs
        omega
    rw [blankFrom_append, List.map_append, List.append_assoc, hfirst, ← List.append_assoc, hsecond]

/-- Calls are removed from two texts with something before each of them. -/
theorem between {bs left bs' left' : List UInt8} {cs cs' : Nat → List Call}
    (h : ∀ start, Removal q start bs left (cs start))
    (h' : ∀ start, Removal q start bs' left' (cs' start)) (front middle : List UInt8)
    (start : Nat) :
    Removal q start (front ++ (bs ++ (middle ++ bs'))) (front ++ (left ++ (middle ++ left')))
      (cs (start + front.length) ++
        cs' (start + front.length + bs.length + middle.length)) :=
  (text front).append ((h _).append ((text middle).append (h' _)))

/-- A call that is kept changes nothing for those inside it and behind it. -/
theorem keep {bs left : List UInt8} {cs : List Call} {c : Call} (hc : q c = false)
    (hstart : start ≤ c.span.start) (hlt : c.span.start < c.span.stop)
    (hstop : c.span.stop ≤ start + bs.length) (h : Removal q start bs left cs) :
    Removal q start bs left (c :: cs) := by
  obtain ⟨hwithin, out, hout, hchosen, hleft⟩ := h
  refine ⟨List.forall_mem_cons.mpr ⟨⟨hstart, hlt, hstop⟩, hwithin⟩, out,
    List.subset_cons_of_subset c hout, fun done more hdone => ?_, hleft⟩
  rw [List.cons_append, cutCalls_cons_of_apart (fun d hd => Nat.le_trans (hdone d hd) hstart) hlt,
    hc, if_neg (by decide), hchosen done more hdone]

/-- A call that is removed is overwritten as a whole, whatever calls stand in it. -/
theorem call {bs : List UInt8} {cs : List Call} {name : String}
    (hq : q ⟨name, ⟨start, start + bs.length⟩⟩ = true) (hbs : 0 < bs.length)
    (hcs : ∀ c ∈ cs, start ≤ c.span.start ∧ c.span.start < c.span.stop ∧
      c.span.stop ≤ start + bs.length) :
    Removal q start bs (blanks bs.length) (⟨name, ⟨start, start + bs.length⟩⟩ :: cs) := by
  refine ⟨List.forall_mem_cons.mpr ⟨⟨Nat.le_refl _, ?_, Nat.le_refl _⟩, hcs⟩, [_],
    List.cons_subset_cons _ (List.nil_subset _), fun done more hdone => ?_,
    fun before after hb ha => ?_⟩
  · exact Nat.lt_add_of_pos_right hbs
  · rw [List.cons_append, cutCalls_cons_of_apart hdone (Nat.lt_add_of_pos_right hbs), hq,
      if_pos rfl]
    exact cutCalls_append_of_covered (List.mem_append_right done List.mem_cons_self)
      (fun c hc => ⟨(hcs c hc).1, (hcs c hc).2.2⟩) more
  · exact blankFrom_covered (List.mem_append_right before List.mem_cons_self) (Nat.le_refl _)
      (Nat.le_refl _)

end Removal

theorem isSome_argumentsEnd? {r : Region} (t : Tree r) (start : Nat) :
    (t.argumentsEnd? start).isSome = t.startsGroup := by
  cases t with
  | done | leaf | template | format | templateEnd | substitution | formatEnd | field => rfl
  | group gap b inside rest => cases b <;> rfl

/-- The group that code begins with ends inside the code. -/
theorem argumentsEnd?_le {r : Region} {t : Tree r} {start stop : Nat}
    (h : t.argumentsEnd? start = some stop) : start < stop ∧ stop ≤ start + t.render.length := by
  cases t with
  | done | leaf | template | format | templateEnd | substitution | formatEnd | field => cases h
  | group gap b inside rest =>
    cases b with
    | square | curly => cases h
    | round =>
      obtain rfl := Option.some.inj h
      simp [Tree.render]
      omega

/-- The call that a chain begins, if it does. -/
theorem calls_chain {field spaced : Bool} (start : Nat) (gap : Gap spaced) (n : DottedName)
    (rest : Tree (.code field true)) :
    (Tree.leaf gap (.chain n) rest).calls start =
      (Occurrence.call? ⟨⟨n.name, ⟨start + gap.1, start + gap.1 + n.bytes.length⟩⟩,
        rest.argumentsEnd? (start + gap.1 + n.bytes.length)⟩).toList ++
        rest.calls (start + gap.1 + n.bytes.length) := by
  rw [Tree.calls, Tree.occurrences, List.filterMap_append]
  rfl

/-- A token that does not begin a call to be removed stays. -/
theorem Removal.leaf {p : String → Bool} {field spaced : Bool} {start : Nat} (gap : Gap spaced)
    (l : Leaf field) {rest left : Tree (.code field true)}
    (hl : Tree.startsCall p l rest = false)
    (h : Removal (fun c => p c.name) (start + gap.1 + l.bytes.length) rest.render left.render
      (rest.calls (start + gap.1 + l.bytes.length))) :
    Removal (fun c => p c.name) start (Tree.leaf gap l rest).render (Tree.leaf gap l left).render
      ((Tree.leaf gap l rest).calls start) := by
  have hrest : Removal (fun c => p c.name) start (Tree.leaf gap l rest).render
      (Tree.leaf gap l left).render (rest.calls (start + gap.1 + l.bytes.length)) := by
    have hstart : start + gap.1 + l.bytes.length = start + (blanks gap.1 ++ l.bytes).length := by
      simp [Nat.add_assoc]
    rw [hstart] at h ⊢
    simpa [Tree.render] using (Removal.text (blanks gap.1 ++ l.bytes)).append h
  cases l with
  | number | mark | quoted => exact hrest
  | chain n =>
    rw [calls_chain, Occurrence.call?]
    cases hkeyword : keywords.contains n.name with
    | true => exact hrest
    | false =>
      cases hstop : rest.argumentsEnd? (start + gap.1 + n.bytes.length) with
      | none => exact hrest
      | some stop =>
        have hkept : p n.name = false := by
          rw [Tree.startsCall, Tree.removes, hkeyword, ← isSome_argumentsEnd?, hstop] at hl
          simpa using hl
        have hbounds := argumentsEnd?_le hstop
        refine hrest.keep hkept (Nat.le_add_right _ _) ?_ ?_
        · show start + gap.1 < stop
          omega
        · show stop ≤ _
          simp [Tree.render, Leaf.bytes]
          omega

/-- A call to be removed is overwritten together with the blanks before it. -/
theorem Removal.leaf_call {p : String → Bool} {field spaced : Bool} {start : Nat} (gap : Gap spaced)
    (l : Leaf field) {rest left : Tree (.code field true)}
    (hl : Tree.startsCall p l rest = true)
    (h : ∀ name stop, p name = true →
      rest.argumentsEnd? (start + gap.1 + l.bytes.length) = some stop →
      Removal (fun c => p c.name) (start + gap.1) (l.bytes ++ rest.render)
        (blanks l.bytes.length ++ left.render)
        (⟨name, ⟨start + gap.1, stop⟩⟩ :: rest.calls (start + gap.1 + l.bytes.length))) :
    Removal (fun c => p c.name) start (Tree.leaf gap l rest).render
      (left.widen (gap.1 + l.bytes.length) : Tree (.code field spaced)).render
      ((Tree.leaf gap l rest).calls start) := by
  cases l with
  | number | mark | quoted => cases hl
  | chain n =>
    obtain ⟨hremoves, hgroup⟩ := (Bool.and_eq_true _ _).mp hl
    obtain ⟨hkeyword, hp⟩ := (Bool.and_eq_true _ _).mp hremoves
    rw [← isSome_argumentsEnd? rest (start + gap.1 + n.bytes.length)] at hgroup
    obtain ⟨stop, hstop⟩ := Option.isSome_iff_exists.mp hgroup
    have hcall : (Tree.leaf gap (.chain n) rest).calls start =
        ⟨n.name, ⟨start + gap.1, stop⟩⟩ :: rest.calls (start + gap.1 + n.bytes.length) := by
      rw [calls_chain, Occurrence.call?, hstop, if_neg (by simpa using hkeyword)]
      rfl
    have hgap : start + (blanks gap.1).length = start + gap.1 := by rw [length_blanks]
    have happend := (Removal.text (blanks gap.1)).append (by
      rw [hgap]
      exact h n.name stop hp hstop)
    rw [hcall, Tree.render_widen, blanks_add, List.append_assoc]
    exact happend

/-- A group that belongs to a call to be removed is overwritten together with the callee. -/
theorem Removal.arguments {p : String → Bool} {field spaced : Bool} {start : Nat} (w : List UInt8)
    (gap : Gap spaced) (b : Bracket) {inside inside' : Tree (.code false true)}
    {rest left : Tree (.code field true)} {name : String} {stop : Nat} (hp : p name = true)
    (hstop : (Tree.group gap b inside rest).argumentsEnd? (start + w.length) = some stop)
    (hinside : ∀ start, Removal (fun c => p c.name) start inside.render inside'.render
      (inside.calls start))
    (hrest : ∀ start, Removal (fun c => p c.name) start rest.render left.render
      (rest.calls start)) :
    Removal (fun c => p c.name) start (w ++ (Tree.group gap b inside rest).render)
      (blanks w.length ++
        (left.widen (gap.1 + (inside.render.length + 3)) : Tree (.code field spaced)).render)
      (⟨name, ⟨start, stop⟩⟩ :: (Tree.group gap b inside rest).calls (start + w.length)) := by
  cases b with
  | square | curly => cases hstop
  | round =>
    -- the bytes from the callee to the closing parenthesis
    let bytes := w ++ (blanks gap.1 ++ (openParen :: (inside.render ++ [space, closeParen])))
    have hlength : bytes.length = w.length + (gap.1 + (inside.render.length + 3)) := by
      simp [bytes]
    have hstop : stop = start + bytes.length := by
      rw [hlength, ← Option.some.inj hstop]
      omega
    have hwithin : ∀ c ∈ inside.calls (start + w.length + gap.1 + 1), start ≤ c.span.start ∧
        c.span.start < c.span.stop ∧ c.span.stop ≤ start + bytes.length := by
      intro c hc
      have := (hinside _).within c hc
      omega
    have hcall : Removal (fun c => p c.name) start bytes (blanks bytes.length)
        (⟨name, ⟨start, stop⟩⟩ :: inside.calls (start + w.length + gap.1 + 1)) := by
      rw [hstop]
      exact Removal.call hp (by omega) hwithin
    have hbytes : w ++ (Tree.group gap .round inside rest).render = bytes ++ rest.render := by
      simp [Tree.render, Bracket.opening, Bracket.closing, bytes]
    have hcalls : (Tree.group gap .round inside rest).calls (start + w.length) =
        inside.calls (start + w.length + gap.1 + 1) ++ rest.calls (start + bytes.length) := by
      have hnext : start + w.length + gap.1 + 1 + inside.render.length + 2 =
          start + bytes.length := by omega
      rw [← hnext]
      exact List.filterMap_append
    rw [hbytes, hcalls, Tree.render_widen, ← List.append_assoc, ← blanks_add, ← hlength]
    exact hcall.append (hrest _)

/-- **Overwriting calls deletes them from the tree**: the outermost calls of callees that satisfy
`p`, overwritten in the rendering of a tree, leave the rendering of the tree without them. -/
theorem removal_render (p : String → Bool) {r : Region} (t : Tree r) :
    (∀ start, Removal (fun c => p c.name) start t.render (t.cutFrom p false).render
      (t.calls start)) ∧
    -- the tree begins with the group of a call whose callee `w` stands in front
    (∀ w start name stop, p name = true → t.argumentsEnd? (start + w.length) = some stop →
      Removal (fun c => p c.name) start (w ++ t.render)
        (blanks w.length ++ (t.cutFrom p true).render)
        (⟨name, ⟨start, stop⟩⟩ :: t.calls (start + w.length))) := by
  induction t with
  | done gap => exact ⟨fun start => Removal.text _, fun _ _ _ _ _ h => by cases h⟩
  | templateEnd text => exact ⟨fun start => Removal.text _, fun _ _ _ _ _ h => by cases h⟩
  | formatEnd text => exact ⟨fun start => Removal.text _, fun _ _ _ _ _ h => by cases h⟩
  | leaf gap l rest ih =>
    refine ⟨fun start => ?_, fun _ _ _ _ _ h => by cases h⟩
    rw [Tree.cutFrom]
    cases hl : Tree.startsCall p l rest with
    | true =>
      exact Removal.leaf_call gap l hl fun name stop hp hstop =>
        ih.2 l.bytes (start + gap.1) name stop hp hstop
    | false => exact Removal.leaf gap l hl (ih.1 _)
  | group gap b inside rest ihInside ihRest =>
    refine ⟨fun start => ?_, fun w start name stop hp hstop => ?_⟩
    · have h := Removal.between ihInside.1 ihRest.1 (blanks gap.1 ++ [b.opening])
        [space, b.closing] start
      simpa [Tree.render, Tree.cutFrom, Tree.calls, Tree.occurrences, Nat.add_assoc] using h
    · exact Removal.arguments w gap b hp hstop ihInside.1 ihRest.1
  | template gap parts rest ihParts ihRest =>
    refine ⟨fun start => ?_, fun _ _ _ _ _ h => by cases h⟩
    have h := Removal.between ihParts.1 ihRest.1 (blanks gap.1 ++ [backquote]) [] start
    simpa [Tree.render, Tree.cutFrom, Tree.calls, Tree.occurrences, Nat.add_assoc] using h
  | format gap letters d parts rest ihParts ihRest =>
    refine ⟨fun start => ?_, fun _ _ _ _ _ h => by cases h⟩
    have h := Removal.between ihParts.1 ihRest.1
      (blanks gap.1 ++ (letters.letters ++ d.bytes)) [] start
    simpa [Tree.render, Tree.cutFrom, Tree.calls, Tree.occurrences, Nat.add_assoc] using h
  | substitution text inside more ihInside ihMore =>
    refine ⟨fun start => ?_, fun _ _ _ _ _ h => by cases h⟩
    have h := Removal.between ihInside.1 ihMore.1
      (text.bytes ++ [dollar, openBrace]) [closeBrace] start
    simpa [Tree.render, Tree.cutFrom, Tree.calls, Tree.occurrences, Nat.add_assoc] using h
  | field text inside tail more ihInside ihMore =>
    refine ⟨fun start => ?_, fun _ _ _ _ _ h => by cases h⟩
    have h := Removal.between ihInside.1 ihMore.1 (text.bytes ++ [openBrace])
      (tail.bytes ++ [closeBrace]) start
    simpa [Tree.render, Tree.cutFrom, Tree.calls, Tree.occurrences, Nat.add_assoc] using h

end TaintFlow.Expr

namespace TaintFlow.Sanitizers

open TaintFlow.Expr

/-- What is left of a rendered expression when calls are removed from it reads the names of the tree
without them. -/
theorem residualNames_eq_valueNames (s : Sanitizers) (t : Expression) (file : String) (line : Int)
    (cut : String → Bool) :
    s.residualNames t.render file line (fun c => cut c.name) =
      (t.cut fun callee => s.cleans callee file line || cut callee).valueNames := by
  obtain ⟨out, -, hchosen, hleft⟩ :=
    ((removal_render (fun callee => s.cleans callee file line || cut callee) t).1 0).leaves
  have hremoved : s.removedCalls t.render file line (fun c => cut c.name) = out := by
    have h := hchosen [] [] (fun d hd => nomatch hd)
    rw [List.append_nil] at h
    rw [removedCalls, calls_render]
    exact h
  have hblank : blank t.render (out.map (·.span)) =
      (t.cut fun callee => s.cleans callee file line || cut callee).render := by
    have h := hleft [] [] (fun s hs => nomatch hs) (fun s hs => nomatch hs)
    rwa [List.append_nil] at h
  rw [residualNames, hremoved, hblank, identifiers_render]

/-- **Sanitizers remove exactly the value they cover**: the names left in a rendered expression are
the distinct names of the tree from which the outermost calls of sanitizers, and of callees that
`cut` accepts, are deleted.  What stands inside those calls does not matter. -/
theorem residualNames_render (s : Sanitizers) (t : Expression) (file : String) (line : Int)
    (cut : String → Bool) :
    let removed := fun callee => s.cleans callee file line || cut callee
    s.residualNames t.render file line (fun c => cut c.name) = (t.cut removed).valueNames ∧
      s.residualNames t.render file line (fun c => cut c.name) =
        s.residualNames (t.hollow removed).render file line (fun c => cut c.name) := by
  intro removed
  refine ⟨residualNames_eq_valueNames s t file line cut, ?_⟩
  rw [residualNames_eq_valueNames, residualNames_eq_valueNames, Tree.valueNames, Tree.valueNames,
    Tree.cut, Tree.cut, Tree.hollow, Tree.names_cutFrom_hollowFrom]

end TaintFlow.Sanitizers
