import TaintFlow.Proofs.Flow.ChainOrder
import TaintFlow.Proofs.Flow.Chains

/-!
# Chains as shared cells

Chains grow at their newest end and share what stands before it.  So they may be kept as linked
cells: each holds a step, a link to the cell before, and for the chain that ends there the number
of steps, the depth and whether steps were left out.  A comparison of cells may stop as soon as
both sides come to the same cell.  Cells are told apart by their addresses alone, hence this is
right only if every address stands for one cell; a new chain keeps that up, although the depth of a
chain is written after its cells were made, because that cell is new.

## Main definitions

* `Link` — a link to a cell, and the operations of chains on cells.
* `Link.compare` — the order of chains, with the shortcuts.
* `Built` — cells that come about by these operations, each with the chain it stands for.

## Main results

* `Built.sound` — every address stands for one cell, and cells count their steps.
* `compare_eq` — the shortcuts make no difference.
* `chain_order_laws` — the order of chains is total, is kept by a further step, and is the one that
  comparing cells gives.
-/

namespace TaintFlow.Flow

/-- A link to a cell, or to nothing.  The cell has an address, a step, a link to the cell before,
and the number of steps, the depth and the truncation of the chain that ends there. -/
inductive Link where
  | nothing
  | cell (address : Nat) (step : Step) (before : Link) (length depth : Nat) (truncated : Bool)
  deriving DecidableEq, Repr

namespace Link

/-- The address of the cell. -/
def address? : Link → Option Nat
  | nothing => none
  | cell address .. => some address

/-- The number of steps that the cell counts. -/
def length : Link → Nat
  | nothing => 0
  | cell _ _ _ length _ _ => length

/-- The number of calls that the chain crosses. -/
def depth : Link → Nat
  | nothing => 0
  | cell _ _ _ _ depth _ => depth

/-- Whether steps of the chain were left out. -/
def truncated : Link → Bool
  | nothing => false
  | cell _ _ _ _ _ truncated => truncated

/-- The cell and all cells before it. -/
def cells : Link → List Link
  | nothing => []
  | cell address step before length depth truncated =>
    cell address step before length depth truncated :: before.cells

/-- The steps of the cell and of those before it. -/
def newestFirst : Link → List Step
  | nothing => []
  | cell _ step before .. => step :: before.newestFirst

/-- The chain that ends at the cell. -/
def chain? : Link → Option Chain
  | nothing => none
  | cell _ step before _ depth truncated =>
    some { last := step, before := before.newestFirst, depth, truncated }

/-! ### Operations -/

/-- A cell for a first step, at the address `next`. -/
def single (next : Nat) (s : Step) : Link :=
  cell next s nothing 1 0 false

/-- A cell for one more step. -/
def push (next : Nat) (p : Link) (s : Step) : Link :=
  match p with
  | nothing => single next s
  | cell _ _ _ length depth truncated => cell next s p (length + 1) depth truncated

/-- Cells for one step after another. -/
def pushAll (next : Nat) (p : Link) : List Step → Link
  | [] => p
  | s :: ss => pushAll (next + 1) (p.push next s) ss

/-- Writes the depth and the truncation into the cell. -/
def write (p : Link) (depth : Nat) (truncated : Bool) : Link :=
  match p with
  | nothing => nothing
  | cell address step before length _ _ => cell address step before length depth truncated

/-- Writes the steps into a list, from the position before `i` downwards; fails when there are too
few positions. -/
def listInto (out : List Step) : Nat → Link → Option (List Step)
  | _, nothing => some out
  | 0, cell .. => none
  | i + 1, cell _ step before .. => listInto (out.set i step) i before

/-- The steps of a chain, oldest first, in a list as long as the cell counts. -/
def steps? (p : Link) : Option (List Step) :=
  listInto (List.replicate p.length default) p.length p

/-- The first step, at the cell that has none before it. -/
def first? : Link → Option Step
  | nothing => none
  | cell _ step nothing .. => some step
  | cell _ _ before .. => before.first?

/-- Cells for the steps of another chain, and the next free address. -/
def append (next : Nat) (p tail : Link) (depth : Nat) : Option (Link × Nat) :=
  tail.steps?.map fun steps =>
    ((p.pushAll next steps).write depth (p.truncated || tail.truncated), next + steps.length)

/-- Cells for a chain that goes on where steps were left out, and the next free address. -/
def cut (maxHops next : Nat) (p : Link) (mark last : Step) : Link × Nat :=
  (((p.push next mark).push (next + 1) last).write (maxHops + 1) true, next + 2)

/-- Cells for a chain of the caller, the call and a chain of the callee, and the next free
address. -/
def compose (maxHops next : Nat) (caller : Link) (call : Step) (callee : Link) :
    Option (Link × Nat) :=
  let depth := caller.depth + callee.depth + 1
  let called := caller.push next call
  match callee with
  | nothing => none
  | cell _ last .. =>
    if depth ≤ maxHops then called.append (next + 1) callee depth
    else some (called.cut maxHops (next + 1) (truncationMark call.line call.file call.detail) last)

/-- Cells for a chain of the callee seen from its caller, and the next free address.  The new chain
shares the cells before the last one. -/
def lift (maxHops next : Nat) (callee : Link) (site : CallSite) : Option (Link × Nat) :=
  match callee with
  | nothing => none
  | cell _ last before length depth truncated =>
    if depth + 1 ≤ maxHops then some (cell next last before length (depth + 1) truncated, next + 1)
    else callee.first?.map fun first =>
      (single next first).cut maxHops (next + 1) (truncationMark site.line site.file site.name) last

/-! ### Comparing -/

/-- Compares step by step, up to a cell that both chains share. -/
def compareSteps : Link → Link → Ordering
  | cell x s p .., cell y t q .. =>
    if x == y then .eq else (Flow.compareSteps s t).then (compareSteps p q)
  | _, _ => .eq

/-- The order of chains on their cells. -/
def compare (p q : Link) : Ordering :=
  if p.address? == q.address? then .eq
  else if p.truncated != q.truncated then if p.truncated then .gt else .lt
  else (Ord.compare p.length q.length).then <|
    (Ord.compare p.depth q.depth).then (p.compareSteps q)

/-- Whether a chain is better than the one held so far, if any. -/
def better (candidate current : Link) : Bool :=
  current == nothing || candidate.compare current == .lt

end Link

/-- Cells that come about by the operations of chains, each with the chain that it stands for, and
the next free address. -/
inductive Built : List (Link × Chain) → Nat → Prop
  | start : Built [] 0
  | single {store next} (s : Step) : Built store next →
    Built ((.single next s, .single s) :: store) (next + 1)
  | push {store next p c} (s : Step) : Built store next → (p, c) ∈ store →
    Built ((p.push next s, c.push s) :: store) (next + 1)
  | append {store next p c tail d q next'} (depth : Nat) : Built store next → (p, c) ∈ store →
    (tail, d) ∈ store → p.append next tail depth = some (q, next') →
    Built ((q, c.append d depth) :: store) next'
  | compose {store next p c tail d q next'} (scope : Scope) (call : Step) : Built store next →
    (p, c) ∈ store → (tail, d) ∈ store →
    p.compose scope.maxHops next call tail = some (q, next') →
    Built ((q, scope.compose c call d) :: store) next'
  | lift {store next p c q next'} (scope : Scope) (site : CallSite) : Built store next →
    (p, c) ∈ store → p.lift scope.maxHops next site = some (q, next') →
    Built ((q, scope.lift c site) :: store) next'

namespace Link

variable {store : List (Link × Chain)} {next n : Nat} {p q tail : Link} {c d : Chain}

/-! ### The steps of cells -/

theorem push_eq (n : Nat) (p : Link) (s : Step) :
    p.push n s = cell n s p (p.length + 1) p.depth p.truncated := by
  cases p <;> rfl

theorem pushAll_concat (n : Nat) (p : Link) (ss : List Step) (s : Step) :
    p.pushAll n (ss ++ [s]) = (p.pushAll n ss).push (n + ss.length) s := by
  induction ss generalizing n p with
  | nil => rfl
  | cons t ss ih =>
    rw [List.cons_append, pushAll, ih, pushAll, List.length_cons, Nat.add_right_comm]
    rfl

theorem newestFirst_pushAll (n : Nat) (p : Link) (ss : List Step) :
    (p.pushAll n ss).newestFirst = ss.reverse ++ p.newestFirst := by
  induction ss generalizing n p with
  | nil => rfl
  | cons s ss ih =>
    rw [pushAll, ih, push_eq, newestFirst, List.reverse_cons, List.append_assoc]
    rfl

theorem listInto_eq (p : Link) : ∀ {out : List Step} {i : Nat}, i = p.newestFirst.length →
    i ≤ out.length → listInto out i p = some (p.newestFirst.reverse ++ out.drop i) := by
  induction p with
  | nothing =>
    rintro out i rfl -
    rfl
  | cell a s before l d t ih =>
    rintro out i rfl hle
    have hlt : before.newestFirst.length < out.length := hle
    have hdrop : (out.set before.newestFirst.length s).drop before.newestFirst.length =
        s :: out.drop (before.newestFirst.length + 1) := by
      rw [List.drop_set, if_neg (Nat.lt_irrefl _), Nat.sub_self, List.drop_eq_getElem_cons hlt,
        List.set_cons_zero]
    rw [newestFirst, List.length_cons, listInto, ih rfl, hdrop, List.reverse_cons,
      List.append_assoc]
    · rfl
    · rw [List.length_set]
      exact Nat.le_of_lt hlt

/-- A cell that counts its steps lists them. -/
theorem steps?_eq (h : p.length = p.newestFirst.length) :
    p.steps? = some p.newestFirst.reverse := by
  have hfits : p.length ≤ (List.replicate p.length (default : Step)).length :=
    Nat.le_of_eq List.length_replicate.symm
  rw [steps?, listInto_eq p h hfits, List.drop_replicate, Nat.sub_self, List.replicate_zero,
    List.append_nil]

theorem first?_eq (p : Link) : p.first? = p.newestFirst.getLast? := by
  induction p with
  | nothing => rfl
  | cell a s before l d t ih =>
    cases before with
    | nothing => rfl
    | cell a' s' before' l' d' t' =>
      show (cell a' s' before' l' d' t').first? = (s :: s' :: before'.newestFirst).getLast?
      rw [ih, List.getLast?_cons_cons]
      rfl

/-- What a cell says is what its chain says. -/
theorem of_chain? (h : p.chain? = some c) :
    p.newestFirst = c.newestFirst ∧ p.depth = c.depth ∧ p.truncated = c.truncated := by
  cases p with
  | nothing => cases h
  | cell a s before l d t =>
    cases h
    exact ⟨rfl, rfl, rfl⟩

theorem chain?_push (n : Nat) (h : p.chain? = some c) (s : Step) :
    (p.push n s).chain? = some (c.push s) := by
  obtain ⟨hsteps, hdepth, htruncated⟩ := of_chain? h
  rw [push_eq, chain?, hsteps, hdepth, htruncated]
  rfl

/-! ### Addresses -/

/-- What holds of a link that was made at addresses from `next` up to `n` on top of a store: its
cells are old or have such addresses, no address stands for two of them, and each counts its
steps. -/
structure Grown (store : List (Link × Chain)) (next n : Nat) (p : Link) : Prop where
  origin : ∀ x ∈ p.cells, (∃ q c, (q, c) ∈ store ∧ x ∈ q.cells) ∨
    ∃ a, x.address? = some a ∧ next ≤ a
  below : ∀ x ∈ p.cells, ∀ a, x.address? = some a → a < n
  unique : ∀ x ∈ p.cells, ∀ y ∈ p.cells, x.address? = y.address? → x = y
  counts : ∀ x ∈ p.cells, x.length = x.newestFirst.length

theorem grown_nothing (store : List (Link × Chain)) (next n : Nat) :
    Grown store next n nothing where
  origin _ hx := absurd hx List.not_mem_nil
  below _ hx := absurd hx List.not_mem_nil
  unique _ hx := absurd hx List.not_mem_nil
  counts _ hx := absurd hx List.not_mem_nil

namespace Grown

theorem length_eq (h : Grown store next n p) : p.length = p.newestFirst.length := by
  cases p with
  | nothing => rfl
  | cell a s before l d t => exact h.counts _ List.mem_cons_self

/-- What stands before the cell. -/
theorem before {a l depth : Nat} {s : Step} {truncated : Bool}
    (h : Grown store next n (cell a s p l depth truncated)) : Grown store next n p where
  origin x hx := h.origin x (List.mem_cons_of_mem _ hx)
  below x hx := h.below x (List.mem_cons_of_mem _ hx)
  unique x hx y hy := h.unique x (List.mem_cons_of_mem _ hx) y (List.mem_cons_of_mem _ hy)
  counts x hx := h.counts x (List.mem_cons_of_mem _ hx)

/-- **A cell at a free address**, whatever depth and truncation are written into it. -/
theorem cell (h : Grown store next n p) (hle : next ≤ n) (s : Step) (depth : Nat)
    (truncated : Bool) :
    Grown store next (n + 1) (.cell n s p (p.length + 1) depth truncated) where
  origin x hx := by
    rcases List.mem_cons.mp hx with rfl | hx
    · exact Or.inr ⟨n, rfl, hle⟩
    · exact h.origin x hx
  below x hx a ha := by
    rcases List.mem_cons.mp hx with rfl | hx
    · cases ha
      exact Nat.lt_succ_self n
    · exact Nat.lt_succ_of_lt (h.below x hx a ha)
  unique x hx y hy heq := by
    rcases List.mem_cons.mp hx with rfl | hx <;> rcases List.mem_cons.mp hy with rfl | hy
    · rfl
    · exact absurd (h.below y hy n heq.symm) (Nat.lt_irrefl n)
    · exact absurd (h.below x hx n heq) (Nat.lt_irrefl n)
    · exact h.unique x hx y hy heq
  counts x hx := by
    rcases List.mem_cons.mp hx with rfl | hx
    · show p.length + 1 = p.newestFirst.length + 1
      rw [h.length_eq]
    · exact h.counts x hx

theorem push (h : Grown store next n p) (hle : next ≤ n) (s : Step) :
    Grown store next (n + 1) (p.push n s) := by
  rw [push_eq]
  exact h.cell hle s _ _

theorem pushAll (h : Grown store next n p) (hle : next ≤ n) (ss : List Step) :
    Grown store next (n + ss.length) (p.pushAll n ss) := by
  induction ss generalizing n p with
  | nil => exact h
  | cons s ss ih =>
    rw [Link.pushAll, List.length_cons, ← Nat.add_assoc, Nat.add_right_comm]
    exact ih (h.push hle s) (Nat.le_succ_of_le hle)

theorem cut (h : Grown store next n p) (hle : next ≤ n) (maxHops : Nat) (mark last : Step) :
    Grown store next (p.cut maxHops n mark last).2 (p.cut maxHops n mark last).1 := by
  rw [Link.cut, push_eq (n + 1)]
  exact (h.push hle mark).cell (Nat.le_succ_of_le hle) last _ _

end Grown

theorem chain?_cut (n maxHops : Nat) (h : p.chain? = some c) (mark last : Step) :
    (p.cut maxHops n mark last).1.chain? =
      some { (c.push mark).push last with depth := maxHops + 1, truncated := true } := by
  have hmark := chain?_push n h mark
  rw [Link.cut, push_eq (n + 1)]
  show some _ = some _
  rw [(of_chain? hmark).1]
  rfl

/-- What holds of all cells that were made: each stands for its chain, no address stands for two of
them, and each counts its steps. -/
structure Sound (store : List (Link × Chain)) (next : Nat) : Prop where
  stands : ∀ p c, (p, c) ∈ store → p.chain? = some c
  below : ∀ p c, (p, c) ∈ store → ∀ x ∈ p.cells, ∀ a, x.address? = some a → a < next
  unique : ∀ p c, (p, c) ∈ store → ∀ q d, (q, d) ∈ store → ∀ x ∈ p.cells, ∀ y ∈ q.cells,
    x.address? = y.address? → x = y
  counts : ∀ p c, (p, c) ∈ store → ∀ x ∈ p.cells, x.length = x.newestFirst.length

namespace Sound

theorem grown (h : Sound store next) (hp : (p, c) ∈ store) : Grown store next next p where
  origin _ hx := Or.inl ⟨p, c, hp, hx⟩
  below := h.below p c hp
  unique := h.unique p c hp p c hp
  counts := h.counts p c hp

/-- **New cells have new addresses**, so they do not get into the way of old ones. -/
theorem cons (h : Sound store next) (hp : Grown store next n p) (hle : next ≤ n)
    (hc : p.chain? = some c) : Sound ((p, c) :: store) n := by
  -- a new cell that has the address of an old one is an old one itself
  have hold : ∀ q d, (q, d) ∈ store → ∀ x ∈ p.cells, ∀ y ∈ q.cells, x.address? = y.address? →
      x = y := by
    intro q d hq x hx y hy heq
    rcases hp.origin x hx with ⟨r, e, hr, hxr⟩ | ⟨a, ha, hnew⟩
    · exact h.unique r e hr q d hq x hxr y hy heq
    · have hlt := h.below q d hq y hy a (heq.symm.trans ha)
      omega
  constructor
  · intro q d hq
    rcases List.mem_cons.mp hq with heq | hq
    · cases heq
      exact hc
    · exact h.stands q d hq
  · intro q d hq x hx a ha
    rcases List.mem_cons.mp hq with heq | hq
    · cases heq
      exact hp.below x hx a ha
    · exact Nat.lt_of_lt_of_le (h.below q d hq x hx a ha) hle
  · intro q d hq r e hr x hx y hy heq
    rcases List.mem_cons.mp hq with hqp | hq <;> rcases List.mem_cons.mp hr with hrp | hr
    · cases hqp
      cases hrp
      exact hp.unique x hx y hy heq
    · cases hqp
      exact hold r e hr x hx y hy heq
    · cases hrp
      exact (hold q d hq y hy x hx heq.symm).symm
    · exact h.unique q d hq r e hr x hx y hy heq
  · intro q d hq x hx
    rcases List.mem_cons.mp hq with heq | hq
    · cases heq
      exact hp.counts x hx
    · exact h.counts q d hq x hx

/-! ### Operations on sound cells -/

theorem exists_append (h : Sound store next) (hp : Grown store next n p) (hle : next ≤ n)
    (hc : p.chain? = some c) (htail : (tail, d) ∈ store) (depth : Nat) :
    ∃ q, p.append n tail depth = some (q, n + d.length) ∧
      Grown store next (n + d.length) q ∧ q.chain? = some (c.append d depth) := by
  obtain ⟨hsteps, -, htruncated⟩ := of_chain? hc
  obtain ⟨hsteps', -, htruncated'⟩ := of_chain? (h.stands tail d htail)
  have hlist : tail.steps? = some (d.before.reverse ++ [d.last]) := by
    rw [steps?_eq (h.grown htail).length_eq, hsteps', Chain.newestFirst, List.reverse_cons]
  have hlength : n + (d.before.reverse ++ [d.last]).length = n + d.length := by
    rw [List.length_append, List.length_reverse, List.length_singleton, Chain.length]
  have hnext : n + d.before.reverse.length + 1 = n + d.length := by
    rw [List.length_reverse, Chain.length, Nat.add_assoc]
  refine ⟨.cell (n + d.before.reverse.length) d.last (p.pushAll n d.before.reverse)
    ((p.pushAll n d.before.reverse).length + 1) depth (c.truncated || d.truncated), ?_, ?_, ?_⟩
  · rw [Link.append, hlist, Option.map_some, hlength, pushAll_concat, push_eq, htruncated,
      htruncated']
    rfl
  · rw [← hnext]
    exact (hp.pushAll hle _).cell (Nat.le_add_right_of_le hle) _ _ _
  · rw [chain?, newestFirst_pushAll, List.reverse_reverse, hsteps]
    rfl

theorem exists_compose (h : Sound store next) (hp : (p, c) ∈ store) (htail : (tail, d) ∈ store)
    (scope : Scope) (call : Step) :
    ∃ q n, p.compose scope.maxHops next call tail = some (q, n) ∧ next ≤ n ∧
      Grown store next n q ∧ q.chain? = some (scope.compose c call d) := by
  have hstands := h.stands tail d htail
  obtain ⟨-, hdepth, -⟩ := of_chain? (h.stands p c hp)
  have hgrown := (h.grown hp).push (Nat.le_refl next) call
  have hchain := chain?_push next (h.stands p c hp) call
  cases tail with
  | nothing => cases hstands
  | cell a last before l depth truncated =>
    have hd : d = { last, before := before.newestFirst, depth, truncated } :=
      (Option.some.inj hstands).symm
    by_cases hle : c.depth + depth + 1 ≤ scope.maxHops
    · obtain ⟨q, happend, hq, hqc⟩ := h.exists_append hgrown (Nat.le_succ next) hchain htail
        (c.depth + depth + 1)
      refine ⟨q, _, ?_, by omega, hq, ?_⟩
      · rw [Link.compose, hdepth]
        exact (if_pos hle).trans happend
      · rw [hqc, Scope.compose, hd]
        exact congrArg some (if_pos hle).symm
    · refine ⟨_, _, ?_, ?_, hgrown.cut (Nat.le_succ next) scope.maxHops
        (truncationMark call.line call.file call.detail) last, ?_⟩
      · rw [Link.compose, hdepth]
        exact if_neg hle
      · exact Nat.le_add_right_of_le (Nat.le_succ next)
      · rw [chain?_cut _ _ hchain, Scope.compose, hd]
        exact congrArg some (if_neg hle).symm

theorem exists_lift (h : Sound store next) (hp : (p, c) ∈ store) (scope : Scope)
    (site : CallSite) :
    ∃ q n, p.lift scope.maxHops next site = some (q, n) ∧ next ≤ n ∧
      Grown store next n q ∧ q.chain? = some (scope.lift c site) := by
  have hstands := h.stands p c hp
  have hgrown := h.grown hp
  cases p with
  | nothing => cases hstands
  | cell a last before l depth truncated =>
    have hc : c = { last, before := before.newestFirst, depth, truncated } :=
      (Option.some.inj hstands).symm
    by_cases hle : depth + 1 ≤ scope.maxHops
    · have hlength : l = before.length + 1 := by
        rw [hgrown.before.length_eq]
        exact hgrown.length_eq
      refine ⟨.cell next last before (before.length + 1) (depth + 1) truncated, next + 1, ?_,
        Nat.le_succ next, hgrown.before.cell (Nat.le_refl next) _ _ _, ?_⟩
      · rw [Link.lift, hlength]
        exact if_pos hle
      · rw [Scope.lift, hc]
        exact congrArg some (if_pos hle).symm
    · have hfirst : (cell a last before l depth truncated).first? = some c.first := by
        rw [first?_eq, newestFirst, List.getLast?_cons, hc]
        rfl
      have hsingle : Grown store next (next + 1) (.single next c.first) :=
        (grown_nothing store next next).cell (Nat.le_refl next) c.first 0 false
      refine ⟨_, _, ?_, ?_, hsingle.cut (Nat.le_succ next) scope.maxHops
        (truncationMark site.line site.file site.name) last, ?_⟩
      · rw [Link.lift, hfirst]
        exact if_neg hle
      · exact Nat.le_add_right_of_le (Nat.le_succ next)
      · rw [chain?_cut _ _ rfl, Scope.lift, hc]
        exact congrArg some (if_neg hle).symm

end Sound

/-! ### Comparing sound cells -/

/-- Up to a shared cell, the steps of chains with equally many steps compare as those of lists. -/
theorem compareSteps_eq (hunique : ∀ x ∈ p.cells, ∀ y ∈ q.cells, x.address? = y.address? → x = y)
    (hlength : p.newestFirst.length = q.newestFirst.length) :
    p.compareSteps q = compareLists Flow.compareSteps p.newestFirst q.newestFirst := by
  induction p generalizing q with
  | nothing =>
    cases q with
    | nothing => rfl
    | cell => cases hlength
  | cell a s before l depth truncated ih =>
    cases q with
    | nothing => cases hlength
    | cell a' s' before' l' depth' truncated' =>
      rw [compareSteps, newestFirst, newestFirst, compareLists]
      split
      · next heq =>
        have hsame := hunique _ List.mem_cons_self _ List.mem_cons_self
          (congrArg some (beq_iff_eq.mp heq))
        cases hsame
        have hself : Flow.compareSteps s s = .eq := Std.ReflCmp.compare_self
        have hrest : compareLists Flow.compareSteps before.newestFirst before.newestFirst = .eq :=
          Std.ReflCmp.compare_self
        rw [hself, hrest]
        rfl
      · have hbefore : ∀ x ∈ before.cells, ∀ y ∈ before'.cells,
            x.address? = y.address? → x = y := fun x hx y hy =>
          hunique x (List.mem_cons_of_mem _ hx) y (List.mem_cons_of_mem _ hy)
        rw [ih hbefore (Nat.succ.inj hlength)]

/-- **Comparing cells gives the order of their chains**: the shortcuts make no difference. -/
theorem Sound.compare_eq (h : Sound store next) (hp : (p, c) ∈ store) (hq : (q, d) ∈ store) :
    p.compare q = compareChains c d := by
  obtain ⟨hsteps, hdepth, htruncated⟩ := of_chain? (h.stands p c hp)
  obtain ⟨hsteps', hdepth', htruncated'⟩ := of_chain? (h.stands q d hq)
  have hlength : p.length = c.length := by
    rw [(h.grown hp).length_eq, hsteps]
    rfl
  have hlength' : q.length = d.length := by
    rw [(h.grown hq).length_eq, hsteps']
    rfl
  have hunique := h.unique p c hp q d hq
  rw [compare]
  split
  · next heq =>
    have hsame : p = q := by
      cases p with
      | nothing => cases h.stands _ _ hp
      | cell =>
        cases q with
        | nothing => cases h.stands _ _ hq
        | cell => exact hunique _ List.mem_cons_self _ List.mem_cons_self (beq_iff_eq.mp heq)
    subst hsame
    obtain rfl : c = d := Option.some.inj ((h.stands p c hp).symm.trans (h.stands p d hq))
    exact Std.ReflCmp.compare_self.symm
  · rw [htruncated, htruncated', hlength, hlength', hdepth, hdepth', compareChains]
    by_cases hflag : c.truncated = d.truncated
    · have hnone : (Ord.compare c.length d.length).then ((Ord.compare c.depth d.depth).then
          (p.compareSteps q)) = (Ord.compare c.length d.length).then
            ((Ord.compare c.depth d.depth).then
              (compareLists Flow.compareSteps c.newestFirst d.newestFirst)) := by
        cases hcmp : Ord.compare c.length d.length with
        | lt => rfl
        | gt => rfl
        | eq =>
          -- only chains with equally many steps are compared step by step
          have heq : c.length = d.length := Nat.compare_eq_eq.mp hcmp
          rw [compareSteps_eq hunique (by rw [hsteps, hsteps']; exact heq), hsteps, hsteps']
      have hself : compareBool d.truncated d.truncated = .eq := Std.ReflCmp.compare_self
      rw [hflag, hself, bne_self_eq_false, if_neg (by decide), hnone]
      rfl
    · rw [if_pos (bne_iff_ne.mpr hflag)]
      cases hc : c.truncated <;> cases hd : d.truncated
      · rw [hc, hd] at hflag
        exact absurd rfl hflag
      · rfl
      · rfl
      · rw [hc, hd] at hflag
        exact absurd rfl hflag

end Link

/-- **Every address stands for one cell**, and cells count their steps. -/
theorem Built.sound {store : List (Link × Chain)} {next : Nat} (h : Built store next) :
    Link.Sound store next := by
  induction h with
  | start =>
    constructor <;> intro p c hp <;> cases hp
  | @single store next s _ ih =>
    exact ih.cons ((Link.grown_nothing store next next).cell (Nat.le_refl next) s 0 false)
      (Nat.le_succ next) rfl
  | @push store next p c s _ hp ih =>
    exact ih.cons ((ih.grown hp).push (Nat.le_refl next) s) (Nat.le_succ next)
      (Link.chain?_push next (ih.stands p c hp) s)
  | @append store next p c tail d q next' depth _ hp htail happend ih =>
    obtain ⟨r, hr, hgrown, hchain⟩ :=
      ih.exists_append (ih.grown hp) (Nat.le_refl next) (ih.stands p c hp) htail depth
    cases happend.symm.trans hr
    exact ih.cons hgrown (Nat.le_add_right next _) hchain
  | compose scope call _ hp htail hcompose ih =>
    obtain ⟨r, n, hr, hle, hgrown, hchain⟩ := ih.exists_compose hp htail scope call
    cases hcompose.symm.trans hr
    exact ih.cons hgrown hle hchain
  | lift scope site _ hp hlift ih =>
    obtain ⟨r, n, hr, hle, hgrown, hchain⟩ := ih.exists_lift hp scope site
    cases hlift.symm.trans hr
    exact ih.cons hgrown hle hchain

/-! ### The laws -/

/-- **The order of chains is total, and a further step does not change it.**  It tells chains apart
iff they show different truncation, depth or steps.  Cells that come about by the operations of
chains count their steps and list them, oldest first; no operation on them fails; and to compare
cells, with the shortcuts for cells that are shared, is to compare the chains they stand for. -/
theorem chain_order_laws :
    (∀ c, compareChains c c = .eq) ∧
    (∀ c d, (compareChains c d).isLE → (compareChains d c).isLE → c.view = d.view) ∧
    (∀ c d e, (compareChains c d).isLE → (compareChains d e).isLE → (compareChains c e).isLE) ∧
    (∀ c d, (compareChains c d).isLE ∨ (compareChains d c).isLE) ∧
    (∀ c d, compareChains d c = (compareChains c d).swap) ∧
    (∀ c d, compareChains c d = .eq ↔ c.view = d.view) ∧
    (∀ c d s, compareChains (c.push s) (d.push s) = compareChains c d) ∧
    ∀ store next, Built store next →
      (∀ p c, (p, c) ∈ store → p.length = c.steps.length ∧ p.steps? = some c.steps ∧
        p.depth = c.depth ∧ p.truncated = c.truncated ∧ p.better .nothing = better c none) ∧
      ∀ p c, (p, c) ∈ store → ∀ q d, (q, d) ∈ store →
        p.compare q = compareChains c d ∧ p.better q = better c (some d) ∧
        (∀ s, (p.push next s).compare (q.push (next + 1) s) = p.compare q) ∧
        (∀ depth, (p.append next q depth).isSome) ∧
        ∀ (scope : Scope) call site, (p.compose scope.maxHops next call q).isSome ∧
          (p.lift scope.maxHops next site).isSome := by
  have htotal : ∀ c d, (compareChains c d).isLE ∨ (compareChains d c).isLE := fun c d => by
    simpa only [isAscending, Bool.or_eq_true] using isAscending_total compareChains c d
  refine ⟨fun c => Std.ReflCmp.compare_self, fun c d => view_eq_of_isLE,
    fun c d e => Std.TransCmp.isLE_trans, htotal, fun c d => Std.OrientedCmp.eq_swap,
    fun c d => ⟨view_eq_of_compareChains, compareChains_eq_of_view⟩, compareChains_push,
    fun store next h => ?_⟩
  have hsound := h.sound
  refine ⟨fun p c hp => ?_, fun p c hp q d hq => ⟨hsound.compare_eq hp hq, ?_, fun s => ?_,
    fun depth => ?_, fun scope call site => ⟨?_, ?_⟩⟩⟩
  · obtain ⟨hsteps, hdepth, htruncated⟩ := Link.of_chain? (hsound.stands p c hp)
    have hcount := (hsound.grown hp).length_eq
    refine ⟨?_, ?_, hdepth, htruncated, rfl⟩
    · rw [hcount, hsteps, Chain.steps, List.length_reverse]
    · rw [Link.steps?_eq hcount, hsteps]
      rfl
  · have hne : (q == Link.nothing) = false := by
      cases q with
      | nothing => cases hsound.stands _ _ hq
      | cell => exact beq_eq_false_iff_ne.mpr Link.noConfusion
    rw [Link.better, hne, Bool.false_or, hsound.compare_eq hp hq]
    rfl
  · -- both longer chains are among the cells that come about
    have hpushed := (h.push s hp).push s (List.mem_cons_of_mem _ hq)
    rw [hpushed.sound.compare_eq (List.mem_cons_of_mem _ List.mem_cons_self) List.mem_cons_self,
      compareChains_push, hsound.compare_eq hp hq]
  · obtain ⟨r, hr, -⟩ :=
      hsound.exists_append (hsound.grown hp) (Nat.le_refl next) (hsound.stands p c hp) hq depth
    rw [hr]
    rfl
  · obtain ⟨r, n, hr, -⟩ := hsound.exists_compose hp hq scope call
    rw [hr]
    rfl
  · obtain ⟨r, n, hr, -⟩ := hsound.exists_lift hp scope site
    rw [hr]
    rfl

/-! ### Two chains that share a cell -/

/-- An assignment on a line. -/
def assignedOn (line : Int) : Step :=
  ⟨.assignment, 0, 0, 0, line, "app", "x"⟩

/-- The chain through the given lines. -/
def chainThrough (first second : Int) : Chain :=
  (Chain.single (assignedOn first)).push (assignedOn second)

/-- A first cell, and two cells that go on from it. -/
def forkedStore : List (Link × Chain) :=
  [((Link.single 0 (assignedOn 1)).push 2 (assignedOn 3), chainThrough 1 3),
    ((Link.single 0 (assignedOn 1)).push 1 (assignedOn 2), chainThrough 1 2),
    (.single 0 (assignedOn 1), .single (assignedOn 1))]

theorem chain_order_laws_forked :
    let left := (Link.single 0 (assignedOn 1)).push 1 (assignedOn 2)
    let right := (Link.single 0 (assignedOn 1)).push 2 (assignedOn 3)
    Built forkedStore 3 ∧ left.steps? = some [assignedOn 1, assignedOn 2] ∧
      left.compare right = .lt ∧
      (left.push 3 (assignedOn 9)).compare (right.push 4 (assignedOn 9)) = .lt ∧
      (left.append 3 right 1).isSome := by
  intro left right
  have hbuilt : Built forkedStore 3 :=
    .push (assignedOn 3) (.push (assignedOn 2) (.single (assignedOn 1) .start)
      List.mem_cons_self) (List.mem_cons_of_mem _ List.mem_cons_self)
  obtain ⟨-, -, -, -, -, -, -, hcells⟩ := chain_order_laws
  obtain ⟨hshow, hcompare⟩ := hcells forkedStore 3 hbuilt
  have hleft : (left, chainThrough 1 2) ∈ forkedStore :=
    List.mem_cons_of_mem _ List.mem_cons_self
  obtain ⟨heq, -, hpush, happend, -⟩ :=
    hcompare left (chainThrough 1 2) hleft right (chainThrough 1 3) List.mem_cons_self
  have hlt : left.compare right = .lt := by
    rw [heq]
    decide
  exact ⟨hbuilt, (hshow left _ hleft).2.1, hlt, (hpush _).trans hlt, happend 1⟩

end TaintFlow.Flow
