import TaintFlow.Flow.Rounds

/-!
# The statement rules

What the analysis is meant to find, said without its states, worklists and rounds: facts about a
program that follow from one another by one rule per effect of a statement.  The facts that hold
are the least solution of the rules.  The rules come in two forms.  `Program.Holds` only says what
is tainted; `Program.Derives` also carries a chain that shows how, and leaves no chain out.

## Main definitions

* `Fact` — a slot is tainted at a place, a parameter receives taint, a root reaches a sink or a
  return.
* `Program.Holds` — the least solution of the statement rules.
* `Program.Derives` — the statement rules with chains.

## Main results

* `Program.Derives.holds` — what a chain is derived for holds.
-/

namespace TaintFlow.Flow

/-- What can be said of a program. -/
inductive Fact where
  /-- A slot holds a value that stems from a root, before the statement at a position of a block;
  the position past the last statement is the end of the block. -/
  | tainted (function block position : Nat) (slot : String) (root : Root)
  /-- A parameter of a function receives taint from a call. -/
  | receives (function param : Nat)
  /-- A value that stems from a root of a function reaches a sink, there or in a callee. -/
  | reachesSink (function : Nat) (root : Root) (sink : Nat)
  /-- A value that stems from a root of a function is returned. -/
  | reachesReturn (function : Nat) (root : Root)

/-- Whether reading names observes a slot. -/
def observes (names : List String) (slot : String) : Bool :=
  names.any (Name.related slot ·)

/-- Whether a statement overwrites a slot. -/
def Statement.overwrites : Statement → String → Bool
  | .assign _ target _ _, slot => Name.under slot target
  | _, _ => false

namespace Program

/-- The function at a position, which can be analysed. -/
def Analyzes (p : Program) (f : Nat) (fn : Function) : Prop :=
  p.function? f = some fn ∧ fn.analyzable = true

/-- The statement at a position of a block. -/
def Runs (p : Program) (f b pos : Nat) (line : Int) (statement : Statement) : Prop :=
  (p.statementsAt f b)[pos]? = some ⟨line, statement⟩

/-- A function under analysis while nothing is known of the other functions. -/
def bare (p : Program) (maxHops f : Nat) : Scope :=
  p.scope maxHops ⟨#[], #[]⟩ f

/-- The function under analysis. -/
theorem function_scope {p : Program} {f : Nat} {fn : Function} (hf : p.function? f = some fn)
    {maxHops : Nat} {snapshot : Snapshot} : (p.scope maxHops snapshot f).function = fn := by
  rw [scope, hf]
  rfl

/-- **The least solution of the statement rules.**  Functions that cannot be analysed contribute
nothing. -/
inductive Holds (p : Program) : Fact → Prop where
  /-- On entry the parameters that receive taint are tainted. -/
  | enterParam {f e i : Nat} {fn : Function} {name : String} (hf : p.Analyzes f fn)
      (he : fn.entry = some e) (hname : fn.params[i]? = some name) (hne : name ≠ "") :
      Holds p (.receives f i) → Holds p (.tainted f e 0 name (.param i))
  /-- On entry of a handler all its named parameters are tainted. -/
  | enterHandler {f e i : Nat} {fn : Function} {src : Discovery.Source} {name : String}
      (hf : p.Analyzes f fn) (he : fn.entry = some e) (hi : i ∈ p.endpoints.getD f [])
      (hsrc : p.sources[i]? = some src) (hname : name ∈ fn.params) (hne : name ≠ "") :
      Holds p (.tainted f e 0 name (.source i))
  /-- Taint flows along the edges of the control-flow graph. -/
  | edge {f b b' : Nat} {fn : Function} {block : Block} {x : String} {r : Root}
      (hf : p.Analyzes f fn) (hb : fn.blocks[b]? = some block) (hb' : b' ∈ block.succ) :
      Holds p (.tainted f b (p.statementsAt f b).length x r) → Holds p (.tainted f b' 0 x r)
  /-- A slot that a statement does not overwrite stays tainted. -/
  | keep {f b pos : Nat} {line : Int} {stmt : Statement} {x : String} {r : Root}
      (hrun : p.Runs f b pos line stmt) (hx : stmt.overwrites x = false) :
      Holds p (.tainted f b pos x r) → Holds p (.tainted f b (pos + 1) x r)
  /-- A seed taints its slot. -/
  | seed {f b pos i : Nat} {fn : Function} {line : Int} {slot : String} {src : Discovery.Source}
      (hf : p.Analyzes f fn) (hrun : p.Runs f b pos line (.seed i slot))
      (hsrc : p.sources[i]? = some src) : Holds p (.tainted f b (pos + 1) slot (.source i))
  /-- An assignment taints its target by what it reads. -/
  | assign {f b pos : Nat} {line : Int} {file target x : String} {names : List String}
      {calls : List Nat} {r : Root} (hrun : p.Runs f b pos line (.assign file target names calls))
      (hx : observes names x = true) :
      Holds p (.tainted f b pos x r) → Holds p (.tainted f b (pos + 1) target r)
  /-- An assignment taints its target by an argument that its callee returns. -/
  | assignBound {f b pos i : Nat} {line : Int} {file target x : String} {names : List String}
      {calls : List Nat} {site : CallSite} {bound : Binding} {r : Root}
      (hrun : p.Runs f b pos line (.assign file target names calls)) (hi : i ∈ calls)
      (hsite : p.calls[i]? = some site) (hbound : bound ∈ site.bindings)
      (hx : observes bound.names x = true) :
      Holds p (.tainted f b pos x r) → Holds p (.reachesReturn site.callee (.param bound.param)) →
      Holds p (.tainted f b (pos + 1) target r)
  /-- An assignment taints its target by a source that its callee returns. -/
  | assignIntrinsic {f b pos i s : Nat} {fn : Function} {line : Int} {file target : String}
      {names : List String} {calls : List Nat} {site : CallSite} (hf : p.Analyzes f fn)
      (hrun : p.Runs f b pos line (.assign file target names calls)) (hi : i ∈ calls)
      (hsite : p.calls[i]? = some site) :
      Holds p (.reachesReturn site.callee (.source s)) →
      Holds p (.tainted f b (pos + 1) target (.source s))
  /-- A call passes taint to the parameters that its arguments are bound to. -/
  | call {f b pos i : Nat} {line : Int} {site : CallSite} {bound : Binding} {x : String} {r : Root}
      (hrun : p.Runs f b pos line (.call i)) (hsite : p.calls[i]? = some site)
      (hbound : bound ∈ site.bindings) (hx : observes bound.names x = true) :
      Holds p (.tainted f b pos x r) → Holds p (.receives site.callee bound.param)
  /-- What a call passes on reaches the sinks that the parameter reaches. -/
  | callSink {f b pos i k : Nat} {line : Int} {site : CallSite} {bound : Binding} {x : String}
      {r : Root} (hrun : p.Runs f b pos line (.call i)) (hsite : p.calls[i]? = some site)
      (hbound : bound ∈ site.bindings) (hx : observes bound.names x = true) :
      Holds p (.tainted f b pos x r) →
      Holds p (.reachesSink site.callee (.param bound.param) k) → Holds p (.reachesSink f r k)
  /-- What a sink reads reaches it. -/
  | sink {f b pos k : Nat} {line : Int} {names : List String} {snk : Discovery.Sink} {x : String}
      {r : Root} (hrun : p.Runs f b pos line (.sink k names)) (hsink : p.sinks[k]? = some snk)
      (hx : observes names x = true) :
      Holds p (.tainted f b pos x r) → Holds p (.reachesSink f r k)
  /-- What a return reads is returned. -/
  | ret {f b pos : Nat} {line : Int} {file expr x : String} {names : List String} {r : Root}
      (hrun : p.Runs f b pos line (.ret file expr names)) (hx : observes names x = true) :
      Holds p (.tainted f b pos x r) → Holds p (.reachesReturn f r)

/-- **The statement rules with chains**: every chain that the rules give, for any choice of the
chains of their premises, where chains cross at most `h` calls before steps are left out.  The
chain of a parameter that receives taint is that of the argument. -/
inductive Derives (p : Program) (h : Nat) : Fact → Chain → Prop where
  | enterParam {f e i : Nat} {fn : Function} {name : String} {c : Chain} (hf : p.Analyzes f fn)
      (he : fn.entry = some e) (hname : fn.params[i]? = some name) (hne : name ≠ "") :
      Derives p h (.receives f i) c →
      Derives p h (.tainted f e 0 name (.param i)) (.single ((p.bare h f).paramStep name))
  | enterHandler {f e i : Nat} {fn : Function} {src : Discovery.Source} {name : String}
      (hf : p.Analyzes f fn) (he : fn.entry = some e) (hi : i ∈ p.endpoints.getD f [])
      (hsrc : p.sources[i]? = some src) (hname : name ∈ fn.params) (hne : name ≠ "") :
      Derives p h (.tainted f e 0 name (.source i))
        ((Chain.single ((p.bare h f).endpointStep src)).push ((p.bare h f).paramStep name))
  | edge {f b b' : Nat} {fn : Function} {block : Block} {x : String} {r : Root} {c : Chain}
      (hf : p.Analyzes f fn) (hb : fn.blocks[b]? = some block) (hb' : b' ∈ block.succ) :
      Derives p h (.tainted f b (p.statementsAt f b).length x r) c →
      Derives p h (.tainted f b' 0 x r) c
  | keep {f b pos : Nat} {line : Int} {stmt : Statement} {x : String} {r : Root} {c : Chain}
      (hrun : p.Runs f b pos line stmt) (hx : stmt.overwrites x = false) :
      Derives p h (.tainted f b pos x r) c → Derives p h (.tainted f b (pos + 1) x r) c
  | seed {f b pos i : Nat} {fn : Function} {line : Int} {slot : String} {src : Discovery.Source}
      (hf : p.Analyzes f fn) (hrun : p.Runs f b pos line (.seed i slot))
      (hsrc : p.sources[i]? = some src) :
      Derives p h (.tainted f b (pos + 1) slot (.source i))
        (.single ((p.bare h f).stepAt b pos line .source src.location.file slot))
  | assign {f b pos : Nat} {line : Int} {file target x : String} {names : List String}
      {calls : List Nat} {r : Root} {c : Chain}
      (hrun : p.Runs f b pos line (.assign file target names calls))
      (hx : observes names x = true) :
      Derives p h (.tainted f b pos x r) c →
      Derives p h (.tainted f b (pos + 1) target r)
        (c.push ((p.bare h f).stepAt b pos line .assignment file target))
  | assignBound {f b pos i : Nat} {line : Int} {file target x : String} {names : List String}
      {calls : List Nat} {site : CallSite} {bound : Binding} {r : Root} {c tail : Chain}
      (hrun : p.Runs f b pos line (.assign file target names calls)) (hi : i ∈ calls)
      (hsite : p.calls[i]? = some site) (hbound : bound ∈ site.bindings)
      (hx : observes bound.names x = true) :
      Derives p h (.tainted f b pos x r) c →
      Derives p h (.reachesReturn site.callee (.param bound.param)) tail →
      Derives p h (.tainted f b (pos + 1) target r)
        (((p.bare h f).compose c ((p.bare h f).stepAt b pos line .call file site.name) tail).push
          ((p.bare h f).stepAt b pos line .assignment file target))
  | assignIntrinsic {f b pos i s : Nat} {fn : Function} {line : Int} {file target : String}
      {names : List String} {calls : List Nat} {site : CallSite} {tail : Chain}
      (hf : p.Analyzes f fn) (hrun : p.Runs f b pos line (.assign file target names calls))
      (hi : i ∈ calls) (hsite : p.calls[i]? = some site) :
      Derives p h (.reachesReturn site.callee (.source s)) tail →
      Derives p h (.tainted f b (pos + 1) target (.source s))
        (((p.bare h f).lift tail site).push
          ((p.bare h f).stepAt b pos line .assignment file target))
  | call {f b pos i : Nat} {line : Int} {site : CallSite} {bound : Binding} {x : String} {r : Root}
      {c : Chain} (hrun : p.Runs f b pos line (.call i)) (hsite : p.calls[i]? = some site)
      (hbound : bound ∈ site.bindings) (hx : observes bound.names x = true) :
      Derives p h (.tainted f b pos x r) c → Derives p h (.receives site.callee bound.param) c
  | callSink {f b pos i k : Nat} {line : Int} {site : CallSite} {bound : Binding} {x : String}
      {r : Root} {c tail : Chain} (hrun : p.Runs f b pos line (.call i))
      (hsite : p.calls[i]? = some site) (hbound : bound ∈ site.bindings)
      (hx : observes bound.names x = true) :
      Derives p h (.tainted f b pos x r) c →
      Derives p h (.reachesSink site.callee (.param bound.param) k) tail →
      Derives p h (.reachesSink f r k)
        ((p.bare h f).compose c ((p.bare h f).stepAt b pos line .call site.file site.name) tail)
  | sink {f b pos k : Nat} {line : Int} {names : List String} {snk : Discovery.Sink} {x : String}
      {r : Root} {c : Chain} (hrun : p.Runs f b pos line (.sink k names))
      (hsink : p.sinks[k]? = some snk) (hx : observes names x = true) :
      Derives p h (.tainted f b pos x r) c →
      Derives p h (.reachesSink f r k)
        (c.push ((p.bare h f).stepAt b pos line .sink snk.location.file snk.name))
  | ret {f b pos : Nat} {line : Int} {file expr x : String} {names : List String} {r : Root}
      {c : Chain} (hrun : p.Runs f b pos line (.ret file expr names))
      (hx : observes names x = true) :
      Derives p h (.tainted f b pos x r) c →
      Derives p h (.reachesReturn f r) (c.push ((p.bare h f).stepAt b pos line .ret file expr))

/-- What a chain is derived for holds. -/
theorem Derives.holds {p : Program} {h : Nat} {fact : Fact} {c : Chain}
    (d : p.Derives h fact c) : p.Holds fact := by
  induction d with
  | enterParam hf he hname hne _ ih => exact .enterParam hf he hname hne ih
  | enterHandler hf he hi hsrc hname hne => exact .enterHandler hf he hi hsrc hname hne
  | edge hf hb hb' _ ih => exact .edge hf hb hb' ih
  | keep hrun hx _ ih => exact .keep hrun hx ih
  | seed hf hrun hsrc => exact .seed hf hrun hsrc
  | assign hrun hx _ ih => exact .assign hrun hx ih
  | assignBound hrun hi hsite hbound hx _ _ ih iht =>
    exact .assignBound hrun hi hsite hbound hx ih iht
  | assignIntrinsic hf hrun hi hsite _ ih => exact .assignIntrinsic hf hrun hi hsite ih
  | call hrun hsite hbound hx _ ih => exact .call hrun hsite hbound hx ih
  | callSink hrun hsite hbound hx _ _ ih iht => exact .callSink hrun hsite hbound hx ih iht
  | sink hrun hsink hx _ ih => exact .sink hrun hsink hx ih
  | ret hrun hx _ ih => exact .ret hrun hx ih

end Program

end TaintFlow.Flow
