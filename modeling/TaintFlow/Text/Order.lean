/-!
# Orders on keys

Texts are ordered by code point, which is the order of their UTF-8 bytes.  Records are ordered by
one key after another, so orders are built with `Ordering.then`.

## Main definitions

* `compareText`, `compareInt`, `compareBool` — the orders of single keys.
* `isAscending` — turns a comparison into the relation that sorting takes.
* `firsts` — the distinct elements of a list in the order of their first appearance.
-/

namespace TaintFlow

/-- Lexicographic order of two lists of characters, by code point. -/
def compareChars : List Char → List Char → Ordering
  | [], [] => .eq
  | [], _ :: _ => .lt
  | _ :: _, [] => .gt
  | a :: as, b :: bs => (compare a.toNat b.toNat).then (compareChars as bs)

/-- The order of texts: by code point, a text before its extensions. -/
def compareText (a b : String) : Ordering :=
  compareChars a.toList b.toList

/-- The order of integers. -/
def compareInt (a b : Int) : Ordering :=
  compare a b

/-- False before true. -/
def compareBool (a b : Bool) : Ordering :=
  compare a.toNat b.toNat

/-- Lexicographic order of two lists. -/
def compareLists {α : Type} (cmp : α → α → Ordering) : List α → List α → Ordering
  | [], [] => .eq
  | [], _ :: _ => .lt
  | _ :: _, [] => .gt
  | a :: as, b :: bs => (cmp a b).then (compareLists cmp as bs)

/-- Whether `a` may stand before `b`. -/
def isAscending {α : Type} (cmp : α → α → Ordering) (a b : α) : Bool :=
  (cmp a b).isLE

/-- A list sorted by a comparison; elements that compare equal keep their order. -/
def sortBy {α : Type} (cmp : α → α → Ordering) (l : List α) : List α :=
  l.mergeSort (isAscending cmp)

/-- Adds an element at the end unless the list holds it already. -/
def addNew {α : Type} [BEq α] (l : List α) (a : α) : List α :=
  if l.contains a then l else l ++ [a]

/-- The distinct elements of a list in the order of their first appearance. -/
def firsts {α : Type} [BEq α] (l : List α) : List α :=
  l.foldl addNew []

/-- The text of an order: -1, 0 or 1. -/
def signOf : Ordering → Int
  | .lt => -1
  | .eq => 0
  | .gt => 1

end TaintFlow
