import TaintFlow.Text.Blank

/-!
# Dotted names

A value slot is named by a chain such as `req.body.id`.  Reading a name observes every slot that
it contains and every slot it is part of; writing a slot overwrites the slots below it.

## Main definitions

* `Name.under slot name` — `slot` is `name` or one of its dotted sub-slots.
* `Name.related slot name` — one of the two is under the other.
* `Name.lastSegment` — what follows the last dot, without a trailing `()`.
-/

namespace TaintFlow.Name

/-- Whether `inner` is `outer` followed by a dot and more. -/
def below (inner outer : String) : Bool :=
  (outer.toList ++ ['.']).isPrefixOf inner.toList

/-- Whether `slot` is `name` or one of its dotted sub-slots. -/
def under (slot name : String) : Bool :=
  slot == name || below slot name

/-- Whether reading `name` observes `slot`: the two are equal or one is below the other. -/
def related (slot name : String) : Bool :=
  slot == name || below name slot || below slot name

/-- Drops `()` from the end of a list of characters. -/
def dropCall (cs : List Char) : List Char :=
  if ['(', ')'].isSuffixOf cs then cs.dropLast.dropLast else cs

/-- What stands after the last dot. -/
def afterLastDot (cs : List Char) : List Char :=
  (cs.reverse.takeWhile (· != '.')).reverse

/-- The last segment of a dotted callee name, without a trailing call: `child_process.exec()`
gives `exec`. -/
def lastSegment (name : String) : String :=
  String.ofList (afterLastDot (dropCall (Text.trimChars name.toList)))

end TaintFlow.Name
