import TaintFlow.Digest.Sha1
import TaintFlow.Finding
import TaintFlow.Text.Bytes

/-!
# Identifiers of findings

A finding keeps its identifier from run to run: it is derived from everything that tells the
finding apart from others, as a name-based identifier in a fixed namespace.

## Main definitions

* `Report.nameBased` — the identifier of a name in a namespace.
* `Finding.key` — the text that identifies a finding.
* `Finding.identified` — the finding with its identifier.
-/

namespace TaintFlow

namespace Report

/-- Sixteen bytes as groups of hexadecimal digits. -/
def groups (bs : List UInt8) : String :=
  let h := (Text.hex bs).toList
  let part (i n : Nat) : String := String.ofList ((h.drop i).take n)
  "-".intercalate [part 0 8, part 8 4, part 12 4, part 16 4, part 20 12]

/-- Bytes with the version and the variant of an identifier written into them. -/
def stamped (version : UInt8) (bs : List UInt8) : List UInt8 :=
  bs.zipIdx.map fun (b, i) =>
    if i = 6 then (b &&& (0x0F : UInt8)) ||| (version <<< (4 : UInt8))
    else if i = 8 then (b &&& (0x3F : UInt8)) ||| (0x80 : UInt8) else b

/-- The identifier of a name in a namespace: the digest of both, as one of version 5. -/
def nameBased (space name : List UInt8) : String :=
  groups (stamped 5 ((Digest.sha1 (space ++ name)).take 16))

/-- The namespace of the identifiers of findings. -/
def findingSpace : List UInt8 :=
  Text.unhex "6f1d2c3e8a4b5c6d9e0fa1b2c3d4e5f6"

/-- The identifier that stands for no run. -/
def nilId : String :=
  groups (List.replicate 16 0)

/-- A place in the text that identifies a finding. -/
def placeKey (file : String) (line column : Int) : String :=
  s!"{file}:{line}:{column}"

end Report

/-- An end of a finding in the text that identifies it. -/
def Endpoint.key (e : Endpoint) : String :=
  "|" ++ e.rule ++ "@" ++ Report.placeKey e.location.file e.location.line e.location.column

/-- A step in the text that identifies a finding. -/
def PathStep.key (s : PathStep) : String :=
  "|" ++ s.kind.name ++ ":" ++ Report.placeKey s.file s.line 0 ++ ":" ++ s.function ++ ":" ++ s.detail

namespace Finding

/-- The text that identifies a finding: its category, its two ends and its path. -/
def key (f : Finding) : String :=
  f.category ++ f.source.key ++ f.sink.key ++ String.join ((f.path.getD []).map PathStep.key)

/-- The identifier of a finding. -/
def derivedId (f : Finding) : String :=
  Report.nameBased Report.findingSpace (Text.bytes f.key)

/-- The finding with its identifier. -/
def identified (f : Finding) : Finding :=
  { f with id := f.derivedId }

end Finding

end TaintFlow
