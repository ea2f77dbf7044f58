import TaintFlow.Finding
import TaintFlow.Text.Order

/-!
# The order of a report

Findings come with the gravest first, then by sink, category and source; the identifier breaks
ties.  Diagnostics come by kind and place.

## Main definitions

* `compareFindings`, `sortFindings`
* `compareDiagnostics`, `sortDiagnostics`
-/

namespace TaintFlow.Report

/-- The order of places: by file, line and column. -/
def comparePlaces (a b : Facts.Location) : Ordering :=
  (compareText a.file b.file).then <| (compareInt a.line b.line).then (compareInt a.column b.column)

/-- The order of findings in a report. -/
def compareFindings (a b : Finding) : Ordering :=
  (compareInt b.severity.rank a.severity.rank).then <|
  (comparePlaces a.sink.location b.sink.location).then <|
  (compareText a.category b.category).then <|
  (comparePlaces a.source.location b.source.location).then (compareText a.id b.id)

/-- The order of diagnostics in a report. -/
def compareDiagnostics (a b : Diagnostic) : Ordering :=
  (compareText a.kind.name b.kind.name).then <|
  (compareText a.file b.file).then <|
  (compareInt a.line b.line).then <|
  (compareText a.function b.function).then (compareText a.message b.message)

/-- Findings in the order of a report. -/
def sortFindings (l : List Finding) : List Finding :=
  sortBy compareFindings l

/-- Diagnostics in the order of a report. -/
def sortDiagnostics (l : List Diagnostic) : List Diagnostic :=
  sortBy compareDiagnostics l

end TaintFlow.Report
