import TaintFlow.Text.Blank

/-!
# Elastic tab stops

Lines are cut into cells at their tabs.  All cells of a column in neighbouring lines get the width
of the widest one and some padding; the last cell of a line belongs to no column.
-/

namespace TaintFlow.Text

/-- Whether a line has a cell in a column, the last cell of the line not counting. -/
def hasCell (column : Nat) (row : List String) : Bool :=
  column + 1 < row.length

/-- The width of the widest cell of a column. -/
def widest (column : Nat) (rows : List (List String)) : Nat :=
  (rows.map fun row => (row.getD column "").length).foldl max 0

/-- The width that a column has at line `i`: that of the widest cell in the lines around it that
all have a cell in the column. -/
def columnWidth (rows : List (List String)) (i column : Nat) : Nat :=
  max (widest column ((rows.take i).reverse.takeWhile (hasCell column)))
    (widest column ((rows.drop i).takeWhile (hasCell column)))

/-- The cells of line `i` one after another, each but the last one filled up. -/
def alignedRow (padding : Nat) (rows : List (List String)) (i : Nat) (row : List String) : String :=
  String.join (row.zipIdx.map fun (cell, j) =>
    if hasCell j row then padRight (columnWidth rows i j + padding) cell else cell)

/-- A text whose tabs are replaced by blanks so that its columns are aligned. -/
def alignTabs (padding : Nat) (s : String) : String :=
  let rows := (split '\n' s).map (split '\t')
  join "\n" (rows.zipIdx.map fun (row, i) => alignedRow padding rows i row)

end TaintFlow.Text
