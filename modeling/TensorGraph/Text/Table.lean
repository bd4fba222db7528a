import TensorGraph.Text.Decimal

/-!
# Tables and records

Rows of cells in boxes drawn with lines, and values with named fields on one line.
Each column of a table is as wide as its widest cell; characters outside ASCII take
two places.
-/

namespace TensorGraph.Text

namespace Table

/-- The number of places that a text takes. -/
def width (text : String) : Nat :=
  text.toList.foldl (fun places character => places + if character.toNat < 128 then 1 else 2) 0

/-- The text repeated. -/
def times (count : Nat) (character : Char) : String :=
  String.ofList (List.replicate count character)

/-- The widths of the columns of a table with the given head. -/
def columnWidths (head : List String) (rows : List (List String)) : List Nat :=
  rows.foldl (fun widths row => widths.zipWith max (row.map width)) (head.map width)

/-- A horizontal line between two rows. -/
def border (widths : List Nat) (left middle right : String) : String :=
  left ++ middle.intercalate (widths.map fun width => times (width + 2) '─') ++ right ++ "\n"

/-- A cell, filled up with spaces. -/
def cell (text : String) (columnWidth : Nat) : String :=
  " " ++ text ++ times (columnWidth - width text) ' ' ++ " "

/-- A row of cells. -/
def line (widths : List Nat) (cells : List String) : String :=
  "│" ++ "│".intercalate (cells.zipWith cell widths) ++ "│\n"

/-- A table with a head. -/
def render (head : List String) (rows : List (List String)) : String :=
  let widths := columnWidths head rows
  border widths "┌" "┬" "┐" ++ line widths head ++ border widths "├" "┼" "┤" ++
    String.join (rows.map (line widths)) ++ border widths "└" "┴" "┘"

end Table

namespace Record

/-- A field with its value. -/
def field (name value : String) : String :=
  name ++ ": " ++ value

/-- A record of the given type. -/
def render (typeName : String) (fields : List String) : String :=
  typeName ++ " \x7b " ++ ", ".intercalate fields ++ " \x7d"

/-- A number with the name of its type. -/
def numbered (typeName : String) (number : Nat) : String :=
  typeName ++ "(" ++ Decimal.text number ++ ")"

/-- A truth value. -/
def truth : Bool → String
  | true => "true"
  | false => "false"

end Record

end TensorGraph.Text
