/-!
# Columns

Text set in a column: first cut to a precision, then filled with spaces to a width. Both count
characters.
-/

namespace EventTaxonomy

namespace Text

/-- The side of a column on which text stands. -/
inductive Align where
  | left
  | right
  | center
  deriving DecidableEq

/-- Cuts the text to `precision` characters and fills it with spaces to `width`. In the centre an
odd space goes to the right. -/
def column (align : Align) (width : Nat) (precision : Option Nat) (s : String) : String :=
  let chars := match precision with
    | none => s.toList
    | some n => s.toList.take n
  let fill := width - chars.length
  let before := match align with
    | .left => 0
    | .right => fill
    | .center => fill / 2
  String.ofList (List.replicate before ' ' ++ chars ++ List.replicate (fill - before) ' ')

/-- The text at the left of a column that is at least `width` wide. -/
def padRight (width : Nat) (s : String) : String := column .left width none s

theorem padRight_eq (width : Nat) (s : String) :
    padRight width s = s ++ String.ofList (List.replicate (width - s.length) ' ') := by
  simp [padRight, column, ← String.length_toList]

end Text

end EventTaxonomy
