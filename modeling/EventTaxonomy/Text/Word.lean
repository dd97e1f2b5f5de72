/-!
# Numbers of one word

Reading a natural number below `2 ^ 64` from its digits, with a plus sign in front if there is one.
-/

namespace EventTaxonomy

namespace Text

/-- Why a text is no number of one word. -/
inductive WordError where
  | empty
  | invalidDigit
  | tooLarge
  deriving DecidableEq, Repr

namespace WordError

/-- The wording. -/
def message : WordError → String
  | empty => "cannot parse integer from empty string"
  | invalidDigit => "invalid digit found in string"
  | tooLarge => "number too large to fit in target type"

end WordError

/-- Reads digits after the number `n`. -/
def wordDigits (n : Nat) : List Char → Except WordError Nat
  | [] => .ok n
  | c :: s =>
    if c.isDigit then
      let m := n * 10 + (c.toNat - 48)
      if m < 2 ^ 64 then wordDigits m s else .error .tooLarge
    else .error .invalidDigit

/-- Reads a number of one word. -/
def readWord : List Char → Except WordError Nat
  | [] => .error .empty
  | ['+'] => .error .invalidDigit
  | '+' :: s => wordDigits 0 s
  | s => wordDigits 0 s

end Text

end EventTaxonomy
