import Highlight.Unicode.Letters

set_option autoImplicit false

/-! Words that stand between blanks, and whole numbers that are written in words. -/

namespace Highlight.Text

def consChar (c : Char) : List (List Char) → List (List Char)
  | [] => [[c]]
  | word :: words => (c :: word) :: words

/-- The runs of characters between blanks, of which some may be empty. -/
def blankRuns : List Char → List (List Char)
  | [] => [[]]
  | c :: rest => if Unicode.isBlank c then [] :: blankRuns rest else consChar c (blankRuns rest)

def words (text : String) : List String :=
  ((blankRuns text.toList).filter fun run => !run.isEmpty).map String.ofList

def digitsValue (digits : List Char) : Nat :=
  digits.foldl (fun value digit => value * 10 + (digit.toNat - 48)) 0

def withoutPlus : List Char → List Char
  | '+' :: rest => rest
  | chars => chars

def natural? (bound : Nat) (text : String) : Option Nat :=
  let digits := withoutPlus text.toList
  if digits.isEmpty || !digits.all Char.isDigit then none
  else
    let value := digitsValue digits
    if value < bound then some value else none

end Highlight.Text
