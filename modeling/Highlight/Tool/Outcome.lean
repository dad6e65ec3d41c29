set_option autoImplicit false

/-! What is left of a program that has run. -/

namespace Highlight.Tool

structure Outcome where
  /-- Zero if all went well. -/
  code : Nat := 0
  output : String := ""
  errors : String := ""
deriving DecidableEq, Repr, Inhabited

namespace Outcome

def failureCode : Nat := 1

def usageCode : Nat := 2

end Outcome

end Highlight.Tool
