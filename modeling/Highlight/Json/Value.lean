import Highlight.Json.Binary

set_option autoImplicit false

/-! JSON values. Members of an object keep their order. -/

namespace Highlight

namespace Json

inductive Number where
  | natural (value : Nat)
  /-- The negative of a number that is not zero. -/
  | negative (magnitude : Nat)
  | floating (below : Bool) (magnitude : Binary)
deriving DecidableEq, Repr, Inhabited

namespace Number

/-- Whole numbers up to here keep all their digits. -/
def mostNatural : Nat := Nat.pow 2 64 - 1

def text : Number → String
  | natural value => toString value
  | negative magnitude => "-" ++ toString magnitude
  | floating below magnitude => (if below then "-" else "") ++ magnitude.text

end Number

end Json

inductive Json where
  | null
  | bool (value : Bool)
  | number (value : Json.Number)
  | string (value : String)
  | array (items : List Json)
  | object (members : List (String × Json))
deriving Repr, Inhabited

namespace Json

def natural (value : Nat) : Json :=
  number (.natural value)

/-- The last member of a name. -/
def member? (name : String) : Json → Option Json
  | object members => (members.reverse.find? fun member => member.1 == name).map (·.2)
  | _ => none

end Json

end Highlight
