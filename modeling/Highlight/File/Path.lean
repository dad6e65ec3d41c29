set_option autoImplicit false

/-! Names of files. What a path holds need not be text, so each of its units is a character or, where
bytes make up none, nothing. -/

namespace Highlight

structure Path where
  units : List (Option Char)
deriving DecidableEq, Repr, Inhabited

namespace Path

def ofString (text : String) : Path :=
  ⟨text.toList.map some⟩

/-- The path as it is shown, with a mark for what is no text. -/
def display (path : Path) : String :=
  String.ofList (path.units.map fun unit => unit.getD (Char.ofNat 0xFFFD))

def parts : List (Option Char) → List (List (Option Char))
  | [] => [[]]
  | unit :: rest =>
    if unit = some '/' then [] :: parts rest
    else
      match parts rest with
      | [] => [[unit]]
      | part :: others => (unit :: part) :: others

def hereName : List (Option Char) := [some '.']

def aboveName : List (Option Char) := [some '.', some '.']

/-- The last part that leads anywhere. Empty parts, and dots behind the first part, lead nowhere. -/
def lastPart? (path : Path) : Option (List (Option Char)) :=
  match parts path.units with
  | [] => none
  | first :: rest =>
    let leading := rest.reverse.find? fun part => part ≠ [] ∧ part ≠ hereName
    leading.or (if first = [] then none else some first)

def fileName? (path : Path) : Option (List (Option Char)) :=
  path.lastPart?.filter fun part => part ≠ hereName ∧ part ≠ aboveName

/-- A name split at its last dot, unless that is its first character. -/
def splitAtDot? (name : List (Option Char)) : Option (List (Option Char) × List (Option Char)) :=
  let after := (name.reverse.takeWhile (· ≠ some '.')).reverse
  let before := name.take (name.length - after.length - 1)
  if before.isEmpty then none else some (before, after)

def text? (units : List (Option Char)) : Option String :=
  (units.mapM id).map String.ofList

def stem? (path : Path) : Option String := do
  let name ← path.fileName?
  text? ((splitAtDot? name).elim name (·.1))

def extension? (path : Path) : Option String := do
  let name ← path.fileName?
  let (_, after) ← splitAtDot? name
  text? after

def join (path : Path) (name : String) : Path :=
  let name := (ofString name).units
  match path.units.getLast? with
  | none => ⟨name⟩
  | some last => if last = some '/' then ⟨path.units ++ name⟩ else ⟨path.units ++ some '/' :: name⟩

end Path

end Highlight
