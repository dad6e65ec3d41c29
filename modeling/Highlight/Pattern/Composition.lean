set_option autoImplicit false

/-! Joining pattern sources into one. Each fragment becomes a group of its own, and the references in
it by number are raised by the number of that group, so that they still mean the groups of the
fragment. The fragments are gone through character by character; nothing of the grammar of patterns
is known here but bracket classes, escapes and the parentheses that open groups. -/

namespace Highlight.Pattern

/-- How many characters it takes to the end of a bracket class, the closing bracket counted, given
what stands after its opening bracket. -/
def classLength? : List Char → Option Nat
  | [] => none
  | ['\\'] => none
  | '\\' :: _ :: rest => (classLength? rest).map (· + 2)
  | c :: rest => if c = ']' then some 1 else (classLength? rest).map (· + 1)

/-- Whether a parenthesis opens a group that remembers its text, given what stands after it. -/
def opensCapture : List Char → Bool
  | '?' :: '<' :: '=' :: _ => false
  | '?' :: '<' :: '!' :: _ => false
  | '?' :: '<' :: _ => true
  | '?' :: '\'' :: _ => true
  | '?' :: 'P' :: '<' :: _ => true
  | '?' :: _ => false
  | _ => true

/-- The text of a reference to a group by its number. Beyond nine, the short form could be read as an
octal number. -/
def writtenReference (group : Nat) : List Char :=
  if group ≤ 9 then '\\' :: (toString group).toList
  else "\\k<".toList ++ (toString group).toList ++ ['>']

def largestReference : Nat := Nat.pow 2 64 - 1

/-- The number of a group that is written without a leading zero. -/
def referenceNumber? (digits : List Char) : Option Nat :=
  if digits.isEmpty || digits.head? = some '0' || !digits.all Char.isDigit then none
  else
    let number := digits.foldl (fun value digit => value * 10 + (digit.toNat - 48)) 0
    if number ≤ largestReference then some number else none

/-- A reference by number, given what stands after the backslash: the number, and how many characters
it takes. -/
def reference? : List Char → Option (Nat × Nat)
  | 'k' :: '<' :: rest =>
    let digits := rest.takeWhile (· ≠ '>')
    if digits.length < rest.length then
      (referenceNumber? digits).map fun number => (number, 3 + digits.length)
    else none
  | rest =>
    let digits := rest.takeWhile Char.isDigit
    (referenceNumber? digits).map fun number => (number, digits.length)

structure Raised where
  source : List Char := []
  groups : Nat := 0
deriving DecidableEq, Repr, Inhabited

namespace Raised

def push (c : Char) (raised : Raised) : Raised :=
  { raised with source := c :: raised.source }

end Raised

/-- Goes through a fragment. The next `copied` characters are taken as they are, then `dropped` ones
are left out; the first number is what each reference is raised by. The number that a reference is
raised to may go beyond the largest one that it can be raised from. -/
def raiseFrom (offset : Nat) : Nat → Nat → List Char → Raised
  | _, _, [] => {}
  | copied + 1, dropped, c :: rest => (raiseFrom offset copied dropped rest).push c
  | 0, dropped + 1, _ :: rest => raiseFrom offset 0 dropped rest
  | 0, 0, c :: rest =>
    match c with
    | '[' => (raiseFrom offset ((classLength? rest).getD 0) 0 rest).push c
    | '\\' =>
      match reference? rest with
      | some (number, length) =>
        let raised := raiseFrom offset 0 length rest
        { raised with source := writtenReference (number + offset) ++ raised.source }
      | none => (raiseFrom offset 1 0 rest).push c
    | '(' =>
      let raised := (raiseFrom offset 0 0 rest).push c
      if opensCapture rest then { raised with groups := raised.groups + 1 } else raised
    | _ => (raiseFrom offset 0 0 rest).push c

def raise (offset : Nat) (fragment : String) : Raised :=
  raiseFrom offset 0 0 fragment.toList

def countGroups (source : String) : Nat :=
  (raise 0 source).groups

structure Composition where
  source : String
  /-- The group of each fragment. -/
  wrappers : List Nat
  /-- How many groups each fragment opens itself. -/
  groupCounts : List Nat
deriving DecidableEq, Repr, Inhabited

/-- The groups of the fragments, their group counts and their sources with `seen` groups before
them. -/
def wrapFragments : Nat → List String → List (Nat × Nat × String)
  | _, [] => []
  | seen, fragment :: rest =>
    let wrapper := seen + 1
    let raised := raise wrapper fragment
    (wrapper, raised.groups, "(" ++ String.ofList raised.source ++ ")")
      :: wrapFragments (wrapper + raised.groups) rest

def compose (fragments : List String) (joint : String) : Composition :=
  let wrapped := wrapFragments 0 fragments
  { source := joint.intercalate (wrapped.map (·.2.2))
    wrappers := wrapped.map (·.1)
    groupCounts := wrapped.map (·.2.1) }

end Highlight.Pattern
