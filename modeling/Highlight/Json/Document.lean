import Highlight.Json.Fault
import Highlight.Json.Value

set_option autoImplicit false

/-! JSON texts as they are read, up to the place where they go wrong. A fault stands in the document
where it was met, so that whoever reads the document in order meets first what stands first in the
text: a fault of the text, or a value that is not the one expected there.

A value that nobody asks for is passed over, and then less is required of it: its escapes may name
half a character, its numbers may be of any size and its parts may be nested to any depth. -/

namespace Highlight.Json

/-- The place where a text goes wrong, for one who reads it and for one who passes over it. -/
structure Break where
  read : Stop
  skip : Stop
deriving DecidableEq, Repr, Inhabited

namespace Break

def of (stop : Stop) : Break :=
  ⟨stop, stop⟩

end Break

/-- An item of a list, and what is left of the text behind it. -/
structure Item (δ : Type) where
  value : δ
  after : List Char := []
deriving Inhabited

/-- A member of an object. Its name may be faulty. -/
structure Member (δ : Type) where
  name : Except Stop String
  /-- What is left of the text behind the name. -/
  afterName : List Char := []
  value : δ
  /-- What is left of the text behind the value. -/
  after : List Char := []
deriving Inhabited

inductive Document where
  | null
  | bool (value : Bool)
  | number (value : Number)
  | string (value : String)
  /-- The items and the place where the list goes wrong after them. What is left of the text behind
  the opening bracket comes first. -/
  | array (inside : List Char) (items : List (Item Document)) (fault : Option Break)
  /-- The members and the place where the list goes wrong after them. What is left of the text behind
  the opening brace comes first. -/
  | object (inside : List Char) (members : List (Member Document)) (fault : Option Break)
  /-- The text makes no sense from here on. -/
  | broken (fault : Break)
  /-- A value that cannot be read but can be passed over. -/
  | faulty (stop : Stop)
deriving Inhabited

def mostNested : Nat := 127

namespace Document

mutual

def skipFault? : Document → Option Stop
  | array _ items fault => (skipItems items).or (fault.map (·.skip))
  | object _ members fault => (skipMembers members).or (fault.map (·.skip))
  | broken fault => some fault.skip
  | _ => none

def skipItems : List (Item Document) → Option Stop
  | [] => none
  | ⟨value, _⟩ :: rest => value.skipFault?.or (skipItems rest)

def skipMembers : List (Member Document) → Option Stop
  | [] => none
  | ⟨_, _, value, _⟩ :: rest => value.skipFault?.or (skipMembers rest)

end

mutual

/-- The value of a document all of which is read, when arrays and objects may be nested `depth`
deep. -/
def value (depth : Nat) : Document → Except Stop Json
  | null => .ok .null
  | bool value => .ok (.bool value)
  | number value => .ok (.number value)
  | string value => .ok (.string value)
  | array inside items fault =>
    match depth with
    | 0 => .error (Stop.of .tooDeep inside 0)
    | depth + 1 => do
      let items ← itemValues depth items
      match fault with
      | some fault => .error fault.read
      | none => return .array items
  | object inside members fault =>
    match depth with
    | 0 => .error (Stop.of .tooDeep inside 0)
    | depth + 1 => do
      let members ← memberValues depth members
      match fault with
      | some fault => .error fault.read
      | none => return .object members
  | broken fault => .error fault.read
  | faulty stop => .error stop

def itemValues (depth : Nat) : List (Item Document) → Except Stop (List Json)
  | [] => .ok []
  | ⟨value, _⟩ :: rest => do
    let head ← value.value depth
    return head :: (← itemValues depth rest)

def memberValues (depth : Nat) : List (Member Document) → Except Stop (List (String × Json))
  | [] => .ok []
  | ⟨name, _, value, _⟩ :: rest => do
    let name ← name
    let head ← value.value depth
    return (name, head) :: (← memberValues depth rest)

end

mutual

def ofValue : Json → Document
  | .null => null
  | .bool value => bool value
  | .number value => number value
  | .string value => string value
  | .array items => array [] (ofItems items) none
  | .object members => object [] (ofMembers members) none

def ofItems : List Json → List (Item Document)
  | [] => []
  | item :: rest => { value := ofValue item } :: ofItems rest

def ofMembers : List (String × Json) → List (Member Document)
  | [] => []
  | (name, value) :: rest => { name := .ok name, value := ofValue value } :: ofMembers rest

end

/-- The place where it is known what kind of value stands here, given what is left of the text behind
the value. A number ends only where the next character is seen. -/
def spot (after : List Char) : Document → Spot
  | array inside _ _ | object inside _ _ => { rest := inside }
  | number _ => { rest := after, seen := 1 }
  | _ => { rest := after }

end Document

structure Source where
  text : String
  document : Document
  after : List Char
deriving Inhabited

def isBlank (c : Char) : Bool :=
  c == ' ' || c == '\n' || c == '\t' || c == '\r'

def skipBlanks (chars : List Char) : List Char :=
  chars.dropWhile isBlank

namespace Source

def trailing? (source : Source) : Option Stop :=
  match skipBlanks source.after with
  | [] => none
  | rest => some (Stop.of .textAfterEnd rest 1)

end Source

end Highlight.Json
