import Highlight.Pattern.Escape

set_option autoImplicit false

/-! Bracket classes. The reader holds the set gathered so far and the member read last, which is not
added before it is known whether it opens a range. -/

namespace Highlight.Pattern

/-- A member of a class. A byte beyond the first 128 that is not part of a character is a member that
no character equals, but it can be an end of a range. -/
structure ClassMember where
  code : Nat
  isByte : Bool
deriving DecidableEq, Repr, Inhabited

namespace ClassMember

def ofCode (code : Nat) : ClassMember :=
  { code, isByte := code < 128 }

/-- The characters from one member to another; among bytes there are but the first 128. -/
def rangeTo (first last : ClassMember) : CharSet :=
  if first.isByte && last.isByte then .range first.code (min last.code 127)
  else .range first.code last.code

def chars (member : ClassMember) : CharSet :=
  if member.isByte && 128 ≤ member.code then .empty else .single (Char.ofNat member.code)

end ClassMember

inductive ClassPoint where
  | start
  /-- A member that can open a range. -/
  | member (member : ClassMember)
  /-- A kind of characters. -/
  | kind
  /-- A member and a hyphen. -/
  | range (first : ClassMember)
  /-- A finished range or a nested class. -/
  | complete
deriving DecidableEq, Repr, Inhabited

structure ClassState where
  /-- What stands before the last `&&`. -/
  earlier : Option CharSet := none
  set : CharSet := .empty
  point : ClassPoint := .start
deriving DecidableEq, Repr, Inhabited

namespace ClassState

def add (state : ClassState) (set : CharSet) : ClassState :=
  { state with set := if state.set = .empty then set else .union state.set set }

def settle (state : ClassState) : ClassState :=
  match state.point with
  | .member member => state.add member.chars
  | _ => state

def addMember (state : ClassState) (member : ClassMember) : Except PatternError ClassState :=
  match state.point with
  | .range first =>
    if member.code < first.code then .error .emptyRange
    else .ok { state.add (first.rangeTo member) with point := .complete }
  | _ => .ok { state.settle with point := .member member }

/-- Adds a code point. One that is not of a character can only end a range. -/
def addCode (state : ClassState) (code : Nat) : Except PatternError ClassState :=
  match state.point with
  | .range _ => state.addMember (.ofCode code)
  | _ => do
    let c ← charOfCode code
    state.addMember (.ofCode c.toNat)

def addKind (state : ClassState) (set : CharSet) : Except PatternError ClassState :=
  match state.point with
  | .range _ => .error .kindAtRangeEnd
  | _ => .ok { state.settle.add set with point := .kind }

def addNested (state : ClassState) (set : CharSet) : ClassState :=
  { state.settle.add set with point := .complete }

def intersected (state : ClassState) : CharSet :=
  match state.earlier with
  | none => state.settle.set
  | some earlier => .inter earlier state.settle.set

def intersect (state : ClassState) : ClassState :=
  { earlier := some state.intersected }

def endsRange : List Char → Bool
  | ']' :: _ => true
  | '&' :: '&' :: _ => true
  | _ => false

/-- A hyphen is a member where no range can go on: at the start, after a finished range, and before
the end or `&&`. -/
def addHyphen (state : ClassState) (rest : List Char) : Except PatternError ClassState :=
  let last := endsRange rest
  let hyphen := ClassMember.ofCode '-'.toNat
  match state.point with
  | .member first => if last then state.addMember hyphen else .ok { state with point := .range first }
  | .kind => if last then state.addMember hyphen else .error .unmatchedRange
  | _ => state.addMember hyphen

end ClassState

def dropWord? : List Char → List Char → Option (List Char)
  | [], rest => some rest
  | _ :: _, [] => none
  | c :: word, d :: rest => if c = d then dropWord? word rest else none

/-- Whether what stands after `[:` is letters up to `:]`, and with that the name of a kind, though it
may be unknown. A circumflex can stand before the name. -/
def opensNamedKind (rest : List Char) : Bool :=
  let name := match rest with
    | '^' :: after => after
    | _ => rest
  let beyond := name.dropWhile Unicode.isAlphabetic
  match beyond with
  | ':' :: ']' :: _ => beyond.length < rest.length
  | _ => false

def namedKind (rest : List Char) : Except PatternError (CharSet × List Char) :=
  let (negated, name) := match rest with
    | '^' :: after => (true, after)
    | _ => (false, rest)
  let found := CharKind.all.findSome? fun kind =>
    (dropWord? (kind.name.toList ++ [':', ']']) name).map fun after => (CharSet.ofKind kind, after)
  match found with
  | some (set, after) => .ok (if negated then .complement set else set, after)
  | none => .error .badPosixClass

/-- Adds what an escape stands for, given what stands after it. A character of several bytes needs
all of them, written to the same base. -/
def ClassState.addWritten (state : ClassState) (written : Written) (rest : List Char) :
    Except PatternError (ClassState × List Char) :=
  match written with
  | .point code => do return (← state.addCode code, rest)
  | .byte lead base => do
    let (others, after) ← followingBytes base (byteCount lead - 1) rest
    if others.isEmpty then return (← state.addMember ⟨lead, true⟩, after)
    else match charOfBytes? (lead :: others) with
      | some c => return (← state.addCode c.toNat, after)
      | none => .error .badCodePoint

def classEscape (state : ClassState) :
    List Char → Except PatternError (ClassState × List Char)
  | [] => .error .endAtEscape
  | c :: rest =>
    match letterKind? .word c with
    | some set => do return (← state.addKind set, rest)
    | none =>
      match c, rest with
      | 'p', brace :: after | 'P', brace :: after =>
        if brace = Char.ofNat 123 then do
          let (set, after) ← property (c = 'P') after
          return (← state.addKind set, after)
        else do return (← state.addCode c.toNat, rest)
      | _, _ => do
        match ← nextByte? 8 ('\\' :: c :: rest) with
        | some (byte, after) => state.addWritten (.byte byte 8) after
        | none =>
          let (written, after) ← sharedEscape true c rest
          state.addWritten written after

/-- Whether a class is negated, and what it starts with. A bracket in the first place is a member if
another one stands further on. -/
def classStart (rest : List Char) : Except PatternError (Bool × ClassState × List Char) :=
  let (negated, rest) := match rest with
    | '^' :: after => (true, after)
    | _ => (false, rest)
  match rest with
  | ']' :: after =>
    if after.contains ']' then do
      let state ← ClassState.addCode {} ']'.toNat
      return (negated, state, after)
    else .error .emptyClass
  | _ => .ok (negated, {}, rest)

/-- Reads the members of a class up to its closing bracket. The number bounds the steps; each step
takes at least one character. -/
def classMembers : Nat → ClassState → List Char → Except PatternError (CharSet × List Char)
  | _, _, [] => .error .unclosedClass
  | 0, _, _ => .error .tooDeep
  | _ + 1, state, ']' :: rest => .ok (state.intersected, rest)
  | steps + 1, state, '\\' :: rest => do
    let (state, rest) ← classEscape state rest
    classMembers steps state rest
  | steps + 1, state, '-' :: rest => do
    let state ← state.addHyphen rest
    classMembers steps state rest
  | steps + 1, state, '&' :: '&' :: rest => classMembers steps state.intersect rest
  | steps + 1, state, '[' :: ':' :: rest => do
    if opensNamedKind rest then
      let (set, after) ← namedKind rest
      let state ← state.addKind set
      classMembers steps state after
    else
      let (negated, nested, after) ← classStart (':' :: rest)
      let (set, after) ← classMembers steps nested after
      classMembers steps (state.addNested (if negated then .complement set else set)) after
  | steps + 1, state, '[' :: rest => do
    let (negated, nested, after) ← classStart rest
    let (set, after) ← classMembers steps nested after
    classMembers steps (state.addNested (if negated then .complement set else set)) after
  | steps + 1, state, c :: rest => do
    let state ← state.addCode c.toNat
    classMembers steps state rest

/-- A class: the characters it takes, and the longer texts that are like one of them but for case,
as their foldings. -/
structure BracketClass where
  set : CharSet
  spellings : List (List Char) := []
deriving DecidableEq, Repr, Inhabited

/-- Reads a class after its opening bracket. Where case does not count, the members stand for their
variants too; a class that is not negated also takes the variants of two or three characters. The
source may grow a little while it is read, as numbers that share their braces are given braces of
their own; five steps for each character suffice. -/
def bracketClass (foldCase : Bool) (rest : List Char) :
    Except PatternError (BracketClass × List Char) := do
  let (negated, state, after) ← classStart rest
  let (members, after) ← classMembers (5 * rest.length + 1) state after
  let set := if foldCase then .folded members else members
  if negated then return ({ set := .complement set }, after)
  else return ({ set, spellings := if foldCase then set.longFoldings else [] }, after)

end Highlight.Pattern
