import Highlight.Pattern.Extent
import Highlight.Pattern.Token

set_option autoImplicit false

/-! Reading a pattern source. The reader goes through the source once and keeps, for each group that
is still open, the branches it has so far; a closing parenthesis hands the group to the one around
it as a single node. -/

namespace Highlight.Pattern

inductive Enclosure where
  | whole
  | plain
  | enclosed
  | capture (number : Nat)
  | atomic
  | look (behind negated : Bool)
  | restOfGroup
deriving DecidableEq, Repr, Inhabited

namespace Enclosure

def wrap : Enclosure → Node → Node
  | whole, body => body
  | plain, body => body
  | enclosed, body => .enclosed body
  | restOfGroup, body => .enclosed body
  | capture number, body => .group number body
  | atomic, body => .atomic body
  | look false negated, body => .look false negated body
  | look true negated, body => .look true negated body.withFewestBehind

end Enclosure

/-- An open group: its finished branches and the nodes of the branch it is in, the latest first. -/
structure Frame where
  enclosure : Enclosure
  /-- The options to go back to when the group ends. -/
  outside : Options
  branches : List Node := []
  nodes : List Node := []
  /-- Whether the latest node is a group, which is repeated as a whole even if it holds only
  characters. -/
  endsInGroup : Bool := false
deriving DecidableEq, Repr, Inhabited

namespace Frame

def push (frame : Frame) (node : Node) (isGroup : Bool) : Frame :=
  { frame with nodes := node :: frame.nodes, endsInGroup := isGroup }

def endBranch (frame : Frame) : Frame :=
  { frame with branches := Node.ofList frame.nodes.reverse :: frame.branches, nodes := [] }

def node (frame : Frame) : Node :=
  frame.enclosure.wrap (Node.ofAlternatives frame.endBranch.branches.reverse)

end Frame

structure Reader where
  options : Options
  groups : GroupNames := {}
  current : Frame
  outer : List Frame := []
  /-- The bytes read so far of a character that is written byte by byte. -/
  bytes : List Nat := []
deriving DecidableEq, Repr, Inhabited

inductive RepetitionKind where
  | optional
  | star
  | plus
deriving DecidableEq, Repr, Inhabited

namespace RepetitionKind

def of? (least : Nat) (most : Option Nat) : Option RepetitionKind :=
  match least, most with
  | 0, some 1 => some optional
  | 0, none => some star
  | 1, none => some plus
  | _, _ => none

end RepetitionKind

namespace Node

/-- A simple repetition of a simple repetition as one repetition, where it can be said so; `outer`
and `inner` are whether they are greedy. Two that are lazy in different ways stay two. -/
def repeatRepeated (kind : RepetitionKind) (outer : Bool) (innerKind : RepetitionKind) (inner : Bool)
    (body : Node) : Node :=
  let unchanged := repeated (if innerKind = .plus then 1 else 0)
    (if innerKind = .optional then some 1 else none) inner body
  let star (greedy : Bool) := repeated 0 none greedy body
  let optionalOf (node : Node) (greedy : Bool) := repeated 0 (some 1) greedy node
  match innerKind, inner, kind, outer with
  | .optional, true, .optional, true => unchanged
  | .optional, true, .star, true | .optional, true, .plus, true => star true
  | .optional, true, .optional, false => optionalOf body false
  | .optional, true, .star, false => star false
  | .optional, true, .plus, false => repeated 1 none false unchanged
  | .star, true, .optional, false | .star, true, .star, false =>
    optionalOf (repeated 1 none true body) false
  | .star, true, _, _ => unchanged
  | .plus, true, .optional, true | .plus, true, .star, true => star true
  | .plus, true, .optional, false => optionalOf unchanged false
  | .plus, true, .star, false => optionalOf (repeated 1 none true body) false
  | .plus, true, .plus, _ => unchanged
  | .optional, false, .optional, _ => unchanged
  | .optional, false, _, _ => star false
  | .star, false, _, _ => unchanged
  | .plus, false, .optional, true => optionalOf unchanged true
  | .plus, false, .star, true => optionalOf (repeated 1 none false body) true
  | .plus, false, .plus, _ => unchanged
  | .plus, false, _, false => star false

/-- A node repeated. Once is no repetition. -/
def repeatedBy (node : Node) (repetition : Repetition) : Node :=
  if repetition.least = 1 ∧ repetition.most = some 1 then node
  else
    let plain := repeated repetition.least repetition.most repetition.greedy node
    let loop := match node with
      | repeated least most greedy body =>
        match RepetitionKind.of? repetition.least repetition.most, RepetitionKind.of? least most with
        | some kind, some inner => repeatRepeated kind repetition.greedy inner greedy body
        | _, _ => plain
      | _ => plain
    if repetition.possessive then atomic loop else loop

end Node

namespace Reader

def start (options : Options) : Reader :=
  { options, current := { enclosure := .whole, outside := options } }

def leave (reader : Reader) : Reader :=
  match reader.outer with
  | [] => reader
  | frame :: outer =>
    { reader with
      options := reader.current.outside
      current := frame.push reader.current.node true
      outer }

/-- Ends the stretches of changed options at the end of the group they stand in. -/
def leaveRests (reader : Reader) : Reader :=
  go reader.outer.length reader
where
  go : Nat → Reader → Reader
    | 0, reader => reader
    | depth + 1, reader =>
      if reader.current.enclosure = .restOfGroup then go depth reader.leave else reader

/-- The largest number of groups within each other, the whole pattern being the first. -/
def deepestGroup : Nat := 2048

def enter (reader : Reader) (enclosure : Enclosure) (options : Options) :
    Except PatternError Reader :=
  if deepestGroup ≤ reader.outer.length + 1 then .error .tooDeep
  else .ok { reader with
    options
    current := { enclosure, outside := reader.options }
    outer := reader.current :: reader.outer }

def openGroup (reader : Reader) : Opening → Except PatternError Reader
  | .plain => reader.enter .plain reader.options
  | .enclosed options => reader.enter .enclosed options
  | .restOfGroup options => reader.enter .restOfGroup options
  | .atomic => reader.enter .atomic reader.options
  | .look behind negated => reader.enter (.look behind negated) reader.options
  | .capture name => do
    let groups := reader.groups.add name
    let reader ← reader.enter (.capture groups.count) reader.options
    return { reader with groups }

def closeGroup (reader : Reader) : Except PatternError Reader :=
  let reader := reader.leaveRests
  if reader.current.enclosure = .whole then .error .unmatchedClose else .ok reader.leave

/-- Repeats the latest node. Of characters that are not a group, only the last one is repeated. -/
def repeatLast (reader : Reader) (repetition : Repetition) : Except PatternError Reader :=
  let withNodes (nodes : List Node) : Reader :=
    { reader with current := { reader.current with nodes, endsInGroup := false } }
  match reader.current.nodes with
  | [] => .error .nothingToRepeat
  | node :: nodes =>
    if node.isCondition then .error .cannotRepeat
    else match node, reader.current.endsInGroup with
      | .chars text ignoreCase, false =>
        let last := Node.chars (text.drop (text.length - 1)) ignoreCase
        let before := if text.length ≤ 1 then nodes else .chars text.dropLast ignoreCase :: nodes
        .ok (withNodes (last.repeatedBy repetition :: before))
      | _, _ => .ok (withNodes (node.repeatedBy repetition :: nodes))

def push (reader : Reader) (node : Node) : Reader :=
  { reader with current := reader.current.push node false }

def addChar (reader : Reader) (c : Char) : Reader :=
  let frame := reader.current
  let ignoreCase := reader.options.ignoreCase
  match frame.nodes, frame.endsInGroup with
  | .chars text sameCase :: nodes, false =>
    if ignoreCase = sameCase then
      { reader with current := { frame with nodes := .chars (text ++ [c]) ignoreCase :: nodes } }
    else reader.push (.chars [c] ignoreCase)
  | _, _ => reader.push (.chars [c] ignoreCase)

/-- Adds a byte of a character. The first one starts a character and the others go on with it; bytes
that encode no character all the same match nothing. -/
def addByte (reader : Reader) (byte : Nat) : Except PatternError Reader :=
  let bytes := reader.bytes ++ [byte]
  if bytes.length < byteCount (bytes.headD 0) then .ok { reader with bytes }
  else if goesOn (bytes.headD 0) || !bytes.tail.all goesOn then .error .badCodePoint
  else
    let reader := { reader with bytes := [] }
    match charOfBytes? bytes with
    | some c => .ok (reader.addChar c)
    | none => .ok (reader.push (.set .empty))
where
  goesOn (byte : Nat) : Bool := byte / 64 = 2

def add (reader : Reader) (token : Token) : Except PatternError Reader :=
  match token with
  | .skipped => .ok reader
  | .byte byte => reader.addByte byte
  | _ =>
    if !reader.bytes.isEmpty then .error .shortBytes
    else match token with
      | .char c => .ok (reader.addChar c)
      | .node node => .ok (reader.push node)
      | .repetition repetition => reader.repeatLast repetition
      | .opening opening => reader.openGroup opening
      | .closing => reader.closeGroup
      | .bar => .ok { reader with current := reader.current.endBranch }
      | _ => .ok reader

/-- Reads on to the end of the source. The number bounds the tokens; each one takes at least one
character. -/
def readOn : Nat → Reader → List Char → Except PatternError Reader
  | _, reader, [] => .ok reader
  | 0, _, _ => .error .tooDeep
  | steps + 1, reader, c :: rest => do
    let (token, rest) ← token reader.options reader.groups c rest
    let reader ← reader.add token
    readOn steps reader rest

def finish (reader : Reader) : Except PatternError Node :=
  let rested := reader.leaveRests
  if !reader.bytes.isEmpty then .error .shortBytes
  else if rested.current.enclosure = .whole then .ok rested.current.node
  else .error .unmatchedOpen

end Reader

structure Parsed where
  node : Node
  groups : Nat
deriving DecidableEq, Repr, Inhabited

/-- Reads a pattern source. The source may grow a little while it is read, as numbers that share
their braces are given braces of their own; five steps for each character suffice. -/
def parse (options : Options) (source : List Char) : Except PatternError Parsed := do
  let reader ← (Reader.start options).readOn (5 * source.length) source
  let node ← reader.finish
  return { node, groups := reader.groups.count }

end Highlight.Pattern
