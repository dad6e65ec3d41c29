import Highlight.Pattern.CharSet

set_option autoImplicit false

/-! Patterns as trees, as they are written. A pattern source is read into a tree by
`Highlight.Pattern.Parser`; how a tree is tried on a text is said by `Highlight.Pattern.Plan`. -/

namespace Highlight.Pattern

inductive Anchor where
  | wordBoundary
  | noWordBoundary
  | lineStart
  | lineEnd
  | textStart
  | textEnd
  /-- The end of the text or before a line feed that ends it. -/
  | lastLineEnd
  /-- Where the search began. -/
  | searchStart
  | always
  | never
deriving DecidableEq, Repr, Inhabited

inductive Node where
  | empty
  /-- These characters one after the other. Where case does not count, letters that stand side by
  side are compared as one text, since a character can fold to several. -/
  | chars (text : List Char) (ignoreCase : Bool)
  | set (chars : CharSet)
  /-- One of some texts but for case, each given by its folding character by character. -/
  | spelled (foldings : List (List Char))
  | anchor (anchor : Anchor)
  /-- The match is taken to start here. -/
  | keep
  | sequence (first second : Node)
  | either (first second : Node)
  /-- A group that remembers the text it matched last. -/
  | group (number : Nat) (body : Node)
  /-- A group with options of its own. -/
  | enclosed (body : Node)
  | repeated (least : Nat) (most : Option Nat) (greedy : Bool) (body : Node)
  /-- Once matched, the body is not tried another way. -/
  | atomic (body : Node)
  /-- The body matches at the position, or up to it if `behind`, or does neither if `negated`. -/
  | look (behind negated : Bool) (body : Node)
  /-- The text that one of the groups matched last, the latest group first. -/
  | reference (groups : List Nat) (ignoreCase : Bool)
deriving DecidableEq, Repr, Inhabited

namespace Node

/-- A node before a sequence, in which its parts and the characters that meet are joined. -/
def join : Node → Node → Node
  | empty, rest => rest
  | sequence first second, rest => first.join (second.join rest)
  | chars text ignoreCase, rest =>
    match rest with
    | empty => chars text ignoreCase
    | chars next sameCase =>
      if ignoreCase = sameCase then chars (text ++ next) ignoreCase
      else sequence (chars text ignoreCase) (chars next sameCase)
    | sequence (chars next sameCase) others =>
      if ignoreCase = sameCase then sequence (chars (text ++ next) ignoreCase) others
      else sequence (chars text ignoreCase) (sequence (chars next sameCase) others)
    | _ => sequence (chars text ignoreCase) rest
  | node, empty => node
  | node, rest => sequence node rest

/-- The nodes one after the other. A sequence that comes first stays one part of the whole; those
after it are taken apart. -/
def ofList : List Node → Node
  | [] => empty
  | first :: others =>
    let rest := others.foldr join empty
    match first, rest with
    | sequence _ _, empty => first
    | sequence _ _, _ => sequence first rest
    | _, _ => first.join rest

def ofAlternatives : List Node → Node
  | [] => empty
  | [node] => node
  | node :: rest => either node (ofAlternatives rest)

def parts : Node → List Node
  | sequence first second => first :: second.parts
  | node => [node]

def branches : Node → List Node
  | either first second => first :: second.branches
  | node => [node]

/-- Whether a node is a condition on the position, or a choice that holds one; such a node cannot be
repeated. -/
def isCondition : Node → Bool
  | anchor _ | keep | look _ _ _ => true
  | either first second => first.isCondition || second.isCondition
  | _ => false

def captures : Node → List Nat
  | sequence first second | either first second => first.captures ++ second.captures
  | group number body => number :: body.captures
  | enclosed body | repeated _ _ _ body | atomic body | look _ _ body => body.captures
  | _ => []

def references : Node → List Nat
  | sequence first second | either first second => first.references ++ second.references
  | group _ body | enclosed body | repeated _ _ _ body | atomic body | look _ _ body =>
    body.references
  | reference groups _ => groups
  | _ => []

end Node

end Highlight.Pattern
