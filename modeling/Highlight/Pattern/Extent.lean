import Highlight.Pattern.Node

set_option autoImplicit false

/-! How many characters the matches of a node take up. A look behind has to know, as it goes back so
many characters before it tries its body. -/

namespace Highlight.Pattern

/-- The least and the greatest number of characters; without a greatest number there is no bound. -/
structure Extent where
  least : Nat
  most : Option Nat
  /-- Whether nothing but the characters decides if there is a match of the least extent. -/
  plain : Bool := true
deriving DecidableEq, Repr, Inhabited

namespace Extent

def exactly (count : Nat) : Extent :=
  { least := count, most := some count }

def add (first second : Extent) : Extent where
  least := first.least + second.least
  most := first.most.bind fun most => second.most.map (most + ·)
  plain := first.plain && second.plain

def either (first second : Extent) : Extent where
  least := min first.least second.least
  most := first.most.bind fun most => second.most.map (max most)
  plain :=
    if first.least < second.least then first.plain
    else if second.least < first.least then second.plain
    else first.plain || second.plain

def times (extent : Extent) (least : Nat) (most : Option Nat) : Extent :=
  if most = some 0 then exactly 0
  else
    { extent with
      least := extent.least * least
      most := most.bind fun times => extent.most.map (· * times) }

def isFixed (extent : Extent) : Bool :=
  extent.most = some extent.least

/-- The farthest that can be looked behind where there is a bound. -/
def farthestBehind : Nat := 65535

def isTooFar (extent : Extent) : Bool :=
  farthestBehind < extent.least || extent.most.any (farthestBehind < ·)

end Extent

namespace Node

def extent : Node → Extent
  | empty => .exactly 0
  | chars text _ => .exactly text.length
  | set _ => .exactly 1
  | spelled foldings =>
    match foldings.map fun folding => Extent.exactly folding.length with
    | [] => .exactly 0
    | first :: others => others.foldl Extent.either first
  | anchor _ | keep | look _ _ _ => { Extent.exactly 0 with plain := false }
  | sequence first second => first.extent.add second.extent
  | either first second => first.extent.either second.extent
  | group _ body | enclosed body | atomic body => body.extent
  | repeated least most _ body => body.extent.times least most
  | reference _ _ => { least := 0, most := none, plain := false }

/-- Whether a node may not stand in a look behind. One that is negated holds no groups, since they
would remember nothing; neither of the two looks at what comes after. -/
def isBarredBehind (negated : Bool) : Node → Bool
  | anchor .textEnd | anchor .lastLineEnd => true
  | sequence first second | either first second =>
    first.isBarredBehind negated || second.isBarredBehind negated
  | group _ body => negated || body.isBarredBehind negated
  | enclosed body | repeated _ _ _ body | atomic body => body.isBarredBehind negated
  | look behind isNegated body =>
    !behind || (isNegated && !negated) || body.isBarredBehind negated
  | _ => false

def isSimple : Node → Bool
  | empty | set _ | reference _ _ => true
  | chars text ignoreCase =>
    !ignoreCase || text.length ≤ 1 || text.all fun c => (Unicode.caseVariants c).length ≤ 1
  | _ => false

/-- The node with the repetitions that it starts with done as few times as they may be. At the start
of a look behind, what more they took would be of no account. -/
def withFewestFirst : Node → Node
  | repeated least most greedy body =>
    if body.isSimple then repeated least (some least) greedy body
    else repeated least most greedy body
  | sequence first second =>
    match first with
    | repeated least most greedy body =>
      if body.isSimple then
        sequence (repeated least (some least) greedy body)
          (if least = 0 then second.withFewestFirst else second)
      else sequence (repeated least most greedy body) second
    | _ => sequence first second
  | node => node

def withFewestBehind : Node → Node
  | either first second => either first.withFewestFirst second.withFewestBehind
  | node => node.withFewestFirst

/-- Whether a node is several repetitions that all may be left out, so that none of them would be
left. -/
def isAllLeftOut (node : Node) : Bool :=
  2 ≤ node.parts.length && node.parts.all fun part =>
    match part with
    | repeated least _ _ body => least = 0 && body.isSimple
    | _ => false

end Node

end Highlight.Pattern
