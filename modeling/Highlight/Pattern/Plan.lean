import Highlight.Pattern.Error
import Highlight.Pattern.Extent
import Highlight.Text

set_option autoImplicit false

/-! How a pattern is tried. A plan is made from a tree once its groups are known: letters whose case
does not count are spelled out, loops are laid out, and it is settled how far each look behind goes
back. -/

namespace Highlight.Pattern

inductive Plan where
  | done
  | text (chars : List Char)
  | set (chars : CharSet)
  /-- One of some texts but for case, each given by its folding character by character. -/
  | spelled (foldings : List (List Char))
  | anchor (anchor : Anchor)
  /-- The match is taken to start here. -/
  | keep
  | sequence (first second : Plan)
  | either (first second : Plan)
  | group (number : Nat) (body : Plan)
  /-- The body or nothing, the body first if `greedy`. -/
  | optional (greedy : Bool) (body : Plan)
  /-- The body time after time. A round that takes up no text is the last one, unless it has changed
  one of the watched groups. -/
  | rounds (least : Nat) (most : Option Nat) (greedy : Bool) (watched : List Nat) (body : Plan)
  /-- Once matched, the body is not tried another way. -/
  | atomic (body : Plan)
  | ahead (negated : Bool) (body : Plan)
  /-- The body matches up to the position from so many characters before it. -/
  | behind (least : Nat) (most : Option Nat) (negated : Bool) (body : Plan)
  | reference (groups : List Nat) (ignoreCase : Bool)
deriving DecidableEq, Repr, Inhabited

namespace Plan

/-- A plan before another, where texts that meet are joined. -/
def join : Plan → Plan → Plan
  | done, rest => rest
  | text chars, text next => text (chars ++ next)
  | text chars, sequence (text next) rest => sequence (text (chars ++ next)) rest
  | first, done => first
  | first, rest => sequence first rest

def copies (body : Plan) : Nat → Plan
  | 0 => done
  | 1 => body
  | count + 1 => sequence body (copies body count)

def upTo (body : Plan) : Nat → Plan
  | 0 => done
  | 1 => optional true body
  | count + 1 => optional true (sequence body (upTo body count))

def branches : Plan → List Plan
  | either first second => first :: second.branches
  | plan => [plan]

def mayBeEmpty : Plan → Bool
  | text chars => chars.isEmpty
  | set _ | spelled _ => false
  | sequence first second => first.mayBeEmpty && second.mayBeEmpty
  | either first second => first.mayBeEmpty || second.mayBeEmpty
  | group _ body | atomic body => body.mayBeEmpty
  | rounds least _ _ _ body => least = 0 || body.mayBeEmpty
  | _ => true

/-- How many stretches of characters of one width in bytes a text has. -/
def stretches : List Char → Nat
  | [] => 0
  | [_] => 1
  | c :: d :: rest => stretches (d :: rest) + if c.utf8Size = d.utf8Size then 0 else 1

def size : Plan → Nat
  | done => 0
  | text chars => stretches chars
  | set _ | anchor _ | keep | reference _ _ => 1
  | spelled foldings =>
    match foldings with
    | [[_]] => 1
    | _ => foldings.flatten.length + 2 * foldings.length
  | sequence first second => first.size + second.size
  | either first second => first.size + second.size + 2
  | group _ body | atomic body => body.size + 2
  | optional greedy body => body.size + if greedy then 1 else 2
  | rounds least most greedy _ body =>
    if greedy && most.isNone && (body = set .withinLine || body = set .anything) then least + 1
    else body.size + (if body.mayBeEmpty then 4 else 2)
      + (if least = 1 && most.isNone then 1 else 0)
  | ahead negated body => body.size + if negated then 5 else 2
  | behind least most negated body =>
    body.size + if most = some least then (if negated then 6 else 3) else 12

def mostSteps : Nat := 10

def mostBytes : Nat := 100

/-- A text as often as it is repeated, if that is a fixed number of times and not too long. -/
def repeatedText? (least : Nat) (most : Option Nat) : Plan → Option Plan
  | text chars =>
    if most = some least && 2 ≤ least && Text.bytesOf chars * least ≤ mostBytes then
      some (text (List.replicate least chars).flatten)
    else none
  | _ => none

/-- A plan repeated. Short ones are laid out as copies, whose rounds may all take up no text; the
others are rounds. -/
def repeated (least : Nat) (most : Option Nat) (greedy : Bool) (watched : List Nat) (body : Plan) :
    Plan :=
  let size := body.size
  if size = 0 || most = some 0 then done
  else match repeatedText? least most body, most with
    | some plan, _ => plan
    | none, none =>
      if least = 1 && mostSteps < size then rounds 1 none greedy watched body
      else if least ≤ 1 || size * least ≤ mostSteps then
        (body.copies least).join (rounds 0 none greedy watched body)
      else rounds least none greedy watched body
    | none, some most =>
      if greedy && (most = 1 || (size + 1) * most ≤ mostSteps) then
        (body.copies least).join (body.upTo (most - least))
      else if !greedy && least = 0 && most = 1 then optional false body
      else rounds least (some most) greedy watched body

/-- A character whose case does not count, behind which no other is looked at. -/
def letter (c : Char) : Plan :=
  if (Unicode.caseVariants c).length ≤ 1 then text [c] else spelled [[Unicode.foldChar c]]

def ligature (folding : List Char) : Plan :=
  either (set (.ofList (Unicode.ligatures folding))) (spelled [folding])

/-- Characters whose case does not count. From left to right, three or two that are the folding of
one character stand for it too. -/
def letters : List Char → Plan
  | [] => done
  | [c] => single c
  | [c, d] =>
    let pair := [c, d].map Unicode.foldChar
    if (Unicode.ligatures pair).isEmpty then (single c).join (letters [d]) else ligature pair
  | c :: d :: e :: rest =>
    let three := [c, d, e].map Unicode.foldChar
    let pair := [c, d].map Unicode.foldChar
    if !(Unicode.ligatures three).isEmpty then (ligature three).join (letters rest)
    else if !(Unicode.ligatures pair).isEmpty then (ligature pair).join (letters (e :: rest))
    else (single c).join (letters (d :: e :: rest))
where
  single (c : Char) : Plan :=
    match Unicode.longFold? c with
    | some folding => ligature folding
    | none => letter c

/-- Characters whose case does not count, in a look behind: each stands for single characters. -/
def lettersBehind (chars : List Char) : Plan :=
  (chars.map fun c =>
    match Unicode.longFold? c with
    | some folding => set (.ofList (Unicode.ligatures folding))
    | none => letter c).foldr join done

end Plan

structure Planning where
  /-- The groups that the pattern refers to, one entry for each reference. -/
  references : List Nat
  /-- Whether the node stands in a look behind. -/
  isBehind : Bool := false
deriving DecidableEq, Repr, Inhabited

namespace Planning

/-- The groups of a loop body to be watched in its rounds that take up no text: those referred to
from outside. A group in a loop within the loop that can have such rounds is watched there. -/
def watched (planning : Planning) (body : Node) : List Nat :=
  let inner := body.references
  if planning.references.isEmpty || body.extent.least ≠ 0 then []
  else (groups body).filter fun group => inner.count group < planning.references.count group
where
  groups : Node → List Nat
    | .sequence first second | .either first second => groups first ++ groups second
    | .group number body => number :: groups body
    | .enclosed body | .atomic body => groups body
    | .repeated _ most _ body =>
      if most = some 0 || body.extent.least = 0 then [] else groups body
    | _ => []

/-- A look behind whose body is one of several, each of a fixed extent: one look for each. -/
def divided (negated : Bool) : List Nat → Plan → Plan
  | [], _ => .done
  | [count], plan => .behind count (some count) negated plan
  | count :: counts, .either first second =>
    let look := Plan.behind count (some count) negated first
    let others := divided negated counts second
    if negated then .sequence look others else .either look others
  | count :: _, plan => .behind count (some count) negated plan

/-- The plan of a look behind, given that of its body. Where the body can always match without any
text, there is nothing to try. -/
def behind (planning : Planning) (negated : Bool) (body : Node) (plan : Plan) :
    Except PatternError Plan :=
  let extent := body.extent
  let extents := body.branches.map Node.extent
  if body.branches.any Node.isAllLeftOut then .error .unnamed
  else if extent.isTooFar then .error .badLookBehind
  else if extent.least = 0 && extent.plain && !body.captures.any planning.references.contains then
    .ok (if negated then .anchor .never else .done)
  else if !extent.isFixed && extents.all Extent.isFixed then
    .ok (divided negated (extents.map (·.least)) plan)
  else .ok (.behind extent.least extent.most negated plan)

end Planning

namespace Node

/-- The plan of a node. Of two faults, that which comes first in the tree is reported. -/
def plan (planning : Planning) : Node → Except PatternError Plan
  | empty => .ok .done
  | chars text ignoreCase =>
    .ok (if !ignoreCase then .text text
      else if planning.isBehind then Plan.lettersBehind text else Plan.letters text)
  | set members => .ok (.set members)
  | spelled foldings => .ok (.spelled foldings)
  | anchor condition => .ok (.anchor condition)
  | keep => .ok .keep
  | sequence first second => do
    let start ← first.plan planning
    return start.join (← second.plan planning)
  | either first second => do
    let one ← first.plan planning
    return .either one (← second.plan planning)
  | group number body => do return .group number (← body.plan planning)
  | enclosed body => body.plan planning
  | repeated least most greedy body => do
    let plan ← body.plan planning
    return plan.repeated least most greedy (planning.watched body)
  | atomic body => do return .atomic (← body.plan planning)
  | look behind negated body => do
    if behind then
      if body.isBarredBehind negated then throw .badLookBehind
      let plan ← body.plan { planning with isBehind := true }
      planning.behind negated body plan
    else return .ahead negated (← body.plan planning)
  | reference groups ignoreCase => .ok (.reference groups ignoreCase)

end Node

end Highlight.Pattern
