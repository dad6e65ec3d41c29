import Highlight.Pattern.Escape
import Highlight.Pattern.Plan
import Highlight.Text

set_option autoImplicit false

/-! What a plan matches. A plan is tried at a position and hands the position behind it to the rest
of the pattern; if the rest does not match from there, the plan is tried another way, in a fixed
order. So the first way through the whole pattern is its match. -/

namespace Highlight.Pattern

/-- Where a match has come to, and the spans that the groups matched last. -/
structure Progress where
  position : Nat
  /-- Where the match is taken to start, if that has been said. -/
  kept : Option Nat := none
  groups : Array (Option Span)
deriving DecidableEq, Repr, Inhabited

abbrev Continuation := Progress → Option Progress

namespace Progress

def moveTo (progress : Progress) (position : Nat) : Progress :=
  { progress with position }

def reopen (progress : Progress) (group : Nat) : Progress :=
  { progress with groups := progress.groups.setIfInBounds group none }

def remember (progress : Progress) (group : Nat) (span : Span) : Progress :=
  { progress with groups := progress.groups.setIfInBounds group (some span) }

def span? (progress : Progress) (group : Nat) : Option Span :=
  progress.groups[group]?.join

/-- Where the match is taken to start, if it was tried at `start`. -/
def startFrom (progress : Progress) (start : Nat) : Nat :=
  min (progress.kept.getD start) progress.position

end Progress

/-- A text as a match sees it: its characters may be taken up to a limit only, though those behind it
still count for the conditions on a position. -/
structure Sight where
  text : Text
  /-- Where the search began. -/
  origin : Nat
  limit : Nat
deriving DecidableEq, Repr, Inhabited

namespace Sight

def charAt? (sight : Sight) (position : Nat) : Option Char :=
  if position < sight.limit then sight.text.charAt? position else none

def atWordBoundary (sight : Sight) (position : Nat) : Bool :=
  let next := if position = 0 then sight.charAt? position else sight.text.charAt? position
  (sight.text.charBefore? position).any Unicode.isWordInText != next.any Unicode.isWordInText

end Sight

namespace Anchor

/-- Whether a condition holds at a position. A line feed at the very end of a text starts no line. -/
def holds (sight : Sight) (position : Nat) : Anchor → Bool
  | wordBoundary => sight.atWordBoundary position
  | noWordBoundary => !sight.atWordBoundary position
  | lineStart =>
    position = 0 || (sight.text.charBefore? position == some '\n' && position ≠ sight.text.size)
  | lineEnd => position = sight.text.size || sight.text.charAt? position == some '\n'
  | textStart => position = 0
  | textEnd => position = sight.text.size
  | lastLineEnd =>
    position = sight.text.size ||
      (position + 1 = sight.text.size && sight.text.charAt? position == some '\n')
  | searchStart => position = sight.origin
  | always => true
  | never => false

end Anchor

namespace Sight

def matchChars (sight : Sight) : List Char → Nat → Option Nat
  | [], position => some position
  | c :: rest, position =>
    if sight.charAt? position = some c then sight.matchChars rest (position + 1) else none

def matchFolded (sight : Sight) : List Char → Nat → Option Nat
  | [], position => some position
  | c :: rest, position =>
    match sight.charAt? position with
    | some d =>
      if Unicode.foldChar d = c then sight.matchFolded rest (position + 1) else none
    | none => none

/-- The folding of a character of which only so many bytes are looked at: that of the character which
these bytes make up, if case counts for it. -/
def foldCut (c : Char) (bytes : Nat) : List Char :=
  let code := codeOfBytes (((String.utf8EncodeChar c).map (·.toNat)).take (max bytes 1))
  let cut := Char.ofNat code
  if code.isValidChar && Unicode.foldCase cut ≠ [cut] then Unicode.foldCase cut else [c]

/-- Matches characters that have the same foldings as those of a list, one by one, where a number of
bytes are looked at. -/
def matchAlike (sight : Sight) : List Char → Nat → Nat → Option Nat
  | [], _, position => some position
  | c :: rest, bytes, position =>
    match sight.text.charAt? position with
    | some d =>
      let folded := if d.utf8Size ≤ bytes then Unicode.foldCase d else foldCut d bytes
      if Unicode.foldCase c = folded then
        sight.matchAlike rest (bytes - d.utf8Size) (position + 1)
      else none
    | none => none

/-- Where the text of the first of the groups that stands again ends. There is no match either where
one of them is longer than what is left of the text. -/
def matchAgain (sight : Sight) (ignoreCase : Bool) (progress : Progress) : List Nat → Option Nat
  | [] => none
  | group :: groups =>
    let others (_ : Unit) := sight.matchAgain ignoreCase progress groups
    match progress.span? group with
    | none => others ()
    | some span =>
      let chars := sight.text.between span.start span.stop
      let bytes := Text.bytesOf chars
      let reach := min sight.limit (progress.position + bytes)
      let left := Text.bytesOf (sight.text.between progress.position reach)
      if left < bytes then none
      else if ignoreCase then (sight.matchAlike chars bytes progress.position).orElse others
      else (sight.matchChars chars progress.position).orElse others

end Sight

inductive EmptyRound where
  | again
  | leave
  | fail
deriving DecidableEq, Repr, Inhabited

namespace EmptyRound

/-- A round is followed by others as long as it gives a watched group another text, unless that group
was without text before, too. -/
def of (watched : List Nat) (before after : Progress) : EmptyRound :=
  let changed := watched.filter fun group => before.span? group ≠ after.span? group
  let wasEmpty (group : Nat) : Bool := (before.span? group).any fun span => span.start = span.stop
  if changed.isEmpty then leave
  else if changed.all wasEmpty then
    if changed.all fun group => (before.span? group).all (·.start = after.position) then leave
    else fail
  else again

end EmptyRound

def afterRound (watched : List Nat) (before : Progress) (again leave : Continuation) :
    Continuation := fun after =>
  if after.position = before.position then
    match EmptyRound.of watched before after with
    | .again => again after
    | .leave => leave after
    | .fail => none
  else again after

/-- Matches a body time after time, more often rather than less if `greedy`. The first number bounds
the rounds. -/
def matchRounds (body : Continuation → Continuation) (greedy : Bool) (watched : List Nat) :
    Nat → Nat → Option Nat → Continuation → Continuation
  | 0, _, _, next => next
  | steps + 1, least, most, next => fun progress =>
    if most = some 0 then next progress
    else
      let onward := matchRounds body greedy watched steps (least - 1) (most.map (· - 1)) next
      let round := fun (_ : Unit) => body (afterRound watched progress onward next) progress
      if 0 < least then round ()
      else if greedy then (round ()).orElse fun _ => next progress
      else (next progress).orElse round

namespace Plan

def matchThen (sight : Sight) : Plan → Continuation → Continuation
  | done, next => next
  | text chars, next => fun progress =>
    match sight.matchChars chars progress.position with
    | some position => next (progress.moveTo position)
    | none => none
  | set members, next => fun progress =>
    match sight.charAt? progress.position with
    | some c => if members.contains c then next (progress.moveTo (progress.position + 1)) else none
    | none => none
  | spelled foldings, next => fun progress =>
    foldings.findSome? fun folding =>
      match sight.matchFolded folding progress.position with
      | some position => next (progress.moveTo position)
      | none => none
  | anchor condition, next => fun progress =>
    if condition.holds sight progress.position then next progress else none
  | keep, next => fun progress => next { progress with kept := some progress.position }
  | sequence first second, next => first.matchThen sight (second.matchThen sight next)
  | either first second, next => fun progress =>
    (first.matchThen sight next progress).orElse fun _ => second.matchThen sight next progress
  | group number body, next => fun progress =>
    body.matchThen sight
      (fun after => next (after.remember number ⟨progress.position, after.position⟩))
      (progress.reopen number)
  | optional greedy body, next => fun progress =>
    if greedy then (body.matchThen sight next progress).orElse fun _ => next progress
    else (next progress).orElse fun _ => body.matchThen sight next progress
  | rounds least most greedy watched body, next => fun progress =>
    let steps := (sight.text.size + 1) * (watched.length + 2) + least
    matchRounds (body.matchThen sight) greedy watched steps least most next progress
  | atomic body, next => fun progress => (body.matchThen sight some progress).bind next
  | ahead negated body, next => fun progress =>
    match negated, body.matchThen sight some progress with
    | false, some after => next (after.moveTo progress.position)
    | true, none => next progress
    | _, _ => none
  | behind least most negated body, next => fun progress =>
    let here := progress.position
    let sight := if most = some least then sight else { sight with limit := here }
    let farthest := min here (most.getD here)
    let seen := (List.range (farthest + 1 - least)).findSome? fun more =>
      body.matchThen sight (fun after => if after.position = here then some after else none)
        (progress.moveTo (here - least - more))
    match negated, seen with
    | false, some after => next (after.moveTo here)
    | true, none => next progress
    | _, _ => none
  | reference groups ignoreCase, next => fun progress =>
    match sight.matchAgain ignoreCase progress groups with
    | some position => next (progress.moveTo position)
    | none => none

/-- The match of a whole pattern that starts exactly at a position, in a search that began at
`origin`. -/
def matchFrom (plan : Plan) (groups : Nat) (text : Text) (origin position : Nat) : Option Progress :=
  plan.matchThen { text, origin, limit := text.size } some
    { position, groups := Array.replicate (groups + 1) none }

def searchAmong (plan : Plan) (groups : Nat) (text : Text) (origin : Nat) :
    Nat → Nat → Option (Nat × Progress)
  | 0, _ => none
  | count + 1, position =>
    match plan.matchFrom groups text origin position with
    | some progress => some (position, progress)
    | none => searchAmong plan groups text origin count (position + 1)

def searchFrom (plan : Plan) (groups : Nat) (text : Text) (origin : Nat) :
    Option (Nat × Progress) :=
  plan.searchAmong groups text origin (text.size + 1 - origin) origin

end Plan

end Highlight.Pattern
