import Highlight.Pattern.Matcher
import Highlight.Pattern.Parser

set_option autoImplicit false

/-! Compiled patterns. What the rest of the library needs of a pattern is only what it answers, so a
`Regex` holds its answers as functions and an `Engine` is anything that makes such values from
sources. `engine` is the one that reads sources by `Pattern.parse`.

It refuses some of what patterns can hold, as if that were faulty: calls of groups (`\g<1>`), marks of
what a reader takes for one character (`\X`, `\y` and `\Y`), absent groups (`(?~a)`) and those that hang on
another group (`(?(1)a)`), notes to the program with a tag or a direction, conditions by name other than
`(*FAIL)`, options other than `i`, `m` and `x`, and properties other than general categories, scripts and
the named kinds. There is no limit to the steps of a match or to the groups of a source. -/

namespace Highlight.Pattern

/-- The spans of a match: that of the whole match first, then those of the groups that took part. -/
abbrev Captures := Array (Option Span)

structure Flags where
  ignoreCase : Bool := false
  /-- Asks for patterns that know all characters, as they always do. -/
  unicode : Bool := false
deriving DecidableEq, Repr, Inhabited

structure Regex where
  source : String
  /-- How many groups remember their text. -/
  groups : Nat
  /-- The first match that starts at a position or after it. -/
  search : Text → Nat → Option Captures
  /-- The end of the match that starts exactly at a position. -/
  matchAt : Text → Nat → Option Nat

namespace Regex

def find? (regex : Regex) (text : Text) (position : Nat) : Option Span :=
  (regex.search text position).bind fun captures => captures[0]?.join

end Regex

abbrev Engine := Flags → String → Except PatternError Regex

def Plan.regex (plan : Plan) (groups : Nat) (source : String) : Regex where
  source := source
  groups := groups
  search text position :=
    (plan.searchFrom groups text position).map fun (start, progress) =>
      progress.groups.setIfInBounds 0 (some ⟨progress.startFrom start, progress.position⟩)
  matchAt text position :=
    (plan.matchFrom groups text position position).map (·.position)

/-- The plan of a source that has been read. Each group that it refers to must be there. -/
def Parsed.plan (parsed : Parsed) : Except PatternError Plan :=
  let references := parsed.node.references
  if references.any (parsed.groups < ·) then .error .badReference
  else parsed.node.plan { references }

def engine : Engine := fun flags source => do
  let parsed ← parse { ignoreCase := flags.ignoreCase } source.toList
  let plan ← parsed.plan
  return plan.regex parsed.groups source

/-- What every answer of a pattern keeps to: a match starts no earlier than the search and its spans
lie in the text. -/
structure Regex.Lawful (regex : Regex) : Prop where
  search_starts : ∀ text position captures, regex.search text position = some captures →
    ∃ span, captures[0]? = some (some span) ∧ position ≤ span.start
  search_within : ∀ text position captures, regex.search text position = some captures →
    ∀ span, some span ∈ captures → span.start ≤ span.stop ∧ span.stop ≤ text.size
  matchAt_within : ∀ text position stop, regex.matchAt text position = some stop →
    position ≤ stop ∧ stop ≤ text.size

def Engine.Lawful (engine : Engine) : Prop :=
  ∀ flags source regex, engine flags source = .ok regex → regex.Lawful

end Highlight.Pattern
