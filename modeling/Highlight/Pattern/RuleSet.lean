import Highlight.Pattern.Composition
import Highlight.Pattern.Regex

set_option autoImplicit false

/-! Sets of patterns that are looked for at once. The set is compiled as one choice between its
patterns, and the group that took part in a match tells which one it was. -/

namespace Highlight.Pattern

inductive Rule where
  /-- A mode of the grammar begins. -/
  | begins (mode : Nat)
  /-- The mode that is on, or one around it, ends. -/
  | ends
  /-- The text does not belong in the mode that is on. -/
  | illegal
deriving DecidableEq, Repr, Inhabited

/-- A match of one pattern of the set, its spans counted as in that pattern. -/
structure RuleMatch where
  rule : Rule
  start : Nat
  stop : Nat
  captures : Captures
deriving DecidableEq, Repr, Inhabited

namespace RuleMatch

def span? (found : RuleMatch) (group : Nat) : Option Span :=
  found.captures[group]?.join

end RuleMatch

structure RuleSetError where
  patterns : Nat
  cause : PatternError
deriving DecidableEq, Repr, Inhabited

namespace RuleSetError

def message (error : RuleSetError) : String :=
  s!"Failed to compile pattern set with {error.patterns} patterns: {error.cause.diagnosis}"

end RuleSetError

structure RuleSet where
  rules : List Rule
  composition : Composition
  /-- Missing where there is no pattern to look for. -/
  regex : Option Regex

namespace RuleSet

def compile (engine : Engine) (flags : Flags) (items : List (Rule × String)) :
    Except RuleSetError RuleSet :=
  let rules := items.map (·.1)
  let composition := compose (items.map (·.2)) "|"
  if items.isEmpty then .ok { rules, composition, regex := none }
  else
    match engine flags composition.source with
    | .ok regex => .ok { rules, composition, regex := some regex }
    | .error cause => .error { patterns := items.length, cause }

def size (set : RuleSet) : Nat :=
  set.rules.length

/-- The match of the first pattern whose group took part. -/
def resolve? (set : RuleSet) (captures : Captures) : Option RuleMatch := do
  let whole ← captures[0]?.join
  let (rule, wrapper, groups) ← (set.rules.zip
    (set.composition.wrappers.zip set.composition.groupCounts)).find? fun fragment =>
      (captures[fragment.2.1]?.join).isSome
  let inner := (List.range groups).map fun group => captures[wrapper + 1 + group]?.join
  return {
    rule
    start := whole.start
    stop := whole.stop
    captures := (some whole :: inner).toArray }

/-- The first match that starts at a position or after it. Of the patterns that match there, the one
that stands first in the set is taken. -/
def find? (set : RuleSet) (text : Text) (position : Nat) : Option RuleMatch := do
  let regex ← set.regex
  let captures ← regex.search text position
  set.resolve? captures

end RuleSet

end Highlight.Pattern
