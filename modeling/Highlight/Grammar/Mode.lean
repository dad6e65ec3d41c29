import Highlight.Grammar.Keywords
import Highlight.Pattern.RuleSet

set_option autoImplicit false

/-! Compiled modes. They stand in one array, and refer to each other by their places in it; the root
mode is the first one. -/

namespace Highlight

inductive Emission where
  /-- All of it is given one scope. -/
  | whole (scope : String)
  /-- The groups of the match, in order, and their scopes; a group without one is searched for
  keywords. -/
  | groups (scopes : List (Nat × Option String))
deriving DecidableEq, Repr, Inhabited

inductive SubLanguage where
  | named (language : String)
  /-- The most relevant of some grammars, or of all if there is no list. -/
  | detected (candidates : Option (List String))
deriving DecidableEq, Repr, Inhabited

structure Mode where
  /-- The mode for which this one was compiled. -/
  parent : Option Nat := none
  scope : Option String := none
  beginScope : Option Emission := none
  endScope : Option Emission := none
  begins : Option Pattern.Regex := none
  ends : Option Pattern.Regex := none
  /-- The source of all patterns that can end the mode: its own, and those of the modes around it that
  it ends with. -/
  terminator : String := ""
  illegal : Option Pattern.Regex := none
  keywords : Option KeywordTable := none
  contains : List Nat := []
  starts : Option Nat := none
  flags : ModeFlags := {}
  relevance : Nat := 0
  subLanguage : Option SubLanguage := none
  beforeBegin : Option Hook := none
  onBegin : Option Hook := none
  onEnd : Option Hook := none

namespace Mode

def root : Nat := 0

def displayName (mode : Mode) : String :=
  mode.scope.getD "<unnamed>"

/-- What is looked for while a mode is on: the begins of the modes that it contains, then its own
end, then what does not belong in it. -/
def rules (modes : Array Mode) (mode : Mode) : List (Pattern.Rule × String) :=
  mode.contains.filterMap (fun child =>
      (modes[child]?.bind Mode.begins).map fun regex => (.begins child, regex.source))
    ++ (if mode.terminator.isEmpty then [] else [(.ends, mode.terminator)])
    ++ mode.illegal.toList.map fun regex => (.illegal, regex.source)

instance : Inhabited Mode :=
  ⟨{}⟩

end Mode

end Highlight
