import Highlight.Grammar.Compilation

set_option autoImplicit false

/-! Compiled grammars. -/

namespace Highlight

structure Grammar where
  /-- The name under which the grammar is registered. -/
  name : String
  modes : Array Mode
  /-- What is looked for while each mode is on. -/
  matchers : Array (Thunk (Except Pattern.RuleSetError Pattern.RuleSet))
  /-- The definition as it was given. -/
  definition : GrammarDefinition

namespace Grammar

instance : Inhabited Grammar :=
  ⟨{ name := "", modes := #[], matchers := #[], definition := {} }⟩

def displayName (grammar : Grammar) : String :=
  if grammar.definition.name.isEmpty then grammar.name else grammar.definition.name

def aliases (grammar : Grammar) : List String :=
  grammar.definition.aliases

def ignoresCase (grammar : Grammar) : Bool :=
  grammar.definition.caseInsensitive

def mode (grammar : Grammar) (place : Nat) : Mode :=
  grammar.modes[place]?.getD {}

def matcher (grammar : Grammar) (place : Nat) : Except Pattern.RuleSetError Pattern.RuleSet :=
  match grammar.matchers[place]? with
  | some matcher => matcher.get
  | none => .ok { rules := [], composition := Pattern.compose [] "", regex := none }

/-- The name of a scope, which the grammar may have changed. -/
def resolveScope (grammar : Grammar) (scope : String) : String :=
  (grammar.definition.classNameAliases.find? scope).getD scope

def containsItself (mode : ModeDefinition) : Bool :=
  mode.contains.any fun entry =>
    match entry with
    | .itself => true
    | _ => false

def patternFlags (definition : GrammarDefinition) : Pattern.Flags :=
  { ignoreCase := definition.caseInsensitive, unicode := definition.unicode }

def compilation (engine : Pattern.Engine) (definition : GrammarDefinition) : Compilation.Context where
  engine := engine
  flags := patternFlags definition
  repository := definition.repository
  extensions := definition.extensions

def compile (engine : Pattern.Engine) (name : String) (definition : GrammarDefinition) :
    Except DefinitionError Grammar := do
  if containsItself definition.root then throw .itselfAtTop
  let modes ← Compilation.compileModes (compilation engine definition) definition.root
  return {
    name
    modes
    matchers := modes.map fun mode =>
      Thunk.mk fun _ =>
        Pattern.RuleSet.compile engine (patternFlags definition) (mode.rules modes)
    definition }

end Grammar

end Highlight
