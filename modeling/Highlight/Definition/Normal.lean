import Highlight.Definition.Basic
import Highlight.Definition.Error
import Highlight.Pattern.Composition
import Highlight.Pattern.Source
import Highlight.Text.Words

set_option autoImplicit false

/-! Definitions without shorthand. Each step does away with one kind of shorthand and relies on the
steps before it. A mode that a step puts into another one goes through all steps again when its turn
comes, so each step leaves alone what it has made. -/

namespace Highlight.ModeDefinition

/-- The older name of the scope wins. -/
def withClassName (mode : ModeDefinition) : ModeDefinition :=
  match mode.className with
  | some name => { mode with className := none, scope := some (.name name) }
  | none => mode

def withMatching (mode : ModeDefinition) : Except DefinitionError ModeDefinition :=
  match mode.matching with
  | some source =>
    if mode.begins.isSome || mode.ends.isSome then .error .matchBesideBounds
    else .ok { mode with matching := none, begins := some source }
  | none => .ok mode

def withCaptureScope (mode : ModeDefinition) : ModeDefinition :=
  match mode.scope with
  | some (.captures scopes) => { mode with scope := none, beginScope := some (.captures scopes) }
  | _ => mode

def withBeginParts (mode : ModeDefinition) : Except DefinitionError ModeDefinition :=
  match mode.begins with
  | some (.sequence parts) =>
    if mode.flags.skip || mode.flags.excludeBegin || mode.flags.returnBegin then
      .error .beginPartsNotKept
    else if !mode.beginScope.any ScopeSource.isCaptures then .error .beginPartsWithoutScopes
    else
      let composition := Pattern.compose parts ""
      .ok { mode with
        begins := some (.one composition.source)
        beginGroups := some composition.wrappers }
  | _ => .ok mode

def withEndParts (mode : ModeDefinition) : Except DefinitionError ModeDefinition :=
  match mode.ends with
  | some (.sequence parts) =>
    if mode.flags.skip || mode.flags.excludeEnd || mode.flags.returnEnd then
      .error .endPartsNotKept
    else if !mode.endScope.any ScopeSource.isCaptures then .error .endPartsWithoutScopes
    else
      let composition := Pattern.compose parts ""
      .ok { mode with
        ends := some (.one composition.source)
        endGroups := some composition.wrappers }
  | _ => .ok mode

def singleSource? : Option PatternSource → Option String
  | some (.one source) => some source
  | _ => none

/-- What stands before a match becomes a mode of its own, which then starts the mode itself. -/
def withBeforeMatch (mode : ModeDefinition) : Except DefinitionError ModeDefinition :=
  match mode.beforeMatch with
  | none => .ok mode
  | some before =>
    if mode.starts.isSome then .error .beforeMatchBesideStarts
    else
      let begins := (singleSource? mode.begins).getD ""
      let inner := { mode with beforeMatch := none, flags.endsParent := true }
      .ok {
        keywords := mode.keywords
        begins := some (.one (Pattern.Source.concat [before, Pattern.Source.lookahead begins]))
        relevance := some 0
        starts := some { relevance := some 0, contains := [.inline inner] } }

/-- The pattern that matches one of some words, but not right before a dot. -/
def wordsSource (words : List String) : String :=
  "\\b(" ++ "|".intercalate words ++ ")(?!\\.)(?=\\b|\\s)"

/-- The words that begin a mode become its begin pattern, and its keywords if it has none. -/
def withBeginKeywords (mode : ModeDefinition) : ModeDefinition :=
  match mode.beginKeywords with
  | some words =>
    { mode with
      beginKeywords := none
      begins := some (.one (wordsSource (Text.words words)))
      beforeBegin := some (.builtin .notAfterDot)
      keywords := mode.keywords.or (some (.words words))
      relevance := mode.relevance.or (some 0) }
  | none => mode

def withIllegalChoice (mode : ModeDefinition) : ModeDefinition :=
  match mode.illegal with
  | some (.sequence alternatives) =>
    { mode with illegal := some (.one (Pattern.Source.either alternatives)) }
  | _ => mode

def withDefaultRelevance (mode : ModeDefinition) : ModeDefinition :=
  { mode with relevance := mode.relevance.or (some 1) }

/-- The mode without shorthand. Begin words are left alone in a mode that no mode contains. -/
def normalize (mode : ModeDefinition) (contained : Bool)
    (extensions : List (ModeDefinition → ModeDefinition)) :
    Except DefinitionError ModeDefinition := do
  let mode ← mode.withClassName.withMatching
  let mode ← mode.withCaptureScope.withBeginParts
  let mode ← mode.withEndParts
  let mode ← mode.withBeforeMatch
  let mode := extensions.foldl (fun mode extension => extension mode) mode
  let mode := { mode with beforeBegin := none }
  let mode := if contained then mode.withBeginKeywords else mode
  return mode.withIllegalChoice.withDefaultRelevance

end Highlight.ModeDefinition
