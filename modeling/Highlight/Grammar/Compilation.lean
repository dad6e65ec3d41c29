import Highlight.Definition.Normal
import Highlight.Grammar.Mode

set_option autoImplicit false

/-! Compiling the modes of a definition. A mode is given its place before the modes within it are
compiled, so that they can refer to it. A shared mode is compiled once and referred to from
everywhere, unless it depends on the mode around it: then it is compiled once for each of those. -/

namespace Highlight.Compilation

def mostModes : Nat := Nat.pow 2 16

def groupBound : Nat := Nat.pow 2 64

/-- The scopes of groups by their numbers, in the order of the numbers. A later scope of the same group
wins. -/
def insertScope (index : Nat) (scope : String) : List (Nat × String) → List (Nat × String)
  | [] => [(index, scope)]
  | head :: rest =>
    if index < head.1 then (index, scope) :: head :: rest
    else if index = head.1 then (index, scope) :: rest
    else head :: insertScope index scope rest

def indexedScopes (scopes : Dictionary String) : Except DefinitionError (List (Nat × String)) :=
  scopes.entries.foldlM (fun indexed (key, scope) =>
    match Text.natural? groupBound key with
    | some index => .ok (insertScope index scope indexed)
    | none => .error (.badCaptureIndex key)) []

def scopeAt? (indexed : List (Nat × String)) (index : Nat) : Option String :=
  (indexed.find? fun entry => entry.1 == index).map (·.2)

/-- What becomes of a match. Scopes by numbers are those of the parts of the pattern, counted from
one, if it has parts, and those of its groups otherwise. -/
def emission (parts : Option (List Nat)) : ScopeSource → Except DefinitionError Emission
  | .name scope => .ok (.whole scope)
  | .captures scopes => do
    let indexed ← indexedScopes scopes
    match parts with
    | none => return .groups (indexed.map fun entry => (entry.1, some entry.2))
    | some groups =>
      match indexed.find? fun entry => entry.1 == 0 || groups.length < entry.1 with
      | some entry => throw (.noSuchPart entry.1 groups.length)
      | none => return .groups (groups.mapIdx fun part group => (group, scopeAt? indexed (part + 1)))

def subLanguage : SubLanguageSource → SubLanguage
  | .one language => .named language
  | .many languages => .detected (if languages.isEmpty then none else some languages)

def matchAnywhere : String := "\\B|\\b"

def beginSource (mode : ModeDefinition) : String :=
  (ModeDefinition.singleSource? mode.begins).getD matchAnywhere

/-- The end pattern of a mode that another one contains. A mode with none ends at once, unless it ends
with the mode around it. -/
def endSource? (mode : ModeDefinition) : Option String :=
  match ModeDefinition.singleSource? mode.ends with
  | some source => some source
  | none => if mode.flags.endsWithParent then none else some matchAnywhere

/-- The source of all patterns that end a mode, given its own and that of the mode around it. -/
def terminator (own : Option String) (endsWithParent : Bool) (parent : String) : String :=
  if endsWithParent && !parent.isEmpty then
    match own with
    | some own => own ++ "|" ++ parent
    | none => parent
  else own.getD ""

structure Context where
  engine : Pattern.Engine
  flags : Pattern.Flags
  repository : Dictionary ModeDefinition
  extensions : List (ModeDefinition → ModeDefinition)
  /-- How many modes the grammar can have. -/
  places : Nat := mostModes

namespace Context

def regex (context : Context) (source : String) : Except DefinitionError Pattern.Regex :=
  (context.engine context.flags source).mapError (.badPattern source)

end Context

/-- What a definition without shorthand says about one mode, the modes within it left out. -/
def ownPart (context : Context) (definition : ModeDefinition) (parent : Option Nat)
    (parentTerminator : String) : Except DefinitionError Mode := do
  let keywords ← definition.keywords.mapM (KeywordTable.compile context.engine context.flags)
  let begins ← parent.mapM fun _ => context.regex (beginSource definition)
  let own := parent.bind fun _ => endSource? definition
  let ends ← own.mapM context.regex
  let illegal ← (ModeDefinition.singleSource? definition.illegal).mapM context.regex
  let beginScope ← definition.beginScope.mapM (emission definition.beginGroups)
  let endScope ← definition.endScope.mapM (emission definition.endGroups)
  return {
    parent
    scope := match definition.scope with
      | some (.name scope) => some scope
      | _ => none
    beginScope
    endScope
    begins
    ends
    terminator := match parent with
      | some _ => terminator own definition.flags.endsWithParent parentTerminator
      | none => ""
    illegal
    keywords
    flags := definition.flags
    relevance := definition.relevance.getD 1
    subLanguage := definition.subLanguage.map subLanguage
    beforeBegin := definition.beforeBegin
    onBegin := definition.onBegin
    onEnd := definition.onEnd }

/-- A shared mode that has been compiled. The mode around it counts only if it depends on it. -/
structure Reference where
  name : String
  parent : Option Nat
deriving DecidableEq, Repr, Inhabited

structure Arena where
  modes : Array Mode := #[]
  /-- The places of the shared modes so far, the latest first. -/
  references : List (Reference × List Nat) := []

abbrev Compile := StateT Arena (Except DefinitionError)

namespace Arena

def lookup? (arena : Arena) (reference : Reference) : Option (List Nat) :=
  (arena.references.find? fun entry => entry.1 == reference).map (·.2)

def terminatorOf (arena : Arena) (parent : Option Nat) : String :=
  ((parent.bind fun place => arena.modes[place]?).map Mode.terminator).getD ""

def put (arena : Arena) (place : Nat) (mode : Mode) : Arena :=
  { arena with modes := arena.modes.setIfInBounds place mode }

/-- Fills in the modes within a mode. The shared modes that were compiled for this mode alone are not
referred to any more. -/
def link (arena : Arena) (place : Nat) (contains : List Nat) (starts : Option Nat) : Arena where
  modes := arena.modes.modify place fun mode => { mode with contains, starts }
  references := arena.references.filter fun entry => entry.1.parent != some place

end Arena

def reserve (context : Context) : Compile Nat := do
  let place := (← get).modes.size
  if place < context.places then
    modify fun arena => { arena with modes := arena.modes.push {} }
    return place
  else throw .tooManyModes

structure Pending where
  name : String
  dependsOnParent : Bool
deriving DecidableEq, Repr, Inhabited

/-- Compiles a definition into its place. The list has the shared modes that are being compiled, the
innermost first. -/
abbrev Into := List Pending → Nat → ModeDefinition → Option Nat → Compile Unit

/-- Whether compiling a shared mode that depends on the mode around it would never end: it stands
within itself, and all shared modes between depend on the mode around them. -/
def isEndless (pending : List Pending) (name : String) : Bool :=
  (pending.takeWhile Pending.dependsOnParent).any fun entry => entry.name == name

def compileNew (context : Context) (into : Into) (pending : List Pending)
    (definition : ModeDefinition) (parent : Option Nat) : Compile Nat := do
  let place ← reserve context
  into pending place definition parent
  return place

/-- The places of a shared mode, which is compiled unless it has been. -/
def compileShared (context : Context) (into : Into) (pending : List Pending) (parent : Nat)
    (name : String) : Compile (List Nat) := do
  match context.repository.find? name with
  | none => throw (.unknownShared name)
  | some definition =>
    let depends := definition.dependsOnParent
    let reference : Reference := { name, parent := if depends then some parent else none }
    match (← get).lookup? reference with
    | some places => return places
    | none =>
      if depends && isEndless pending name then throw (.endlessShared name)
      else
        let definitions := definition.expanded
        let places ← definitions.mapM fun _ => reserve context
        modify fun arena => { arena with references := (reference, places) :: arena.references }
        let pending := { name, dependsOnParent := depends } :: pending
        (places.zip definitions).forM fun (place, definition) =>
          into pending place definition (some parent)
        return places

def compileEntry (context : Context) (into : Into) (pending : List Pending) (place : Nat) :
    ContainsEntry ModeDefinition → Compile (List Nat)
  | .itself => return [place]
  | .shared name => compileShared context into pending place name
  | .inline definition =>
    definition.expanded.mapM fun variant => compileNew context into pending variant (some place)

/-- Compiles a definition into its place, with another way to compile those within it. -/
def compileWith (context : Context) (into : Into) : Into :=
  fun pending place definition parent => do
    let normal ← definition.normalize parent.isSome context.extensions
    let own ← ownPart context normal parent ((← get).terminatorOf parent)
    modify fun arena => arena.put place own
    let contains ← normal.contains.mapM (compileEntry context into pending place)
    let starts ← normal.starts.mapM fun next => compileNew context into pending next parent
    modify fun arena => arena.link place contains.flatten starts

/-- Compiles a definition into its place, with modes nested so deep. Since each of them has a place,
there cannot be more than there are places. -/
def compileInto (context : Context) : Nat → Into
  | 0 => fun _ _ _ _ => throw .tooManyModes
  | depth + 1 => compileWith context (compileInto context depth)

def compileModes (context : Context) (root : ModeDefinition) :
    Except DefinitionError (Array Mode) := do
  let (_, arena) ← (compileNew context (compileInto context context.places) [] root none).run {}
  return arena.modes

end Highlight.Compilation
