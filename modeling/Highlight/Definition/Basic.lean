import Highlight.Dictionary
import Highlight.Hook

set_option autoImplicit false

/-! Grammars as their authors define them. A mode is a stretch of text with rules of its own; much of
its definition is shorthand that `ModeDefinition.normalize` does away with. -/

namespace Highlight

inductive PatternSource where
  | one (source : String)
  | sequence (sources : List String)
deriving DecidableEq, Repr, Inhabited

inductive ScopeSource where
  | name (name : String)
  | captures (scopes : Dictionary String)
deriving DecidableEq, Repr, Inhabited

namespace ScopeSource

def isCaptures : ScopeSource → Bool
  | captures _ => true
  | name _ => false

end ScopeSource

inductive KeywordList where
  | words (words : String)
  | list (words : List String)
deriving DecidableEq, Repr, Inhabited

/-- The keywords of a mode. By classes, the entry `$pattern` is the pattern of what can be a keyword
at all. -/
inductive KeywordSource where
  | words (words : String)
  | list (words : List String)
  | classes (classes : Dictionary KeywordList)
deriving DecidableEq, Repr, Inhabited

inductive SubLanguageSource where
  | one (language : String)
  | many (languages : List String)
deriving DecidableEq, Repr, Inhabited

inductive ContainsEntry (Mode : Type) where
  /-- The mode that has this entry. -/
  | itself
  /-- A mode of the repository of the grammar. -/
  | shared (name : String)
  | inline (mode : Mode)
deriving DecidableEq, Repr

structure ModeFlags where
  excludeBegin : Bool := false
  excludeEnd : Bool := false
  returnBegin : Bool := false
  returnEnd : Bool := false
  skip : Bool := false
  endsWithParent : Bool := false
  endsParent : Bool := false
deriving DecidableEq, Repr, Inhabited

namespace ModeFlags

def or (left right : ModeFlags) : ModeFlags where
  excludeBegin := left.excludeBegin || right.excludeBegin
  excludeEnd := left.excludeEnd || right.excludeEnd
  returnBegin := left.returnBegin || right.returnBegin
  returnEnd := left.returnEnd || right.returnEnd
  skip := left.skip || right.skip
  endsWithParent := left.endsWithParent || right.endsWithParent
  endsParent := left.endsParent || right.endsParent

end ModeFlags

structure ModeDefinition where
  scope : Option ScopeSource := none
  /-- An older way to name the scope. -/
  className : Option String := none
  begins : Option PatternSource := none
  ends : Option PatternSource := none
  /-- The begin pattern of a mode that ends with its match. -/
  matching : Option PatternSource := none
  beginScope : Option ScopeSource := none
  endScope : Option ScopeSource := none
  /-- Words that begin the mode, between blanks. -/
  beginKeywords : Option String := none
  /-- What stands before the begin pattern without being part of the mode. -/
  beforeMatch : Option String := none
  keywords : Option KeywordSource := none
  illegal : Option PatternSource := none
  contains : List (ContainsEntry ModeDefinition) := []
  variants : List ModeDefinition := []
  /-- The mode that is on once this one has ended. -/
  starts : Option ModeDefinition := none
  flags : ModeFlags := {}
  relevance : Option Nat := none
  subLanguage : Option SubLanguageSource := none
  onBegin : Option Hook := none
  onEnd : Option Hook := none
  /-- The hook of a mode that begins with words. -/
  beforeBegin : Option Hook := none
  /-- The groups of the parts of a begin pattern that was a sequence. -/
  beginGroups : Option (List Nat) := none
  /-- The groups of the parts of an end pattern that was a sequence. -/
  endGroups : Option (List Nat) := none

namespace ModeDefinition

instance : Inhabited ModeDefinition :=
  ⟨{}⟩

def dependsOnParent : ModeDefinition → Bool
  | { flags := flags, starts := none, .. } => flags.endsWithParent
  | { flags := flags, starts := some next, .. } => flags.endsWithParent || next.dependsOnParent

/-- One of the variants of a mode: what the variant sets goes before what the mode sets. -/
def withVariant (base variant : ModeDefinition) : ModeDefinition where
  scope := variant.scope.or base.scope
  className := variant.className.or base.className
  begins := variant.begins.or base.begins
  ends := variant.ends.or base.ends
  matching := variant.matching.or base.matching
  beginScope := variant.beginScope.or base.beginScope
  endScope := variant.endScope.or base.endScope
  beginKeywords := variant.beginKeywords.or base.beginKeywords
  beforeMatch := variant.beforeMatch.or base.beforeMatch
  keywords := variant.keywords.or base.keywords
  illegal := variant.illegal.or base.illegal
  contains := if variant.contains.isEmpty then base.contains else variant.contains
  variants := []
  starts := variant.starts.or base.starts
  flags := variant.flags.or base.flags
  relevance := variant.relevance.or base.relevance
  subLanguage := variant.subLanguage.or base.subLanguage
  onBegin := variant.onBegin.or base.onBegin
  onEnd := variant.onEnd.or base.onEnd
  beforeBegin := none
  beginGroups := variant.beginGroups.or base.beginGroups
  endGroups := variant.endGroups.or base.endGroups

/-- The modes that a definition stands for: itself, or each of its variants. -/
def expanded (mode : ModeDefinition) : List ModeDefinition :=
  if mode.variants.isEmpty then [mode] else mode.variants.map mode.withVariant

end ModeDefinition

structure GrammarDefinition where
  /-- The name to show; if it is empty, the grammar is shown by the name it is registered under. -/
  name : String := ""
  aliases : List String := []
  caseInsensitive : Bool := false
  unicode : Bool := false
  disableAutodetect : Bool := false
  supersetOf : Option String := none
  /-- Scopes that are given another name. -/
  classNameAliases : Dictionary String := {}
  /-- Modes that others can contain by name. -/
  repository : Dictionary ModeDefinition := {}
  root : ModeDefinition := {}
  /-- Changes made to every mode before defaults are filled in. -/
  extensions : List (ModeDefinition → ModeDefinition) := []

namespace GrammarDefinition

instance : Inhabited GrammarDefinition :=
  ⟨{}⟩

end GrammarDefinition

end Highlight
