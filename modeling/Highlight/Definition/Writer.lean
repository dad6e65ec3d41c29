import Highlight.Definition.Basic
import Highlight.Json.Decoding

set_option autoImplicit false

/-! Writing definitions. What is not set is left out, and the fields of the root mode stand beside
those of the grammar. A hook that has no name cannot be written. -/

namespace Highlight

open Json

def PatternSource.toJson : PatternSource → Json
  | .one source => .string source
  | .sequence sources => .array (sources.map .string)

def Dictionary.toJson {α : Type} (write : α → Json) (dictionary : Dictionary α) : Json :=
  .object (dictionary.entries.map fun entry => (entry.1, write entry.2))

def ScopeSource.toJson : ScopeSource → Json
  | .name scope => .string scope
  | .captures scopes => scopes.toJson .string

def KeywordList.toJson : KeywordList → Json
  | .words text => .string text
  | .list items => .array (items.map .string)

def KeywordSource.toJson : KeywordSource → Json
  | .words text => .string text
  | .list items => .array (items.map .string)
  | .classes lists => lists.toJson KeywordList.toJson

def SubLanguageSource.toJson : SubLanguageSource → Json
  | .one language => .string language
  | .many languages => .array (languages.map .string)

def Hook.toJson : Hook → Except DataError Json
  | .builtin hook => .ok (.string hook.name)
  | .custom _ => .error .unwritableHook

namespace Definition

def optionalMember {α : Type} (name : String) (write : α → Json) :
    Option α → List (String × Json)
  | some value => [(name, write value)]
  | none => []

def flagMember (name : String) (value : Bool) : List (String × Json) :=
  if value then [(name, .bool true)] else []

def hookMember (name : String) : Option Hook → Except DataError (List (String × Json))
  | some hook => do return [(name, ← hook.toJson)]
  | none => .ok []

def listMember (name : String) (items : List Json) : List (String × Json) :=
  if items.isEmpty then [] else [(name, .array items)]

def flagMembers (flags : ModeFlags) : List (String × Json) :=
  flagMember "excludeBegin" flags.excludeBegin
    ++ flagMember "excludeEnd" flags.excludeEnd
    ++ flagMember "returnBegin" flags.returnBegin
    ++ flagMember "returnEnd" flags.returnEnd
    ++ flagMember "skip" flags.skip
    ++ flagMember "endsWithParent" flags.endsWithParent
    ++ flagMember "endsParent" flags.endsParent

mutual

def modeMembers : ModeDefinition → Except DataError (List (String × Json))
  | { scope, className, begins, ends, matching, beginScope, endScope, beginKeywords, beforeMatch,
      keywords, illegal, contains, variants, starts, flags, relevance, subLanguage, onBegin, onEnd,
      .. } => do
    let contains ← entries contains
    let variants ← modes variants
    let starts ← next starts
    let onBegin ← hookMember "on:begin" onBegin
    let onEnd ← hookMember "on:end" onEnd
    return optionalMember "scope" ScopeSource.toJson scope
      ++ optionalMember "className" .string className
      ++ optionalMember "begin" PatternSource.toJson begins
      ++ optionalMember "end" PatternSource.toJson ends
      ++ optionalMember "match" PatternSource.toJson matching
      ++ optionalMember "beginScope" ScopeSource.toJson beginScope
      ++ optionalMember "endScope" ScopeSource.toJson endScope
      ++ optionalMember "beginKeywords" .string beginKeywords
      ++ optionalMember "beforeMatch" .string beforeMatch
      ++ optionalMember "keywords" KeywordSource.toJson keywords
      ++ optionalMember "illegal" PatternSource.toJson illegal
      ++ listMember "contains" contains
      ++ listMember "variants" variants
      ++ starts
      ++ flagMembers flags
      ++ optionalMember "relevance" Json.natural relevance
      ++ optionalMember "subLanguage" SubLanguageSource.toJson subLanguage
      ++ onBegin
      ++ onEnd

/-- The member of the mode that is on after another one. -/
def next : Option ModeDefinition → Except DataError (List (String × Json))
  | none => .ok []
  | some mode => do return [("starts", .object (← modeMembers mode))]

def modes : List ModeDefinition → Except DataError (List Json)
  | [] => .ok []
  | mode :: rest => do
    let members ← modeMembers mode
    return .object members :: (← modes rest)

def entries : List (ContainsEntry ModeDefinition) → Except DataError (List Json)
  | [] => .ok []
  | .itself :: rest => do return .string "self" :: (← entries rest)
  | .shared name :: rest => do return .string ("#" ++ name) :: (← entries rest)
  | .inline mode :: rest => do
    let members ← modeMembers mode
    return .object members :: (← entries rest)

end

end Definition

def ModeDefinition.toJson (mode : ModeDefinition) : Except DataError Json := do
  return .object (← Definition.modeMembers mode)

def GrammarDefinition.toJson (grammar : GrammarDefinition) : Except DataError Json := do
  let repository ← grammar.repository.entries.mapM fun entry => do
    return (entry.1, ← entry.2.toJson)
  let root ← Definition.modeMembers grammar.root
  return .object (
    (if grammar.name.isEmpty then [] else [("name", .string grammar.name)])
      ++ Definition.listMember "aliases" (grammar.aliases.map .string)
      ++ Definition.flagMember "caseInsensitive" grammar.caseInsensitive
      ++ Definition.flagMember "unicodeRegex" grammar.unicode
      ++ Definition.flagMember "disableAutodetect" grammar.disableAutodetect
      ++ Definition.optionalMember "supersetOf" .string grammar.supersetOf
      ++ (if grammar.classNameAliases.isEmpty then []
          else [("classNameAliases", grammar.classNameAliases.toJson .string)])
      ++ (if repository.isEmpty then [] else [("repository", .object repository)])
      ++ root)

end Highlight
