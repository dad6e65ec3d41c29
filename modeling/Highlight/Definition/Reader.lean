import Highlight.Definition.Basic
import Highlight.Json.Decoding

set_option autoImplicit false

/-! Reading definitions. The fields of a definition are read in the order of the text. The parts that
can have one of several forms are read as a whole first, and so are all fields of the root mode of a
grammar, which stand beside those of the grammar itself. -/

namespace Highlight

open Json

inductive ModeField where
  | scope | className | begins | ends | matching | beginScope | endScope | beginKeywords | beforeMatch
  | keywords | illegal | contains | variants | starts | excludeBegin | excludeEnd | returnBegin
  | returnEnd | skip | endsWithParent | endsParent | relevance | subLanguage | onBegin | onEnd
deriving DecidableEq, Repr, Inhabited

namespace ModeField

def all : List ModeField :=
  [scope, className, begins, ends, matching, beginScope, endScope, beginKeywords, beforeMatch,
    keywords, illegal, contains, variants, starts, excludeBegin, excludeEnd, returnBegin, returnEnd,
    skip, endsWithParent, endsParent, relevance, subLanguage, onBegin, onEnd]

def name : ModeField → String
  | scope => "scope"
  | className => "className"
  | begins => "begin"
  | ends => "end"
  | matching => "match"
  | beginScope => "beginScope"
  | endScope => "endScope"
  | beginKeywords => "beginKeywords"
  | beforeMatch => "beforeMatch"
  | keywords => "keywords"
  | illegal => "illegal"
  | contains => "contains"
  | variants => "variants"
  | starts => "starts"
  | excludeBegin => "excludeBegin"
  | excludeEnd => "excludeEnd"
  | returnBegin => "returnBegin"
  | returnEnd => "returnEnd"
  | skip => "skip"
  | endsWithParent => "endsWithParent"
  | endsParent => "endsParent"
  | relevance => "relevance"
  | subLanguage => "subLanguage"
  | onBegin => "on:begin"
  | onEnd => "on:end"

def ofName? (name : String) : Option ModeField :=
  all.find? fun field => field.name == name

end ModeField

namespace Json.Decoder

def patternSource : Decoder PatternSource :=
  choose .pattern [
    fun depth document => .one <$> string depth document,
    fun depth document => .sequence <$> sequence string depth document]

def scopeSource : Decoder ScopeSource :=
  choose .scope [
    fun depth document => .name <$> string depth document,
    fun depth document => .captures <$> dictionary string depth document]

def keywordList : Decoder KeywordList :=
  choose .keywordList [
    fun depth document => .words <$> string depth document,
    fun depth document => .list <$> sequence string depth document]

def keywordSource : Decoder KeywordSource :=
  choose .keywords [
    fun depth document => .words <$> string depth document,
    fun depth document => .list <$> sequence string depth document,
    fun depth document => .classes <$> dictionary keywordList depth document]

def subLanguageSource : Decoder SubLanguageSource :=
  choose .subLanguage [
    fun depth document => .one <$> string depth document,
    fun depth document => .many <$> sequence string depth document]

def hook : Decoder Hook := fun depth document => do
  let name ← string depth document
  match BuiltinHook.ofName? name with
  | some hook => return .builtin hook
  | none => .error (.senseless (.unknownHook name))

def containsEntry (mode : Decoder ModeDefinition) : Decoder (ContainsEntry ModeDefinition) :=
  whole fun depth document =>
    match document with
    | .string text =>
      if text = "self" then .ok .itself
      else match text.toList with
        | '#' :: name => .ok (.shared (String.ofList name))
        | _ => .error (.senseless (.badReference text))
    | _ =>
      match mode depth document with
      | .ok mode => .ok (.inline mode)
      | .error _ => .error (.senseless (.noMatch .contained))

/-- Reads one field of a mode. `nested` reads the modes within; it is told whether they have been
read as a whole before. -/
def modeField (nested : Bool → Decoder ModeDefinition) (buffered : Bool) (depth : Nat)
    (mode : ModeDefinition) (field : ModeField) (document : Document) :
    Except Failure ModeDefinition :=
  match field with
  | .scope => do return { mode with scope := ← optional scopeSource depth document }
  | .className => do return { mode with className := ← optional string depth document }
  | .begins => do return { mode with begins := ← optional patternSource depth document }
  | .ends => do return { mode with ends := ← optional patternSource depth document }
  | .matching => do return { mode with matching := ← optional patternSource depth document }
  | .beginScope => do return { mode with beginScope := ← optional scopeSource depth document }
  | .endScope => do return { mode with endScope := ← optional scopeSource depth document }
  | .beginKeywords => do return { mode with beginKeywords := ← optional string depth document }
  | .beforeMatch => do return { mode with beforeMatch := ← optional string depth document }
  | .keywords => do return { mode with keywords := ← optional keywordSource depth document }
  | .illegal => do return { mode with illegal := ← optional patternSource depth document }
  | .contains => do
    return { mode with contains := ← sequence (containsEntry (nested true)) depth document }
  | .variants => do return { mode with variants := ← sequence (nested buffered) depth document }
  | .starts => do return { mode with starts := ← optional (nested buffered) depth document }
  | .excludeBegin => do
    return { mode with flags.excludeBegin := ← boolean depth document }
  | .excludeEnd => do return { mode with flags.excludeEnd := ← boolean depth document }
  | .returnBegin => do return { mode with flags.returnBegin := ← boolean depth document }
  | .returnEnd => do return { mode with flags.returnEnd := ← boolean depth document }
  | .skip => do return { mode with flags.skip := ← boolean depth document }
  | .endsWithParent => do
    return { mode with flags.endsWithParent := ← boolean depth document }
  | .endsParent => do return { mode with flags.endsParent := ← boolean depth document }
  | .relevance => do return { mode with relevance := ← optional word32 depth document }
  | .subLanguage => do
    return { mode with subLanguage := ← optional subLanguageSource depth document }
  | .onBegin => do return { mode with onBegin := ← optional hook depth document }
  | .onEnd => do return { mode with onEnd := ← optional hook depth document }

/-- Reads the members of a mode. A field stands once, and other members are passed over. -/
def modeMembers (nested : Bool → Decoder ModeDefinition) (buffered : Bool) (depth : Nat) :
    List ModeField → ModeDefinition → List (Member Document) → Except Failure ModeDefinition
  | _, mode, [] => .ok mode
  | seen, mode, entry :: rest => do
    let name ← memberName entry
    match ModeField.ofName? name with
    | none =>
      match entry.value.skipFault? with
      | some stop => .error (.ofStop stop)
      | none => modeMembers nested buffered depth seen mode rest
    | some field =>
      if seen.contains field then .error (.duplicate entry name)
      else do
        let read := fun depth => modeField nested buffered depth mode field
        let mode ← member read depth entry
        modeMembers nested buffered depth (field :: seen) mode rest

def modeItems (nested : Bool → Decoder ModeDefinition) (buffered : Bool) (depth : Nat) :
    List ModeField → ModeDefinition → List (Item Document) → Except Failure ModeDefinition
  | field :: fields, mode, entry :: rest => do
    let read := fun depth => modeField nested buffered depth mode field
    let mode ← item read depth entry
    modeItems nested buffered depth fields mode rest
  | _, mode, _ => .ok mode

def checkModeItems (buffered : Bool) (items : List (Item Document)) (fault : Option Break) :
    Except Failure Unit :=
  let count := ModeField.all.length
  if buffered && count < items.length then
    .error (.senseless (.wrongLength items.length s!"{count} elements in sequence"))
  else checkItems count items fault

def modeWith (nested : Bool → Decoder ModeDefinition) (buffered : Bool) : Decoder ModeDefinition :=
  fun depth document =>
    match document, depth with
    | .object _ _ _, 0 => .error .tooDeep
    | .array _ _ _, 0 => .error .tooDeep
    | .object _ members fault, depth + 1 => do
      let mode ← modeMembers nested buffered depth [] {} members
      checkEnd fault
      return mode
    | .array _ items fault, depth + 1 => do
      let mode ← modeItems nested buffered depth ModeField.all {} items
      checkModeItems buffered items fault
      return mode
    | _, _ => mismatch .mode document

def modeNested : Nat → Bool → Decoder ModeDefinition
  | 0 => fun _ _ _ => .error .tooDeep
  | levels + 1 => modeWith (modeNested levels)

def mode : Decoder ModeDefinition :=
  modeNested (mostNested + 1) false

end Json.Decoder

inductive GrammarField where
  | title | aliases | caseInsensitive | unicode | disableAutodetect | supersetOf | classNameAliases
  | repository
deriving DecidableEq, Repr, Inhabited

namespace GrammarField

def name : GrammarField → String
  | title => "name"
  | aliases => "aliases"
  | caseInsensitive => "caseInsensitive"
  | unicode => "unicodeRegex"
  | disableAutodetect => "disableAutodetect"
  | supersetOf => "supersetOf"
  | classNameAliases => "classNameAliases"
  | repository => "repository"

def all : List GrammarField :=
  [title, aliases, caseInsensitive, unicode, disableAutodetect, supersetOf, classNameAliases,
    repository]

def otherCaseInsensitive : String := "case_insensitive"

def ofName? (name : String) : Option GrammarField :=
  if name = otherCaseInsensitive then some caseInsensitive
  else all.find? fun field => field.name == name

end GrammarField

namespace Json.Decoder

def grammarField (depth : Nat) (grammar : GrammarDefinition) (field : GrammarField)
    (document : Document) : Except Failure GrammarDefinition :=
  match field with
  | .title => do return { grammar with name := ← string depth document }
  | .aliases => do return { grammar with aliases := ← sequence string depth document }
  | .caseInsensitive => do return { grammar with caseInsensitive := ← boolean depth document }
  | .unicode => do return { grammar with unicode := ← boolean depth document }
  | .disableAutodetect => do return { grammar with disableAutodetect := ← boolean depth document }
  | .supersetOf => do return { grammar with supersetOf := ← optional string depth document }
  | .classNameAliases => do
    return { grammar with classNameAliases := ← dictionary string depth document }
  | .repository => do return { grammar with repository := ← dictionary mode depth document }

def grammarMembers (depth : Nat) :
    List GrammarField → GrammarDefinition → List (Member Document) →
      Except Failure (GrammarDefinition × List (Member Document))
  | _, grammar, [] => .ok (grammar, [])
  | seen, grammar, entry :: rest => do
    let name ← memberName entry
    match GrammarField.ofName? name with
    | none =>
      let _ ← (entry.value.value depth).mapError Failure.ofStop
      let (grammar, others) ← grammarMembers depth seen grammar rest
      return (grammar, entry :: others)
    | some field =>
      if seen.contains field then .error (.duplicate entry field.name)
      else do
        let read := fun depth => grammarField depth grammar field
        let grammar ← member read depth entry
        grammarMembers depth (field :: seen) grammar rest

/-- Reads the root mode of a grammar out of members that have been read as a whole, so that its errors
show at the end. -/
def rootMode (depth : Nat) (members : List (Member Document)) : Except Failure ModeDefinition :=
  (modeMembers (modeNested mostNested) true depth [] {} members).mapError fun failure =>
    { failure with sighting := .ending }

def grammar : Decoder GrammarDefinition := fun depth document =>
  match document, depth with
  | .object _ _ _, 0 => .error .tooDeep
  | .object _ members fault, depth + 1 => do
    let (grammar, others) ← grammarMembers depth [] {} members
    checkEnd fault
    return { grammar with root := ← rootMode depth others }
  | _, _ => mismatch .grammar document

end Json.Decoder

def ModeDefinition.read (text : String) : Except ReadError ModeDefinition :=
  Json.Decoder.mode.run text

def GrammarDefinition.read (text : String) : Except ReadError GrammarDefinition :=
  Json.Decoder.grammar.run text

end Highlight
