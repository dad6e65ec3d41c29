import Highlight.Definition.Basic
import Highlight.Definition.Error
import Highlight.Text.Words
import Highlight.Unicode.Lowercase

set_option autoImplicit false

/-! The keywords of a mode: what can be a keyword at all, and which words are. -/

namespace Highlight

structure Keyword where
  /-- The scope of the keyword. -/
  className : String
  relevance : Nat
deriving DecidableEq, Repr, Inhabited

structure KeywordTable where
  /-- Finds the words that are looked up. -/
  pattern : Pattern.Regex
  words : Dictionary Keyword

namespace KeywordTable

/-- Words of prose and of many languages, which tell little about the language of a text. -/
def commonWords : List String :=
  ["of", "and", "for", "in", "not", "or", "if", "then", "parent", "list", "value"]

def defaultPattern : String := "\\w+"

def patternKey : String := "$pattern"

def defaultClass : String := "keyword"

def relevanceBound : Nat := Nat.pow 2 32

def defaultRelevance (word : String) : Nat :=
  if commonWords.contains (Unicode.lowercase word) then 0 else 1

def entry (ignoreCase : Bool) (text : String) : Except DefinitionError (String × Nat) :=
  let chars := text.toList
  let before := String.ofList (chars.takeWhile (· ≠ '|'))
  let word := if ignoreCase then Unicode.lowercase before else before
  match chars.dropWhile (· ≠ '|') with
  | [] => .ok (word, defaultRelevance word)
  | _ :: after =>
    match Text.natural? relevanceBound (String.ofList after) with
    | some relevance => .ok (word, relevance)
    | none => .error (.badRelevance (String.ofList after) word)

/-- Adds words of a class; a word that is there already is given the new class. -/
def addWords (ignoreCase : Bool) (className : String) (words : Dictionary Keyword)
    (texts : List String) : Except DefinitionError (Dictionary Keyword) :=
  texts.foldlM (fun words text => do
    let (word, relevance) ← entry ignoreCase text
    return words.insert word { className, relevance }) words

def listed : KeywordList → List String
  | .words text => Text.words text
  | .list items => items

def addClasses (ignoreCase : Bool) (classes : Dictionary KeywordList) :
    Except DefinitionError (Dictionary Keyword) :=
  classes.entries.foldlM (fun words (className, items) =>
    if className = patternKey then .ok words
    else addWords ignoreCase className words (listed items)) {}

/-- The words of a definition, in lower case if case does not matter. -/
def collect (ignoreCase : Bool) : KeywordSource → Except DefinitionError (Dictionary Keyword)
  | .words text => addWords ignoreCase defaultClass {} (Text.words text)
  | .list items => addWords ignoreCase defaultClass {} items
  | .classes classes => addClasses ignoreCase classes

def patternSource : KeywordSource → String
  | .classes classes =>
    match classes.find? patternKey with
    | some (.words source) => source
    | _ => defaultPattern
  | _ => defaultPattern

def compile (engine : Pattern.Engine) (flags : Pattern.Flags) (keywords : KeywordSource) :
    Except DefinitionError KeywordTable := do
  let words ← collect flags.ignoreCase keywords
  let source := patternSource keywords
  match engine flags source with
  | .ok pattern => return { pattern, words }
  | .error cause => throw (.badKeywordPattern source cause)

def find? (table : KeywordTable) (word : String) : Option Keyword :=
  table.words.find? word

def size (table : KeywordTable) : Nat :=
  table.words.size

end KeywordTable

end Highlight
