import Highlight.Scan.Detection

set_option autoImplicit false

/-! Text on its way into the tree: searched for keywords, split up by the groups of a match, or
scanned with another grammar. -/

namespace Highlight

namespace ScanState

def countHit (limits : ScanLimits) (word : String) (relevance : Nat) (state : ScanState) :
    ScanState :=
  let hits := (state.hits.find? word).getD 0 + 1
  { state with
    hits := state.hits.insert word hits
    relevance :=
      if hits ≤ limits.keywordHits then ScanResult.addRelevance state.relevance relevance
      else state.relevance }

def addText (text : String) (state : ScanState) : ScanState :=
  { state with tree := state.tree.addText text }

def addScoped (text scope : String) (state : ScanState) : ScanState :=
  { state with tree := state.tree.addScoped text scope }

end ScanState

namespace ScanContext

def lookupForm (context : ScanContext) (word : String) : String :=
  if context.grammar.ignoresCase then Unicode.lowercase word else word

/-- Whether the keywords of a class count without being given a scope. -/
def isHidden (className : String) : Bool :=
  className.toList.head? == some '_'

/-- Adds a word behind text that has no scope yet, and gives back what of it still has none. -/
def emitWord (context : ScanContext) (table : KeywordTable) (word plain : String)
    (state : ScanState) : String × ScanState :=
  let form := context.lookupForm word
  match table.find? form with
  | none => (plain ++ word, state)
  | some keyword =>
    let state := (state.addText plain).countHit context.settings.limits form keyword.relevance
    if isHidden keyword.className then (word, state)
    else ("", state.addScoped word (context.grammar.resolveScope keyword.className))

/-- Goes through the words of a text from a position on. What stands between `last` and the next word
has not been looked at yet, and `plain` is the text before it that has no scope. Each round goes on
at a later position, so that one round for each of them suffices. -/
def emitWords (context : ScanContext) (table : KeywordTable) (text : Text) :
    Nat → Nat → Nat → String → ScanState → Except Halt ScanState
  | 0, _, last, plain, state => do
    let rest ← text.part last text.size
    return state.addText (plain ++ rest)
  | rounds + 1, position, last, plain, state => do
    match table.pattern.find? text position with
    | none =>
      let rest ← text.part last text.size
      return state.addText (plain ++ rest)
    | some span =>
      let word ← text.part span.start span.stop
      let skipped ← text.part last span.start
      let (plain, state) := context.emitWord table word (plain ++ skipped) state
      let next := if span.start < span.stop then span.stop else span.stop + 1
      if next ≤ text.size then emitWords context table text rounds next span.stop plain state
      else
        let rest ← text.part span.stop text.size
        return state.addText (plain ++ rest)

def emitKeywords (context : ScanContext) (text : String) (state : ScanState) :
    Except Halt ScanState :=
  match (context.topMode state).keywords with
  | none => .ok (state.addText text)
  | some table =>
    let text := Text.ofString text
    context.emitWords table text (text.size + 1) 0 0 "" state

/-- Adds the groups of a match in their scopes, from a position on. A group that starts before what
has been added is passed over. -/
def emitGroups (context : ScanContext) (found : Pattern.RuleMatch) :
    List (Nat × Option String) → Nat → ScanState → Except Halt ScanState
  | [], position, state => do
    context.emitKeywords (← context.text.part position found.stop) state
  | (group, scope) :: rest, position, state =>
    match found.span? group with
    | none => emitGroups context found rest position state
    | some span =>
      if span.start < position then emitGroups context found rest position state
      else do
        let state ← context.emitKeywords (← context.text.part position span.start) state
        let lexeme ← context.text.part span.start span.stop
        let state ← match scope with
          | some scope => .ok (state.addScoped lexeme (context.grammar.resolveScope scope))
          | none => context.emitKeywords lexeme state
        emitGroups context found rest span.stop state

/-- Adds the result of an embedded scan. It counts only if the mode around it does. -/
def addEmbedded (context : ScanContext) (result : ScanResult) (state : ScanState) : ScanState :=
  { state with
    relevance :=
      if 0 < (context.topMode state).relevance then
        ScanResult.addRelevance state.relevance result.relevance
      else state.relevance
    tree := state.tree.addSubLanguage result.tree result.language }

/-- Adds text of the innermost mode, scanned with other grammars. A scan with a named grammar goes on
where the last one with it has ended. -/
def emitEmbedded (context : ScanContext) (subLanguage : SubLanguage) (text : String)
    (state : ScanState) : Except Halt ScanState :=
  if text.isEmpty then .ok state
  else
    match subLanguage with
    | .named name =>
      match context.catalog.find? name with
      | none => .ok (state.addText text)
      | some grammar => do
        let settings : ScanSettings :=
          { lenient := true, ignoreIllegal := true, limits := context.settings.limits }
        let scanned ← context.embedded grammar text settings (state.continuations.find? name)
        let continuations := match scanned.stack with
          | some stack => state.continuations.insert name stack
          | none => state.continuations.erase name
        return context.addEmbedded scanned.result { state with continuations }
    | .detected candidates => do
      let result ← Detection.detect context.catalog context.embedded text candidates
        context.settings.limits
      return context.addEmbedded result state

def flush (context : ScanContext) (state : ScanState) : Except Halt ScanState :=
  let text := state.buffer
  let state := { state with buffer := "" }
  match (context.topMode state).subLanguage with
  | some subLanguage => context.emitEmbedded subLanguage text state
  | none => context.emitKeywords text state

end ScanContext

end Highlight
