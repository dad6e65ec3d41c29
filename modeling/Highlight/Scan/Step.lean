import Highlight.Scan.Emission

set_option autoImplicit false

/-! One round of a scan: what comes of the next match. -/

namespace Highlight

inductive Progress where
  /-- The scan goes on at the position of the state. -/
  | advance (state : ScanState)
  /-- There is no text left to go on with. -/
  | finish (state : ScanState)
deriving Inhabited

namespace ScanContext

def hookMatch (context : ScanContext) (found : Pattern.RuleMatch) : HookMatch :=
  { text := context.text, index := found.start, captures := found.captures }

/-- Takes one character as text, where a match brings no progress by itself. -/
def takeChar (context : ScanContext) (position : Nat) (state : ScanState) : Progress :=
  match context.text.charAt? position with
  | some c => .advance { state with buffer := state.buffer.push c, position := position + 1 }
  | none => .finish { state with position := context.text.size }

def takeLexeme (found : Pattern.RuleMatch) (lexeme : String) (state : ScanState) : Progress :=
  .advance { state with buffer := state.buffer ++ lexeme, position := found.stop }

/-- Runs the hooks of a begin match in turn until one has it ignored. -/
def runBeginHooks (found : HookMatch) : List Hook → HookData → Option HookData
  | [], data => some data
  | hook :: rest, data =>
    match hook.run found data with
    | (.accept, data) => runBeginHooks found rest data
    | (.ignore, _) => none

/-- Turns a mode on. What is left in the buffer is the text that began it. -/
def startMode (context : ScanContext) (place : Nat) (found : Pattern.RuleMatch) (data : HookData)
    (state : ScanState) : Except Halt ScanState := do
  let mode := context.grammar.mode place
  let state := match mode.scope with
    | some scope =>
      { state with tree := state.tree.openScope (context.grammar.resolveScope scope) }
    | none => state
  let state ← match mode.beginScope with
    | some (.whole scope) =>
      .ok ({ state with buffer := "" }.addScoped state.buffer (context.grammar.resolveScope scope))
    | some (.groups scopes) => do
      let state ← context.emitGroups found scopes found.start state
      .ok { state with buffer := "" }
    | none => .ok state
  return { state with stack := state.stack.push place data }

/-- Puts the text of a begin match where it belongs: with what stands before it, or alone into the
buffer as the first text of the mode, or, if the mode gives it back, nowhere. -/
def placeBeginLexeme (context : ScanContext) (flags : ModeFlags) (lexeme : String)
    (state : ScanState) : Except Halt ScanState := do
  if flags.skip then return { state with buffer := state.buffer ++ lexeme }
  else
    let state := if flags.excludeBegin then { state with buffer := state.buffer ++ lexeme } else state
    let state ← context.flush state
    if flags.returnBegin || flags.excludeBegin then return state
    else return { state with buffer := lexeme }

def beginMode (context : ScanContext) (place : Nat) (found : Pattern.RuleMatch) (lexeme : String)
    (state : ScanState) : Except Halt Progress := do
  let mode := context.grammar.mode place
  let hooks := mode.beforeBegin.toList ++ mode.onBegin.toList
  match runBeginHooks (context.hookMatch found) hooks {} with
  | none =>
    if lexeme.isEmpty then return context.takeChar found.start state
    else return takeLexeme found lexeme state
  | some data =>
    let state ← context.placeBeginLexeme mode.flags lexeme state
    let state ← context.startMode place found data state
    return .advance { state with
      position := if mode.flags.returnBegin then found.start else found.stop }

/-- How many modes end together with the innermost one: as long as a mode ends its parent, the one
around it ends too. -/
def endingRun (grammar : Grammar) : List Frame → Nat
  | [] => 0
  | frame :: outer =>
    match outer with
    | [] => 1
    | _ :: _ =>
      if (grammar.mode frame.mode).flags.endsParent then endingRun grammar outer + 1 else 1

/-- Which modes end with a match, as a number of modes from the innermost on: the innermost one whose
end pattern matches here and whose hook accepts that, sought outwards as long as the modes end with
their parents. The hooks may change the data of the modes that have been asked. -/
def endingModes (grammar : Grammar) (found : HookMatch) : List Frame → Option Nat × List Frame
  | [] => (none, [])
  | frame :: outer =>
    let mode := grammar.mode frame.mode
    let asked : Bool × HookData :=
      if (mode.ends.bind fun regex => regex.matchAt found.text found.index).isSome then
        match mode.onEnd with
        | none => (true, frame.data)
        | some hook =>
          let (outcome, data) := hook.run found frame.data
          (outcome == .accept, data)
      else (false, frame.data)
    let frame := { frame with data := asked.2 }
    if asked.1 then (some (endingRun grammar (frame :: outer)), frame :: outer)
    else if mode.flags.endsWithParent then
      let (count, outer) := endingModes grammar found outer
      (count.map (· + 1), frame :: outer)
    else (none, frame :: outer)

def placeEndLexeme (context : ScanContext) (mode : Mode) (found : Pattern.RuleMatch)
    (lexeme : String) (state : ScanState) : Except Halt ScanState := do
  match mode.endScope with
  | some (.whole scope) =>
    let state ← context.flush state
    return state.addScoped lexeme (context.grammar.resolveScope scope)
  | some (.groups scopes) =>
    let state ← context.flush state
    context.emitGroups found scopes found.start state
  | none =>
    if mode.flags.skip then return { state with buffer := state.buffer ++ lexeme }
    else
      let state :=
        if mode.flags.returnEnd || mode.flags.excludeEnd then state
        else { state with buffer := state.buffer ++ lexeme }
      let state ← context.flush state
      if mode.flags.excludeEnd then return { state with buffer := lexeme } else return state

/-- Turns a mode off. It counts unless its text was taken as that of the mode around it or scanned
with another grammar. -/
def leaveMode (context : ScanContext) (state : ScanState) : ScanState :=
  let mode := context.topMode state
  { state with
    tree := if mode.scope.isSome then state.tree.closeScope else state.tree
    relevance :=
      if mode.flags.skip || mode.subLanguage.isSome then state.relevance
      else ScanResult.addRelevance state.relevance mode.relevance
    stack := state.stack.pop }

def leaveModes (context : ScanContext) : Nat → ScanState → ScanState
  | 0, state => state
  | count + 1, state => leaveModes context count (context.leaveMode state)

/-- Modes end, and the mode that the outermost of them starts begins. Nothing comes of the match if no
mode ends with it. -/
def endModes (context : ScanContext) (found : Pattern.RuleMatch) (lexeme : String)
    (state : ScanState) : Except Halt Progress := do
  let (count, frames) := endingModes context.grammar (context.hookMatch found) state.stack.nested
  let state := { state with stack := ⟨frames⟩ }
  match count with
  | none => return takeLexeme found lexeme state
  | some count =>
    let mode := context.topMode state
    let state ← context.placeEndLexeme mode found lexeme state
    let outermost := ((frames[count - 1]?).map Frame.mode).getD Mode.root
    let state := context.leaveModes count state
    let state ← match (context.grammar.mode outermost).starts with
      | some next => context.startMode next found {} state
      | none => .ok state
    return .advance { state with
      position := if mode.flags.returnEnd then found.start else found.stop }

def meetIllegal (context : ScanContext) (found : Pattern.RuleMatch) (lexeme : String)
    (state : ScanState) : Except Halt Progress :=
  if context.settings.ignoreIllegal then
    .ok (if lexeme.isEmpty then context.takeChar found.start state
      else takeLexeme found lexeme state)
  else
    .error (.failed (.illegalLexeme context.grammar.name lexeme (context.topMode state).displayName
      (context.text.byteOffset found.start)))

/-- Whether a match repeats the last one without any text in between: a mode that ends right where it
has begun, or begins where it has begun. -/
def repeatsLast (found : Pattern.RuleMatch) (state : ScanState) : Bool :=
  match found.rule, state.lastMatch with
  | .ends, some (.begins _, start) => found.start == found.stop && start == found.start
  | .begins mode, some (.begins last, start) => last == mode && start == found.start
  | _, _ => false

def process (context : ScanContext) (found : Pattern.RuleMatch) (state : ScanState) :
    Except Halt Progress := do
  let skipped ← context.text.part state.position found.start
  let lexeme ← context.text.part found.start found.stop
  let state := { state with buffer := state.buffer ++ skipped }
  if repeatsLast found state then
    if context.settings.lenient then return context.takeChar found.start state
    else
      throw (.failed (.zeroWidthMatch context.grammar.name (context.text.byteOffset found.start)))
  else
    let state := { state with lastMatch := some (found.rule, found.start) }
    match found.rule with
    | .begins place => context.beginMode place found lexeme state
    | .ends => context.endModes found lexeme state
    | .illegal => context.meetIllegal found lexeme state

def tooManyRounds (context : ScanContext) (rounds position : Nat) : Bool :=
  decide (context.settings.limits.rounds < rounds) &&
    decide (context.settings.limits.roundsPerByte * context.text.byteOffset position < rounds)

/-- One round: the next match is looked for and something is done about it. Without a match, the scan
has come to its last text. -/
def step (context : ScanContext) (state : ScanState) : Except Halt Progress := do
  let state := { state with rounds := state.rounds + 1 }
  match context.grammar.matcher state.stack.top with
  | .error cause => throw (.failed (.badMatcher cause))
  | .ok matcher =>
    match matcher.find? context.text state.position with
    | none => return .finish state
    | some found =>
      if context.tooManyRounds state.rounds found.start then
        throw (.failed (.endless context.grammar.name (context.text.byteOffset found.start)))
      else context.process found state

end ScanContext

end Highlight
