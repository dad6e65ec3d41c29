import Highlight.Scan.Step

set_option autoImplicit false

/-! A whole scan. Its rounds are bounded by its limits: once there have been more of them than a text
of that size can give reason for, the scan fails. The scans of embedded grammars are nested within
it, to a depth that is a parameter. -/

namespace Highlight

/-- The state in which the last round has begun or ended, and why the scan has stopped if it was not
for the end of the text. -/
structure Run where
  state : ScanState
  halt : Option Halt
deriving Inhabited

namespace ScanContext

def runRounds (context : ScanContext) : Nat → ScanState → Run
  | 0, state => { state, halt := some (.failed (.endless context.grammar.name 0)) }
  | rounds + 1, state =>
    match context.step state with
    | .error halt => { state, halt := some halt }
    | .ok (.advance next) => runRounds context rounds next
    | .ok (.finish last) => { state := last, halt := none }

def takeRest (context : ScanContext) (state : ScanState) : Except Halt ScanState := do
  let rest ← context.text.part state.position context.text.size
  context.flush { state with buffer := state.buffer ++ rest, position := context.text.size }

def openFrame (context : ScanContext) (tree : TreeBuilder) (frame : Frame) : TreeBuilder :=
  match (context.grammar.mode frame.mode).scope with
  | some scope => tree.openScope (context.grammar.resolveScope scope)
  | none => tree

/-- The state before the first round. The scopes of the modes that are on are open. -/
def start (context : ScanContext) (stack : Option ModeStack) : ScanState :=
  let stack := stack.getD {}
  { stack
    tree := stack.nested.reverse.foldl context.openFrame {} }

def run (context : ScanContext) (stack : Option ModeStack) : Run :=
  let rounds := context.settings.limits.mostRounds context.text.byteSize
  let run := context.runRounds rounds (context.start stack)
  match run.halt with
  | some _ => run
  | none =>
    match context.takeRest run.state with
    | .ok state => { state, halt := none }
    | .error halt => { run with halt := some halt }

/-- How many characters around a failure are shown, on each side. -/
def contextReach : Nat := 100

/-- Where a failure is shown: where the text does not belong, or where the last round began. -/
def failurePosition (context : ScanContext) (error : ScanError) (state : ScanState) : Nat :=
  match error with
  | .illegalLexeme _ _ _ offset => (context.text.position? offset).getD context.text.size
  | _ => min state.position context.text.size

def degraded (context : ScanContext) (error : ScanError) (state : ScanState) : ScanResult :=
  let position := context.failurePosition error state
  { ScanResult.plain context.grammar.name context.text.toString with
    illegal := error.isIllegal
    failed := !error.isIllegal
    diagnostic := some {
      message := error.message
      offset := context.text.byteOffset position
      context := context.text.around position contextReach
      mode := error.mode? } }

/-- The result of a scan. A lenient one gives back the bare text if it fails, and unless that was for
text that does not belong, a later scan can go on with its stack. -/
def result (context : ScanContext) (run : Run) : Except Halt Scanned :=
  match run.halt with
  | none =>
    .ok {
      result := {
        language := context.grammar.name
        relevance := run.state.relevance
        tree := run.state.tree.finish }
      stack := some run.state.stack }
  | some (.failed error) =>
    if context.settings.lenient then
      .ok {
        result := context.degraded error run.state
        stack := if error.isIllegal then none else some run.state.stack }
    else .error (.failed error)
  | some halt => .error halt

def scan (context : ScanContext) (stack : Option ModeStack) : Except Halt Scanned :=
  context.result (context.run stack)

end ScanContext

namespace Catalog

/-- Scans a text with a grammar, in which scans of embedded grammars are nested so deep. -/
def scanNested (catalog : Catalog) : Nat → ScanWith
  | 0 => fun _ _ _ _ => .error .tooDeep
  | depth + 1 => fun grammar text settings stack =>
    ({ catalog, grammar, text := Text.ofString text, settings,
       embedded := catalog.scanNested depth } : ScanContext).scan stack

def deepestScan : Nat := 1000

def scanWith (catalog : Catalog) : ScanWith :=
  catalog.scanNested deepestScan

def detect (catalog : Catalog) (text : String) (candidates : Option (List String))
    (limits : ScanLimits) : Except Halt ScanResult :=
  Detection.detect catalog catalog.scanWith text candidates limits

end Catalog

end Highlight
