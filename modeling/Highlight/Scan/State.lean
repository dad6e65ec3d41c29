import Highlight.Catalog.Basic
import Highlight.Scan.Result
import Highlight.Scan.Settings
import Highlight.Scan.Stack

set_option autoImplicit false

/-! The state of a scan between two rounds. Text that has been gone through stands in the tree, or in
the buffer as long as it may still become part of a longer piece. -/

namespace Highlight

inductive Halt where
  | failed (error : ScanError)
  /-- A part of the text was asked for that runs backwards or leaves the text. -/
  | outOfText
  /-- Grammars are embedded in each other too deeply. -/
  | tooDeep
deriving DecidableEq, Repr, Inhabited

namespace Halt

def message : Halt → String
  | failed error => error.message
  | outOfText => "a part of the text was asked for that is not there"
  | tooDeep => "grammars are embedded in each other too deeply"

end Halt

structure ScanState where
  stack : ModeStack := {}
  buffer : String := ""
  relevance : Nat := 0
  /-- How often each keyword has occurred. -/
  hits : Dictionary Nat := {}
  tree : TreeBuilder := {}
  /-- How many rounds have begun. -/
  rounds : Nat := 0
  /-- The last match that something has come of, and where it started. -/
  lastMatch : Option (Pattern.Rule × Nat) := none
  /-- The stacks with which the scans of embedded grammars have ended, which the next scans go on
  with. -/
  continuations : Dictionary ModeStack := {}
  /-- Where the next match is looked for. -/
  position : Nat := 0
deriving Inhabited

/-- A scan that has come to its end: the result, and the stack that a later scan can go on with. -/
structure Scanned where
  result : ScanResult
  stack : Option ModeStack
deriving Inhabited

abbrev ScanWith := Grammar → String → ScanSettings → Option ModeStack → Except Halt Scanned

structure ScanContext where
  catalog : Catalog
  grammar : Grammar
  text : Text
  settings : ScanSettings
  /-- How embedded grammars are scanned. -/
  embedded : ScanWith

namespace ScanContext

def topMode (context : ScanContext) (state : ScanState) : Mode :=
  context.grammar.mode state.stack.top

end ScanContext

def Text.part (text : Text) (start stop : Nat) : Except Halt String :=
  match text.slice? start stop with
  | some part => .ok part
  | none => .error .outOfText

end Highlight
