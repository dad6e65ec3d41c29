import Highlight.Pattern.RuleSet
import Highlight.Tree.Builder

set_option autoImplicit false

/-! What a scan comes to. -/

namespace Highlight

/-- Why a scan gives up. Offsets count bytes. -/
inductive ScanError where
  /-- The text at an offset does not belong in the mode that is on. -/
  | illegalLexeme (grammar lexeme mode : String) (offset : Nat)
  /-- A mode begins and ends, or begins twice, without taking up any text. -/
  | zeroWidthMatch (grammar : String) (offset : Nat)
  /-- Too many rounds have brought too little. -/
  | endless (grammar : String) (offset : Nat)
  /-- What is to be looked for cannot be compiled. -/
  | badMatcher (cause : Pattern.RuleSetError)
deriving DecidableEq, Repr, Inhabited

namespace ScanError

def isIllegal : ScanError → Bool
  | illegalLexeme .. => true
  | _ => false

def mode? : ScanError → Option String
  | illegalLexeme _ _ mode _ => some mode
  | _ => none

def message : ScanError → String
  | illegalLexeme _ lexeme mode _ => s!"Illegal lexeme \"{lexeme}\" for mode \"{mode}\""
  | zeroWidthMatch grammar offset => s!"0 width match regex ({grammar}) at index {offset}"
  | endless grammar offset =>
    s!"potential infinite loop in grammar '{grammar}' at index {offset}, way more iterations than matches"
  | badMatcher cause => s!"regex compilation error: {cause.message}"

end ScanError

structure Diagnostic where
  message : String
  /-- How many bytes stand before the place. -/
  offset : Nat
  /-- The text around the place. -/
  context : String
  /-- The mode in which text did not belong. -/
  mode : Option String
deriving DecidableEq, Repr, Inhabited

structure ScanResult where
  /-- The name of the grammar. -/
  language : String
  relevance : Nat := 0
  tree : TokenTree
  /-- Whether the scan has met text that does not belong; the tree is the bare text then. -/
  illegal : Bool := false
  /-- Whether the scan has failed in another way; the tree is the bare text then. -/
  failed : Bool := false
  diagnostic : Option Diagnostic := none
  /-- The next best result, where the language was detected. -/
  secondBest : Option ScanResult := none
deriving Repr

namespace ScanResult

def plain (language text : String) : ScanResult :=
  { language, tree := TokenTree.plain text }

instance : Inhabited ScanResult :=
  ⟨plain "" ""⟩

def mostRelevant : Nat := Nat.pow 2 32 - 1

/-- Adds to a relevance, up to the most that it can be. -/
def addRelevance (relevance more : Nat) : Nat :=
  min mostRelevant (relevance + more)

end ScanResult

end Highlight
