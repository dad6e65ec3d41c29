import Highlight.Definition.Error
import Highlight.Json.Decoding
import Highlight.Scan.State

set_option autoImplicit false

/-! What can go wrong in the use of the library. -/

namespace Highlight

inductive Error where
  /-- A file cannot be read, or is not what it should be. -/
  | badFile
  /-- A file that should hold JSON can be found but not read. -/
  | badJsonFile
  | json (error : Json.ReadError)
  | definition (grammar : String) (cause : DefinitionError)
  | unknownGrammar (name : String)
  | halted (halt : Halt)
deriving DecidableEq, Repr, Inhabited

namespace Error

def message : Error → String
  | badFile => "I/O error"
  | badJsonFile => "JSON parsing error"
  | json error => s!"JSON parsing error: {error.message}"
  | definition grammar cause => s!"invalid definition for grammar '{grammar}': {cause.message}"
  | unknownGrammar name => s!"grammar '{name}' not found"
  | halted halt => halt.message

def ofRead {α : Type} : Except Json.ReadError α → Except Error α :=
  Except.mapError json

def ofHalt {α : Type} : Except Halt α → Except Error α :=
  Except.mapError halted

end Error

end Highlight
