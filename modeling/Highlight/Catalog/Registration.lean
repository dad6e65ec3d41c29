import Highlight.Catalog.Basic
import Highlight.Definition.Reader
import Highlight.Error
import Highlight.File.Path
import Highlight.Scan.Detection

set_option autoImplicit false

/-! Adding grammars. One that cannot be compiled leaves the catalog as it is. -/

namespace Highlight.Catalog

def register (catalog : Catalog) (engine : Pattern.Engine) (name : String)
    (definition : GrammarDefinition) : Except Error Catalog :=
  let name := Unicode.lowercase name
  match Grammar.compile engine name definition with
  | .ok grammar => .ok (catalog.put grammar)
  | .error cause => .error (.definition name cause)

def addText (catalog : Catalog) (engine : Pattern.Engine) (name text : String) :
    Except Error Catalog := do
  let definition ← Error.ofRead (GrammarDefinition.read text)
  catalog.register engine name definition

/-- The name of the grammar in a file: that of the file, or else the one that the grammar gives
itself. -/
def nameOfFile (path : Path) (definition : GrammarDefinition) : Except Error String :=
  match path.stem? with
  | some stem => .ok stem
  | none =>
    if definition.name.isEmpty then .error (.definition path.display .noName)
    else .ok definition.name

def addFile (catalog : Catalog) (engine : Pattern.Engine) (path : Path)
    (content : Except Error String) : Except Error Catalog := do
  let definition ← Error.ofRead (GrammarDefinition.read (← content))
  let name ← nameOfFile path definition
  catalog.register engine name definition

def plainDefinition : GrammarDefinition :=
  { name := "Plain text", disableAutodetect := true }

/-- Adds the grammar that gives nothing a scope, with other names for it. -/
def addPlain (catalog : Catalog) (engine : Pattern.Engine) (aliases : List String) :
    Except Error Catalog := do
  let catalog ← catalog.register engine Detection.plainName plainDefinition
  return catalog.addAliases aliases Detection.plainName

end Highlight.Catalog
