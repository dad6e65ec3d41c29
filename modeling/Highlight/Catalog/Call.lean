import Highlight.Catalog.Registration

set_option autoImplicit false

/-! The calls that change a catalog, step by step. The steps that a call has taken before it fails are
not taken back, so it matters that whatever can fail comes first. -/

namespace Highlight.Catalog

/-- Steps on a catalog, any of which may fail. -/
abbrev Steps := ExceptT Error (StateM Catalog)

namespace Steps

def insert (name : String) (grammar : Grammar) : Steps Unit :=
  modify fun catalog => { catalog with grammars := catalog.grammars.insert name grammar }

def erase (name : String) : Steps Unit :=
  modify fun catalog => { catalog with grammars := catalog.grammars.erase name }

def dropAliases (name : String) : Steps Unit :=
  modify (Catalog.dropAliases · name)

def addAliases (aliases : List String) (name : String) : Steps Unit :=
  modify (Catalog.addAliases · aliases name)

def register (engine : Pattern.Engine) (name : String) (definition : GrammarDefinition) :
    Steps Unit := do
  let name := Unicode.lowercase name
  match Grammar.compile engine name definition with
  | .error cause => throw (.definition name cause)
  | .ok grammar =>
    insert name grammar
    dropAliases name
    addAliases grammar.aliases name

def remove (name : String) : Steps Unit := do
  let name := Unicode.lowercase name
  erase name
  dropAliases name

end Steps

inductive Call where
  | register (name : String) (definition : GrammarDefinition)
  | addText (name text : String)
  | addPlain (aliases : List String)
  | addAliases (aliases : List String) (name : String)
  | remove (name : String)

namespace Call

def steps (engine : Pattern.Engine) : Call → Steps Unit
  | register name definition => Steps.register engine name definition
  | addText name text => do
    let definition ← liftExcept (Error.ofRead (GrammarDefinition.read text))
    Steps.register engine name definition
  | addPlain aliases => do
    Steps.register engine Detection.plainName plainDefinition
    Steps.addAliases aliases Detection.plainName
  | addAliases aliases name => Steps.addAliases aliases name
  | remove name => Steps.remove name

def run (engine : Pattern.Engine) (call : Call) (catalog : Catalog) : Except Error Unit × Catalog :=
  (call.steps engine).run.run catalog

/-- The catalog after some calls, of which any may have failed. -/
def history (engine : Pattern.Engine) (calls : List Call) : Catalog :=
  calls.foldl (fun catalog call => (call.run engine catalog).2) {}

end Call

end Highlight.Catalog
