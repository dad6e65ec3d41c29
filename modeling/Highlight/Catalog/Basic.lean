import Highlight.Grammar.Basic

set_option autoImplicit false

/-! Grammars by their names, and other names for them. Names are looked up without regard to case. -/

namespace Highlight

structure Catalog where
  /-- The grammars by their names, in lower case. -/
  grammars : Dictionary Grammar := {}
  /-- The other names, in lower case, and the names that they stand for. -/
  aliases : Dictionary String := {}
deriving Inhabited

namespace Catalog

/-- The grammar of a name, or the one that the name is an alias of. -/
def find? (catalog : Catalog) (name : String) : Option Grammar :=
  let name := Unicode.lowercase name
  match catalog.grammars.find? name with
  | some grammar => some grammar
  | none => (catalog.aliases.find? name).bind catalog.grammars.find?

def contains (catalog : Catalog) (name : String) : Bool :=
  (catalog.find? name).isSome

def names (catalog : Catalog) : List String :=
  catalog.grammars.names

def detects (catalog : Catalog) (name : String) : Bool :=
  (catalog.find? name).any fun grammar => !grammar.definition.disableAutodetect

def dropAliases (catalog : Catalog) (name : String) : Catalog :=
  { catalog with aliases := catalog.aliases.filter fun _ target => target != name }

def addAliases (catalog : Catalog) (aliases : List String) (name : String) : Catalog :=
  { catalog with
    aliases := aliases.foldl (fun known other =>
      known.insert (Unicode.lowercase other) (Unicode.lowercase name)) catalog.aliases }

def remove (catalog : Catalog) (name : String) : Catalog :=
  let name := Unicode.lowercase name
  ({ catalog with grammars := catalog.grammars.erase name } : Catalog).dropAliases name

/-- Puts a compiled grammar in, in place of one of the same name. It has those other names only that
it declares itself. -/
def put (catalog : Catalog) (grammar : Grammar) : Catalog :=
  let catalog := { catalog with grammars := catalog.grammars.insert grammar.name grammar }
  (catalog.dropAliases grammar.name).addAliases grammar.aliases grammar.name

end Catalog

end Highlight
