import Highlight.Catalog.Registration
import Highlight.Definition.Writer
import Highlight.File.Frame
import Highlight.Json.Writer

set_option autoImplicit false

/-! Bundles: all grammars of a catalog and all other names in one file. The grammars are kept as they
were defined, and compiled again when the bundle is loaded. -/

namespace Highlight

structure Bundle where
  grammars : Dictionary GrammarDefinition := {}
  aliases : Dictionary String := {}
deriving Inhabited

namespace Json.Decoder

structure BundleFields where
  grammars : Option (Dictionary GrammarDefinition) := none
  aliases : Option (Dictionary String) := none
deriving Inhabited

/-- The bundle of some fields, all of which have to be there. -/
def bundleOf (fields : BundleFields) : Except Failure Bundle :=
  match fields.grammars, fields.aliases with
  | none, _ => .error { cause := .data (.missingField "grammars"), sighting := .ending }
  | _, none => .error { cause := .data (.missingField "aliases"), sighting := .ending }
  | some grammars, some aliases => .ok { grammars, aliases }

def bundleMembers (depth : Nat) :
    BundleFields → List (Member Document) → Except Failure BundleFields
  | fields, [] => .ok fields
  | fields, entry :: rest => do
    match ← memberName entry with
    | "grammars" =>
      if fields.grammars.isSome then .error (.duplicate entry "grammars")
      else do
        let grammars ← member (dictionary grammar) depth entry
        bundleMembers depth { fields with grammars := some grammars } rest
    | "aliases" =>
      if fields.aliases.isSome then .error (.duplicate entry "aliases")
      else do
        let aliases ← member (dictionary string) depth entry
        bundleMembers depth { fields with aliases := some aliases } rest
    | _ =>
      match entry.value.skipFault? with
      | some stop => .error (.ofStop stop)
      | none => bundleMembers depth fields rest

/-- The error of a bundle whose fields are given as a list that is too short. -/
def shortBundle (length : Nat) : Failure where
  cause := .data (.wrongLength length "struct GrammarBundle with 2 elements")
  sighting := .ending

def bundleItems (depth : Nat) (items : List (Item Document)) (fault : Option Break) :
    Except Failure Bundle :=
  match items with
  | [] => do
    checkEnd fault
    throw (shortBundle 0)
  | [first] => do
    let _ ← item (dictionary grammar) depth first
    checkEnd fault
    throw (shortBundle 1)
  | first :: second :: _ => do
    let grammars ← item (dictionary grammar) depth first
    let aliases ← item (dictionary string) depth second
    checkItems 2 items fault
    return { grammars, aliases }

def bundle : Decoder Bundle := fun depth document =>
  match document, depth with
  | .object _ _ _, 0 => .error .tooDeep
  | .array _ _ _, 0 => .error .tooDeep
  | .object _ members fault, depth + 1 => do
    let fields ← bundleMembers depth {} members
    checkEnd fault
    bundleOf fields
  | .array _ items fault, depth + 1 => bundleItems depth items fault
  | _, _ => mismatch .bundle document

end Json.Decoder

namespace Bundle

def ofCatalog (catalog : Catalog) : Bundle where
  grammars := catalog.grammars.map fun grammar => grammar.definition
  aliases := catalog.aliases

def toJson (bundle : Bundle) : Except Json.DataError Json := do
  let grammars ← bundle.grammars.entries.mapM fun entry => do
    return (entry.1, ← entry.2.toJson)
  return .object [("grammars", .object grammars), ("aliases", bundle.aliases.toJson .string)]

def read (text : String) : Except Json.ReadError Bundle :=
  Json.Decoder.bundle.run text

def toCatalog (engine : Pattern.Engine) (bundle : Bundle) : Except Error Catalog := do
  let catalog ← bundle.grammars.entries.foldlM
    (fun (catalog : Catalog) entry => catalog.register engine entry.1 entry.2) {}
  return bundle.aliases.entries.foldl
    (fun catalog entry => catalog.addAliases [entry.1] entry.2) catalog

end Bundle

namespace Catalog

def save (catalog : Catalog) : Except Error (List UInt8) :=
  match (Bundle.ofCatalog catalog).toJson with
  | .ok json => .ok (Frame.pack json.write.toUTF8.toList)
  | .error error => .error (.json { cause := .data error })

def bundleText (bytes : List UInt8) : Except Error String :=
  match Frame.unpack? bytes with
  | none => .error .badFile
  | some content =>
    match String.fromUTF8? ⟨content.toArray⟩ with
    | some text => .ok text
    | none => .error (.json { cause := .fault .badCharacter })

def load (engine : Pattern.Engine) (bytes : List UInt8) : Except Error Catalog := do
  let text ← bundleText bytes
  let bundle ← Error.ofRead (Bundle.read text)
  bundle.toCatalog engine

end Catalog

end Highlight
