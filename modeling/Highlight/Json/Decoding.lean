import Highlight.Dictionary
import Highlight.Json.Parser
import Highlight.Text.Quoted

set_option autoImplicit false

/-! Reading values of a given form out of JSON documents. A document is read in the order of its
text, and the first thing in it that is not as expected is the error. -/

namespace Highlight.Json

inductive Found where
  | null
  | bool (value : Bool)
  | number (value : Number)
  | string (value : String)
  | sequence
  | map
deriving DecidableEq, Repr, Inhabited

namespace Found

def description : Found → String
  | null => "null"
  | bool value => s!"boolean `{value}`"
  | number (.floating below magnitude) =>
    "floating point `" ++ (Number.floating below magnitude).text ++ "`"
  | number value => "integer `" ++ value.text ++ "`"
  | string value => "string " ++ quoted value
  | sequence => "sequence"
  | map => "map"

end Found

inductive Expected where
  | string
  | boolean
  | word32
  | sequence
  | map
  | grammar
  | mode
  | bundle
deriving DecidableEq, Repr, Inhabited

namespace Expected

def description : Expected → String
  | string => "a string"
  | boolean => "a boolean"
  | word32 => "u32"
  | sequence => "a sequence"
  | map => "a map"
  | grammar => "struct RawGrammar"
  | mode => "struct RawMode"
  | bundle => "struct GrammarBundle"

end Expected

inductive Choice where
  | pattern
  | scope
  | keywords
  | keywordList
  | subLanguage
  | contained
deriving DecidableEq, Repr, Inhabited

namespace Choice

def name : Choice → String
  | pattern => "RawPattern"
  | scope => "RawScope"
  | keywords => "RawKeywords"
  | keywordList => "RawKeywordList"
  | subLanguage => "RawSubLanguage"
  | contained => "ContainsRepr"

end Choice

/-- How a well-formed document fails to be what is read out of it. -/
inductive DataError where
  | wrongType (found : Found) (expected : Expected)
  | outOfRange (found : Found) (expected : Expected)
  | wrongLength (length : Nat) (expected : String)
  | duplicateField (name : String)
  | missingField (name : String)
  | noMatch (choice : Choice)
  | unknownHook (name : String)
  | badReference (text : String)
  | unwritableHook
deriving DecidableEq, Repr, Inhabited

namespace DataError

def message : DataError → String
  | wrongType found expected => s!"invalid type: {found.description}, expected {expected.description}"
  | outOfRange found expected => s!"invalid value: {found.description}, expected {expected.description}"
  | wrongLength length expected => s!"invalid length {length}, expected {expected}"
  | duplicateField name => s!"duplicate field `{name}`"
  | missingField name => s!"missing field `{name}`"
  | noMatch choice => s!"data did not match any variant of untagged enum {choice.name}"
  | unknownHook name => s!"unknown hook `{name}`"
  | badReference text => s!"invalid reference `{text}` in contains, expected `self` or `#name`"
  | unwritableHook => "custom hooks cannot be serialized"

end DataError

inductive ReadCause where
  | fault (fault : Fault)
  | data (error : DataError)
deriving DecidableEq, Repr, Inhabited

namespace ReadCause

def message : ReadCause → String
  | fault kind => kind.message
  | data error => error.message

end ReadCause

/-- Where an error shows while a document is read. -/
inductive Sighting where
  | spot (spot : Spot)
  /-- As soon as it is known what kind of value stands here. -/
  | value
  /-- At what follows the value. -/
  | next
  /-- At the end of the value. -/
  | ending
deriving DecidableEq, Repr, Inhabited

structure Failure where
  cause : ReadCause
  sighting : Sighting
deriving DecidableEq, Repr, Inhabited

namespace Failure

def ofStop (stop : Stop) : Failure :=
  { cause := .fault stop.fault, sighting := .spot stop.spot }

def unexpected (error : DataError) : Failure :=
  { cause := .data error, sighting := .value }

/-- A value of the expected form that makes no sense. -/
def senseless (error : DataError) : Failure :=
  { cause := .data error, sighting := .next }

def tooDeep : Failure :=
  { cause := .fault .tooDeep, sighting := .value }

/-- The failure of a value, given what is left of the text behind it and where what follows the value
is seen. -/
def settle (failure : Failure) (document : Document) (after : List Char) (next : Spot) : Failure :=
  let spot := match failure.sighting with
    | .spot spot => spot
    | .value => document.spot after
    | .next => next
    | .ending => { rest := after }
  { failure with sighting := .spot spot }

/-- The failure of an item. What follows an item goes up to the one after the comma. -/
def inList (item : Item Document) (failure : Failure) : Failure :=
  let next := match skipBlanks item.after with
    | ',' :: rest => skipBlanks rest
    | rest => rest
  failure.settle item.value item.after { rest := next, seen := 1 }

def inObject (member : Member Document) (failure : Failure) : Failure :=
  failure.settle member.value member.after { rest := skipBlanks member.after, seen := 1 }

def duplicate (member : Member Document) (name : String) : Failure where
  cause := .data (.duplicateField name)
  sighting := .spot { rest := skipBlanks member.afterName, seen := 1 }

end Failure

structure ReadError where
  cause : ReadCause
  place : Option Place := none
deriving DecidableEq, Repr, Inhabited

namespace ReadError

def message (error : ReadError) : String :=
  match error.place with
  | some place => s!"{error.cause.message} at line {place.line} column {place.column}"
  | none => error.cause.message

def ofFailure (source : Source) (failure : Failure) : ReadError :=
  let settled := failure.settle source.document source.after { rest := source.after }
  { cause := failure.cause
    place := match settled.sighting with
      | .spot spot => some (Place.ofSpot source.text spot)
      | _ => none }

end ReadError

/-- Reads a value out of a document in which arrays and objects may be nested so deep. -/
abbrev Decoder (α : Type) := Nat → Document → Except Failure α

namespace Decoder

/-- The error of a value that is not as expected. A text that goes wrong right here is the error
before that. -/
def mismatch {α : Type} (expected : Expected) (document : Document) : Except Failure α :=
  let found (found : Found) : Except Failure α :=
    .error (.unexpected (.wrongType found expected))
  match document with
  | .null => found .null
  | .bool value => found (.bool value)
  | .number value => found (.number value)
  | .string value => found (.string value)
  | .array _ _ _ => found .sequence
  | .object _ _ _ => found .map
  | .broken fault => .error (.ofStop fault.read)
  | .faulty stop => .error (.ofStop stop)

def string : Decoder String := fun _ document =>
  match document with
  | .string value => .ok value
  | _ => mismatch .string document

def boolean : Decoder Bool := fun _ document =>
  match document with
  | .bool value => .ok value
  | _ => mismatch .boolean document

def word32 : Decoder Nat := fun _ document =>
  let outOfRange (number : Number) : Except Failure Nat :=
    .error (.unexpected (.outOfRange (.number number) .word32))
  match document with
  | .number (.natural value) =>
    if value < Nat.pow 2 32 then .ok value else outOfRange (.natural value)
  | .number (.negative magnitude) => outOfRange (.negative magnitude)
  | _ => mismatch .word32 document

def optional {α : Type} (decoder : Decoder α) : Decoder (Option α) := fun depth document =>
  match document with
  | .null => .ok none
  | _ => some <$> decoder depth document

def checkEnd : Option Break → Except Failure Unit
  | some fault => .error (.ofStop fault.read)
  | none => .ok ()

def item {α : Type} (decoder : Decoder α) (depth : Nat) (item : Item Document) :
    Except Failure α :=
  (decoder depth item.value).mapError (·.inList item)

def member {α : Type} (decoder : Decoder α) (depth : Nat) (member : Member Document) :
    Except Failure α :=
  (decoder depth member.value).mapError (·.inObject member)

def memberName (member : Member Document) : Except Failure String :=
  member.name.mapError Failure.ofStop

def sequence {α : Type} (decoder : Decoder α) : Decoder (List α) := fun depth document =>
  match document with
  | .array _ items fault =>
    match depth with
    | 0 => .error .tooDeep
    | depth + 1 => do
      let values ← items.mapM (item decoder depth)
      checkEnd fault
      return values
  | _ => mismatch .sequence document

def dictionary {α : Type} (decoder : Decoder α) : Decoder (Dictionary α) := fun depth document =>
  match document with
  | .object _ members fault =>
    match depth with
    | 0 => .error .tooDeep
    | depth + 1 => do
      let entries ← members.mapM fun entry => do
        let name ← memberName entry
        return (name, ← member decoder depth entry)
      checkEnd fault
      return .ofList entries
  | _ => mismatch .map document

/-- Reads the whole document first; the decoder then meets no fault of the text in it. -/
def whole {α : Type} (decoder : Decoder α) : Decoder α := fun depth document => do
  let _ ← (document.value depth).mapError Failure.ofStop
  decoder depth document

/-- Reads the whole document and then tries decoders in turn; none of their errors is shown. -/
def choose {α : Type} (choice : Choice) (decoders : List (Decoder α)) : Decoder α :=
  whole fun depth document =>
    match decoders.findSome? fun decoder => (decoder depth document).toOption with
    | some value => .ok value
    | none => .error (.senseless (.noMatch choice))

/-- The error of a list whose items after the wanted ones are not read, given what is left of the text
behind the last of these. -/
def checkNoMore (after : List Char) : Except Failure Unit :=
  let stop (fault : Fault) (rest : List Char) : Except Failure Unit :=
    .error (.ofStop (Stop.of fault rest 1))
  match skipBlanks after with
  | ']' :: _ => .ok ()
  | [] => stop .endInList []
  | ',' :: rest =>
    match skipBlanks rest with
    | ']' :: rest => stop .commaAtEnd (']' :: rest)
    | rest => stop .textAfterEnd rest
  | rest => stop .textAfterEnd rest

/-- The error of a list of which up to `count` items are wanted, after these have been read. -/
def checkItems (count : Nat) (items : List (Item Document)) (fault : Option Break) :
    Except Failure Unit :=
  match items.drop (count - 1), fault with
  | [], _ => checkEnd fault
  | [_], none => .ok ()
  | last :: _, _ => checkNoMore last.after

def run {α : Type} (decoder : Decoder α) (text : String) : Except ReadError α := do
  let source := Source.read text
  let value ← (decoder mostNested source.document).mapError (.ofFailure source)
  match source.trailing? with
  | some stop => throw (.ofFailure source (.ofStop stop))
  | none => return value

end Decoder

end Highlight.Json
