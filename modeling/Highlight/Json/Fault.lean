import Highlight.Text

set_option autoImplicit false

/-! Where and how a text fails to be JSON. While a text is read, a place in it is known by what is left
of the text behind it; only when an error is shown is the place counted in lines and columns. -/

namespace Highlight.Json

inductive Fault where
  | endInList
  | endInObject
  | endInString
  | endInValue
  | noColon
  | noCommaInList
  | noCommaInObject
  | noWord
  | noValue
  | badEscape
  | badNumber
  | bigNumber
  | badCharacter
  | controlCharacter
  | nameWithoutQuotes
  | halfCharacter
  | halfEscape
  | commaAtEnd
  | textAfterEnd
  | tooDeep
deriving DecidableEq, Repr, Inhabited

namespace Fault

def isEnd : Fault → Bool
  | endInList | endInObject | endInString | endInValue => true
  | _ => false

def message : Fault → String
  | endInList => "EOF while parsing a list"
  | endInObject => "EOF while parsing an object"
  | endInString => "EOF while parsing a string"
  | endInValue => "EOF while parsing a value"
  | noColon => "expected `:`"
  | noCommaInList => "expected `,` or `]`"
  | noCommaInObject => "expected `,` or `\x7d`"
  | noWord => "expected ident"
  | noValue => "expected value"
  | badEscape => "invalid escape"
  | badNumber => "invalid number"
  | bigNumber => "number out of range"
  | badCharacter => "invalid unicode code point"
  | controlCharacter => "control character (\\u0000-\\u001F) found while parsing a string"
  | nameWithoutQuotes => "key must be a string"
  | halfCharacter => "lone leading surrogate in hex escape"
  | halfEscape => "unexpected end of hex escape"
  | commaAtEnd => "trailing comma"
  | textAfterEnd => "trailing characters"
  | tooDeep => "recursion limit exceeded"

end Fault

/-- A place in a text: what is left of the text, of which so many bytes have been looked at, too. -/
structure Spot where
  rest : List Char
  seen : Nat := 0
deriving DecidableEq, Repr, Inhabited

namespace Spot

def bytesLeft (spot : Spot) : Nat :=
  Text.bytesOf spot.rest - spot.seen

end Spot

structure Stop where
  fault : Fault
  spot : Spot
deriving DecidableEq, Repr, Inhabited

namespace Stop

def of (fault : Fault) (rest : List Char) (seen : Nat) : Stop :=
  ⟨fault, rest, seen⟩

end Stop

/-- A place as a reader counts it: the line, from one on, and how many bytes of it come before. -/
structure Place where
  line : Nat := 1
  column : Nat := 0
deriving DecidableEq, Repr, Inhabited

namespace Place

def step (place : Place) (c : Char) : Place :=
  if c = '\n' then { line := place.line + 1, column := 0 }
  else { place with column := place.column + c.utf8Size }

def advance (place : Place) : Nat → List Char → Place
  | 0, _ => place
  | _, [] => place
  | bytes, c :: rest =>
    if c.utf8Size ≤ bytes then (place.step c).advance (bytes - c.utf8Size) rest
    else { place with column := place.column + bytes }

def ofSpot (text : String) (spot : Spot) : Place :=
  advance {} (text.utf8ByteSize - spot.bytesLeft) text.toList

end Place

end Highlight.Json
