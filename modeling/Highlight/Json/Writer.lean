import Highlight.Json.Value

set_option autoImplicit false

/-! The compact text of a JSON value: no blanks, and no escapes where a character can stand for
itself. -/

namespace Highlight.Json

def hexDigit (value : Nat) : Char :=
  if value < 10 then Char.ofNat (48 + value) else Char.ofNat (87 + value)

def writeChar (c : Char) : List Char :=
  match c.toNat with
  | 34 => ['\\', '"']
  | 92 => ['\\', '\\']
  | 8 => ['\\', 'b']
  | 9 => ['\\', 't']
  | 10 => ['\\', 'n']
  | 12 => ['\\', 'f']
  | 13 => ['\\', 'r']
  | code =>
    if code < 32 then ['\\', 'u', '0', '0', hexDigit (code / 16), hexDigit (code % 16)] else [c]

def writeString (string : String) : String :=
  "\"" ++ String.ofList (string.toList.flatMap writeChar) ++ "\""

mutual

def write : Json → String
  | null => "null"
  | bool value => if value then "true" else "false"
  | number value => value.text
  | string value => writeString value
  | array items => "[" ++ ",".intercalate (writeItems items) ++ "]"
  | object members => "\x7b" ++ ",".intercalate (writeMembers members) ++ "\x7d"

def writeItems : List Json → List String
  | [] => []
  | item :: rest => write item :: writeItems rest

def writeMembers : List (String × Json) → List String
  | [] => []
  | (name, value) :: rest => (writeString name ++ ":" ++ write value) :: writeMembers rest

end

end Highlight.Json
