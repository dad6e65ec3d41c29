import Highlight.Json.Document

set_option autoImplicit false

/-! Reading JSON texts. Every function gives back what it has read together with the characters that
follow, or with the place where the text goes wrong. -/

namespace Highlight.Json

abbrev Rest := Except Break (List Char)

namespace Document

/-- A place where the text goes wrong, perhaps not in the same way for one who passes over it. -/
def stopAs (read skip : Fault) (rest : List Char) (seen : Nat) : Document × Rest :=
  let fault : Break := ⟨Stop.of read rest seen, Stop.of skip rest seen⟩
  (broken fault, .error fault)

def stop (fault : Fault) (rest : List Char) (seen : Nat) : Document × Rest :=
  stopAs fault fault rest seen

end Document

def readWord (document : Document) : List Char → List Char → Document × Rest
  | [], rest => (document, .ok rest)
  | _ :: _, [] => Document.stop .endInValue [] 0
  | c :: word, d :: rest =>
    if c = d then readWord document word rest else Document.stop .noWord (d :: rest) 1

/-- A decimal mantissa of 64 bits and the power of ten that it is multiplied by. -/
structure Decimal where
  mantissa : Nat := 0
  exponent : Int := 0
  /-- Whether a digit of the whole part found no more room. -/
  full : Bool := false

namespace Decimal

def digitValue (digit : Char) : Nat :=
  digit.toNat - 48

/-- Adds a digit of the whole part. Once there is no room, digits only raise the exponent. -/
def addWhole (decimal : Decimal) (digit : Char) : Decimal :=
  let mantissa := decimal.mantissa * 10 + digitValue digit
  if decimal.full || Number.mostNatural < mantissa then
    { decimal with exponent := decimal.exponent + 1, full := true }
  else { decimal with mantissa }

def addFraction (decimal : Decimal) : List Char → Decimal
  | [] => decimal
  | digit :: rest =>
    let mantissa := decimal.mantissa * 10 + digitValue digit
    if Number.mostNatural < mantissa then decimal
    else addFraction { decimal with mantissa, exponent := decimal.exponent - 1 } rest

/-- The document of a number that is not whole or that does not fit a whole number, given what is left
of the text behind it. -/
def floating (decimal : Decimal) (below : Bool) (rest : List Char) : Document :=
  match Binary.ofDecimal decimal.mantissa decimal.exponent with
  | some magnitude => .number (.floating below magnitude)
  | none => .faulty (Stop.of .bigNumber rest 1)

def whole (decimal : Decimal) (below : Bool) (rest : List Char) : Document :=
  if decimal.full then decimal.floating below rest
  else if !below then .number (.natural decimal.mantissa)
  else if decimal.mantissa = 0 || Nat.pow 2 63 < decimal.mantissa then decimal.floating below rest
  else .number (.negative decimal.mantissa)

end Decimal

def mostExponent : Nat := Nat.pow 2 31 - 1

/-- An exponent, or what is left of the text where its digits make it too large to be counted. -/
def countExponent : Nat → List Char → Except (List Char) Nat
  | power, [] => .ok power
  | power, c :: rest =>
    if c.isDigit then
      let power := power * 10 + Decimal.digitValue c
      if mostExponent < power then .error rest else countExponent power rest
    else .ok power

def readExponent (decimal : Decimal) (below : Bool) (chars : List Char) : Document × Rest :=
  let (up, digits) := match chars with
    | '+' :: rest => (true, rest)
    | '-' :: rest => (false, rest)
    | _ => (true, chars)
  let rest := digits.dropWhile Char.isDigit
  match digits with
  | [] => Document.stopAs .endInValue .badNumber [] 0
  | first :: _ =>
    if !first.isDigit then Document.stop .badNumber digits 1
    else
      let document := match countExponent 0 digits with
        | .error left =>
          if decimal.mantissa ≠ 0 && up then .faulty (Stop.of .bigNumber left 0)
          else .number (.floating below Binary.zero)
        | .ok power =>
          let exponent := if up then decimal.exponent + power else decimal.exponent - power
          { decimal with exponent }.floating below rest
      (document, .ok rest)

def readFraction (decimal : Decimal) (below : Bool) (chars : List Char) : Document × Rest :=
  match chars with
  | '.' :: after =>
    let digits := after.takeWhile Char.isDigit
    match after.drop digits.length with
    | [] =>
      if digits.isEmpty then Document.stopAs .endInValue .badNumber [] 0
      else ((decimal.addFraction digits).floating below [], .ok [])
    | c :: rest =>
      if digits.isEmpty then Document.stop .badNumber (c :: rest) 1
      else if c = 'e' || c = 'E' then readExponent (decimal.addFraction digits) below rest
      else ((decimal.addFraction digits).floating below (c :: rest), .ok (c :: rest))
  | c :: after =>
    if c = 'e' || c = 'E' then readExponent decimal below after
    else (decimal.whole below chars, .ok chars)
  | [] => (decimal.whole below [], .ok [])

/-- Reads a number after its sign. A whole part starts with zero only if it is zero. -/
def readNumber (below : Bool) (chars : List Char) : Document × Rest :=
  match chars with
  | [] => Document.stopAs .endInValue .badNumber [] 0
  | '0' :: c :: rest =>
    if c.isDigit then Document.stop .badNumber (c :: rest) 1 else readFraction {} below (c :: rest)
  | _ =>
    let digits := chars.takeWhile Char.isDigit
    if digits.isEmpty then Document.stop .badNumber chars 1
    else readFraction (digits.foldl Decimal.addWhole {}) below (chars.drop digits.length)

abbrev StringReading := Except Break (Except Stop (List Char) × List Char)

namespace StringReading

def stop (fault : Fault) (rest : List Char) (seen : Nat) : StringReading :=
  .error (Break.of (Stop.of fault rest seen))

def push (c : Char) : StringReading → StringReading
  | .ok (.ok chars, rest) => .ok (.ok (c :: chars), rest)
  | reading => reading

/-- A string with a fault that shows only when it is read. -/
def spoil (stop : Stop) : StringReading → StringReading
  | .ok (_, rest) => .ok (.error stop, rest)
  | .error fault => .error { fault with read := stop }

end StringReading

def readUnit (chars : List Char) : Except Stop (Nat × List Char) :=
  let value? (c : Char) : Option Nat :=
    if c.isDigit then some (c.toNat - 48)
    else if 'a' ≤ c && c ≤ 'f' then some (c.toNat - 87)
    else if 'A' ≤ c && c ≤ 'F' then some (c.toNat - 55)
    else none
  if Text.bytesOf (chars.take 4) < 4 then .error (Stop.of .endInString [] 0)
  else match (chars.take 4).map value? with
    | [some a, some b, some c, some d] => .ok (((a * 16 + b) * 16 + c) * 16 + d, chars.drop 4)
    | _ => .error (Stop.of .badEscape chars 4)

def escapedChar? (c : Char) : Option Char :=
  match c with
  | '"' => some '"'
  | '\\' => some '\\'
  | '/' => some '/'
  | 'b' => some (Char.ofNat 8)
  | 'f' => some (Char.ofNat 12)
  | 'n' => some '\n'
  | 'r' => some '\r'
  | 't' => some '\t'
  | _ => none

/-- Reads the second half of a character written as two code units. -/
def readSecondUnit (first : Nat) : List Char → Except Stop (Char × List Char)
  | [] | ['\\'] => .error (Stop.of .endInString [] 0)
  | '\\' :: 'u' :: rest => do
    let (second, after) ← readUnit rest
    if 0xDC00 ≤ second && second ≤ 0xDFFF then
      return (Char.ofNat (0x10000 + (first - 0xD800) * 0x400 + (second - 0xDC00)), after)
    else throw (Stop.of .halfCharacter after 0)
  | '\\' :: rest => .error (Stop.of .halfEscape rest 1)
  | rest => .error (Stop.of .halfEscape rest 1)

/-- Reads a string after its opening quote. The number bounds the steps; each one takes at least one
character. -/
def readString : Nat → List Char → StringReading
  | _, [] => StringReading.stop .endInString [] 0
  | 0, rest => StringReading.stop .endInString rest 0
  | _ + 1, '"' :: rest => .ok (.ok [], rest)
  | _ + 1, ['\\'] => StringReading.stop .endInString [] 0
  | steps + 1, '\\' :: 'u' :: rest =>
    match readUnit rest with
    | .error stop => .error (Break.of stop)
    | .ok (unit, after) =>
      if 0xDC00 ≤ unit && unit ≤ 0xDFFF then
        StringReading.spoil (Stop.of .halfCharacter after 0) (readString steps after)
      else if 0xD800 ≤ unit && unit ≤ 0xDBFF then
        match readSecondUnit unit after with
        | .ok (c, after) => StringReading.push c (readString steps after)
        | .error stop => StringReading.spoil stop (readString steps after)
      else StringReading.push (Char.ofNat unit) (readString steps after)
  | steps + 1, '\\' :: c :: rest =>
    match escapedChar? c with
    | some c => StringReading.push c (readString steps rest)
    | none => StringReading.stop .badEscape (c :: rest) 1
  | steps + 1, c :: rest =>
    if c.toNat < 32 then StringReading.stop .controlCharacter rest 0
    else StringReading.push c (readString steps rest)

mutual

/-- Reads a value. The numbers of these functions bound the steps; each one takes at least one
character. -/
def readValue : Nat → List Char → Document × Rest
  | 0, chars => Document.stop .endInValue chars 0
  | steps + 1, chars =>
    match skipBlanks chars with
    | [] => Document.stop .endInValue [] 0
    | 'n' :: rest => readWord .null "ull".toList rest
    | 't' :: rest => readWord (.bool true) "rue".toList rest
    | 'f' :: rest => readWord (.bool false) "alse".toList rest
    | '-' :: rest => readNumber true rest
    | '"' :: rest =>
      match readString steps rest with
      | .ok (.ok chars, after) => (.string (String.ofList chars), .ok after)
      | .ok (.error stop, after) => (.faulty stop, .ok after)
      | .error fault => (.broken fault, .error fault)
    | '[' :: inside =>
      match skipBlanks inside with
      | [] =>
        let fault := Break.of (Stop.of .endInList [] 0)
        (.array inside [] (some fault), .error fault)
      | ']' :: after => (.array inside [] none, .ok after)
      | rest =>
        let (items, fault, after) := readItems steps rest
        (.array inside items fault, after)
    | c :: inside =>
      if c = Char.ofNat 123 then
        match skipBlanks inside with
        | [] =>
          let fault := Break.of (Stop.of .endInObject [] 0)
          (.object inside [] (some fault), .error fault)
        | d :: after =>
          if d = Char.ofNat 125 then (.object inside [] none, .ok after)
          else
            let (members, fault, after) := readMembers steps (d :: after)
            (.object inside members fault, after)
      else if c.isDigit then readNumber false (c :: inside)
      else Document.stop .noValue (c :: inside) 1

def readItems : Nat → List Char → List (Item Document) × Option Break × Rest
  | 0, chars =>
    let fault := Break.of (Stop.of .endInList chars 0)
    ([], some fault, .error fault)
  | steps + 1, chars =>
    let (value, after) := readValue steps chars
    match after with
    | .error fault => ([{ value }], none, .error fault)
    | .ok after =>
      let item : Item Document := { value, after }
      let stopAs (read skip : Fault) (rest : List Char) (seen : Nat) :
          List (Item Document) × Option Break × Rest :=
        let fault : Break := ⟨Stop.of read rest seen, Stop.of skip rest seen⟩
        ([item], some fault, .error fault)
      match skipBlanks after with
      | [] => stopAs .endInList .endInList [] 0
      | ']' :: rest => ([item], none, .ok rest)
      | ',' :: rest =>
        match skipBlanks rest with
        | [] => stopAs .endInValue .endInValue [] 0
        | ']' :: rest => stopAs .commaAtEnd .noValue (']' :: rest) 1
        | rest =>
          let (items, fault, after) := readItems steps rest
          (item :: items, fault, after)
      | rest => stopAs .noCommaInList .noCommaInList rest 1

def readMembers : Nat → List Char → List (Member Document) × Option Break × Rest
  | 0, chars =>
    let fault := Break.of (Stop.of .endInObject chars 0)
    ([], some fault, .error fault)
  | steps + 1, chars =>
    let stopAs (members : List (Member Document)) (read skip : Fault) (rest : List Char)
        (seen : Nat) : List (Member Document) × Option Break × Rest :=
      let fault : Break := ⟨Stop.of read rest seen, Stop.of skip rest seen⟩
      (members, some fault, .error fault)
    match chars with
    | '"' :: rest =>
      match readString steps rest with
      | .error fault => ([], some fault, .error fault)
      | .ok (name, afterName) =>
        let name := name.map String.ofList
        match skipBlanks afterName with
        | ':' :: rest =>
          let (value, after) := readValue steps rest
          match after with
          | .error fault => ([{ name, afterName, value }], none, .error fault)
          | .ok after =>
            let member : Member Document := { name, afterName, value, after }
            match skipBlanks after with
            | [] => stopAs [member] .endInObject .endInObject [] 0
            | ',' :: rest =>
              match skipBlanks rest with
              | [] => stopAs [member] .endInValue .endInObject [] 0
              | c :: rest =>
                if c = Char.ofNat 125 then
                  stopAs [member] .commaAtEnd .nameWithoutQuotes (c :: rest) 1
                else
                  let (members, fault, after) := readMembers steps (c :: rest)
                  (member :: members, fault, after)
            | c :: rest =>
              if c = Char.ofNat 125 then ([member], none, .ok rest)
              else stopAs [member] .noCommaInObject .noCommaInObject (c :: rest) 1
        | rest =>
          let stop := if rest.isEmpty then Stop.of .endInObject [] 0 else Stop.of .noColon rest 1
          let fault := Break.of stop
          ([{ name, afterName, value := .broken fault }], none, .error fault)
    | _ => stopAs [] .nameWithoutQuotes .nameWithoutQuotes chars 1

end

def Source.read (text : String) : Source :=
  let chars := text.toList
  let (document, after) := readValue (chars.length + 1) chars
  { text
    document
    after := match after with
      | .ok rest => rest
      | .error _ => [] }

def parse (text : String) : Except Fault Json := do
  let source := Source.read text
  let value ← (source.document.value mostNested).mapError (·.fault)
  match source.trailing? with
  | some stop => throw stop.fault
  | none => return value

end Highlight.Json
