import Highlight.Pattern.CharSet
import Highlight.Pattern.Error

set_option autoImplicit false

/-! What may stand after a backslash both inside and outside of a bracket class: characters written
by their number, control characters, and the short names of kinds of characters. -/

namespace Highlight.Pattern

def digitValue? (c : Char) : Option Nat :=
  if c.isDigit then some (c.toNat - 48)
  else if 'a' ≤ c && c ≤ 'f' then some (c.toNat - 87)
  else if 'A' ≤ c && c ≤ 'F' then some (c.toNat - 55)
  else none

def takeDigits (base : Nat) : Nat → List Char → List Nat × List Char
  | 0, rest => ([], rest)
  | _ + 1, [] => ([], [])
  | most + 1, c :: rest =>
    match (digitValue? c).filter (· < base) with
    | some digit =>
      let (digits, after) := takeDigits base most rest
      (digit :: digits, after)
    | none => ([], c :: rest)

def ofDigits (base : Nat) (digits : List Nat) : Nat :=
  digits.foldl (fun value digit => value * base + digit) 0

/-- Reads a decimal number of any length; without a digit it is missing. -/
def takeNumber? (chars : List Char) : Option Nat × List Char :=
  match takeDigits 10 chars.length chars with
  | ([], rest) => (none, rest)
  | (digits, rest) => (some (ofDigits 10 digits), rest)

def lastCodePoint : Nat := 1114111

def charOfCode (code : Nat) : Except PatternError Char :=
  if lastCodePoint < code then .error .bigCodePoint
  else if code.isValidChar then .ok (Char.ofNat code)
  else .error .badCodePoint

/-- How many bytes a character takes up, by its first byte. A byte that starts no character stands
for itself. -/
def byteCount (lead : Nat) : Nat :=
  if 194 ≤ lead && lead ≤ 223 then 2
  else if 224 ≤ lead && lead ≤ 239 then 3
  else if 240 ≤ lead && lead ≤ 244 then 4
  else 1

/-- The bits of a character in its bytes, the first of which also tells their number. -/
def codeOfBytes : List Nat → Nat
  | [] => 0
  | [lead] => lead
  | lead :: others =>
    others.foldl (fun bits byte => bits * 64 + byte % 64) (lead % Nat.pow 2 (6 - others.length))

def charOfBytes? (bytes : List Nat) : Option Char :=
  let code := codeOfBytes bytes
  if code.isValidChar then
    let c := Char.ofNat code
    if (String.singleton c).toUTF8.toList.map (·.toNat) = bytes then some c else none
  else none

/-- What an escape stands for: a code point, which need not be one of a character, or a byte, with
the base of the number that it was written as. -/
inductive Written where
  | point (code : Nat)
  | byte (value base : Nat)
deriving DecidableEq, Repr, Inhabited

/-- A byte written as two hexadecimal digits or as three octal ones, if one stands next. -/
def nextByte? (base : Nat) : List Char → Except PatternError (Option (Nat × List Char))
  | '\\' :: 'x' :: c :: rest =>
    if base = 16 && c ≠ Char.ofNat 123 then
      let (digits, after) := takeDigits 16 2 (c :: rest)
      .ok (some (ofDigits 16 digits, after))
    else .ok none
  | '\\' :: c :: rest =>
    if base = 8 && '0' ≤ c && c ≤ '7' then
      let (digits, after) := takeDigits 8 3 (c :: rest)
      let value := ofDigits 8 digits
      if 255 < value then .error .bigNumber else .ok (some (value, after))
    else .ok none
  | _ => .ok none

def followingBytes (base : Nat) : Nat → List Char → Except PatternError (List Nat × List Char)
  | 0, rest => .ok ([], rest)
  | count + 1, rest => do
    match ← nextByte? base rest with
    | none => .error .shortBytes
    | some (byte, after) =>
      let (bytes, after) ← followingBytes base count after
      return (byte :: bytes, after)

def isNumberDivider (c : Char) : Bool :=
  c = ' ' || c = '\n'

/-- Reads a number of up to `most` digits after an opening brace. Several numbers can stand in one
pair of braces; the source then goes on as if each of the others had braces of its own. In a bracket
class, two numbers can have a hyphen between them. Without a digit or where the source ends, the
escape has no such form. -/
def bracedNumber (mark : Char) (base most : Nat) (inClass : Bool) (rest : List Char) :
    Except PatternError (Option (Nat × List Char)) :=
  let (digits, after) := takeDigits base most rest
  let code := ofDigits base digits
  if digits.isEmpty then .ok none
  else match after with
    | [] => .ok none
    | c :: beyond =>
      let opening := ['\\', mark, Char.ofNat 123]
      if ((digitValue? c).filter (· < max base 10)).isSome then .error .longCodePoint
      else if c = Char.ofNat 125 then .ok (some (code, beyond))
      else
        let next := after.dropWhile isNumberDivider
        match next with
        | [] => .error .badCodePoint
        | d :: beyond =>
          if d = Char.ofNat 125 then .ok (some (code, beyond))
          else if inClass && d = '-' then
            .ok (some (code, '-' :: (opening ++ beyond.dropWhile isNumberDivider)))
          else if isNumberDivider c && ((digitValue? d).filter (· < base)).isSome then
            .ok (some (code, opening ++ next))
          else .error .badCodePoint

def controlLetter? (c : Char) : Option Char :=
  match c with
  | 'n' => some '\n'
  | 't' => some '\t'
  | 'r' => some '\r'
  | 'f' => some (Char.ofNat 12)
  | 'a' => some (Char.ofNat 7)
  | 'b' => some (Char.ofNat 8)
  | 'e' => some (Char.ofNat 27)
  | 'v' => some (Char.ofNat 11)
  | _ => none

/-- The code point of a control key: only five bits and the eighth are kept. -/
def controlCode (code : Nat) : Nat :=
  code % 32 + code / 128 % 2 * 128

/-- The code point of a meta key: the eighth bit is set and those above it are dropped. -/
def metaCode (code : Nat) : Nat :=
  code % 128 + 128

/-- Reads what stands after a backslash as one code point: a control character by its letter, a
control or meta key, or the character itself. -/
def keyCode : List Char → Except PatternError (Nat × List Char)
  | [] => .error .endAtEscape
  | ['c'] | ['C'] | ['C', '-'] => .error .endAtControl
  | ['M'] | ['M', '-'] => .error .endAtMeta
  | 'c' :: '?' :: rest | 'C' :: '-' :: '?' :: rest => .ok (127, rest)
  | 'c' :: '\\' :: rest | 'C' :: '-' :: '\\' :: rest => do
    let (code, after) ← keyCode rest
    return (controlCode code, after)
  | 'c' :: key :: rest | 'C' :: '-' :: key :: rest => .ok (controlCode key.toNat, rest)
  | 'C' :: _ => .error .badControl
  | 'M' :: '-' :: '\\' :: rest => do
    let (code, after) ← keyCode rest
    return (metaCode code, after)
  | 'M' :: '-' :: key :: rest => .ok (metaCode key.toNat, rest)
  | 'M' :: _ => .error .badMeta
  | c :: rest => .ok (((controlLetter? c).getD c).toNat, rest)

/-- Reads what stands after a backslash where the rules inside and outside of classes agree. -/
def sharedEscape (inClass : Bool) (c : Char) (rest : List Char) :
    Except PatternError (Written × List Char) :=
  let braced (most base : Nat) (beyond : List Char) : Except PatternError (Written × List Char) := do
    match ← bracedNumber c base most inClass beyond with
    | some (code, after) => return (.point code, after)
    | none => return (.point c.toNat, rest)
  let key : Except PatternError (Written × List Char) := do
    let (code, after) ← keyCode (c :: rest)
    return (.point code, after)
  match c, rest with
  | 'x', brace :: beyond =>
    if brace = Char.ofNat 123 then braced 8 16 beyond
    else
      let (digits, after) := takeDigits 16 2 rest
      .ok (.byte (ofDigits 16 digits) 16, after)
  | 'o', brace :: beyond => if brace = Char.ofNat 123 then braced 11 8 beyond else key
  | 'u', _ :: _ =>
    match takeDigits 16 4 rest with
    | ([a, b, c, d], after) => .ok (.point (ofDigits 16 [a, b, c, d]), after)
    | _ => .error .badCodePoint
  | _, _ => key

/-- The kinds of characters that have a letter, in lowercase for the kind and in uppercase for the
rest. -/
def letterKind? (wordKind : CharKind) (c : Char) : Option CharSet :=
  match c with
  | 'w' => some (.ofKind wordKind)
  | 'W' => some (.complement (.ofKind wordKind))
  | 'd' => some (.ofKind .digit)
  | 'D' => some (.complement (.ofKind .digit))
  | 's' => some (.ofKind .space)
  | 'S' => some (.complement (.ofKind .space))
  | 'h' => some (.ofKind .xdigit)
  | 'H' => some (.complement (.ofKind .xdigit))
  | _ => none

def propertyName : List Char → List Char → Except PatternError (String × List Char)
  | name, [] => .error (.unknownProperty (String.ofList (name.drop 1).reverse))
  | name, c :: rest =>
    if c = Char.ofNat 125 then .ok (String.ofList name.reverse, rest)
    else if c = '(' || c = ')' || c = Char.ofNat 123 || c = '|' then
      .error (.unknownProperty (String.ofList name.reverse))
    else propertyName (c :: name) rest

/-- Reads a property after its opening brace, with `negated` telling which letter stood before. -/
def property (negated : Bool) (rest : List Char) : Except PatternError (CharSet × List Char) :=
  let (flipped, rest) := match rest with
    | '^' :: after => (!negated, after)
    | _ => (negated, rest)
  do
    let (name, after) ← propertyName [] rest
    match CharSet.ofProperty? name with
    | some set => return (if flipped then .complement set else set, after)
    | none => .error (.unknownProperty name)

end Highlight.Pattern
