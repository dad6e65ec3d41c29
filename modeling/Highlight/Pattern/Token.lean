import Highlight.Pattern.Bracket
import Highlight.Pattern.Node

set_option autoImplicit false

/-! The tokens of a pattern source. How a source falls into tokens depends on the options in force,
on how many groups have been opened so far and on their names. -/

namespace Highlight.Pattern

structure Options where
  ignoreCase : Bool := false
  /-- A dot takes a line feed too. -/
  dotAll : Bool := false
  /-- Blanks and comments do not count. -/
  extended : Bool := false
deriving DecidableEq, Repr, Inhabited

structure GroupNames where
  count : Nat := 0
  names : List (String × Nat) := []
deriving DecidableEq, Repr, Inhabited

namespace GroupNames

def numbers (groups : GroupNames) (name : String) : List Nat :=
  (groups.names.filter fun entry => entry.1 == name).map (·.2)

def add (groups : GroupNames) (name : Option String) : GroupNames :=
  let number := groups.count + 1
  { count := number
    names := match name with
      | some name => (name, number) :: groups.names
      | none => groups.names }

end GroupNames

inductive Opening where
  | plain
  /-- A group with options of its own. -/
  | enclosed (options : Options)
  | capture (name : Option String)
  | atomic
  | look (behind negated : Bool)
  /-- Options that hold up to the end of the enclosing group. -/
  | restOfGroup (options : Options)
deriving DecidableEq, Repr, Inhabited

structure Repetition where
  least : Nat
  most : Option Nat
  greedy : Bool := true
  possessive : Bool := false
deriving DecidableEq, Repr, Inhabited

inductive Token where
  /-- A blank or a comment. -/
  | skipped
  | char (c : Char)
  /-- A byte of a character that is written byte by byte. -/
  | byte (value : Nat)
  | node (node : Node)
  | repetition (repetition : Repetition)
  | opening (opening : Opening)
  | closing
  | bar
deriving DecidableEq, Repr, Inhabited

namespace GroupNames

/-- The part of a faulty name that is shown: up to its end mark or a closing parenthesis, with that
character if the source ends there. -/
def faulty (mark : Char) (chars : List Char) : String :=
  match chars with
  | [] => ""
  | first :: rest =>
    let shown := rest.takeWhile fun c => c ≠ mark && c ≠ ')'
    let shown := if shown.length + 1 = rest.length then rest else shown
    String.ofList (first :: shown)

/-- The part of an unfinished name that is shown: all but its last character. -/
def unfinished (chars : List Char) : String :=
  match chars with
  | [c] => String.ofList [c]
  | _ => String.ofList chars.dropLast

/-- Reads the name of a new group up to its end mark. It starts with a character of a word that is no
digit. -/
def readName (mark : Char) (chars : List Char) : Except PatternError (String × List Char) :=
  match chars with
  | [] => .error .emptyName
  | first :: rest =>
    if first = mark then .error .emptyName
    else if first.isDigit || first = '-' || first = '+' then .error (.badName (faulty mark chars))
    else if !Unicode.isWordInText first then .error (.badNameChar (faulty mark chars))
    else
      let name := first :: rest.takeWhile fun c => c ≠ mark && c ≠ ')'
      match chars.drop name.length with
      | [] => .error (.badName (unfinished chars))
      | c :: after =>
        if c = mark then .ok (String.ofList name, after) else .error (.badName (String.ofList name))

end GroupNames

/-- What a reference names: a group by its number, counted from the start or, with a sign, from where
the reference stands, or groups by their name. -/
inductive Referent where
  | absolute (number : Nat)
  | relative (distance : Int)
  | name (name : String)
deriving DecidableEq, Repr, Inhabited

namespace Referent

def largestNumber : Nat := 2147483647

/-- What is wrong with the characters of a name, if anything: a number has only digits and a name has
only characters of words. -/
def fault? (numeric : Bool) (first : Char) (body : List Char) : Option (String → PatternError) :=
  if numeric then
    match body.dropWhile Char.isDigit with
    | [] => none
    | _ :: others => some (if others.all Unicode.isWordInText then .badName else .badNameChar)
  else if (first :: body).all Unicode.isWordInText then none
  else some .badNameChar

def ofName (name : List Char) (rest : List Char) : Except PatternError Referent :=
  match name with
  | [] => .error .emptyName
  | first :: body =>
    let signed := first = '-' || first = '+'
    if signed || first.isDigit then
      let number := ofDigits 10 ((if signed then body else name).filterMap digitValue?)
      if largestNumber < number then .error .bigNumber
      else if signed && number = 0 then .error (.badName (String.ofList rest))
      else if first = '-' then .ok (.relative (-(number : Int)))
      else if first = '+' then .ok (.relative number)
      else .ok (.absolute number)
    else .ok (.name (String.ofList name))

/-- Reads what a reference names up to its end mark, and the level of nesting after it, which is
written as a number with a sign. -/
def read (mark : Char) (chars : List Char) :
    Except PatternError (Referent × Option Int × List Char) :=
  match chars with
  | [] => .error .emptyName
  | first :: rest =>
    if first = mark then .error .emptyName
    else
      let whole := PatternError.badName (String.ofList chars)
      let signed := first = '-' || first = '+'
      let body := rest.takeWhile fun c => c ≠ mark && c ≠ ')' && c ≠ '+' && c ≠ '-'
      let name := first :: body
      let beyond := rest.drop body.length
      let fault := (fault? (signed || first.isDigit) first body).orElse fun _ =>
        if signed && body.isEmpty && !beyond.isEmpty then some .badName else none
      match fault, beyond with
      | some fault, [] => .error (fault (GroupNames.unfinished chars))
      | some fault, _ => .error (fault (String.ofList name))
      | none, [] =>
        if signed && body.isEmpty then .error (.badNameChar (String.ofList chars)) else .error whole
      | none, c :: after =>
        if c = mark then do return (← ofName name chars, none, after)
        else if c = ')' then .error whole
        else match takeNumber? after with
          | (some level, end_ :: after') =>
            if largestNumber < level then .error .bigNumber
            else if end_ = mark then do
              return (← ofName name chars, some (if c = '-' then -(level : Int) else level), after')
            else .error whole
          | (some _, []) => .error whole
          | (none, _) =>
            if after.isEmpty then .error (.badNameChar (String.ofList name)) else .error whole

end Referent

/-- Reads a reference to a group after its opening mark. A reference to another level of nesting
matches nothing, since groups do not nest in themselves. -/
def namedReference (mark : Char) (ignoreCase : Bool) (groups : GroupNames) (chars : List Char) :
    Except PatternError (Token × List Char) := do
  let (referent, level, after) ← Referent.read mark chars
  let node (numbers : List Nat) : Token :=
    .node (if level.all (· = 0) then .reference numbers ignoreCase else .set .empty)
  let numbered (number : Int) : Except PatternError (Token × List Char) :=
    if number ≤ 0 then .error .badReference else .ok (node [number.toNat], after)
  match referent with
  | .absolute number => numbered number
  | .relative distance =>
    numbered (if 0 < distance then groups.count + distance else groups.count + 1 + distance)
  | .name name =>
    match groups.numbers name with
    | [] => .error (.unknownName name)
    | numbers => return (node numbers, after)

def lastReference : Nat := 1000

def mostRepetitions : Nat := 100000

def octalByte (most : Nat) (rest : List Char) : Except PatternError (Token × List Char) :=
  let (digits, after) := takeDigits 8 most rest
  let byte := ofDigits 8 digits
  if 255 < byte then .error .bigNumber else .ok (.byte byte, after)

/-- Reads a number after a backslash. It refers to a group if it has one digit or that many groups
are open by then; if not, it is an octal number or, from eight on, an ordinary character. -/
def numberEscape (ignoreCase : Bool) (groups : GroupNames) (c : Char) (rest : List Char) :
    Except PatternError (Token × List Char) :=
  match takeNumber? (c :: rest) with
  | (some number, after) =>
    if number ≤ lastReference && (number ≤ groups.count || number ≤ 9) then
      .ok (.node (.reference [number] ignoreCase), after)
    else if c = '8' || c = '9' then .ok (.char c, rest)
    else octalByte 3 (c :: rest)
  | (none, _) => .ok (.char c, rest)

/-- Any line break: carriage return and line feed together, or one of the characters for it. -/
def lineBreak : Node :=
  .atomic (.either (.chars ['\r', '\n'] false)
    (.set (.union (.range 10 13) (.union (.single (Char.ofNat 133)) (.range 8232 8233)))))

/-- Reads what stands after a backslash outside of classes. Calls of groups and the marks of what a
reader takes for one character are refused, as they are not known here. -/
def escapeToken (options : Options) (groups : GroupNames) :
    List Char → Except PatternError (Token × List Char)
  | [] => .error .endAtEscape
  | c :: rest =>
    match letterKind? .wordInText c with
    | some set => .ok (.node (.set set), rest)
    | none =>
      match c, rest with
      | 'b', _ => .ok (.node (.anchor .wordBoundary), rest)
      | 'B', _ => .ok (.node (.anchor .noWordBoundary), rest)
      | 'A', _ => .ok (.node (.anchor .textStart), rest)
      | 'z', _ => .ok (.node (.anchor .textEnd), rest)
      | 'Z', _ => .ok (.node (.anchor .lastLineEnd), rest)
      | 'G', _ => .ok (.node (.anchor .searchStart), rest)
      | 'K', _ => .ok (.node .keep, rest)
      | 'R', _ => .ok (.node lineBreak, rest)
      | 'N', _ => .ok (.node (.set .withinLine), rest)
      | 'O', _ => .ok (.node (.set .anything), rest)
      | 'k', '<' :: after => namedReference '>' options.ignoreCase groups after
      | 'k', '\'' :: after => namedReference '\'' options.ignoreCase groups after
      | 'p', brace :: after | 'P', brace :: after =>
        if brace = Char.ofNat 123 then do
          let (set, after) ← property (c = 'P') after
          return (.node (.set set), after)
        else .ok (.char c, rest)
      | '0', _ => octalByte 2 rest
      | 'g', '<' :: _ | 'g', '\'' :: _ | 'X', _ | 'y', _ | 'Y', _ => .error .unsupported
      | _, _ =>
        if c.isDigit then numberEscape options.ignoreCase groups c rest
        else do
          let (written, after) ← sharedEscape false c rest
          match written with
          | .point code => return (.char (← charOfCode code), after)
          | .byte value _ => return (.byte value, after)

def repetitionMark (least : Nat) (most : Option Nat) : List Char → Token × List Char
  | '?' :: rest => (.repetition { least, most, greedy := false }, rest)
  | '+' :: rest => (.repetition { least, most, possessive := true }, rest)
  | rest => (.repetition { least, most }, rest)

/-- Reads the bounds of a repetition up to the closing brace: their least and most number, and
whether it is one number for both. -/
def bounds? (chars : List Char) : Except PatternError (Option (Nat × Option Nat × Bool × List Char)) :=
  let closed (least : Nat) (most : Option Nat) (fixed : Bool) : List Char →
      Except PatternError (Option (Nat × Option Nat × Bool × List Char))
    | c :: rest => .ok (if c = Char.ofNat 125 then some (least, most, fixed, rest) else none)
    | [] => .ok none
  match takeNumber? chars with
  | (some least, rest) =>
    if mostRepetitions < least then .error .bigRepeat
    else match rest with
      | ',' :: rest =>
        match takeNumber? rest with
        | (some most, rest) =>
          if mostRepetitions < most then .error .bigRepeat else closed least (some most) false rest
        | (none, rest) => closed least none false rest
      | rest => closed least (some least) true rest
  | (none, ',' :: rest) =>
    match takeNumber? rest with
    | (some most, rest) =>
      if mostRepetitions < most then .error .bigRepeat else closed 0 (some most) false rest
    | (none, _) => .ok none
  | (none, _) => .ok none

/-- Reads what stands after an opening brace: bounds, or else the brace is an ordinary character.
Bounds in the wrong order are exchanged and possessive. -/
def braceToken (rest : List Char) : Except PatternError (Token × List Char) := do
  match ← bounds? rest with
  | none => return (.char (Char.ofNat 123), rest)
  | some (least, most, fixed, after) =>
    if fixed then return (.repetition { least, most }, after)
    else match most with
      | some limit =>
        if limit < least then
          return (.repetition { least := limit, most := some least, possessive := true }, after)
        else match after with
          | '?' :: after => return (.repetition { least, most, greedy := false }, after)
          | _ => return (.repetition { least, most }, after)
      | none => match after with
        | '?' :: after => return (.repetition { least, most, greedy := false }, after)
        | _ => return (.repetition { least, most }, after)

def optionToken : Options → Bool → List Char → Except PatternError (Token × List Char)
  | _, _, [] => .error .endInGroup
  | options, _, ')' :: rest => .ok (.opening (.restOfGroup options), rest)
  | options, _, ':' :: rest => .ok (.opening (.enclosed options), rest)
  | options, _, '-' :: rest => optionToken options true rest
  | options, off, 'i' :: rest => optionToken { options with ignoreCase := !off } off rest
  | options, off, 'm' :: rest => optionToken { options with dotAll := !off } off rest
  | options, off, 'x' :: rest => optionToken { options with extended := !off } off rest
  | _, _, _ => .error .undefinedOption

def skipComment : List Char → Except PatternError (List Char)
  | [] => .error .endInGroup
  | ['\\'] => .error .endInGroup
  | '\\' :: _ :: rest => skipComment rest
  | c :: rest => if c = ')' then .ok rest else skipComment rest

/-- Skips the closing braces of a note to the program, given how many braces opened it and how many
in a row have been met. -/
def skipNote (braces : Nat) : Nat → List Char → Except PatternError (List Char)
  | _, [] => .error .badCallout
  | met, c :: rest =>
    if c = Char.ofNat 125 then
      if met + 1 = braces then .ok rest else skipNote braces (met + 1) rest
    else skipNote braces 0 rest

/-- Reads what stands after an opening parenthesis, a question mark and a brace: a note to the
program, which is always met. -/
def noteToken (rest : List Char) : Except PatternError (Token × List Char) := do
  let more := rest.takeWhile (· = Char.ofNat 123)
  match ← skipNote (more.length + 1) 0 (rest.drop more.length) with
  | [] => .error .endInGroup
  | ')' :: after => return (.node (.anchor .always), after)
  | _ => .error .badCallout

/-- Reads the name that stands after an opening parenthesis and a star: a condition of that name. The
only one there is never holds. -/
def conditionToken (rest : List Char) : Except PatternError (Token × List Char) :=
  let name := rest.takeWhile fun c => c ≠ ')' && c ≠ '[' && c ≠ Char.ofNat 123
  let isPlain (c : Char) : Bool := c.isAlphanum || c = '_'
  match rest.drop name.length with
  | [] => .error .badCallout
  | c :: after =>
    if !name.all isPlain || name.head?.all Char.isDigit then .error .badCalloutName
    else if c ≠ ')' then .error .badCallout
    else if name = "FAIL".toList then .ok (.node (.anchor .never), after)
    else .error .unknownCalloutName

def extendedOpening (options : Options) : List Char → Except PatternError (Token × List Char)
  | [] => .error .endInGroup
  | ')' :: _ => .error .undefinedOption
  | '#' :: rest => do return (.skipped, ← skipComment rest)
  | ':' :: rest => .ok (.opening .plain, rest)
  | '=' :: rest => .ok (.opening (.look false false), rest)
  | '!' :: rest => .ok (.opening (.look false true), rest)
  | '>' :: rest => .ok (.opening .atomic, rest)
  | ['<'] => .error .unmatchedOpen
  | '<' :: '=' :: rest => .ok (.opening (.look true false), rest)
  | '<' :: '!' :: rest => .ok (.opening (.look true true), rest)
  | '<' :: rest => namedOpening '>' rest
  | '\'' :: rest => namedOpening '\'' rest
  | c :: rest => if c = Char.ofNat 123 then noteToken rest else optionToken options false (c :: rest)
where
  namedOpening (mark : Char) (rest : List Char) : Except PatternError (Token × List Char) := do
    let (name, after) ← GroupNames.readName mark rest
    return (.opening (.capture (some name)), after)

def isPassedOver (c : Char) : Bool :=
  [32, 9, 10, 13, 12].contains c.toNat

def token (options : Options) (groups : GroupNames) (c : Char) (rest : List Char) :
    Except PatternError (Token × List Char) :=
  match c with
  | '\\' => escapeToken options groups rest
  | '.' => .ok (.node (.set (if options.dotAll then .anything else .withinLine)), rest)
  | '^' => .ok (.node (.anchor .lineStart), rest)
  | '$' => .ok (.node (.anchor .lineEnd), rest)
  | '*' => .ok (repetitionMark 0 none rest)
  | '+' => .ok (repetitionMark 1 none rest)
  | '?' => .ok (repetitionMark 0 (some 1) rest)
  | '|' => .ok (.bar, rest)
  | ')' => .ok (.closing, rest)
  | '(' =>
    match rest with
    | [] => .error .unmatchedOpen
    | '?' :: after => extendedOpening options after
    | '*' :: after => conditionToken after
    | _ => .ok (.opening (.capture none), rest)
  | '[' => do
    let (members, after) ← bracketClass options.ignoreCase rest
    let set := Node.set members.set
    return (.node (if members.spellings.isEmpty then set else .either set (.spelled members.spellings)),
      after)
  | _ =>
    if c = Char.ofNat 123 then braceToken rest
    else if options.extended && c = '#' then
      .ok (.skipped, (rest.dropWhile (· ≠ '\n')).drop 1)
    else if options.extended && isPassedOver c then .ok (.skipped, rest)
    else .ok (.char c, rest)

end Highlight.Pattern
