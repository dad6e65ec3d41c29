import Highlight.Tree.Html

set_option autoImplicit false

/-! What the highlighter is asked to do, read from the words of its command line. -/

namespace Highlight.Tool

structure Request where
  file : Option String := none
  /-- The directory of the grammars, if one is given. -/
  grammars : Option String := none
  /-- The bundle to load in place of the directory. -/
  bundle : Option String := none
  language : Option String := none
  candidates : List String := []
  /-- Whether the languages are shown in place of the highlighted text. -/
  detect : Bool := false
  /-- Whether text that does not belong is a failure. -/
  strict : Bool := false
  classPrefix : Option String := none
deriving DecidableEq, Repr, Inhabited

inductive Refusal where
  | help
  | version
  | misuse
deriving DecidableEq, Repr, Inhabited

inductive Setting where
  | grammars
  | bundle
  | language
  | candidates
  | classPrefix
deriving DecidableEq, Repr, Inhabited

inductive Switch where
  | detect
  | strict
  | help
  | version
deriving DecidableEq, Repr, Inhabited

inductive Word where
  | plain
  /-- All further words are plain. -/
  | separator
  | switch (switch : Switch)
  /-- A setting whose value is the next word. -/
  | setting (setting : Setting)
  /-- A setting whose value is part of the word. -/
  | settingTo (setting : Setting) (value : String)
  | unknown
deriving DecidableEq, Repr, Inhabited

namespace Word

def ofLong (name : String) (value : Option String) : Word :=
  let setTo (setting : Setting) : Word := value.elim (.setting setting) (.settingTo setting)
  let turnOn (option : Switch) : Word := if value.isSome then unknown else switch option
  match name with
  | "grammars" => setTo .grammars
  | "bundle" => setTo .bundle
  | "language" => setTo .language
  | "candidates" => setTo .candidates
  | "class-prefix" => setTo .classPrefix
  | "detect" => turnOn .detect
  | "strict" => turnOn .strict
  | "help" => turnOn .help
  | "version" => turnOn .version
  | _ => unknown

def attached : List Char → Option String
  | [] => none
  | '=' :: value => some (String.ofList value)
  | value => some (String.ofList value)

def ofShort (letter : Char) (rest : List Char) : Word :=
  let setTo (setting : Setting) : Word := (attached rest).elim (.setting setting) (.settingTo setting)
  match letter with
  | 'g' => setTo .grammars
  | 'b' => setTo .bundle
  | 'l' => setTo .language
  | 'c' => setTo .candidates
  | 'h' => switch .help
  | 'V' => switch .version
  | _ => unknown

def ofChars : List Char → Word
  | ['-', '-'] => separator
  | '-' :: '-' :: rest =>
    let value := match rest.dropWhile (· ≠ '=') with
      | _ :: value => some (String.ofList value)
      | [] => none
    ofLong (String.ofList (rest.takeWhile (· ≠ '='))) value
  | '-' :: letter :: rest => ofShort letter rest
  | _ => plain

def read (word : String) : Word :=
  ofChars word.toList

end Word

namespace Request

/-- Fills in what has not been filled in yet. -/
def once {α : Type} (old : Option α) (value : α) : Except Refusal (Option α) :=
  if old.isSome then .error .misuse else .ok (some value)

def path (value : String) : Except Refusal String :=
  if value.isEmpty then .error .misuse else .ok value

def takeFile (request : Request) (value : String) : Except Refusal Request := do
  return { request with file := ← once request.file (← path value) }

def takeSetting (request : Request) (value : String) : Setting → Except Refusal Request
  | .grammars => do return { request with grammars := ← once request.grammars (← path value) }
  | .bundle => do return { request with bundle := ← once request.bundle (← path value) }
  | .language => do return { request with language := ← once request.language value }
  | .candidates =>
    .ok { request with candidates := request.candidates ++ value.splitOn "," }
  | .classPrefix => do return { request with classPrefix := ← once request.classPrefix value }

def takeSwitch (request : Request) : Switch → Except Refusal Request
  | .detect => if request.detect then .error .misuse else .ok { request with detect := true }
  | .strict => if request.strict then .error .misuse else .ok { request with strict := true }
  | .help => .error .help
  | .version => .error .version

/-- Takes the words of a command line in turn; the flag says that all of them are plain. -/
def takeWords : Bool → Request → List String → Except Refusal Request
  | _, request, [] => .ok request
  | true, request, word :: rest => do takeWords true (← request.takeFile word) rest
  | false, request, word :: rest =>
    match Word.read word with
    | .plain => do takeWords false (← request.takeFile word) rest
    | .separator => takeWords true request rest
    | .switch option => do takeWords false (← request.takeSwitch option) rest
    | .settingTo setting value => do takeWords false (← request.takeSetting value setting) rest
    | .unknown => .error .misuse
    | .setting setting =>
      match rest with
      | [] => .error .misuse
      | value :: rest =>
        if Word.read value = .plain then do
          takeWords false (← request.takeSetting value setting) rest
        else .error .misuse

/-- The request of a command line. There has to be a file, and grammars come from one place only. -/
def read (words : List String) : Except Refusal Request := do
  let request ← takeWords false {} words
  if request.file.isNone || (request.grammars.isSome && request.bundle.isSome) then
    throw .misuse
  else return request

end Request

end Highlight.Tool
