import Highlight.Catalog.Bundle
import Highlight.File.Access
import Highlight.Registry
import Highlight.Tool.Outcome
import Highlight.Tool.Request

set_option autoImplicit false

/-! The program that highlights a file as HTML, or shows which languages it may be in. -/

namespace Highlight.Tool

variable {m : Type → Type} [Monad m]

def defaultGrammars : String := "src/fixtures/grammars"

def plainAliases : List String := ["text", "txt"]

def contentText (content : Except Error (List UInt8)) : Except Error String := do
  match textOfBytes? (← content) with
  | some text => return text
  | none => throw .badJsonFile

def loadFailure (path : Path) (error : Error) : String :=
  s!"✗ Failed to load grammar {path.display}: {error.message}\n"

def isGrammarPath (path : Path) : Bool :=
  path.extension? == some "json"

/-- Adds the grammar in a file, or says why that is left out. -/
def addGrammarFile (files : FileAccess m) (engine : Pattern.Engine) (state : Catalog × String)
    (path : Path) : m (Catalog × String) := do
  match state.1.addFile engine path (contentText (← files.read path)) with
  | .ok catalog => return (catalog, state.2)
  | .error error => return (state.1, state.2 ++ loadFailure path error)

/-- The grammars in a directory, in the order of their names, and what there is to say about those
that were left out. -/
def loadGrammars (files : FileAccess m) (engine : Pattern.Engine) (directory : Path) :
    m (Except Error (Catalog × String)) := do
  match ({} : Catalog).addPlain engine plainAliases, ← files.list directory with
  | .error error, _ => return .error error
  | .ok _, none => return .error .badFile
  | .ok catalog, some names =>
    let paths := ((names.mergeSort (· ≤ ·)).map directory.join).filter isGrammarPath
    return .ok (← paths.foldlM (addGrammarFile files engine) (catalog, ""))

def load (files : FileAccess m) (engine : Pattern.Engine) (request : Request) :
    m (Except Error (Catalog × String)) := do
  match request.bundle with
  | some bundle =>
    match ← files.read (Path.ofString bundle) with
    | .ok bytes => return (Catalog.load engine bytes).map fun catalog => (catalog, "")
    | .error error => return .error error
  | none => loadGrammars files engine (Path.ofString (request.grammars.getD defaultGrammars))

/-- The result that a request asks for. Nothing is plugged in, so it takes no effects. -/
def resultOf (request : Request) (catalog : Catalog) (text : String) : Except Error ScanResult :=
  let registry : Registry Id :=
    ({ catalog } : Registry Id).setCandidates request.candidates
  match request.language with
  | some language =>
    (registry.scan text { language, settings := { lenient := !request.strict } }).run
  | none => (registry.scanAuto text none).run

def diagnosticLine (diagnostic : Diagnostic) : String :=
  diagnostic.message ++ " at byte " ++ toString diagnostic.offset ++ " in mode "
    ++ diagnostic.mode.getD "?" ++ ": " ++ quoted diagnostic.context ++ "\n"

def flagText (result : ScanResult) : String :=
  let flags := (if result.illegal then ["illegal"] else [])
    ++ (if result.failed then ["error"] else [])
  if flags.isEmpty then "" else " [" ++ ", ".intercalate flags ++ "]"

def rankingLines (rank : Nat) : ScanResult → String
  | { language, relevance, illegal, failed, tree, secondBest, diagnostic } =>
    let line := toString rank ++ ". " ++ language ++ " (relevance " ++ toString relevance ++ ")"
      ++ flagText { language, relevance, illegal, failed, tree, diagnostic } ++ "\n"
    match secondBest with
    | none => line
    | some next => line ++ rankingLines (rank + 1) next

def page (classPrefix : String) (result : ScanResult) : String :=
  "<pre><code class=\"language-" ++ result.language ++ "\">" ++ Html.render classPrefix result.tree
    ++ "</code></pre>\n"

def report (request : Request) (warnings : String) (result : ScanResult) : Outcome where
  output :=
    if request.detect then rankingLines 1 result
    else page (request.classPrefix.getD Html.defaultClassPrefix) result
  errors := warnings ++ (result.diagnostic.map diagnosticLine).getD ""

def failure (error : Error) : Outcome where
  code := Outcome.failureCode
  errors := s!"Error: {error.message}\n"

def fulfil (files : FileAccess m) (engine : Pattern.Engine) (request : Request) : m Outcome := do
  match ← load files engine request with
  | .error error => return failure error
  | .ok (catalog, warnings) =>
    let content ← files.read (Path.ofString (request.file.getD ""))
    match contentText content with
    | .error error => return failure error
    | .ok text =>
      match resultOf request catalog text with
      | .error error => return failure error
      | .ok result => return report request warnings result

def usage : String :=
  "Usage: ambra-cli [OPTIONS] <FILE>\n"

def helpText : String :=
  "Highlight a file as HTML\n\n" ++ usage ++ "
Arguments:
  <FILE>  The file to highlight

Options:
  -g, --grammars <GRAMMARS>          A directory of JSON grammar definitions, named after the file [default: src/fixtures/grammars]
  -b, --bundle <BUNDLE>              A bundle made by `build-bundle`, loaded instead of the grammar directory
  -l, --language <LANGUAGE>          Grammar name or alias. The most relevant grammar is used if not set
  -c, --candidates <CANDIDATES>      Restrict auto-detection to those grammars
      --detect                       Print the detected grammars instead of the HTML
      --strict                       Fail on illegal lexemes instead of giving back plain text
      --class-prefix <CLASS_PREFIX>  [default: hljs-]
  -h, --help                         Print help
  -V, --version                      Print version
"

def versionText : String := "ambra-cli 0.1.0\n"

def highlight (files : FileAccess m) (engine : Pattern.Engine) (words : List String) :
    m Outcome := do
  match Request.read words with
  | .ok request => fulfil files engine request
  | .error .help => return { output := helpText }
  | .error .version => return { output := versionText }
  | .error .misuse =>
    return { code := Outcome.usageCode, errors := "error: invalid arguments\n\n" ++ usage }

end Highlight.Tool
