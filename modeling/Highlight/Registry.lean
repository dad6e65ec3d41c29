import Highlight.Catalog.Registration
import Highlight.Scan.Run
import Highlight.Text.Quoted

set_option autoImplicit false

/-! A catalog with plugins around its scans. The callbacks of the plugins run in any monad, in the order
in which the plugins were added. -/

namespace Highlight

structure ScanRequest where
  text : String
  /-- The grammar asked for, if the language is not to be detected. -/
  language : Option String
  /-- The result, if there is no need for a scan any more. -/
  result : Option ScanResult := none
deriving Inhabited

structure Plugin (m : Type → Type) where
  before : Option (ScanRequest → m ScanRequest) := none
  after : Option (ScanResult → m ScanResult) := none

namespace Plugin

variable {m : Type → Type}

def description (plugin : Plugin m) : String :=
  "Plugin \x7b before_scan: " ++ toString plugin.before.isSome ++ ", after_scan: "
    ++ toString plugin.after.isSome ++ " \x7d"

end Plugin

structure ScanOptions where
  /-- The name of the grammar, or another name for it. -/
  language : String
  settings : ScanSettings := {}
  /-- Whether a text is taken as it is if there is no such grammar. -/
  fallBackToPlain : Bool := false
deriving DecidableEq, Repr, Inhabited

namespace Catalog

def scan (catalog : Catalog) (text : String) (options : ScanOptions) : Except Error ScanResult :=
  match catalog.find? options.language with
  | some grammar =>
    Error.ofHalt ((catalog.scanWith grammar text options.settings none).map (·.result))
  | none =>
    if options.fallBackToPlain then .ok (ScanResult.plain Detection.plainName text)
    else .error (.unknownGrammar options.language)

end Catalog

structure Registry (m : Type → Type) where
  catalog : Catalog := {}
  /-- The plugins in the order in which they were added. -/
  plugins : List (Plugin m) := []
  /-- The grammars among which languages are detected, or all of them if there is none. -/
  candidates : List String := []

namespace Registry

variable {m : Type → Type} [Monad m]

def addPlugin (registry : Registry m) (plugin : Plugin m) : Registry m :=
  { registry with plugins := registry.plugins ++ [plugin] }

def setCandidates (registry : Registry m) (candidates : List String) : Registry m :=
  { registry with candidates := candidates.map Unicode.lowercase }

def runBefore (registry : Registry m) (request : ScanRequest) : m ScanRequest :=
  (registry.plugins.filterMap Plugin.before).foldlM (fun request before => before request) request

def runAfter (registry : Registry m) (result : ScanResult) : m ScanResult :=
  (registry.plugins.filterMap Plugin.after).foldlM (fun result after => after result) result

def surround (registry : Registry m) (request : ScanRequest)
    (scan : ScanRequest → Except Error ScanResult) : m (Except Error ScanResult) := do
  let request ← registry.runBefore request
  match request.result.elim (scan request) .ok with
  | .ok result => return .ok (← registry.runAfter result)
  | .error error => return .error error

def scan (registry : Registry m) (text : String) (options : ScanOptions) :
    m (Except Error ScanResult) :=
  registry.surround { text, language := some options.language } fun request =>
    registry.catalog.scan request.text
      { options with language := request.language.getD options.language }

/-- The grammars among which a language is detected: those asked for, or those set before. -/
def amongWhich (registry : Registry m) (candidates : Option (List String)) :
    Option (List String) :=
  candidates.or (if registry.candidates.isEmpty then none else some registry.candidates)

def scanAuto (registry : Registry m) (text : String) (candidates : Option (List String)) :
    m (Except Error ScanResult) :=
  registry.surround { text, language := none } fun request =>
    Error.ofHalt (registry.catalog.detect request.text (registry.amongWhich candidates) {})

def description (registry : Registry m) : String :=
  "Registry \x7b grammars: " ++ quotedList registry.catalog.names
    ++ ", aliases: " ++ toString registry.catalog.aliases.size
    ++ ", plugins: " ++ toString registry.plugins.length
    ++ ", default_candidates: " ++ quotedList registry.candidates ++ " \x7d"

end Registry

end Highlight
