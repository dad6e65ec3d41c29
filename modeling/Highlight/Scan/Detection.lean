import Highlight.Scan.State

set_option autoImplicit false

/-! Finding out the language of a text: it is scanned with each grammar in question, and the most
relevant result is taken. The bare text takes part as a result of no relevance, so there is always
one. -/

namespace Highlight.Detection

/-- The name of the grammar that gives nothing a scope. -/
def plainName : String := "plaintext"

/-- Whether one result goes before another. Of two that are equally relevant, the one goes first whose
grammar the other one says that it is a superset of. -/
def ranksBefore (catalog : Catalog) (left right : ScanResult) : Bool :=
  if left.relevance = right.relevance then
    (catalog.find? right.language).any fun grammar =>
      grammar.definition.supersetOf == some left.language
  else right.relevance < left.relevance

/-- Puts a result in among others, the last one first: it moves forward past each that it goes
before. -/
def insertRanked (catalog : Catalog) (result : ScanResult) : List ScanResult → List ScanResult
  | [] => [result]
  | last :: earlier =>
    if ranksBefore catalog result last then last :: insertRanked catalog result earlier
    else result :: last :: earlier

def rank (catalog : Catalog) (results : List ScanResult) : List ScanResult :=
  (results.foldl (fun ranked result => insertRanked catalog result ranked) []).reverse

def participants (catalog : Catalog) (candidates : Option (List String)) : List Grammar :=
  ((candidates.getD catalog.names).filterMap catalog.find?).filter fun grammar =>
    !grammar.definition.disableAutodetect

/-- How texts are scanned for detection: text that does not belong in a mode speaks against the
grammar. -/
def settings (limits : ScanLimits) : ScanSettings :=
  { lenient := true, ignoreIllegal := false, limits }

def resultOf (scan : ScanWith) (limits : ScanLimits) (text : String) (grammar : Grammar) :
    Except Halt ScanResult :=
  match scan grammar text (settings limits) none with
  | .ok scanned => .ok scanned.result
  | .error (.failed _) => .ok { ScanResult.plain grammar.name text with failed := true }
  | .error halt => .error halt

/-- All results, that of the bare text first. -/
def results (catalog : Catalog) (scan : ScanWith) (text : String)
    (candidates : Option (List String)) (limits : ScanLimits) : Except Halt (List ScanResult) := do
  let scanned ← (participants catalog candidates).mapM (resultOf scan limits text)
  return ScanResult.plain plainName text :: scanned

def best (text : String) : List ScanResult → ScanResult
  | [] => ScanResult.plain plainName text
  | first :: others => { first with secondBest := others.head? }

def detect (catalog : Catalog) (scan : ScanWith) (text : String)
    (candidates : Option (List String)) (limits : ScanLimits) : Except Halt ScanResult := do
  let results ← results catalog scan text candidates limits
  return best text (rank catalog results)

end Highlight.Detection
