import Highlight.Tool.Highlighter

set_option autoImplicit false

/-! The program that makes a bundle of the grammars in a directory. -/

namespace Highlight.Tool

variable {m : Type → Type} [Monad m]

def defaultBundle : String := "bundle.zst"

structure Loading where
  catalog : Catalog := {}
  loaded : Nat := 0
  failed : Nat := 0
  warnings : String := ""
deriving Inhabited

def countGrammarFile (files : FileAccess m) (engine : Pattern.Engine) (state : Loading)
    (path : Path) : m Loading := do
  if isGrammarPath path && (← files.isFile path) then
    match state.catalog.addFile engine path (contentText (← files.read path)) with
    | .ok catalog => return { state with catalog, loaded := state.loaded + 1 }
    | .error error =>
      return { state with
        failed := state.failed + 1
        warnings := state.warnings ++ loadFailure path error }
  else return state

/-- A number of bytes in units of 1024 bytes, with one decimal; a half goes to the even neighbour. -/
def kilobytes (bytes : Nat) : String :=
  let tenths := bytes * 10 / 1024
  let rest := bytes * 10 % 1024
  let rounded :=
    if 512 < rest ∨ (rest = 512 ∧ tenths % 2 = 1) then tenths + 1 else tenths
  toString (rounded / 10) ++ "." ++ toString (rounded % 10)

def bundleReport (path : Path) (state : Loading) (catalog : Catalog) (bytes : Nat) : String :=
  let names := catalog.names
  "\nBundle written to " ++ path.display ++ "\n- " ++ toString state.loaded ++ " grammars loaded, "
    ++ toString state.failed ++ " failed\n- " ++ toString names.length ++ " grammars in total: "
    ++ ", ".intercalate names ++ "\n- " ++ kilobytes bytes ++ " KB\n"

def writeBundle (files : FileAccess m) (engine : Pattern.Engine) (path : Path) (heading : String)
    (state : Loading) : m Outcome := do
  let failed (error : Error) : Outcome :=
    { failure error with
      output := heading, errors := state.warnings ++ (failure error).errors }
  match state.catalog.addPlain engine plainAliases with
  | .error error => return failed error
  | .ok catalog =>
    match catalog.save with
    | .error error => return failed error
    | .ok bytes =>
      if ← files.write path bytes then
        return {
          output := heading ++ bundleReport path state catalog bytes.length
          errors := state.warnings }
      else return failed .badFile

/-- Runs the program with the words of its command line: the directory, and where the bundle is
written to. -/
def bundle (files : FileAccess m) (engine : Pattern.Engine) (words : List String) : m Outcome := do
  let directory := Path.ofString (words[0]?.getD defaultGrammars)
  let path := Path.ofString (words[1]?.getD defaultBundle)
  let heading := "Building bundle from " ++ directory.display ++ "...\n"
  match ← files.list directory with
  | none => return { failure .badFile with output := heading }
  | some names =>
    let state ← (names.map directory.join).foldlM (countGrammarFile files engine) {}
    writeBundle files engine path heading state

end Highlight.Tool
