import Highlight.Tool.Bundler

set_option autoImplicit false

/-! The command line of both programs. -/

namespace Highlight.CommandLine

def attempt {α : Type} (action : IO α) : IO (Option α) := do
  match ← action.toBaseIO with
  | .ok value => return some value
  | .error _ => return none

def directoryNames (path : String) : IO (List String) := do
  let entries ← (← IO.FS.realPath path).readDir
  return entries.toList.map fun entry => entry.fileName

def isFile (path : String) : IO Bool := do
  let found ← IO.FS.realPath path
  return (← found.pathExists) && !(← found.isDir)

def systemFiles : FileAccess IO where
  read path := do
    match ← attempt (IO.FS.readBinFile path.display) with
    | some bytes => return .ok bytes.toList
    | none => return .error .badFile
  list path := attempt (directoryNames path.display)
  isFile path := return (← attempt (isFile path.display)).getD false
  write path bytes :=
    return (← attempt (IO.FS.writeBinFile path.display ⟨bytes.toArray⟩)).isSome

/-- Makes a bundle if the first word says so, and highlights a file otherwise. -/
def dispatch : List String → IO Tool.Outcome
  | "build-bundle" :: words => Tool.bundle systemFiles Pattern.engine words
  | words => Tool.highlight systemFiles Pattern.engine words

end Highlight.CommandLine

def main (words : List String) : IO UInt32 := do
  let outcome ← Highlight.CommandLine.dispatch words
  (← IO.getStdout).putStr outcome.output
  (← IO.getStderr).putStr outcome.errors
  return outcome.code.toUInt32
