import Highlight.Dictionary
import Highlight.Error
import Highlight.File.Path

set_option autoImplicit false

/-! How programs get at files, in any monad; among others in one that keeps the files in memory. -/

namespace Highlight

structure FileAccess (m : Type → Type) where
  /-- The bytes of a file. -/
  read : Path → m (Except Error (List UInt8))
  /-- The names in a directory, if it can be listed. -/
  list : Path → m (Option (List String))
  isFile : Path → m Bool
  /-- Puts bytes into a file, and says whether that was possible. -/
  write : Path → List UInt8 → m Bool

def textOfBytes? (bytes : List UInt8) : Option String :=
  String.fromUTF8? ⟨bytes.toArray⟩

/-- Files kept in memory, by their paths from the current directory on. A directory is there if a file
in it is. -/
structure FileStore where
  files : Dictionary (List UInt8) := {}
deriving Inhabited

namespace FileStore

/-- The parts of a path that lead anywhere, going up where it says so. -/
def resolve (path : Path) : List String :=
  ((Path.parts path.units).foldl (fun above part =>
    if part = [] ∨ part = Path.hereName then above
    else if part = Path.aboveName then above.tail
    else Path.display ⟨part⟩ :: above) []).reverse

def key (path : Path) : String :=
  "/".intercalate (resolve path)

/-- What has to stand before the names in a directory. -/
def directoryKey (path : Path) : List Char :=
  match resolve path with
  | [] => []
  | parts => ("/".intercalate parts).toList ++ ['/']

def behind? : List Char → List Char → Option (List Char)
  | [], rest => some rest
  | _ :: _, [] => none
  | expected :: more, c :: rest => if expected = c then behind? more rest else none

def names (store : FileStore) (path : Path) : List String :=
  (store.files.names.filterMap fun name =>
    (behind? (directoryKey path) name.toList).map fun rest =>
      String.ofList (rest.takeWhile (· ≠ '/'))).eraseDups

def isDirectory (store : FileStore) (path : Path) : Bool :=
  (resolve path).isEmpty || !(store.names path).isEmpty

def endsInSlash (path : Path) : Bool :=
  path.units.getLast? == some (some '/')

def find? (store : FileStore) (path : Path) : Option (List UInt8) :=
  if endsInSlash path then none else store.files.find? (key path)

def read (store : FileStore) (path : Path) : Except Error (List UInt8) :=
  match store.find? path with
  | some bytes => .ok bytes
  | none => .error (if path.units ≠ [] ∧ store.isDirectory path then .badJsonFile else .badFile)

def parent (path : Path) : Path :=
  Path.ofString ("/".intercalate (resolve path).dropLast)

/-- The files with one of them written, if its directory is there. -/
def write? (store : FileStore) (path : Path) (bytes : List UInt8) : Option FileStore :=
  if endsInSlash path || store.isDirectory path || !store.isDirectory (parent path) then none
  else some { files := store.files.insert (key path) bytes }

def access : FileAccess (StateM FileStore) where
  read path := return (← get).read path
  list path := do
    let store ← get
    return if path.units ≠ [] ∧ store.isDirectory path then some (store.names path) else none
  isFile path := return ((← get).find? path).isSome
  write path bytes := do
    match (← get).write? path bytes with
    | some store => set store; return true
    | none => return false

end FileStore

end Highlight
