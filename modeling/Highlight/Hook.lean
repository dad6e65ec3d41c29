import Highlight.Pattern.Regex

set_option autoImplicit false

/-! Hooks look at the match of a begin or end pattern and can have it ignored. What the begin hook of
a mode keeps is there for the end hook of the same activation of the mode. -/

namespace Highlight

inductive HookOutcome where
  | accept
  /-- The match counts as ordinary text. -/
  | ignore
deriving DecidableEq, Repr, Inhabited

structure HookMatch where
  text : Text
  index : Nat
  captures : Pattern.Captures
deriving DecidableEq, Repr, Inhabited

namespace HookMatch

/-- The text of a group, zero standing for the whole match. -/
def group? (found : HookMatch) (group : Nat) : Option String :=
  found.captures[group]?.join.map fun span =>
    String.ofList (found.text.between span.start span.stop)

def lexeme (found : HookMatch) : String :=
  (found.group? 0).getD ""

/-- The text of the first group, nothing if it took no part in the match. -/
def firstGroup (found : HookMatch) : String :=
  (found.group? 1).getD ""

end HookMatch

/-- What the hooks of one activation of a mode keep, the latest first. -/
structure HookData where
  entries : List (String × String) := []
deriving DecidableEq, Repr, Inhabited

namespace HookData

def get? (data : HookData) (key : String) : Option String :=
  (data.entries.find? fun entry => entry.1 == key).map (·.2)

def insert (data : HookData) (key value : String) : HookData :=
  ⟨(key, value) :: data.entries⟩

def beginMatchKey : String := "beginMatch"

@[simp] theorem get?_insert_self (data : HookData) (key value : String) :
    (data.insert key value).get? key = some value := by
  simp [get?, insert]

end HookData

inductive BuiltinHook where
  /-- Keeps the first group of the begin match. -/
  | captureBeginMatch
  /-- Ignores an end match whose first group is not the one that was kept. -/
  | endSameAsBegin
  /-- Ignores matches but those at the very start of the text. -/
  | startOfInput
  /-- Ignores matches right behind a dot. -/
  | notAfterDot
deriving DecidableEq, Repr, Inhabited

namespace BuiltinHook

def name : BuiltinHook → String
  | captureBeginMatch => "captureBeginMatch"
  | endSameAsBegin => "endSameAsBegin"
  | startOfInput => "startOfInput"
  | notAfterDot => "notAfterDot"

def all : List BuiltinHook :=
  [captureBeginMatch, endSameAsBegin, startOfInput, notAfterDot]

def ofName? (name : String) : Option BuiltinHook :=
  all.find? fun hook => hook.name == name

def acceptIf (condition : Bool) : HookOutcome :=
  if condition then .accept else .ignore

def run (hook : BuiltinHook) (found : HookMatch) (data : HookData) : HookOutcome × HookData :=
  match hook with
  | captureBeginMatch => (.accept, data.insert HookData.beginMatchKey found.firstGroup)
  | endSameAsBegin =>
    (acceptIf (data.get? HookData.beginMatchKey == some found.firstGroup), data)
  | startOfInput => (acceptIf (found.index == 0), data)
  | notAfterDot => (acceptIf (found.text.charBefore? found.index != some '.'), data)

theorem ofName?_name (hook : BuiltinHook) : ofName? hook.name = some hook := by
  cases hook <;> decide

end BuiltinHook

inductive Hook where
  | builtin (hook : BuiltinHook)
  | custom (run : HookMatch → HookData → HookOutcome × HookData)

namespace Hook

def run (hook : Hook) (found : HookMatch) (data : HookData) : HookOutcome × HookData :=
  match hook with
  | builtin hook => hook.run found data
  | custom run => run found data

instance : Inhabited Hook :=
  ⟨builtin default⟩

end Hook

end Highlight
