import Highlight.Grammar.Mode

set_option autoImplicit false

/-! The modes that are on. The root mode is always on, below all others, and has no frame of its
own. -/

namespace Highlight

structure Frame where
  mode : Nat
  /-- What the begin hooks have kept for the end hook. -/
  data : HookData := {}
deriving DecidableEq, Repr, Inhabited

structure ModeStack where
  /-- The modes above the root, the innermost first. -/
  nested : List Frame := []
deriving DecidableEq, Repr, Inhabited

namespace ModeStack

def push (stack : ModeStack) (mode : Nat) (data : HookData) : ModeStack :=
  ⟨{ mode, data } :: stack.nested⟩

/-- The stack without its innermost mode; the root stays. -/
def pop (stack : ModeStack) : ModeStack :=
  ⟨stack.nested.tail⟩

def top (stack : ModeStack) : Nat :=
  match stack.nested with
  | frame :: _ => frame.mode
  | [] => Mode.root

/-- How many modes are on, the root counted. -/
def size (stack : ModeStack) : Nat :=
  stack.nested.length + 1

def modes (stack : ModeStack) : List Nat :=
  Mode.root :: stack.nested.reverse.map Frame.mode

def description (stack : ModeStack) : String :=
  "ModeStack([" ++ ", ".intercalate (stack.modes.map toString) ++ "])"

@[simp] theorem top_push (stack : ModeStack) (mode : Nat) (data : HookData) :
    (stack.push mode data).top = mode := rfl

@[simp] theorem pop_push (stack : ModeStack) (mode : Nat) (data : HookData) :
    (stack.push mode data).pop = stack := rfl

@[simp] theorem size_push (stack : ModeStack) (mode : Nat) (data : HookData) :
    (stack.push mode data).size = stack.size + 1 := rfl

end ModeStack

end Highlight
