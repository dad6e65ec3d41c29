set_option autoImplicit false

/-! The tree of a text that has been scanned. Its leaves are the parts of the text in order, and its
inner nodes say what the parts below them are. -/

namespace Highlight

inductive ContainerKind where
  | scope (name : String)
  /-- The text below has been scanned with another grammar. -/
  | subLanguage (language : String)
deriving DecidableEq, Repr, Inhabited

inductive TreeNode where
  | text (text : String)
  | container (kind : ContainerKind) (children : List TreeNode)
deriving Repr, BEq, Inhabited

structure TokenTree where
  children : List TreeNode := []
deriving Repr, BEq, Inhabited

/-- What is met on a walk through a tree. -/
inductive TreeEvent where
  | text (text : String)
  | enter (kind : ContainerKind)
  | leave
deriving DecidableEq, Repr, Inhabited

namespace TreeNode

mutual

def walk : TreeNode → List TreeEvent
  | .text content => [.text content]
  | .container kind children => .enter kind :: walkAll children ++ [.leave]

def walkAll : List TreeNode → List TreeEvent
  | [] => []
  | node :: rest => walk node ++ walkAll rest

end

mutual

def leafText : TreeNode → String
  | .text content => content
  | .container _ children => leafTexts children

def leafTexts : List TreeNode → String
  | [] => ""
  | node :: rest => leafText node ++ leafTexts rest

end

end TreeNode

namespace TokenTree

def walk (tree : TokenTree) : List TreeEvent :=
  TreeNode.walkAll tree.children

def text (tree : TokenTree) : String :=
  TreeNode.leafTexts tree.children

end TokenTree

end Highlight
