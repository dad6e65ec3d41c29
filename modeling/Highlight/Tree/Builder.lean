import Highlight.Tree.Basic

set_option autoImplicit false

/-! Building a tree from left to right. Texts that follow each other become one leaf, an empty text
none, and what is still open at the end is closed. -/

namespace Highlight

/-- A scope that is open, with its children so far, the latest first. -/
structure OpenScope where
  name : String
  children : List TreeNode := []
deriving Repr, BEq, Inhabited

structure TreeBuilder where
  /-- The children of the tree so far, the latest first. -/
  root : List TreeNode := []
  /-- The open scopes, the innermost first. -/
  opened : List OpenScope := []
deriving Repr, BEq, Inhabited

namespace TreeBuilder

def mapChildren (builder : TreeBuilder) (change : List TreeNode → List TreeNode) : TreeBuilder :=
  match builder.opened with
  | [] => { builder with root := change builder.root }
  | scope :: outer =>
    { builder with opened := { scope with children := change scope.children } :: outer }

def addNode (builder : TreeBuilder) (node : TreeNode) : TreeBuilder :=
  builder.mapChildren (node :: ·)

/-- Adds text after the children, as part of the last one if that is text. -/
def appendText (text : String) : List TreeNode → List TreeNode
  | .text last :: rest => .text (last ++ text) :: rest
  | children => .text text :: children

def addText (builder : TreeBuilder) (text : String) : TreeBuilder :=
  if text.isEmpty then builder else builder.mapChildren (appendText text)

def openScope (builder : TreeBuilder) (scope : String) : TreeBuilder :=
  { builder with opened := { name := scope } :: builder.opened }

/-- Closes the innermost scope, if one is open. -/
def closeScope (builder : TreeBuilder) : TreeBuilder :=
  match builder.opened with
  | [] => builder
  | scope :: outer =>
    ({ builder with opened := outer } : TreeBuilder).addNode
      (.container (.scope scope.name) scope.children.reverse)

def closeAll (builder : TreeBuilder) : TreeBuilder :=
  builder.opened.foldl (fun builder _ => builder.closeScope) builder

/-- Adds a text in a scope of its own, unless it is empty. -/
def addScoped (builder : TreeBuilder) (text scope : String) : TreeBuilder :=
  if text.isEmpty then builder else ((builder.openScope scope).addText text).closeScope

def addSubLanguage (builder : TreeBuilder) (tree : TokenTree) (language : String) : TreeBuilder :=
  builder.addNode (.container (.subLanguage language) tree.children)

def finish (builder : TreeBuilder) : TokenTree :=
  ⟨builder.closeAll.root.reverse⟩

end TreeBuilder

def TokenTree.plain (text : String) : TokenTree :=
  (({} : TreeBuilder).addText text).finish

end Highlight
