import Highlight.Json.Value
import Highlight.Tree.Basic

set_option autoImplicit false

/-! Trees as JSON: leaves are strings, and each inner node names its kind before its children. -/

namespace Highlight

def ContainerKind.toJson : ContainerKind → Json
  | .scope name => .object [("scope", .string name)]
  | .subLanguage language => .object [("sublanguage", .string language)]

namespace TreeNode

mutual

def toJson : TreeNode → Json
  | .text content => .string content
  | .container kind children =>
    .object [("kind", kind.toJson), ("children", .array (toJsons children))]

def toJsons : List TreeNode → List Json
  | [] => []
  | node :: rest => toJson node :: toJsons rest

end

end TreeNode

def TokenTree.toJson (tree : TokenTree) : Json :=
  .object [("children", .array (TreeNode.toJsons tree.children))]

end Highlight
