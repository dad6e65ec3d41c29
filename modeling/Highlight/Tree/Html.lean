import Highlight.Tree.Basic

set_option autoImplicit false

/-! Trees as HTML: a span for each scope, with classes made of the name of the scope. -/

namespace Highlight.Html

def defaultClassPrefix : String := "hljs-"

def escapeChar (c : Char) : List Char :=
  match c with
  | '>' => "&gt;".toList
  | '<' => "&lt;".toList
  | '&' => "&amp;".toList
  | '\'' => "&#x27;".toList
  | '"' => "&quot;".toList
  | c => [c]

def escape (text : String) : String :=
  String.ofList (text.toList.flatMap escapeChar)

/-- The classes of the deeper parts of a scope: each part has one underscore more than the one
before. -/
def deeperClasses : Nat → List String → String
  | _, [] => ""
  | depth, part :: rest =>
    " " ++ part ++ String.ofList (List.replicate depth '_') ++ deeperClasses (depth + 1) rest

/-- The classes of a scope, whose parts stand between dots. -/
def scopeClass (classPrefix scope : String) : String :=
  match (scope.toList.splitOn '.').map String.ofList with
  | [] => classPrefix
  | first :: deeper => classPrefix ++ first ++ deeperClasses 1 deeper

def containerClass (classPrefix : String) : ContainerKind → String
  | .scope name => scopeClass classPrefix name
  | .subLanguage language => "language-" ++ language

def renderEvent (classPrefix : String) : TreeEvent → String
  | .text text => escape text
  | .enter kind => "<span class=\"" ++ containerClass classPrefix kind ++ "\">"
  | .leave => "</span>"

def render (classPrefix : String) (tree : TokenTree) : String :=
  String.join (tree.walk.map (renderEvent classPrefix))

end Highlight.Html
