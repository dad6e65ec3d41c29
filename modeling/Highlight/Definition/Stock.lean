import Highlight.Definition.Basic
import Highlight.Pattern.Source

set_option autoImplicit false

/-! Modes that many grammars have. -/

namespace Highlight.Stock

open Pattern

def identifierSource : String := "[a-zA-Z]\\w*"

def underscoreIdentifierSource : String := "[a-zA-Z_]\\w*"

def numberSource : String := "\\b\\d+(\\.\\d+)?"

/-- A number in hexadecimal, decimal or scientific notation, with a minus sign or without. -/
def cNumberSource : String :=
  "(-?)(\\b0[xX][a-fA-F0-9]+|(\\b\\d+(\\.\\d*)?|\\.\\d+)([eE][-+]?\\d+)?)"

def binaryNumberSource : String := "\\b(0b[01]+)"

def remarkSource : String := "(TODO|FIXME|NOTE|BUG|OPTIMIZE|HACK|XXX):"

def backslashEscape : ModeDefinition where
  begins := some (.one "\\\\[\\s\\S]")
  relevance := some 0

def lineString (delimiter : String) : ModeDefinition where
  scope := some (.name "string")
  begins := some (.one delimiter)
  ends := some (.one delimiter)
  illegal := some (.one "\\n")
  contains := [.inline backslashEscape]

def aposString : ModeDefinition := lineString "'"

def quoteString : ModeDefinition := lineString "\""

/-- Three words of prose. A comment contains it so that its words are not taken for anything else. -/
def prose : ModeDefinition where
  begins := some (.one (Source.concat ["[ ]+(",
    Source.either ["I", "a", "is", "so", "us", "to", "at", "if", "in", "it", "on",
      "[A-Za-z]+['](d|ve|re|ll|t|s|n)", "[A-Za-z]+[-][a-z]+", "[A-Za-z][a-z]\x7b2,\x7d"],
    "[.]?[:]?([.][ ]|[ ]))\x7b3\x7d"]))

def remark : ModeDefinition where
  scope := some (.name "doctag")
  begins := some (.one (Source.concat ["[ ]*", Source.lookahead remarkSource]))
  ends := some (.one remarkSource)
  flags := { excludeBegin := true }
  relevance := some 0

/-- A comment. What `extra` sets goes before what a comment is by itself. -/
def comment (begins ends : String) (extra : ModeDefinition) : ModeDefinition :=
  let base : ModeDefinition :=
    { scope := some (.name "comment"), begins := some (.one begins), ends := some (.one ends) }
  let merged := base.withVariant extra
  { merged with contains := merged.contains ++ [.inline remark, .inline prose] }

def cLineComment : ModeDefinition := comment "//" "$" {}

def cBlockComment : ModeDefinition := comment "/\\*" "\\*/" {}

def hashComment : ModeDefinition := comment "#" "$" {}

def numberMode (source : String) : ModeDefinition where
  scope := some (.name "number")
  begins := some (.one source)
  relevance := some 0

def number : ModeDefinition := numberMode numberSource

def cNumber : ModeDefinition := numberMode cNumberSource

def binaryNumber : ModeDefinition := numberMode binaryNumberSource

def regexp : ModeDefinition where
  scope := some (.name "regexp")
  begins := some (.one "/(?=[^/\\n]*/)")
  ends := some (.one "/[gimuy]*")
  contains := [
    .inline backslashEscape,
    .inline {
      begins := some (.one "\\[")
      ends := some (.one "\\]")
      relevance := some 0
      contains := [.inline backslashEscape] }]

def titleMode (source : String) : ModeDefinition where
  scope := some (.name "title")
  begins := some (.one source)
  relevance := some 0

def title : ModeDefinition := titleMode identifierSource

def underscoreTitle : ModeDefinition := titleMode underscoreIdentifierSource

/-- The name of a method behind a dot, so that it is not taken for a keyword. -/
def methodGuard : ModeDefinition where
  begins := some (.one "\\.\\s*[a-zA-Z_]\\w*")
  relevance := some 0

def shebang (interpreter : Option String) : ModeDefinition where
  scope := some (.name "meta")
  begins := some (.one (match interpreter with
    | some interpreter => Source.concat ["^#![ ]*/", ".*\\b", interpreter, "\\b.*"]
    | none => "^#![ ]*/"))
  ends := some (.one "$")
  relevance := some 0
  onBegin := some (.builtin .startOfInput)

/-- A mode that ends only where the first groups of its begin and end match are the same. -/
def endSameAsBegin (mode : ModeDefinition) : ModeDefinition :=
  { mode with
    onBegin := some (.builtin .captureBeginMatch)
    onEnd := some (.builtin .endSameAsBegin) }

end Highlight.Stock
