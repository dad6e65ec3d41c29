import Highlight.Unicode.Letters
import Highlight.Unicode.LetterCase
import Highlight.Unicode.Script

set_option autoImplicit false

/-! Sets of characters as a pattern describes them: single characters and ranges, kinds of
characters that have a name, and what can be made of these. -/

namespace Highlight.Pattern

inductive CharKind where
  | alnum | alpha | blank | cntrl | digit | graph | lower | print | punct | space | upper | xdigit
  | ascii | word
  /-- A character of a word as it is looked for outside of bracket classes. -/
  | wordInText
  /-- The characters of some general categories. -/
  | categories (members : List Unicode.Category)
deriving DecidableEq, Repr, Inhabited

namespace CharKind

def all : List CharKind :=
  [alnum, alpha, blank, cntrl, digit, graph, lower, print, punct, space, upper, xdigit, ascii, word]

def name : CharKind → String
  | alnum => "alnum"
  | alpha => "alpha"
  | blank => "blank"
  | cntrl => "cntrl"
  | digit => "digit"
  | graph => "graph"
  | lower => "lower"
  | print => "print"
  | punct => "punct"
  | space => "space"
  | upper => "upper"
  | xdigit => "xdigit"
  | ascii => "ascii"
  | word | wordInText => "word"
  | categories _ => ""

def isHexDigit (c : Char) : Bool :=
  c.isDigit || ('a' ≤ c && c ≤ 'f') || ('A' ≤ c && c ≤ 'F')

def contains (kind : CharKind) (c : Char) : Bool :=
  match kind with
  | alnum => Unicode.isAlphabetic c || Unicode.isDigit c
  | alpha => Unicode.isAlphabetic c
  | blank => Unicode.isInlineBlank c
  | cntrl => Unicode.isControl c
  | digit => Unicode.isDigit c
  | graph => Unicode.isGraphic c
  | lower => Unicode.isLower c
  | print => Unicode.isGraphic c || (Unicode.isInlineBlank c && c != '\t')
  | punct => Unicode.isPunctuationOrSymbol c
  | space => Unicode.isBlank c
  | upper => Unicode.isUpper c
  | xdigit => isHexDigit c
  | ascii => c.toNat < 128
  | word => Unicode.isWord c
  | wordInText => Unicode.isWordInText c
  | categories members => members.contains (Unicode.category c)

end CharKind

inductive CharSet where
  | empty
  | single (c : Char)
  /-- The characters whose code points lie between two numbers, both counted. -/
  | range (first last : Nat)
  /-- The characters of a table of ranges. -/
  | table (ranges : Array (Nat × Nat))
  | ofKind (kind : CharKind)
  | complement (set : CharSet)
  | union (left right : CharSet)
  | inter (left right : CharSet)
  /-- The characters that are in the set or differ from one in it only by case. -/
  | folded (set : CharSet)
deriving DecidableEq, Repr, Inhabited

namespace CharSet

def contains : CharSet → Char → Bool
  | empty, _ => false
  | single member, c => c == member
  | range first last, c => first ≤ c.toNat && c.toNat ≤ last
  | table ranges, c => Unicode.inRanges ranges c.toNat
  | ofKind kind, c => kind.contains c
  | complement set, c => !set.contains c
  | union left right, c => left.contains c || right.contains c
  | inter left right, c => left.contains c && right.contains c
  | folded set, c => set.contains c || (Unicode.caseVariants c).any set.contains

def withinLine : CharSet :=
  complement (single '\n')

def anything : CharSet :=
  complement empty

def ofList (chars : List Char) : CharSet :=
  chars.foldr (fun c set => if set = empty then single c else union (single c) set) empty

/-- The texts of two or three characters that differ only by case from a single character of the
set, as their foldings. -/
def longFoldings (set : CharSet) : List (List Char) :=
  (Unicode.longFoldings.filter fun entry => entry.2.any set.contains).map (·.1)

/-- The properties that are not among the named kinds. As a property, punctuation has the narrow
sense. -/
def specialProperty? (name : String) : Option CharSet :=
  match name with
  | "any" => some anything
  | "assigned" => some (complement (ofKind (.categories [.cn])))
  | "unknown" | "zzzz" => some (ofKind (.categories [.cn, .co, .cs]))
  | "alphabetic" => some (ofKind .alpha)
  | "lowercase" => some (ofKind .lower)
  | "uppercase" => some (ofKind .upper)
  | "whitespace" => some (ofKind .space)
  | "posixpunct" => some (ofKind .punct)
  | "punct" => some (ofKind (.categories [.pc, .pd, .ps, .pe, .pi, .pf, .po]))
  | _ => none

/-- The characters of a property. In its name, case, spaces, hyphens and underscores do not count. -/
def ofProperty? (name : String) : Option CharSet :=
  let plain := String.ofList
    ((name.toList.filter fun c => c != ' ' && c != '-' && c != '_').map Char.toLower)
  let kind := (CharKind.all.find? (·.name == plain)).map ofKind
  let categories :=
    (Unicode.Category.named.find? (·.1 == plain)).map fun entry => ofKind (.categories entry.2)
  let script := (Unicode.script? plain).map table
  (specialProperty? plain).or (kind.or (categories.or script))

end CharSet

end Highlight.Pattern
