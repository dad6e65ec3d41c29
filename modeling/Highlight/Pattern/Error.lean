import Highlight.Text

set_option autoImplicit false

/-! The ways in which a pattern source can be wrong, with the number and the wording of each. -/

namespace Highlight.Pattern

inductive PatternError where
  | unsupported
  | tooDeep
  | emptyClass
  | unclosedClass
  | endAtEscape
  | endAtMeta
  | endAtControl
  | badMeta
  | badControl
  | kindAtRangeEnd
  | unmatchedRange
  | nothingToRepeat
  | cannotRepeat
  | unmatchedClose
  | unmatchedOpen
  | endInGroup
  | undefinedOption
  | badPosixClass
  | badLookBehind
  | bigNumber
  | bigRepeat
  | emptyRange
  | shortBytes
  | badReference
  | longCodePoint
  | emptyName
  | badName (name : String)
  | badNameChar (name : String)
  | unknownName (name : String)
  | unknownProperty (name : String)
  | badCallout
  | badCalloutName
  | unknownCalloutName
  | badCodePoint
  | bigCodePoint
  | unnamed
deriving DecidableEq, Repr, Inhabited

namespace PatternError

def code : PatternError → Int
  | unsupported => -2
  | tooDeep => -16
  | emptyClass => -102
  | unclosedClass => -103
  | endAtEscape => -104
  | endAtMeta => -105
  | endAtControl => -106
  | badMeta => -108
  | badControl => -109
  | kindAtRangeEnd => -110
  | unmatchedRange => -112
  | nothingToRepeat => -113
  | cannotRepeat => -114
  | unmatchedClose => -116
  | unmatchedOpen => -117
  | endInGroup => -118
  | undefinedOption => -119
  | badPosixClass => -121
  | badLookBehind => -122
  | bigNumber => -200
  | bigRepeat => -201
  | emptyRange => -203
  | shortBytes => -206
  | badReference => -208
  | longCodePoint => -212
  | emptyName => -214
  | badName _ => -215
  | badNameChar _ => -216
  | unknownName _ => -217
  | unknownProperty _ => -223
  | badCallout => -227
  | badCalloutName => -228
  | unknownCalloutName => -229
  | badCodePoint => -400
  | bigCodePoint => -401
  | unnamed => 1

def mostNameBytes : Nat := 27

/-- A name as it is shown, a long one by its start; that must not end inside a character. -/
def shownName? (name : String) : Option String :=
  if name.utf8ByteSize ≤ mostNameBytes then some name
  else (Text.positionIn? name.toList mostNameBytes).map fun count =>
    String.ofList (name.toList.take count) ++ "..."

/-- The wording of an error, unless the name in it cannot be shown. -/
def description? : PatternError → Option String
  | unsupported => "no support in this configuration"
  | tooDeep => "parse depth limit over"
  | emptyClass => "empty char-class"
  | unclosedClass => "premature end of char-class"
  | endAtEscape => "end pattern at escape"
  | endAtMeta => "end pattern at meta"
  | endAtControl => "end pattern at control"
  | badMeta => "invalid meta-code syntax"
  | badControl => "invalid control-code syntax"
  | kindAtRangeEnd => "char-class value at end of range"
  | unmatchedRange => "unmatched range specifier in char-class"
  | nothingToRepeat => "target of repeat operator is not specified"
  | cannotRepeat => "target of repeat operator is invalid"
  | unmatchedClose => "unmatched close parenthesis"
  | unmatchedOpen => "end pattern with unmatched parenthesis"
  | endInGroup => "end pattern in group"
  | undefinedOption => "undefined group option"
  | badPosixClass => "invalid POSIX bracket type"
  | badLookBehind => "invalid pattern in look-behind"
  | bigNumber => "too big number"
  | bigRepeat => "too big number for repeat range"
  | emptyRange => "empty range in char class"
  | shortBytes => "too short multibyte code string"
  | badReference => "invalid backref number/name"
  | longCodePoint => "too long wide-char value"
  | emptyName => "group name is empty"
  | badName name => (shownName? name).map ("invalid group name <" ++ · ++ ">")
  | badNameChar name => (shownName? name).map ("invalid char in group name <" ++ · ++ ">")
  | unknownName name => (shownName? name).map ("undefined name <" ++ · ++ "> reference")
  | unknownProperty name => (shownName? name).map ("invalid character property name \x7b" ++ · ++ "\x7d")
  | badCallout => "invalid callout pattern"
  | badCalloutName => "invalid callout name"
  | unknownCalloutName => "undefined callout name"
  | badCodePoint => "invalid code point value"
  | bigCodePoint => "too big wide-char value"
  | unnamed => "undefined error code"

def unreadable : String := "Onig error string was invalid UTF-8"

def message (error : PatternError) : String :=
  "Oniguruma error: " ++ error.description?.getD unreadable

def diagnosis (error : PatternError) : String :=
  match error.description? with
  | some description => s!"Error(OnigError({error.code}), {description})"
  | none => s!"Error(Custom, {unreadable})"

end PatternError

end Highlight.Pattern
