import Highlight.Unicode.Printable

set_option autoImplicit false

/-! Texts in double quotes as they are shown in messages: what would not show as itself is
escaped. -/

namespace Highlight.Text.Quoted

def escape (c : Char) : List Char :=
  match c.toNat with
  | 0 => ['\\', '0']
  | 9 => ['\\', 't']
  | 10 => ['\\', 'n']
  | 13 => ['\\', 'r']
  | 34 => ['\\', '"']
  | 92 => ['\\', '\\']
  | code =>
    if !Unicode.isPrintable c then
      "\\u\x7b".toList ++ Nat.toDigits 16 code ++ [Char.ofNat 125]
    else [c]

end Highlight.Text.Quoted

namespace Highlight

def quoted (text : String) : String :=
  "\"" ++ String.ofList (text.toList.flatMap Text.Quoted.escape) ++ "\""

def quotedList (texts : List String) : String :=
  "[" ++ ", ".intercalate (texts.map quoted) ++ "]"

end Highlight
