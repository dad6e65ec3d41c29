set_option autoImplicit false

/-! Building pattern sources out of others. -/

namespace Highlight.Pattern.Source

def concat (parts : List String) : String :=
  String.join parts

def lookahead (source : String) : String :=
  "(?=" ++ source ++ ")"

def anyNumberOfTimes (source : String) : String :=
  "(?:" ++ source ++ ")*"

def optional (source : String) : String :=
  "(?:" ++ source ++ ")?"

def either (alternatives : List String) : String :=
  "(?:" ++ "|".intercalate alternatives ++ ")"

/-- The choice between the sources, as a group that remembers its text. -/
def eitherCapture (alternatives : List String) : String :=
  "(" ++ "|".intercalate alternatives ++ ")"

def commaSeparated (source : String) : String :=
  concat [source, anyNumberOfTimes (concat [",\\s*", source])]

end Highlight.Pattern.Source
