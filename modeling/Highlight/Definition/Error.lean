import Highlight.Pattern.Error

set_option autoImplicit false

/-! What can be wrong with a definition whose form is right. -/

namespace Highlight

inductive DefinitionError where
  /-- The match pattern stands for the begin pattern of a mode without an end. -/
  | matchBesideBounds
  /-- The parts of a begin pattern cannot have scopes if their text is not the mode's own. -/
  | beginPartsNotKept
  | beginPartsWithoutScopes
  | endPartsNotKept
  | endPartsWithoutScopes
  /-- What stands before a match starts the mode itself, so nothing else can. -/
  | beforeMatchBesideStarts
  | badRelevance (text word : String)
  | badKeywordPattern (source : String) (cause : Pattern.PatternError)
  | badPattern (source : String) (cause : Pattern.PatternError)
  /-- A scope is given to something that is no number of a group. -/
  | badCaptureIndex (text : String)
  /-- A scope is given to a part that the pattern does not have. -/
  | noSuchPart (part parts : Nat)
  | unknownShared (name : String)
  /-- A shared mode that has to be made anew for each mode around it stands within itself. -/
  | endlessShared (name : String)
  | tooManyModes
  | itselfAtTop
  /-- The file of the grammar has no name that the grammar could have. -/
  | noName
deriving DecidableEq, Repr, Inhabited

namespace DefinitionError

def message : DefinitionError → String
  | matchBesideBounds => "begin & end are not supported with match"
  | beginPartsNotKept => "skip, excludeBegin, returnBegin not compatible with beginScope"
  | beginPartsWithoutScopes => "beginScope must be object"
  | endPartsNotKept => "skip, excludeEnd, returnEnd not compatible with endScope"
  | endPartsWithoutScopes => "endScope must be object"
  | beforeMatchBesideStarts => "beforeMatch cannot be used with starts"
  | badRelevance text word => s!"invalid relevance `{text}` for keyword `{word}`"
  | badKeywordPattern source cause => s!"invalid keyword pattern `{source}`: {cause.message}"
  | badPattern source cause => s!"invalid regex `{source}`: {cause.message}"
  | badCaptureIndex text => s!"invalid capture index `{text}` in scope map"
  | noSuchPart part parts => s!"scope map refers to element {part} out of {parts}"
  | unknownShared name => s!"unknown repository entry `#{name}`"
  | endlessShared name =>
    s!"repository entry `#{name}` contains itself through modes depending on their parent"
  | tooManyModes => "too many modes in the grammar"
  | itselfAtTop => "contains `self` is not supported at the top-level of a grammar"
  | noName => "cannot name a grammar without a file name"

end DefinitionError

end Highlight
