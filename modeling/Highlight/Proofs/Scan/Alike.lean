import Highlight.Scan.Run

set_option autoImplicit false

/-! What a scan reads of its context. Putting text into the tree, turning modes on and turning them off
take the grammar, the text and the limits, and nothing else; only text that is scanned with another
grammar takes the catalog and the embedded scans. So two scans that are alike in the rest run alike if
the texts that they have scanned with other grammars come out alike. -/

namespace Highlight.ScanContext

structure Alike (first second : ScanContext) : Prop where
  grammar : second.grammar = first.grammar
  text : second.text = first.text
  limits : second.settings.limits = first.settings.limits

namespace Alike

variable {first second : ScanContext} (alike : Alike first second)

include alike

theorem topMode_eq (state : ScanState) : second.topMode state = first.topMode state := by
  unfold topMode
  rw [alike.grammar]

theorem hookMatch_eq (found : Pattern.RuleMatch) : second.hookMatch found = first.hookMatch found := by
  unfold hookMatch
  rw [alike.text]

theorem takeChar_eq (position : Nat) (state : ScanState) :
    second.takeChar position state = first.takeChar position state := by
  unfold takeChar
  rw [alike.text]

theorem tooManyRounds_eq (rounds position : Nat) :
    second.tooManyRounds rounds position = first.tooManyRounds rounds position := by
  unfold tooManyRounds
  rw [alike.text, alike.limits]

theorem start_eq (stack : Option ModeStack) : second.start stack = first.start stack := by
  have frames : second.openFrame = first.openFrame := by
    funext tree frame
    unfold openFrame
    rw [alike.grammar]
  unfold start
  rw [frames]

theorem emitWord_eq (table : KeywordTable) (word plain : String) (state : ScanState) :
    second.emitWord table word plain state = first.emitWord table word plain state := by
  unfold emitWord lookupForm
  rw [alike.grammar, alike.limits]

theorem emitWords_eq (table : KeywordTable) (text : Text) (rounds position last : Nat) (plain : String)
    (state : ScanState) :
    second.emitWords table text rounds position last plain state =
      first.emitWords table text rounds position last plain state := by
  induction rounds generalizing position last plain state with
  | zero => rfl
  | succ rounds ih =>
      unfold emitWords
      simp only [alike.emitWord_eq, ih]

theorem emitKeywords_eq (text : String) (state : ScanState) :
    second.emitKeywords text state = first.emitKeywords text state := by
  unfold emitKeywords
  simp only [alike.topMode_eq, alike.emitWords_eq]

theorem emitGroups_eq (found : Pattern.RuleMatch) (groups : List (Nat × Option String)) (position : Nat)
    (state : ScanState) :
    second.emitGroups found groups position state = first.emitGroups found groups position state := by
  induction groups generalizing position state with
  | nil =>
      unfold emitGroups
      simp only [alike.text, alike.emitKeywords_eq]
  | cons entry rest ih =>
      unfold emitGroups
      simp only [alike.text, alike.grammar, alike.emitKeywords_eq, ih]

theorem startMode_eq (place : Nat) (found : Pattern.RuleMatch) (data : HookData) (state : ScanState) :
    second.startMode place found data state = first.startMode place found data state := by
  unfold startMode
  simp only [alike.grammar, alike.emitGroups_eq]

theorem leaveModes_eq (count : Nat) (state : ScanState) :
    second.leaveModes count state = first.leaveModes count state := by
  induction count generalizing state with
  | zero => rfl
  | succ count ih =>
      unfold leaveModes leaveMode
      simp only [alike.topMode_eq, ih]

end Alike

/-- Two such scans for which texts that are put away come out alike. -/
structure FlushAlike (first second : ScanContext) : Prop extends Alike first second where
  flush_eq (state : ScanState) : second.flush state = first.flush state

namespace FlushAlike

variable {first second : ScanContext} (alike : FlushAlike first second)

include alike

theorem beginMode_eq (place : Nat) (found : Pattern.RuleMatch) (lexeme : String) (state : ScanState) :
    second.beginMode place found lexeme state = first.beginMode place found lexeme state := by
  unfold beginMode placeBeginLexeme
  simp only [alike.grammar, alike.takeChar_eq, alike.hookMatch_eq, alike.flush_eq, alike.startMode_eq]

theorem endModes_eq (found : Pattern.RuleMatch) (lexeme : String) (state : ScanState) :
    second.endModes found lexeme state = first.endModes found lexeme state := by
  unfold endModes placeEndLexeme
  simp only [alike.grammar, alike.hookMatch_eq, alike.flush_eq, alike.topMode_eq,
    alike.emitGroups_eq, alike.startMode_eq, alike.leaveModes_eq]

theorem takeRest_eq (state : ScanState) : second.takeRest state = first.takeRest state := by
  unfold takeRest
  simp only [alike.text, alike.flush_eq]

end FlushAlike

end Highlight.ScanContext
