set_option autoImplicit false

/-! How a text is scanned. -/

namespace Highlight

structure ScanLimits where
  /-- How many occurrences of one keyword count. -/
  keywordHits : Nat := 7
  /-- How many rounds are always allowed. -/
  rounds : Nat := 100000
  /-- How many rounds are allowed for each byte of the text gone through. -/
  roundsPerByte : Nat := 3
deriving DecidableEq, Repr, Inhabited

namespace ScanLimits

def mostRounds (limits : ScanLimits) (bytes : Nat) : Nat :=
  max limits.rounds (limits.roundsPerByte * bytes) + 1

end ScanLimits

structure ScanSettings where
  /-- Whether a scan that fails gives back the bare text. -/
  lenient : Bool := true
  /-- Whether text that does not belong in a mode is taken as it is. -/
  ignoreIllegal : Bool := false
  limits : ScanLimits := {}
deriving DecidableEq, Repr, Inhabited

end Highlight
