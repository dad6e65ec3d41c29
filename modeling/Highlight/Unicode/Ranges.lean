set_option autoImplicit false

/-! Tables of code points. A property of characters is given by the ranges of its code points; a
letter case mapping is given by runs of code points that all move by the same distance. The entries
of a table stand in ascending order and do not overlap, so that a code point is looked up by halving
the table. -/

namespace Highlight.Unicode

/-- The place of the last entry that starts at a code point or before it, among those from `low` on
and before `high`; without one it is `low`. -/
def lastStart {α : Type} (start : α → Nat) (table : Array α) (code low high : Nat) : Nat :=
  if high ≤ low + 1 then low
  else
    let middle := (low + high) / 2
    match table[middle]? with
    | some entry =>
      if start entry ≤ code then lastStart start table code middle high
      else lastStart start table code low middle
    | none => low
termination_by high - low

def entryFor? {α : Type} (start : α → Nat) (table : Array α) (code : Nat) : Option α :=
  table[lastStart start table code 0 table.size]?

def inRanges (table : Array (Nat × Nat)) (code : Nat) : Bool :=
  (entryFor? (·.1) table code).any fun range => range.1 ≤ code && code ≤ range.2

/-- The code points `first`, `first + step`, … up to `last`. -/
structure Stride where
  first : Nat
  last : Nat
  step : Nat

namespace Stride

def contains (stride : Stride) (code : Nat) : Bool :=
  stride.first ≤ code && code ≤ stride.last && (code - stride.first) % stride.step == 0

end Stride

/-- A stride of code points, the first of which maps to `target` and the others as far beyond it
as they are beyond the first. -/
structure CaseRun where
  codes : Stride
  target : Nat

namespace CaseRun

def image (run : CaseRun) (code : Nat) : Nat :=
  run.target + (code - run.codes.first)

def preimage? (run : CaseRun) (image : Nat) : Option Nat :=
  let code := run.codes.first + (image - run.target)
  if run.target ≤ image && run.codes.contains code then some code else none

end CaseRun

def mapRuns? (table : Array CaseRun) (code : Nat) : Option Nat :=
  match entryFor? (·.codes.first) table code with
  | some run => if run.codes.contains code then some (run.image code) else none
  | none => none

end Highlight.Unicode
