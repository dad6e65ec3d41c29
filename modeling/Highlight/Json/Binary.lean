set_option autoImplicit false

/-! Numbers with a binary mantissa of 53 bits. A number is rounded from an exact quotient, a tie going
to the even mantissa, and is written with the fewest decimal digits that are read back as itself. -/

namespace Highlight.Json

/-- The number `mantissa * 2 ^ exponent`. -/
structure Binary where
  mantissa : Nat
  exponent : Int
deriving DecidableEq, Repr, Inhabited

namespace Binary

def zero : Binary :=
  ⟨0, 0⟩

def leastExponent : Int := -1074

def mostExponent : Int := 971

def scale (base numerator denominator : Nat) (exponent : Int) : Nat × Nat :=
  match exponent with
  | .ofNat up => (numerator * base.pow up, denominator)
  | .negSucc down => (numerator, denominator * base.pow (down + 1))

/-- A quotient rounded to the nearest natural number, a tie to the even one. -/
def roundDiv (numerator denominator : Nat) : Nat :=
  let quotient := numerator / denominator
  let twice := 2 * (numerator % denominator)
  if denominator < twice || (twice = denominator && quotient % 2 = 1) then quotient + 1
  else quotient

/-- The number nearest to a fraction, or nothing if it is too large. -/
def ofRatio (numerator denominator : Nat) : Option Binary :=
  if numerator = 0 then some zero
  else
    let guess : Int := (numerator.log2 : Int) - denominator.log2 - 53
    let attempt (exponent : Int) : Nat :=
      let scaled := scale 2 numerator denominator (-exponent)
      roundDiv scaled.1 scaled.2
    let exponent := if attempt (guess + 1) < Nat.pow 2 52 then guess else guess + 1
    let exponent := if attempt exponent < Nat.pow 2 53 then exponent else exponent + 1
    let exponent := max exponent leastExponent
    let mantissa := attempt exponent
    let number : Binary :=
      if mantissa = Nat.pow 2 53 then ⟨Nat.pow 2 52, exponent + 1⟩ else ⟨mantissa, exponent⟩
    if mostExponent < number.exponent then none else some number

def ratio (number : Binary) : Nat × Nat :=
  scale 2 number.mantissa 1 number.exponent

/-- Multiplies by a power of ten, which is itself rounded first. -/
def timesTen (number : Binary) (power : Nat) : Option Binary := do
  let ten ← ofRatio (Nat.pow 10 power) 1
  ofRatio (number.ratio.1 * ten.ratio.1) (number.ratio.2 * ten.ratio.2)

def overTen (number : Binary) (power : Nat) : Option Binary := do
  let ten ← ofRatio (Nat.pow 10 power) 1
  ofRatio (number.ratio.1 * ten.ratio.2) (number.ratio.2 * ten.ratio.1)

def mostTen : Nat := 308

/-- The number of a decimal mantissa and exponent, rounded step by step: first the mantissa, then
its product or quotient with each power of ten. -/
def ofDecimal (mantissa : Nat) (exponent : Int) : Option Binary := do
  let start ← ofRatio mantissa 1
  match exponent with
  | .ofNat up =>
    if up ≤ mostTen then start.timesTen up
    else if mantissa = 0 then some zero
    else none
  | .negSucc down => lower (down + 1) start
where
  lower (power : Nat) (number : Binary) : Option Binary :=
    if power ≤ mostTen then number.overTen power
    else if number.mantissa = 0 then some zero
    else do
      let smaller ← number.overTen mostTen
      if power ≤ 2 * mostTen then smaller.overTen (power - mostTen)
      else some zero

/-- The ends of the fractions that are read as a number, over a common denominator, and whether the
ends are among them. -/
def interval (number : Binary) : Nat × Nat × Nat × Bool :=
  let lowStep := if number.mantissa = Nat.pow 2 52 && leastExponent < number.exponent then 1 else 2
  let low := scale 2 (4 * number.mantissa - lowStep) 1 (number.exponent - 2)
  let high := scale 2 (4 * number.mantissa + 2) 1 (number.exponent - 2)
  (low.1, high.1, high.2, number.mantissa % 2 = 0)

/-- The decimal point of a positive fraction: it is below ten to this power and not below a tenth of
that. -/
def decimalPoint (numerator denominator : Nat) : Int :=
  let guess : Int := ((Nat.toDigits 10 numerator).length : Int) - (Nat.toDigits 10 denominator).length
  let scaled := scale 10 numerator denominator (-guess)
  if scaled.2 ≤ scaled.1 then guess + 1 else guess

/-- The nearest decimal number with at most so many digits that is read as the given one. -/
def withDigits? (number : Binary) (point : Int) (digits : Nat) : Option (Nat × Int) :=
  let (low, high, common, closed) := number.interval
  let value := number.ratio
  let exponent := point - digits
  let scaled := scale 10 value.1 value.2 (-exponent)
  let below := scaled.1 / scaled.2
  let inside (candidate : Nat) : Bool :=
    let (numerator, denominator) := scale 10 candidate 1 exponent
    let (left, bottom, top) := (numerator * common, low * denominator, high * denominator)
    if closed then bottom ≤ left && left ≤ top else bottom < left && left < top
  let nearest := roundDiv scaled.1 scaled.2
  let other := if nearest = below then below + 1 else below
  let found := if inside nearest then some nearest else if inside other then some other else none
  found.map fun mantissa =>
    if mantissa = Nat.pow 10 digits then (1, point) else (mantissa, exponent)

/-- The fewest decimal digits that are read back as the number, and the power of ten of the last. -/
def shortest (number : Binary) : Nat × Int :=
  let value := number.ratio
  let point := decimalPoint value.1 value.2
  ((List.range' 1 17).findSome? (number.withDigits? point)).getD (number.mantissa, 0)

def mostPlaces : Int := 16

def leastPlaces : Int := -5

def exponentText (exponent : Int) : String :=
  "e" ++ (if exponent < 0 then "-" else "+") ++ toString exponent.natAbs

def text (number : Binary) : String :=
  if number.mantissa = 0 then "0.0"
  else
    let (mantissa, exponent) := number.shortest
    let digits := Nat.toDigits 10 mantissa
    let point : Int := digits.length + exponent
    if 0 ≤ exponent && point ≤ mostPlaces then
      String.ofList (digits ++ List.replicate exponent.toNat '0') ++ ".0"
    else if 0 < point && point ≤ mostPlaces then
      String.ofList (digits.take point.toNat) ++ "." ++ String.ofList (digits.drop point.toNat)
    else if leastPlaces < point && point ≤ 0 then
      "0." ++ String.ofList (List.replicate (-point).toNat '0' ++ digits)
    else
      let first := String.ofList (digits.take 1)
      let rest := digits.drop 1
      let mantissa := if rest.isEmpty then first else first ++ "." ++ String.ofList rest
      mantissa ++ exponentText (point - 1)

end Binary

end Highlight.Json
