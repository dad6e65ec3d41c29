set_option autoImplicit false

/-! A text is an array of characters and a position in it counts characters, so that no position
can fall inside a character. The offsets that are shown to a reader count bytes of the UTF-8 form;
`Text.byteOffset` and `Text.position?` translate between the two. -/

namespace Highlight

structure Span where
  start : Nat
  stop : Nat
deriving DecidableEq, Repr, Inhabited

structure Text where
  chars : Array Char
deriving DecidableEq, Repr, Inhabited

namespace Text

def ofString (string : String) : Text :=
  ⟨string.toList.toArray⟩

def toString (text : Text) : String :=
  String.ofList text.chars.toList

def size (text : Text) : Nat :=
  text.chars.size

def charAt? (text : Text) (position : Nat) : Option Char :=
  text.chars[position]?

def charBefore? (text : Text) (position : Nat) : Option Char :=
  if position = 0 then none else text.chars[position - 1]?

/-- The characters from `start` to `stop`, cut off at the end of the text. -/
def between (text : Text) (start stop : Nat) : List Char :=
  (text.chars.extract start stop).toList

/-- The characters of a span, or nothing if the span is reversed or leaves the text. -/
def slice? (text : Text) (start stop : Nat) : Option String :=
  if start ≤ stop ∧ stop ≤ text.size then some (String.ofList (text.between start stop)) else none

def bytesOf (chars : List Char) : Nat :=
  chars.foldr (fun c bytes => c.utf8Size + bytes) 0

def byteOffset (text : Text) (position : Nat) : Nat :=
  bytesOf (text.chars.toList.take position)

def byteSize (text : Text) : Nat :=
  text.byteOffset text.size

/-- The position in a list of characters that has exactly `offset` bytes before it. -/
def positionIn? : List Char → Nat → Option Nat
  | _, 0 => some 0
  | [], _ => none
  | c :: rest, offset =>
    if c.utf8Size ≤ offset then (positionIn? rest (offset - c.utf8Size)).map (· + 1) else none

def position? (text : Text) (offset : Nat) : Option Nat :=
  positionIn? text.chars.toList offset

/-- The characters of a text around a position, up to `reach` on each side. -/
def around (text : Text) (position reach : Nat) : String :=
  String.ofList (text.between (position - reach) (position + reach))

@[simp] theorem size_ofString (string : String) :
    (ofString string).size = string.toList.length := by
  simp [ofString, size]

@[simp] theorem toString_ofString (string : String) : (ofString string).toString = string := by
  simp [ofString, toString]

@[simp] theorem bytesOf_nil : bytesOf [] = 0 := rfl

@[simp] theorem bytesOf_cons (c : Char) (chars : List Char) :
    bytesOf (c :: chars) = c.utf8Size + bytesOf chars := rfl

@[simp] theorem bytesOf_append (first second : List Char) :
    bytesOf (first ++ second) = bytesOf first + bytesOf second := by
  induction first with
  | nil => simp
  | cons c first ih => simp [ih, Nat.add_assoc]

private theorem positionIn?_bytesOf (chars : List Char) (position : Nat)
    (within : position ≤ chars.length) :
    positionIn? chars (bytesOf (chars.take position)) = some position := by
  induction chars generalizing position with
  | nil =>
    obtain rfl : position = 0 := by simpa using within
    rfl
  | cons c rest ih =>
    cases position with
    | zero => simp [positionIn?]
    | succ position =>
      have positive := c.utf8Size_pos
      have found := ih position (by simpa using within)
      rw [List.take_succ_cons, bytesOf_cons, positionIn?]
      · simpa using found
      · omega

theorem position?_byteOffset (text : Text) (position : Nat) (within : position ≤ text.size) :
    text.position? (text.byteOffset position) = some position :=
  positionIn?_bytesOf _ _ (by simpa [size] using within)

end Text

end Highlight
