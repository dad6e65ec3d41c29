set_option autoImplicit false

/-! Frames that hold bytes in blocks: four bytes that mark a frame, the number of bytes that it holds,
and the blocks, each with its size before it and the last one marked. The bytes in a block stand as
they are. -/

namespace Highlight.Frame

def mark : List UInt8 := [0x28, 0xB5, 0x2F, 0xFD]

/-- Says that the number of bytes follows, in eight bytes. -/
def descriptor : UInt8 := 0xE0

def blockSize : Nat := Nat.pow 2 17

/-- A number in so many bytes, the lowest first. -/
def littleEndian : Nat → Nat → List UInt8
  | 0, _ => []
  | count + 1, value => UInt8.ofNat value :: littleEndian count (value / 256)

def fromLittleEndian : List UInt8 → Nat
  | [] => 0
  | byte :: rest => byte.toNat + 256 * fromLittleEndian rest

def blockHeader (size : Nat) (last : Bool) : List UInt8 :=
  littleEndian 3 (size * 8 + if last then 1 else 0)

def packBlocks : Nat → List UInt8 → List UInt8
  | 0, bytes => blockHeader bytes.length true ++ bytes
  | blocks + 1, bytes =>
    if bytes.length ≤ blockSize then blockHeader bytes.length true ++ bytes
    else blockHeader blockSize false ++ bytes.take blockSize ++ packBlocks blocks (bytes.drop blockSize)

def pack (bytes : List UInt8) : List UInt8 :=
  mark ++ descriptor :: littleEndian 8 bytes.length ++ packBlocks (bytes.length / blockSize) bytes

def unpackBlocks : Nat → List UInt8 → Option (List UInt8)
  | 0, _ => none
  | blocks + 1, bytes => do
    if bytes.length < 3 then none
    else
      let header := fromLittleEndian (bytes.take 3)
      let size := header / 8
      let content := bytes.drop 3
      if header / 2 % 4 ≠ 0 ∨ content.length < size then none
      else if header % 2 = 1 then
        if content.length = size then some content else none
      else do
        let rest ← unpackBlocks blocks (content.drop size)
        return content.take size ++ rest

def unpack? (bytes : List UInt8) : Option (List UInt8) :=
  if bytes.take 5 = mark ++ [descriptor] ∧ 13 ≤ bytes.length then do
    let content ← unpackBlocks bytes.length (bytes.drop 13)
    if content.length = fromLittleEndian ((bytes.drop 5).take 8) then some content else none
  else none

end Highlight.Frame
