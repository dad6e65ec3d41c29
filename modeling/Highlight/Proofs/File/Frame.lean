import Highlight.File.Frame
import Mathlib.Data.Nat.Basic

set_option autoImplicit false

/-! What a frame holds is got out of it again, as long as the number of bytes fits where it stands. -/

namespace Highlight.Frame

theorem length_littleEndian (count value : Nat) : (littleEndian count value).length = count := by
  induction count generalizing value with
  | zero => rfl
  | succ count ih => rw [littleEndian, List.length_cons, ih]

theorem fromLittleEndian_littleEndian (count value : Nat) (small : value < Nat.pow 256 count) :
    fromLittleEndian (littleEndian count value) = value := by
  induction count generalizing value with
  | zero => exact (Nat.lt_one_iff.mp small).symm
  | succ count ih =>
      have upper := ih (value / 256) (Nat.div_lt_of_lt_mul (Nat.mul_comm _ _ ▸ small))
      rw [littleEndian, fromLittleEndian, upper, UInt8.toNat_ofNat']
      omega

theorem length_blockHeader (size : Nat) (last : Bool) : (blockHeader size last).length = 3 :=
  length_littleEndian 3 _

theorem fromLittleEndian_blockHeader {size : Nat} (small : size ≤ blockSize) (last : Bool) :
    fromLittleEndian (blockHeader size last) = size * 8 + if last then 1 else 0 := by
  refine fromLittleEndian_littleEndian _ _ ?_
  have most : blockSize = 131072 := rfl
  have room : Nat.pow 256 3 = 16777216 := rfl
  split <;> omega

theorem unpackBlocks_last {block : List UInt8} (small : block.length ≤ blockSize) (blocks : Nat) :
    unpackBlocks (blocks + 1) (blockHeader block.length true ++ block) = some block := by
  have header := fromLittleEndian_blockHeader small true
  have size := length_blockHeader block.length true
  rw [unpackBlocks, if_neg (by rw [List.length_append]; omega), List.take_left' size,
    List.drop_left' size, header]
  dsimp only
  rw [if_neg (by simp; omega), if_pos (by simp; omega), if_pos (by simp; omega)]

theorem unpackBlocks_more {block : List UInt8} (small : block.length ≤ blockSize) (blocks : Nat)
    (rest : List UInt8) :
    unpackBlocks (blocks + 1) (blockHeader block.length false ++ block ++ rest) =
      (unpackBlocks blocks rest).map fun others => block ++ others := by
  have header := fromLittleEndian_blockHeader small false
  have size := length_blockHeader block.length false
  have length : (block.length * 8 + if false = true then 1 else 0) / 8 = block.length := by simp
  rw [unpackBlocks, if_neg (by simp only [List.length_append]; omega), List.append_assoc,
    List.take_left' size, List.drop_left' size, header]
  dsimp only
  rw [length, if_neg (by simp; omega), if_neg (by simp; omega), List.drop_left, List.take_left]
  cases unpackBlocks blocks rest <;> rfl

theorem unpackBlocks_packBlocks (blocks : Nat) (bytes : List UInt8)
    (room : bytes.length ≤ blockSize * (blocks + 1)) (steps : Nat) (enough : blocks < steps) :
    unpackBlocks steps (packBlocks blocks bytes) = some bytes := by
  obtain ⟨steps, rfl⟩ := Nat.exists_eq_succ_of_ne_zero (Nat.ne_zero_of_lt enough)
  induction blocks generalizing bytes steps with
  | zero => exact unpackBlocks_last (by simpa using room) steps
  | succ blocks ih =>
      unfold packBlocks
      split
      · rename_i small
        exact unpackBlocks_last small steps
      · rename_i large
        have taken : (bytes.take blockSize).length = blockSize := by
          rw [List.length_take]
          omega
        obtain ⟨before, rfl⟩ := Nat.exists_eq_succ_of_ne_zero (n := steps) (by omega)
        have others := ih (bytes.drop blockSize) (by
          rw [List.length_drop]
          rw [Nat.mul_succ] at room
          omega) before (by omega)
        have block := unpackBlocks_more (Nat.le_of_eq taken) (before + 1)
          (packBlocks blocks (bytes.drop blockSize))
        rw [taken, others, Option.map_some, List.take_append_drop] at block
        exact block

theorem length_packBlocks (blocks : Nat) (bytes : List UInt8) :
    bytes.length < (packBlocks blocks bytes).length := by
  induction blocks generalizing bytes with
  | zero =>
      simp only [packBlocks, List.length_append, length_blockHeader]
      omega
  | succ blocks ih =>
      unfold packBlocks
      split
      · simp only [List.length_append, length_blockHeader]
        omega
      · have others := ih (bytes.drop blockSize)
        simp only [List.length_append, length_blockHeader, List.length_take, List.length_drop] at others ⊢
        omega

theorem length_le_pack (bytes : List UInt8) : bytes.length ≤ (pack bytes).length := by
  have longer := length_packBlocks (bytes.length / blockSize) bytes
  rw [pack, List.length_append]
  omega

theorem unpack?_pack {bytes : List UInt8} (small : bytes.length < Nat.pow 2 64) :
    unpack? (pack bytes) = some bytes := by
  have count := length_littleEndian 8 bytes.length
  have longer := length_packBlocks (bytes.length / blockSize) bytes
  have blocks := Nat.div_le_self bytes.length blockSize
  have size : (pack bytes).length = 13 + (packBlocks (bytes.length / blockSize) bytes).length := by
    simp only [pack, List.length_append, List.length_cons, count]
    simp [mark]
  have front : (pack bytes).take 5 = mark ++ [descriptor] := rfl
  have behind : (pack bytes).drop 5 =
      littleEndian 8 bytes.length ++ packBlocks (bytes.length / blockSize) bytes := rfl
  have number : ((pack bytes).drop 5).take 8 = littleEndian 8 bytes.length := by
    rw [behind, List.take_left' count]
  have content : (pack bytes).drop 13 = packBlocks (bytes.length / blockSize) bytes := by
    have further : (pack bytes).drop 13 = ((pack bytes).drop 5).drop 8 := by rw [List.drop_drop]
    rw [further, behind, List.drop_left' count]
  have opened := unpackBlocks_packBlocks (bytes.length / blockSize) bytes
    (Nat.le_of_lt (Nat.lt_mul_div_succ _ (by decide))) (pack bytes).length (by omega)
  unfold unpack?
  rw [if_pos ⟨front, by omega⟩, content, opened, number,
    fromLittleEndian_littleEndian _ _ (Nat.lt_of_lt_of_eq small (by decide))]
  simp

end Highlight.Frame
