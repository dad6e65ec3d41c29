import Highlight.Proofs.Outcome
import Highlight.Scan.State

set_option autoImplicit false

/-! Parts of a text. A part is there exactly when its bounds are in order and within the text, and two
parts that meet make up one. -/

namespace Highlight.Text

theorem part_eq_ok_iff {text : Text} {start stop : Nat} {part : String} :
    text.part start stop = .ok part ↔
      (start ≤ stop ∧ stop ≤ text.size) ∧ String.ofList (text.between start stop) = part := by
  unfold Text.part slice?
  by_cases within : start ≤ stop ∧ stop ≤ text.size
  · simp [within]
  · simp [within]

theorem between_append (text : Text) {start middle stop : Nat} (first : start ≤ middle)
    (second : middle ≤ stop) :
    text.between start middle ++ text.between middle stop = text.between start stop := by
  unfold between
  rw [← Array.toList_append, Array.extract_append_extract]
  simp [first, second]

theorem part_append {text : Text} {start middle stop : Nat} {left right : String}
    (first : text.part start middle = .ok left) (second : text.part middle stop = .ok right) :
    text.part start stop = .ok (left ++ right) := by
  obtain ⟨⟨firstOrder, _⟩, rfl⟩ := part_eq_ok_iff.mp first
  obtain ⟨⟨secondOrder, within⟩, rfl⟩ := part_eq_ok_iff.mp second
  refine part_eq_ok_iff.mpr ⟨⟨by omega, within⟩, ?_⟩
  rw [← String.ofList_append, between_append text firstOrder secondOrder]

theorem part_unique {text : Text} {start stop : Nat} {left right : String}
    (first : text.part start stop = .ok left) (second : text.part start stop = .ok right) :
    left = right :=
  Except.ok.inj (first.symm.trans second)

theorem part_self {text : Text} {position : Nat} (within : position ≤ text.size) :
    text.part position position = .ok "" :=
  part_eq_ok_iff.mpr ⟨⟨Nat.le_refl _, within⟩, by simp [between]⟩

theorem part_whole (text : Text) : text.part 0 text.size = .ok text.toString :=
  part_eq_ok_iff.mpr ⟨⟨Nat.zero_le _, Nat.le_refl _⟩, by simp [between, size, toString]⟩

theorem part_char {text : Text} {position : Nat} {c : Char}
    (found : text.charAt? position = some c) :
    text.part position (position + 1) = .ok (String.singleton c) := by
  obtain ⟨within, same⟩ := Array.getElem?_eq_some_iff.mp found
  refine part_eq_ok_iff.mpr ⟨⟨Nat.le_succ _, within⟩, ?_⟩
  have taken : text.between position (position + 1) = [c] := by
    unfold between
    rw [Array.toList_extract, List.extract_eq_take_drop,
      List.drop_eq_getElem_cons (by simpa using within)]
    simp [same]
  rw [taken]
  rfl

theorem eq_size_of_charAt?_none {text : Text} {position : Nat} (within : position ≤ text.size)
    (missing : text.charAt? position = none) : position = text.size := by
  have beyond : text.size ≤ position := by simpa [charAt?, size] using missing
  omega

end Highlight.Text
