import Highlight.Pattern.Token
import Highlight.Proofs.Outcome

set_option autoImplicit false

/-! How far the reader of a pattern looks ahead. What is read of a source does not depend on what stands
behind it, as far as that goes on in the same way up to a backslash or a closing parenthesis. -/

namespace Highlight.Pattern

open Outcome

/-- Two texts that agree up to a backslash or a closing parenthesis, which both have. -/
inductive Alike : List Char → List Char → Prop where
  | stop (c : Char) (stops : c = '\\' ∨ c = ')') (rest other : List Char) :
      Alike (c :: rest) (c :: other)
  | same (c : Char) {rest other : List Char} (alike : Alike rest other) :
      Alike (c :: rest) (c :: other)

namespace Alike

variable {rest other : List Char}

theorem append (alike : Alike rest other) (before : List Char) :
    Alike (before ++ rest) (before ++ other) := by
  induction before with
  | nil => exact alike
  | cons c before ih => exact ih.same c

theorem dropWhile (alike : Alike rest other) {passes : Char → Bool}
    (stops : passes '\\' = false ∧ passes ')' = false) :
    rest.takeWhile passes = other.takeWhile passes ∧
      Alike (rest.dropWhile passes) (other.dropWhile passes) := by
  induction alike with
  | stop c stop rest other =>
      have fails : passes c = false := by
        rcases stop with rfl | rfl
        · exact stops.1
        · exact stops.2
      simp only [List.takeWhile_cons, List.dropWhile_cons, fails]
      exact ⟨rfl, .stop c stop rest other⟩
  | same c alike ih =>
      simp only [List.takeWhile_cons, List.dropWhile_cons]
      split
      · exact ⟨congrArg (c :: ·) ih.1, ih.2⟩
      · exact ⟨rfl, alike.same c⟩

theorem of_mem (closes : ')' ∈ rest) (tail : List Char) : Alike rest (rest ++ tail) := by
  induction rest with
  | nil => exact absurd closes List.not_mem_nil
  | cons c rest ih =>
      rcases List.mem_cons.mp closes with closing | later
      · exact .stop c (.inr closing.symm) _ _
      · exact (ih later).same c

theorem head {c : Char} (alike : Alike (c :: rest) other) : ∃ tail, other = c :: tail := by
  cases alike with
  | stop c stops rest other => exact ⟨other, rfl⟩
  | same => exact ⟨_, rfl⟩

end Alike

/-- What is read of a source is the same if something alike is left of it. -/
def ReadsTo {γ : Type} (read result : List Char → γ) (input rest : List Char) : Prop :=
  ∃ used, input = used ++ rest ∧ ∀ other, Alike rest other → read (used ++ other) = result other

namespace ReadsTo

variable {γ : Type} {read result : List Char → γ} {input rest : List Char}

theorem here (reads : ∀ other, Alike rest other → read other = result other) :
    ReadsTo read result rest rest :=
  ⟨[], rfl, reads⟩

theorem ended (input : List Char) : ReadsTo read result input [] :=
  ⟨input, (List.append_nil input).symm, fun _ impossible => nomatch impossible⟩

theorem taken (used : List Char) (reads : ∀ other, read (used ++ other) = result other) :
    ReadsTo read result (used ++ rest) rest :=
  ⟨used, rfl, fun other _ => reads other⟩

theorem map {δ : Type} (reads : ReadsTo read result input rest) (make : γ → δ) :
    ReadsTo (fun input => make (read input)) (fun rest => make (result rest)) input rest := by
  obtain ⟨used, taken, reads⟩ := reads
  exact ⟨used, taken, fun other alike => congrArg make (reads other alike)⟩

theorem onward (before : List Char) {inner : List Char → γ}
    (reads : ReadsTo inner result input rest) (same : ∀ other, read (before ++ other) = inner other) :
    ReadsTo read result (before ++ input) rest := by
  obtain ⟨used, taken, reads⟩ := reads
  refine ⟨before ++ used, by rw [taken, List.append_assoc], ?_⟩
  intro other alike
  rw [List.append_assoc, same, reads other alike]

theorem sameHead {c : Char} {inner : List Char → γ} (reads : ReadsTo inner result (c :: input) rest)
    (same : ∀ other, read (c :: other) = inner (c :: other)) :
    ReadsTo read result (c :: input) rest := by
  obtain ⟨used, taken, reads⟩ := reads
  refine ⟨used, taken, ?_⟩
  intro other alike
  have whole := alike.append used
  rw [← taken] at whole
  obtain ⟨tail, head⟩ := whole.head
  rw [← reads other alike, head, same]

theorem mapped {α β : Type} {first : List Char → Except PatternError (α × List Char)} {value : α}
    (reads : ReadsTo first (fun rest => .ok (value, rest)) input rest) (make : α → β) :
    ReadsTo (fun input => first input >>= fun found => pure (make found.1, found.2))
      (fun rest => .ok (make value, rest)) input rest :=
  reads.map fun outcome => outcome >>= fun found => pure (make found.1, found.2)

end ReadsTo

theorem dropWhile_readsTo (passes : Char → Bool) (input : List Char) :
    ReadsTo (fun input => (input.takeWhile passes, input.dropWhile passes))
      (fun rest => (input.takeWhile passes, rest)) input (input.dropWhile passes) := by
  induction input with
  | nil => exact ⟨[], rfl, fun other impossible => nomatch impossible⟩
  | cons c input ih =>
      by_cases fits : passes c = true
      · rw [List.takeWhile_cons_of_pos fits, List.dropWhile_cons_of_pos fits]
        obtain ⟨used, taken, reads⟩ := ih
        refine ⟨c :: used, congrArg (c :: ·) taken, ?_⟩
        intro other alike
        have reads := reads other alike
        simp only [Prod.mk.injEq] at reads
        simp only [List.cons_append, List.takeWhile_cons_of_pos fits,
          List.dropWhile_cons_of_pos fits, reads]
      · rw [List.takeWhile_cons_of_neg fits, List.dropWhile_cons_of_neg fits]
        apply ReadsTo.here
        intro other alike
        cases alike with
        | stop => simp only [List.takeWhile_cons_of_neg fits, List.dropWhile_cons_of_neg fits]
        | same => simp only [List.takeWhile_cons_of_neg fits, List.dropWhile_cons_of_neg fits]

theorem drop_takeWhile (passes : Char → Bool) (input : List Char) :
    input.drop (input.takeWhile passes).length = input.dropWhile passes := by
  induction input with
  | nil => rfl
  | cons c input ih =>
      by_cases fits : passes c = true
      · rw [List.takeWhile_cons_of_pos fits, List.dropWhile_cons_of_pos fits]
        exact ih
      · rw [List.takeWhile_cons_of_neg fits, List.dropWhile_cons_of_neg fits]
        rfl

theorem takeWhile_again (passes : Char → Bool) (input : List Char) :
    ∃ used, input = used ++ input.dropWhile passes ∧
      ∀ other, Alike (input.dropWhile passes) other →
        (used ++ other).takeWhile passes = input.takeWhile passes ∧
          (used ++ other).drop (input.takeWhile passes).length = other := by
  obtain ⟨used, taken, reads⟩ := dropWhile_readsTo passes input
  refine ⟨used, taken, ?_⟩
  intro other alike
  have reads := Prod.mk.inj (reads other alike)
  refine ⟨reads.1, ?_⟩
  rw [← reads.1, drop_takeWhile, reads.2]

/-! ### Numbers -/

theorem digitValue?_stop {c : Char} (stops : c = '\\' ∨ c = ')') : digitValue? c = none := by
  rcases stops with rfl | rfl <;> decide

theorem takeDigits_cons (base most : Nat) (c : Char) (rest : List Char) :
    takeDigits base (most + 1) (c :: rest) =
      match (digitValue? c).filter (· < base) with
      | some digit => (digit :: (takeDigits base most rest).1, (takeDigits base most rest).2)
      | none => ([], c :: rest) := rfl

theorem takeDigits_readsTo {base most : Nat} {input rest : List Char} {digits : List Nat}
    (read : takeDigits base most input = (digits, rest)) :
    ReadsTo (takeDigits base most) (fun rest => (digits, rest)) input rest := by
  induction most generalizing input digits with
  | zero =>
      cases read
      exact .here fun other _ => rfl
  | succ most ih =>
      cases input with
      | nil =>
          cases read
          exact ⟨[], rfl, fun other impossible => nomatch impossible⟩
      | cons c input =>
          rw [takeDigits_cons] at read
          cases value : (digitValue? c).filter (· < base) with
          | none =>
              rw [value] at read
              cases read
              apply ReadsTo.here
              intro other alike
              cases alike with
              | stop => rw [takeDigits_cons, value]
              | same => rw [takeDigits_cons, value]
          | some digit =>
              rw [value] at read
              obtain ⟨used, split_, reads⟩ := @ih input (takeDigits base most input).1 (by
                rw [← (Prod.mk.inj read).2])
              refine ⟨c :: used, congrArg (c :: ·) split_, ?_⟩
              intro other alike
              rw [List.cons_append, takeDigits_cons, value, reads other alike, ← (Prod.mk.inj read).1]

def isDigitOf (base : Nat) (c : Char) : Bool :=
  ((digitValue? c).filter (· < base)).isSome

theorem takeDigits_eq (base : Nat) (chars : List Char) :
    takeDigits base chars.length chars =
      ((chars.takeWhile (isDigitOf base)).filterMap digitValue?,
        chars.dropWhile (isDigitOf base)) := by
  induction chars with
  | nil => rfl
  | cons c rest ih =>
      rw [List.length_cons, takeDigits_cons]
      cases value : (digitValue? c).filter (· < base) with
      | none =>
          have other : ¬ isDigitOf base c = true := by
            rw [isDigitOf, value]
            exact Bool.false_ne_true
          rw [List.takeWhile_cons_of_neg other, List.dropWhile_cons_of_neg other]
          rfl
      | some digit =>
          have fits : isDigitOf base c = true := by
            rw [isDigitOf, value]
            rfl
          have same := (Option.filter_eq_some_iff.mp value).1
          rw [List.takeWhile_cons_of_pos fits, List.dropWhile_cons_of_pos fits,
            List.filterMap_cons_some same, ih]

/-- The number that some digits make up, if there are any. -/
def numberOf (digits : List Nat) : Option Nat :=
  if digits.isEmpty then none else some (ofDigits 10 digits)

theorem takeNumber?_eq (chars : List Char) :
    takeNumber? chars =
      (numberOf ((chars.takeWhile (isDigitOf 10)).filterMap digitValue?),
        chars.dropWhile (isDigitOf 10)) := by
  rw [takeNumber?, takeDigits_eq]
  cases (chars.takeWhile (isDigitOf 10)).filterMap digitValue? <;> rfl

theorem takeNumber?_readsTo {input rest : List Char} {number : Option Nat}
    (read : takeNumber? input = (number, rest)) :
    ReadsTo takeNumber? (fun rest => (number, rest)) input rest := by
  have reads := (dropWhile_readsTo (isDigitOf 10) input).map fun found =>
    (numberOf (found.1.filterMap digitValue?), found.2)
  rw [takeNumber?_eq] at read
  cases read
  simpa only [← takeNumber?_eq] using reads

theorem octalByte_readsTo {most : Nat} {input rest : List Char} {token : Token}
    (read : octalByte most input = .ok (token, rest)) :
    ReadsTo (octalByte most) (fun rest => .ok (token, rest)) input rest := by
  simp only [octalByte] at read
  split at read
  · cases read
  · rename_i small
    cases read
    obtain ⟨used, taken, reads⟩ := takeDigits_readsTo (Prod.eta (takeDigits 8 most input)).symm
    refine ⟨used, taken, ?_⟩
    intro other alike
    simp only [octalByte, reads other alike, if_neg small]

theorem isDigitOf_ten {c : Char} (digit : c.isDigit = true) : isDigitOf 10 c = true := by
  have small : c.toNat - 48 < 10 := by
    simp only [Char.isDigit, Bool.and_eq_true, decide_eq_true_eq, ge_iff_le,
      UInt32.le_iff_toNat_le] at digit
    have bound : c.toNat ≤ 57 := digit.2
    omega
  simp [isDigitOf, digitValue?, digit, small]

theorem isDigitOf_ten_eq (c : Char) : isDigitOf 10 c = c.isDigit := by
  cases digit : c.isDigit with
  | true => exact isDigitOf_ten digit
  | false =>
      unfold isDigitOf digitValue?
      rw [digit, if_neg Bool.false_ne_true]
      split
      · rename_i lower
        simp only [Bool.and_eq_true, decide_eq_true_eq, Char.le_def, UInt32.le_iff_toNat_le] at lower
        have low : 97 ≤ c.toNat := lower.1
        simp only [Option.filter_some, decide_eq_true_eq]
        rw [if_neg (by omega)]
        rfl
      split
      · rename_i upper
        simp only [Bool.and_eq_true, decide_eq_true_eq, Char.le_def, UInt32.le_iff_toNat_le] at upper
        have low : 65 ≤ c.toNat := upper.1
        simp only [Option.filter_some, decide_eq_true_eq]
        rw [if_neg (by omega)]
        rfl
      · rfl

theorem isDigitOf_stop {c : Char} (base : Nat) (stops : c = '\\' ∨ c = ')') :
    isDigitOf base c = false := by
  rw [isDigitOf, digitValue?_stop stops]
  rfl

/-- The numbers that alike texts start with are the same, and what follows them is alike. -/
theorem takeNumber?_alike {rest other : List Char} (alike : Alike rest other) :
    (takeNumber? other).1 = (takeNumber? rest).1 ∧
      Alike (takeNumber? rest).2 (takeNumber? other).2 := by
  have same := alike.dropWhile ⟨isDigitOf_stop 10 (.inl rfl), isDigitOf_stop 10 (.inr rfl)⟩
  rw [takeNumber?_eq, takeNumber?_eq, same.1]
  exact ⟨rfl, same.2⟩

theorem takeNumber?_digit_readsTo {c : Char} {input rest : List Char} {number : Option Nat}
    (digit : c.isDigit = true) (read : takeNumber? (c :: input) = (number, rest)) :
    ReadsTo (fun input => takeNumber? (c :: input)) (fun rest => (number, rest)) input rest := by
  have fits := isDigitOf_ten digit
  rw [takeNumber?_eq, List.takeWhile_cons_of_pos fits, List.dropWhile_cons_of_pos fits] at read
  cases read
  obtain ⟨used, taken, reads⟩ := dropWhile_readsTo (isDigitOf 10) input
  refine ⟨used, taken, ?_⟩
  intro other alike
  have reads := Prod.mk.inj (reads other alike)
  simp only [takeNumber?_eq, List.takeWhile_cons_of_pos fits, List.dropWhile_cons_of_pos fits,
    reads.1, reads.2]

theorem octalByte_digit_readsTo {c : Char} {most : Nat} {input rest : List Char} {token : Token}
    (digit : isDigitOf 8 c = true) (read : octalByte (most + 1) (c :: input) = .ok (token, rest)) :
    ReadsTo (fun input => octalByte (most + 1) (c :: input)) (fun rest => .ok (token, rest))
      input rest := by
  obtain ⟨value, same⟩ := Option.isSome_iff_exists.mp digit
  simp only [octalByte, takeDigits_cons, same] at read
  split at read
  · cases read
  · rename_i small
    cases read
    obtain ⟨used, taken, reads⟩ := takeDigits_readsTo (Prod.eta (takeDigits 8 most input)).symm
    refine ⟨used, taken, ?_⟩
    intro other alike
    simp only [octalByte, takeDigits_cons, same, reads other alike, if_neg small]

theorem isDigitOf_eight {c : Char} (digit : c.isDigit = true)
    (ordinary : ¬ (c = '8' ∨ c = '9')) : isDigitOf 8 c = true := by
  have small : c.toNat - 48 < 8 := by
    have bounds := digit
    simp only [Char.isDigit, Bool.and_eq_true, decide_eq_true_eq, ge_iff_le,
      UInt32.le_iff_toNat_le] at bounds
    have most : c.toNat ≤ 57 := bounds.2
    have eight : c.toNat ≠ 56 := fun same => ordinary (.inl (Char.toNat_inj.mp same))
    have nine : c.toNat ≠ 57 := fun same => ordinary (.inr (Char.toNat_inj.mp same))
    omega
  simp [isDigitOf, digitValue?, digit, small]

theorem numberEscape_eq (ignoreCase : Bool) (groups : GroupNames) (c : Char) (input : List Char) :
    numberEscape ignoreCase groups c input =
      match (takeNumber? (c :: input)).1 with
      | some number =>
        if (number ≤ lastReference && (number ≤ groups.count || number ≤ 9)) = true then
          .ok (.node (.reference [number] ignoreCase), (takeNumber? (c :: input)).2)
        else if (c = '8' || c = '9') = true then .ok (.char c, input)
        else octalByte 3 (c :: input)
      | none => .ok (.char c, input) := by
  unfold numberEscape
  rcases takeNumber? (c :: input) with ⟨_ | _, _⟩ <;> rfl

theorem numberEscape_readsTo {ignoreCase : Bool} {groups : GroupNames} {c : Char}
    {input rest : List Char} {token : Token} (digit : c.isDigit = true)
    (read : numberEscape ignoreCase groups c input = .ok (token, rest)) :
    ReadsTo (numberEscape ignoreCase groups c) (fun rest => .ok (token, rest)) input rest := by
  have same : ∀ {other : List Char}, Alike input other →
      (takeNumber? (c :: other)).1 = (takeNumber? (c :: input)).1 :=
    fun alike => (takeNumber?_alike (alike.same c)).1
  rw [numberEscape_eq] at read
  cases found : (takeNumber? (c :: input)).1 with
  | none =>
      rw [found] at read
      cases read
      apply ReadsTo.here
      intro other alike
      rw [numberEscape_eq, same alike, found]
  | some number =>
      rw [found] at read
      dsimp only at read
      split at read
      · rename_i refers
        cases read
        obtain ⟨used, taken, reads⟩ := takeNumber?_digit_readsTo digit (Prod.eta _).symm
        refine ⟨used, taken, ?_⟩
        intro other alike
        have reads := reads other alike
        dsimp only at reads
        rw [numberEscape_eq, reads, found]
        exact if_pos refers
      · rename_i refers
        split at read
        · rename_i ordinary
          cases read
          apply ReadsTo.here
          intro other alike
          rw [numberEscape_eq, same alike, found]
          dsimp only
          rw [if_neg refers, if_pos ordinary]
        · rename_i ordinary
          have octal := isDigitOf_eight digit (by simpa using ordinary)
          obtain ⟨used, taken, reads⟩ := octalByte_digit_readsTo octal read
          refine ⟨used, taken, ?_⟩
          intro other alike
          rw [numberEscape_eq, same (taken ▸ alike.append used), found]
          dsimp only
          rw [if_neg refers, if_neg ordinary]
          exact reads other alike

end Highlight.Pattern
