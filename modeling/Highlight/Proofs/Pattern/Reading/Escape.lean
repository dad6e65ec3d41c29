import Highlight.Proofs.Pattern.Reading.Name

set_option autoImplicit false

/-! Reading what stands after a backslash. -/

namespace Highlight.Pattern

open Outcome

theorem keyCode_readsTo {input rest : List Char} {code : Nat}
    (read : keyCode input = .ok (code, rest)) :
    ReadsTo keyCode (fun rest => .ok (code, rest)) input rest := by
  fun_induction keyCode input generalizing code with
  | case7 => cases read; exact .taken ['c', '?'] fun _ => rfl
  | case8 => cases read; exact .taken ['C', '-', '?'] fun _ => rfl
  | case9 after ih =>
      obtain ⟨⟨code, rest⟩, found, read⟩ := bind_eq_ok.mp read
      cases read
      exact ((ih found).mapped controlCode).onward ['c', '\\'] fun _ => rfl
  | case10 after ih =>
      obtain ⟨⟨code, rest⟩, found, read⟩ := bind_eq_ok.mp read
      cases read
      exact ((ih found).mapped controlCode).onward ['C', '-', '\\'] fun _ => rfl
  | case11 key after question backslash =>
      cases read
      apply ReadsTo.taken ['c', key]
      intro other
      rw [List.cons_append, List.singleton_append, keyCode] <;> assumption
  | case12 key after question backslash =>
      cases read
      apply ReadsTo.taken ['C', '-', key]
      intro other
      rw [List.cons_append, List.cons_append, List.singleton_append, keyCode] <;> assumption
  | case14 after ih =>
      obtain ⟨⟨code, rest⟩, found, read⟩ := bind_eq_ok.mp read
      cases read
      exact ((ih found).mapped metaCode).onward ['M', '-', '\\'] fun _ => rfl
  | case15 key after backslash =>
      cases read
      apply ReadsTo.taken ['M', '-', key]
      intro other
      rw [List.cons_append, List.cons_append, List.singleton_append, keyCode]
      assumption
  | case17 c after single _ _ _ _ _ _ _ _ pair =>
      cases read
      have control : c ≠ 'c' := by
        intro same
        cases rest with
        | nil => exact single same rfl
        | cons key rest => exact pair key rest same rfl
      apply ReadsTo.taken [c]
      intro other
      rw [List.singleton_append, keyCode] <;> (intros; contradiction)
  | _ => cases read

/-- What is put before the rest of a source is little against what was taken of it: it closes no class
and no group, ends in a brace where that does not, and is longer by no more than a bound. -/
structure PutBack (used back : List Char) (more : Nat) : Prop where
  bracket : ']' ∉ back
  parenthesis : ')' ∉ back
  apart : back = [] ∨ back.getLast? = some (Char.ofNat 123) ∧
    ∃ c, used.getLast? = some c ∧ c ≠ Char.ofNat 123
  length : back.length ≤ used.length + more

namespace PutBack

theorem nothing (used : List Char) (more : Nat) : PutBack used [] more :=
  ⟨List.not_mem_nil, List.not_mem_nil, .inl rfl, Nat.zero_le _⟩

theorem onward {used back : List Char} {more less : Nat} (put : PutBack used back more)
    (before : List Char) (bound : more ≤ less + before.length) :
    PutBack (before ++ used) back less := by
  constructor
  · exact put.bracket
  · exact put.parenthesis
  · rcases put.apart with none | ⟨brace, c, last, other⟩
    · exact .inl none
    · refine .inr ⟨brace, c, ?_, other⟩
      rw [List.getLast?_append, last]
      rfl
  · have length := put.length
    rw [List.length_append]
    omega

end PutBack

/-- What is read of a source is the same if something alike is left of it; some characters are put
before what is left. -/
def ReadsBack {γ : Type} (more : Nat) (read result : List Char → γ) (input back rest : List Char) :
    Prop :=
  ∃ used, input = used ++ rest ∧ PutBack used back more ∧
    ∀ other, Alike rest other → read (used ++ other) = result (back ++ other)

namespace ReadsBack

variable {γ : Type} {more less : Nat} {read result : List Char → γ} {input back rest : List Char}

theorem ofReadsTo (reads : ReadsTo read result input rest) :
    ReadsBack more read result input [] rest := by
  obtain ⟨used, taken, reads⟩ := reads
  exact ⟨used, taken, .nothing used more, reads⟩

theorem behind (before : List Char) {inner : List Char → γ}
    (reads : ReadsBack more inner result input back rest) (bound : more ≤ less + before.length)
    (same : ∀ other, Alike input other → read (before ++ other) = inner other) :
    ReadsBack less read result (before ++ input) back rest := by
  obtain ⟨used, taken, put, reads⟩ := reads
  refine ⟨before ++ used, by rw [taken, List.append_assoc], put.onward before bound, ?_⟩
  intro other alike
  have whole := alike.append used
  rw [← taken] at whole
  rw [List.append_assoc, same _ whole, reads other alike]

theorem onward (before : List Char) {inner : List Char → γ}
    (reads : ReadsBack more inner result input back rest) (bound : more ≤ less + before.length)
    (same : ∀ other, read (before ++ other) = inner other) :
    ReadsBack less read result (before ++ input) back rest :=
  reads.behind before bound fun other _ => same other

theorem sameHead {c : Char} {inner : List Char → γ}
    (reads : ReadsBack more inner result (c :: input) back rest)
    (same : ∀ other, read (c :: other) = inner (c :: other)) :
    ReadsBack more read result (c :: input) back rest := by
  apply reads.behind [] (Nat.le_refl more)
  intro other alike
  obtain ⟨tail, rfl⟩ := alike.head
  exact same tail

theorem ended {other : List Char → γ} (reads : ReadsBack more read result [] back rest)
    (before : List Char) (bound : more ≤ less + before.length) :
    ReadsBack less other result before back rest := by
  obtain ⟨used, taken, put, _⟩ := reads
  obtain ⟨rfl, rfl⟩ := List.append_eq_nil_iff.mp taken.symm
  have put := put.onward before bound
  rw [List.append_nil] at put
  exact ⟨before, (List.append_nil before).symm, put, fun _ impossible => nomatch impossible⟩

end ReadsBack

theorem takeDigits_length (base most : Nat) (input : List Char) :
    (takeDigits base most input).1.length + (takeDigits base most input).2.length =
      input.length := by
  induction most generalizing input with
  | zero => exact Nat.zero_add _
  | succ most ih =>
      cases input with
      | nil => rfl
      | cons c input =>
          rw [takeDigits_cons]
          split
          · have length := ih input
            simp only [List.length_cons]
            omega
          · exact Nat.zero_add _

theorem all_of_dropWhile {passes : Char → Bool} {input used : List Char}
    (taken : input = used ++ input.dropWhile passes) : ∀ c ∈ used, passes c = true := by
  have same : used = input.takeWhile passes := by
    have whole : used ++ input.dropWhile passes =
        input.takeWhile passes ++ input.dropWhile passes := by
      rw [← taken, List.takeWhile_append_dropWhile]
    exact List.append_cancel_right whole
  rw [same]
  exact List.all_eq_true.mp List.all_takeWhile

theorem last_ne_brace (before : List Char) {c : Char} {dividers : List Char}
    (first : c ≠ Char.ofNat 123) (divide : ∀ c ∈ dividers, isNumberDivider c = true) :
    ∃ last, (before ++ c :: dividers).getLast? = some last ∧ last ≠ Char.ofNat 123 := by
  have member := List.getLast_mem (List.cons_ne_nil c dividers)
  rw [List.getLast?_append, List.getLast?_eq_some_getLast (List.cons_ne_nil c dividers)]
  refine ⟨_, rfl, ?_⟩
  rcases List.mem_cons.mp member with same | among
  · rw [same]
    exact first
  · intro brace
    have divides := divide _ among
    rw [brace] at divides
    exact absurd divides (by decide)

/-- Where a number in braces is not the last one, the escape is put before the next one. -/
theorem PutBack.reopen {mark : Char} {before used : List Char} {more : Nat} (bracket : mark ≠ ']')
    (parenthesis : mark ≠ ')') (sign : before = [] ∨ before = ['-'])
    (last : ∃ c, used.getLast? = some c ∧ c ≠ Char.ofNat 123)
    (length : before.length + 3 ≤ used.length + more) :
    PutBack used (before ++ ['\\', mark, Char.ofNat 123]) more := by
  constructor
  · rcases sign with rfl | rfl <;> simp [bracket.symm]
  · rcases sign with rfl | rfl <;> simp [parenthesis.symm]
  · refine .inr ⟨?_, last⟩
    rw [List.getLast?_append]
    rfl
  · rw [List.length_append]
    exact length

/-- What follows the digits of a number in braces, from the first character that is no divider. -/
def behindDividers (mark : Char) (base : Nat) (inClass : Bool) (code : Nat) (c : Char)
    (next : List Char) : Except PatternError (Option (Nat × List Char)) :=
  match next with
  | [] => .error .badCodePoint
  | d :: beyond =>
      if d = Char.ofNat 125 then .ok (some (code, beyond))
      else if inClass && d = '-' then
        .ok (some (code, '-' :: (['\\', mark, Char.ofNat 123] ++ beyond.dropWhile isNumberDivider)))
      else if isNumberDivider c && ((digitValue? d).filter (· < base)).isSome then
        .ok (some (code, ['\\', mark, Char.ofNat 123] ++ next))
      else .error .badCodePoint

theorem behindDividers_readsBack {mark c : Char} {base number code : Nat} {inClass : Bool}
    {beyond after : List Char} (bracket : mark ≠ ']') (parenthesis : mark ≠ ')')
    (read : behindDividers mark base inClass number c ((c :: beyond).dropWhile isNumberDivider) =
      .ok (some (code, after))) :
    ∃ back rest, after = back ++ rest ∧
      ReadsBack 3
        (fun next => behindDividers mark base inClass number c (next.dropWhile isNumberDivider))
        (fun after => .ok (some (code, after))) (c :: beyond) back rest := by
  obtain ⟨divided, dividing, skips⟩ := dropWhile_readsTo isNumberDivider (c :: beyond)
  have all := all_of_dropWhile dividing
  have skips {other : List Char}
      (alike : Alike ((c :: beyond).dropWhile isNumberDivider) other) :
      (divided ++ other).dropWhile isNumberDivider = other :=
    (Prod.mk.inj (skips other alike)).2
  generalize (c :: beyond).dropWhile isNumberDivider = next at read dividing skips
  simp only [behindDividers] at read
  split at read
  · cases read
  rename_i d further
  split at read
  · rename_i closing
    cases read
    refine ⟨[], after, rfl, .ofReadsTo ⟨divided ++ [d], by simp [dividing], ?_⟩⟩
    intro other alike
    simp only [List.append_assoc, List.singleton_append, skips (alike.same d), behindDividers,
      if_pos closing]
  rename_i closing
  split at read
  · rename_i hyphen
    cases read
    obtain ⟨dividers, more, skipsMore⟩ := dropWhile_readsTo isNumberDivider further
    have minus : d ≠ Char.ofNat 123 := by
      simp only [Bool.and_eq_true, decide_eq_true_eq] at hyphen
      rw [hyphen.2]
      decide
    refine ⟨['-'] ++ ['\\', mark, Char.ofNat 123], _, rfl, divided ++ d :: dividers, ?_,
      .reopen bracket parenthesis (.inr rfl) ?_ ?_, ?_⟩
    · rw [dividing, List.append_assoc, List.cons_append, ← more]
    · exact last_ne_brace divided minus (all_of_dropWhile more)
    · simp only [List.length_append, List.length_cons, List.length_nil]
      omega
    · intro other alike
      have rest : Alike (d :: further) (d :: (dividers ++ other)) := by
        conv => lhs; rw [more]
        exact (alike.append dividers).same d
      have skipsMore := (Prod.mk.inj (skipsMore other alike)).2
      simp only [List.append_assoc, List.cons_append, skips rest, behindDividers, if_neg closing,
        if_pos hyphen, skipsMore, List.nil_append]
  rename_i hyphen
  split at read
  · rename_i another
    cases read
    simp only [Bool.and_eq_true] at another
    -- The character behind the digits is a divider here, so that one was taken.
    have divides : divided ≠ [] := by
      rintro rfl
      obtain ⟨rfl, _⟩ := List.cons.inj dividing
      have blank := another.1
      simp only [isNumberDivider, Bool.or_eq_true, decide_eq_true_eq] at blank
      rcases blank with rfl | rfl <;> exact absurd another.2 Bool.false_ne_true
    obtain ⟨first, dividers, rfl⟩ := List.exists_cons_of_ne_nil divides
    refine ⟨[] ++ ['\\', mark, Char.ofNat 123], _, rfl, first :: dividers, dividing,
      .reopen bracket parenthesis (.inl rfl) ?_ ?_, ?_⟩
    · apply last_ne_brace [] _ fun c among => all c (List.mem_cons_of_mem _ among)
      intro brace
      have divides := all first List.mem_cons_self
      rw [brace] at divides
      exact absurd divides (by decide)
    · simp only [List.length_cons, List.length_nil]
      omega
    · intro other alike
      obtain ⟨tail, rfl⟩ := alike.head
      simp only [skips alike, behindDividers, if_neg closing, if_neg hyphen,
        if_pos (Bool.and_eq_true_iff.mpr another), List.nil_append]
  · cases read

theorem bracedNumber_readsBack {mark : Char} {base most : Nat} {inClass : Bool}
    {input after : List Char} {code : Nat} (bracket : mark ≠ ']') (parenthesis : mark ≠ ')')
    (read : bracedNumber mark base most inClass input = .ok (some (code, after))) :
    ∃ back rest, after = back ++ rest ∧
      ReadsBack 2 (bracedNumber mark base most inClass) (fun after => .ok (some (code, after)))
        input back rest := by
  obtain ⟨used, taken, reads⟩ := takeDigits_readsTo (Prod.eta (takeDigits base most input)).symm
  simp only [bracedNumber] at read
  cases found : takeDigits base most input with
  | mk digits left => ?_
  rw [found] at read taken reads
  dsimp only at read taken reads
  split at read
  · cases read
  rename_i some_
  have digit : 0 < used.length := by
    rw [List.length_pos_iff]
    rintro rfl
    rw [List.nil_append] at taken
    have length := takeDigits_length base most input
    rw [found, taken] at length
    exact some_ (List.isEmpty_iff.mpr (List.eq_nil_of_length_eq_zero (by simpa using length)))
  split at read
  · cases read
  rename_i c beyond
  split at read
  · cases read
  rename_i short
  split at read
  · rename_i brace
    cases read
    refine ⟨[], after, rfl, .ofReadsTo ⟨used ++ [c], by simp [taken], ?_⟩⟩
    intro other alike
    have reads := reads (c :: other) (alike.same c)
    simp only [List.append_assoc, List.singleton_append, bracedNumber, reads, if_neg some_,
      if_neg short, if_pos brace]
  rename_i brace
  -- What follows the digits does not look back at them.
  change behindDividers mark base inClass (ofDigits base digits) c
    ((c :: beyond).dropWhile isNumberDivider) = .ok (some (code, after)) at read
  obtain ⟨back, rest, left, behind⟩ := behindDividers_readsBack bracket parenthesis read
  refine ⟨back, rest, left, ?_⟩
  rw [taken]
  apply behind.behind used (by omega)
  intro other alike
  obtain ⟨tail, rfl⟩ := alike.head
  simp only [bracedNumber, reads _ alike, if_neg some_, if_neg short, if_neg brace]
  rfl

theorem takeDigits_nil {base most : Nat} {input rest : List Char}
    (read : takeDigits base most input = ([], rest)) : rest = input := by
  cases most with
  | zero => exact (Prod.mk.inj read).2.symm
  | succ most =>
      cases input with
      | nil => exact (Prod.mk.inj read).2.symm
      | cons c input =>
          rw [takeDigits_cons] at read
          split at read
          · cases (Prod.mk.inj read).1
          · exact (Prod.mk.inj read).2.symm

/-- A text that is read to its end as digits is like no other one. -/
theorem not_alike_of_takeDigits {base most : Nat} {input other : List Char} {digits : List Nat}
    (read : takeDigits base most input = (digits, [])) : ¬ Alike input other := by
  intro alike
  induction alike generalizing most digits with
  | stop c stops rest other =>
      cases most with
      | zero => cases (Prod.mk.inj read).2
      | succ most =>
          rw [takeDigits_cons, digitValue?_stop stops] at read
          cases (Prod.mk.inj read).2
  | same c alike ih =>
      cases most with
      | zero => cases (Prod.mk.inj read).2
      | succ most =>
          rw [takeDigits_cons] at read
          split at read
          · exact ih (Prod.ext rfl (Prod.mk.inj read).2)
          · cases (Prod.mk.inj read).2

theorem Alike.bracedNumber {mark : Char} {base most : Nat} {inClass : Bool}
    {input other : List Char} (alike : Alike input other)
    (read : bracedNumber mark base most inClass input = .ok none) :
    Highlight.Pattern.bracedNumber mark base most inClass other = .ok none := by
  obtain ⟨used, taken, reads⟩ := takeDigits_readsTo (Prod.eta (takeDigits base most input)).symm
  simp only [Highlight.Pattern.bracedNumber] at read ⊢
  cases found : takeDigits base most input with
  | mk digits left =>
      rw [found] at read taken reads
      dsimp only at read taken reads
      split at read
      · rename_i none
        obtain rfl := List.isEmpty_iff.mp none
        obtain rfl := takeDigits_nil found
        obtain rfl := List.self_eq_append_left.mp taken
        have reads := reads other alike
        rw [List.nil_append] at reads
        rw [reads]
        rfl
      · split at read
        · exact absurd alike (not_alike_of_takeDigits found)
        · repeat' split at read
          all_goals cases read

theorem ReadsTo.tail {γ : Type} {read result : List Char → γ} {c : Char} {input rest : List Char}
    (reads : ReadsTo read result (c :: input) rest) (shorter : rest.length ≤ input.length) :
    ReadsTo (fun input => read (c :: input)) result input rest := by
  obtain ⟨used, taken, reads⟩ := reads
  cases used with
  | nil =>
      rw [← taken.trans (List.nil_append rest)] at shorter
      exact absurd shorter (Nat.not_succ_le_self _)
  | cons d used =>
      obtain ⟨rfl, left⟩ := List.cons.inj taken
      exact ⟨used, left, reads⟩

theorem keyCode_length {input rest : List Char} {code : Nat}
    (read : keyCode input = .ok (code, rest)) : rest.length < input.length := by
  fun_induction keyCode input generalizing code with
  | case9 after ih | case10 after ih | case14 after ih =>
      obtain ⟨⟨code, rest⟩, found, read⟩ := bind_eq_ok.mp read
      cases read
      have shorter := ih found
      simp only [List.length_cons]
      omega
  | _ =>
      cases read
      try (simp only [List.length_cons]; omega)

def bracedEscape (inClass : Bool) (c : Char) (most base : Nat) (beyond : List Char) :
    Except PatternError (Written × List Char) := do
  match ← bracedNumber c base most inClass beyond with
  | some (code, after) => return (.point code, after)
  | none => return (.point c.toNat, Char.ofNat 123 :: beyond)

theorem bracedEscape_readsBack {inClass : Bool} {c : Char} {most base : Nat}
    {read : List Char → Except PatternError (Written × List Char)} {beyond after : List Char}
    {written : Written} (bracket : c ≠ ']') (parenthesis : c ≠ ')')
    (same : ∀ beyond, read (Char.ofNat 123 :: beyond) = bracedEscape inClass c most base beyond)
    (found : read (Char.ofNat 123 :: beyond) = .ok (written, after)) :
    ∃ back rest, after = back ++ rest ∧ (back = [] ∨ ∃ code, written = .point code) ∧
      ReadsBack 1 read (fun after => .ok (written, after)) (Char.ofNat 123 :: beyond) back rest := by
  rw [same] at found
  obtain ⟨number, numbered, found⟩ := bind_eq_ok.mp found
  cases number with
  | none =>
      cases found
      refine ⟨[], _, rfl, .inl rfl, .ofReadsTo (.here ?_)⟩
      intro other alike
      cases alike with
      | stop _ stops => exact absurd stops (by decide)
      | same _ alike =>
          rw [same, bracedEscape, alike.bracedNumber numbered]
          rfl
  | some number =>
      cases found
      obtain ⟨back, rest, left, reads⟩ := bracedNumber_readsBack bracket parenthesis numbered
      refine ⟨back, rest, left, .inr ⟨_, rfl⟩,
        ReadsBack.onward [Char.ofNat 123] ?_ (Nat.le_refl 2) same⟩
      obtain ⟨used, taken, apart, reads⟩ := reads
      refine ⟨used, taken, apart, ?_⟩
      intro other alike
      rw [bracedEscape, reads other alike]
      rfl

def keyEscape (c : Char) (input : List Char) : Except PatternError (Written × List Char) := do
  let (code, after) ← keyCode (c :: input)
  return (.point code, after)

theorem keyEscape_readsTo {c : Char} {input rest : List Char} {written : Written}
    (read : keyEscape c input = .ok (written, rest)) :
    ReadsTo (keyEscape c) (fun rest => .ok (written, rest)) input rest := by
  obtain ⟨⟨code, after⟩, found, read⟩ := bind_eq_ok.mp read
  cases read
  have shorter := Nat.le_of_lt_succ (keyCode_length found)
  exact ((keyCode_readsTo found).tail shorter).mapped Written.point

theorem keyEscape_length {c : Char} {input rest : List Char} {written : Written}
    (read : keyEscape c input = .ok (written, rest)) : rest.length ≤ input.length := by
  obtain ⟨⟨code, after⟩, found, read⟩ := bind_eq_ok.mp read
  cases read
  exact Nat.le_of_lt_succ (keyCode_length found)

theorem sharedEscape_key (inClass : Bool) {c : Char} (hex : c ≠ 'x') (octal : c ≠ 'o')
    (code : c ≠ 'u') (input : List Char) : sharedEscape inClass c input = keyEscape c input := by
  unfold sharedEscape
  split <;> first | contradiction | rfl

def codeEscape (input : List Char) : Except PatternError (Written × List Char) :=
  match takeDigits 16 4 input with
  | ([a, b, c, d], after) => .ok (.point (ofDigits 16 [a, b, c, d]), after)
  | _ => .error .badCodePoint

theorem codeEscape_readsTo {input rest : List Char} {written : Written}
    (read : codeEscape input = .ok (written, rest)) :
    ReadsTo codeEscape (fun rest => .ok (written, rest)) input rest := by
  obtain ⟨used, taken, reads⟩ := takeDigits_readsTo (Prod.eta (takeDigits 16 4 input)).symm
  unfold codeEscape at read
  split at read
  · rename_i a b c d after found
    cases read
    rw [found] at taken reads
    refine ⟨used, taken, ?_⟩
    intro other alike
    rw [codeEscape, reads other alike]
  · cases read

theorem sharedEscape_readsBack {inClass : Bool} {c : Char} {input after : List Char}
    {written : Written} (read : sharedEscape inClass c input = .ok (written, after)) :
    ∃ back rest, after = back ++ rest ∧ (back = [] ∨ ∃ code, written = .point code) ∧
      ReadsBack 1 (sharedEscape inClass c) (fun after => .ok (written, after)) input back rest := by
  cases input with
  | nil =>
      have key : sharedEscape inClass c [] = keyEscape c [] := by
        unfold sharedEscape
        split <;> first | contradiction | rfl
      rw [key] at read
      obtain rfl := List.eq_nil_of_length_eq_zero (Nat.le_zero.mp (keyEscape_length read))
      exact ⟨[], [], rfl, .inl rfl, .ofReadsTo ⟨[], rfl, fun other impossible => nomatch impossible⟩⟩
  | cons d input =>
      by_cases hex : c = 'x'
      · subst hex
        by_cases brace : d = Char.ofNat 123
        · subst brace
          exact bracedEscape_readsBack (by decide) (by decide) (fun _ => rfl) read
        · have same : ∀ input, sharedEscape inClass 'x' (d :: input) =
              .ok (.byte (ofDigits 16 (takeDigits 16 2 (d :: input)).1) 16,
                (takeDigits 16 2 (d :: input)).2) := by
            intro input
            simp only [sharedEscape, if_neg brace]
          rw [same] at read
          cases read
          have digits := takeDigits_readsTo (Prod.eta (takeDigits 16 2 (d :: input))).symm
          have reads := digits.map fun found =>
            (Except.ok (Written.byte (ofDigits 16 found.1) 16, found.2) :
              Except PatternError (Written × List Char))
          exact ⟨[], _, rfl, .inl rfl, .ofReadsTo (reads.sameHead same)⟩
      by_cases octal : c = 'o'
      · subst octal
        by_cases brace : d = Char.ofNat 123
        · subst brace
          exact bracedEscape_readsBack (by decide) (by decide) (fun _ => rfl) read
        · have same : ∀ input, sharedEscape inClass 'o' (d :: input) = keyEscape 'o' (d :: input) := by
            intro input
            simp only [sharedEscape, if_neg brace]
            rfl
          rw [same] at read
          exact ⟨[], after, rfl, .inl rfl, .ofReadsTo ((keyEscape_readsTo read).sameHead same)⟩
      by_cases code : c = 'u'
      · subst code
        exact ⟨[], after, rfl, .inl rfl, .ofReadsTo ((codeEscape_readsTo read).sameHead fun _ => rfl)⟩
      · rw [sharedEscape_key inClass hex octal code] at read
        refine ⟨[], after, rfl, .inl rfl, .ofReadsTo ?_⟩
        have reads := keyEscape_readsTo read
        exact reads.sameHead fun _ => sharedEscape_key inClass hex octal code _

/-- An escape that stands for a character or a byte, or for a group by its number. -/
def plainEscape (options : Options) (groups : GroupNames) (c : Char) (input : List Char) :
    Except PatternError (Token × List Char) :=
  if c.isDigit then numberEscape options.ignoreCase groups c input
  else do
    let (written, after) ← sharedEscape false c input
    match written with
    | .point code => return (.char (← charOfCode code), after)
    | .byte value _ => return (.byte value, after)

theorem plainEscape_readsBack {options : Options} {groups : GroupNames} {c : Char}
    {input after : List Char} {token : Token}
    (read : plainEscape options groups c input = .ok (token, after)) :
    ∃ back rest, after = back ++ rest ∧
      ReadsBack 1 (plainEscape options groups c) (fun after => .ok (token, after)) input back rest := by
  by_cases digit : c.isDigit = true
  · have same : plainEscape options groups c = numberEscape options.ignoreCase groups c := by
      funext input
      rw [plainEscape, if_pos digit]
    rw [same] at read ⊢
    exact ⟨[], after, rfl, .ofReadsTo (numberEscape_readsTo digit read)⟩
  · rw [plainEscape, if_neg digit] at read
    obtain ⟨⟨written, left⟩, found, read⟩ := bind_eq_ok.mp read
    obtain ⟨back, rest, same, _, used, taken, apart, reads⟩ := sharedEscape_readsBack found
    cases written with
    | point code =>
        obtain ⟨character, valid, read⟩ := bind_eq_ok.mp read
        cases read
        refine ⟨back, rest, same, used, taken, apart, ?_⟩
        intro other alike
        rw [plainEscape, if_neg digit, reads other alike, ok_bind]
        dsimp only
        rw [valid]
        rfl
    | byte value base =>
        cases read
        refine ⟨back, rest, same, used, taken, apart, ?_⟩
        intro other alike
        rw [plainEscape, if_neg digit, reads other alike, ok_bind]
        rfl

theorem escapeToken_plain {options : Options} {groups : GroupNames} {c d : Char}
    (kind : letterKind? .wordInText c = none) (zero : c ≠ '0')
    (letter : c ∉ ['b', 'B', 'A', 'z', 'Z', 'G', 'K', 'R', 'N', 'O', 'p', 'P', 'X', 'y', 'Y'])
    (marked : c = 'k' ∨ c = 'g' → d ≠ '<' ∧ d ≠ '\'') (input : List Char) :
    escapeToken options groups (c :: d :: input) = plainEscape options groups c (d :: input) := by
  simp only [List.mem_cons, List.not_mem_nil, or_false, not_or] at letter
  simp only [escapeToken, kind]
  split
  all_goals first | rfl | simp_all

/-- A property, or the letter before it where no brace follows. -/
def propertyEscape (c brace : Char) (input : List Char) : Except PatternError (Token × List Char) :=
  if brace = Char.ofNat 123 then do
    let (set, after) ← property (c = 'P') input
    return (.node (.set set), after)
  else .ok (.char c, brace :: input)

theorem propertyEscape_readsTo {read : List Char → Except PatternError (Token × List Char)}
    {c brace : Char} {input rest : List Char} {token : Token}
    (same : ∀ brace input, read (c :: brace :: input) = propertyEscape c brace input)
    (found : read (c :: brace :: input) = .ok (token, rest)) :
    ReadsTo read (fun rest => .ok (token, rest)) (c :: brace :: input) rest := by
  rw [same] at found
  by_cases opens : brace = Char.ofNat 123
  · rw [propertyEscape, if_pos opens] at found
    obtain ⟨⟨set, after⟩, named, found⟩ := bind_eq_ok.mp found
    cases found
    apply ((property_readsTo named).mapped fun set => Token.node (.set set)).onward [c, brace]
    intro other
    exact (same brace other).trans (if_pos opens)
  · rw [propertyEscape, if_neg opens] at found
    cases found
    refine ⟨[c], rfl, ?_⟩
    intro other alike
    obtain ⟨tail, rfl⟩ := alike.head
    exact (same brace tail).trans (if_neg opens)

theorem escapeToken_readsBack {options : Options} {groups : GroupNames} {input after : List Char}
    {token : Token} (read : escapeToken options groups input = .ok (token, after)) :
    ∃ back rest, after = back ++ rest ∧
      ReadsBack 0 (escapeToken options groups) (fun after => .ok (token, after)) input back rest := by
  cases input with
  | nil => cases read
  | cons c input =>
      cases kind : letterKind? .wordInText c with
      | some set =>
          simp only [escapeToken, kind] at read
          cases read
          refine ⟨[], _, rfl, .ofReadsTo (.taken [c] ?_)⟩
          intro other
          simp only [List.singleton_append, escapeToken, kind]
      | none =>
          have found := read
          simp only [escapeToken, kind] at read
          split at read
          case h_11 after mark =>
              exact ⟨[], _, rfl,
                .ofReadsTo ((namedReference_readsTo read).onward ['k', '<'] fun _ => rfl)⟩
          case h_12 after mark =>
              exact ⟨[], _, rfl,
                .ofReadsTo ((namedReference_readsTo read).onward ['k', '\''] fun _ => rfl)⟩
          case h_13 =>
              exact ⟨[], _, rfl, .ofReadsTo (propertyEscape_readsTo (fun _ _ => rfl) found)⟩
          case h_14 =>
              exact ⟨[], _, rfl, .ofReadsTo (propertyEscape_readsTo (fun _ _ => rfl) found)⟩
          case h_15 =>
              exact ⟨[], _, rfl, .ofReadsTo ((octalByte_readsTo read).onward ['0'] fun _ => rfl)⟩
          case h_16 | h_17 | h_18 | h_19 | h_20 => cases read
          case h_21 b nb a z lz g k r n o zero x y ly angle quote p np call quotedCall =>
              obtain ⟨back, rest, same, reads⟩ := plainEscape_readsBack read
              refine ⟨back, rest, same, ?_⟩
              cases input with
              | nil => exact reads.ended [c] (Nat.le_refl 1)
              | cons d input =>
                  have letter :
                      c ∉ ['b', 'B', 'A', 'z', 'Z', 'G', 'K', 'R', 'N', 'O', 'p', 'P', 'X', 'y', 'Y'] := by
                    simp only [List.mem_cons, List.not_mem_nil, or_false, not_or]
                    exact ⟨b, nb, a, z, lz, g, k, r, n, o, fun same => p d input same rfl,
                      fun same => np d input same rfl, x, y, ly⟩
                  have marked : c = 'k' ∨ c = 'g' → d ≠ '<' ∧ d ≠ '\'' := by
                    rintro (same | same)
                    · exact ⟨fun mark => angle input same (mark ▸ rfl),
                        fun mark => quote input same (mark ▸ rfl)⟩
                    · exact ⟨fun mark => call input same (mark ▸ rfl),
                        fun mark => quotedCall input same (mark ▸ rfl)⟩
                  have plain := @escapeToken_plain options groups c d kind zero letter marked
                  exact (reads.sameHead plain).onward [c] (Nat.le_refl 1) fun _ => rfl
          all_goals
            cases read
            exact ⟨[], _, rfl, .ofReadsTo (.taken [_] fun _ => rfl)⟩

end Highlight.Pattern
