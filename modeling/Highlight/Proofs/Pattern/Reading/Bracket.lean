import Highlight.Proofs.Pattern.Reading.Escape

set_option autoImplicit false

/-! Reading bracket classes. A class is read up to the bracket that closes it, and what stands behind that
bracket is of no account. -/

namespace Highlight.Pattern

open Outcome

/-! ### Bytes -/

/-- A byte written to base sixteen or eight. -/
def byteOf (base most : Nat) (input : List Char) : Except PatternError (Option (Nat × List Char)) :=
  if 255 < ofDigits base (takeDigits base most input).1 then .error .bigNumber
  else .ok (some (ofDigits base (takeDigits base most input).1, (takeDigits base most input).2))

theorem byteOf_readsTo {base most byte : Nat} {input rest : List Char}
    (read : byteOf base most input = .ok (some (byte, rest))) :
    ReadsTo (byteOf base most) (fun rest => .ok (some (byte, rest))) input rest := by
  unfold byteOf at read
  split at read
  · cases read
  · rename_i small
    cases read
    obtain ⟨used, taken, reads⟩ := takeDigits_readsTo (Prod.eta (takeDigits base most input)).symm
    refine ⟨used, taken, ?_⟩
    intro other alike
    simp only [byteOf, reads other alike, if_neg small]

theorem nextByte?_eight (c : Char) (input : List Char) :
    nextByte? 8 ('\\' :: c :: input) =
      if ('0' ≤ c && c ≤ '7') = true then byteOf 8 3 (c :: input) else .ok none := by
  unfold nextByte?
  split
  · rename_i same
    obtain ⟨_, same⟩ := List.cons.inj same
    obtain ⟨rfl, _⟩ := List.cons.inj same
    rfl
  · rename_i c rest _ same
    obtain ⟨_, same⟩ := List.cons.inj same
    obtain ⟨rfl, rfl⟩ := List.cons.inj same
    rfl
  · rename_i other
    exact absurd rfl (other c input)

theorem nextByte?_readsTo {base byte : Nat} {input rest : List Char}
    (read : nextByte? base input = .ok (some (byte, rest))) :
    ReadsTo (nextByte? base) (fun rest => .ok (some (byte, rest))) input rest := by
  have found := read
  unfold nextByte? at read
  split at read
  · rename_i c input
    split at read
    · rename_i hex
      cases read
      have digits := takeDigits_readsTo (Prod.eta (takeDigits 16 2 (c :: input))).symm
      have reads := digits.map fun found =>
        (Except.ok (some (ofDigits 16 found.1, found.2)) :
          Except PatternError (Option (Nat × List Char)))
      have same : ∀ input, nextByte? base ('\\' :: 'x' :: c :: input) =
          .ok (some (ofDigits 16 (takeDigits 16 2 (c :: input)).1,
            (takeDigits 16 2 (c :: input)).2)) := by
        intro input
        simp only [nextByte?, if_pos hex]
      exact ReadsTo.onward ['\\', 'x'] (reads.sameHead same) fun _ => rfl
    · cases read
  · rename_i c input _
    split at read
    · rename_i octal
      simp only [Bool.and_eq_true, decide_eq_true_eq] at octal
      obtain ⟨⟨rfl, low⟩, high⟩ := octal
      have same : ∀ input, nextByte? 8 ('\\' :: c :: input) = byteOf 8 3 (c :: input) := by
        intro input
        rw [nextByte?_eight, if_pos (by simp [low, high])]
      rw [same] at found
      exact ReadsTo.onward ['\\'] ((byteOf_readsTo found).sameHead same) fun _ => rfl
    · cases read
  · cases read

theorem followingBytes_readsTo {base count : Nat} {input rest : List Char} {bytes : List Nat}
    (read : followingBytes base count input = .ok (bytes, rest)) :
    ReadsTo (followingBytes base count) (fun rest => .ok (bytes, rest)) input rest := by
  induction count generalizing input bytes with
  | zero =>
      cases read
      exact .here fun _ _ => rfl
  | succ count ih =>
      obtain ⟨next, found, read⟩ := bind_eq_ok.mp read
      cases next with
      | none => cases read
      | some next =>
          obtain ⟨⟨others, after⟩, followed, read⟩ := bind_eq_ok.mp read
          cases read
          obtain ⟨used, taken, reads⟩ := nextByte?_readsTo found
          obtain ⟨more, left, readsMore⟩ := ih followed
          refine ⟨used ++ more, by rw [taken, left, List.append_assoc], ?_⟩
          intro other alike
          have whole : Alike next.2 (more ++ other) := by
            rw [left]
            exact alike.append more
          rw [List.append_assoc, followingBytes, reads _ whole, ok_bind]
          dsimp only
          rw [readsMore other alike]
          rfl

namespace ClassState

theorem addWritten_readsTo {state next : ClassState} {written : Written} {input rest : List Char}
    (read : state.addWritten written input = .ok (next, rest)) :
    ReadsTo (state.addWritten written) (fun rest => .ok (next, rest)) input rest := by
  cases written with
  | point code =>
      obtain ⟨added, found, read⟩ := bind_eq_ok.mp read
      cases read
      apply ReadsTo.here
      intro other _
      rw [addWritten, found]
      rfl
  | byte lead base =>
      obtain ⟨⟨others, after⟩, followed, read⟩ := bind_eq_ok.mp read
      dsimp only at read
      obtain ⟨used, taken, reads⟩ := followingBytes_readsTo followed
      split at read
      · rename_i none
        obtain ⟨added, found, read⟩ := bind_eq_ok.mp read
        cases read
        refine ⟨used, taken, ?_⟩
        intro other alike
        rw [addWritten, reads other alike, ok_bind]
        dsimp only
        rw [if_pos none, found]
        rfl
      · rename_i none
        split at read
        · rename_i c valid
          obtain ⟨added, found, read⟩ := bind_eq_ok.mp read
          cases read
          refine ⟨used, taken, ?_⟩
          intro other alike
          rw [addWritten, reads other alike, ok_bind]
          dsimp only
          rw [if_neg none, valid]
          dsimp only
          rw [found]
          rfl
        · cases read

end ClassState

def numberedMember (state : ClassState) (c : Char) (input : List Char) :
    Except PatternError (ClassState × List Char) := do
  match ← nextByte? 8 ('\\' :: c :: input) with
  | some (byte, after) => state.addWritten (.byte byte 8) after
  | none =>
    let (written, after) ← sharedEscape true c input
    state.addWritten written after

theorem isDigit_of_octal {c : Char} (octal : ('0' ≤ c && c ≤ '7') = true) : c.isDigit = true := by
  simp only [Bool.and_eq_true, decide_eq_true_eq, Char.le_def, UInt32.le_iff_toNat_le] at octal
  simp only [Char.isDigit, Bool.and_eq_true, decide_eq_true_eq, ge_iff_le, UInt32.le_iff_toNat_le]
  exact ⟨octal.1, Nat.le_trans octal.2 (by decide)⟩

theorem isDigitOf_octal {c : Char} (octal : ('0' ≤ c && c ≤ '7') = true) :
    isDigitOf 8 c = true := by
  apply isDigitOf_eight (isDigit_of_octal octal)
  rintro (rfl | rfl) <;> exact absurd octal (by decide)

theorem byteOf_length {base most byte : Nat} {c : Char} {input rest : List Char}
    (digit : isDigitOf base c = true)
    (read : byteOf base (most + 1) (c :: input) = .ok (some (byte, rest))) :
    rest.length ≤ input.length := by
  obtain ⟨value, same⟩ := Option.isSome_iff_exists.mp digit
  unfold byteOf at read
  split at read
  · cases read
  · cases read
    have length := takeDigits_length base most input
    rw [takeDigits_cons, same]
    dsimp only
    omega

theorem numberedMember_octal {state : ClassState} {c : Char} {input rest : List Char} {byte : Nat}
    (octal : ('0' ≤ c && c ≤ '7') = true)
    (found : byteOf 8 3 (c :: input) = .ok (some (byte, rest))) :
    numberedMember state c input = state.addWritten (.byte byte 8) rest := by
  rw [numberedMember, nextByte?_eight, if_pos octal, found]
  rfl

theorem numberedMember_shared {state : ClassState} {c : Char}
    (octal : ¬ ('0' ≤ c && c ≤ '7') = true) (input : List Char) :
    numberedMember state c input = sharedEscape true c input >>= fun found =>
      state.addWritten found.1 found.2 := by
  rw [numberedMember, nextByte?_eight, if_neg octal]
  rfl

theorem numberedMember_readsBack {state next : ClassState} {c : Char} {input after : List Char}
    (read : numberedMember state c input = .ok (next, after)) :
    ∃ back rest, after = back ++ rest ∧
      ReadsBack 1 (numberedMember state c) (fun after => .ok (next, after)) input back rest := by
  by_cases octal : ('0' ≤ c && c ≤ '7') = true
  · have some_ : ∃ value left, byteOf 8 3 (c :: input) = .ok (some (value, left)) := by
      rw [numberedMember, nextByte?_eight, if_pos octal] at read
      obtain ⟨byte, found, read⟩ := bind_eq_ok.mp read
      unfold byteOf at found ⊢
      split at found <;> cases found
      exact ⟨_, _, if_neg ‹_›⟩
    obtain ⟨value, left, found⟩ := some_
    rw [numberedMember_octal octal found] at read
    have shorter := byteOf_length (isDigitOf_octal octal) found
    obtain ⟨used, taken, reads⟩ := (byteOf_readsTo found).tail shorter
    obtain ⟨more, rfl, readsMore⟩ := ClassState.addWritten_readsTo read
    refine ⟨[], after, rfl, .ofReadsTo ⟨used ++ more, by rw [taken, List.append_assoc], ?_⟩⟩
    intro other alike
    rw [List.append_assoc, numberedMember_octal octal (reads _ (alike.append more))]
    exact readsMore other alike
  · rw [numberedMember_shared octal] at read
    obtain ⟨⟨written, left⟩, shared, read⟩ := bind_eq_ok.mp read
    obtain ⟨back, rest, same, single, used, taken, put, reads⟩ := sharedEscape_readsBack shared
    dsimp only at read
    rcases single with rfl | ⟨code, rfl⟩
    · obtain ⟨more, left, readsMore⟩ := ClassState.addWritten_readsTo read
      rw [same, List.nil_append] at left
      subst left
      refine ⟨[], after, rfl, .ofReadsTo ⟨used ++ more, by rw [taken, List.append_assoc], ?_⟩⟩
      intro other alike
      rw [List.append_assoc, numberedMember_shared octal, reads _ (alike.append more), ok_bind]
      exact readsMore other alike
    · obtain ⟨added, adds, read⟩ := bind_eq_ok.mp read
      cases read
      refine ⟨back, rest, same, used, taken, put, ?_⟩
      intro other alike
      rw [numberedMember_shared octal, reads other alike, ok_bind]
      dsimp only [ClassState.addWritten]
      rw [adds]
      rfl

theorem classEscape_plain {state : ClassState} {c : Char} (kind : letterKind? .word c = none)
    (letter : c ≠ 'p' ∧ c ≠ 'P') (input : List Char) :
    classEscape state (c :: input) = numberedMember state c input := by
  simp only [classEscape, kind]
  split
  · exact absurd rfl letter.1
  · exact absurd rfl letter.2
  · rfl

/-- A property as a member of a class, or the letter before it where no brace follows. -/
def propertyMember (state : ClassState) (c brace : Char) (input : List Char) :
    Except PatternError (ClassState × List Char) :=
  if brace = Char.ofNat 123 then do
    let (set, after) ← property (c = 'P') input
    return (← state.addKind set, after)
  else do return (← state.addCode c.toNat, brace :: input)

theorem propertyMember_readsTo {state next : ClassState}
    {read : List Char → Except PatternError (ClassState × List Char)} {c brace : Char}
    {input rest : List Char}
    (same : ∀ brace input, read (c :: brace :: input) = propertyMember state c brace input)
    (found : read (c :: brace :: input) = .ok (next, rest)) :
    ReadsTo read (fun rest => .ok (next, rest)) (c :: brace :: input) rest := by
  rw [same] at found
  by_cases opens : brace = Char.ofNat 123
  · rw [propertyMember, if_pos opens] at found
    obtain ⟨⟨set, after⟩, named, found⟩ := bind_eq_ok.mp found
    obtain ⟨added, adds, found⟩ := bind_eq_ok.mp found
    cases found
    have reads := (property_readsTo named).map fun outcome =>
      outcome >>= fun found => state.addKind found.1 >>= fun added => pure (added, found.2)
    simp only [ok_bind, adds] at reads
    apply reads.onward [c, brace]
    intro other
    exact (same brace other).trans (if_pos opens)
  · rw [propertyMember, if_neg opens] at found
    obtain ⟨added, adds, found⟩ := bind_eq_ok.mp found
    cases found
    refine ⟨[c], rfl, ?_⟩
    intro other alike
    obtain ⟨tail, rfl⟩ := alike.head
    rw [List.singleton_append, same, propertyMember, if_neg opens, adds]
    rfl

theorem classEscape_readsBack {state next : ClassState} {input after : List Char}
    (read : classEscape state input = .ok (next, after)) :
    ∃ back rest, after = back ++ rest ∧
      ReadsBack 0 (classEscape state) (fun after => .ok (next, after)) input back rest := by
  cases input with
  | nil => cases read
  | cons c input =>
      cases kind : letterKind? .word c with
      | some set =>
          simp only [classEscape, kind] at read
          obtain ⟨added, adds, read⟩ := bind_eq_ok.mp read
          cases read
          refine ⟨[], _, rfl, .ofReadsTo (.taken [c] ?_)⟩
          intro other
          simp only [List.singleton_append, classEscape, kind, adds]
          rfl
      | none =>
          have found := read
          simp only [classEscape, kind] at read
          split at read
          · exact ⟨[], _, rfl, .ofReadsTo (propertyMember_readsTo (fun _ _ => rfl) found)⟩
          · exact ⟨[], _, rfl, .ofReadsTo (propertyMember_readsTo (fun _ _ => rfl) found)⟩
          · rename_i lower upper
            obtain ⟨back, rest, same, reads⟩ := numberedMember_readsBack read
            refine ⟨back, rest, same, ?_⟩
            cases input with
            | nil => exact reads.ended [c] (Nat.le_refl 1)
            | cons d input =>
                have letter : c ≠ 'p' ∧ c ≠ 'P' :=
                  ⟨fun same => lower d input same rfl, fun same => upper d input same rfl⟩
                exact reads.onward [c] (Nat.le_refl 1) (classEscape_plain kind letter)

/-! ### Members -/

/-- A text that ends with the bracket that closes a class. What is read of it does not depend on what
stands behind it. -/
def Closes (chars : List Char) : Prop :=
  chars.getLast? = some ']'

namespace Closes

variable {chars : List Char}

theorem ne_nil (closes : Closes chars) : chars ≠ [] := by
  rintro rfl
  cases closes

theorem append (closes : Closes chars) (before : List Char) : Closes (before ++ chars) := by
  rw [Closes, List.getLast?_append, closes]
  rfl

theorem mem (closes : Closes chars) : ']' ∈ chars :=
  List.mem_of_getLast? closes

theorem tail {c : Char} (closes : Closes (c :: chars)) (other : c ≠ ']') : Closes chars := by
  cases chars with
  | nil => exact absurd (Option.some.inj closes) other
  | cons d chars => exact closes

/-- Of a text that stands before another one, what is taken does not depend on the other one. -/
theorem dropWhile (closes : Closes chars) {passes : Char → Bool} (stops : passes ']' = false)
    (behind : List Char) :
    (chars ++ behind).dropWhile passes = chars.dropWhile passes ++ behind ∧
      Closes (chars.dropWhile passes) := by
  induction chars with
  | nil => exact absurd rfl closes.ne_nil
  | cons c chars ih =>
      by_cases fits : passes c = true
      · have other : c ≠ ']' := by
          rintro rfl
          exact absurd fits (by simp [stops])
        rw [List.cons_append, List.dropWhile_cons_of_pos fits, List.dropWhile_cons_of_pos fits]
        exact ih (closes.tail other)
      · rw [List.cons_append, List.dropWhile_cons_of_neg fits, List.dropWhile_cons_of_neg fits]
        exact ⟨rfl, closes⟩

end Closes

theorem endsRange_closes {chars : List Char} (closes : Closes chars) (behind : List Char) :
    ClassState.endsRange (chars ++ behind) = ClassState.endsRange chars := by
  cases chars with
  | nil => exact absurd rfl closes.ne_nil
  | cons c chars =>
      cases chars with
      | nil =>
          obtain rfl := Option.some.inj closes
          rfl
      | cons d chars =>
          have last : ∀ tail : List Char,
              ClassState.endsRange (c :: d :: tail) = (c == ']' || c == '&' && d == '&') := by
            intro tail
            unfold ClassState.endsRange
            split <;> simp_all
          exact (last _).trans (last _).symm

theorem addHyphen_congr (state : ClassState) {rest other : List Char}
    (same : ClassState.endsRange rest = ClassState.endsRange other) : state.addHyphen rest = state.addHyphen other := by
  unfold ClassState.addHyphen
  rw [same]

def endsKind (length : Nat) (beyond : List Char) : Bool :=
  match beyond with
  | ':' :: ']' :: _ => beyond.length < length
  | _ => false

theorem endsKind_closes {chars : List Char} (closes : Closes chars) (length : Nat)
    (behind : List Char) :
    endsKind (length + behind.length) (chars ++ behind) = endsKind length chars := by
  cases chars with
  | nil => exact absurd rfl closes.ne_nil
  | cons c chars =>
      cases chars with
      | nil =>
          obtain rfl := Option.some.inj closes
          rfl
      | cons d chars =>
          by_cases ends : c = ':' ∧ d = ']'
          · obtain ⟨rfl, rfl⟩ := ends
            simp only [List.cons_append, endsKind, List.length_cons, List.length_append,
              decide_eq_decide]
            omega
          · have not : ∀ (length : Nat) (tail : List Char), endsKind length (c :: d :: tail) = false := by
              intro length tail
              unfold endsKind
              split
              · simp_all
              · rfl
            exact (not _ _).trans (not _ _).symm

theorem opensNamedKind_eq (c : Char) (chars : List Char) :
    opensNamedKind (c :: chars) = endsKind (chars.length + 1)
      ((if c = '^' then chars else c :: chars).dropWhile Unicode.isAlphabetic) := by
  by_cases circumflex : c = '^'
  · subst circumflex
    rfl
  · rw [if_neg circumflex]
    unfold opensNamedKind
    split
    · rename_i same
      exact absurd (List.cons.inj same).1 circumflex
    · rfl

theorem opensNamedKind_closes {chars : List Char} (closes : Closes chars) (behind : List Char) :
    opensNamedKind (chars ++ behind) = opensNamedKind chars := by
  cases chars with
  | nil => exact absurd rfl closes.ne_nil
  | cons c chars =>
      have bracket : Unicode.isAlphabetic ']' = false := by decide +kernel
      rw [List.cons_append, opensNamedKind_eq, opensNamedKind_eq, List.length_append]
      by_cases circumflex : c = '^'
      · have name := (closes.tail (by rw [circumflex]; decide)).dropWhile bracket behind
        rw [if_pos circumflex, if_pos circumflex, name.1, ← endsKind_closes name.2 _ behind]
        congr 1
        omega
      · have name := closes.dropWhile bracket behind
        rw [if_neg circumflex, if_neg circumflex, ← List.cons_append, name.1,
          ← endsKind_closes name.2 _ behind]
        congr 1
        omega

theorem dropWord?_eq_some_iff {word input rest : List Char} :
    dropWord? word input = some rest ↔ input = word ++ rest := by
  induction word generalizing input with
  | nil => exact Option.some_inj
  | cons c word ih =>
      cases input with
      | nil => simp [dropWord?]
      | cons d input =>
          simp only [dropWord?, List.cons_append, List.cons.injEq]
          split
          · rename_i same
            rw [ih]
            exact (and_iff_right same.symm).symm
          · rename_i other
            constructor
            · intro impossible
              cases impossible
            · rintro ⟨same, _⟩
              exact absurd same.symm other

/-- The name of a kind as it ends in a class. -/
def kindWord (kind : CharKind) : List Char :=
  kind.name.toList ++ [':', ']']

/-- None of the names goes on where another one has ended. -/
theorem kindWord_inj : ∀ first ∈ CharKind.all, ∀ second ∈ CharKind.all,
    kindWord first <+: kindWord second → kindWord first = kindWord second := by
  decide +kernel

def kindAt? (input : List Char) : Option (CharSet × List Char) :=
  CharKind.all.findSome? fun kind =>
    (dropWord? (kindWord kind) input).map fun after => (CharSet.ofKind kind, after)

theorem kindAt?_again {input rest : List Char} {set : CharSet}
    (found : kindAt? input = some (set, rest)) :
    ∃ word, input = word ++ rest ∧ ∀ other, kindAt? (word ++ other) = some (set, other) := by
  obtain ⟨earlier, kind, later, all, here, before⟩ := List.findSome?_eq_some_iff.mp found
  obtain ⟨after, dropped, same⟩ := Option.map_eq_some_iff.mp here
  cases same
  rw [dropWord?_eq_some_iff] at dropped
  refine ⟨kindWord kind, dropped, ?_⟩
  intro other
  apply List.findSome?_eq_some_iff.mpr
  refine ⟨earlier, kind, later, all, ?_, ?_⟩
  · rw [dropWord?_eq_some_iff.mpr rfl]
    rfl
  · intro first among
    have unmatched := Option.map_eq_none_iff.mp (before first among)
    rw [Option.map_eq_none_iff, Option.eq_none_iff_forall_ne_some]
    intro left again
    rw [dropWord?_eq_some_iff] at again
    have inside : first ∈ CharKind.all := by
      rw [all]
      exact List.mem_append_left _ among
    have also : kind ∈ CharKind.all := by
      rw [all]
      exact List.mem_append_right _ List.mem_cons_self
    have differs : ¬ kindWord first <+: kindWord kind := by
      rintro ⟨more, same⟩
      rw [dropped, ← same, List.append_assoc, dropWord?_eq_some_iff.mpr rfl] at unmatched
      cases unmatched
    rcases List.prefix_or_prefix_of_prefix ⟨left, again.symm⟩ ⟨other, rfl⟩ with shorter | longer
    · exact differs shorter
    · exact differs (kindWord_inj kind also first inside longer ▸ List.prefix_refl _)

def kindOf (negated : Bool) (input : List Char) : Except PatternError (CharSet × List Char) :=
  match kindAt? input with
  | some (set, after) => .ok (if negated then .complement set else set, after)
  | none => .error .badPosixClass

theorem kindOf_again {negated : Bool} {input rest : List Char} {set : CharSet}
    (read : kindOf negated input = .ok (set, rest)) :
    ∃ word, input = word ++ rest ∧ ∀ other, kindOf negated (word ++ other) = .ok (set, other) := by
  unfold kindOf at read
  split at read
  · rename_i found
    cases read
    obtain ⟨word, taken, again⟩ := kindAt?_again found
    refine ⟨word, taken, ?_⟩
    intro other
    rw [kindOf, again]
  · cases read

theorem kindOf_nil (negated : Bool) : kindOf negated [] = .error .badPosixClass := by
  have none : kindAt? [] = none := by decide +kernel
  rw [kindOf, none]

theorem namedKind_plain {c : Char} (plain : c ≠ '^') (input : List Char) :
    namedKind (c :: input) = kindOf false (c :: input) := by
  unfold namedKind
  split
  rename_i negated name found
  split at found
  · rename_i same
    exact absurd (List.cons.inj same).1 plain
  · cases found
    rfl

theorem namedKind_again {input rest : List Char} {set : CharSet}
    (read : namedKind input = .ok (set, rest)) :
    ∃ word, input = word ++ rest ∧ ∀ other, namedKind (word ++ other) = .ok (set, other) := by
  cases input with
  | nil =>
      change kindOf false [] = _ at read
      rw [kindOf_nil] at read
      cases read
  | cons c input =>
      by_cases circumflex : c = '^'
      · subst circumflex
        obtain ⟨word, taken, again⟩ := kindOf_again read
        exact ⟨'^' :: word, congrArg ('^' :: ·) taken, again⟩
      · rw [namedKind_plain circumflex] at read
        obtain ⟨word, taken, again⟩ := kindOf_again read
        cases word with
        | nil =>
            have impossible := again []
            rw [List.append_nil, kindOf_nil] at impossible
            cases impossible
        | cons d word =>
            obtain ⟨rfl, left⟩ := List.cons.inj taken
            refine ⟨c :: word, taken, ?_⟩
            intro other
            exact (namedKind_plain circumflex _).trans (again other)

/-! ### Classes -/

/-- What a class starts with behind a circumflex, if there is one. -/
def startOf (negated : Bool) (input : List Char) :
    Except PatternError (Bool × ClassState × List Char) :=
  match input with
  | ']' :: after =>
    if after.contains ']' then do
      let state ← ClassState.addCode {} ']'.toNat
      return (negated, state, after)
    else .error .emptyClass
  | _ => .ok (negated, {}, input)

/-- The start of a class is read in the same way before any text that goes on to the bracket which
closes the class. -/
theorem startOf_again {negated open_ : Bool} {state : ClassState} {input rest : List Char}
    (read : startOf negated input = .ok (open_, state, rest)) :
    ∃ used, input = used ++ rest ∧ ∀ {chars behind : List Char}, rest = chars ++ behind →
      Closes chars → ∀ other, startOf negated (used ++ (chars ++ other)) =
        .ok (open_, state, chars ++ other) := by
  cases input with
  | nil =>
      cases read
      refine ⟨[], rfl, ?_⟩
      intro chars behind same closes
      exact absurd (List.append_eq_nil_iff.mp same.symm).1 closes.ne_nil
  | cons c input =>
      by_cases bracket : c = ']'
      · subst bracket
        simp only [startOf] at read
        split at read
        · obtain ⟨first, found, read⟩ := bind_eq_ok.mp read
          cases read
          refine ⟨[']'], rfl, ?_⟩
          intro chars behind _ closes other
          have contains : (chars ++ other).contains ']' = true :=
            List.contains_iff_mem.mpr (List.mem_append_left _ closes.mem)
          rw [List.singleton_append, startOf, if_pos contains, found]
          rfl
        · cases read
      · have plain : ∀ input, startOf negated (c :: input) = .ok (negated, {}, c :: input) := by
          intro input
          unfold startOf
          split
          · rename_i same
            exact absurd (List.cons.inj same).1 bracket
          · rfl
        rw [plain] at read
        cases read
        refine ⟨[], rfl, ?_⟩
        intro chars behind same closes other
        obtain ⟨d, chars, rfl⟩ := List.exists_cons_of_ne_nil closes.ne_nil
        obtain ⟨rfl, _⟩ := List.cons.inj same
        exact plain _

theorem classStart_plain {c : Char} (plain : c ≠ '^') (input : List Char) :
    classStart (c :: input) = startOf false (c :: input) := by
  unfold classStart
  split
  rename_i negated rest found
  split at found
  · rename_i same
    exact absurd (List.cons.inj same).1 plain
  · cases found
    rfl

theorem classStart_again {negated : Bool} {state : ClassState} {input rest : List Char}
    (read : classStart input = .ok (negated, state, rest)) :
    ∃ used, input = used ++ rest ∧ ∀ {chars behind : List Char}, rest = chars ++ behind →
      Closes chars → ∀ other, classStart (used ++ (chars ++ other)) =
        .ok (negated, state, chars ++ other) := by
  cases input with
  | nil =>
      cases read
      refine ⟨[], rfl, ?_⟩
      intro chars behind same closes
      exact absurd (List.append_eq_nil_iff.mp same.symm).1 closes.ne_nil
  | cons c input =>
      by_cases circumflex : c = '^'
      · subst circumflex
        obtain ⟨used, taken, again⟩ := startOf_again read
        exact ⟨'^' :: used, congrArg ('^' :: ·) taken, again⟩
      · rw [classStart_plain circumflex] at read
        obtain ⟨used, taken, again⟩ := startOf_again read
        refine ⟨used, taken, ?_⟩
        intro chars behind same closes other
        obtain ⟨d, whole, first⟩ :=
          List.exists_cons_of_ne_nil (List.append_ne_nil_of_right_ne_nil used closes.ne_nil)
        have started := again same closes other
        rw [same, ← List.append_assoc, first] at taken
        obtain ⟨rfl, _⟩ := List.cons.inj taken
        rw [← List.append_assoc, first] at started ⊢
        exact (classStart_plain circumflex _).trans started

attribute [local simp] classMembers

def nestedMembers (steps : Nat) (state : ClassState) (input : List Char) :
    Except PatternError (CharSet × List Char) := do
  let (negated, nested, after) ← classStart input
  let (set, after) ← classMembers steps nested after
  classMembers steps (state.addNested (if negated then .complement set else set)) after

theorem classMembers_nested {steps : Nat} {state : ClassState} {input : List Char}
    (plain : ∀ name, input = ':' :: name → opensNamedKind name = false) :
    classMembers (steps + 1) state ('[' :: input) = nestedMembers steps state input := by
  cases input with
  | nil => rfl
  | cons c input =>
      by_cases colon : c = ':'
      · subst colon
        have unnamed := plain input rfl
        simp only [classMembers, unnamed, Bool.false_eq_true, if_false]
        rfl
      · rw [classMembers]
        · rfl
        · simp [colon]

theorem classMembers_named {steps : Nat} {state : ClassState} {name : List Char}
    (opens : opensNamedKind name = true) :
    classMembers (steps + 1) state ('[' :: ':' :: name) =
      namedKind name >>= fun found => state.addKind found.1 >>= fun next =>
        classMembers steps next found.2 := by
  simp [opens]

theorem classMembers_char {steps : Nat} {state : ClassState} {c : Char} {input : List Char}
    (plain : c ∉ [']', '\\', '-', '[']) (single : c = '&' → ∀ rest, input ≠ '&' :: rest) :
    classMembers (steps + 1) state (c :: input) =
      state.addCode c.toNat >>= fun next => classMembers steps next input := by
  simp only [List.mem_cons, List.not_mem_nil, or_false, not_or] at plain
  obtain ⟨bracket, backslash, hyphen, nested⟩ := plain
  rw [classMembers]
  · exact bracket
  · exact backslash
  · exact hyphen
  · intro rest same
    exact single same rest
  · intro rest same
    exact absurd same nested
  · exact nested

/-- The members that are read to the end of a class, in as many steps as they have characters. -/
def MembersTo (state : ClassState) (set : CharSet) (input rest : List Char) : Prop :=
  ∃ chars, input = chars ++ rest ∧ Closes chars ∧ ∀ {most : Nat} {other : List Char},
    Alike rest other → chars.length ≤ most →
      classMembers most state (chars ++ other) = .ok (set, other)

/-- A step takes some characters and goes on, however the class goes on to its end. -/
theorem MembersTo.step {state next : ClassState} {set : CharSet} {used input rest : List Char}
    (members : MembersTo next set input rest) (some_ : used ≠ [])
    (step : ∀ {chars behind : List Char}, input = chars ++ behind → Closes chars →
      ∀ steps other, classMembers (steps + 1) state (used ++ (chars ++ other)) =
        classMembers steps next (chars ++ other)) :
    MembersTo state set (used ++ input) rest := by
  obtain ⟨chars, taken, closes, again⟩ := members
  refine ⟨used ++ chars, by rw [taken, List.append_assoc], closes.append used, ?_⟩
  intro most other alike enough
  have length := List.length_pos_iff.mpr some_
  rw [List.length_append] at enough
  cases most with
  | zero => omega
  | succ most =>
      rw [List.append_assoc, step taken closes]
      exact again alike (by omega)

theorem MembersTo.escape {state next : ClassState} {set : CharSet} {input middle rest : List Char}
    (read : classEscape state input = .ok (next, middle)) (members : MembersTo next set middle rest) :
    MembersTo state set ('\\' :: input) rest := by
  obtain ⟨back, left, same, used, taken, put, reads⟩ := classEscape_readsBack read
  obtain ⟨chars, ends, closes, again⟩ := members
  -- The class goes on behind what has been put back, as that does not close it.
  rcases List.append_eq_append_iff.mp (same.symm.trans ends) with
    ⟨more, rfl, rfl⟩ | ⟨more, rfl, _⟩
  · have closesMore : Closes more := by
      cases more with
      | nil =>
          rw [List.append_nil] at closes
          exact absurd closes.mem put.bracket
      | cons c more =>
          rw [Closes, List.getLast?_append] at closes
          exact closes
    refine ⟨'\\' :: (used ++ more), by rw [taken, List.cons_append, List.append_assoc],
      closesMore.append ('\\' :: used), ?_⟩
    intro most other alike enough
    have length := put.length
    simp only [List.length_cons, List.length_append] at enough again
    cases most with
    | zero => omega
    | succ most =>
        have reads := reads (more ++ other) (alike.append more)
        change (classEscape state ((used ++ more) ++ other) >>= fun found =>
          classMembers most found.1 found.2) = _
        rw [List.append_assoc, reads, ok_bind, ← List.append_assoc]
        exact again alike (by omega)
  · exact absurd (List.mem_append_left more closes.mem) put.bracket

theorem MembersTo.nested {state nested : ClassState} {negated : Bool}
    {inner set : CharSet} {input after middle rest : List Char}
    (plain : ∀ name, input = ':' :: name → opensNamedKind name = false)
    (starts : classStart input = .ok (negated, nested, after))
    (members : MembersTo nested inner after middle)
    (others : MembersTo (state.addNested (if negated then .complement inner else inner)) set middle rest) :
    MembersTo state set ('[' :: input) rest := by
  obtain ⟨used, taken, startsAgain⟩ := classStart_again starts
  obtain ⟨chars, ends, closes, again⟩ := members
  obtain ⟨more, rfl, closesMore, againMore⟩ := others
  subst ends taken
  have whole : Closes (used ++ (chars ++ more)) := (closesMore.append chars).append used
  refine ⟨'[' :: (used ++ (chars ++ more)), by simp, whole.append ['['], ?_⟩
  intro most other alike enough
  simp only [List.length_cons, List.length_append] at enough
  cases most with
  | zero => omega
  | succ most =>
      have same : used ++ (chars ++ more) ++ other = used ++ (chars ++ (more ++ other)) := by
        simp only [List.append_assoc]
      have unnamed : ∀ name, used ++ (chars ++ more) ++ other = ':' :: name →
          opensNamedKind name = false := by
        intro name same
        obtain ⟨c, tail, first⟩ := List.exists_cons_of_ne_nil whole.ne_nil
        rw [first] at same whole
        rw [List.cons_append] at same
        obtain ⟨rfl, rfl⟩ := List.cons.inj same
        have closesTail := whole.tail (by decide)
        rw [opensNamedKind_closes closesTail, ← opensNamedKind_closes closesTail rest]
        apply plain
        rw [← List.cons_append, ← first]
        simp only [List.append_assoc]
      rw [List.cons_append, classMembers_nested unnamed, nestedMembers, same,
        startsAgain rfl closes, ok_bind]
      dsimp only
      rw [again (alike.append more) (by omega), ok_bind]
      exact againMore alike (by omega)

theorem MembersTo.hyphen {state next : ClassState} {set : CharSet} {input rest : List Char}
    (found : state.addHyphen input = .ok next) (members : MembersTo next set input rest) :
    MembersTo state set ('-' :: input) rest := by
  apply members.step (List.cons_ne_nil '-' [])
  intro chars behind taken closes steps other
  rw [taken, addHyphen_congr state (endsRange_closes closes behind)] at found
  change (state.addHyphen (chars ++ other) >>= fun next =>
    classMembers steps next (chars ++ other)) = _
  rw [addHyphen_congr state (endsRange_closes closes other), found, ok_bind]

theorem MembersTo.named {state next : ClassState} {set : CharSet} {name after rest : List Char}
    {kind : CharSet} (opens : opensNamedKind name = true) (found : namedKind name = .ok (kind, after))
    (adds : state.addKind kind = .ok next) (members : MembersTo next set after rest) :
    MembersTo state set ('[' :: ':' :: name) rest := by
  obtain ⟨word, rfl, again⟩ := namedKind_again found
  apply members.step (List.cons_ne_nil '[' (':' :: word))
  intro chars behind taken closes steps other
  have opensAgain : opensNamedKind (word ++ (chars ++ other)) = true := by
    rw [taken, ← List.append_assoc, opensNamedKind_closes (closes.append word)] at opens
    rw [← List.append_assoc, opensNamedKind_closes (closes.append word), opens]
  rw [List.cons_append, List.cons_append, classMembers_named opensAgain, again, ok_bind]
  dsimp only
  rw [adds, ok_bind]

theorem MembersTo.char {state next : ClassState} {set : CharSet} {c : Char} {input rest : List Char}
    (plain : c ∉ [']', '\\', '-', '[']) (single : c = '&' → ∀ rest, input ≠ '&' :: rest)
    (adds : state.addCode c.toNat = .ok next) (members : MembersTo next set input rest) :
    MembersTo state set (c :: input) rest := by
  apply members.step (List.cons_ne_nil c [])
  intro chars behind taken closes steps other
  have singleAgain : c = '&' → ∀ rest, chars ++ other ≠ '&' :: rest := by
    intro ampersand rest same
    obtain ⟨d, chars, rfl⟩ := List.exists_cons_of_ne_nil closes.ne_nil
    obtain ⟨rfl, _⟩ := List.cons.inj same
    exact single ampersand _ taken
  rw [List.singleton_append, classMembers_char plain singleAgain, adds, ok_bind]

theorem classMembers_membersTo {steps : Nat} {state : ClassState} {input rest : List Char}
    {set : CharSet} (read : classMembers steps state input = .ok (set, rest)) :
    MembersTo state set input rest := by
  induction steps generalizing state input rest set with
  | zero => cases input <;> cases read
  | succ steps ih =>
      cases input with
      | nil => cases read
      | cons c input =>
          by_cases bracket : c = ']'
          · subst bracket
            cases read
            refine ⟨[']'], rfl, rfl, ?_⟩
            intro most other _ enough
            cases most with
            | zero => cases enough
            | succ most => rfl
          by_cases backslash : c = '\\'
          · subst backslash
            obtain ⟨⟨next, middle⟩, found, read⟩ := bind_eq_ok.mp read
            exact .escape found (ih read)
          by_cases hyphen : c = '-'
          · subst hyphen
            obtain ⟨next, found, read⟩ := bind_eq_ok.mp read
            exact .hyphen found (ih read)
          by_cases nested : c = '['
          · subst nested
            by_cases named : ∃ name, input = ':' :: name ∧ opensNamedKind name = true
            · obtain ⟨name, rfl, opens⟩ := named
              rw [classMembers_named opens] at read
              obtain ⟨⟨kind, after⟩, found, read⟩ := bind_eq_ok.mp read
              obtain ⟨next, adds, goesOn⟩ := bind_eq_ok.mp read
              exact .named opens found adds (ih goesOn)
            · have plain : ∀ name, input = ':' :: name → opensNamedKind name = false := by
                intro name same
                rw [← Bool.not_eq_true]
                exact fun opens => named ⟨name, same, opens⟩
              rw [classMembers_nested plain] at read
              obtain ⟨⟨negated, nested, after⟩, starts, read⟩ := bind_eq_ok.mp read
              obtain ⟨⟨inner, middle⟩, found, read⟩ := bind_eq_ok.mp read
              exact .nested plain starts (ih found) (ih read)
          by_cases both : c = '&' ∧ ∃ rest, input = '&' :: rest
          · obtain ⟨rfl, input, rfl⟩ := both
            exact MembersTo.step (ih read) (List.cons_ne_nil '&' ['&']) fun _ _ _ _ => rfl
          · have plain : c ∉ [']', '\\', '-', '['] := by
              simp only [List.mem_cons, List.not_mem_nil, or_false, not_or]
              exact ⟨bracket, backslash, hyphen, nested⟩
            have single : c = '&' → ∀ rest, input ≠ '&' :: rest :=
              fun ampersand rest same => both ⟨ampersand, rest, same⟩
            rw [classMembers_char plain single] at read
            obtain ⟨next, adds, read⟩ := bind_eq_ok.mp read
            exact .char plain single adds (ih read)

theorem bracketClass_readsTo {foldCase : Bool} {input rest : List Char} {members : BracketClass}
    (read : bracketClass foldCase input = .ok (members, rest)) :
    ReadsTo (bracketClass foldCase) (fun rest => .ok (members, rest)) input rest := by
  obtain ⟨⟨negated, state, after⟩, starts, read⟩ := bind_eq_ok.mp read
  obtain ⟨⟨set, left⟩, found, read⟩ := bind_eq_ok.mp read
  obtain ⟨used, taken, startsAgain⟩ := classStart_again starts
  obtain ⟨chars, ends, closes, again⟩ := classMembers_membersTo found
  have same : left = rest := by
    cases negated <;> cases read <;> rfl
  subst same
  refine ⟨used ++ chars, by rw [taken, ends, List.append_assoc], ?_⟩
  intro other alike
  have enough : chars.length ≤ 5 * (used ++ (chars ++ other)).length + 1 := by
    simp only [List.length_append]
    omega
  rw [List.append_assoc, bracketClass, startsAgain ends closes, ok_bind]
  dsimp only
  rw [again alike enough, ok_bind]
  cases negated <;> cases read <;> rfl

end Highlight.Pattern
