import Highlight.Proofs.Pattern.Reading.Token
import Highlight.Proofs.Pattern.Walking

set_option autoImplicit false

/-! What the walk counts in the tokens that it can look into without harm. Between their first character
and their end there is none that it looks behind, but for the backslash of an escape and of a number in
braces that is put back. -/

namespace Highlight.Pattern

open Outcome

def counted (text : List Char) : Nat :=
  (raiseFrom 0 0 0 text).groups

theorem countGroups_eq (source : String) : countGroups source = counted source.toList := rfl

/-- A text ends in another one, and the walk looks behind no character before that. -/
def Skips (input rest : List Char) : Prop :=
  ∃ used, input = used ++ rest ∧ Plain used

namespace Skips

variable {input middle rest : List Char}

theorem refl (input : List Char) : Skips input input :=
  ⟨[], rfl, by decide⟩

theorem trans (first : Skips input middle) (second : Skips middle rest) : Skips input rest := by
  obtain ⟨used, rfl, plain⟩ := first
  obtain ⟨more, rfl, plainToo⟩ := second
  exact ⟨used ++ more, (List.append_assoc _ _ _).symm, plain.append plainToo⟩

theorem cons {c : Char} (plain : looksBehind c = false) (skips : Skips input rest) :
    Skips (c :: input) rest := by
  obtain ⟨used, rfl, others⟩ := skips
  refine ⟨c :: used, rfl, ?_⟩
  intro d among
  rcases List.mem_cons.mp among with rfl | among
  · exact plain
  · exact others d among

theorem counted (skips : Skips input rest) : counted input = counted rest := by
  obtain ⟨used, rfl, plain⟩ := skips
  simp [Pattern.counted, raiseFrom_plainText 0 plain]

end Skips

theorem dropWhile_skips (passes : Char → Bool)
    (others : passes '[' = false ∧ passes '\\' = false ∧ passes '(' = false) (input : List Char) :
    Skips input (input.dropWhile passes) := by
  refine ⟨input.takeWhile passes, List.takeWhile_append_dropWhile.symm, ?_⟩
  intro c among
  exact looksBehind_of_passes passes (List.all_eq_true.mp List.all_takeWhile c among) others

theorem takeDigits_skips (base most : Nat) (input : List Char) :
    Skips input (takeDigits base most input).2 := by
  induction most generalizing input with
  | zero => exact .refl input
  | succ most ih =>
      cases input with
      | nil => exact .refl []
      | cons c input =>
          rw [takeDigits_cons]
          split
          · rename_i digit value
            have digits : (digitValue? c).isSome = true := by
              rw [(Option.filter_eq_some_iff.mp value).1]
              rfl
            exact .cons (looksBehind_of_passes (fun c => (digitValue? c).isSome) digits (by decide))
              (ih input)
          · exact .refl _

theorem takeNumber?_skips (input : List Char) : Skips input (takeNumber? input).2 := by
  rw [takeNumber?_eq]
  exact dropWhile_skips _ (by decide) input

def Token.opened : Token → Nat
  | opening (.capture _) => 1
  | _ => 0

theorem counted_unopened {token : Token} {input rest : List Char} (unopened : token.opened = 0)
    (same : counted input = counted rest) : counted input = token.opened + counted rest := by
  rw [unopened, Nat.zero_add, same]

/-! ### The walk at a backslash -/

theorem all_of_referenceNumber? {digits : List Char} {number : Nat}
    (refers : referenceNumber? digits = some number) :
    digits ≠ [] ∧ ∀ c ∈ digits, c.isDigit = true := by
  unfold referenceNumber? at refers
  split at refers
  · cases refers
  · rename_i fits
    simp only [Bool.or_eq_true, not_or, Bool.not_eq_true, Bool.not_eq_false',
      List.isEmpty_eq_false_iff, List.all_eq_true] at fits
    exact ⟨fits.1.1, fits.2⟩

/-- Where a mark is met, the text goes on with it behind what stands before. -/
theorem exists_of_takeWhile_lt {mark : Char} {text : List Char}
    (shorter : (text.takeWhile (· ≠ mark)).length < text.length) :
    ∃ others, text = text.takeWhile (· ≠ mark) ++ mark :: others := by
  have whole := text.takeWhile_append_dropWhile (p := (· ≠ mark))
  cases behind : text.dropWhile (· ≠ mark) with
  | nil =>
      rw [behind, List.append_nil] at whole
      rw [whole] at shorter
      exact absurd shorter (Nat.lt_irrefl _)
  | cons c others =>
      have ends : c = mark := by
        have stops := List.head?_dropWhile_not (· ≠ mark) text
        rw [behind] at stops
        simpa using stops
      rw [behind, ends] at whole
      exact ⟨others, whole.symm⟩

theorem reference?_eq_some {input : List Char} {number length : Nat}
    (refers : reference? input = some (number, length)) :
    ∃ c used rest, input = c :: (used ++ rest) ∧ length = used.length + 1 ∧ Plain used := by
  unfold reference? at refers
  split at refers
  · rename_i rest
    dsimp only at refers
    split at refers
    · rename_i shorter
      obtain ⟨found, read, same⟩ := Option.map_eq_some_iff.mp refers
      obtain ⟨-, digits⟩ := all_of_referenceNumber? read
      cases same
      obtain ⟨others, whole⟩ := exists_of_takeWhile_lt shorter
      generalize rest.takeWhile (· ≠ '>') = written at whole digits
      refine ⟨'k', '<' :: written ++ ['>'], others, ?_, ?_, ?_⟩
      · rw [whole]
        simp
      · simp only [List.cons_append, List.length_cons, List.length_append, List.length_nil]
        omega
      · have plain : Plain written := fun c among =>
          looksBehind_of_passes Char.isDigit (digits c among) (by decide)
        have opening : Plain ['<'] := by decide
        have closing : Plain ['>'] := by decide
        exact (opening.append plain).append closing
    · cases refers
  · obtain ⟨found, read, same⟩ := Option.map_eq_some_iff.mp refers
    obtain ⟨filled, digits⟩ := all_of_referenceNumber? read
    cases same
    have whole := input.takeWhile_append_dropWhile (p := Char.isDigit)
    generalize input.takeWhile Char.isDigit = written at whole filled digits
    cases written with
    | nil => exact absurd rfl filled
    | cons c written =>
        refine ⟨c, written, input.dropWhile Char.isDigit, whole.symm, rfl, ?_⟩
        intro d among
        exact looksBehind_of_passes Char.isDigit (digits d (List.mem_cons_of_mem _ among)) (by decide)

/-- Whether it starts a reference or not, what stands behind a backslash and one more character is
counted. -/
theorem counted_escape (c : Char) (rest : List Char) :
    counted ('\\' :: c :: rest) = counted rest := by
  cases refers : reference? (c :: rest) with
  | none => simp [counted, raiseFrom_escape 0 refers]
  | some found =>
      obtain ⟨number, length⟩ := found
      obtain ⟨d, used, others, same, rfl, plain⟩ := reference?_eq_some refers
      obtain ⟨rfl, rfl⟩ := List.cons.inj same
      -- the walk passes over the whole reference, and there is nothing in it to be counted
      have written : reference? ((c :: used) ++ others) = some (number, (c :: used).length) := refers
      have walked := raiseFrom_reference 0 written
      have counted_ : counted ('\\' :: c :: (used ++ others)) = counted others := by
        rw [counted, ← List.cons_append, walked]
        exact Nat.zero_add _
      exact counted_.trans (Skips.counted ⟨used, rfl, plain⟩).symm

theorem counted_opening (rest : List Char) :
    counted ('(' :: rest) = (if opensCapture rest then 1 else 0) + counted rest := by
  simp [counted, raiseFrom_opening]

/-! ### Escapes -/

/-- Whether a character starts the name of a control or meta key behind a backslash. -/
def startsKey (c : Char) : Bool :=
  c = 'c' || c = 'C' || c = 'M'

theorem keyCode_plain {c : Char} (plain : startsKey c = false) (input : List Char) :
    keyCode (c :: input) = .ok (((controlLetter? c).getD c).toNat, input) := by
  simp only [startsKey, Bool.or_eq_false_iff, decide_eq_false_iff_not] at plain
  unfold keyCode
  split <;> simp_all

theorem bracedNumber_counted {mark : Char} {base most : Nat} {input after : List Char} {code : Nat}
    (read : bracedNumber mark base most false input = .ok (some (code, after))) :
    counted input = counted after := by
  have digits := takeDigits_skips base most input
  simp only [bracedNumber] at read
  split at read
  · cases read
  split at read
  · cases read
  rename_i c beyond left
  rw [left] at digits
  split at read
  · cases read
  split at read
  · rename_i brace
    cases read
    subst brace
    exact (digits.trans (.cons (by decide) (.refl _))).counted
  have divided := digits.trans (dropWhile_skips isNumberDivider (by decide) (c :: beyond))
  rw [left] at read
  split at read
  · cases read
  rename_i d further next
  rw [next] at divided
  split at read
  · rename_i brace
    cases read
    subst brace
    exact (divided.trans (.cons (by decide) (.refl _))).counted
  split at read
  · rename_i hyphen
    simp at hyphen
  split at read
  · -- there is another number, and the start of the escape is put back before it
    cases read
    have opening : Skips (Char.ofNat 123 :: d :: further) (d :: further) :=
      .cons (by decide) (.refl _)
    rw [next, divided.counted, ← opening.counted]
    exact (counted_escape mark _).symm
  · cases read

theorem sharedEscape_counted {c : Char} {input after : List Char} {written : Written}
    (plain : startsKey c = false) (read : sharedEscape false c input = .ok (written, after)) :
    counted input = counted after := by
  have braced : ∀ {most base : Nat} {beyond : List Char},
      bracedEscape false c most base beyond = .ok (written, after) →
        counted (Char.ofNat 123 :: beyond) = counted after := by
    intro most base beyond read
    have opening : Skips (Char.ofNat 123 :: beyond) beyond := .cons (by decide) (.refl _)
    obtain ⟨number, numbered, read⟩ := bind_eq_ok.mp read
    cases number with
    | none =>
        cases read
        rfl
    | some number =>
        cases read
        exact opening.counted.trans (bracedNumber_counted numbered)
  have key : ∀ {input : List Char}, keyEscape c input = .ok (written, after) →
      counted input = counted after := by
    intro input read
    rw [keyEscape, keyCode_plain plain] at read
    cases read
    rfl
  by_cases hex : c = 'x'
  · subst hex
    cases input with
    | nil => exact key read
    | cons d input =>
        by_cases brace : d = Char.ofNat 123
        · subst brace
          exact braced read
        · simp only [sharedEscape, if_neg brace] at read
          cases read
          exact (takeDigits_skips 16 2 (d :: input)).counted
  by_cases octal : c = 'o'
  · subst octal
    cases input with
    | nil => exact key read
    | cons d input =>
        by_cases brace : d = Char.ofNat 123
        · subst brace
          exact braced read
        · simp only [sharedEscape, if_neg brace] at read
          exact key read
  by_cases code : c = 'u'
  · subst code
    cases input with
    | nil => exact key read
    | cons d input =>
        have digits := (takeDigits_skips 16 4 (d :: input)).counted
        simp only [sharedEscape] at read
        split at read
        · rename_i found
          cases read
          rwa [found] at digits
        · cases read
  · rw [sharedEscape_key false hex octal code] at read
    exact key read

theorem octalByte_counted {most : Nat} {input rest : List Char} {token : Token}
    (read : octalByte most input = .ok (token, rest)) :
    counted input = token.opened + counted rest := by
  simp only [octalByte] at read
  split at read
  · cases read
  · cases read
    exact counted_unopened rfl (takeDigits_skips 8 most input).counted

theorem numberEscape_counted {ignoreCase : Bool} {groups : GroupNames} {c : Char}
    {input rest : List Char} {token : Token} (digit : c.isDigit = true)
    (read : numberEscape ignoreCase groups c input = .ok (token, rest)) :
    counted input = token.opened + counted rest := by
  have first : counted (c :: input) = counted input :=
    (Skips.cons (looksBehind_of_passes Char.isDigit digit (by decide)) (.refl input)).counted
  rw [numberEscape_eq] at read
  split at read
  · split at read
    · cases read
      exact counted_unopened rfl (first.symm.trans (takeNumber?_skips (c :: input)).counted)
    · split at read
      · cases read
        exact counted_unopened rfl rfl
      · exact first.symm.trans (octalByte_counted read)
  · cases read
    exact counted_unopened rfl rfl

theorem propertyName_eq_ok {name input rest : List Char} {found : String}
    (read : propertyName name input = .ok (found, rest)) :
    ∃ more, found = String.ofList (name.reverse ++ more) ∧ input = more ++ Char.ofNat 125 :: rest := by
  induction input generalizing name with
  | nil => cases read
  | cons c input ih =>
      rw [propertyName] at read
      split at read
      · rename_i brace
        cases read
        exact ⟨[], by simp, by simp [brace]⟩
      · split at read
        · cases read
        · obtain ⟨more, rfl, rfl⟩ := ih read
          exact ⟨c :: more, by simp, rfl⟩

def plainBytes (text : String) : Bool :=
  text.toByteArray.data.toList.all fun byte => byte != 91 && byte != 92 && byte != 40

theorem plain_of_plainBytes {text : String} (plain : plainBytes text = true) : Plain text.toList := by
  have encoded : text.toByteArray.data.toList = text.toList.flatMap String.utf8EncodeChar := by
    calc text.toByteArray.data.toList
        = (String.ofList text.toList).toByteArray.data.toList := by rw [String.ofList_toList]
      _ = text.toList.flatMap String.utf8EncodeChar := by
        rw [String.toByteArray_ofList, List.utf8Encode, List.toList_data_toByteArray]
  have others : ∀ byte ∈ ([91, 92, 40] : List UInt8), byte ∉ text.toByteArray.data.toList := by
    intro byte special among
    have passes := List.all_eq_true.mp plain byte among
    simp only [List.mem_cons, List.not_mem_nil, or_false] at special
    rcases special with rfl | rfl | rfl <;> cases passes
  intro c among
  have within : ∀ byte ∈ String.utf8EncodeChar c, byte ∈ text.toByteArray.data.toList := by
    rw [encoded]
    exact fun byte part => List.mem_flatMap.mpr ⟨c, among, part⟩
  apply looksBehind_of_ne
  · rintro rfl
    exact others 91 (by decide) (within 91 (by decide))
  · rintro rfl
    exact others 92 (by decide) (within 92 (by decide))
  · rintro rfl
    exact others 40 (by decide) (within 40 (by decide))

/-- No property has a bracket, a backslash or a parenthesis in its name. -/
theorem plain_of_known {name : String} (known : (CharSet.specialProperty? name).isSome ∨
    (CharKind.all.find? (·.name == name)).isSome ∨
      (Unicode.Category.named.find? (·.1 == name)).isSome ∨ (Unicode.script? name).isSome) :
    Plain name.toList := by
  -- the tables are gone through byte by byte, which takes much less than to read the names
  have kinds : ∀ kind ∈ CharKind.all, plainBytes kind.name = true := by decide +kernel
  have categories : ∀ entry ∈ Unicode.Category.named, plainBytes entry.1 = true := by decide +kernel
  have scripts : ∀ entry ∈ Unicode.scripts, ∀ name ∈ entry.1, plainBytes name = true := by
    decide +kernel
  rcases known with special | kind | category | script
  · unfold CharSet.specialProperty? at special
    split at special
    all_goals first | decide | cases special
  · obtain ⟨kind, found⟩ := Option.isSome_iff_exists.mp kind
    have same : kind.name = name := by simpa using List.find?_some found
    rw [← same]
    exact plain_of_plainBytes (kinds kind (List.mem_of_find?_eq_some found))
  · obtain ⟨entry, found⟩ := Option.isSome_iff_exists.mp category
    have same : entry.1 = name := by simpa using List.find?_some found
    rw [← same]
    exact plain_of_plainBytes (categories entry (List.mem_of_find?_eq_some found))
  · rw [Unicode.script?, Option.isSome_map] at script
    obtain ⟨entry, found⟩ := Option.isSome_iff_exists.mp script
    have named : name ∈ entry.1 := by simpa using List.find?_some found
    exact plain_of_plainBytes (scripts entry (List.mem_of_find?_eq_some found) name named)

theorem plain_of_ofProperty? {name : String} {set : CharSet}
    (found : CharSet.ofProperty? name = some set) : Plain name.toList := by
  have given : (CharSet.ofProperty? name).isSome = true := by
    rw [found]
    rfl
  have plain : Plain (String.ofList ((name.toList.filter
      fun c => c != ' ' && c != '-' && c != '_').map Char.toLower)).toList := by
    apply plain_of_known
    simpa [CharSet.ofProperty?, or_assoc] using given
  rw [String.toList_ofList] at plain
  -- the three characters that the walk looks behind stay where the name is made plain
  have kept : ∀ c ∈ ['[', '\\', '('], c ∉ name.toList := by
    intro c member among
    have passed : (c != ' ' && c != '-' && c != '_') = true ∧ c.toLower = c ∧ looksBehind c = true := by
      simp only [List.mem_cons, List.not_mem_nil, or_false] at member
      rcases member with rfl | rfl | rfl <;> decide
    have remains := plain c
      (List.mem_map.mpr ⟨c, List.mem_filter.mpr ⟨among, passed.1⟩, passed.2.1⟩)
    exact absurd passed.2.2 (Bool.eq_false_iff.mp remains)
  intro c among
  apply looksBehind_of_ne
  · rintro rfl
    exact kept _ (by decide) among
  · rintro rfl
    exact kept _ (by decide) among
  · rintro rfl
    exact kept _ (by decide) among

theorem property_counted {negated : Bool} {input rest : List Char} {set : CharSet}
    (read : property negated input = .ok (set, rest)) : counted input = counted rest := by
  have named : ∀ {flipped : Bool} {input : List Char}, propertyOf flipped input = .ok (set, rest) →
      Skips input rest := by
    intro flipped input read
    obtain ⟨⟨name, after⟩, named, known⟩ := bind_eq_ok.mp read
    obtain ⟨used, rfl, rfl⟩ := propertyName_eq_ok named
    dsimp only at known
    split at known
    · rename_i found
      cases known
      have plain := plain_of_ofProperty? found
      simp only [List.reverse_nil, List.nil_append, String.toList_ofList] at plain
      have closing : Plain [Char.ofNat 125] := by decide
      exact ⟨used ++ [Char.ofNat 125], by simp, plain.append closing⟩
    · cases known
  cases input with
  | nil => cases read
  | cons c input =>
      by_cases circumflex : c = '^'
      · subst circumflex
        exact (Skips.cons (by decide) (named read)).counted
      · rw [property_plain negated circumflex] at read
        exact (named read).counted

theorem plain_of_fault?_none {numeric : Bool} {first : Char} {body : List Char}
    (start : numeric = true → looksBehind first = false)
    (sound : Referent.fault? numeric first body = none) : Plain (first :: body) := by
  unfold Referent.fault? at sound
  split at sound
  · rename_i digits
    split at sound
    · rename_i none
      have all : ∀ c ∈ body, c.isDigit = true := by
        have whole := body.takeWhile_append_dropWhile (p := Char.isDigit)
        rw [none, List.append_nil] at whole
        rw [← whole]
        exact List.all_eq_true.mp List.all_takeWhile
      intro c among
      rcases List.mem_cons.mp among with rfl | among
      · exact start digits
      · exact looksBehind_of_passes Char.isDigit (all c among) (by decide)
    · cases sound
  · split at sound
    · rename_i words
      intro c among
      exact looksBehind_of_passes _ (List.all_eq_true.mp words c among) (by decide)
    · cases sound

theorem referent_skips {mark : Char} {input rest : List Char} {referent : Referent}
    {level : Option Int} (plain : looksBehind mark = false)
    (read : Referent.read mark input = .ok (referent, level, rest)) : Skips input rest := by
  cases input with
  | nil => cases read
  | cons first input =>
      simp only [Referent.read] at read
      split at read
      · cases read
      have whole := input.takeWhile_append_dropWhile
        (p := fun c => c ≠ mark && c ≠ ')' && c ≠ '+' && c ≠ '-')
      have stops := List.head?_dropWhile_not
        (fun c => c ≠ mark && c ≠ ')' && c ≠ '+' && c ≠ '-') input
      rw [drop_takeWhile] at read
      generalize input.takeWhile _ = body at read whole
      generalize input.dropWhile _ = beyond at read whole stops
      split at read
      · cases read
      · cases read
      · split at read <;> cases read
      rename_i c after sound
      have sound : Referent.fault? (decide (first = '-') || decide (first = '+') || first.isDigit)
          first body = none := by
        cases fault : Referent.fault? (decide (first = '-') || decide (first = '+') || first.isDigit)
            first body with
        | none => rfl
        | some fault_ =>
            rw [fault] at sound
            cases sound
      have start : (decide (first = '-') || decide (first = '+') || first.isDigit) = true →
          looksBehind first = false := fun numeric =>
        looksBehind_of_passes (fun c => c = '-' || c = '+' || c.isDigit) numeric (by decide)
      have named : Skips (first :: input) (c :: after) :=
        ⟨first :: body, by rw [← whole]; rfl, plain_of_fault?_none start sound⟩
      split at read
      · rename_i marked
        obtain ⟨found, -, read⟩ := bind_eq_ok.mp read
        cases read
        exact named.trans (.cons (marked ▸ plain) (.refl _))
      rename_i marked
      split at read
      · cases read
      rename_i inside
      have sign : looksBehind c = false := by
        by_cases plus : c = '+'
        · rw [plus]
          decide
        · have minus : c = '-' := by simpa [marked, inside, plus] using stops
          rw [minus]
          decide
      split at read
      · rename_i depth end_ beyond found
        have digits := takeNumber?_skips after
        rw [found] at digits
        split at read
        · cases read
        split at read
        · rename_i ends
          obtain ⟨found, -, read⟩ := bind_eq_ok.mp read
          cases read
          exact (named.trans (.cons sign digits)).trans (.cons (ends ▸ plain) (.refl _))
        · cases read
      · cases read
      · split at read <;> cases read

theorem referTo_unopened {ignoreCase : Bool} {groups : GroupNames} {referent : Referent}
    {level : Option Int} {token : Token} (refers : referTo ignoreCase groups referent level = .ok token) :
    token.opened = 0 := by
  obtain ⟨numbers, rfl⟩ := referTo_eq_ok refers
  rfl

theorem namedReference_counted {mark : Char} {ignoreCase : Bool} {groups : GroupNames}
    {input rest : List Char} {token : Token} (plain : looksBehind mark = false)
    (read : namedReference mark ignoreCase groups input = .ok (token, rest)) :
    counted input = token.opened + counted rest := by
  obtain ⟨referent, level, found, refers⟩ := namedReference_eq_ok read
  exact counted_unopened (referTo_unopened refers) (referent_skips plain found).counted

theorem escapeToken_counted {options : Options} {groups : GroupNames} {c : Char}
    {input after : List Char} {token : Token} (plain : startsKey c = false)
    (read : escapeToken options groups (c :: input) = .ok (token, after)) :
    counted ('\\' :: c :: input) = token.opened + counted after := by
  rw [counted_escape]
  simp only [escapeToken] at read
  split at read
  · cases read
    exact counted_unopened rfl rfl
  split at read
  case h_11 after_ kind =>
      rw [← namedReference_counted (by decide) read]
      exact (Skips.cons (by decide) (.refl after_)).counted
  case h_12 after_ kind =>
      rw [← namedReference_counted (by decide) read]
      exact (Skips.cons (by decide) (.refl after_)).counted
  case h_13 | h_14 =>
      split at read
      · rename_i brace
        subst brace
        obtain ⟨⟨set, left⟩, named, read⟩ := bind_eq_ok.mp read
        cases read
        apply counted_unopened rfl
        rw [← property_counted named]
        exact (Skips.cons (by decide) (.refl _)).counted
      · cases read
        exact counted_unopened rfl rfl
  case h_15 => exact octalByte_counted read
  case h_16 | h_17 | h_18 | h_19 | h_20 => cases read
  case h_21 =>
      split at read
      · rename_i digit
        exact numberEscape_counted digit read
      · obtain ⟨⟨written, left⟩, found, read⟩ := bind_eq_ok.mp read
        have same := sharedEscape_counted plain found
        cases written with
        | point code =>
            obtain ⟨character, -, read⟩ := bind_eq_ok.mp read
            cases read
            exact counted_unopened rfl same
        | byte value base =>
            cases read
            exact counted_unopened rfl same
  all_goals
    cases read
    exact counted_unopened rfl rfl

/-! ### Repetitions -/

theorem closeBounds_skips {least least_ : Nat} {most most_ : Option Nat} {fixed fixed_ : Bool}
    {input rest : List Char}
    (read : closeBounds least most fixed input = .ok (some (least_, most_, fixed_, rest))) :
    Skips input rest := by
  cases input with
  | nil => cases read
  | cons c input =>
      simp only [closeBounds] at read
      split at read
      · rename_i brace
        cases read
        rw [brace]
        exact .cons (by decide) (.refl rest)
      · cases read

theorem bounds?_skips {least : Nat} {most : Option Nat} {fixed : Bool} {input rest : List Char}
    (read : bounds? input = .ok (some (least, most, fixed, rest))) : Skips input rest := by
  have number := takeNumber?_skips input
  rw [bounds?_eq] at read
  generalize (takeNumber? input).1 = first at read
  generalize (takeNumber? input).2 = behind at read number
  unfold boundsBehind at read
  split at read
  · cases read
  split at read
  · rename_i comma
    obtain ⟨others, rfl⟩ := List.head?_eq_some_iff.mp comma
    have second := takeNumber?_skips others
    have toSecond := number.trans (.cons (by decide) second)
    unfold boundsTo at read
    rw [List.drop_succ_cons, List.drop_zero] at read
    split at read
    · split at read
      · cases read
      · exact toSecond.trans (closeBounds_skips read)
    · exact toSecond.trans (closeBounds_skips read)
    · cases read
  · unfold fixedBounds at read
    split at read
    · exact number.trans (closeBounds_skips read)
    · cases read

theorem braceToken_skips {input rest : List Char} {token : Token}
    (read : braceToken input = .ok (token, rest)) :
    Skips input rest ∧ ((∃ c, token = .char c) ∨ ∃ repetition, token = .repetition repetition) := by
  rw [braceToken_eq] at read
  obtain ⟨bounds, found, read⟩ := bind_eq_ok.mp read
  cases bounds with
  | none =>
      cases read
      exact ⟨.refl _, .inl ⟨_, rfl⟩⟩
  | some bounds =>
      obtain ⟨least, most, fixed, after⟩ := bounds
      have skips := bounds?_skips found
      have read := Except.ok.inj read
      unfold boundsToken at read
      split at read
      · cases read
        exact ⟨skips, .inr ⟨_, rfl⟩⟩
      split at read
      · cases read
        exact ⟨skips, .inr ⟨_, rfl⟩⟩
      unfold lazyMark at read
      split at read
      · cases read
        exact ⟨skips.trans (.cons (by decide) (.refl _)), .inr ⟨_, rfl⟩⟩
      · cases read
        exact ⟨skips, .inr ⟨_, rfl⟩⟩

theorem braceToken_counted {input rest : List Char} {token : Token}
    (read : braceToken input = .ok (token, rest)) : counted input = token.opened + counted rest := by
  obtain ⟨skips, ⟨c, rfl⟩ | ⟨repetition, rfl⟩⟩ := braceToken_skips read
  · exact counted_unopened rfl skips.counted
  · exact counted_unopened rfl skips.counted

theorem repetitionMark_skips {least : Nat} {most : Option Nat} {input rest : List Char} {token : Token}
    (read : repetitionMark least most input = (token, rest)) :
    Skips input rest ∧ ∃ repetition, token = .repetition repetition := by
  unfold repetitionMark at read
  split at read
  · cases read
    exact ⟨.cons (by decide) (.refl _), _, rfl⟩
  · cases read
    exact ⟨.cons (by decide) (.refl _), _, rfl⟩
  · cases read
    exact ⟨.refl _, _, rfl⟩

theorem repetitionMark_counted {least : Nat} {most : Option Nat} {input rest : List Char}
    {token : Token} (read : repetitionMark least most input = (token, rest)) :
    counted input = token.opened + counted rest := by
  obtain ⟨skips, repetition, rfl⟩ := repetitionMark_skips read
  exact counted_unopened rfl skips.counted

end Highlight.Pattern
