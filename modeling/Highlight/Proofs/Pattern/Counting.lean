import Highlight.Proofs.Pattern.Choice
import Highlight.Proofs.Pattern.Reading.Numbering
import Highlight.Proofs.Pattern.Skipping

set_option autoImplicit false

/-! Counting groups without reading the source. The walk that raises references knows only three
characters, so what it counts is right as long as it comes to the end of each token together with the
reader. -/

namespace Highlight.Pattern

open Outcome

/-! ### Texts that the walk gets through -/

/-- Whether the walk gets through a text without meeting a parenthesis, and so that no class and no
escape that starts in the text goes on behind it. The next `copied` characters are passed over. -/
def getsThrough : Nat → List Char → Bool
  | 0, [] => true
  | _ + 1, [] => false
  | copied + 1, _ :: rest => getsThrough copied rest
  | 0, c :: rest =>
    match c with
    | '(' => false
    | '\\' => getsThrough 1 rest
    | '[' => (classLength? rest).any fun length => getsThrough length rest
    | _ => getsThrough 0 rest

theorem classLength?_append {text : List Char} {length : Nat} (ends : classLength? text = some length)
    (rest : List Char) : classLength? (text ++ rest) = some length := by
  fun_induction classLength? text generalizing length with
  | case1 => cases ends
  | case2 => cases ends
  | case3 c text ih =>
      obtain ⟨inner, found, rfl⟩ := Option.map_eq_some_iff.mp ends
      simp [classLength?, ih found]
  | case4 text =>
      cases ends
      simp [classLength?]
  | case5 c text pair other closing ih =>
      obtain ⟨inner, found, rfl⟩ := Option.map_eq_some_iff.mp ends
      have backslash : c ≠ '\\' := by
        intro same
        cases text with
        | nil => exact pair same rfl
        | cons d text => exact other d text same rfl
      rw [List.cons_append, classLength?, if_neg closing, ih found]
      · rfl
      · exact fun same _ => backslash same
      · exact fun _ _ same _ => backslash same

theorem counted_getsThrough {copied : Nat} {used : List Char} (through : getsThrough copied used = true)
    (rest : List Char) : (raiseFrom 0 copied 0 (used ++ rest)).groups = counted rest := by
  -- a text is gone through by the steps of the walk itself, so each case is one step of it
  fun_induction getsThrough copied used with
  | case1 => rfl
  | case2 => cases through
  | case3 copied c used ih => exact ih through
  | case4 => cases through
  | case5 used ih =>
      cases used with
      | nil => cases through
      | cons c used => exact (counted_escape c (used ++ rest)).trans (ih through)
  | case6 used ih =>
      cases ends : classLength? used with
      | none =>
          rw [ends] at through
          cases through
      | some length =>
          rw [ends] at through
          simp only [List.cons_append, raiseFrom, classLength?_append ends, Option.getD_some]
          exact ih length through
  | case7 c used parenthesis backslash bracket ih =>
      rw [List.cons_append, raiseFrom_plain 0 (looksBehind_of_ne bracket backslash parenthesis)]
      exact (Nat.zero_add _).trans (ih through)

/-! ### Tokens -/

/-- Whether the walk gets through the text of a token, given the first character, what stands behind it
and what is left behind the token. It can go astray where a text is not read as a part of the pattern or
has rules of its own: in classes, in the names of keys, in comments to the end of a line, and behind a
parenthesis in names, comments and notes. A parenthesis before a star opens no group, but is counted. -/
def staysInStep (options : Options) (c : Char) (rest after : List Char) : Bool :=
  let used := rest.take (rest.length - after.length)
  if c = '(' then rest.head? ≠ some '*' && getsThrough 0 used
  else if c = '[' || (c = '\\' && rest.head?.any startsKey) || (c = '#' && options.extended) then
    getsThrough 0 (c :: used)
  else true

theorem take_used (used after : List Char) :
    (used ++ after).take ((used ++ after).length - after.length) = used := by
  simp

theorem keyEscapeToken_counted {options : Options} {groups : GroupNames} {c : Char}
    {input after : List Char} {token : Token} (key : startsKey c = true)
    (read : escapeToken options groups (c :: input) = .ok (token, after))
    (through : getsThrough 0 ('\\' :: (c :: input).take ((c :: input).length - after.length)) = true) :
    counted ('\\' :: c :: input) = token.opened + counted after := by
  obtain ⟨plain, digit, same⟩ : escapeToken options groups (c :: input) =
      plainEscape options groups c input ∧ c.isDigit = false ∧
        sharedEscape false c input = keyEscape c input := by
    simp only [startsKey, Bool.or_eq_true, decide_eq_true_eq] at key
    rcases key with (rfl | rfl) | rfl <;> exact ⟨rfl, rfl, rfl⟩
  rw [plain, plainEscape, if_neg (Bool.eq_false_iff.mp digit), same] at read
  obtain ⟨⟨written, left⟩, found, read⟩ := bind_eq_ok.mp read
  obtain ⟨used, rfl, -⟩ := keyEscape_readsTo found
  have walked : ∀ {token : Token}, token.opened = 0 → left = after →
      counted ('\\' :: c :: (used ++ left)) = token.opened + counted after := by
    rintro token unopened rfl
    apply counted_unopened unopened
    rw [← List.cons_append, take_used] at through
    exact counted_getsThrough through left
  cases written with
  | point code =>
      obtain ⟨character, -, read⟩ := bind_eq_ok.mp read
      cases read
      exact walked rfl rfl
  | byte value base =>
      cases read
      exact walked rfl rfl

theorem optionToken_unopened {options : Options} {off : Bool} {input rest : List Char} {token : Token}
    (read : optionToken options off input = .ok (token, rest)) : token.opened = 0 := by
  fun_induction optionToken options off input with
  | case2 | case3 =>
      cases read
      rfl
  | case4 options off input ih | case5 options off input ih | case6 options off input ih
  | case7 options off input ih => exact ih read
  | _ => cases read

theorem noteToken_unopened {input rest : List Char} {token : Token}
    (read : noteToken input = .ok (token, rest)) : token.opened = 0 := by
  obtain ⟨skipped, -, read⟩ := bind_eq_ok.mp read
  split at read
  · cases read
  · cases read
    rfl
  · cases read

theorem namedOpening_opened {mark : Char} {input rest : List Char} {token : Token}
    (read : extendedOpening.namedOpening mark input = .ok (token, rest)) : token.opened = 1 := by
  obtain ⟨⟨name, after⟩, -, read⟩ := bind_eq_ok.mp read
  cases read
  rfl

theorem extendedOpening_opened {options : Options} {input after : List Char} {token : Token}
    (read : extendedOpening options input = .ok (token, after)) :
    token.opened = if opensCapture ('?' :: input) then 1 else 0 := by
  unfold extendedOpening at read
  split at read
  case h_3 =>
      obtain ⟨left, -, read⟩ := bind_eq_ok.mp read
      cases read
      rfl
  case h_11 input ended ahead negated =>
      have captures : opensCapture ('?' :: '<' :: input) = true := by
        rw [opensCapture]
        · exact fun rest same => ahead rest same
        · exact fun rest same => negated rest same
      rw [namedOpening_opened read, captures]
      rfl
  case h_12 => exact namedOpening_opened read
  case h_13 c input closing comment plain equal bang atomic ended ahead negated named quoted =>
      have unopened : token.opened = 0 := by
        split at read
        · exact noteToken_unopened read
        · exact optionToken_unopened read
      have python : c ≠ 'P' := by
        rintro rfl
        rw [if_neg (by decide)] at read
        cases read
      have plain : opensCapture ('?' :: c :: input) = false := by
        unfold opensCapture
        split <;> simp_all
      rw [unopened, plain]
      rfl
  all_goals
    cases read
    try rfl

/-- The walk tells the groups that remember their text from the others as the reader does. -/
theorem groupToken_opened {options : Options} {groups : GroupNames} {input after : List Char}
    {token : Token} (other : input.head? ≠ some '*')
    (read : Pattern.token options groups '(' input = .ok (token, after)) :
    token.opened = if opensCapture input then 1 else 0 := by
  simp only [Pattern.token] at read
  split at read
  · cases read
  · exact extendedOpening_opened read
  · exact absurd rfl other
  · rename_i ended extended condition
    cases read
    have captures : opensCapture input = true := by
      unfold opensCapture
      split <;> simp_all
    rw [captures]
    rfl

theorem groupToken_counted {options : Options} {groups : GroupNames} {input after : List Char}
    {token : Token} (read : Pattern.token options groups '(' input = .ok (token, after))
    (other : input.head? ≠ some '*')
    (through : getsThrough 0 (input.take (input.length - after.length)) = true) :
    counted ('(' :: input) = token.opened + counted after := by
  obtain ⟨used, rfl, -⟩ := groupToken_readsTo read
  rw [take_used] at through
  rw [counted_opening, groupToken_opened other read]
  exact congrArg _ (counted_getsThrough through after)

/-- A token is gone through by the walk as far as it is read, and counted if it opens a group. -/
theorem token_counted {options : Options} {groups : GroupNames} {c : Char} {input after : List Char}
    {token : Token} (read : Pattern.token options groups c input = .ok (token, after))
    (inStep : staysInStep options c input after = true) :
    counted (c :: input) = token.opened + counted after := by
  have found := read
  unfold staysInStep at inStep
  unfold Pattern.token at read
  -- by the first character; most tokens end right behind it
  split at read
  case h_1 =>
      cases input with
      | nil => cases read
      | cons d input =>
          by_cases key : startsKey d = true
          · have through : getsThrough 0
                ('\\' :: (d :: input).take ((d :: input).length - after.length)) = true := by
              simpa [key] using inStep
            exact keyEscapeToken_counted key read through
          · exact escapeToken_counted (Bool.eq_false_iff.mpr key) read
  case h_5 | h_6 | h_7 =>
      have walked := repetitionMark_counted (Except.ok.inj read)
      exact (Skips.cons (by decide) (.refl input)).counted.trans walked
  case h_10 =>
      simp only [if_true, Bool.and_eq_true, decide_eq_true_eq] at inStep
      exact groupToken_counted found inStep.1 inStep.2
  case h_11 =>
      obtain ⟨used, rfl, -⟩ := classToken_readsTo found
      obtain ⟨⟨members, left⟩, -, read⟩ := bind_eq_ok.mp read
      cases read
      apply counted_unopened rfl
      rw [take_used] at inStep
      have through : getsThrough 0 ('[' :: used) = true := by simpa using inStep
      exact counted_getsThrough through after
  case h_12 backslash dot start end_ star plus question bar closing opening bracket =>
      have behind := (Skips.cons (looksBehind_of_ne bracket backslash opening) (.refl input)).counted
      rw [behind]
      split at read
      · exact braceToken_counted read
      split at read
      · -- a comment to the end of the line, which may hold anything
        rename_i comment
        simp only [Bool.and_eq_true, decide_eq_true_eq] at comment
        obtain ⟨used, taken, -⟩ := lineComment_readsTo input
        obtain ⟨rfl, extended⟩ := And.intro comment.2 comment.1
        cases read
        apply counted_unopened rfl
        generalize (input.dropWhile (· ≠ '\n')).drop 1 = after at taken inStep ⊢
        subst taken
        rw [take_used] at inStep
        rw [← behind]
        have through : getsThrough 0 ('#' :: used) = true := by simpa [extended] using inStep
        exact counted_getsThrough through after
      split at read
      · cases read
        exact counted_unopened rfl rfl
      · cases read
        exact counted_unopened rfl rfl
  all_goals
    cases read
    exact counted_unopened rfl (Skips.cons (by decide) (.refl _)).counted

namespace Reader

variable {reader next last : Reader}

theorem closeGroup_groups (closed : reader.closeGroup = .ok next) : next.groups = reader.groups := by
  simp only [closeGroup] at closed
  split at closed
  · cases closed
  · cases closed
    exact (leave_keeps _).1.trans (leaveRests_keeps reader).1

theorem add_opened {token : Token} (added : reader.add token = .ok next) :
    next.groups.count = reader.groups.count + token.opened := by
  cases token with
  | opening opening =>
      have opened := ((add_eq_ok_iff rfl).mp added).2
      cases opening with
      | capture name =>
          obtain ⟨inner, entered, opened⟩ := bind_eq_ok.mp opened
          cases opened
          rfl
      | _ => exact Numbered.enter_groups opened
  | closing => exact congrArg GroupNames.count (closeGroup_groups ((add_eq_ok_iff rfl).mp added).2)
  | _ => exact congrArg GroupNames.count (beside_add rfl added).groups

/-- Whether the walk stays in step with the reader in all tokens of a source. -/
def walkStays : Nat → Reader → List Char → Bool
  | _, _, [] => true
  | 0, _, _ => false
  | steps + 1, reader, c :: rest =>
    match token reader.options reader.groups c rest with
    | .error _ => false
    | .ok (token, after) =>
      staysInStep reader.options c rest after &&
        match reader.add token with
        | .error _ => false
        | .ok next => walkStays steps next after

theorem counted_of_walkStays {steps : Nat} {input : List Char}
    (stays : reader.walkStays steps input = true) (read : reader.readOn steps input = .ok last) :
    reader.groups.count + counted input = last.groups.count := by
  induction steps generalizing reader input with
  | zero =>
      cases input with
      | nil =>
          cases read
          rfl
      | cons c input => cases read
  | succ steps ih =>
      cases input with
      | nil =>
          cases read
          rfl
      | cons c input =>
          rw [readOn] at read
          obtain ⟨⟨token, after⟩, taken, read⟩ := bind_eq_ok.mp read
          obtain ⟨next, added, read⟩ := bind_eq_ok.mp read
          rw [walkStays, taken] at stays
          dsimp only at stays
          rw [added] at stays
          obtain ⟨inStep, stays⟩ := Bool.and_eq_true_iff.mp stays
          -- the groups that are open by now and those counted ahead stay together the same number
          have rest := ih stays read
          have here := token_counted taken inStep
          have opened := add_opened added
          omega

end Reader

/-- The groups of a source that is accepted are counted right where the walk stays in step with the
reader. -/
theorem countGroups_of_walkStays {flags : Flags} {source : String} {regex : Regex}
    (accepted : engine flags source = .ok regex)
    (stays : (Reader.start { ignoreCase := flags.ignoreCase }).walkStays
      (5 * source.toList.length) source.toList = true) :
    countGroups source = regex.groups := by
  obtain ⟨parsed, plan, parsed_, -, rfl⟩ := engine_eq_ok.mp accepted
  obtain ⟨last, read, rest⟩ := bind_eq_ok.mp parsed_
  obtain ⟨node, -, rest⟩ := bind_eq_ok.mp rest
  cases rest
  have whole := Reader.counted_of_walkStays stays read
  rw [countGroups_eq]
  exact (Nat.zero_add _).symm.trans whole

theorem countGroups_of_walkStays_mixed :
    let source := "(?<n>[^b-d(\\]\\w]|\\p{Lu})\\k<n>(?:x{2,3}?|\\x{41 42})(?=([[:alpha:]]))(?#[(]a)\\1++(?i)é"
    ∃ regex, engine {} source = .ok regex ∧
      (Reader.start { ignoreCase := ({} : Flags).ignoreCase }).walkStays
        (5 * source.toList.length) source.toList = true ∧
      countGroups source = regex.groups ∧ countGroups source = 2 := by
  intro source
  obtain ⟨regex, accepted⟩ := exists_of_isOk (show (engine {} source).isOk = true by decide +kernel)
  have stays : (Reader.start { ignoreCase := ({} : Flags).ignoreCase }).walkStays
      (5 * source.toList.length) source.toList = true := by decide +kernel
  exact ⟨regex, accepted, stays, countGroups_of_walkStays accepted stays, by decide +kernel⟩

/-- For the walk a class ends at the first bracket that closes one, so it counts a parenthesis in the rest
of a class that holds another. A parenthesis in a comment, and the one that opens a condition, are counted
too. -/
theorem countGroups_misled :
    (∃ regex, engine {} "[[a](]" = .ok regex ∧ countGroups "[[a](]" ≠ regex.groups) ∧
      (∃ regex, engine {} "(?#()" = .ok regex ∧ countGroups "(?#()" ≠ regex.groups) ∧
      ∃ regex, engine {} "(*FAIL)" = .ok regex ∧ countGroups "(*FAIL)" ≠ regex.groups := by
  refine ⟨exists_of_any ?_, exists_of_any ?_, exists_of_any ?_⟩
  · decide +kernel
  · decide +kernel
  · decide +kernel

end Highlight.Pattern
