import Highlight.Proofs.Pattern.Printing
import Highlight.Proofs.Pattern.Reading.Placing
import Highlight.Proofs.Pattern.Skipping
import Mathlib.Data.List.TakeWhile

set_option autoImplicit false

/-! Pieces of a printed tree that are read as one token, whatever stands behind them: an escape that is not
read on, a class without nested classes, the opening of a group and a reference. A single character may be
read on, and then it makes no difference whether the text ends behind it or a group does. -/

namespace Highlight.Pattern

open Outcome

/-- How much deeper a token leads into groups. -/
def Token.depth : Token → Nat
  | .opening _ => 1
  | _ => 0

/-- A token that neither moves the start of a match nor sets options. -/
def Token.isSteady : Token → Bool
  | .node .keep | .opening (.enclosed _) | .opening (.restOfGroup _) => false
  | _ => true

/-- A token that starts with a character, opens a number of groups and refers to none. -/
structure Token.Stands (c : Char) (more : Nat) (token : Token) : Prop where
  steady : token.isSteady = true
  unraised : ∀ offset, token.raisedBy offset = token
  opened : token.opened = more
  depth : token.depth ≤ [c].count '('

theorem token_sameGroups {c : Char} (unescaped : c ≠ '\\') (options : Options)
    (groups other : GroupNames) (input : List Char) :
    token options groups c input = token options other c input := by
  unfold token
  split <;> first | rfl | contradiction

/-! ### A parenthesis behind the end -/

theorem takeWhile_closed {passes : Char → Bool} (stops : passes ')' = false) (input : List Char) :
    (input ++ [')']).takeWhile passes = input.takeWhile passes ∧
      (input ++ [')']).dropWhile passes = input.dropWhile passes ++ [')'] := by
  induction input with
  | nil => simp [stops]
  | cons c input ih =>
      by_cases fits : passes c = true
      · simp [fits, ih]
      · simp [fits]

theorem takeNumber?_closed (input : List Char) :
    takeNumber? (input ++ [')']) = ((takeNumber? input).1, (takeNumber? input).2 ++ [')']) := by
  obtain ⟨digits, rest⟩ := takeWhile_closed (isDigitOf_stop 10 (.inr rfl)) input
  rw [takeNumber?_eq, takeNumber?_eq, digits, rest]

theorem repetitionMark_closed (least : Nat) (most : Option Nat) (input : List Char) :
    repetitionMark least most (input ++ [')']) =
      ((repetitionMark least most input).1, (repetitionMark least most input).2 ++ [')']) := by
  cases input with
  | nil => rfl
  | cons c input =>
      unfold repetitionMark
      split <;> simp_all

/-- The bounds of a repetition, with a parenthesis behind what follows them. -/
def closedBounds (bounds : Option (Nat × Option Nat × Bool × List Char)) :
    Option (Nat × Option Nat × Bool × List Char) :=
  bounds.map fun (least, most, fixed, rest) => (least, most, fixed, rest ++ [')'])

theorem closeBounds_closed (least : Nat) (most : Option Nat) (fixed : Bool) (input : List Char) :
    closeBounds least most fixed (input ++ [')']) =
      (closeBounds least most fixed input).map closedBounds := by
  cases input with
  | nil => rfl
  | cons c input =>
      simp only [List.cons_append, closeBounds, Except.map]
      split <;> rfl

theorem boundsBehind_closed (least : Option Nat) (rest : List Char) :
    boundsBehind least (rest ++ [')']) = (boundsBehind least rest).map closedBounds := by
  unfold boundsBehind
  split
  · rfl
  have comma : (rest ++ [')']).head? = some ',' ↔ rest.head? = some ',' := by
    cases rest <;> simp
  by_cases starts : rest.head? = some ','
  · obtain ⟨others, rfl⟩ := List.head?_eq_some_iff.mp starts
    rw [if_pos (comma.mpr starts), if_pos starts]
    simp only [List.cons_append, List.drop_succ_cons, List.drop_zero, takeNumber?_closed, boundsTo]
    split
    · split
      · rfl
      · exact closeBounds_closed ..
    · exact closeBounds_closed ..
    · rfl
  · rw [if_neg (mt comma.mp starts), if_neg starts]
    unfold fixedBounds
    split
    · exact closeBounds_closed ..
    · rfl

theorem bounds?_closed (input : List Char) :
    bounds? (input ++ [')']) = (bounds? input).map closedBounds := by
  rw [bounds?_eq, bounds?_eq, takeNumber?_closed]
  exact boundsBehind_closed _ _

theorem braceToken_closed (input : List Char) :
    braceToken (input ++ [')']) =
      (braceToken input).map fun found => (found.1, found.2 ++ [')']) := by
  rw [braceToken_eq, braceToken_eq, bounds?_closed]
  rcases bounds? input with _ | _ | ⟨least, most, fixed, after⟩
  · rfl
  · rfl
  · simp only [Except.map, closedBounds, Option.map_some, ok_bind, Except.ok.injEq, boundsToken]
    split
    · rfl
    split
    · rfl
    · cases after with
      | nil => rfl
      | cons c after =>
          unfold lazyMark
          split <;> simp_all

/-- What is read from a character on that the walk does not look behind: the walk looks behind none of
those that are taken, and a parenthesis behind the end changes nothing. -/
theorem token_plain {options : Options} {groups : GroupNames} {c : Char} {input rest : List Char}
    {token : Token} (plain : looksBehind c = false) (visible : options.extended = false)
    (read : Pattern.token options groups c input = .ok (token, rest)) :
    Skips input rest ∧ token.Stands c 0 ∧
      Pattern.token options groups c (input ++ [')']) = .ok (token, rest ++ [')']) := by
  have marked : ∀ {least most}, (.ok (repetitionMark least most input) :
      Except PatternError (Token × List Char)) = .ok (token, rest) →
      Skips input rest ∧ token.Stands c 0 ∧ (.ok (repetitionMark least most (input ++ [')'])) :
        Except PatternError (Token × List Char)) = .ok (token, rest ++ [')']) := by
    intro least most read
    have read := Except.ok.inj read
    obtain ⟨skips, repetition, rfl⟩ := repetitionMark_skips read
    rw [repetitionMark_closed, read]
    exact ⟨skips, ⟨rfl, fun _ => rfl, rfl, Nat.zero_le _⟩, rfl⟩
  simp only [looksBehind, Bool.or_eq_false_iff, decide_eq_false_iff_not] at plain
  unfold Pattern.token at read ⊢
  split at read
  case h_1 => exact absurd rfl plain.1.2
  case h_5 | h_6 | h_7 => exact marked read
  case h_10 => exact absurd rfl plain.2
  case h_11 => exact absurd rfl plain.1.1
  case h_12 =>
      simp only [visible, Bool.false_and, Bool.false_eq_true, if_false] at read ⊢
      split at read
      · rename_i brace
        rw [if_pos brace, braceToken_closed, read]
        obtain ⟨skips, ⟨d, rfl⟩ | ⟨repetition, rfl⟩⟩ := braceToken_skips read
        · exact ⟨skips, ⟨rfl, fun _ => rfl, rfl, Nat.zero_le _⟩, rfl⟩
        · exact ⟨skips, ⟨rfl, fun _ => rfl, rfl, Nat.zero_le _⟩, rfl⟩
      · rename_i brace
        cases read
        exact ⟨.refl _, ⟨rfl, fun _ => rfl, rfl, Nat.zero_le _⟩, if_neg brace⟩
  all_goals
    cases read
    exact ⟨.refl _, ⟨rfl, fun _ => rfl, rfl, Nat.zero_le _⟩, rfl⟩

/-! ### References -/

open Expression (digits isDigit_of_mem_digits)

theorem exists_digits_cons (number : Nat) : ∃ first others, digits number = first :: others ∧
    ∀ c ∈ first :: others, c.isDigit = true := by
  have filled : digits number ≠ [] := Nat.toDigits_ne_nil
  obtain ⟨first, others, same⟩ := List.exists_cons_of_ne_nil filled
  exact ⟨first, others, same, fun c among => isDigit_of_mem_digits (same ▸ among)⟩

theorem foldl_digitValue? (chars : List Char) (value : Nat) (all : ∀ c ∈ chars, c.isDigit = true) :
    (chars.filterMap digitValue?).foldl (fun value digit => value * 10 + digit) value =
      chars.foldl (fun value digit => value * 10 + (digit.toNat - 48)) value := by
  induction chars generalizing value with
  | nil => rfl
  | cons c chars ih =>
      have here : digitValue? c = some (c.toNat - 48) := if_pos (all c List.mem_cons_self)
      rw [List.filterMap_cons_some here, List.foldl_cons, List.foldl_cons]
      exact ih _ fun d among => all d (List.mem_cons_of_mem _ among)

theorem ofDigits_digits (number : Nat) :
    ofDigits 10 ((digits number).filterMap digitValue?) = number := by
  rw [ofDigits, foldl_digitValue? _ 0 fun c among => isDigit_of_mem_digits among]
  exact Expression.foldl_digits number

theorem numberOf_digits (number : Nat) :
    numberOf ((digits number).filterMap digitValue?) = some number := by
  have value := ofDigits_digits number
  obtain ⟨first, others, same, all⟩ := exists_digits_cons number
  have digit : digitValue? first = some (first.toNat - 48) := if_pos (all first List.mem_cons_self)
  rw [same, List.filterMap_cons_some digit] at value ⊢
  exact congrArg some value

theorem takeNumber?_digits (number : Nat) {rest : List Char}
    (ends : ∀ c ∈ rest.head?, c.isDigit = false) :
    takeNumber? (digits number ++ rest) = (some number, rest) := by
  have same : isDigitOf 10 = Char.isDigit := funext isDigitOf_ten_eq
  have taken := Text.takeWhile_toDigits number ends
  change (digits number ++ rest).takeWhile Char.isDigit = digits number at taken
  have left : (digits number ++ rest).dropWhile Char.isDigit = rest := by
    have whole := List.takeWhile_append_dropWhile (p := Char.isDigit) (l := digits number ++ rest)
    rw [taken] at whole
    exact List.append_cancel_left whole
  rw [takeNumber?_eq, same, taken, left, numberOf_digits]

theorem escapeToken_digit {options : Options} {groups : GroupNames} {c : Char}
    (digit : c.isDigit = true) (nonzero : c ≠ '0') (rest : List Char) :
    escapeToken options groups (c :: rest) = numberEscape options.ignoreCase groups c rest := by
  have kind : letterKind? .wordInText c = none := by
    unfold letterKind?
    split <;> first | rfl | exact absurd digit (by decide)
  simp only [escapeToken, kind]
  split
  all_goals first | exact absurd digit (by decide) | exact absurd rfl nonzero | exact if_pos digit

/-- The short form is read as a reference up to nine, and beyond where so many groups are open. -/
theorem token_shortReference {options : Options} {groups : GroupNames} {number : Nat}
    (positive : 0 < number) (short : number ≤ lastReference)
    (known : number ≤ 9 ∨ number ≤ groups.count) {rest : List Char}
    (ends : ∀ c ∈ rest.head?, c.isDigit = false) :
    token options groups '\\' (digits number ++ rest) =
      .ok (.node (.reference [number] options.ignoreCase), rest) := by
  have taken := takeNumber?_digits number ends
  obtain ⟨first, others, same, all⟩ := exists_digits_cons number
  have nonzero : first ≠ '0' := by
    rintro rfl
    exact Text.toDigits_ne_zero_cons positive others same
  have fits : (number ≤ lastReference && (number ≤ groups.count || number ≤ 9)) = true := by
    simp only [Bool.and_eq_true, Bool.or_eq_true, decide_eq_true_eq]
    exact ⟨short, known.symm⟩
  rw [same, List.cons_append] at taken ⊢
  change escapeToken options groups (first :: (others ++ rest)) = _
  rw [escapeToken_digit (all first List.mem_cons_self) nonzero, numberEscape_eq, taken]
  exact if_pos fits

theorem referent_digits {number : Nat} (writable : number ≤ Referent.largestNumber)
    (rest : List Char) :
    Referent.read '>' (digits number ++ '>' :: rest) = .ok (.absolute number, none, rest) := by
  have value := ofDigits_digits number
  obtain ⟨first, others, same, all⟩ := exists_digits_cons number
  rw [same] at value ⊢
  have digit := all first List.mem_cons_self
  have unmarked : ∀ {c : Char}, c.isDigit = true → c ≠ '>' ∧ c ≠ ')' ∧ c ≠ '+' ∧ c ≠ '-' := by
    intro c digit
    refine ⟨?_, ?_, ?_, ?_⟩ <;> (rintro rfl; exact absurd digit (by decide))
  have body : (others ++ '>' :: rest).takeWhile
      (fun c => c ≠ '>' && c ≠ ')' && c ≠ '+' && c ≠ '-') = others := by
    rw [List.takeWhile_append_of_pos]
    · simp
    · intro c among
      simp [unmarked (all c (List.mem_cons_of_mem _ among))]
  have sound : others.dropWhile Char.isDigit = [] :=
    List.dropWhile_eq_nil_iff.mpr fun c among => all c (List.mem_cons_of_mem _ among)
  obtain ⟨mark, _, plus, minus⟩ := unmarked digit
  have named : Referent.ofName (first :: others) (first :: (others ++ '>' :: rest)) =
      .ok (.absolute number) := by
    simp only [Referent.ofName, minus, plus, digit, decide_false, Bool.or_true, Bool.or_self,
      Bool.false_eq_true, if_false, if_true, value, if_neg (Nat.not_lt_of_le writable),
      Bool.false_and]
  simp only [List.cons_append, Referent.read, if_neg mark, minus, plus, decide_false, Bool.or_self,
    Bool.false_or, digit, body, List.drop_left, Referent.fault?, if_true, sound, named]
  rfl

theorem token_markedReference {options : Options} {groups : GroupNames} {number : Nat}
    (positive : 0 < number) (writable : number ≤ Referent.largestNumber) (rest : List Char) :
    token options groups '\\' ('k' :: '<' :: digits number ++ '>' :: rest) =
      .ok (.node (.reference [number] options.ignoreCase), rest) := by
  change namedReference '>' options.ignoreCase groups (digits number ++ '>' :: rest) = _
  have some_ : ¬ (number : Int) ≤ 0 := by omega
  rw [namedReference_eq, referent_digits writable, ok_bind]
  simp only [referTo, if_neg some_]
  rfl

theorem exists_markedReference {options : Options} {groups : GroupNames} {number : Nat}
    (positive : 0 < number) (writable : number ≤ Referent.largestNumber) {rest : List Char}
    (ends : ∀ c ∈ rest.head?, c.isDigit = false) :
    ∃ written, Expression.markedReference number ++ rest = '\\' :: written ∧
      token options groups '\\' written =
        .ok (.node (.reference [number] options.ignoreCase), rest) := by
  unfold Expression.markedReference
  split
  · rename_i short
    exact ⟨_, rfl, token_shortReference positive (Nat.le_trans short (by decide)) (.inl short) ends⟩
  · have reads := @token_markedReference options groups number positive writable rest
    exact ⟨_, rfl, by simpa using reads⟩

/-! ### Pieces between two rests -/

/-- A piece that is read as one token before a text, and also before another one. -/
def Standing (more : Nat) (c : Char) (piece text place : List Char) : Prop :=
  ∀ ⦃options : Options⦄ ⦃groups : GroupNames⦄ ⦃token : Token⦄ ⦃after : List Char⦄,
    Pattern.token options groups c (piece ++ text) = .ok (token, after) →
      after = text ∧ token.Stands c more ∧
        ∀ groups, Pattern.token options groups c (piece ++ place) = .ok (token, place)

/-- Whether an escape is read on with what stands behind it, or may be. -/
def readsOn (c : Char) : Bool :=
  c.isDigit || ['x', 'o', 'u', 'p', 'P', 'c', 'C', 'M', 'g', 'k'].contains c

theorem sharedEscape_standing {c : Char} (ends : readsOn c = false) (inClass : Bool)
    (rest : List Char) :
    sharedEscape inClass c rest = .ok (.point ((controlLetter? c).getD c).toNat, rest) := by
  simp only [readsOn, Bool.or_eq_false_iff, List.contains_eq_mem, List.mem_cons, List.not_mem_nil,
    or_false, decide_eq_false_iff_not, not_or] at ends
  obtain ⟨_, hex, octal, code, _, _, lower, upper, meta_, _⟩ := ends
  have plain : startsKey c = false := by simp [startsKey, lower, upper, meta_]
  rw [sharedEscape_key inClass hex octal code, keyEscape, keyCode_plain plain]
  rfl

theorem standing_escape {c : Char} (ends : readsOn c = false) (unkept : c ≠ 'K')
    (text place : List Char) : Standing 0 '\\' [c] text place := by
  intro options groups token after read
  change escapeToken options groups (c :: text) = .ok (token, after) at read
  change after = text ∧ token.Stands '\\' 0 ∧
    ∀ groups, escapeToken options groups (c :: place) = .ok (token, place)
  cases kind : letterKind? .wordInText c with
  | some set =>
      simp only [escapeToken, kind] at read ⊢
      cases read
      exact ⟨rfl, ⟨rfl, fun _ => rfl, rfl, Nat.zero_le _⟩, fun _ => rfl⟩
  | none =>
      by_cases letter : c ∈ ['b', 'B', 'A', 'z', 'Z', 'G', 'R', 'N', 'O', 'X', 'y', 'Y']
      · simp only [List.mem_cons, List.not_mem_nil, or_false] at letter
        rcases letter with rfl | rfl | rfl | rfl | rfl | rfl | rfl | rfl | rfl | rfl | rfl | rfl
        all_goals
          cases read
          try exact ⟨rfl, ⟨rfl, fun _ => rfl, rfl, Nat.zero_le _⟩, fun _ => rfl⟩
      · have shared := sharedEscape_standing ends false
        simp only [readsOn, Bool.or_eq_false_iff, List.contains_eq_mem, List.mem_cons,
          List.not_mem_nil, or_false, decide_eq_false_iff_not, not_or] at ends letter
        have character : ∀ groups rest, escapeToken options groups (c :: rest) =
            (charOfCode ((controlLetter? c).getD c).toNat).map fun c => (.char c, rest) := by
          intro groups rest
          simp only [escapeToken, kind]
          split
          case h_21 =>
              rw [if_neg (by simp [ends.1]), shared]
              rfl
          all_goals simp_all
        rw [character] at read
        cases code : charOfCode ((controlLetter? c).getD c).toNat with
        | error failure =>
            rw [code] at read
            cases read
        | ok d =>
            rw [code] at read
            cases read
            refine ⟨rfl, ⟨rfl, fun _ => rfl, rfl, Nat.zero_le _⟩, fun groups => ?_⟩
            rw [character, code]
            rfl

/-! ### Classes -/

open Expression (Item)

def Expression.Item.ends : Item → Bool
  | .char _ _ => true
  | .escaped c => !readsOn c

theorem classEscape_standing {c : Char} (ends : readsOn c = false) (state : ClassState) :
    ∃ outcome : Except PatternError ClassState, ∀ rest,
      classEscape state (c :: rest) = outcome.map fun next => (next, rest) := by
  cases kind : letterKind? .word c with
  | some set =>
      refine ⟨state.addKind set, fun rest => ?_⟩
      simp only [classEscape, kind]
      cases state.addKind set <;> rfl
  | none =>
      have letter : c ≠ 'p' ∧ c ≠ 'P' := by
        constructor <;> (rintro rfl; cases ends)
      have octal : ¬ ('0' ≤ c && c ≤ '7') = true := by
        intro octal
        simp [readsOn, isDigit_of_octal octal] at ends
      refine ⟨state.addCode ((controlLetter? c).getD c).toNat, fun rest => ?_⟩
      rw [classEscape_plain kind letter, numberedMember_shared octal,
        sharedEscape_standing ends true, ok_bind]
      dsimp only [ClassState.addWritten]
      cases state.addCode ((controlLetter? c).getD c).toNat <;> rfl

/-- The members of a class are read in the same way whatever stands behind its bracket, given more than a
number of steps. -/
def ReadsMembers (least : Nat) (state : ClassState) (chars : List Char) : Prop :=
  ∃ outcome : Except PatternError CharSet, ∀ steps rest, least < steps →
    classMembers steps state (chars ++ ']' :: rest) = outcome.map fun set => (set, rest)

theorem ReadsMembers.nothing (state : ClassState) : ReadsMembers 0 state [] := by
  refine ⟨.ok state.intersected, fun steps rest enough => ?_⟩
  cases steps with
  | zero => cases enough
  | succ steps => rfl

theorem ReadsMembers.step {least : Nat} {state : ClassState} {first chars : List Char}
    {next : Except PatternError ClassState} (reads : ∀ state, ReadsMembers least state chars)
    (step : ∀ steps rest, classMembers (steps + 1) state (first ++ (chars ++ ']' :: rest)) =
      next >>= fun state => classMembers steps state (chars ++ ']' :: rest)) :
    ReadsMembers (least + 1) state (first ++ chars) := by
  unfold ReadsMembers
  simp only [List.append_assoc]
  cases next with
  | error failure =>
      refine ⟨.error failure, fun steps rest enough => ?_⟩
      cases steps with
      | zero => cases enough
      | succ steps => exact step steps rest
  | ok next =>
      obtain ⟨outcome, reads⟩ := reads next
      refine ⟨outcome, fun steps rest enough => ?_⟩
      cases steps with
      | zero => cases enough
      | succ steps =>
          exact (step steps rest).trans (reads steps rest (Nat.lt_of_succ_lt_succ enough))

theorem ReadsMembers.more {least most : Nat} {state : ClassState} {chars : List Char}
    (reads : ReadsMembers least state chars) (fewer : least ≤ most) :
    ReadsMembers most state chars := by
  obtain ⟨outcome, reads⟩ := reads
  exact ⟨outcome, fun steps rest enough => reads steps rest (Nat.lt_of_le_of_lt fewer enough)⟩

theorem readsMembers_items (items : List Item) (ends : items.all Item.ends = true)
    (state : ClassState) :
    ReadsMembers items.length state (items.flatMap Item.text) := by
  induction size : items.length using Nat.strongRecOn generalizing items state with
  | ind size ih => ?_
  subst size
  cases items with
  | nil => exact .nothing state
  | cons item items =>
      simp only [List.all_cons, Bool.and_eq_true] at ends
      have behind : ∀ state, ReadsMembers items.length state (items.flatMap Item.text) :=
        fun state => ih _ (Nat.lt_succ_self _) items ends.2 state rfl
      simp only [List.flatMap_cons, List.length_cons]
      cases item with
      | escaped c =>
          obtain ⟨next, escapes⟩ := classEscape_standing (by simpa [Item.ends] using ends.1) state
          apply @ReadsMembers.step _ _ ['\\', c] _ next behind
          intro steps rest
          change (classEscape state (c :: _) >>= fun found => classMembers steps found.1 found.2) = _
          rw [escapes]
          cases next <;> rfl
      | char c flat =>
          by_cases hyphen : c = '-'
          · subst hyphen
            have closes : Closes (items.flatMap Item.text ++ [']']) := by
              rw [Closes, List.getLast?_append]
              rfl
            apply @ReadsMembers.step _ _ ['-'] _
              (state.addHyphen (items.flatMap Item.text ++ [']'])) behind
            intro steps rest
            have same := endsRange_closes closes rest
            rw [List.append_assoc] at same
            rw [← addHyphen_congr state same]
            rfl
          by_cases both : c = '&' ∧ ∃ flat others, items = .char '&' flat :: others
          · -- two characters are one step
            obtain ⟨rfl, flat, others, rfl⟩ := both
            simp only [List.all_cons, Bool.and_eq_true] at ends
            have beyond : ∀ state, ReadsMembers others.length state (others.flatMap Item.text) :=
              fun state => ih _ (Nat.lt_succ_of_lt (Nat.lt_succ_self _)) others ends.2.2 state rfl
            exact (@ReadsMembers.step _ _ ['&', '&'] _ (.ok state.intersect) beyond
              fun steps rest => rfl).more (Nat.le_succ _)
          · apply @ReadsMembers.step _ _ [c] _ (state.addCode c.toNat) behind
            intro steps rest
            apply classMembers_char
            · simp only [List.mem_cons, List.not_mem_nil, or_false, not_or] at flat ⊢
              exact ⟨flat.2.1, flat.2.2, hyphen, flat.1⟩
            · intro ampersand tail same
              apply both
              refine ⟨ampersand, ?_⟩
              cases items with
              | nil => cases same
              | cons next others =>
                  cases next with
                  | escaped d => cases same
                  | char d plain =>
                      obtain ⟨rfl, _⟩ := List.cons.inj same
                      exact ⟨plain, others, rfl⟩

theorem length_items (items : List Item) : items.length ≤ (items.flatMap Item.text).length := by
  induction items with
  | nil => exact Nat.le_refl 0
  | cons item items ih =>
      have some_ : 1 ≤ item.text.length := by
        cases item <;> simp [Item.text]
      simp only [List.flatMap_cons, List.length_append, List.length_cons]
      omega

/-- A class starts with its first item, if that is not the sign of its negation. -/
theorem classStart_items {negated : Bool} {first : Item} {others : List Item}
    (unsigned : (negated || first.text ≠ ['^']) = true) (rest : List Char) :
    classStart ((if negated then ['^'] else []) ++
      ((first :: others).flatMap Item.text ++ ']' :: rest)) =
        .ok (negated, {}, (first :: others).flatMap Item.text ++ ']' :: rest) := by
  have unclosed : ∀ {c : Char} {chars : List Char}, c ≠ ']' → ∀ negated,
      startOf negated (c :: chars) = .ok (negated, {}, c :: chars) := by
    intro c chars bracket negated
    unfold startOf
    split
    · rename_i same
      exact absurd (List.cons.inj same).1 bracket
    · rfl
  obtain ⟨c, chars, same, bracket⟩ : ∃ c chars, first.text = c :: chars ∧ c ≠ ']' := by
    cases first with
    | char c flat =>
        refine ⟨c, [], rfl, ?_⟩
        rintro rfl
        exact flat (by decide)
    | escaped c => exact ⟨'\\', [c], rfl, by decide⟩
  rw [List.flatMap_cons, same, List.append_assoc, List.cons_append]
  cases negated with
  | true => exact unclosed bracket true
  | false =>
      have circumflex : c ≠ '^' := by
        rintro rfl
        cases first with
        | char c flat =>
            obtain ⟨rfl, rfl⟩ := List.cons.inj same
            simp [Item.text] at unsigned
        | escaped c => cases same
      exact (classStart_plain circumflex _).trans (unclosed bracket false)

theorem bracketClass_items (foldCase : Bool) {negated : Bool} {first : Item} {others : List Item}
    (ends : (first :: others).all Item.ends = true)
    (unsigned : (negated || first.text ≠ ['^']) = true) :
    ∃ outcome : Except PatternError BracketClass, ∀ rest,
      bracketClass foldCase ((if negated then ['^'] else []) ++
        ((first :: others).flatMap Item.text ++ ']' :: rest)) =
          outcome.map fun members => (members, rest) := by
  obtain ⟨members, reads⟩ := readsMembers_items (first :: others) ends {}
  refine ⟨members.map fun members =>
    let set := if foldCase then .folded members else members
    if negated then { set := .complement set }
    else { set, spellings := if foldCase then set.longFoldings else [] }, fun rest => ?_⟩
  have enough : (first :: others).length < 5 * ((if negated then ['^'] else []) ++
      ((first :: others).flatMap Item.text ++ ']' :: rest)).length + 1 := by
    have length := length_items (first :: others)
    simp only [List.length_append] at length ⊢
    omega
  rw [bracketClass, classStart_items unsigned, ok_bind]
  dsimp only
  rw [reads _ rest enough]
  cases members with
  | error failure => rfl
  | ok members => cases negated <;> rfl

theorem standing_class {negated : Bool} {first : Item} {others : List Item}
    (ends : (first :: others).all Item.ends = true)
    (unsigned : (negated || first.text ≠ ['^']) = true) (text place : List Char) :
    Standing 0 '[' ((if negated then ['^'] else []) ++
      ((first :: others).flatMap Item.text ++ [']'])) text place := by
  intro options groups token after read
  obtain ⟨outcome, reads⟩ := bracketClass_items options.ignoreCase ends unsigned
  have whole : ∀ groups rest, Pattern.token options groups '['
      ((if negated then ['^'] else []) ++ ((first :: others).flatMap Item.text ++ [']']) ++ rest) =
        outcome.map fun members => (.node (if members.spellings.isEmpty then .set members.set
          else .either (.set members.set) (.spelled members.spellings)), rest) := by
    intro groups rest
    simp only [List.append_assoc, List.singleton_append]
    change (bracketClass options.ignoreCase _ >>= fun found => _) = _
    rw [reads]
    cases outcome <;> rfl
  rw [whole] at read
  cases outcome with
  | error failure => cases read
  | ok members =>
      cases read
      refine ⟨rfl, ?_, fun groups => whole groups place⟩
      split <;> exact ⟨rfl, fun _ => rfl, rfl, Nat.zero_le _⟩

/-! ### Openings -/

open Expression (GroupKind)

theorem readName_word {mark : Char} (apart : Unicode.isWordInText mark = false) {first : Char}
    {others : List Char} (word : ∀ c ∈ first :: others, Unicode.isWordInText c = true)
    (letter : first.isDigit = false) (rest : List Char) :
    GroupNames.readName mark (first :: (others ++ mark :: rest)) =
      .ok (String.ofList (first :: others), rest) := by
  have unmarked : ∀ {c : Char}, Unicode.isWordInText c = true →
      c ≠ mark ∧ c ≠ ')' ∧ c ≠ '-' ∧ c ≠ '+' := by
    intro c word
    refine ⟨?_, ?_, ?_, ?_⟩
    · rintro rfl
      rw [apart] at word
      cases word
    all_goals
      rintro rfl
      exact absurd word (by decide)
  obtain ⟨other, _, minus, plus⟩ := unmarked (word first List.mem_cons_self)
  have name : (others ++ mark :: rest).takeWhile (fun c => c ≠ mark && c ≠ ')') = others := by
    rw [List.takeWhile_append_of_pos]
    · simp
    · intro c among
      simp [unmarked (word c (List.mem_cons_of_mem _ among))]
  simp only [GroupNames.readName, if_neg other, letter, minus, plus, decide_false, Bool.or_self,
    Bool.false_eq_true, if_false, word first List.mem_cons_self, Bool.not_true, name,
    List.length_cons, List.drop_succ_cons, List.drop_left, if_true]

theorem readName_digit {mark first : Char} (digit : first.isDigit = true) (rest : List Char) :
    ∃ failure, GroupNames.readName mark (first :: rest) = .error failure := by
  unfold GroupNames.readName
  dsimp only
  split
  · exact ⟨_, rfl⟩
  · rw [if_pos (by simp [digit])]
    exact ⟨_, rfl⟩

theorem namedOpening_word {mark : Char} (apart : Unicode.isWordInText mark = false) {first : Char}
    {others : List Char} (word : ∀ c ∈ first :: others, Unicode.isWordInText c = true)
    {text after : List Char} {token : Token}
    (read : extendedOpening.namedOpening mark (first :: (others ++ mark :: text)) =
      .ok (token, after)) :
    after = text ∧ token.Stands '(' 1 ∧ ∀ place,
      extendedOpening.namedOpening mark (first :: (others ++ mark :: place)) = .ok (token, place) := by
  cases letter : first.isDigit with
  | true =>
      obtain ⟨failure, fails⟩ := @readName_digit mark first letter (others ++ mark :: text)
      rw [extendedOpening.namedOpening, fails] at read
      cases read
  | false =>
      have reads := readName_word apart word letter
      rw [extendedOpening.namedOpening, reads] at read
      cases read
      refine ⟨rfl, ⟨rfl, fun _ => rfl, rfl, Nat.le_refl 1⟩, fun place => ?_⟩
      rw [extendedOpening.namedOpening, reads]
      rfl

theorem token_capture {options : Options} (groups : GroupNames) {rest : List Char}
    (start : ∀ c ∈ rest.head?, c ≠ '?' ∧ c ≠ '*') (filled : rest ≠ []) :
    token options groups '(' rest = .ok (.opening (.capture none), rest) := by
  obtain ⟨c, rest, rfl⟩ := List.exists_cons_of_ne_nil filled
  obtain ⟨question, star⟩ := start c rfl
  simp only [token]
  split <;> simp_all

theorem standing_groupKind (kind : GroupKind) {text place : List Char}
    (start : ∀ c ∈ text.head?, c ≠ '?' ∧ c ≠ '*') (filled : text ≠ [])
    (same : place.head? = text.head?) :
    Standing (if kind.isCapture then 1 else 0) '(' kind.text text place := by
  intro options groups token after read
  cases kind with
  | capture =>
      change Pattern.token options groups '(' text = _ at read
      rw [token_capture groups start filled] at read
      cases read
      have filledToo : place ≠ [] := by
        rintro rfl
        exact filled (List.head?_eq_none_iff.mp same.symm)
      refine ⟨rfl, ⟨rfl, fun _ => rfl, rfl, Nat.le_refl 1⟩, fun groups => ?_⟩
      exact token_capture groups (same ▸ start) filledToo
  | named mark first others word =>
      cases mark with
      | angle =>
          have equal : first ≠ '=' := by
            rintro rfl
            exact absurd (word '=' List.mem_cons_self) (by decide)
          have bang : first ≠ '!' := by
            rintro rfl
            exact absurd (word '!' List.mem_cons_self) (by decide)
          have opens := @extendedOpening_named options first equal bang
          simp only [GroupKind.text, List.cons_append, List.append_assoc, List.nil_append] at read ⊢
          change extendedOpening options ('<' :: first :: _) = _ at read
          rw [opens] at read
          obtain ⟨rest, stands, again⟩ := namedOpening_word (by decide) word read
          exact ⟨rest, stands, fun _ => (opens _).trans (again place)⟩
      | quote =>
          simp only [GroupKind.text, List.cons_append, List.append_assoc, List.nil_append] at read ⊢
          obtain ⟨rest, stands, again⟩ := namedOpening_word (by decide) word read
          exact ⟨rest, stands, fun _ => again place⟩
      | python => cases read
  | look behind negated =>
      cases behind <;> cases negated
      all_goals
        cases read
        exact ⟨rfl, ⟨rfl, fun _ => rfl, rfl, Nat.le_refl 1⟩, fun _ => rfl⟩
  | _ =>
      cases read
      exact ⟨rfl, ⟨rfl, fun _ => rfl, rfl, Nat.le_refl 1⟩, fun _ => rfl⟩

end Highlight.Pattern
