import Highlight.Proofs.Pattern.Reading.Bracket

set_option autoImplicit false

/-! Reading whole tokens. -/

namespace Highlight.Pattern

open Outcome

/-! ### Repetitions -/

theorem repetitionMark_readsTo (least : Nat) (most : Option Nat) (input : List Char) :
    ReadsTo (repetitionMark least most) (fun rest => ((repetitionMark least most input).1, rest))
      input (repetitionMark least most input).2 := by
  cases input with
  | nil => exact .ended _
  | cons c input =>
      by_cases lazy : c = '?'
      · subst lazy
        exact .taken ['?'] fun _ => rfl
      by_cases possessive : c = '+'
      · subst possessive
        exact .taken ['+'] fun _ => rfl
      have plain : ∀ input, repetitionMark least most (c :: input) =
          (.repetition { least, most }, c :: input) := by
        intro input
        unfold repetitionMark
        split
        · rename_i same
          exact absurd (List.cons.inj same).1 lazy
        · rename_i same
          exact absurd (List.cons.inj same).1 possessive
        · rfl
      rw [plain]
      apply ReadsTo.here
      intro other alike
      obtain ⟨tail, rfl⟩ := alike.head
      rw [plain]

def closeBounds (least : Nat) (most : Option Nat) (fixed : Bool) :
    List Char → Except PatternError (Option (Nat × Option Nat × Bool × List Char))
  | c :: rest => .ok (if c = Char.ofNat 125 then some (least, most, fixed, rest) else none)
  | [] => .ok none

def boundsTo (least most : Option Nat) (rest : List Char) :
    Except PatternError (Option (Nat × Option Nat × Bool × List Char)) :=
  match most, least with
  | some most, _ =>
    if mostRepetitions < most then .error .bigRepeat
    else closeBounds (least.getD 0) (some most) false rest
  | none, some least => closeBounds least none false rest
  | none, none => .ok none

def fixedBounds (least : Option Nat) (rest : List Char) :
    Except PatternError (Option (Nat × Option Nat × Bool × List Char)) :=
  match least with
  | some least => closeBounds least (some least) true rest
  | none => .ok none

def boundsBehind (least : Option Nat) (rest : List Char) :
    Except PatternError (Option (Nat × Option Nat × Bool × List Char)) :=
  if least.any (mostRepetitions < ·) then .error .bigRepeat
  else if rest.head? = some ',' then
    boundsTo least (takeNumber? (rest.drop 1)).1 (takeNumber? (rest.drop 1)).2
  else fixedBounds least rest

theorem bounds?_eq (input : List Char) :
    bounds? input = boundsBehind (takeNumber? input).1 (takeNumber? input).2 := by
  unfold bounds? boundsBehind
  rcases takeNumber? input with ⟨_ | least, rest⟩
  · cases rest with
    | nil => rfl
    | cons c rest =>
        by_cases comma : c = ','
        · subst comma
          have drop : (',' :: rest).drop 1 = rest := rfl
          simp only [drop, Option.any_none, Bool.false_eq_true, if_false, List.head?_cons, if_true]
          rcases takeNumber? rest with ⟨_ | most, rest⟩ <;> rfl
        · simp [comma, fixedBounds]
  · by_cases big : mostRepetitions < least
    · simp [big]
    · cases rest with
      | nil => simp [big, closeBounds, fixedBounds]
      | cons c rest =>
          by_cases comma : c = ','
          · subst comma
            have drop : (',' :: rest).drop 1 = rest := rfl
            simp only [big, if_false, Option.any_some, decide_false, Bool.false_eq_true,
              List.head?_cons, if_true, drop]
            rcases takeNumber? rest with ⟨_ | most, rest⟩ <;> rfl
          · simp [big, comma, closeBounds, fixedBounds]

/-- A reader of bounds: what it reads of a source is the same if something alike is left of it, and if
it reads nothing of a source, it reads nothing of one that is alike. -/
structure ReadsBounds
    (read : List Char → Except PatternError (Option (Nat × Option Nat × Bool × List Char))) :
    Prop where
  found : ∀ {input rest : List Char} {least : Nat} {most : Option Nat} {fixed : Bool},
    read input = .ok (some (least, most, fixed, rest)) →
      ReadsTo read (fun rest => .ok (some (least, most, fixed, rest))) input rest
  missing : ∀ {input other : List Char}, read input = .ok none → Alike input other →
    read other = .ok none

theorem closeBounds_readsBounds (least : Nat) (most : Option Nat) (fixed : Bool) :
    ReadsBounds (closeBounds least most fixed) := by
  constructor
  · intro input rest least most fixed read
    cases input with
    | nil => cases read
    | cons c input =>
        simp only [closeBounds] at read
        split at read
        · rename_i brace
          cases read
          apply ReadsTo.taken [c]
          intro other
          simp only [List.singleton_append, closeBounds, if_pos brace]
        · cases read
  · intro input other read alike
    cases input with
    | nil => cases alike
    | cons c input =>
        obtain ⟨tail, rfl⟩ := alike.head
        simp only [closeBounds] at read ⊢
        split at read
        · cases read
        · rename_i brace
          rw [if_neg brace]

theorem ReadsBounds.ofError (failure : PatternError) : ReadsBounds fun _ => .error failure := by
  constructor
  · intro input rest least most fixed impossible
    cases impossible
  · intro input other impossible
    cases impossible

theorem ReadsBounds.ofNone : ReadsBounds fun _ => .ok none := by
  constructor
  · intro input rest least most fixed impossible
    cases impossible
  · intro input other _ _
    rfl

theorem ReadsBounds.behindNumber
    {read : List Char → Except PatternError (Option (Nat × Option Nat × Bool × List Char))}
    {after : Option Nat → List Char →
      Except PatternError (Option (Nat × Option Nat × Bool × List Char))}
    (reads : ∀ number, ReadsBounds (after number))
    (same : ∀ input, read input = after (takeNumber? input).1 (takeNumber? input).2) :
    ReadsBounds read := by
  constructor
  · intro input rest least most fixed found
    rw [same] at found
    obtain ⟨used, taken, numbers⟩ := takeNumber?_readsTo (Prod.eta (takeNumber? input)).symm
    obtain ⟨more, left, closes⟩ := (reads _).found found
    refine ⟨used ++ more, by rw [taken, left, List.append_assoc], ?_⟩
    intro other alike
    have whole : Alike (takeNumber? input).2 (more ++ other) := by
      rw [left]
      exact alike.append more
    rw [List.append_assoc, same, numbers _ whole]
    exact closes other alike
  · intro input other found alike
    rw [same] at found ⊢
    have alike := takeNumber?_alike alike
    rw [alike.1]
    exact (reads _).missing found alike.2

theorem boundsTo_readsBounds (least most : Option Nat) : ReadsBounds (boundsTo least most) := by
  cases most with
  | some most =>
      by_cases big : mostRepetitions < most
      · have same : boundsTo least (some most) = fun _ => .error .bigRepeat := by
          funext rest
          exact if_pos big
        rw [same]
        exact .ofError _
      · have same : boundsTo least (some most) = closeBounds (least.getD 0) (some most) false := by
          funext rest
          exact if_neg big
        rw [same]
        exact closeBounds_readsBounds ..
  | none =>
      cases least with
      | some least => exact closeBounds_readsBounds ..
      | none => exact .ofNone

theorem boundsBehind_readsBounds (least : Option Nat) : ReadsBounds (boundsBehind least) := by
  by_cases big : least.any (mostRepetitions < ·) = true
  · have same : boundsBehind least = fun _ => .error .bigRepeat := funext fun _ => if_pos big
    rw [same]
    exact .ofError _
  have behindComma : ReadsBounds fun rest =>
      boundsTo least (takeNumber? rest).1 (takeNumber? rest).2 :=
    .behindNumber (boundsTo_readsBounds least) fun _ => rfl
  have plain : ReadsBounds (fixedBounds least) := by
    cases least with
    | some least => exact closeBounds_readsBounds ..
    | none => exact .ofNone
  have comma : ∀ rest, boundsBehind least (',' :: rest) =
      boundsTo least (takeNumber? rest).1 (takeNumber? rest).2 := fun _ => if_neg big
  have beyond : ∀ {input : List Char}, input.head? ≠ some ',' →
      boundsBehind least input = fixedBounds least input := by
    intro input other
    simp only [boundsBehind, if_neg big, if_neg other]
  constructor
  · intro input rest least most fixed found
    cases input with
    | nil =>
        have end_ : ([] : List Char).head? ≠ some ',' := fun impossible => by cases impossible
        rw [beyond end_] at found
        obtain ⟨used, taken, reads⟩ := plain.found found
        obtain ⟨rfl, rfl⟩ := List.append_eq_nil_iff.mp taken.symm
        exact .ended _
    | cons c input =>
        by_cases same : c = ','
        · subst same
          rw [comma] at found
          exact (behindComma.found found).onward [','] comma
        · have other : ∀ rest : List Char, (c :: rest).head? ≠ some ',' :=
            fun _ head => same (Option.some.inj head)
          rw [beyond (other _)] at found
          exact (plain.found found).sameHead fun rest => beyond (other rest)
  · intro input other found alike
    cases input with
    | nil => cases alike
    | cons c input =>
        by_cases same : c = ','
        · subst same
          rw [comma] at found
          cases alike with
          | stop _ stops => exact absurd stops (by decide)
          | same _ alike =>
              rw [comma]
              exact behindComma.missing found alike
        · have other : ∀ rest : List Char, (c :: rest).head? ≠ some ',' :=
            fun _ head => same (Option.some.inj head)
          obtain ⟨tail, rfl⟩ := alike.head
          rw [beyond (other _)] at found ⊢
          exact plain.missing found alike

theorem bounds?_readsBounds : ReadsBounds bounds? :=
  .behindNumber boundsBehind_readsBounds bounds?_eq

def lazyMark (least : Nat) (most : Option Nat) : List Char → Token × List Char
  | '?' :: rest => (.repetition { least, most, greedy := false }, rest)
  | rest => (.repetition { least, most }, rest)

theorem lazyMark_readsTo (least : Nat) (most : Option Nat) (input : List Char) :
    ReadsTo (lazyMark least most) (fun rest => ((lazyMark least most input).1, rest)) input
      (lazyMark least most input).2 := by
  cases input with
  | nil => exact .ended _
  | cons c input =>
      by_cases lazy : c = '?'
      · subst lazy
        exact .taken ['?'] fun _ => rfl
      · have plain : ∀ input, lazyMark least most (c :: input) =
            (.repetition { least, most }, c :: input) := by
          intro input
          unfold lazyMark
          split
          · rename_i same
            exact absurd (List.cons.inj same).1 lazy
          · rfl
        rw [plain]
        apply ReadsTo.here
        intro other alike
        obtain ⟨tail, rfl⟩ := alike.head
        rw [plain]

def boundsToken (least : Nat) (most : Option Nat) (fixed : Bool) (after : List Char) :
    Token × List Char :=
  if fixed then (.repetition { least, most }, after)
  else if most.any (· < least) then
    (.repetition { least := most.getD 0, most := some least, possessive := true }, after)
  else lazyMark least most after

theorem braceToken_eq (input : List Char) :
    braceToken input = bounds? input >>= fun bounds =>
      match bounds with
      | none => .ok (.char (Char.ofNat 123), input)
      | some (least, most, fixed, after) => .ok (boundsToken least most fixed after) := by
  unfold braceToken
  congr 1
  funext bounds
  rcases bounds with _ | ⟨least, _ | most, _ | _, after⟩
  · rfl
  · simp only [boundsToken, Option.any_none, Bool.false_eq_true, if_false]
    split
    · rfl
    · rename_i plain
      rw [lazyMark]
      · rfl
      · exact plain
  · rfl
  · simp only [boundsToken, Option.any_some, Bool.false_eq_true, if_false, decide_eq_true_eq]
    split
    · rfl
    · split
      · rfl
      · rename_i plain
        rw [lazyMark]
        · rfl
        · exact plain
  · rfl

theorem boundsToken_readsTo (least : Nat) (most : Option Nat) (fixed : Bool) (input : List Char) :
    ReadsTo (boundsToken least most fixed) (fun rest => ((boundsToken least most fixed input).1, rest))
      input (boundsToken least most fixed input).2 := by
  by_cases one : fixed = true
  · have same : boundsToken least most fixed = fun input =>
        (.repetition { least, most }, input) := funext fun _ => if_pos one
    rw [same]
    exact .here fun _ _ => rfl
  by_cases exchanged : most.any (· < least) = true
  · have same : boundsToken least most fixed = fun input =>
        (.repetition { least := most.getD 0, most := some least, possessive := true }, input) := by
      funext input
      unfold boundsToken
      rw [if_neg one, if_pos exchanged]
    rw [same]
    exact .here fun _ _ => rfl
  · have same : boundsToken least most fixed = lazyMark least most := by
      funext input
      unfold boundsToken
      rw [if_neg one, if_neg exchanged]
    rw [same]
    exact lazyMark_readsTo least most input

theorem braceToken_readsTo {input rest : List Char} {token : Token}
    (read : braceToken input = .ok (token, rest)) :
    ReadsTo braceToken (fun rest => .ok (token, rest)) input rest := by
  rw [braceToken_eq] at read
  obtain ⟨bounds, found, read⟩ := bind_eq_ok.mp read
  cases bounds with
  | none =>
      cases read
      apply ReadsTo.here
      intro other alike
      rw [braceToken_eq, bounds?_readsBounds.missing found alike]
      rfl
  | some bounds =>
      obtain ⟨least, most, fixed, after⟩ := bounds
      obtain ⟨used, taken, reads⟩ := bounds?_readsBounds.found found
      obtain ⟨more, left, readsMore⟩ := boundsToken_readsTo least most fixed after
      have same := Except.ok.inj read
      rw [same] at left readsMore
      refine ⟨used ++ more, by rw [taken, List.append_assoc, ← left], ?_⟩
      intro other alike
      have whole : Alike after (more ++ other) := by
        rw [left]
        exact alike.append more
      rw [List.append_assoc, braceToken_eq, reads _ whole, ok_bind]
      exact congrArg Except.ok (readsMore other alike)

/-! ### Opening parentheses -/

theorem optionToken_readsTo {options : Options} {off : Bool} {input rest : List Char} {token : Token}
    (read : optionToken options off input = .ok (token, rest)) :
    ReadsTo (optionToken options off) (fun rest => .ok (token, rest)) input rest := by
  fun_induction optionToken options off input with
  | case2 =>
      cases read
      exact .taken [')'] fun _ => rfl
  | case3 =>
      cases read
      exact .taken [':'] fun _ => rfl
  | case4 options off input ih => exact (ih read).onward ['-'] fun _ => rfl
  | case5 options off input ih => exact (ih read).onward ['i'] fun _ => rfl
  | case6 options off input ih => exact (ih read).onward ['m'] fun _ => rfl
  | case7 options off input ih => exact (ih read).onward ['x'] fun _ => rfl
  | _ => cases read

theorem skipComment_readsTo {input rest : List Char} (read : skipComment input = .ok rest) :
    ReadsTo skipComment .ok input rest := by
  fun_induction skipComment input with
  | case3 c input ih => exact (ih read).onward ['\\', c] fun _ => rfl
  | case4 input =>
      cases read
      exact .taken [')'] fun _ => rfl
  | case5 c input single pair other ih =>
      have plain : c ≠ '\\' := by
        intro same
        cases input with
        | nil => exact single same rfl
        | cons d input => exact pair d input same rfl
      apply (ih read).onward [c]
      intro rest
      rw [List.singleton_append, skipComment, if_neg other]
      · exact fun same _ => plain same
      · exact fun _ _ same _ => plain same
  | _ => cases read

theorem skipNote_readsTo {braces met : Nat} {input rest : List Char}
    (read : skipNote braces met input = .ok rest) :
    ReadsTo (skipNote braces met) .ok input rest := by
  fun_induction skipNote braces met input with
  | case1 => cases read
  | case2 met input last =>
      cases read
      apply ReadsTo.taken [Char.ofNat 125]
      intro other
      rw [List.singleton_append, skipNote, if_pos rfl, if_pos last]
  | case3 met input last ih =>
      apply (ih read).onward [Char.ofNat 125]
      intro other
      rw [List.singleton_append, skipNote, if_pos rfl, if_neg last]
  | case4 met c input other ih =>
      apply (ih read).onward [c]
      intro rest
      rw [List.singleton_append, skipNote, if_neg other]

theorem noteToken_readsTo {input rest : List Char} {token : Token}
    (read : noteToken input = .ok (token, rest)) :
    ReadsTo noteToken (fun rest => .ok (token, rest)) input rest := by
  obtain ⟨used, taken, braces⟩ := takeWhile_again (· = Char.ofNat 123) input
  obtain ⟨skipped, found, read⟩ := bind_eq_ok.mp read
  rw [drop_takeWhile] at found
  split at read
  · cases read
  · cases read
    obtain ⟨more, left, skips⟩ := skipNote_readsTo found
    refine ⟨used ++ more ++ [')'], by rw [taken, left]; simp, ?_⟩
    intro other alike
    have behind : Alike (')' :: rest) (')' :: other) := alike.same ')'
    have whole := left ▸ behind.append more
    obtain ⟨same, drops⟩ := braces _ whole
    rw [List.append_assoc, List.append_assoc, List.singleton_append]
    simp only [noteToken, same, drops, skips _ behind]
    rfl
  · cases read

theorem conditionToken_readsTo {input rest : List Char} {token : Token}
    (read : conditionToken input = .ok (token, rest)) :
    ReadsTo conditionToken (fun rest => .ok (token, rest)) input rest := by
  obtain ⟨used, taken, again⟩ := takeWhile_again
    (fun c => c ≠ ')' && c ≠ '[' && c ≠ Char.ofNat 123) input
  simp only [conditionToken, drop_takeWhile] at read
  generalize input.dropWhile _ = beyond at taken again read
  split at read
  · cases read
  split at read
  · cases read
  rename_i named
  split at read
  · cases read
  rename_i closing
  split at read
  · rename_i fail
    cases read
    obtain rfl := Decidable.not_not.mp closing
    refine ⟨used ++ [')'], by rw [taken]; simp, ?_⟩
    intro other alike
    have behind : Alike (')' :: rest) (')' :: other) := alike.same ')'
    obtain ⟨same, drops⟩ := again _ behind
    rw [List.append_assoc, List.singleton_append]
    simp only [conditionToken, same, drops, if_neg named, if_neg closing, if_pos fail]
  · cases read

theorem namedOpening_readsTo {mark : Char} {input rest : List Char} {token : Token}
    (read : extendedOpening.namedOpening mark input = .ok (token, rest)) :
    ReadsTo (extendedOpening.namedOpening mark) (fun rest => .ok (token, rest)) input rest := by
  obtain ⟨⟨name, after⟩, found, read⟩ := bind_eq_ok.mp read
  cases read
  exact (readName_readsTo found).mapped fun name => Token.opening (.capture (some name))

theorem extendedOpening_named {options : Options} {c : Char} (equal : c ≠ '=') (bang : c ≠ '!')
    (input : List Char) :
    extendedOpening options ('<' :: c :: input) =
      extendedOpening.namedOpening '>' (c :: input) := by
  rw [extendedOpening]
  all_goals simp_all

theorem extendedOpening_options {options : Options} {c : Char}
    (plain : c ∉ [')', '#', ':', '=', '!', '>', '<', '\'']) (brace : c ≠ Char.ofNat 123)
    (input : List Char) :
    extendedOpening options (c :: input) = optionToken options false (c :: input) := by
  simp only [List.mem_cons, List.not_mem_nil, or_false, not_or] at plain
  unfold extendedOpening
  split
  all_goals first | contradiction | rfl | simp_all

theorem extendedOpening_readsTo {options : Options} {input rest : List Char} {token : Token}
    (read : extendedOpening options input = .ok (token, rest)) :
    ReadsTo (extendedOpening options) (fun rest => .ok (token, rest)) input rest := by
  have found := read
  unfold extendedOpening at read
  split at read
  case h_1 => cases read
  case h_2 => cases read
  case h_3 input =>
      obtain ⟨after, skipped, read⟩ := bind_eq_ok.mp read
      cases read
      have reads := (skipComment_readsTo skipped).map fun outcome =>
        outcome >>= fun after => (pure (Token.skipped, after) : Except PatternError _)
      exact reads.onward ['#'] fun _ => rfl
  case h_8 => cases read
  case h_11 input ended ahead negated =>
      cases input with
      | nil => exact absurd rfl ended
      | cons c input =>
          have equal : c ≠ '=' := fun same => ahead input (same ▸ rfl)
          have bang : c ≠ '!' := fun same => negated input (same ▸ rfl)
          have opens := @extendedOpening_named options c equal bang
          have reads : ReadsTo (fun input => extendedOpening options ('<' :: input))
              (fun rest => .ok (token, rest)) (c :: input) rest :=
            (namedOpening_readsTo read).sameHead opens
          exact reads.onward ['<'] fun _ => rfl
  case h_12 input => exact (namedOpening_readsTo read).onward ['\''] fun _ => rfl
  case h_13 c input closing comment plain equal bang atomic ended ahead negated named quoted =>
      by_cases brace : c = Char.ofNat 123
      · subst brace
        rw [if_pos rfl] at read
        exact (noteToken_readsTo read).onward [Char.ofNat 123] fun _ => rfl
      · have letters : c ∉ [')', '#', ':', '=', '!', '>', '<', '\''] := by
          simp only [List.mem_cons, List.not_mem_nil, or_false, not_or]
          exact ⟨closing, comment, plain, equal, bang, atomic, named, quoted⟩
        have same := @extendedOpening_options options c letters brace
        rw [if_neg brace] at read
        exact (optionToken_readsTo read).sameHead same
  all_goals
    cases read
    first
    | exact .taken [_] fun _ => rfl
    | exact .taken [_, _] fun _ => rfl

/-! ### Tokens -/

theorem lineComment_readsTo (input : List Char) :
    ReadsTo (fun input => (input.dropWhile (· ≠ '\n')).drop 1) id input
      ((input.dropWhile (· ≠ '\n')).drop 1) := by
  obtain ⟨used, taken, reads⟩ := dropWhile_readsTo (· ≠ '\n') input
  generalize input.dropWhile (· ≠ '\n') = beyond at taken reads ⊢
  cases beyond with
  | nil => exact .ended _
  | cons c rest =>
      refine ⟨used ++ [c], by rw [taken]; simp, ?_⟩
      intro other alike
      rw [List.append_assoc, List.singleton_append]
      exact congrArg (List.drop 1) (Prod.mk.inj (reads _ (alike.same c))).2

theorem groupToken_readsTo {options : Options} {groups : GroupNames} {input rest : List Char}
    {token : Token} (read : Pattern.token options groups '(' input = .ok (token, rest)) :
    ReadsTo (Pattern.token options groups '(') (fun rest => .ok (token, rest)) input rest := by
  cases input with
  | nil => cases read
  | cons c input =>
      by_cases extended : c = '?'
      · subst extended
        exact (extendedOpening_readsTo read).onward ['?'] fun _ => rfl
      by_cases condition : c = '*'
      · subst condition
        exact (conditionToken_readsTo read).onward ['*'] fun _ => rfl
      have plain : ∀ input, Pattern.token options groups '(' (c :: input) =
          .ok (.opening (.capture none), c :: input) := by
        intro input
        simp only [Pattern.token]
        split <;> simp_all
      rw [plain] at read
      cases read
      apply ReadsTo.here
      intro other alike
      obtain ⟨tail, rfl⟩ := alike.head
      exact plain tail

theorem classToken_readsTo {options : Options} {groups : GroupNames} {input rest : List Char}
    {token : Token} (read : Pattern.token options groups '[' input = .ok (token, rest)) :
    ReadsTo (Pattern.token options groups '[') (fun rest => .ok (token, rest)) input rest := by
  obtain ⟨⟨members, after⟩, found, read⟩ := bind_eq_ok.mp read
  cases read
  exact (bracketClass_readsTo found).mapped fun members => Token.node
    (if members.spellings.isEmpty then .set members.set
      else .either (.set members.set) (.spelled members.spellings))

theorem markToken_readsTo {least : Nat} {most : Option Nat} {input rest : List Char} {token : Token}
    (read : (.ok (repetitionMark least most input) : Except PatternError (Token × List Char)) =
      .ok (token, rest)) :
    ReadsTo (fun input => .ok (repetitionMark least most input))
      (fun rest => (.ok (token, rest) : Except PatternError (Token × List Char))) input rest := by
  have reads := repetitionMark_readsTo least most input
  rw [Except.ok.inj read] at reads
  exact reads.map Except.ok

/-- A token that starts with no backslash. -/
theorem token_readsTo {options : Options} {groups : GroupNames} {c : Char} {input rest : List Char}
    {token : Token} (unescaped : c ≠ '\\')
    (read : Pattern.token options groups c input = .ok (token, rest)) :
    ReadsTo (Pattern.token options groups c) (fun rest => .ok (token, rest)) input rest := by
  have found := read
  unfold Pattern.token at read
  split at read
  case h_1 => exact absurd rfl unescaped
  case h_5 | h_6 | h_7 => exact markToken_readsTo read
  case h_10 => exact groupToken_readsTo found
  case h_11 => exact classToken_readsTo found
  case h_12 backslash dot start end_ star plus question bar closing opening bracket =>
      have plain : ∀ input, Pattern.token options groups c input =
          if c = Char.ofNat 123 then braceToken input
          else if (options.extended && c = '#') = true then
            .ok (.skipped, (input.dropWhile (· ≠ '\n')).drop 1)
          else if (options.extended && isPassedOver c) = true then .ok (.skipped, input)
          else .ok (.char c, input) := by
        intro input
        simp only [Pattern.token]
      by_cases brace : c = Char.ofNat 123
      · have same : Pattern.token options groups c = braceToken := by
          funext input
          rw [plain, if_pos brace]
        rw [if_pos brace] at read
        rw [same]
        exact braceToken_readsTo read
      by_cases comment : (options.extended && c = '#') = true
      · have same : Pattern.token options groups c = fun input =>
            .ok (.skipped, (input.dropWhile (· ≠ '\n')).drop 1) := by
          funext input
          rw [plain, if_neg brace, if_pos comment]
        rw [if_neg brace, if_pos comment] at read
        cases read
        rw [same]
        exact (lineComment_readsTo input).map fun rest =>
          (Except.ok (Token.skipped, rest) : Except PatternError (Token × List Char))
      by_cases blank : (options.extended && isPassedOver c) = true
      · have same : Pattern.token options groups c = fun input => .ok (.skipped, input) := by
          funext input
          rw [plain, if_neg brace, if_neg comment, if_pos blank]
        rw [if_neg brace, if_neg comment, if_pos blank] at read
        cases read
        rw [same]
        exact .here fun _ _ => rfl
      · have same : Pattern.token options groups c = fun input => .ok (.char c, input) := by
          funext input
          rw [plain, if_neg brace, if_neg comment, if_neg blank]
        rw [if_neg brace, if_neg comment, if_neg blank] at read
        cases read
        rw [same]
        exact .here fun _ _ => rfl
  all_goals
    cases read
    exact .here fun _ _ => rfl

theorem token_readsBack {options : Options} {groups : GroupNames} {c : Char}
    {input after : List Char} {token : Token}
    (read : Pattern.token options groups c input = .ok (token, after)) :
    ∃ back rest, after = back ++ rest ∧
      ReadsBack 0 (Pattern.token options groups c) (fun after => .ok (token, after)) input back rest := by
  by_cases escaped : c = '\\'
  · subst escaped
    exact escapeToken_readsBack read
  · exact ⟨[], after, rfl, .ofReadsTo (token_readsTo escaped read)⟩

end Highlight.Pattern
