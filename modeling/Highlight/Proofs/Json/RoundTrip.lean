import Highlight.Json.Parser
import Highlight.Json.Writer
import Highlight.Proofs.Json.Depiction
import Highlight.Proofs.Text.Digits
import Mathlib.Tactic.IntervalCases

set_option autoImplicit false

/-! Values that have been written as text are read again. Each part of a value is read as such whatever
follows it, as long as that does not go on where the part ends, and reading takes no more steps than the
part has characters. -/

namespace Highlight.Json

open Outcome

/-! ### Numbers -/

/-- What follows a value is not part of a number. -/
def Ends (rest : List Char) : Prop :=
  ∀ c ∈ rest.head?, c.isDigit = false ∧ c ≠ '.' ∧ c ≠ 'e' ∧ c ≠ 'E'

theorem ends_nil : Ends [] := by
  simp [Ends]

theorem le_ofDigitChars (digits : List Char) (mantissa : Nat) :
    mantissa ≤ Nat.ofDigitChars 10 digits mantissa := by
  induction digits generalizing mantissa with
  | nil => exact Nat.le_refl _
  | cons digit rest ih =>
      rw [Nat.ofDigitChars_cons]
      exact Nat.le_trans (by omega) (ih _)

theorem foldl_addWhole (digits : List Char) {mantissa : Nat}
    (room : Nat.ofDigitChars 10 digits mantissa ≤ Number.mostNatural) :
    digits.foldl Decimal.addWhole { mantissa } =
      { mantissa := Nat.ofDigitChars 10 digits mantissa } := by
  induction digits generalizing mantissa with
  | nil => rfl
  | cons digit rest ih =>
      rw [Nat.ofDigitChars_cons] at room ⊢
      have within := Nat.le_trans (le_ofDigitChars rest _) room
      have added : Decimal.addWhole { mantissa } digit =
          { mantissa := 10 * mantissa + (digit.toNat - '0'.toNat) } := by
        have same : mantissa * 10 + Decimal.digitValue digit = 10 * mantissa + (digit.toNat - '0'.toNat) := by
          rw [Nat.mul_comm]
          rfl
        simp only [Decimal.addWhole, same]
        rw [if_neg]
        simpa using within
      rw [List.foldl_cons, added, ih room]

theorem readFraction_ends {decimal : Decimal} {below : Bool} {rest : List Char} (ends : Ends rest) :
    readFraction decimal below rest = (decimal.whole below rest, .ok rest) := by
  unfold readFraction
  split
  · exact absurd rfl (ends _ rfl).2.1
  · rename_i c after _
    have apart := ends c rfl
    simp [apart]
  · rfl

theorem readNumber_toDigits {value : Nat} (small : value ≤ Number.mostNatural) {rest : List Char}
    (ends : Ends rest) :
    readNumber false (Nat.toDigits 10 value ++ rest) = (.number (.natural value), .ok rest) := by
  have filled := Nat.toDigits_ne_nil (n := value) (b := 10)
  have digits := Text.takeWhile_toDigits value fun c first => (ends c first).1
  unfold readNumber
  split
  · rename_i empty
    exact absurd (List.append_eq_nil_iff.mp empty).1 filled
  · rename_i c after start
    rcases Nat.eq_zero_or_pos value with rfl | positive
    · rw [Nat.toDigits_zero] at start
      obtain ⟨_, rfl⟩ := List.cons.inj start
      rw [(ends c rfl).1, readFraction_ends ends]
      rfl
    · cases first : Nat.toDigits 10 value with
      | nil => exact absurd first filled
      | cons digit others =>
          rw [first] at start
          obtain ⟨rfl, _⟩ := List.cons.inj start
          exact absurd first (Text.toDigits_ne_zero_cons positive others)
  · have whole := foldl_addWhole (Nat.toDigits 10 value)
      (Nat.le_trans (Nat.le_of_eq Nat.ofDigitChars_ten_toDigits) small)
    rw [Nat.ofDigitChars_ten_toDigits] at whole
    rw [digits, if_neg (by simp [filled])]
    simp only [List.drop_left]
    rw [whole, readFraction_ends ends]
    rfl

/-! ### Strings -/

theorem readUnit_writeChar {code : Nat} (control : code < 32) (rest : List Char) :
    readUnit ('0' :: '0' :: hexDigit (code / 16) :: hexDigit (code % 16) :: rest) = .ok (code, rest) := by
  interval_cases code <;> rfl

theorem readString_writeChar (c : Char) (steps : Nat) (rest : List Char) :
    readString (steps + 1) (writeChar c ++ rest) = StringReading.push c (readString steps rest) := by
  have named : ∀ code, c.toNat = code → c = Char.ofNat code := by
    rintro code rfl
    exact (Char.ofNat_toNat c).symm
  unfold writeChar
  split
  case h_8 noQuote noSlash _ _ _ _ _ =>
    by_cases control : c.toNat < 32
    · rw [if_pos control]
      have read := readUnit_writeChar control rest
      change readString (steps + 1) ('\\' :: 'u' :: '0' :: '0' :: _ :: _ :: rest) = _
      simp only [readString, read]
      rw [if_neg (by simp; omega), if_neg (by simp; omega), Char.ofNat_toNat]
    · rw [if_neg control]
      change readString (steps + 1) (c :: rest) = _
      have quote : c ≠ '"' := fun same => noQuote (by rw [same]; rfl)
      have slash : c ≠ '\\' := fun same => noSlash (by rw [same]; rfl)
      rw [readString.eq_def]
      split
      case h_7 taken same =>
        obtain rfl := Nat.succ.inj taken
        obtain ⟨rfl, rfl⟩ := List.cons.inj same
        rw [if_neg control]
      all_goals simp_all
  all_goals
    rename_i code
    obtain rfl := named _ code
    rfl

theorem length_writeChar_pos (c : Char) : 0 < (writeChar c).length := by
  unfold writeChar
  repeat' split
  all_goals simp

theorem length_le_flatMap_writeChar (chars : List Char) :
    chars.length ≤ (chars.flatMap writeChar).length := by
  induction chars with
  | nil => exact Nat.le_refl _
  | cons c rest ih =>
      have some := length_writeChar_pos c
      rw [List.flatMap_cons, List.length_append, List.length_cons]
      omega

theorem readString_write (chars : List Char) (steps : Nat) (room : chars.length < steps)
    (rest : List Char) :
    readString steps (chars.flatMap writeChar ++ '"' :: rest) = .ok (.ok chars, rest) := by
  obtain ⟨steps, rfl⟩ := Nat.exists_eq_succ_of_ne_zero (Nat.ne_zero_of_lt room)
  induction chars generalizing steps with
  | nil => rfl
  | cons c others ih =>
      rw [List.length_cons] at room
      obtain ⟨steps, rfl⟩ := Nat.exists_eq_succ_of_ne_zero (n := steps) (by omega)
      rw [List.flatMap_cons, List.append_assoc, readString_writeChar, ih steps (by omega)]
      rfl

/-! ### Values -/

def chars (json : Json) : List Char :=
  json.write.toList

def memberChars (member : String × Json) : List Char :=
  (writeString member.1).toList ++ ':' :: member.2.chars

theorem toList_writeString (text : String) :
    (writeString text).toList = '"' :: (text.toList.flatMap writeChar ++ ['"']) := by
  simp [writeString]

theorem chars_natural (value : Nat) : (natural value).chars = Nat.toDigits 10 value := by
  simp [chars, natural, write, Number.text]

theorem chars_array (items : List Json) :
    (array items).chars = '[' :: ([','].intercalate (items.map chars) ++ [']']) := by
  have written : writeItems items = items.map write := by
    induction items with
    | nil => rfl
    | cons item rest ih => rw [writeItems, ih, List.map_cons]
  rw [chars, write, written, String.toList_append, String.toList_append, String.toList_intercalate,
    List.map_map]
  rfl

theorem chars_object (members : List (String × Json)) : (object members).chars =
    Char.ofNat 123 :: ([','].intercalate (members.map memberChars) ++ [Char.ofNat 125]) := by
  have written : writeMembers members =
      members.map fun member => writeString member.1 ++ (":" ++ member.2.write) := by
    induction members with
    | nil => rfl
    | cons member rest ih => rw [writeMembers, ih, List.map_cons, String.append_assoc]
  have texts : (members.map fun member => writeString member.1 ++ (":" ++ member.2.write)).map
      String.toList = members.map memberChars := by
    simp [memberChars, chars]
  rw [chars, write, written, String.toList_append, String.toList_append, String.toList_intercalate, texts]
  rfl

theorem skipBlanks_cons {c : Char} (visible : isBlank c = false) (rest : List Char) :
    skipBlanks (c :: rest) = c :: rest := by
  rw [skipBlanks, List.dropWhile_cons_of_neg (by simp [visible])]

/-- A part of a list starts here: something that is not blank and does not end the list. -/
def Opens (text : List Char) : Prop :=
  ∃ c rest, text = c :: rest ∧ isBlank c = false ∧ c ≠ ']'

theorem opens_of_isDigit {c : Char} (digit : c.isDigit = true) (rest : List Char) : Opens (c :: rest) := by
  refine ⟨c, rest, rfl, Bool.eq_false_iff.mpr fun blank => ?_, ?_⟩
  · simp only [isBlank, Bool.or_eq_true, beq_iff_eq] at blank
    rcases blank with ((rfl | rfl) | rfl) | rfl
    all_goals exact absurd digit (by decide)
  · rintro rfl
    exact absurd digit (by decide)

theorem opens_chars {depth : Nat} {json : Json} (fit : json.fits depth = true) : Opens json.chars := by
  cases json with
  | null => exact ⟨'n', _, rfl, by decide⟩
  | bool value =>
      cases value with
      | true => exact ⟨'t', _, rfl, by decide⟩
      | false => exact ⟨'f', _, rfl, by decide⟩
  | number value =>
      cases value with
      | natural value =>
          change Opens (natural value).chars
          rw [chars_natural]
          cases digits : Nat.toDigits 10 value with
          | nil => exact absurd digits Nat.toDigits_ne_nil
          | cons first others =>
              have digit : first.isDigit = true := Nat.isDigit_of_mem_toDigits (b := 10) (n := value)
                (by decide) (by decide) (digits ▸ List.mem_cons_self)
              exact opens_of_isDigit digit _
      | negative _ | floating _ _ => simp [fits] at fit
  | string text => exact ⟨'"', _, toList_writeString text, by decide⟩
  | array items => exact ⟨'[', _, chars_array items, by decide⟩
  | object members => exact ⟨_, _, chars_object members, by decide⟩

theorem Opens.append {text : List Char} (starts : Opens text) (rest : List Char) : Opens (text ++ rest) := by
  obtain ⟨c, others, rfl, shape⟩ := starts
  exact ⟨c, others ++ rest, rfl, shape⟩

theorem intercalate_cons_eq_append (separator text : List Char) (others : List (List Char)) :
    ∃ more, separator.intercalate (text :: others) = text ++ more := by
  cases others with
  | nil => exact ⟨[], by rw [List.intercalate_singleton, List.append_nil]⟩
  | cons second others => exact ⟨_, by rw [List.intercalate_cons_cons, List.append_assoc]⟩

theorem opens_items {depth : Nat} {item : Json} (fit : item.fits depth = true) (others : List Json)
    (rest : List Char) : Opens ([','].intercalate ((item :: others).map chars) ++ rest) := by
  obtain ⟨tail, shape⟩ := intercalate_cons_eq_append [','] item.chars (others.map chars)
  rw [List.map_cons, shape, List.append_assoc]
  exact (opens_chars fit).append _

theorem Opens.skipBlanks {text : List Char} (starts : Opens text) : skipBlanks text = text := by
  obtain ⟨c, others, rfl, visible, _⟩ := starts
  exact skipBlanks_cons visible others

/-- The text of a value is read as the value, nested at most so deep, whatever follows. -/
def ReadsBack (depth : Nat) (json : Json) : Prop :=
  ∀ steps rest, json.chars.length ≤ steps → Ends rest →
    ∃ document, readValue steps (json.chars ++ rest) = (document, .ok rest) ∧
      document.value depth = .ok json

theorem readItems_last {steps : Nat} {text rest : List Char} {document : Document}
    (read : readValue steps text = (document, .ok (']' :: rest))) :
    readItems (steps + 1) text = ([{ value := document, after := ']' :: rest }], none, .ok rest) := by
  simp only [readItems, read]
  rfl

theorem readItems_comma {steps : Nat} {text next : List Char} {document : Document}
    (read : readValue steps text = (document, .ok (',' :: next))) (starts : Opens next) :
    readItems (steps + 1) text =
      ({ value := document, after := ',' :: next } :: (readItems steps next).1, (readItems steps next).2) := by
  have comma : Json.skipBlanks (',' :: next) = ',' :: next := skipBlanks_cons (by decide) next
  have blanks := starts.skipBlanks
  obtain ⟨c, rest, rfl, _, opening⟩ := starts
  simp only [readItems, read, comma, blanks]
  split
  · simp_all
  · simp_all
  · rfl

theorem readItems_write {depth : Nat} {items : List Json} (filled : items ≠ [])
    (each : ∀ item ∈ items, item.fits depth = true ∧ ReadsBack depth item) (steps : Nat)
    (room : ([','].intercalate (items.map chars)).length < steps) (rest : List Char) :
    ∃ documents, readItems steps ([','].intercalate (items.map chars) ++ ']' :: rest) =
        (documents, none, .ok rest) ∧
      Document.itemValues depth documents = .ok items := by
  obtain ⟨steps, rfl⟩ := Nat.exists_eq_succ_of_ne_zero (Nat.ne_zero_of_lt room)
  -- Each item takes one step, and leaves room for its own text and for those of the others.
  induction items generalizing steps with
  | nil => exact absurd rfl filled
  | cons item others ih =>
      obtain ⟨_, reads⟩ := each item List.mem_cons_self
      cases others with
      | nil =>
          rw [List.map_cons, List.map_nil, List.intercalate_singleton] at room ⊢
          obtain ⟨document, read, valued⟩ := reads steps (']' :: rest) (by omega) (by simp [Ends])
          refine ⟨_, readItems_last read, ?_⟩
          simp only [Document.itemValues, valued]
          rfl
      | cons second more =>
          rw [List.map_cons, List.map_cons, List.intercalate_cons_cons, ← List.map_cons] at room ⊢
          simp only [List.length_append, List.length_singleton] at room
          obtain ⟨before, rfl⟩ := Nat.exists_eq_succ_of_ne_zero (n := steps) (by omega)
          obtain ⟨documents, othersRead, othersValued⟩ := ih (by simp)
            (fun other listed => each other (List.mem_cons_of_mem _ listed)) before (by omega)
          obtain ⟨document, read, valued⟩ := reads (before + 1)
            (',' :: ([','].intercalate ((second :: more).map chars) ++ ']' :: rest)) (by omega)
            (by simp [Ends])
          have all := readItems_comma read (opens_items (each second (by simp)).1 more _)
          rw [othersRead] at all
          refine ⟨_, by simpa using all, ?_⟩
          simp only [Document.itemValues, valued, othersValued]
          rfl

theorem memberChars_append (member : String × Json) (rest : List Char) :
    memberChars member ++ rest =
      '"' :: (member.1.toList.flatMap writeChar ++ '"' :: ':' :: (member.2.chars ++ rest)) := by
  simp [memberChars, toList_writeString]

theorem quote_opens_members (member : String × Json) (others : List (String × Json)) (rest : List Char) :
    ∃ next, [','].intercalate ((member :: others).map memberChars) ++ rest = '"' :: next := by
  obtain ⟨tail, shape⟩ := intercalate_cons_eq_append [','] (memberChars member) (others.map memberChars)
  rw [List.map_cons, shape, List.append_assoc, memberChars_append]
  exact ⟨_, rfl⟩

theorem readMembers_last {steps : Nat} {text after rest name : List Char} {document : Document}
    (nameRead : readString steps text = .ok (.ok name, ':' :: after))
    (read : readValue steps after = (document, .ok (Char.ofNat 125 :: rest))) :
    readMembers (steps + 1) ('"' :: text) =
      ([{ name := .ok (String.ofList name), afterName := ':' :: after, value := document,
          after := Char.ofNat 125 :: rest }], none, .ok rest) := by
  have colon : skipBlanks (':' :: after) = ':' :: after := skipBlanks_cons (by decide) after
  simp only [readMembers, nameRead, colon, read]
  rfl

theorem readMembers_comma {steps : Nat} {text after next name : List Char} {document : Document}
    (nameRead : readString steps text = .ok (.ok name, ':' :: after))
    (read : readValue steps after = (document, .ok (',' :: '"' :: next))) :
    readMembers (steps + 1) ('"' :: text) =
      ({ name := .ok (String.ofList name), afterName := ':' :: after, value := document,
         after := ',' :: '"' :: next } :: (readMembers steps ('"' :: next)).1,
        (readMembers steps ('"' :: next)).2) := by
  have colon : skipBlanks (':' :: after) = ':' :: after := skipBlanks_cons (by decide) after
  have comma : skipBlanks (',' :: '"' :: next) = ',' :: '"' :: next := skipBlanks_cons (by decide) _
  have quote : skipBlanks ('"' :: next) = '"' :: next := skipBlanks_cons (by decide) next
  simp only [readMembers, nameRead, colon, read, comma, quote]
  rfl

theorem readMembers_write {depth : Nat} {members : List (String × Json)} (filled : members ≠ [])
    (each : ∀ member ∈ members, ReadsBack depth member.2) (steps : Nat)
    (room : ([','].intercalate (members.map memberChars)).length < steps) (rest : List Char) :
    ∃ documents, readMembers steps
        ([','].intercalate (members.map memberChars) ++ Char.ofNat 125 :: rest) =
        (documents, none, .ok rest) ∧
      Document.memberValues depth documents = .ok members := by
  obtain ⟨steps, rfl⟩ := Nat.exists_eq_succ_of_ne_zero (Nat.ne_zero_of_lt room)
  induction members generalizing steps with
  | nil => exact absurd rfl filled
  | cons member others ih =>
      have reads := each member List.mem_cons_self
      have long := length_le_flatMap_writeChar member.1.toList
      have size : (memberChars member).length =
          (member.1.toList.flatMap writeChar).length + member.2.chars.length + 3 := by
        simp [memberChars, toList_writeString]
        omega
      cases others with
      | nil =>
          rw [List.map_cons, List.map_nil, List.intercalate_singleton] at room ⊢
          rw [memberChars_append]
          obtain ⟨document, read, valued⟩ := reads steps (Char.ofNat 125 :: rest) (by omega)
            (by simp [Ends])
          have nameRead := readString_write member.1.toList steps (by omega)
            (':' :: (member.2.chars ++ Char.ofNat 125 :: rest))
          refine ⟨_, readMembers_last nameRead read, ?_⟩
          simp only [Document.memberValues, valued, String.ofList_toList]
          rfl
      | cons second more =>
          rw [List.map_cons, List.map_cons, List.intercalate_cons_cons, ← List.map_cons] at room ⊢
          simp only [List.length_append, List.length_singleton] at room
          obtain ⟨before, rfl⟩ := Nat.exists_eq_succ_of_ne_zero (n := steps) (by omega)
          obtain ⟨documents, othersRead, othersValued⟩ := ih (by simp)
            (fun other listed => each other (List.mem_cons_of_mem _ listed)) before (by omega)
          obtain ⟨next, start⟩ := quote_opens_members second more (Char.ofNat 125 :: rest)
          rw [start] at othersRead
          obtain ⟨document, read, valued⟩ := reads (before + 1) (',' :: '"' :: next) (by omega)
            (by simp [Ends])
          have nameRead := readString_write member.1.toList (before + 1) (by omega)
            (':' :: (member.2.chars ++ ',' :: '"' :: next))
          have all := readMembers_comma nameRead read
          rw [othersRead, ← memberChars_append, ← start] at all
          refine ⟨_, by simpa using all, ?_⟩
          simp only [Document.memberValues, valued, othersValued]
          rfl

variable {depth : Nat}

theorem readsBack_null : ReadsBack depth null := by
  intro steps rest room _
  obtain ⟨steps, rfl⟩ := Nat.exists_eq_succ_of_ne_zero (n := steps) (by
    rintro rfl
    exact absurd room (by decide))
  exact ⟨.null, rfl, rfl⟩

theorem readsBack_bool (held : Bool) : ReadsBack depth (bool held) := by
  intro steps rest room _
  obtain ⟨steps, rfl⟩ := Nat.exists_eq_succ_of_ne_zero (n := steps) (by
    rintro rfl
    cases held <;> exact absurd room (by decide))
  cases held <;> exact ⟨_, rfl, rfl⟩

theorem readsBack_natural {held : Nat} (small : held ≤ Number.mostNatural) :
    ReadsBack depth (natural held) := by
  intro steps rest room ends
  rw [chars_natural] at room ⊢
  have read := readNumber_toDigits small ends
  cases digits : Nat.toDigits 10 held with
  | nil => exact absurd digits Nat.toDigits_ne_nil
  | cons first others =>
      have digit : first.isDigit = true :=
        Nat.isDigit_of_mem_toDigits (b := 10) (n := held) (by decide) (by decide)
          (digits ▸ List.mem_cons_self)
      rw [digits] at read room
      obtain ⟨steps, rfl⟩ := Nat.exists_eq_succ_of_ne_zero (Nat.ne_zero_of_lt room)
      refine ⟨.number (.natural held), ?_, rfl⟩
      have blanks := (opens_of_isDigit digit (others ++ rest)).skipBlanks
      simp only [List.cons_append] at read ⊢
      rw [readValue, blanks]
      split
      case h_8 same =>
        obtain ⟨rfl, rfl⟩ := List.cons.inj same
        rw [if_neg (by rintro rfl; exact absurd digit (by decide)), if_pos digit, read]
      all_goals simp_all

theorem readsBack_string (text : String) : ReadsBack depth (string text) := by
  intro steps rest room _
  have shape : (string text).chars = _ := toList_writeString text
  rw [shape] at room ⊢
  simp only [List.length_cons, List.length_append] at room
  obtain ⟨steps, rfl⟩ := Nat.exists_eq_succ_of_ne_zero (n := steps) (by omega)
  have long := length_le_flatMap_writeChar text.toList
  have read := readString_write text.toList steps (by omega) rest
  have opened : skipBlanks ('"' :: (text.toList.flatMap writeChar ++ '"' :: rest)) = _ :=
    skipBlanks_cons (by decide) _
  refine ⟨.string text, ?_, rfl⟩
  rw [List.cons_append, List.append_assoc, List.singleton_append]
  simp only [readValue, opened, read, String.ofList_toList]

theorem readsBack_array {items : List Json}
    (each : ∀ item ∈ items, item.fits depth = true ∧ ReadsBack depth item) :
    ReadsBack (depth + 1) (array items) := by
  intro steps rest room _
  rw [chars_array] at room ⊢
  simp only [List.length_cons, List.length_append] at room
  obtain ⟨steps, rfl⟩ := Nat.exists_eq_succ_of_ne_zero (n := steps) (by omega)
  rw [List.cons_append, List.append_assoc, List.singleton_append]
  cases items with
  | nil => exact ⟨_, rfl, rfl⟩
  | cons first others =>
      obtain ⟨documents, read, valued⟩ := readItems_write (by simp) each steps (by omega) rest
      have starts := opens_items (each first List.mem_cons_self).1 others (']' :: rest)
      have blanks := starts.skipBlanks
      obtain ⟨c, tail, shape, _, opening⟩ := starts
      rw [shape] at read blanks ⊢
      have opened : skipBlanks ('[' :: c :: tail) = '[' :: c :: tail := skipBlanks_cons (by decide) _
      refine ⟨.array (c :: tail) documents none, ?_, ?_⟩
      · simp only [readValue, opened, blanks]
        split
        · simp_all
        · simp_all
        · rw [read]
      · simp only [Document.value, valued]
        rfl

theorem readsBack_object {members : List (String × Json)}
    (each : ∀ member ∈ members, ReadsBack depth member.2) :
    ReadsBack (depth + 1) (object members) := by
  intro steps rest room _
  rw [chars_object] at room ⊢
  simp only [List.length_cons, List.length_append] at room
  obtain ⟨steps, rfl⟩ := Nat.exists_eq_succ_of_ne_zero (n := steps) (by omega)
  rw [List.cons_append, List.append_assoc, List.singleton_append]
  cases members with
  | nil => exact ⟨_, rfl, rfl⟩
  | cons first others =>
      obtain ⟨documents, read, valued⟩ := readMembers_write (by simp) each steps (by omega) rest
      obtain ⟨next, start⟩ := quote_opens_members first others (Char.ofNat 125 :: rest)
      rw [start] at read ⊢
      have opened : readValue (steps + 1) (Char.ofNat 123 :: '"' :: next) =
          (.object ('"' :: next) (readMembers steps ('"' :: next)).1 (readMembers steps ('"' :: next)).2.1,
            (readMembers steps ('"' :: next)).2.2) := rfl
      refine ⟨.object ('"' :: next) documents none, ?_, ?_⟩
      · rw [opened, read]
      · simp only [Document.value, valued]
        rfl

/-- Any value that a text can hold is read as it was written. -/
theorem readsBack : ∀ (depth : Nat) (json : Json), json.fits depth = true → ReadsBack depth json
  | _, .null, _ => readsBack_null
  | _, .bool held, _ => readsBack_bool held
  | _, .number (.natural _), fit => readsBack_natural (fits_natural.mp fit)
  | _, .number (.negative _), fit => by simp [fits] at fit
  | _, .number (.floating _ _), fit => by simp [fits] at fit
  | _, .string text, _ => readsBack_string text
  | 0, .array _, fit => by simp [fits] at fit
  | 0, .object _, fit => by simp [fits] at fit
  | depth + 1, .array _, fit => readsBack_array fun item member =>
      ⟨fits_array.mp fit item member, readsBack depth item (fits_array.mp fit item member)⟩
  | depth + 1, .object _, fit => readsBack_object fun member listed =>
      readsBack depth member.2 (fits_object.mp fit member listed)

/-! ### Texts -/

theorem value_read_write {json : Json} (fit : json.fits depth = true) :
    (Source.read json.write).document.value depth = .ok json ∧
      (Source.read json.write).trailing? = none := by
  obtain ⟨document, read, valued⟩ := readsBack depth json fit (json.chars.length + 1) []
    (Nat.le_succ _) ends_nil
  rw [List.append_nil, chars] at read
  have source : Source.read json.write = { text := json.write, document, after := [] } := by
    simp only [Source.read, read]
  rw [source]
  exact ⟨valued, rfl⟩

theorem parse_write {json : Json} (fit : json.fits mostNested = true) : parse json.write = .ok json := by
  obtain ⟨valued, nothing⟩ := value_read_write fit
  simp only [parse, valued, nothing]
  rfl

theorem Decoder.Reads.run {α : Type} {most : Nat} {decoder : Decoder α} {json : Json} {value : α}
    (reads : Decoder.Reads most decoder json value) (deep : mostNested ≤ most)
    (fit : json.fits mostNested = true) : decoder.run json.write = .ok value := by
  obtain ⟨valued, nothing⟩ := value_read_write fit
  have read := reads mostNested deep _ ⟨json, valued, Reordered.refl json⟩
  simp only [Decoder.run, read, nothing]
  rfl

end Highlight.Json
