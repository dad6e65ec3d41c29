import Highlight.Json.Decoding
import Highlight.Proofs.Dictionary
import Highlight.Proofs.Outcome
import Mathlib.Data.List.Forall2

set_option autoImplicit false

/-! Documents without faults. Such a document depicts a value, whose objects may have their members in
another order, and a decoder reads something out of a value if it gives that for every document which
depicts the value. There is one lemma for each way to make decoders. -/

namespace Highlight.Json

open Outcome

/-! ### Values -/

mutual

/-- Whether a text can hold a value: arrays and objects are nested at most so deep, and its numbers are
natural ones of 64 bits. -/
def fits : Nat → Json → Bool
  | _, null => true
  | _, bool _ => true
  | _, number (.natural value) => decide (value ≤ Number.mostNatural)
  | _, number _ => false
  | _, string _ => true
  | 0, array _ => false
  | depth + 1, array items => itemsFit depth items
  | 0, object _ => false
  | depth + 1, object members => membersFit depth members

def itemsFit : Nat → List Json → Bool
  | _, [] => true
  | depth, item :: rest => fits depth item && itemsFit depth rest

def membersFit : Nat → List (String × Json) → Bool
  | _, [] => true
  | depth, (_, value) :: rest => fits depth value && membersFit depth rest

end

@[simp] theorem fits_array {depth : Nat} {items : List Json} :
    (array items).fits (depth + 1) = true ↔ ∀ item ∈ items, item.fits depth = true := by
  change itemsFit depth items = true ↔ _
  induction items with
  | nil => simp [itemsFit]
  | cons item rest ih => simp [itemsFit, ih]

@[simp] theorem fits_object {depth : Nat} {members : List (String × Json)} :
    (object members).fits (depth + 1) = true ↔ ∀ member ∈ members, member.2.fits depth = true := by
  change membersFit depth members = true ↔ _
  induction members with
  | nil => simp [membersFit]
  | cons member rest ih => simp [membersFit, ih]

@[simp] theorem fits_string (depth : Nat) (text : String) : (string text).fits depth = true := by
  simp [fits]

@[simp] theorem fits_bool (depth : Nat) (value : Bool) : (bool value).fits depth = true := by
  simp [fits]

@[simp] theorem fits_natural {depth value : Nat} :
    (natural value).fits depth = true ↔ value ≤ Number.mostNatural := by
  simp [fits, natural]

inductive Reordered : Json → Json → Prop
  | null : Reordered null null
  | bool (value : Bool) : Reordered (bool value) (bool value)
  | number (value : Number) : Reordered (number value) (number value)
  | string (text : String) : Reordered (string text) (string text)
  | array {items others : List Json} (each : List.Forall₂ Reordered items others) :
      Reordered (array items) (array others)
  | object {members between others : List (String × Json)} (shuffled : members.Perm between)
      (names : List.Forall₂ (fun value other => value.1 = other.1) between others)
      (values : List.Forall₂ (fun value other => Reordered value.2 other.2) between others) :
      Reordered (object members) (object others)

mutual

@[refl] theorem Reordered.refl : ∀ json, Reordered json json
  | .null => .null
  | .bool value => .bool value
  | .number value => .number value
  | .string text => .string text
  | .array items => .array (forall₂_refl items)
  | .object members => .object (List.Perm.refl _) (List.forall₂_same.mpr fun _ _ => rfl)
      (forall₂_refl_members members)

theorem Reordered.forall₂_refl : ∀ items, List.Forall₂ Reordered items items
  | [] => .nil
  | item :: rest => .cons (refl item) (forall₂_refl rest)

theorem Reordered.forall₂_refl_members : ∀ members : List (String × Json),
    List.Forall₂ (fun value other => Reordered value.2 other.2) members members
  | [] => .nil
  | (_, value) :: rest => .cons (refl value) (forall₂_refl_members rest)

end

/-! ### Documents -/

private theorem forall₂_join {α β γ : Type} {left : α → γ → Prop} {right : β → γ → Prop}
    {joined : α → β → Prop} (join : ∀ first second common, left first common → right second common →
      joined first second) {firsts : List α} {seconds : List β} {commons : List γ}
    (lefts : List.Forall₂ left firsts commons) (rights : List.Forall₂ right seconds commons) :
    List.Forall₂ joined firsts seconds := by
  induction lefts generalizing seconds with
  | nil =>
      cases rights
      exact .nil
  | cons first _ ih =>
      cases rights with
      | cons second others => exact .cons (join _ _ _ first second) (ih others)

theorem forall₂_map_eq {α β γ : Type} {first : α → γ} {second : β → γ} {firsts : List α}
    {seconds : List β} (same : List.Forall₂ (fun left right => first left = second right) firsts seconds) :
    firsts.map first = seconds.map second := by
  induction same with
  | nil => rfl
  | cons head _ ih => rw [List.map_cons, List.map_cons, head, ih]

theorem exists_of_forall₂ {α β : Type} {goes : α → β → Prop} {firsts : List α}
    {seconds : List β} (go : List.Forall₂ goes firsts seconds) {first : α} (member : first ∈ firsts) :
    ∃ second ∈ seconds, goes first second := by
  induction go with
  | nil => cases member
  | cons head _ ih =>
      rcases List.mem_cons.mp member with rfl | later
      · exact ⟨_, List.mem_cons_self, head⟩
      · obtain ⟨second, among, holds⟩ := ih later
        exact ⟨second, List.mem_cons_of_mem _ among, holds⟩

namespace Document

variable {depth : Nat} {document : Document}

theorem itemValues_eq_ok {items : List (Item Document)} {values : List Json}
    (read : itemValues depth items = .ok values) :
    List.Forall₂ (fun item value => item.value.value depth = .ok value) items values := by
  induction items generalizing values with
  | nil =>
      obtain rfl := Except.ok.inj read
      exact .nil
  | cons item rest ih =>
      obtain ⟨first, firstRead, read⟩ := bind_eq_ok.mp read
      obtain ⟨others, othersRead, read⟩ := bind_eq_ok.mp read
      obtain rfl := pure_eq_ok.mp read
      exact .cons firstRead (ih othersRead)

theorem memberValues_eq_ok {members : List (Member Document)} {values : List (String × Json)}
    (read : memberValues depth members = .ok values) :
    List.Forall₂ (fun member value => member.name = .ok value.1 ∧
      member.value.value depth = .ok value.2) members values := by
  induction members generalizing values with
  | nil =>
      obtain rfl := Except.ok.inj read
      exact .nil
  | cons member rest ih =>
      obtain ⟨name, named, read⟩ := bind_eq_ok.mp read
      obtain ⟨first, firstRead, read⟩ := bind_eq_ok.mp read
      obtain ⟨others, othersRead, read⟩ := bind_eq_ok.mp read
      obtain rfl := pure_eq_ok.mp read
      exact .cons ⟨named, firstRead⟩ (ih othersRead)

/-- A document with a value has the form of the value, and no fault. -/
theorem value_cases {json : Json} (read : document.value depth = .ok json) :
    match json with
    | .null => document = .null
    | .bool value => document = .bool value
    | .number value => document = .number value
    | .string text => document = .string text
    | .array values => ∃ inside items below, document = .array inside items none ∧
        depth = below + 1 ∧ itemValues below items = .ok values
    | .object values => ∃ inside members below, document = .object inside members none ∧
        depth = below + 1 ∧ memberValues below members = .ok values := by
  cases document with
  | null | bool held | number held | string held =>
      obtain rfl := Except.ok.inj read
      rfl
  | array inside items fault =>
      unfold value at read
      cases depth with
      | zero => cases read
      | succ below =>
          obtain ⟨values, itemsRead, read⟩ := bind_eq_ok.mp read
          cases fault with
          | some fault => cases read
          | none =>
              obtain rfl := pure_eq_ok.mp read
              exact ⟨inside, items, below, rfl, rfl, itemsRead⟩
  | object inside members fault =>
      unfold value at read
      cases depth with
      | zero => cases read
      | succ below =>
          obtain ⟨values, membersRead, read⟩ := bind_eq_ok.mp read
          cases fault with
          | some fault => cases read
          | none =>
              obtain rfl := pure_eq_ok.mp read
              exact ⟨inside, members, below, rfl, rfl, membersRead⟩
  | broken fault =>
      unfold value at read
      cases read
  | faulty stop =>
      unfold value at read
      cases read

mutual

theorem value_ofValue : ∀ (depth : Nat) (json : Json), json.fits depth = true →
    (ofValue json).value depth = .ok json
  | _, .null, _ => rfl
  | _, .bool _, _ => rfl
  | _, .number _, _ => rfl
  | _, .string _, _ => rfl
  | depth + 1, .array items, fit => by
      have read := itemValues_ofItems depth items (fits_array.mp fit)
      simp only [ofValue, value, read]
      rfl
  | depth + 1, .object members, fit => by
      have read := memberValues_ofMembers depth members (fits_object.mp fit)
      simp only [ofValue, value, read]
      rfl
  | 0, .array _, fit => by simp [fits] at fit
  | 0, .object _, fit => by simp [fits] at fit

theorem itemValues_ofItems : ∀ (depth : Nat) (items : List Json),
    (∀ item ∈ items, item.fits depth = true) → itemValues depth (ofItems items) = .ok items
  | _, [], _ => rfl
  | depth, item :: rest, fit => by
      have first := value_ofValue depth item (fit item List.mem_cons_self)
      have others := itemValues_ofItems depth rest fun other member =>
        fit other (List.mem_cons_of_mem _ member)
      simp only [ofItems, itemValues, first, others]
      rfl

theorem memberValues_ofMembers : ∀ (depth : Nat) (members : List (String × Json)),
    (∀ member ∈ members, member.2.fits depth = true) →
      memberValues depth (ofMembers members) = .ok members
  | _, [], _ => rfl
  | depth, (name, item) :: rest, fit => by
      have first := value_ofValue depth item (fit (name, item) List.mem_cons_self)
      have others := memberValues_ofMembers depth rest fun other member =>
        fit other (List.mem_cons_of_mem _ member)
      simp only [ofMembers, memberValues, first, others]
      rfl

end

/-- The document can be read, nested at most so deep, and has this value but for the order of members. -/
def Depicts (depth : Nat) (document : Document) (json : Json) : Prop :=
  ∃ other, document.value depth = .ok other ∧ json.Reordered other

theorem Depicts.null (depicts : document.Depicts depth .null) : document = .null := by
  obtain ⟨_, read, ⟨⟩⟩ := depicts
  exact value_cases read

theorem Depicts.bool {held : Bool} (depicts : document.Depicts depth (.bool held)) :
    document = .bool held := by
  obtain ⟨_, read, ⟨⟩⟩ := depicts
  exact value_cases read

theorem Depicts.number {held : Number} (depicts : document.Depicts depth (.number held)) :
    document = .number held := by
  obtain ⟨_, read, ⟨⟩⟩ := depicts
  exact value_cases read

theorem Depicts.string {held : String} (depicts : document.Depicts depth (.string held)) :
    document = .string held := by
  obtain ⟨_, read, ⟨⟩⟩ := depicts
  exact value_cases read

theorem Depicts.array {values : List Json} (depicts : document.Depicts depth (.array values)) :
    ∃ inside items below, document = .array inside items none ∧ depth = below + 1 ∧
      List.Forall₂ (fun item value => item.value.Depicts below value) items values := by
  obtain ⟨_, read, ⟨⟩⟩ := depicts
  rename_i others each
  obtain ⟨inside, items, below, rfl, rfl, itemsRead⟩ := value_cases read
  exact ⟨inside, items, below, rfl, rfl,
    forall₂_join (fun _ _ other valued same => ⟨other, valued, same⟩) (itemValues_eq_ok itemsRead) each⟩

theorem Depicts.object {values : List (String × Json)}
    (depicts : document.Depicts depth (.object values)) :
    ∃ inside members below, document = .object inside members none ∧ depth = below + 1 ∧
      (members.map (·.name)).Perm (values.map fun value => .ok value.1) ∧
      ∀ member ∈ members, ∃ value ∈ values, member.name = .ok value.1 ∧
        member.value.Depicts below value.2 := by
  obtain ⟨_, read, ⟨⟩⟩ := depicts
  rename_i between others names each shuffled
  obtain ⟨inside, members, below, rfl, rfl, membersRead⟩ := value_cases read
  have same : List.Forall₂ (fun value other => value.1 = other.1 ∧ value.2.Reordered other.2)
      between others := names.mp (fun _ _ => And.intro) each
  have held : List.Forall₂ (fun member value => member.name = .ok value.1 ∧
      member.value.Depicts below value.2) members between :=
    forall₂_join (fun _ _ other valued same => ⟨by rw [valued.1, same.1], other.2, valued.2, same.2⟩)
      (memberValues_eq_ok membersRead) same
  refine ⟨inside, members, below, rfl, rfl, ?_, fun member listed => ?_⟩
  · have named : members.map (·.name) = between.map fun value => .ok value.1 :=
      forall₂_map_eq (held.imp fun _ _ => And.left)
    rw [named]
    exact (shuffled.map _).symm
  · obtain ⟨value, among, holds⟩ := exists_of_forall₂ held listed
    exact ⟨value, shuffled.mem_iff.mpr among, holds⟩

end Document

theorem Reordered.fits {depth : Nat} {json other : Json} (same : json.Reordered other)
    (fit : json.fits depth = true) : other.fits depth = true := by
  induction depth generalizing json other with
  | zero =>
      cases same with
      | array _ => simp [Json.fits] at fit
      | object _ _ _ => simp [Json.fits] at fit
      | _ => exact fit
  | succ depth ih =>
      cases same with
      | array each =>
          rw [fits_array] at fit ⊢
          intro item member
          obtain ⟨value, among, goes⟩ := exists_of_forall₂ each.flip member
          exact ih goes (fit value among)
      | object shuffled _ each =>
          rw [fits_object] at fit ⊢
          intro entry member
          obtain ⟨value, among, goes⟩ := exists_of_forall₂ each.flip member
          exact ih goes (fit value (shuffled.mem_iff.mpr among))
      | _ => exact fit

theorem Document.depicts_ofValue {depth : Nat} {json other : Json} (same : json.Reordered other)
    (fit : json.fits depth = true) : (ofValue other).Depicts depth json :=
  ⟨other, value_ofValue depth other (same.fits fit), same⟩

/-! ### Decoders -/

namespace Decoder

variable {α β : Type} {most : Nat} {decoder : Decoder α} {json : Json} {value : α}

/-- Whether a decoder gives something for all documents that depict a value, nested at most so deep. -/
def Reads (most : Nat) (decoder : Decoder α) (json : Json) (value : α) : Prop :=
  ∀ depth ≤ most, ∀ document : Document, document.Depicts depth json → decoder depth document = .ok value

def Refuses (decoder : Decoder α) (json : Json) : Prop :=
  ∀ (depth : Nat) (document : Document), document.Depicts depth json →
    ∃ failure, decoder depth document = .error failure

theorem reads_string (most : Nat) (text : String) : Reads most string (.string text) text := by
  intro depth _ document depicts
  rw [depicts.string]
  rfl

theorem reads_boolean (most : Nat) (held : Bool) : Reads most boolean (.bool held) held := by
  intro depth _ document depicts
  rw [depicts.bool]
  rfl

theorem reads_word32 (most : Nat) {held : Nat} (small : held < Nat.pow 2 32) :
    Reads most word32 (natural held) held := by
  intro depth _ document depicts
  rw [Document.Depicts.number depicts]
  simp [word32, small]

theorem Reads.optional (reads : Reads most decoder json value) (present : json ≠ .null) :
    Reads most (optional decoder) json (some value) := by
  intro depth within document depicts
  have read := reads depth within document depicts
  unfold Decoder.optional
  split
  · obtain ⟨other, valued, same⟩ := depicts
    obtain rfl := Except.ok.inj valued
    cases same
    exact absurd rfl present
  · rw [read]
    rfl

theorem Reads.sequence {items : List Json} {values : List α}
    (reads : List.Forall₂ (fun item value => Reads most decoder item value) items values) :
    Reads most (sequence decoder) (.array items) values := by
  intro depth within document depicts
  obtain ⟨inside, documents, below, rfl, rfl, each⟩ := depicts.array
  clear depicts
  have all : documents.mapM (Decoder.item decoder below) = .ok values := by
    induction each generalizing values with
    | nil =>
        cases reads
        rfl
    | cons first _ ih =>
        cases reads with
        | cons reads others =>
            have read := reads below (by omega) _ first
            rw [List.mapM_cons, Decoder.item, read, ih others]
            rfl
  simp only [Decoder.sequence, all]
  rfl

theorem Reads.whole (reads : Reads most decoder json value) : Reads most (whole decoder) json value := by
  intro depth within document depicts
  have read := reads depth within document depicts
  obtain ⟨other, valued, _⟩ := depicts
  simp only [Decoder.whole, valued]
  exact read

/-- A dictionary is read out of the members that its entries are written as, whatever their order. -/
theorem Reads.dictionary {members : List (String × Json)} {dictionary : Dictionary α}
    (reads : List.Forall₂ (fun member entry => member.1 = entry.1 ∧
      Reads most decoder member.2 entry.2) members dictionary.entries) :
    Reads most (Decoder.dictionary decoder) (.object members) dictionary := by
  intro depth within document depicts
  obtain ⟨inside, documents, below, rfl, rfl, names, each⟩ := depicts.object
  clear depicts
  have all : ∃ entries, documents.mapM (fun entry => do
        let name ← memberName entry
        return (name, ← Decoder.member decoder below entry)) = .ok entries ∧
      entries.map (fun entry => .ok entry.1) = documents.map (·.name) ∧
      ∀ entry ∈ entries, entry ∈ dictionary.entries := by
    clear names
    induction documents with
    | nil => exact ⟨[], rfl, rfl, by simp⟩
    | cons first rest ih =>
        obtain ⟨entries, mapped, named, held⟩ := ih fun member listed =>
          each member (List.mem_cons_of_mem _ listed)
        obtain ⟨member, among, firstNamed, depicts⟩ := each first List.mem_cons_self
        obtain ⟨entry, listed, same, reads⟩ := exists_of_forall₂ reads among
        have read := reads below (by omega) _ depicts
        refine ⟨entry :: entries, ?_, ?_, List.forall_mem_cons.mpr ⟨listed, held⟩⟩
        · rw [List.mapM_cons, mapped]
          simp only [memberName, firstNamed, Decoder.member, read, same]
          rfl
        · rw [List.map_cons, List.map_cons, named, firstNamed, same]
  obtain ⟨entries, mapped, named, held⟩ := all
  have same : Dictionary.ofList entries = dictionary := by
    refine Dictionary.ofList_eq fun entry => ⟨held entry, fun listed => ?_⟩
    have written : members.map (fun member => Except.ok (ε := Stop) member.1) =
        dictionary.entries.map fun entry => .ok entry.1 :=
      forall₂_map_eq (reads.imp fun _ _ both => congrArg _ both.1)
    have there : Except.ok entry.1 ∈ documents.map (·.name) := by
      rw [names.mem_iff, written]
      exact List.mem_map.mpr ⟨entry, listed, rfl⟩
    rw [← named] at there
    obtain ⟨other, among, same⟩ := List.mem_map.mp there
    have name : other.1 = entry.1 := Except.ok.inj same
    have otherFound := Dictionary.find?_eq_some_iff.mpr (held other among)
    have found := Dictionary.find?_eq_some_iff.mpr listed
    rw [name, found] at otherFound
    have equal : entry = other := Prod.ext name.symm (Option.some.inj otherFound)
    exact equal ▸ among
  simp only [Decoder.dictionary, mapped, ← same]
  rfl

theorem Reads.map (reads : Reads most decoder json value) (change : α → β) :
    Reads most (fun depth document => change <$> decoder depth document) json (change value) := by
  intro depth within document depicts
  simp only [reads depth within document depicts]
  rfl

theorem Refuses.map (refuses : Refuses decoder json) (change : α → β) :
    Refuses (fun depth document => change <$> decoder depth document) json := by
  intro depth document depicts
  obtain ⟨failure, failed⟩ := refuses depth document depicts
  exact ⟨failure, by simp only [failed]; rfl⟩

theorem Reads.choose {choice : Choice} {decoders : List (Decoder α)}
    (reads : Reads most decoder json value) :
    Reads most (choose choice (decoder :: decoders)) json value := by
  refine Reads.whole fun depth within document depicts => ?_
  simp only [List.findSome?_cons, reads depth within document depicts]
  rfl

theorem Refuses.choose {choice : Choice} {decoders : List (Decoder α)}
    (refuses : Refuses decoder json) (later : Reads most (choose choice decoders) json value) :
    Reads most (Decoder.choose choice (decoder :: decoders)) json value := by
  refine Reads.whole fun depth within document depicts => ?_
  obtain ⟨failure, failed⟩ := refuses depth document depicts
  have read := later depth within document depicts
  obtain ⟨other, valued, _⟩ := depicts
  simp only [Decoder.choose, Decoder.whole, valued] at read
  simp only [List.findSome?_cons, failed]
  exact read

theorem string_refuses_array (items : List Json) : Refuses string (.array items) := by
  intro depth document depicts
  obtain ⟨inside, documents, below, rfl, _⟩ := depicts.array
  exact ⟨_, rfl⟩

theorem string_refuses_object (members : List (String × Json)) :
    Refuses string (.object members) := by
  intro depth document depicts
  obtain ⟨inside, documents, below, rfl, _⟩ := depicts.object
  exact ⟨_, rfl⟩

theorem sequence_refuses_object (decoder : Decoder α) (members : List (String × Json)) :
    Refuses (sequence decoder) (.object members) := by
  intro depth document depicts
  obtain ⟨inside, documents, below, rfl, _⟩ := depicts.object
  exact ⟨_, rfl⟩

/-! ### What decoders give -/

variable {depth : Nat} {document : Document}

theorem map_eq_ok {outcome : Except Failure α} {change : α → β} {result : β}
    (given : change <$> outcome = .ok result) : ∃ value, outcome = .ok value ∧ change value = result := by
  cases outcome with
  | error failure => cases given
  | ok value => exact ⟨value, rfl, Except.ok.inj given⟩

theorem optional_eq_some (given : optional decoder depth document = .ok (some value)) :
    decoder depth document = .ok value := by
  unfold Decoder.optional at given
  split at given
  · cases given
  · obtain ⟨other, read, same⟩ := map_eq_ok given
    rw [read, Option.some.inj same]

theorem whole_eq_ok (given : whole decoder depth document = .ok value) :
    decoder depth document = .ok value := by
  obtain ⟨_, _, read⟩ := bind_eq_ok.mp given
  exact read

theorem choose_eq_ok {choice : Choice} {decoders : List (Decoder α)}
    (given : choose choice decoders depth document = .ok value) :
    ∃ decoder ∈ decoders, decoder depth document = .ok value := by
  have read := whole_eq_ok given
  split at read
  · rename_i other found
    obtain ⟨decoder, listed, gives⟩ := List.exists_of_findSome?_eq_some found
    rw [Except.ok.inj read] at gives
    exact ⟨decoder, listed, eq_ok_of_toOption gives⟩
  · cases read

theorem mismatch_ne_ok {expected : Expected} : mismatch expected document ≠ .ok value := by
  unfold mismatch
  cases document <;> simp

/-- The items of what is read as a list stand one level deeper. -/
theorem sequence_eq_ok {values : List α} (given : sequence decoder depth document = .ok values) :
    ∃ below, depth = below + 1 ∧ ∀ value ∈ values, ∃ document, decoder below document = .ok value := by
  unfold Decoder.sequence at given
  split at given
  · split at given
    · cases given
    · rename_i below
      refine ⟨below, rfl, fun value member => ?_⟩
      obtain ⟨others, mapped, given⟩ := bind_eq_ok.mp given
      obtain ⟨_, _, given⟩ := bind_eq_ok.mp given
      obtain rfl := pure_eq_ok.mp given
      obtain ⟨item, _, read⟩ := mem_of_mapM_eq_ok mapped member
      exact ⟨item.value, mapError_eq_ok read⟩
  · exact absurd given mismatch_ne_ok

theorem dictionary_eq_ok {entries : Dictionary α}
    (given : dictionary decoder depth document = .ok entries) :
    ∃ below, depth = below + 1 ∧
      ∀ entry ∈ entries.entries, ∃ document, decoder below document = .ok entry.2 := by
  unfold Decoder.dictionary at given
  split at given
  · split at given
    · cases given
    · rename_i below
      refine ⟨below, rfl, fun entry member => ?_⟩
      obtain ⟨listed, mapped, given⟩ := bind_eq_ok.mp given
      obtain ⟨_, _, given⟩ := bind_eq_ok.mp given
      obtain rfl := pure_eq_ok.mp given
      obtain ⟨written, _, read⟩ := mem_of_mapM_eq_ok mapped (Dictionary.mem_of_mem_ofList member)
      obtain ⟨name, _, onward⟩ := bind_eq_ok.mp read
      obtain ⟨value, valued, paired⟩ := bind_eq_ok.mp onward
      obtain rfl := pure_eq_ok.mp paired
      exact ⟨written.value, mapError_eq_ok valued⟩
  · exact absurd given mismatch_ne_ok

theorem run_eq_ok {text : String} (given : decoder.run text = .ok value) :
    decoder mostNested (Source.read text).document = .ok value := by
  obtain ⟨other, read, given⟩ := bind_eq_ok.mp given
  split at given
  · cases given
  · rw [mapError_eq_ok read, pure_eq_ok.mp given]

theorem word32_lt {held : Nat} (given : word32 depth document = .ok held) : held < Nat.pow 2 32 := by
  unfold word32 at given
  dsimp only at given
  split at given
  · split at given
    · rename_i small
      exact Except.ok.inj given ▸ small
    · cases given
  · cases given
  · exact absurd given mismatch_ne_ok

end Decoder

end Highlight.Json
