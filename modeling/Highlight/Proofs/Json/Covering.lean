import Highlight.Proofs.Json.Depiction

set_option autoImplicit false

/-! Decoders that go through all of a value. Such a decoder gives something only for documents all of
which can be read at its depth, so its success says that the value is nested no deeper than that. What a
decoder passes over is not held to its depth, so this depends on which parts it looks at. -/

namespace Highlight.Json

open Outcome

namespace Document

/-! ### Depth -/

mutual

/-- What can be read at some depth has the same value where parts may be nested deeper. -/
theorem value_mono : ∀ (document : Document) {depth more : Nat} {json : Json}, depth ≤ more →
    document.value depth = .ok json → document.value more = .ok json
  | .null, _, _, _, _, read => read
  | .bool _, _, _, _, _, read => read
  | .number _, _, _, _, _, read => read
  | .string _, _, _, _, _, read => read
  | .array _ items _, 0, _, _, _, read => by cases read
  | .array _ items _, _ + 1, 0, _, within, _ => absurd within (Nat.not_succ_le_zero _)
  | .array _ items _, depth + 1, more + 1, _, within, read => by
      obtain ⟨values, itemsRead, read⟩ := bind_eq_ok.mp read
      exact bind_eq_ok.mpr ⟨values, itemValues_mono items (Nat.le_of_succ_le_succ within) itemsRead, read⟩
  | .object _ members _, 0, _, _, _, read => by cases read
  | .object _ members _, _ + 1, 0, _, within, _ => absurd within (Nat.not_succ_le_zero _)
  | .object _ members _, depth + 1, more + 1, _, within, read => by
      obtain ⟨values, membersRead, read⟩ := bind_eq_ok.mp read
      exact bind_eq_ok.mpr
        ⟨values, memberValues_mono members (Nat.le_of_succ_le_succ within) membersRead, read⟩
  | .broken _, _, _, _, _, read => read
  | .faulty _, _, _, _, _, read => read

theorem itemValues_mono : ∀ (items : List (Item Document)) {depth more : Nat} {values : List Json},
    depth ≤ more → itemValues depth items = .ok values → itemValues more items = .ok values
  | [], _, _, _, _, read => read
  | ⟨first, _⟩ :: rest, _, _, _, within, read => by
      obtain ⟨value, firstRead, read⟩ := bind_eq_ok.mp read
      obtain ⟨others, restRead, read⟩ := bind_eq_ok.mp read
      refine bind_eq_ok.mpr ⟨value, value_mono first within firstRead, ?_⟩
      exact bind_eq_ok.mpr ⟨others, itemValues_mono rest within restRead, read⟩

theorem memberValues_mono : ∀ (members : List (Member Document)) {depth more : Nat}
    {values : List (String × Json)}, depth ≤ more →
      memberValues depth members = .ok values → memberValues more members = .ok values
  | [], _, _, _, _, read => read
  | ⟨_, _, first, _⟩ :: rest, _, _, _, within, read => by
      obtain ⟨name, named, read⟩ := bind_eq_ok.mp read
      obtain ⟨value, firstRead, read⟩ := bind_eq_ok.mp read
      obtain ⟨others, restRead, read⟩ := bind_eq_ok.mp read
      refine bind_eq_ok.mpr ⟨name, named, bind_eq_ok.mpr ⟨value, value_mono first within firstRead, ?_⟩⟩
      exact bind_eq_ok.mpr ⟨others, memberValues_mono rest within restRead, read⟩

end

variable {depth height : Nat} {document : Document} {json : Json}

def Readable (depth : Nat) (document : Document) : Prop :=
  ∃ json, document.value depth = .ok json

/-- What a document depicts does not depend on the depth at which it is read. -/
theorem Depicts.of_readable (depicts : document.Depicts height json) (readable : document.Readable depth) :
    document.Depicts depth json := by
  obtain ⟨other, otherRead, same⟩ := depicts
  obtain ⟨value, read⟩ := readable
  have high := value_mono document (Nat.le_max_left height depth) otherRead
  have low := value_mono document (Nat.le_max_right height depth) read
  obtain rfl := Except.ok.inj (high.symm.trans low)
  exact ⟨other, read, same⟩

theorem readable_array {inside : List Char} {items : List (Item Document)}
    (each : ∀ item ∈ items, item.value.Readable depth) :
    (array inside items none).Readable (depth + 1) := by
  have all : ∃ values, itemValues depth items = .ok values := by
    induction items with
    | nil => exact ⟨[], rfl⟩
    | cons item rest ih =>
        obtain ⟨value, read⟩ := each item List.mem_cons_self
        obtain ⟨values, restRead⟩ := ih fun other listed => each other (List.mem_cons_of_mem _ listed)
        refine ⟨value :: values, ?_⟩
        simp only [itemValues, read, restRead]
        rfl
  obtain ⟨values, read⟩ := all
  exact ⟨.array values, bind_eq_ok.mpr ⟨values, read, rfl⟩⟩

theorem readable_object {inside : List Char} {members : List (Member Document)}
    (each : ∀ member ∈ members, (∃ name, member.name = .ok name) ∧ member.value.Readable depth) :
    (object inside members none).Readable (depth + 1) := by
  have all : ∃ values, memberValues depth members = .ok values := by
    induction members with
    | nil => exact ⟨[], rfl⟩
    | cons member rest ih =>
        obtain ⟨⟨name, named⟩, value, read⟩ := each member List.mem_cons_self
        obtain ⟨values, restRead⟩ := ih fun other listed => each other (List.mem_cons_of_mem _ listed)
        refine ⟨(name, value) :: values, ?_⟩
        simp only [memberValues, named, read, restRead]
        rfl
  obtain ⟨values, read⟩ := all
  exact ⟨.object values, bind_eq_ok.mpr ⟨values, read, rfl⟩⟩

end Document

namespace Decoder

variable {α β : Type} {decoder : Decoder α} {json : Json}

/-! ### Decoders -/

/-- Whether a decoder gives something only for documents all of which can be read at its depth, among
those that depict a value. -/
def Covers (decoder : Decoder α) (json : Json) : Prop :=
  ∀ (depth height : Nat) (document : Document) (value : α), document.Depicts height json →
    decoder depth document = .ok value → document.Readable depth

/-- A decoder that covers a value gives what it reads at a greater depth, or nothing. -/
theorem Covers.depicts (covers : Covers decoder json) {depth height : Nat} {document : Document}
    {value : α} (depicts : document.Depicts height json) (given : decoder depth document = .ok value) :
    document.Depicts depth json :=
  depicts.of_readable (covers depth height document value depicts given)

theorem covers_string (decoder : Decoder α) (text : String) : Covers decoder (.string text) := by
  intro depth height document value depicts _
  rw [depicts.string]
  exact ⟨.string text, rfl⟩

theorem covers_bool (decoder : Decoder α) (held : Bool) : Covers decoder (.bool held) := by
  intro depth height document value depicts _
  rw [depicts.bool]
  exact ⟨.bool held, rfl⟩

theorem covers_natural (decoder : Decoder α) (held : Nat) : Covers decoder (natural held) := by
  intro depth height document value depicts _
  rw [Document.Depicts.number depicts]
  exact ⟨natural held, rfl⟩

theorem covers_whole (decoder : Decoder α) (json : Json) : Covers (whole decoder) json := by
  intro depth height document value _ given
  obtain ⟨other, read, _⟩ := bind_eq_ok.mp given
  exact ⟨other, mapError_eq_ok read⟩

theorem covers_choose (choice : Choice) (decoders : List (Decoder α)) (json : Json) :
    Covers (choose choice decoders) json :=
  covers_whole _ json

theorem Covers.optional (covers : Covers decoder json) : Covers (optional decoder) json := by
  intro depth height document value depicts given
  unfold Decoder.optional at given
  split at given
  · exact ⟨.null, rfl⟩
  · obtain ⟨other, read, _⟩ := map_eq_ok given
    exact covers depth height document other depicts read

theorem Covers.sequence {items : List Json} (covers : ∀ item ∈ items, Covers decoder item) :
    Covers (sequence decoder) (.array items) := by
  intro depth height document value depicts given
  obtain ⟨inside, documents, below, rfl, rfl, each⟩ := depicts.array
  unfold Decoder.sequence at given
  cases depth with
  | zero => cases given
  | succ depth =>
      obtain ⟨values, mapped, _⟩ := bind_eq_ok.mp given
      refine Document.readable_array fun item listed => ?_
      obtain ⟨json, among, depicted⟩ := exists_of_forall₂ each listed
      obtain ⟨held, _, read⟩ := exists_of_mapM_eq_ok mapped listed
      exact covers json among depth below item.value held depicted (mapError_eq_ok read)

theorem covers_object {members : List (String × Json)}
    (flat : ∀ inside documents value, decoder 0 (.object inside documents none) ≠ .ok value)
    (goes : ∀ (depth height : Nat) inside documents value,
      decoder (depth + 1) (.object inside documents none) = .ok value →
      (∀ document ∈ documents, ∃ member ∈ members, document.name = .ok member.1 ∧
        document.value.Depicts height member.2) →
      ∀ document ∈ documents, document.value.Readable depth) :
    Covers decoder (.object members) := by
  intro depth height document value depicts given
  obtain ⟨inside, documents, below, rfl, rfl, _, each⟩ := depicts.object
  cases depth with
  | zero => exact absurd given (flat inside documents value)
  | succ depth =>
      apply Document.readable_object
      intro entry listed
      obtain ⟨member, _, named, _⟩ := each entry listed
      exact ⟨⟨member.1, named⟩, goes depth below inside documents value given each entry listed⟩

theorem Covers.dictionary {members : List (String × Json)}
    (covers : ∀ member ∈ members, Covers decoder member.2) :
    Covers (dictionary decoder) (.object members) := by
  apply covers_object
  case flat => exact fun _ _ _ given => nomatch given
  case goes =>
    intro depth height inside documents value given each entry listed
    obtain ⟨entries, mapped, _⟩ := bind_eq_ok.mp given
    obtain ⟨member, among, _, depicts⟩ := each entry listed
    obtain ⟨pair, _, read⟩ := exists_of_mapM_eq_ok mapped listed
    obtain ⟨name, _, onward⟩ := bind_eq_ok.mp read
    obtain ⟨held, valued, _⟩ := bind_eq_ok.mp onward
    exact covers member among depth height entry.value held depicts (mapError_eq_ok valued)

end Decoder

end Highlight.Json
