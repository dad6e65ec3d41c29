import Highlight.Definition.Reader
import Highlight.Definition.Writer
import Highlight.Proofs.Json.Depiction

set_option autoImplicit false

/-! The parts of definitions that can have one of several forms. Each is written in a form of its own, so
that it is read again in the same form: a decoder that is tried before refuses it. What has been read out
of a text stands no deeper where it is written. -/

namespace Highlight

open Json Json.Decoder Outcome

/-! ### Lists and dictionaries of strings -/

section

variable (most : Nat)

theorem reads_strings (items : List String) :
    Reads most (sequence string) (.array (items.map .string)) items :=
  Reads.sequence (List.forall₂_map_left_iff.mpr (List.forall₂_same.mpr fun item _ =>
    reads_string most item))

theorem reads_dictionary {α : Type} {decoder : Decoder α} {write : α → Json}
    (reads : ∀ value, Reads most decoder (write value) value) (values : Dictionary α) :
    Reads most (dictionary decoder) (values.toJson write) values :=
  Reads.dictionary (List.forall₂_map_left_iff.mpr (List.forall₂_same.mpr fun entry _ =>
    ⟨rfl, reads entry.2⟩))

theorem fits_strings {decoder : Decoder String} {depth : Nat} {document : Document}
    {items : List String} (given : sequence decoder depth document = .ok items) :
    (Json.array (items.map .string)).fits depth = true := by
  obtain ⟨below, rfl, _⟩ := sequence_eq_ok given
  simp

theorem Dictionary.fits_toJson {α : Type} {write : α → Json} {below : Nat} {values : Dictionary α}
    (fit : ∀ entry ∈ values.entries, (write entry.2).fits below = true) :
    (values.toJson write).fits (below + 1) = true := by
  refine fits_object.mpr fun member listed => ?_
  obtain ⟨entry, among, rfl⟩ := List.mem_map.mp listed
  exact fit entry among

theorem fits_dictionary {α : Type} {decoder : Decoder α} {write : α → Json} {depth : Nat}
    {document : Document} {values : Dictionary α}
    (fit : ∀ depth document value, decoder depth document = .ok value → (write value).fits depth = true)
    (given : dictionary decoder depth document = .ok values) :
    (values.toJson write).fits depth = true := by
  obtain ⟨below, rfl, each⟩ := dictionary_eq_ok given
  refine Dictionary.fits_toJson fun entry among => ?_
  obtain ⟨inner, read⟩ := each entry among
  exact fit below inner entry.2 read

theorem fits_names {depth : Nat} {document : Document} {names : Dictionary String}
    (given : dictionary string depth document = .ok names) :
    (names.toJson .string).fits depth = true :=
  fits_dictionary (fun _ _ _ _ => fits_string _ _) given

theorem writes_entries {α : Type} {decoder : Decoder α} {write : α → Except DataError Json} {depth : Nat}
    {entries : List (String × α)}
    (each : ∀ entry ∈ entries, ∃ json, write entry.2 = .ok json ∧ json.fits depth = true ∧
      Reads most decoder json entry.2) :
    ∃ members, (entries.mapM fun entry => do return (entry.1, ← write entry.2)) = .ok members ∧
      (∀ member ∈ members, member.2.fits depth = true) ∧
      List.Forall₂ (fun member entry => member.1 = entry.1 ∧ Reads most decoder member.2 entry.2)
        members entries := by
  induction entries with
  | nil => exact ⟨[], rfl, by simp, .nil⟩
  | cons entry rest ih =>
      obtain ⟨members, written, fit, reads⟩ := ih fun other listed =>
        each other (List.mem_cons_of_mem _ listed)
      obtain ⟨json, made, jsonFits, jsonReads⟩ := each entry List.mem_cons_self
      refine ⟨(entry.1, json) :: members, ?_, List.forall_mem_cons.mpr ⟨jsonFits, fit⟩,
        .cons ⟨rfl, jsonReads⟩ reads⟩
      rw [List.mapM_cons, written, made]
      rfl

/-! ### Parts in several forms -/

theorem PatternSource.reads_toJson (source : PatternSource) :
    Reads most patternSource source.toJson source := by
  cases source with
  | one text => exact (Reads.map (reads_string most text) PatternSource.one).choose
  | sequence texts =>
      exact ((string_refuses_array _).map _).choose
        (Reads.map (reads_strings most texts) PatternSource.sequence).choose

theorem ScopeSource.reads_toJson (source : ScopeSource) :
    Reads most scopeSource source.toJson source := by
  cases source with
  | name text => exact (Reads.map (reads_string most text) ScopeSource.name).choose
  | captures scopes =>
      exact ((string_refuses_object _).map _).choose
        (Reads.map (reads_dictionary most (reads_string most) scopes) ScopeSource.captures).choose

theorem KeywordList.reads_toJson (words : KeywordList) :
    Reads most keywordList words.toJson words := by
  cases words with
  | words text => exact (Reads.map (reads_string most text) KeywordList.words).choose
  | list texts =>
      exact ((string_refuses_array _).map _).choose
        (Reads.map (reads_strings most texts) KeywordList.list).choose

theorem KeywordSource.reads_toJson (source : KeywordSource) :
    Reads most keywordSource source.toJson source := by
  cases source with
  | words text => exact (Reads.map (reads_string most text) KeywordSource.words).choose
  | list texts =>
      exact ((string_refuses_array _).map _).choose
        (Reads.map (reads_strings most texts) KeywordSource.list).choose
  | classes lists =>
      exact ((string_refuses_object _).map _).choose
        (((sequence_refuses_object _ _).map _).choose
          (Reads.map (reads_dictionary most (KeywordList.reads_toJson most) lists)
            KeywordSource.classes).choose)

theorem SubLanguageSource.reads_toJson (source : SubLanguageSource) :
    Reads most subLanguageSource source.toJson source := by
  cases source with
  | one text => exact (Reads.map (reads_string most text) SubLanguageSource.one).choose
  | many texts =>
      exact ((string_refuses_array _).map _).choose
        (Reads.map (reads_strings most texts) SubLanguageSource.many).choose

theorem PatternSource.toJson_ne_null (source : PatternSource) : source.toJson ≠ .null := by
  cases source <;> simp [toJson]

theorem ScopeSource.toJson_ne_null (source : ScopeSource) : source.toJson ≠ .null := by
  cases source <;> simp [toJson, Dictionary.toJson]

theorem KeywordSource.toJson_ne_null (source : KeywordSource) : source.toJson ≠ .null := by
  cases source <;> simp [toJson, Dictionary.toJson]

theorem SubLanguageSource.toJson_ne_null (source : SubLanguageSource) : source.toJson ≠ .null := by
  cases source <;> simp [toJson]

theorem reads_hook (hook : BuiltinHook) : Reads most Decoder.hook (.string hook.name) (.builtin hook) := by
  intro depth within document depicts
  unfold Decoder.hook
  rw [reads_string most hook.name depth within document depicts, ok_bind, BuiltinHook.ofName?_name]
  rfl

end

/-! ### Depth -/

theorem PatternSource.fits_succ (source : PatternSource) (depth : Nat) :
    source.toJson.fits (depth + 1) = true := by
  cases source <;> simp [toJson]

theorem ScopeSource.fits_succ (source : ScopeSource) (depth : Nat) :
    source.toJson.fits (depth + 1) = true := by
  cases source with
  | name text => exact fits_string _ _
  | captures scopes => exact Dictionary.fits_toJson fun _ _ => fits_string _ _

theorem KeywordList.fits_succ (words : KeywordList) (depth : Nat) :
    words.toJson.fits (depth + 1) = true := by
  cases words <;> simp [toJson]

theorem KeywordSource.fits_succ (source : KeywordSource) (depth : Nat) :
    source.toJson.fits (depth + 2) = true := by
  cases source with
  | words text => exact fits_string _ _
  | list texts => simp [toJson]
  | classes lists => exact Dictionary.fits_toJson fun entry _ => entry.2.fits_succ depth

theorem SubLanguageSource.fits_succ (source : SubLanguageSource) (depth : Nat) :
    source.toJson.fits (depth + 1) = true := by
  cases source <;> simp [toJson]

section

variable {depth : Nat} {document : Document}

theorem PatternSource.fits_toJson {source : PatternSource}
    (given : patternSource depth document = .ok source) : source.toJson.fits depth = true := by
  obtain ⟨decoder, listed, read⟩ := choose_eq_ok given
  simp only [List.mem_cons, List.not_mem_nil, or_false] at listed
  rcases listed with rfl | rfl
  · obtain ⟨text, _, rfl⟩ := map_eq_ok read
    exact fits_string _ _
  · obtain ⟨texts, listRead, rfl⟩ := map_eq_ok read
    exact fits_strings listRead

theorem ScopeSource.fits_toJson {source : ScopeSource} (given : scopeSource depth document = .ok source) :
    source.toJson.fits depth = true := by
  obtain ⟨decoder, listed, read⟩ := choose_eq_ok given
  simp only [List.mem_cons, List.not_mem_nil, or_false] at listed
  rcases listed with rfl | rfl
  · obtain ⟨text, _, rfl⟩ := map_eq_ok read
    exact fits_string _ _
  · obtain ⟨scopes, listRead, rfl⟩ := map_eq_ok read
    exact fits_names listRead

theorem KeywordList.fits_toJson {words : KeywordList} (given : keywordList depth document = .ok words) :
    words.toJson.fits depth = true := by
  obtain ⟨decoder, listed, read⟩ := choose_eq_ok given
  simp only [List.mem_cons, List.not_mem_nil, or_false] at listed
  rcases listed with rfl | rfl
  · obtain ⟨text, _, rfl⟩ := map_eq_ok read
    exact fits_string _ _
  · obtain ⟨texts, listRead, rfl⟩ := map_eq_ok read
    exact fits_strings listRead

theorem KeywordSource.fits_toJson {source : KeywordSource}
    (given : keywordSource depth document = .ok source) : source.toJson.fits depth = true := by
  obtain ⟨decoder, listed, read⟩ := choose_eq_ok given
  simp only [List.mem_cons, List.not_mem_nil, or_false] at listed
  rcases listed with rfl | rfl | rfl
  · obtain ⟨text, _, rfl⟩ := map_eq_ok read
    exact fits_string _ _
  · obtain ⟨texts, listRead, rfl⟩ := map_eq_ok read
    exact fits_strings listRead
  · obtain ⟨lists, listsRead, rfl⟩ := map_eq_ok read
    exact fits_dictionary (fun _ _ _ => KeywordList.fits_toJson) listsRead

theorem SubLanguageSource.fits_toJson {source : SubLanguageSource}
    (given : subLanguageSource depth document = .ok source) :
    source.toJson.fits depth = true := by
  obtain ⟨decoder, listed, read⟩ := choose_eq_ok given
  simp only [List.mem_cons, List.not_mem_nil, or_false] at listed
  rcases listed with rfl | rfl
  · obtain ⟨text, _, rfl⟩ := map_eq_ok read
    exact fits_string _ _
  · obtain ⟨texts, listRead, rfl⟩ := map_eq_ok read
    exact fits_strings listRead

theorem hook_eq_ok {hook : Hook} (given : Decoder.hook depth document = .ok hook) :
    ∃ builtin, hook = .builtin builtin := by
  obtain ⟨name, _, read⟩ := bind_eq_ok.mp given
  split at read
  · rename_i builtin _
    exact ⟨builtin, (pure_eq_ok.mp read).symm⟩
  · cases read

end

end Highlight
