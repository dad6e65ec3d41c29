import Highlight.Proofs.Definition.Parts
import Highlight.Proofs.Json.Covering

set_option autoImplicit false

/-! Definitions are read as a whole: every member that is written is a field, so nothing of it is passed
over, and what is read at all is nested no deeper than it may be. -/

namespace Highlight

open Json Json.Decoder Outcome

theorem made_of_some {ε α : Type} {empty : Bool} {outcome : Except ε α} {write : α → Json} {json : Json}
    (written : (if empty then none else outcome.toOption.map write) = some json) :
    ∃ value, outcome = .ok value ∧ write value = json := by
  cases empty with
  | true => cases written
  | false =>
      obtain ⟨value, made, same⟩ := Option.map_eq_some_iff.mp written
      exact ⟨value, eq_ok_of_toOption made, same⟩

theorem covers_names (names : Dictionary String) : Covers (dictionary string) (names.toJson .string) := by
  apply Covers.dictionary
  intro member listed
  obtain ⟨entry, _, rfl⟩ := List.mem_map.mp listed
  exact covers_string _ entry.2

/-! ### Modes -/

namespace ModeDefinition

variable {nested : Bool → Decoder ModeDefinition}
  (covers : ∀ buffered (inner : ModeDefinition) members, Definition.modeMembers inner = .ok members →
    Covers (nested buffered) (.object members))

include covers in
theorem covers_modeField {goal : ModeDefinition} {field : ModeField} {json : Json}
    (written : goal.fieldJson? field = some json) (buffered : Bool) (mode : ModeDefinition) :
    Covers (fun depth document => modeField nested buffered depth mode field document) json := by
  intro depth height document value depicts given
  cases field
  all_goals
    obtain ⟨held, read, _⟩ := bind_eq_ok.mp given
  case scope | beginScope | endScope | begins | ends | matching | illegal | keywords | subLanguage =>
    exact (covers_choose _ _ json).optional depth height document held depicts read
  case className | beginKeywords | beforeMatch =>
    obtain ⟨text, _, rfl⟩ := Option.map_eq_some_iff.mp written
    exact (covers_string _ text).optional depth height document held depicts read
  case excludeBegin | excludeEnd | returnBegin | returnEnd | skip | endsWithParent | endsParent =>
    obtain ⟨_, rfl⟩ := flag_of_some written
    exact covers_bool _ true depth height document held depicts read
  case relevance =>
    obtain ⟨number, _, rfl⟩ := Option.map_eq_some_iff.mp written
    exact (covers_natural _ number).optional depth height document held depicts read
  case onBegin | onEnd =>
    obtain ⟨hook, _, made⟩ := Option.bind_eq_some_iff.mp written
    cases hook with
    | builtin hook =>
        obtain rfl := Option.some.inj made
        exact (covers_string _ hook.name).optional depth height document held depicts read
    | custom run => cases made
  case contains =>
    obtain ⟨items, _, rfl⟩ := made_of_some written
    have entries : Covers (sequence (containsEntry (nested true))) (.array items) := by
      apply Covers.sequence
      intro item _
      exact covers_whole _ item
    exact entries depth height document held depicts read
  case variants =>
    obtain ⟨items, made, rfl⟩ := made_of_some written
    have modes : Covers (sequence (nested buffered)) (.array items) := by
      apply Covers.sequence
      intro item listed
      obtain ⟨inner, _, members, membersMade, rfl⟩ := exists_of_forall₂ (forall₂_of_modes made).flip listed
      exact covers buffered inner members membersMade
    exact modes depth height document held depicts read
  case starts =>
    obtain ⟨inner, _, made⟩ := Option.bind_eq_some_iff.mp written
    obtain ⟨members, membersMade, made⟩ := bind_eq_ok.mp (eq_ok_of_toOption made)
    obtain rfl := pure_eq_ok.mp made
    have next := (covers buffered inner members membersMade).optional
    exact next depth height document held depicts read

theorem readable_of_modeMembers {buffered : Bool} {depth : Nat} {seen : List ModeField}
    {mode next : ModeDefinition} {documents : List (Member Document)}
    (given : modeMembers nested buffered depth seen mode documents = .ok next)
    (known : ∀ document ∈ documents, ∃ field : ModeField, document.name = .ok field.name ∧
      ∀ before after, modeField nested buffered depth before field document.value = .ok after →
        document.value.Readable depth) :
    ∀ document ∈ documents, document.value.Readable depth := by
  induction documents generalizing seen mode with
  | nil => simp
  | cons first rest ih =>
      obtain ⟨field, named, reads⟩ := known first List.mem_cons_self
      have opened : memberName first = .ok field.name := by
        rw [memberName, named]
        rfl
      rw [modeMembers, opened, ok_bind] at given
      simp only [ModeField.ofName?_name] at given
      split at given
      · cases given
      · obtain ⟨changed, read, onward⟩ := bind_eq_ok.mp given
        have later := ih onward fun document listed => known document (List.mem_cons_of_mem _ listed)
        exact List.forall_mem_cons.mpr ⟨reads mode changed (mapError_eq_ok read), later⟩

theorem field_of_mem {mode : ModeDefinition} {members : List (String × Json)}
    (made : Definition.modeMembers mode = .ok members) {member : String × Json} (listed : member ∈ members) :
    ∃ field : ModeField, member.1 = field.name ∧ mode.fieldJson? field = some member.2 := by
  rw [Definition.modeMembers_eq made] at listed
  obtain ⟨field, _, found⟩ := List.mem_filterMap.mp listed
  obtain ⟨json, held, rfl⟩ := Option.map_eq_some_iff.mp found
  exact ⟨field, rfl, held⟩

theorem covers_modeNested (levels : Nat) (buffered : Bool) (mode : ModeDefinition)
    (members : List (String × Json)) (made : Definition.modeMembers mode = .ok members) :
    Covers (modeNested levels buffered) (.object members) := by
  induction levels generalizing buffered mode members with
  | zero =>
      intro depth height document value _ given
      cases given
  | succ levels ih =>
      apply covers_object
      case flat => exact fun _ _ _ given => nomatch given
      case goes =>
        intro depth height inside documents value given each
        obtain ⟨read, membersRead, _⟩ := bind_eq_ok.mp given
        apply readable_of_modeMembers membersRead
        intro document listed
        obtain ⟨member, among, named, depicts⟩ := each document listed
        obtain ⟨field, name, held⟩ := field_of_mem made among
        refine ⟨field, name ▸ named, fun before after fieldRead => ?_⟩
        exact covers_modeField ih held buffered before depth height _ after depicts fieldRead

end ModeDefinition

/-! ### Grammars -/

namespace GrammarDefinition

theorem covers_grammarField {goal : GrammarDefinition} {field : GrammarField} {json : Json}
    (written : goal.fieldJson? field = some json) (grammar : GrammarDefinition) :
    Covers (fun depth document => grammarField depth grammar field document) json := by
  intro depth height document value depicts given
  cases field
  all_goals
    obtain ⟨held, read, _⟩ := bind_eq_ok.mp given
  case title =>
    obtain ⟨_, rfl⟩ := held_of_some written
    exact covers_string _ _ depth height document held depicts read
  case aliases =>
    obtain ⟨_, rfl⟩ := held_of_some written
    have names : Covers (sequence string) (.array (goal.aliases.map .string)) := by
      apply Covers.sequence
      intro item listed
      obtain ⟨name, _, rfl⟩ := List.mem_map.mp listed
      exact covers_string _ name
    exact names depth height document held depicts read
  case caseInsensitive | unicode | disableAutodetect =>
    obtain ⟨_, rfl⟩ := ModeDefinition.flag_of_some written
    exact covers_bool _ true depth height document held depicts read
  case supersetOf =>
    obtain ⟨name, _, rfl⟩ := Option.map_eq_some_iff.mp written
    exact (covers_string _ name).optional depth height document held depicts read
  case classNameAliases =>
    obtain ⟨_, rfl⟩ := held_of_some written
    exact covers_names goal.classNameAliases depth height document held depicts read
  case repository =>
    obtain ⟨members, made, rfl⟩ := made_of_some written
    have modes : Covers (dictionary mode) (.object members) := by
      apply Covers.dictionary
      intro member listed
      obtain ⟨entry, _, entryMade⟩ := mem_of_mapM_eq_ok made listed
      obtain ⟨inner, innerMade, entryMade⟩ := bind_eq_ok.mp entryMade
      obtain rfl := pure_eq_ok.mp entryMade
      obtain ⟨innerMembers, membersMade, innerMade⟩ := bind_eq_ok.mp innerMade
      obtain rfl := pure_eq_ok.mp innerMade
      exact ModeDefinition.covers_modeNested _ false entry.2 innerMembers membersMade
    exact modes depth height document held depicts read

/-- The members of a grammar are gone through if its own fields are; the others are read as a whole. -/
theorem readable_of_grammarMembers {depth : Nat} {seen : List GrammarField}
    {grammar : GrammarDefinition} {documents : List (Member Document)}
    {read : GrammarDefinition × List (Member Document)}
    (given : grammarMembers depth seen grammar documents = .ok read)
    (own : ∀ document ∈ documents, ∀ name field, document.name = .ok name →
      GrammarField.ofName? name = some field →
      ∀ before after, grammarField depth before field document.value = .ok after →
        document.value.Readable depth) :
    ∀ document ∈ documents, document.value.Readable depth := by
  induction documents generalizing seen grammar read with
  | nil => simp
  | cons first rest ih =>
      have later := fun document listed => own document (List.mem_cons_of_mem first listed)
      obtain ⟨name, named, onward⟩ := bind_eq_ok.mp given
      dsimp only at onward
      split at onward
      · obtain ⟨json, valued, onward⟩ := bind_eq_ok.mp onward
        obtain ⟨passed, restRead, _⟩ := bind_eq_ok.mp onward
        exact List.forall_mem_cons.mpr ⟨⟨json, mapError_eq_ok valued⟩, ih restRead later⟩
      · rename_i field known
        split at onward
        · cases onward
        · obtain ⟨changed, fieldRead, onward⟩ := bind_eq_ok.mp onward
          refine List.forall_mem_cons.mpr ⟨?_, ih onward later⟩
          exact own first List.mem_cons_self name field (mapError_eq_ok named) known grammar changed
            (mapError_eq_ok fieldRead)

theorem covers_grammar {definition : GrammarDefinition} {json : Json}
    (made : definition.toJson = .ok json) : Covers Json.Decoder.grammar json := by
  obtain ⟨members, root, _, rootMade, rfl⟩ := toJson_eq_ok made
  apply covers_object
  case flat => exact fun _ _ _ given => nomatch given
  case goes =>
    intro depth height inside documents value given each
    obtain ⟨read, membersRead, _⟩ := bind_eq_ok.mp given
    apply readable_of_grammarMembers membersRead
    intro document listed name field named known before after fieldRead
    obtain ⟨member, among, same, depicts⟩ := each document listed
    obtain rfl := Except.ok.inj (named.symm.trans same)
    rcases List.mem_append.mp among with own | other
    · obtain ⟨ownField, name, held⟩ := mem_ownMembers own
      rw [name, GrammarField.ofName?_name] at known
      obtain rfl := Option.some.inj known
      exact covers_grammarField held before depth height _ after depicts fieldRead
    · obtain ⟨modeField, name, _⟩ := ModeDefinition.field_of_mem rootMade other
      rw [name, GrammarField.ofName?_modeField] at known
      cases known

end GrammarDefinition

end Highlight
