import Highlight.Proofs.Definition.Sources

set_option autoImplicit false

/-! Modes that have been read, written and read again. What has been read into the fields of a mode can be
written, no deeper than it stood. The members that are written are the fields that are set, each under its
name, and reading them in any order puts back one field after the other: `restrict` says which mode there
is on the way. -/

namespace Highlight

open Json Json.Decoder Outcome

namespace ModeField

theorem mem_all (field : ModeField) : field ∈ all := by
  cases field <;> decide

@[simp] theorem ofName?_name (field : ModeField) : ofName? field.name = some field := by
  cases field <;> decide

theorem name_injective {field other : ModeField} (same : field.name = other.name) : field = other := by
  have found := ofName?_name field
  rw [same, ofName?_name] at found
  exact (Option.some.inj found).symm

theorem names_nodup : (all.map name).Nodup := by
  decide

end ModeField

namespace ModeDefinition

/-! ### The fields of a mode -/

def restrict (fields : List ModeField) (mode : ModeDefinition) : ModeDefinition where
  scope := if .scope ∈ fields then mode.scope else none
  className := if .className ∈ fields then mode.className else none
  begins := if .begins ∈ fields then mode.begins else none
  ends := if .ends ∈ fields then mode.ends else none
  matching := if .matching ∈ fields then mode.matching else none
  beginScope := if .beginScope ∈ fields then mode.beginScope else none
  endScope := if .endScope ∈ fields then mode.endScope else none
  beginKeywords := if .beginKeywords ∈ fields then mode.beginKeywords else none
  beforeMatch := if .beforeMatch ∈ fields then mode.beforeMatch else none
  keywords := if .keywords ∈ fields then mode.keywords else none
  illegal := if .illegal ∈ fields then mode.illegal else none
  contains := if .contains ∈ fields then mode.contains else []
  variants := if .variants ∈ fields then mode.variants else []
  starts := if .starts ∈ fields then mode.starts else none
  flags := {
    excludeBegin := if .excludeBegin ∈ fields then mode.flags.excludeBegin else false
    excludeEnd := if .excludeEnd ∈ fields then mode.flags.excludeEnd else false
    returnBegin := if .returnBegin ∈ fields then mode.flags.returnBegin else false
    returnEnd := if .returnEnd ∈ fields then mode.flags.returnEnd else false
    skip := if .skip ∈ fields then mode.flags.skip else false
    endsWithParent := if .endsWithParent ∈ fields then mode.flags.endsWithParent else false
    endsParent := if .endsParent ∈ fields then mode.flags.endsParent else false }
  relevance := if .relevance ∈ fields then mode.relevance else none
  subLanguage := if .subLanguage ∈ fields then mode.subLanguage else none
  onBegin := if .onBegin ∈ fields then mode.onBegin else none
  onEnd := if .onEnd ∈ fields then mode.onEnd else none
  beforeBegin := mode.beforeBegin
  beginGroups := mode.beginGroups
  endGroups := mode.endGroups

def fieldJson? (mode : ModeDefinition) : ModeField → Option Json
  | .scope => mode.scope.map ScopeSource.toJson
  | .className => mode.className.map .string
  | .begins => mode.begins.map PatternSource.toJson
  | .ends => mode.ends.map PatternSource.toJson
  | .matching => mode.matching.map PatternSource.toJson
  | .beginScope => mode.beginScope.map ScopeSource.toJson
  | .endScope => mode.endScope.map ScopeSource.toJson
  | .beginKeywords => mode.beginKeywords.map .string
  | .beforeMatch => mode.beforeMatch.map .string
  | .keywords => mode.keywords.map KeywordSource.toJson
  | .illegal => mode.illegal.map PatternSource.toJson
  | .contains =>
    if mode.contains.isEmpty then none else (Definition.entries mode.contains).toOption.map .array
  | .variants =>
    if mode.variants.isEmpty then none else (Definition.modes mode.variants).toOption.map .array
  | .starts => mode.starts.bind fun next => next.toJson.toOption
  | .excludeBegin => if mode.flags.excludeBegin then some (.bool true) else none
  | .excludeEnd => if mode.flags.excludeEnd then some (.bool true) else none
  | .returnBegin => if mode.flags.returnBegin then some (.bool true) else none
  | .returnEnd => if mode.flags.returnEnd then some (.bool true) else none
  | .skip => if mode.flags.skip then some (.bool true) else none
  | .endsWithParent => if mode.flags.endsWithParent then some (.bool true) else none
  | .endsParent => if mode.flags.endsParent then some (.bool true) else none
  | .relevance => mode.relevance.map Json.natural
  | .subLanguage => mode.subLanguage.map SubLanguageSource.toJson
  | .onBegin => mode.onBegin.bind fun hook => hook.toJson.toOption
  | .onEnd => mode.onEnd.bind fun hook => hook.toJson.toOption

def Unset (mode : ModeDefinition) : ModeField → Prop
  | .scope => mode.scope = none
  | .className => mode.className = none
  | .begins => mode.begins = none
  | .ends => mode.ends = none
  | .matching => mode.matching = none
  | .beginScope => mode.beginScope = none
  | .endScope => mode.endScope = none
  | .beginKeywords => mode.beginKeywords = none
  | .beforeMatch => mode.beforeMatch = none
  | .keywords => mode.keywords = none
  | .illegal => mode.illegal = none
  | .contains => mode.contains = []
  | .variants => mode.variants = []
  | .starts => mode.starts = none
  | .excludeBegin => mode.flags.excludeBegin = false
  | .excludeEnd => mode.flags.excludeEnd = false
  | .returnBegin => mode.flags.returnBegin = false
  | .returnEnd => mode.flags.returnEnd = false
  | .skip => mode.flags.skip = false
  | .endsWithParent => mode.flags.endsWithParent = false
  | .endsParent => mode.flags.endsParent = false
  | .relevance => mode.relevance = none
  | .subLanguage => mode.subLanguage = none
  | .onBegin => mode.onBegin = none
  | .onEnd => mode.onEnd = none

end ModeDefinition

namespace Definition

theorem optionalMember_eq {α : Type} (name : String) (write : α → Json) (value : Option α) :
    optionalMember name write value = ((value.map write).map (Prod.mk name)).toList := by
  cases value <;> rfl

theorem flagMember_eq (name : String) (value : Bool) : flagMember name value =
    ((if value then some (Json.bool true) else none).map (Prod.mk name)).toList := by
  cases value <;> rfl

theorem hookMember_eq {name : String} {hook : Option Hook} {members : List (String × Json)}
    (written : hookMember name hook = .ok members) :
    members = ((hook.bind fun hook => hook.toJson.toOption).map (Prod.mk name)).toList := by
  cases hook with
  | none =>
      obtain rfl := Except.ok.inj written
      rfl
  | some hook =>
      obtain ⟨json, made, written⟩ := bind_eq_ok.mp written
      obtain rfl := pure_eq_ok.mp written
      simp only [Option.bind_some, made]
      rfl

theorem nextMember_eq {next : Option ModeDefinition} {members : List (String × Json)}
    (written : Definition.next next = .ok members) :
    members = ((next.bind fun next => next.toJson.toOption).map (Prod.mk "starts")).toList := by
  cases next with
  | none =>
      obtain rfl := Except.ok.inj written
      rfl
  | some next =>
      obtain ⟨inner, made, written⟩ := bind_eq_ok.mp written
      obtain rfl := pure_eq_ok.mp written
      simp only [Option.bind_some, ModeDefinition.toJson, made]
      rfl

theorem length_entries {contains : List (ContainsEntry ModeDefinition)} {items : List Json}
    (written : entries contains = .ok items) : items.length = contains.length := by
  induction contains generalizing items with
  | nil =>
      obtain rfl := Except.ok.inj written
      rfl
  | cons entry rest ih =>
      cases entry with
      | itself | shared name =>
          obtain ⟨others, othersWritten, written⟩ := bind_eq_ok.mp written
          obtain rfl := pure_eq_ok.mp written
          exact congrArg (· + 1) (ih othersWritten)
      | inline mode =>
          obtain ⟨inner, _, written⟩ := bind_eq_ok.mp written
          obtain ⟨others, othersWritten, written⟩ := bind_eq_ok.mp written
          obtain rfl := pure_eq_ok.mp written
          exact congrArg (· + 1) (ih othersWritten)

theorem length_modes {variants : List ModeDefinition} {items : List Json}
    (written : modes variants = .ok items) : items.length = variants.length := by
  induction variants generalizing items with
  | nil =>
      obtain rfl := Except.ok.inj written
      rfl
  | cons mode rest ih =>
      obtain ⟨inner, _, written⟩ := bind_eq_ok.mp written
      obtain ⟨others, othersWritten, written⟩ := bind_eq_ok.mp written
      obtain rfl := pure_eq_ok.mp written
      exact congrArg (· + 1) (ih othersWritten)

theorem listMember_eq {α ε : Type} {values : List α} {outcome : Except ε (List Json)}
    {items : List Json} (name : String) (written : outcome = .ok items)
    (same : items.length = values.length) : listMember name items =
      ((if values.isEmpty then none else outcome.toOption.map .array).map (Prod.mk name)).toList := by
  subst written
  cases items with
  | nil =>
      obtain rfl := List.length_eq_zero_iff.mp same.symm
      rfl
  | cons item rest =>
      cases values with
      | nil => cases same
      | cons value others => rfl

theorem names_sublist {α : Type} (name : α → String) (json? : α → Option Json) (fields : List α) :
    ((fields.filterMap fun field => (json? field).map (Prod.mk (name field))).map (·.1)).Sublist
      (fields.map name) := by
  induction fields with
  | nil => exact List.Sublist.slnil
  | cons field rest ih =>
      cases held : json? field with
      | none => simpa [held] using ih.cons (name field)
      | some json => simpa [held] using ih

theorem modeMembers_eq {mode : ModeDefinition} {members : List (String × Json)}
    (written : modeMembers mode = .ok members) :
    members = ModeField.all.filterMap fun field => (mode.fieldJson? field).map (Prod.mk field.name) := by
  obtain ⟨⟩ := mode
  unfold modeMembers at written
  obtain ⟨contains, containsWritten, written⟩ := bind_eq_ok.mp written
  obtain ⟨variants, variantsWritten, written⟩ := bind_eq_ok.mp written
  obtain ⟨starts, startsWritten, written⟩ := bind_eq_ok.mp written
  obtain ⟨onBegin, onBeginWritten, written⟩ := bind_eq_ok.mp written
  obtain ⟨onEnd, onEndWritten, written⟩ := bind_eq_ok.mp written
  obtain rfl := pure_eq_ok.mp written
  rw [List.filterMap_eq_flatMap_toList]
  simp only [ModeField.all, List.flatMap_cons, List.flatMap_nil, List.append_nil, List.append_assoc,
    optionalMember_eq, flagMembers, flagMember_eq, hookMember_eq onBeginWritten,
    hookMember_eq onEndWritten, nextMember_eq startsWritten,
    listMember_eq "contains" containsWritten (length_entries containsWritten),
    listMember_eq "variants" variantsWritten (length_modes variantsWritten),
    ModeDefinition.fieldJson?, ModeField.name]

end Definition

namespace ModeDefinition

/-- A mode that can be written, nested at most so deep, and that is read again from what is written,
whatever the order of its members and whether or not they are read as a whole first. -/
def Restorable (depth : Nat) (mode : ModeDefinition) : Prop :=
  ∃ members, Definition.modeMembers mode = .ok members ∧ (Json.object members).fits depth = true ∧
    ∀ levels buffered, Reads levels (modeNested levels buffered) (.object members) mode

/-- A mode whose fields have been read at some depth: they can be written so that they fit there. -/
structure FieldsFit (depth : Nat) (mode : ModeDefinition) : Prop where
  scope : ∀ source, mode.scope = some source → source.toJson.fits depth = true
  begins : ∀ source, mode.begins = some source → source.toJson.fits depth = true
  ends : ∀ source, mode.ends = some source → source.toJson.fits depth = true
  matching : ∀ source, mode.matching = some source → source.toJson.fits depth = true
  beginScope : ∀ source, mode.beginScope = some source → source.toJson.fits depth = true
  endScope : ∀ source, mode.endScope = some source → source.toJson.fits depth = true
  keywords : ∀ source, mode.keywords = some source → source.toJson.fits depth = true
  illegal : ∀ source, mode.illegal = some source → source.toJson.fits depth = true
  contains : mode.contains = [] ∨ ∃ below, depth = below + 1 ∧
    ∀ inner, .inline inner ∈ mode.contains → inner.Restorable below
  variants : mode.variants = [] ∨ ∃ below, depth = below + 1 ∧
    ∀ inner ∈ mode.variants, inner.Restorable below
  starts : ∀ inner, mode.starts = some inner → inner.Restorable depth
  relevance : ∀ value, mode.relevance = some value → value < Nat.pow 2 32
  subLanguage : ∀ source, mode.subLanguage = some source → source.toJson.fits depth = true
  onBegin : ∀ hook, mode.onBegin = some hook → ∃ builtin, hook = .builtin builtin
  onEnd : ∀ hook, mode.onEnd = some hook → ∃ builtin, hook = .builtin builtin
  beforeBegin : mode.beforeBegin = none
  beginGroups : mode.beginGroups = none
  endGroups : mode.endGroups = none

theorem fieldsFit_default (depth : Nat) : FieldsFit depth {} := by
  constructor <;> simp

/-! ### Reading -/

variable {nested : Bool → Decoder ModeDefinition} {depth : Nat}
  (within : ∀ buffered depth document inner,
    nested buffered depth document = .ok inner → inner.Restorable depth)

theorem containsEntry_eq_inline {mode : Decoder ModeDefinition} {document : Document}
    {inner : ModeDefinition} (given : containsEntry mode depth document = .ok (.inline inner)) :
    mode depth document = .ok inner := by
  have read := whole_eq_ok given
  split at read
  · split at read
    · cases read
    · split at read
      · cases read
      · cases read
  · split at read
    · rename_i other found
      rw [found]
      injection Except.ok.inj read with same
      rw [same]
    · cases read

include within in
theorem FieldsFit.modeField {mode next : ModeDefinition} (fit : mode.FieldsFit depth) {buffered : Bool}
    {field : ModeField} {document : Document}
    (given : modeField nested buffered depth mode field document = .ok next) : next.FieldsFit depth := by
  cases field
  all_goals
    obtain ⟨value, read, same⟩ := bind_eq_ok.mp given
    obtain rfl := pure_eq_ok.mp same
  case className | beginKeywords | beforeMatch | excludeBegin | excludeEnd | returnBegin | returnEnd
  | skip | endsWithParent | endsParent =>
    exact { fit with }
  case scope =>
    refine { fit with scope := ?_ }
    rintro source rfl
    exact ScopeSource.fits_toJson (optional_eq_some read)
  case begins =>
    refine { fit with begins := ?_ }
    rintro source rfl
    exact PatternSource.fits_toJson (optional_eq_some read)
  case ends =>
    refine { fit with ends := ?_ }
    rintro source rfl
    exact PatternSource.fits_toJson (optional_eq_some read)
  case matching =>
    refine { fit with matching := ?_ }
    rintro source rfl
    exact PatternSource.fits_toJson (optional_eq_some read)
  case beginScope =>
    refine { fit with beginScope := ?_ }
    rintro source rfl
    exact ScopeSource.fits_toJson (optional_eq_some read)
  case endScope =>
    refine { fit with endScope := ?_ }
    rintro source rfl
    exact ScopeSource.fits_toJson (optional_eq_some read)
  case keywords =>
    refine { fit with keywords := ?_ }
    rintro source rfl
    exact KeywordSource.fits_toJson (optional_eq_some read)
  case illegal =>
    refine { fit with illegal := ?_ }
    rintro source rfl
    exact PatternSource.fits_toJson (optional_eq_some read)
  case contains =>
    obtain ⟨below, rfl, each⟩ := sequence_eq_ok read
    refine { fit with contains := Or.inr ⟨below, rfl, fun inner listed => ?_⟩ }
    obtain ⟨document, entryRead⟩ := each _ listed
    exact within _ _ _ _ (containsEntry_eq_inline entryRead)
  case variants =>
    obtain ⟨below, rfl, each⟩ := sequence_eq_ok read
    refine { fit with variants := Or.inr ⟨below, rfl, fun inner listed => ?_⟩ }
    obtain ⟨document, modeRead⟩ := each inner listed
    exact within _ _ _ _ modeRead
  case starts =>
    refine { fit with starts := ?_ }
    rintro inner rfl
    exact within _ _ _ _ (optional_eq_some read)
  case relevance =>
    refine { fit with relevance := ?_ }
    rintro held rfl
    exact word32_lt (optional_eq_some read)
  case subLanguage =>
    refine { fit with subLanguage := ?_ }
    rintro source rfl
    exact SubLanguageSource.fits_toJson (optional_eq_some read)
  case onBegin =>
    refine { fit with onBegin := ?_ }
    rintro hook rfl
    exact hook_eq_ok (optional_eq_some read)
  case onEnd =>
    refine { fit with onEnd := ?_ }
    rintro hook rfl
    exact hook_eq_ok (optional_eq_some read)

include within in
theorem FieldsFit.modeMembers {buffered : Bool} {seen : List ModeField} {mode next : ModeDefinition}
    {members : List (Member Document)} (fit : mode.FieldsFit depth)
    (given : Json.Decoder.modeMembers nested buffered depth seen mode members = .ok next) :
    next.FieldsFit depth := by
  induction members generalizing seen mode with
  | nil =>
      obtain rfl := Except.ok.inj given
      exact fit
  | cons entry rest ih =>
      obtain ⟨name, _, onward⟩ := bind_eq_ok.mp given
      dsimp only at onward
      split at onward
      · split at onward
        · cases onward
        · exact ih fit onward
      · split at onward
        · cases onward
        · obtain ⟨changed, read, onward⟩ := bind_eq_ok.mp onward
          exact ih (fit.modeField within (mapError_eq_ok read)) onward

include within in
theorem FieldsFit.modeItems {buffered : Bool} {fields : List ModeField} {mode next : ModeDefinition}
    {items : List (Item Document)} (fit : mode.FieldsFit depth)
    (given : Json.Decoder.modeItems nested buffered depth fields mode items = .ok next) :
    next.FieldsFit depth := by
  induction items generalizing fields mode with
  | nil =>
      cases fields with
      | nil | cons field others =>
          obtain rfl := Except.ok.inj given
          exact fit
  | cons entry rest ih =>
      cases fields with
      | nil =>
          obtain rfl := Except.ok.inj given
          exact fit
      | cons field others =>
          obtain ⟨changed, read, onward⟩ := bind_eq_ok.mp given
          exact ih (fit.modeField within (mapError_eq_ok read)) onward

/-! ### Writing -/

theorem entries_restorable {below : Nat} {contains : List (ContainsEntry ModeDefinition)}
    (each : ∀ inner, .inline inner ∈ contains → inner.Restorable below) :
    ∃ items, Definition.entries contains = .ok items ∧ (∀ item ∈ items, item.fits below = true) ∧
      ∀ levels, List.Forall₂ (fun item entry =>
        Reads levels (containsEntry (modeNested levels true)) item entry) items contains := by
  induction contains with
  | nil => exact ⟨[], rfl, by simp, fun _ => .nil⟩
  | cons entry rest ih =>
      obtain ⟨items, written, fit, reads⟩ := ih fun inner listed =>
        each inner (List.mem_cons_of_mem _ listed)
      cases entry with
      | itself =>
          refine ⟨.string "self" :: items, by simp only [Definition.entries, written]; rfl,
            List.forall_mem_cons.mpr ⟨fits_string _ _, fit⟩, fun levels => .cons ?_ (reads levels)⟩
          refine Reads.whole fun depth _ document depicts => ?_
          rw [depicts.string]
          rfl
      | shared name =>
          refine ⟨.string ("#" ++ name) :: items, by simp only [Definition.entries, written]; rfl,
            List.forall_mem_cons.mpr ⟨fits_string _ _, fit⟩, fun levels => .cons ?_ (reads levels)⟩
          refine Reads.whole fun depth _ document depicts => ?_
          have chars : ("#" ++ name).toList = '#' :: name.toList := by simp
          have other : "#" ++ name ≠ "self" := by
            intro same
            rw [same] at chars
            simp at chars
          rw [depicts.string]
          simp only [if_neg other, chars, String.ofList_toList]
      | inline inner =>
          obtain ⟨members, innerWritten, innerFits, innerReads⟩ := each inner List.mem_cons_self
          refine ⟨.object members :: items,
            by simp only [Definition.entries, innerWritten, written]; rfl,
            List.forall_mem_cons.mpr ⟨innerFits, fit⟩, fun levels => .cons ?_ (reads levels)⟩
          refine Reads.whole fun depth within document depicts => ?_
          have read := innerReads levels true depth within document depicts
          obtain ⟨inside, documents, _, rfl, _⟩ := depicts.object
          simp only [read]

theorem modes_restorable {below : Nat} {variants : List ModeDefinition}
    (each : ∀ inner ∈ variants, inner.Restorable below) :
    ∃ items, Definition.modes variants = .ok items ∧ (∀ item ∈ items, item.fits below = true) ∧
      ∀ levels buffered, List.Forall₂ (fun item inner =>
        Reads levels (modeNested levels buffered) item inner) items variants := by
  induction variants with
  | nil => exact ⟨[], rfl, by simp, fun _ _ => .nil⟩
  | cons inner rest ih =>
      obtain ⟨items, written, fit, reads⟩ := ih fun other listed =>
        each other (List.mem_cons_of_mem _ listed)
      obtain ⟨members, innerWritten, innerFits, innerReads⟩ := each inner List.mem_cons_self
      exact ⟨.object members :: items, by simp only [Definition.modes, innerWritten, written]; rfl,
        List.forall_mem_cons.mpr ⟨innerFits, fit⟩,
        fun levels buffered => .cons (innerReads levels buffered) (reads levels buffered)⟩

/-- Whether a decoder of a field puts the field of a mode back where it reads what that is written as. -/
def PutsBack (goal : ModeDefinition) (field : ModeField) (json : Json) : Prop :=
  ∀ levels buffered fields depth, depth ≤ levels → ∀ document : Document, document.Depicts depth json →
    Json.Decoder.modeField (modeNested levels) buffered depth (restrict fields goal) field document =
      .ok (restrict (field :: fields) goal)

/-- A field that is read by a decoder for its value is put back if that reads the value it has. -/
theorem PutsBack.of_reads {α : Type} {goal : ModeDefinition} {field : ModeField} {json : Json}
    {value : α} {decoder : Nat → Bool → Decoder α} {update : ModeDefinition → α → ModeDefinition}
    (reads : ∀ levels buffered, Reads levels (decoder levels buffered) json value)
    (field_eq : ∀ levels buffered depth mode document,
      Json.Decoder.modeField (modeNested levels) buffered depth mode field document =
        decoder levels buffered depth document >>= fun value => .ok (update mode value))
    (update_eq : ∀ fields, update (restrict fields goal) value = restrict (field :: fields) goal) :
    goal.PutsBack field json := by
  intro levels buffered fields depth within document depicts
  rw [field_eq, reads levels buffered depth within document depicts, ok_bind, update_eq]

theorem putsBack_of_map {α : Type} {goal : ModeDefinition} {field : ModeField} {json : Json}
    {toJson : α → Json} {held : Option α} {decoder : Decoder α}
    {update : ModeDefinition → Option α → ModeDefinition}
    (written : held.map toJson = some json)
    (fits : ∀ value, held = some value → (toJson value).fits depth = true)
    (reads : ∀ levels value, Reads levels decoder (toJson value) value)
    (present : ∀ value, toJson value ≠ .null)
    (field_eq : ∀ levels buffered depth mode document,
      Json.Decoder.modeField (modeNested levels) buffered depth mode field document =
        optional decoder depth document >>= fun value => .ok (update mode value))
    (update_eq : ∀ fields, update (restrict fields goal) held = restrict (field :: fields) goal) :
    json.fits depth = true ∧ goal.PutsBack field json := by
  obtain ⟨value, rfl, rfl⟩ := Option.map_eq_some_iff.mp written
  exact ⟨fits value rfl, .of_reads (fun levels _ => (reads levels value).optional (present value))
    field_eq update_eq⟩

theorem flag_of_some {value : Bool} {json : Json}
    (written : (if value then some (Json.bool true) else none) = some json) :
    value = true ∧ .bool true = json := by
  cases value with
  | false => cases written
  | true => exact ⟨rfl, Option.some.inj written⟩

private theorem array_of_some {α ε : Type} {values : List α} {outcome : Except ε (List Json)}
    {items : List Json} {json : Json}
    (written : (if values.isEmpty then none else outcome.toOption.map Json.array) = some json)
    (made : outcome = .ok items) : .array items = json := by
  subst made
  cases values with
  | nil => cases written
  | cons value rest => exact Option.some.inj written

/-- A field that has been read at some depth fits there where it is written, and is put back. -/
theorem FieldsFit.putsBack {goal : ModeDefinition} (fit : goal.FieldsFit depth) {field : ModeField}
    {json : Json} (written : goal.fieldJson? field = some json) :
    json.fits depth = true ∧ goal.PutsBack field json := by
  cases field with
  | scope =>
      exact putsBack_of_map written fit.scope ScopeSource.reads_toJson ScopeSource.toJson_ne_null
        (fun _ _ _ _ _ => rfl) fun fields => by simp [restrict]
  | begins =>
      exact putsBack_of_map written fit.begins PatternSource.reads_toJson PatternSource.toJson_ne_null
        (fun _ _ _ _ _ => rfl) fun fields => by simp [restrict]
  | ends =>
      exact putsBack_of_map written fit.ends PatternSource.reads_toJson PatternSource.toJson_ne_null
        (fun _ _ _ _ _ => rfl) fun fields => by simp [restrict]
  | matching =>
      exact putsBack_of_map written fit.matching PatternSource.reads_toJson PatternSource.toJson_ne_null
        (fun _ _ _ _ _ => rfl) fun fields => by simp [restrict]
  | beginScope =>
      exact putsBack_of_map written fit.beginScope ScopeSource.reads_toJson ScopeSource.toJson_ne_null
        (fun _ _ _ _ _ => rfl) fun fields => by simp [restrict]
  | endScope =>
      exact putsBack_of_map written fit.endScope ScopeSource.reads_toJson ScopeSource.toJson_ne_null
        (fun _ _ _ _ _ => rfl) fun fields => by simp [restrict]
  | keywords =>
      exact putsBack_of_map written fit.keywords KeywordSource.reads_toJson KeywordSource.toJson_ne_null
        (fun _ _ _ _ _ => rfl) fun fields => by simp [restrict]
  | illegal =>
      exact putsBack_of_map written fit.illegal PatternSource.reads_toJson PatternSource.toJson_ne_null
        (fun _ _ _ _ _ => rfl) fun fields => by simp [restrict]
  | contains =>
      rcases fit.contains with empty | ⟨below, rfl, each⟩
      · simp [fieldJson?, empty] at written
      obtain ⟨items, made, fits, reads⟩ := entries_restorable each
      obtain rfl := array_of_some written made
      refine ⟨fits_array.mpr fits, .of_reads (fun levels _ => Reads.sequence (reads levels))
        (fun _ _ _ _ _ => rfl) ?_⟩
      intro fields
      simp [restrict]
  | variants =>
      rcases fit.variants with empty | ⟨below, rfl, each⟩
      · simp [fieldJson?, empty] at written
      obtain ⟨items, made, fits, reads⟩ := modes_restorable each
      obtain rfl := array_of_some written made
      refine ⟨fits_array.mpr fits, .of_reads (fun levels buffered =>
        Reads.sequence (reads levels buffered)) (fun _ _ _ _ _ => rfl) ?_⟩
      intro fields
      simp [restrict]
  | starts =>
      obtain ⟨inner, present, made⟩ := Option.bind_eq_some_iff.mp written
      obtain ⟨members, membersWritten, fits, reads⟩ := fit.starts inner present
      simp only [toJson, membersWritten, ok_bind] at made
      obtain rfl := Option.some.inj made
      refine ⟨fits, .of_reads (fun levels buffered => (reads levels buffered).optional (by simp))
        (fun _ _ _ _ _ => rfl) ?_⟩
      intro fields
      simp [restrict, present]
  | className | beginKeywords | beforeMatch =>
      exact putsBack_of_map written (fun _ _ => fits_string _ _) reads_string (by simp)
        (fun _ _ _ _ _ => rfl) fun fields => by simp [restrict]
  | excludeBegin | excludeEnd | returnBegin | returnEnd | skip | endsWithParent | endsParent =>
      obtain ⟨set, rfl⟩ := flag_of_some written
      refine ⟨fits_bool _ _, .of_reads (fun levels _ => reads_boolean levels true)
        (fun _ _ _ _ _ => rfl) ?_⟩
      intro fields
      simp [restrict, set]
  | relevance =>
      obtain ⟨value, present, rfl⟩ := Option.map_eq_some_iff.mp written
      have small := fit.relevance value present
      refine ⟨fits_natural.mpr (Nat.le_trans (Nat.le_of_lt small) (by decide)),
        .of_reads (fun levels _ => (reads_word32 levels small).optional (by simp [Json.natural]))
          (fun _ _ _ _ _ => rfl) ?_⟩
      intro fields
      simp [restrict, present]
  | subLanguage =>
      exact putsBack_of_map written fit.subLanguage SubLanguageSource.reads_toJson SubLanguageSource.toJson_ne_null
        (fun _ _ _ _ _ => rfl) fun fields => by simp [restrict]
  | onBegin =>
      obtain ⟨hook, present, made⟩ := Option.bind_eq_some_iff.mp written
      obtain ⟨builtin, rfl⟩ := fit.onBegin hook present
      obtain rfl := Option.some.inj made
      refine ⟨fits_string _ _, .of_reads (fun levels _ =>
        (reads_hook levels builtin).optional (by simp)) (fun _ _ _ _ _ => rfl) ?_⟩
      intro fields
      simp [restrict, present]
  | onEnd =>
      obtain ⟨hook, present, made⟩ := Option.bind_eq_some_iff.mp written
      obtain ⟨builtin, rfl⟩ := fit.onEnd hook present
      obtain rfl := Option.some.inj made
      refine ⟨fits_string _ _, .of_reads (fun levels _ =>
        (reads_hook levels builtin).optional (by simp)) (fun _ _ _ _ _ => rfl) ?_⟩
      intro fields
      simp [restrict, present]

theorem FieldsFit.unset {goal : ModeDefinition} (fit : goal.FieldsFit depth) {field : ModeField}
    (unwritten : goal.fieldJson? field = none) : goal.Unset field := by
  cases field with
  | contains =>
      rcases fit.contains with empty | ⟨below, _, each⟩
      · exact empty
      · obtain ⟨items, made, _⟩ := entries_restorable each
        simpa [fieldJson?, Unset, made, Except.toOption] using unwritten
  | variants =>
      rcases fit.variants with empty | ⟨below, _, each⟩
      · exact empty
      · obtain ⟨items, made, _⟩ := modes_restorable each
        simpa [fieldJson?, Unset, made, Except.toOption] using unwritten
  | starts =>
      cases present : goal.starts with
      | none => exact present
      | some inner =>
          obtain ⟨members, made, _⟩ := fit.starts inner present
          simp [fieldJson?, present, toJson, made, Except.toOption] at unwritten
  | onBegin =>
      cases present : goal.onBegin with
      | none => exact present
      | some hook =>
          obtain ⟨builtin, rfl⟩ := fit.onBegin hook present
          simp [fieldJson?, present, Hook.toJson, Except.toOption] at unwritten
  | onEnd =>
      cases present : goal.onEnd with
      | none => exact present
      | some hook =>
          obtain ⟨builtin, rfl⟩ := fit.onEnd hook present
          simp [fieldJson?, present, Hook.toJson, Except.toOption] at unwritten
  | _ => simpa [fieldJson?, Unset] using unwritten

theorem ite_eq_of {α : Type} {condition : Prop} [Decidable condition] {value other : α}
    (either : condition ∨ value = other) : (if condition then value else other) = value := by
  rcases either with holds | same
  · exact if_pos holds
  · rw [same, ite_self]

theorem FieldsFit.restrict_eq_self {goal : ModeDefinition} (fit : goal.FieldsFit depth)
    {fields : List ModeField} (all : ∀ field, field ∈ fields ∨ goal.Unset field) :
    restrict fields goal = goal := by
  unfold restrict
  rw [ite_eq_of (all .scope), ite_eq_of (all .className), ite_eq_of (all .begins),
    ite_eq_of (all .ends), ite_eq_of (all .matching), ite_eq_of (all .beginScope),
    ite_eq_of (all .endScope), ite_eq_of (all .beginKeywords), ite_eq_of (all .beforeMatch),
    ite_eq_of (all .keywords), ite_eq_of (all .illegal), ite_eq_of (all .contains),
    ite_eq_of (all .variants), ite_eq_of (all .starts), ite_eq_of (all .excludeBegin),
    ite_eq_of (all .excludeEnd), ite_eq_of (all .returnBegin), ite_eq_of (all .returnEnd),
    ite_eq_of (all .skip), ite_eq_of (all .endsWithParent), ite_eq_of (all .endsParent),
    ite_eq_of (all .relevance), ite_eq_of (all .subLanguage), ite_eq_of (all .onBegin),
    ite_eq_of (all .onEnd)]
  cases goal
  rfl

theorem FieldsFit.restrict_nil {goal : ModeDefinition} (fit : goal.FieldsFit depth) :
    restrict [] goal = {} := by
  simp [restrict, fit.beforeBegin, fit.beginGroups, fit.endGroups]

/-- Reading members that each put a field back puts all these fields back. -/
theorem modeMembers_restrict (nested : Bool → Decoder ModeDefinition) (buffered : Bool) (depth : Nat)
    (goal : ModeDefinition) {members : List (Member Document)}
    (distinct : (members.map (·.name)).Nodup)
    (each : ∀ member ∈ members, ∃ field, member.name = .ok field.name ∧ ∀ fields,
      Json.Decoder.modeField nested buffered depth (restrict fields goal) field member.value =
        .ok (restrict (field :: fields) goal))
    (seen : List ModeField) (fresh : ∀ field ∈ seen, .ok field.name ∉ members.map (·.name)) :
    ∃ fields, Json.Decoder.modeMembers nested buffered depth seen (restrict seen goal) members =
        .ok (restrict fields goal) ∧
      ∀ field, field ∈ fields ↔ field ∈ seen ∨ .ok field.name ∈ members.map (·.name) := by
  induction members generalizing seen with
  | nil => exact ⟨seen, rfl, by simp⟩
  | cons first rest ih =>
      obtain ⟨absent, distinct⟩ := List.nodup_cons.mp distinct
      obtain ⟨field, named, puts⟩ := each first List.mem_cons_self
      have unseen : seen.contains field = false := by
        refine Bool.eq_false_iff.mpr fun listed => fresh field (List.contains_iff_mem.mp listed) ?_
        rw [List.map_cons, named]
        exact List.mem_cons_self
      obtain ⟨fields, read, held⟩ := ih distinct
        (fun member listed => each member (List.mem_cons_of_mem _ listed)) (field :: seen) (by
          intro other listed
          rcases List.mem_cons.mp listed with rfl | earlier
          · rwa [← named]
          · exact fun later => fresh other earlier (List.mem_cons_of_mem _ later))
      have opened : memberName first = .ok field.name := by
        rw [memberName, named]
        rfl
      have put : member (fun depth => Json.Decoder.modeField nested buffered depth (restrict seen goal)
          field) depth first = .ok (restrict (field :: seen) goal) := by
        rw [member, puts]
        rfl
      refine ⟨fields, ?_, fun other => ?_⟩
      · rw [Json.Decoder.modeMembers, opened, ok_bind]
        simp only [ModeField.ofName?_name, unseen, put, ok_bind]
        exact read
      · rw [held, List.mem_cons, List.map_cons, List.mem_cons, named]
        have same : (Except.ok other.name : Except Stop String) = .ok field.name ↔ other = field :=
          ⟨fun equal => ModeField.name_injective (Except.ok.inj equal), fun equal => equal ▸ rfl⟩
        rw [same]
        tauto

theorem FieldsFit.modeMembers_ok {goal : ModeDefinition} (fit : goal.FieldsFit depth) :
    ∃ members, Definition.modeMembers goal = .ok members := by
  have contains : ∃ items, Definition.entries goal.contains = .ok items := by
    rcases fit.contains with empty | ⟨below, _, each⟩
    · exact ⟨[], by rw [empty]; rfl⟩
    · obtain ⟨items, made, _⟩ := entries_restorable each
      exact ⟨items, made⟩
  have variants : ∃ items, Definition.modes goal.variants = .ok items := by
    rcases fit.variants with empty | ⟨below, _, each⟩
    · exact ⟨[], by rw [empty]; rfl⟩
    · obtain ⟨items, made, _⟩ := modes_restorable each
      exact ⟨items, made⟩
  have starts : ∃ members, Definition.next goal.starts = .ok members := by
    cases present : goal.starts with
    | none => exact ⟨[], rfl⟩
    | some inner =>
        obtain ⟨members, made, _⟩ := fit.starts inner present
        exact ⟨_, by rw [Definition.next, made, ok_bind]; rfl⟩
  have hook : ∀ (name : String) {hook : Option Hook},
      (∀ held, hook = some held → ∃ builtin, held = .builtin builtin) →
      ∃ members, Definition.hookMember name hook = .ok members := by
    intro name hook named
    cases hook with
    | none => exact ⟨[], rfl⟩
    | some held =>
        obtain ⟨builtin, rfl⟩ := named held rfl
        exact ⟨_, rfl⟩
  obtain ⟨containsItems, containsMade⟩ := contains
  obtain ⟨variantItems, variantsMade⟩ := variants
  obtain ⟨startMembers, startsMade⟩ := starts
  obtain ⟨beginMembers, beginMade⟩ := hook "on:begin" fit.onBegin
  obtain ⟨endMembers, endMade⟩ := hook "on:end" fit.onEnd
  cases goal
  simp only [Definition.modeMembers, containsMade, variantsMade, startsMade, beginMade, endMade, ok_bind]
  exact ⟨_, rfl⟩

structure WrittenAs (depth : Nat) (mode : ModeDefinition) (members : List (String × Json)) : Prop where
  written : Definition.modeMembers mode = .ok members
  fits : ∀ member ∈ members, member.2.fits depth = true
  distinct : (members.map (·.1)).Nodup
  puts : ∀ member ∈ members, ∃ field : ModeField, member.1 = field.name ∧ mode.PutsBack field member.2
  complete : ∀ field : ModeField, field.name ∈ members.map (·.1) ∨ mode.Unset field

theorem FieldsFit.writtenAs {goal : ModeDefinition} (fit : goal.FieldsFit depth) :
    ∃ members, goal.WrittenAs depth members := by
  obtain ⟨members, written⟩ := fit.modeMembers_ok
  have shape := Definition.modeMembers_eq written
  have named : ∀ member ∈ members, ∃ field : ModeField, member.1 = field.name ∧
      goal.fieldJson? field = some member.2 := by
    intro member listed
    rw [shape] at listed
    obtain ⟨field, _, found⟩ := List.mem_filterMap.mp listed
    obtain ⟨json, held, rfl⟩ := Option.map_eq_some_iff.mp found
    exact ⟨field, rfl, held⟩
  refine ⟨members, written, fun member listed => ?_, ?_, fun member listed => ?_, fun field => ?_⟩
  · obtain ⟨field, _, held⟩ := named member listed
    exact (fit.putsBack held).1
  · rw [shape]
    exact (Definition.names_sublist ModeField.name goal.fieldJson? ModeField.all).nodup
      ModeField.names_nodup
  · obtain ⟨field, name, held⟩ := named member listed
    exact ⟨field, name, (fit.putsBack held).2⟩
  · cases held : goal.fieldJson? field with
    | none => exact .inr (fit.unset held)
    | some json =>
        refine .inl (List.mem_map.mpr ⟨(field.name, json), ?_, rfl⟩)
        rw [shape]
        exact List.mem_filterMap.mpr ⟨field, ModeField.mem_all field, by rw [held]; rfl⟩

/-- The members that a mode is written as give the mode, in whatever order they are read. -/
theorem WrittenAs.reads {below : Nat} {mode : ModeDefinition} (fit : mode.FieldsFit below)
    {members : List (String × Json)} (as : mode.WrittenAs below members) {levels : Nat}
    (buffered : Bool) (shallow : depth ≤ levels) {documents : List (Member Document)}
    (names : (documents.map (·.name)).Perm (members.map fun member => .ok member.1))
    (each : ∀ document ∈ documents, ∃ member ∈ members, document.name = .ok member.1 ∧
      document.value.Depicts depth member.2) :
    Json.Decoder.modeMembers (modeNested levels) buffered depth [] {} documents = .ok mode := by
  have distinct : (documents.map (·.name)).Nodup := by
    rw [names.nodup_iff]
    have apart : ((members.map (·.1)).map fun name => (.ok name : Except Stop String)).Nodup :=
      List.Pairwise.map _ (fun _ _ different same => different (Except.ok.inj same)) as.distinct
    rwa [List.map_map] at apart
  obtain ⟨fields, read, held⟩ := modeMembers_restrict (modeNested levels) buffered depth
    mode distinct (fun document listed => by
      obtain ⟨member, among, named, depicts⟩ := each document listed
      obtain ⟨field, name, puts⟩ := as.puts member among
      exact ⟨field, name ▸ named, fun fields => puts _ _ fields _ shallow _ depicts⟩)
    [] (by simp)
  rw [fit.restrict_nil] at read
  rw [read, fit.restrict_eq_self fun field => ?_]
  rcases as.complete field with there | unset
  · refine .inl ((held field).mpr (.inr ?_))
    rw [names.mem_iff]
    obtain ⟨member, among, name⟩ := List.mem_map.mp there
    exact List.mem_map.mpr ⟨member, among, by rw [name]⟩
  · exact .inr unset

theorem FieldsFit.restorable {mode : ModeDefinition} (fit : mode.FieldsFit depth) :
    mode.Restorable (depth + 1) := by
  obtain ⟨members, as⟩ := fit.writtenAs
  refine ⟨members, as.written, fits_object.mpr as.fits, fun levels buffered => ?_⟩
  intro height within document depicts
  obtain ⟨inside, documents, below, rfl, rfl, names, each⟩ := depicts.object
  obtain ⟨levels, rfl⟩ := Nat.exists_eq_succ_of_ne_zero (Nat.ne_zero_of_lt within)
  have read := as.reads fit buffered (Nat.le_of_succ_le_succ within) names each
  simp only [modeNested, modeWith, read, ok_bind]
  rfl

theorem fieldsFit_of_modeNested {levels : Nat} {buffered : Bool} {document : Document}
    {mode : ModeDefinition} (given : modeNested levels buffered depth document = .ok mode) :
    ∃ below, depth = below + 1 ∧ mode.FieldsFit below := by
  induction levels generalizing buffered depth document mode with
  | zero => cases given
  | succ levels ih =>
      have within : ∀ buffered depth document inner,
          modeNested levels buffered depth document = .ok inner → inner.Restorable depth := by
        intro buffered depth document inner read
        obtain ⟨below, rfl, fit⟩ := ih read
        exact fit.restorable
      unfold modeNested modeWith at given
      split at given
      · cases given
      · cases given
      · obtain ⟨read, membersRead, given⟩ := bind_eq_ok.mp given
        obtain ⟨_, _, given⟩ := bind_eq_ok.mp given
        obtain rfl := pure_eq_ok.mp given
        exact ⟨_, rfl, FieldsFit.modeMembers within (fieldsFit_default _) membersRead⟩
      · obtain ⟨read, itemsRead, given⟩ := bind_eq_ok.mp given
        obtain ⟨_, _, given⟩ := bind_eq_ok.mp given
        obtain rfl := pure_eq_ok.mp given
        exact ⟨_, rfl, FieldsFit.modeItems within (fieldsFit_default _) itemsRead⟩
      · exact absurd given mismatch_ne_ok

/-- A mode that has been read can be written no deeper than it stood, and is read again from that. -/
theorem restorable_of_modeNested {levels : Nat} {buffered : Bool} {document : Document}
    {mode : ModeDefinition} (given : modeNested levels buffered depth document = .ok mode) :
    mode.Restorable depth := by
  obtain ⟨below, rfl, fit⟩ := fieldsFit_of_modeNested given
  exact fit.restorable

end ModeDefinition

end Highlight
