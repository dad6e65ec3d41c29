import Highlight.Json.Writer
import Highlight.Proofs.Definition.ModeRoundTrip

set_option autoImplicit false

/-! Grammars that have been read, written and read again. The fields of a grammar and those of its root
mode stand in one object: reading it takes the former out of the members, and what is left over is read as
the root mode. Whatever the order of the members, that gives the same grammar again. -/

namespace Highlight

open Json Json.Decoder Outcome

theorem toList_append_of {first second : String} {front back : List Char}
    (left : first.toList = front) (right : second.toList = back) :
    (first ++ second).toList = front ++ back := by
  rw [String.toList_append, left, right]

namespace GrammarField

theorem mem_all (field : GrammarField) : field ∈ all := by
  cases field <;> decide

@[simp] theorem ofName?_name (field : GrammarField) : ofName? field.name = some field := by
  cases field <;> decide

theorem ofName?_modeField (field : ModeField) : ofName? field.name = none := by
  cases field <;> decide

theorem name_injective {field other : GrammarField} (same : field.name = other.name) :
    field = other := by
  have found := ofName?_name field
  rw [same, ofName?_name] at found
  exact (Option.some.inj found).symm

theorem names_nodup : (all.map name).Nodup := by
  decide

def isOther : Except Stop String → Bool
  | .ok name => (ofName? name).isNone
  | .error _ => true

end GrammarField

namespace GrammarDefinition

def restrict (fields : List GrammarField) (grammar : GrammarDefinition) : GrammarDefinition where
  name := if .title ∈ fields then grammar.name else ""
  aliases := if .aliases ∈ fields then grammar.aliases else []
  caseInsensitive := if .caseInsensitive ∈ fields then grammar.caseInsensitive else false
  unicode := if .unicode ∈ fields then grammar.unicode else false
  disableAutodetect := if .disableAutodetect ∈ fields then grammar.disableAutodetect else false
  supersetOf := if .supersetOf ∈ fields then grammar.supersetOf else none
  classNameAliases := if .classNameAliases ∈ fields then grammar.classNameAliases else {}
  repository := if .repository ∈ fields then grammar.repository else {}

def repositoryMembers (grammar : GrammarDefinition) : Except DataError (List (String × Json)) :=
  grammar.repository.entries.mapM fun entry => do
    return (entry.1, ← entry.2.toJson)

def fieldJson? (grammar : GrammarDefinition) : GrammarField → Option Json
  | .title => if grammar.name.isEmpty then none else some (.string grammar.name)
  | .aliases =>
    if grammar.aliases.isEmpty then none else some (.array (grammar.aliases.map .string))
  | .caseInsensitive => if grammar.caseInsensitive then some (.bool true) else none
  | .unicode => if grammar.unicode then some (.bool true) else none
  | .disableAutodetect => if grammar.disableAutodetect then some (.bool true) else none
  | .supersetOf => grammar.supersetOf.map .string
  | .classNameAliases =>
    if grammar.classNameAliases.isEmpty then none
    else some (grammar.classNameAliases.toJson .string)
  | .repository =>
    if grammar.repository.isEmpty then none else grammar.repositoryMembers.toOption.map .object

def ownMembers (grammar : GrammarDefinition) : List (String × Json) :=
  GrammarField.all.filterMap fun field => (grammar.fieldJson? field).map (Prod.mk field.name)

structure FieldsFit (depth : Nat) (grammar : GrammarDefinition) : Prop where
  aliases : grammar.aliases = [] ∨ ∃ below, depth = below + 1
  classNameAliases : grammar.classNameAliases = {} ∨ ∃ below, depth = below + 1
  repository : grammar.repository = {} ∨ ∃ below, depth = below + 1 ∧
    ∀ entry ∈ grammar.repository.entries, entry.2.Restorable below
  extensions : grammar.extensions = []

theorem fieldsFit_default (depth : Nat) : FieldsFit depth {} :=
  ⟨.inl rfl, .inl rfl, .inl rfl, rfl⟩

variable {depth : Nat}

theorem FieldsFit.grammarField {grammar next : GrammarDefinition} (fit : grammar.FieldsFit depth)
    {field : GrammarField} {document : Document}
    (given : grammarField depth grammar field document = .ok next) : next.FieldsFit depth := by
  cases field
  all_goals
    obtain ⟨value, read, same⟩ := bind_eq_ok.mp given
    obtain rfl := pure_eq_ok.mp same
  case title | caseInsensitive | unicode | disableAutodetect | supersetOf => exact { fit with }
  case aliases =>
    obtain ⟨below, rfl, _⟩ := sequence_eq_ok read
    exact { fit with aliases := .inr ⟨below, rfl⟩ }
  case classNameAliases =>
    obtain ⟨below, rfl, _⟩ := dictionary_eq_ok read
    exact { fit with classNameAliases := .inr ⟨below, rfl⟩ }
  case repository =>
    obtain ⟨below, rfl, each⟩ := dictionary_eq_ok read
    refine { fit with repository := .inr ⟨below, rfl, fun entry listed => ?_⟩ }
    obtain ⟨document, modeRead⟩ := each entry listed
    exact ModeDefinition.restorable_of_modeNested modeRead

theorem FieldsFit.grammarMembers {seen : List GrammarField} {grammar next : GrammarDefinition}
    {members others : List (Member Document)} (fit : grammar.FieldsFit depth)
    (given : grammarMembers depth seen grammar members = .ok (next, others)) :
    next.FieldsFit depth := by
  induction members generalizing seen grammar others with
  | nil =>
      obtain ⟨rfl, _⟩ := Prod.mk.inj (Except.ok.inj given)
      exact fit
  | cons entry rest ih =>
      obtain ⟨name, _, onward⟩ := bind_eq_ok.mp given
      dsimp only at onward
      split at onward
      · obtain ⟨_, _, onward⟩ := bind_eq_ok.mp onward
        obtain ⟨⟨passed, left⟩, restRead, onward⟩ := bind_eq_ok.mp onward
        obtain ⟨rfl, _⟩ := Prod.mk.inj (pure_eq_ok.mp onward)
        exact ih fit restRead
      · split at onward
        · cases onward
        · obtain ⟨changed, read, onward⟩ := bind_eq_ok.mp onward
          exact ih (fit.grammarField (mapError_eq_ok read)) onward

/-! ### Writing -/

theorem repository_restorable {goal : GrammarDefinition} {below : Nat}
    (each : ∀ entry ∈ goal.repository.entries, entry.2.Restorable below) :
    ∃ members, goal.repositoryMembers = .ok members ∧
      (∀ member ∈ members, member.2.fits below = true) ∧
      List.Forall₂ (fun member entry => member.1 = entry.1 ∧
        Reads (mostNested + 1) mode member.2 entry.2) members goal.repository.entries := by
  refine writes_entries _ fun entry listed => ?_
  obtain ⟨inner, written, fits, reads⟩ := each entry listed
  exact ⟨.object inner, by rw [ModeDefinition.toJson, written]; rfl, fits, reads _ false⟩

def PutsBack (goal : GrammarDefinition) (field : GrammarField) (json : Json) : Prop :=
  ∀ fields depth, depth ≤ mostNested + 1 → ∀ document : Document, document.Depicts depth json →
    Json.Decoder.grammarField depth (restrict fields goal) field document =
      .ok (restrict (field :: fields) goal)

theorem PutsBack.of_reads {α : Type} {goal : GrammarDefinition} {field : GrammarField} {json : Json}
    {value : α} {decoder : Decoder α} {update : GrammarDefinition → α → GrammarDefinition}
    (reads : Reads (mostNested + 1) decoder json value)
    (field_eq : ∀ depth grammar document, Json.Decoder.grammarField depth grammar field document =
      decoder depth document >>= fun value => .ok (update grammar value))
    (update_eq : ∀ fields, update (restrict fields goal) value = restrict (field :: fields) goal) :
    goal.PutsBack field json := by
  intro fields depth within document depicts
  rw [field_eq, reads depth within document depicts, ok_bind, update_eq]

theorem held_of_some {α : Type} {empty : Bool} {held value : α}
    (written : (if empty then none else some held) = some value) : empty = false ∧ held = value := by
  cases empty with
  | true => cases written
  | false => exact ⟨rfl, Option.some.inj written⟩

theorem FieldsFit.putsBack {goal : GrammarDefinition} (fit : goal.FieldsFit depth)
    {field : GrammarField} {json : Json} (written : goal.fieldJson? field = some json) :
    json.fits depth = true ∧ goal.PutsBack field json := by
  cases field with
  | title =>
      obtain ⟨_, rfl⟩ := held_of_some written
      exact ⟨fits_string _ _, .of_reads (reads_string _ goal.name) (fun _ _ _ => rfl)
        fun fields => by simp [restrict]⟩
  | aliases =>
      obtain ⟨filled, rfl⟩ := held_of_some written
      obtain ⟨below, rfl⟩ := fit.aliases.resolve_left (by simpa using filled)
      exact ⟨by simp, .of_reads (reads_strings _ goal.aliases) (fun _ _ _ => rfl)
        fun fields => by simp [restrict]⟩
  | caseInsensitive | unicode | disableAutodetect =>
      obtain ⟨set, rfl⟩ := ModeDefinition.flag_of_some written
      exact ⟨fits_bool _ _, .of_reads (reads_boolean _ true) (fun _ _ _ => rfl)
        fun fields => by simp [restrict, set]⟩
  | supersetOf =>
      obtain ⟨name, present, rfl⟩ := Option.map_eq_some_iff.mp written
      exact ⟨fits_string _ _, .of_reads ((reads_string _ name).optional (by simp)) (fun _ _ _ => rfl)
        fun fields => by simp [restrict, present]⟩
  | classNameAliases =>
      obtain ⟨filled, rfl⟩ := held_of_some written
      obtain ⟨below, rfl⟩ := fit.classNameAliases.resolve_left (by
        rintro empty
        rw [empty] at filled
        cases filled)
      exact ⟨Dictionary.fits_toJson fun _ _ => fits_string _ _,
        .of_reads (reads_dictionary _ (reads_string _) goal.classNameAliases) (fun _ _ _ => rfl)
          fun fields => by simp [restrict]⟩
  | repository =>
      rcases fit.repository with empty | ⟨below, rfl, each⟩
      · simp only [fieldJson?, empty] at written
        cases written
      · obtain ⟨members, made, fits, reads⟩ := repository_restorable each
        simp only [fieldJson?, made, Except.toOption] at written
        obtain ⟨_, rfl⟩ := held_of_some written
        exact ⟨fits_object.mpr fits, .of_reads (Reads.dictionary reads) (fun _ _ _ => rfl)
          fun fields => by simp [restrict]⟩

def Unset (grammar : GrammarDefinition) : GrammarField → Prop
  | .title => grammar.name = ""
  | .aliases => grammar.aliases = []
  | .caseInsensitive => grammar.caseInsensitive = false
  | .unicode => grammar.unicode = false
  | .disableAutodetect => grammar.disableAutodetect = false
  | .supersetOf => grammar.supersetOf = none
  | .classNameAliases => grammar.classNameAliases = {}
  | .repository => grammar.repository = {}

theorem FieldsFit.unset {goal : GrammarDefinition} (fit : goal.FieldsFit depth) {field : GrammarField}
    (unwritten : goal.fieldJson? field = none) : goal.Unset field := by
  cases field with
  | classNameAliases => exact Dictionary.isEmpty_iff.mp (by simpa [fieldJson?] using unwritten)
  | repository =>
      rcases fit.repository with empty | ⟨below, _, each⟩
      · exact empty
      · obtain ⟨members, made, _⟩ := repository_restorable each
        exact Dictionary.isEmpty_iff.mp (by simpa [fieldJson?, made, Except.toOption] using unwritten)
  | _ => simpa [fieldJson?, Unset] using unwritten

theorem FieldsFit.restrict_eq {goal : GrammarDefinition} (fit : goal.FieldsFit depth)
    {fields : List GrammarField} (all : ∀ field, field ∈ fields ∨ goal.Unset field) :
    { restrict fields goal with root := goal.root } = goal := by
  unfold restrict
  rw [ModeDefinition.ite_eq_of (all .title), ModeDefinition.ite_eq_of (all .aliases),
    ModeDefinition.ite_eq_of (all .caseInsensitive), ModeDefinition.ite_eq_of (all .unicode),
    ModeDefinition.ite_eq_of (all .disableAutodetect), ModeDefinition.ite_eq_of (all .supersetOf),
    ModeDefinition.ite_eq_of (all .classNameAliases), ModeDefinition.ite_eq_of (all .repository),
    ← fit.extensions]

/-- Reading the members of a grammar puts back the fields that they were written for, and leaves the
others. -/
theorem grammarMembers_restrict (depth : Nat) (goal : GrammarDefinition)
    {documents : List (Member Document)}
    (distinct : (documents.map (·.name)).Nodup)
    (each : ∀ document ∈ documents,
      (∃ field : GrammarField, document.name = .ok field.name ∧ ∀ fields,
        Json.Decoder.grammarField depth (restrict fields goal) field document.value =
          .ok (restrict (field :: fields) goal)) ∨
      ∃ field : ModeField, document.name = .ok field.name ∧ ∃ json, document.value.value depth = .ok json)
    (seen : List GrammarField) (fresh : ∀ field ∈ seen, .ok field.name ∉ documents.map (·.name)) :
    ∃ fields, Json.Decoder.grammarMembers depth seen (restrict seen goal) documents =
        .ok (restrict fields goal, documents.filter fun document => GrammarField.isOther document.name) ∧
      ∀ field, field ∈ fields ↔ field ∈ seen ∨ .ok field.name ∈ documents.map (·.name) := by
  induction documents generalizing seen with
  | nil => exact ⟨seen, rfl, by simp⟩
  | cons first rest ih =>
      obtain ⟨absent, distinct⟩ := List.nodup_cons.mp distinct
      have later := fun document listed => each document (List.mem_cons_of_mem first listed)
      rcases each first List.mem_cons_self with ⟨field, named, puts⟩ | ⟨field, named, json, valued⟩
      · have unseen : seen.contains field = false := by
          refine Bool.eq_false_iff.mpr fun listed => fresh field (List.contains_iff_mem.mp listed) ?_
          rw [List.map_cons, named]
          exact List.mem_cons_self
        obtain ⟨fields, read, held⟩ := ih distinct later (field :: seen) (by
          intro other listed
          rcases List.mem_cons.mp listed with rfl | earlier
          · rwa [← named]
          · exact fun among => fresh other earlier (List.mem_cons_of_mem _ among))
        have opened : memberName first = .ok field.name := by
          rw [memberName, named]
          rfl
        have put : member (fun depth => Json.Decoder.grammarField depth (restrict seen goal) field) depth
            first = .ok (restrict (field :: seen) goal) := by
          rw [member, puts]
          rfl
        refine ⟨fields, ?_, fun other => ?_⟩
        · rw [Json.Decoder.grammarMembers, opened, ok_bind]
          simp only [GrammarField.ofName?_name, unseen, put, ok_bind, List.filter_cons, named,
            GrammarField.isOther]
          exact read
        · rw [held, List.mem_cons, List.map_cons, List.mem_cons, named]
          have same : (Except.ok other.name : Except Stop String) = .ok field.name ↔ other = field :=
            ⟨fun equal => GrammarField.name_injective (Except.ok.inj equal), fun equal => equal ▸ rfl⟩
          rw [same]
          tauto
      · obtain ⟨fields, read, held⟩ := ih distinct later seen fun other listed among =>
          fresh other listed (List.mem_cons_of_mem _ among)
        have opened : memberName first = .ok field.name := by
          rw [memberName, named]
          rfl
        refine ⟨fields, ?_, fun other => ?_⟩
        · rw [Json.Decoder.grammarMembers, opened, ok_bind]
          simp only [GrammarField.ofName?_modeField, valued, read, List.filter_cons, named,
            GrammarField.isOther]
          rfl
        · have different : (Except.ok other.name : Except Stop String) ≠ .ok field.name := by
            intro equal
            have unknown := GrammarField.ofName?_modeField field
            rw [← Except.ok.inj equal, GrammarField.ofName?_name] at unknown
            cases unknown
          rw [held, List.map_cons, List.mem_cons, named, or_iff_right different]

/-! ### Writing a whole grammar -/

theorem toJson_eq {goal : GrammarDefinition} {members root : List (String × Json)}
    (made : goal.repositoryMembers = .ok members)
    (rootWritten : Definition.modeMembers goal.root = .ok root) :
    goal.toJson = .ok (.object (goal.ownMembers ++ root)) := by
  have repository : (if members.isEmpty then [] else [("repository", Json.object members)]) =
      ((goal.fieldJson? .repository).map (Prod.mk "repository")).toList := by
    have empty : members.isEmpty = goal.repository.isEmpty := by
      unfold repositoryMembers at made
      unfold Dictionary.isEmpty
      cases listed : goal.repository.entries with
      | nil =>
          rw [listed] at made
          obtain rfl := pure_eq_ok.mp made
          rfl
      | cons entry rest =>
          rw [listed, List.mapM_cons] at made
          obtain ⟨_, _, made⟩ := bind_eq_ok.mp made
          obtain ⟨_, _, made⟩ := bind_eq_ok.mp made
          obtain rfl := pure_eq_ok.mp made
          rfl
    simp only [fieldJson?, made, empty, Except.toOption]
    cases goal.repository.isEmpty <;> rfl
  have shape : goal.ownMembers =
      (if goal.name.isEmpty then [] else [("name", .string goal.name)])
        ++ Definition.listMember "aliases" (goal.aliases.map .string)
        ++ Definition.flagMember "caseInsensitive" goal.caseInsensitive
        ++ Definition.flagMember "unicodeRegex" goal.unicode
        ++ Definition.flagMember "disableAutodetect" goal.disableAutodetect
        ++ Definition.optionalMember "supersetOf" .string goal.supersetOf
        ++ (if goal.classNameAliases.isEmpty then []
            else [("classNameAliases", goal.classNameAliases.toJson .string)])
        ++ (if members.isEmpty then [] else [("repository", .object members)]) := by
    rw [repository, ownMembers, List.filterMap_eq_flatMap_toList]
    simp only [GrammarField.all, List.flatMap_cons, List.flatMap_nil, List.append_nil, List.append_assoc,
      Definition.optionalMember_eq, Definition.flagMember_eq, fieldJson?, GrammarField.name,
      Definition.listMember]
    cases goal.name.isEmpty <;> cases aliases : goal.aliases <;> cases goal.classNameAliases.isEmpty <;> rfl
  rw [shape]
  unfold repositoryMembers at made
  simp only [toJson, made, rootWritten, ok_bind]
  rfl

def Restorable (depth : Nat) (grammar : GrammarDefinition) : Prop :=
  ∃ json, grammar.toJson = .ok json ∧ json.fits depth = true ∧
    Reads (mostNested + 1) Json.Decoder.grammar json grammar

theorem mem_ownMembers {goal : GrammarDefinition} {member : String × Json}
    (listed : member ∈ goal.ownMembers) :
    ∃ field : GrammarField, member.1 = field.name ∧ goal.fieldJson? field = some member.2 := by
  obtain ⟨field, _, found⟩ := List.mem_filterMap.mp listed
  obtain ⟨json, held, rfl⟩ := Option.map_eq_some_iff.mp found
  exact ⟨field, rfl, held⟩

private theorem names_distinct {goal : GrammarDefinition} {root : List (String × Json)}
    (distinct : (root.map (·.1)).Nodup)
    (rootNamed : ∀ member ∈ root, ∃ field : ModeField, member.1 = field.name) :
    ((goal.ownMembers ++ root).map (·.1)).Nodup := by
  have own := (Definition.names_sublist GrammarField.name goal.fieldJson? GrammarField.all).nodup
    GrammarField.names_nodup
  rw [List.map_append]
  refine List.nodup_append.mpr ⟨own, distinct, fun name ownListed other rootListed same => ?_⟩
  obtain ⟨member, among, rfl⟩ := List.mem_map.mp ownListed
  obtain ⟨field, named, _⟩ := mem_ownMembers among
  obtain ⟨otherMember, otherAmong, rfl⟩ := List.mem_map.mp rootListed
  obtain ⟨otherField, otherNamed⟩ := rootNamed otherMember otherAmong
  have unknown := GrammarField.ofName?_modeField otherField
  rw [← otherNamed, ← same, named, GrammarField.ofName?_name] at unknown
  cases unknown

/-- What is left of the names of a grammar, whatever their order, are those of its root mode. -/
private theorem others_perm {goal : GrammarDefinition} {root : List (String × Json)}
    (rootNamed : ∀ member ∈ root, ∃ field : ModeField, member.1 = field.name)
    {names : List (Except Stop String)}
    (shuffled : names.Perm ((goal.ownMembers ++ root).map fun member => .ok member.1)) :
    (names.filter GrammarField.isOther).Perm (root.map fun member => .ok member.1) := by
  have own : (goal.ownMembers.map fun member => (.ok member.1 : Except Stop String)).filter
      GrammarField.isOther = [] := by
    refine List.filter_eq_nil_iff.mpr fun name listed => ?_
    obtain ⟨member, among, rfl⟩ := List.mem_map.mp listed
    obtain ⟨field, named, _⟩ := mem_ownMembers among
    simp [GrammarField.isOther, named]
  have others : (root.map fun member => (.ok member.1 : Except Stop String)).filter
      GrammarField.isOther = root.map fun member => .ok member.1 := by
    refine List.filter_eq_self.mpr fun name listed => ?_
    obtain ⟨member, among, rfl⟩ := List.mem_map.mp listed
    obtain ⟨field, named⟩ := rootNamed member among
    simp [GrammarField.isOther, named, GrammarField.ofName?_modeField]
  have filtered := shuffled.filter GrammarField.isOther
  rwa [List.map_append, List.filter_append, own, others, List.nil_append] at filtered

theorem FieldsFit.restorable {goal : GrammarDefinition} (fit : goal.FieldsFit depth)
    (rootFit : goal.root.FieldsFit depth) : goal.Restorable (depth + 1) := by
  obtain ⟨members, made⟩ : ∃ members, goal.repositoryMembers = .ok members := by
    rcases fit.repository with empty | ⟨below, _, each⟩
    · exact ⟨[], by rw [repositoryMembers, empty]; rfl⟩
    · obtain ⟨members, made, _⟩ := repository_restorable each
      exact ⟨members, made⟩
  obtain ⟨root, as⟩ := rootFit.writtenAs
  have rootNamed : ∀ member ∈ root, ∃ field : ModeField, member.1 = field.name := by
    intro member listed
    obtain ⟨field, named, _⟩ := as.puts member listed
    exact ⟨field, named⟩
  refine ⟨_, toJson_eq made as.written, fits_object.mpr fun member listed => ?_, ?_⟩
  · rcases List.mem_append.mp listed with own | other
    · obtain ⟨field, _, held⟩ := mem_ownMembers own
      exact (fit.putsBack held).1
    · exact as.fits member other
  · intro height within document depicts
    obtain ⟨inside, documents, below, rfl, rfl, names, each⟩ := depicts.object
    have shallow : below ≤ mostNested := Nat.le_of_succ_le_succ within
    have distinct : (documents.map (·.name)).Nodup := by
      rw [names.nodup_iff]
      have apart : (((goal.ownMembers ++ root).map (·.1)).map
          fun name => (.ok name : Except Stop String)).Nodup :=
        List.Pairwise.map _ (fun _ _ different same => different (Except.ok.inj same))
          (names_distinct as.distinct rootNamed)
      rwa [List.map_map] at apart
    obtain ⟨fields, read, held⟩ := grammarMembers_restrict below goal distinct (by
      intro document listed
      obtain ⟨member, among, named, depicts⟩ := each document listed
      rcases List.mem_append.mp among with own | other
      · obtain ⟨field, name, written⟩ := mem_ownMembers own
        exact .inl ⟨field, name ▸ named, fun fields =>
          (fit.putsBack written).2 fields below (Nat.le_succ_of_le shallow) _ depicts⟩
      · obtain ⟨field, name⟩ := rootNamed member other
        obtain ⟨value, valued, _⟩ := depicts
        exact .inr ⟨field, name ▸ named, value, valued⟩) [] (by simp)
    have left : ((documents.filter fun document => GrammarField.isOther document.name).map
        (·.name)).Perm (root.map fun member => .ok member.1) := by
      have shuffled := others_perm rootNamed names
      rwa [List.filter_map] at shuffled
    have rootRead := as.reads rootFit true shallow left (by
        intro document listed
        obtain ⟨listed, other⟩ := List.mem_filter.mp listed
        obtain ⟨member, among, named, depicts⟩ := each document listed
        refine ⟨member, (List.mem_append.mp among).resolve_left fun own => ?_, named, depicts⟩
        obtain ⟨field, name, _⟩ := mem_ownMembers own
        simp [GrammarField.isOther, named, name] at other)
    have start : restrict [] goal = {} := by simp [restrict]
    rw [start] at read
    -- A field that is not among the members is one that has not been written, so it is not set.
    have set : ∀ field, field ∈ fields ∨ goal.Unset field := by
      intro field
      cases written : goal.fieldJson? field with
      | none => exact .inr (fit.unset written)
      | some json =>
          refine .inl ((held field).mpr (.inr ?_))
          rw [names.mem_iff]
          refine List.mem_map.mpr ⟨(field.name, json), List.mem_append_left _ ?_, rfl⟩
          exact List.mem_filterMap.mpr ⟨field, GrammarField.mem_all field, by rw [written]; rfl⟩
    simp only [Json.Decoder.grammar, read, ok_bind, rootMode, rootRead]
    exact congrArg Except.ok (fit.restrict_eq set)

theorem fieldsFit_of_grammar {document : Document} {grammar : GrammarDefinition}
    (given : Json.Decoder.grammar depth document = .ok grammar) :
    ∃ below, depth = below + 1 ∧ grammar.FieldsFit below ∧ grammar.root.FieldsFit below := by
  unfold Json.Decoder.grammar at given
  split at given
  · cases given
  · obtain ⟨⟨own, others⟩, read, given⟩ := bind_eq_ok.mp given
    obtain ⟨_, _, given⟩ := bind_eq_ok.mp given
    obtain ⟨root, rootRead, given⟩ := bind_eq_ok.mp given
    obtain rfl := pure_eq_ok.mp given
    have fit := (fieldsFit_default _).grammarMembers read
    have rootFit := ModeDefinition.FieldsFit.modeMembers
      (fun _ _ _ _ => ModeDefinition.restorable_of_modeNested)
      (ModeDefinition.fieldsFit_default _) (mapError_eq_ok rootRead)
    exact ⟨_, rfl, { fit with }, rootFit⟩
  · exact absurd given mismatch_ne_ok

theorem restorable_of_grammar {document : Document} {grammar : GrammarDefinition}
    (given : Json.Decoder.grammar depth document = .ok grammar) : grammar.Restorable depth := by
  obtain ⟨below, rfl, fit, rootFit⟩ := fieldsFit_of_grammar given
  exact fit.restorable rootFit

/-- A definition that has been read can be written. The value that it is written as gives the same
definition again, in whatever order its objects hold their members, even where what is nested deeper than a
text may be is refused. So writing what has been read from it changes nothing. -/
theorem toJson_reads_of_read {text : String} {grammar : GrammarDefinition}
    (given : GrammarDefinition.read text = .ok grammar) :
    ∃ json, grammar.toJson = .ok json ∧ ∀ other, json.Reordered other →
      ∃ again, Json.Decoder.grammar mostNested (Document.ofValue other) = .ok again ∧
        again = grammar ∧ again.toJson = .ok json := by
  obtain ⟨json, written, fits, reads⟩ := restorable_of_grammar (run_eq_ok given)
  refine ⟨json, written, fun other same => ⟨grammar, ?_, rfl, written⟩⟩
  exact reads mostNested (Nat.le_succ _) _ (Document.depicts_ofValue same fits)

/-- A definition with a repository, keywords, a list of patterns, variants, a mode after another one, other
languages and a hook, as it is written. -/
def nestedText : String :=
  "\x7b\"name\":\"a\",\"repository\":\x7b\"m\":\x7b\"match\":\"x\"\x7d\x7d,"
    ++ "\"keywords\":\x7b\"built_in\":\"b\"\x7d,\"contains\":[\"self\",\"#m\",\x7b\"begin\":[\"x\",\"y\"],"
    ++ "\"variants\":[\x7b\"relevance\":0\x7d],\"starts\":\x7b\"end\":\"z\",\"subLanguage\":[\"b\"]\x7d,"
    ++ "\"on:begin\":\"startOfInput\"\x7d]\x7d"

theorem toJson_reads_of_read_nested : ∃ grammar json, GrammarDefinition.read nestedText = .ok grammar ∧
    grammar.toJson = .ok json ∧ json.write = nestedText ∧ ∀ other, json.Reordered other →
      ∃ again, Json.Decoder.grammar mostNested (Document.ofValue other) = .ok again ∧
        again = grammar ∧ again.toJson = .ok json := by
  -- the characters of each part are given, for it takes long to find them among its bytes
  have chars : nestedText.toList = _ :=
    toList_append_of (toList_append_of (toList_append_of String.toList_ofList String.toList_ofList)
      String.toList_ofList) String.toList_ofList
  have writes : ((GrammarDefinition.read nestedText).toOption.bind fun grammar =>
      grammar.toJson.toOption.map Json.write) = some nestedText := by
    rw [GrammarDefinition.read, Json.Decoder.run, Json.Source.read, chars]
    decide +kernel
  obtain ⟨grammar, read, written⟩ := Option.bind_eq_some_iff.mp writes
  obtain ⟨json, made, text⟩ := Option.map_eq_some_iff.mp written
  obtain ⟨same, sameMade, reads⟩ := toJson_reads_of_read (eq_ok_of_toOption read)
  obtain rfl := Except.ok.inj (sameMade.symm.trans (eq_ok_of_toOption made))
  exact ⟨grammar, same, eq_ok_of_toOption read, sameMade, text, reads⟩

end GrammarDefinition

end Highlight
