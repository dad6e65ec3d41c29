import Highlight.Proofs.Catalog.Bundle
import Highlight.Proofs.Definition.Covering

set_option autoImplicit false

/-! The grammars of a catalog that has been saved and loaded. What is saved of a grammar is its definition
without the changes that are made to its modes, so the loaded grammar is what that definition is compiled
to. It is the saved grammar again if there are no such changes; if there are, they are lost without any
error. A definition with a hook that has no name is not saved at all. -/

namespace Highlight

open Json Json.Decoder Outcome

theorem GrammarDefinition.Supplied.authored {definition : GrammarDefinition}
    (supplied : definition.Supplied) : definition.Authored := by
  cases supplied with
  | read given => exact authored_of_read given
  | plain =>
      rintro part (within | ⟨entry, listed, _⟩)
      · exact (ModeDefinition.fieldsFit_default 0).authored within
      · cases listed

namespace Bundle

/-! ### Reading what was written -/

def unextended (bundle : Bundle) : Bundle :=
  { bundle with grammars := bundle.grammars.map GrammarDefinition.unextended }

theorem toJson_unextended (bundle : Bundle) : bundle.unextended.toJson = bundle.toJson := by
  unfold toJson unextended Dictionary.map
  rw [List.mapM_map]
  rfl

theorem definition_of_toJson {bundle : Bundle} {json : Json} (made : bundle.toJson = .ok json)
    {entry : String × GrammarDefinition} (listed : entry ∈ bundle.grammars.entries) :
    ∃ inner, entry.2.toJson = .ok inner := by
  obtain ⟨members, membersMade, _⟩ := bind_eq_ok.mp made
  obtain ⟨member, _, written⟩ := exists_of_mapM_eq_ok membersMade listed
  obtain ⟨inner, innerMade, _⟩ := bind_eq_ok.mp written
  exact ⟨inner, innerMade⟩

/-- Why a bundle cannot be written: a hook somewhere in one of its grammars has no name. -/
def Unwritable (bundle : Bundle) (failure : DataError) : Prop :=
  failure = .unwritableHook ∧ ∃ entry ∈ bundle.grammars.entries, entry.2.HasCustomHook

theorem toJson_satisfies (bundle : Bundle) :
    Satisfies bundle.Unwritable (fun _ => True) bundle.toJson := by
  have grammars : Satisfies bundle.Unwritable (fun _ => True)
      (bundle.grammars.entries.mapM fun entry => do return (entry.1, ← entry.2.toJson)) := by
    apply Satisfies.mapM
    intro entry listed
    have written : Satisfies bundle.Unwritable (fun _ => True) entry.2.toJson := by
      apply entry.2.toJson_satisfies.allowing
      rintro failure ⟨same, custom⟩
      exact ⟨same, entry, listed, custom⟩
    exact written.bind fun _ _ => Satisfies.ok trivial
  exact grammars.bind fun _ _ => Satisfies.ok trivial

theorem readable_of_bundleMembers {depth : Nat} {fields read : BundleFields}
    {documents : List (Member Document)} (given : bundleMembers depth fields documents = .ok read)
    (each : ∀ document ∈ documents,
      (document.name = .ok "grammars" ∧ ∀ value,
        dictionary grammar depth document.value = .ok value → document.value.Readable depth) ∨
      (document.name = .ok "aliases" ∧ ∀ value,
        dictionary string depth document.value = .ok value → document.value.Readable depth)) :
    ∀ document ∈ documents, document.value.Readable depth := by
  induction documents generalizing fields with
  | nil => simp
  | cons first rest ih =>
      have later := fun document listed => each document (List.mem_cons_of_mem first listed)
      rcases each first List.mem_cons_self with ⟨named, reads⟩ | ⟨named, reads⟩
      all_goals
        obtain ⟨name, opened, given⟩ := bind_eq_ok.mp given
        obtain rfl := Except.ok.inj ((mapError_eq_ok opened).symm.trans named)
        simp only at given
        split at given
        · cases given
        · obtain ⟨value, valued, onward⟩ := bind_eq_ok.mp given
          exact List.forall_mem_cons.mpr ⟨reads value (mapError_eq_ok valued), ih onward later⟩

theorem covers_bundle {bundle : Bundle} {json : Json} (made : bundle.toJson = .ok json) :
    Covers Json.Decoder.bundle json := by
  obtain ⟨members, membersMade, made⟩ := bind_eq_ok.mp made
  obtain rfl := pure_eq_ok.mp made
  have grammars : Covers (dictionary grammar) (.object members) := by
    apply Covers.dictionary
    intro member listed
    obtain ⟨entry, _, written⟩ := mem_of_mapM_eq_ok membersMade listed
    obtain ⟨inner, innerMade, written⟩ := bind_eq_ok.mp written
    obtain rfl := pure_eq_ok.mp written
    exact GrammarDefinition.covers_grammar innerMade
  have aliases := covers_names bundle.aliases
  apply covers_object
  case flat => exact fun _ _ _ given => nomatch given
  case goes =>
    intro depth height inside documents value given each
    obtain ⟨fields, fieldsRead, _⟩ := bind_eq_ok.mp given
    apply readable_of_bundleMembers fieldsRead
    intro document listed
    obtain ⟨member, among, named, depicts⟩ := each document listed
    rcases List.mem_pair.mp among with rfl | rfl
    · exact .inl ⟨named, fun held => grammars depth height _ held depicts⟩
    · exact .inr ⟨named, fun held => aliases depth height _ held depicts⟩

/-- What is read from the text of a bundle is the bundle as it was written. -/
theorem eq_unextended_of_read {bundle other : Bundle} {json : Json}
    (authored : ∀ entry ∈ bundle.grammars.entries, entry.2.Authored) (made : bundle.toJson = .ok json)
    (read : Bundle.read json.write = .ok other) : other = bundle.unextended := by
  obtain ⟨depth, each⟩ := @exists_bound _ bundle.grammars.entries
    (fun entry least => ∀ depth, least ≤ depth → entry.2.unextended.Restorable depth)
    (fun _ _ _ within restorable depth deep => restorable depth (Nat.le_trans within deep)) (by
      intro entry listed
      obtain ⟨inner, innerMade⟩ := definition_of_toJson made listed
      exact GrammarDefinition.restorable_of_authored (authored entry listed) innerMade)
  have restorable : ∀ entry ∈ bundle.unextended.grammars.entries, entry.2.Restorable depth := by
    intro entry listed
    obtain ⟨original, among, rfl⟩ := List.mem_map.mp listed
    exact each original among depth (Nat.le_refl _)
  obtain ⟨same, sameMade, fits, reads⟩ := reads_toJson depth restorable
  rw [toJson_unextended, made] at sameMade
  obtain rfl := Except.ok.inj sameMade
  -- The text is nested no deeper than what can be read, since it has been read.
  obtain ⟨valued, _⟩ := value_read_write fits
  have given := run_eq_ok read
  have depicts := (covers_bundle made).depicts ⟨json, valued, Reordered.refl json⟩ given
  have again := reads mostNested (Nat.le_succ _) _ depicts
  exact Except.ok.inj (given.symm.trans again)

/-! ### Compiling again -/

variable {engine : Pattern.Engine}

theorem putAll_of_foldlM_register {entries : List (String × GrammarDefinition)}
    (lower : ∀ entry ∈ entries, Unicode.lowercase entry.1 = entry.1) {start after : Catalog}
    (given : entries.foldlM (fun (known : Catalog) entry => known.register engine entry.1 entry.2) start =
      .ok after) :
    ∃ grammars : List (String × Grammar), after = Catalog.putAll start grammars ∧
      List.Forall₂ (fun entry grammar => entry.1 = grammar.1 ∧
        Grammar.compile engine entry.1 entry.2 = .ok grammar.2) entries grammars := by
  induction entries generalizing start with
  | nil =>
      obtain rfl := pure_eq_ok.mp given
      exact ⟨[], rfl, .nil⟩
  | cons entry rest ih =>
      rw [List.foldlM_cons] at given
      obtain ⟨next, registered, given⟩ := bind_eq_ok.mp given
      obtain ⟨grammar, compiled, rfl⟩ := Catalog.register_eq_ok_iff.mp registered
      rw [lower entry List.mem_cons_self] at compiled
      have later := fun other listed => lower other (List.mem_cons_of_mem entry listed)
      obtain ⟨grammars, rfl, each⟩ := ih later given
      exact ⟨(entry.1, grammar) :: grammars, rfl, .cons ⟨rfl, compiled⟩ each⟩

theorem grammars_foldl_addAliases (names : List (String × String)) (start : Catalog) :
    (names.foldl (fun (known : Catalog) entry => known.addAliases [entry.1] entry.2) start).grammars =
      start.grammars := by
  induction names generalizing start with
  | nil => rfl
  | cons name rest ih => exact ih _

/-- The grammars of the catalog that a bundle holds are what its definitions are compiled to. -/
theorem compiled_of_toCatalog {bundle : Bundle} {loaded : Catalog}
    (lower : ∀ entry ∈ bundle.grammars.entries, Unicode.lowercase entry.1 = entry.1)
    (given : bundle.toCatalog engine = .ok loaded) :
    List.Forall₂ (fun entry grammar => entry.1 = grammar.1 ∧
      Grammar.compile engine entry.1 entry.2 = .ok grammar.2)
      bundle.grammars.entries loaded.grammars.entries := by
  obtain ⟨registered, registeredOk, given⟩ := bind_eq_ok.mp given
  obtain ⟨grammars, rfl, each⟩ := putAll_of_foldlM_register lower registeredOk
  obtain rfl := pure_eq_ok.mp given
  have stands : ∀ entry ∈ grammars, Catalog.StandsUnder engine (fun _ => True) entry.1 entry.2 := by
    intro entry listed
    obtain ⟨original, among, same, compiled⟩ := exists_of_forall₂ each.flip listed
    constructor
    case lower => exact same ▸ lower original among
    case compiled =>
      rw [(Grammar.name_of_compile compiled).2, ← same]
      exact compiled
    case kind => trivial
  have sorted : grammars.Pairwise fun left right => left.1 < right.1 := by
    have names := forall₂_map_eq (each.imp fun _ _ => And.left)
    have inOrder := List.pairwise_map.mpr bundle.grammars.sorted
    rw [names] at inOrder
    exact List.pairwise_map.mp inOrder
  have same : Dictionary.ofList grammars = ⟨grammars, sorted⟩ := Dictionary.ofList_eq fun _ => Iff.rfl
  rw [grammars_foldl_addAliases, Catalog.grammars_putAll stands]
  change List.Forall₂ _ _ (Dictionary.ofList grammars).entries
  rw [same]
  exact each

end Bundle

namespace Catalog

variable {engine : Pattern.Engine} {catalog : Catalog}

theorem save_eq_error_iff {failure : Error} : catalog.save = .error failure ↔
    failure = .json { cause := .data .unwritableHook } ∧
      ∃ entry ∈ catalog.grammars.entries, entry.2.definition.HasCustomHook := by
  unfold save
  cases made : (Bundle.ofCatalog catalog).toJson with
  | error cause =>
      obtain ⟨rfl, entry, listed, custom⟩ := (Bundle.ofCatalog catalog).toJson_satisfies.fails cause made
      obtain ⟨original, among, rfl⟩ := List.mem_map.mp listed
      constructor
      · intro failed
        exact ⟨(Except.error.inj failed).symm, original, among, custom⟩
      · rintro ⟨rfl, _⟩
        rfl
  | ok json =>
      constructor
      · intro failed
        cases failed
      · rintro ⟨_, entry, listed, custom⟩
        have written : (entry.1, entry.2.definition) ∈ (Bundle.ofCatalog catalog).grammars.entries :=
          List.mem_map_of_mem listed
        obtain ⟨inner, innerMade⟩ := Bundle.definition_of_toJson made written
        exact absurd custom (GrammarDefinition.named_of_toJson innerMade)

theorem Built.toCatalog_of_load (built : Built engine GrammarDefinition.Authored catalog)
    {bytes : List UInt8} {loaded : Catalog} (saved : catalog.save = .ok bytes)
    (small : bytes.length < Nat.pow 2 64) (opened : load engine bytes = .ok loaded) :
    (Bundle.ofCatalog catalog).unextended.toCatalog engine = .ok loaded := by
  obtain ⟨json, made, rfl⟩ := save_eq_ok_iff.mp saved
  have unpacked := Frame.unpack?_pack
    (Nat.lt_of_le_of_lt (Frame.length_le_pack json.write.toUTF8.toList) small)
  simp only [load, bundleText, unpacked, fromUTF8?_toUTF8, ok_bind] at opened
  obtain ⟨bundle, read, opened⟩ := bind_eq_ok.mp opened
  have authored : ∀ entry ∈ (Bundle.ofCatalog catalog).grammars.entries, entry.2.Authored := by
    intro entry listed
    obtain ⟨original, among, rfl⟩ := List.mem_map.mp listed
    exact (built.stands (Dictionary.find?_eq_some_iff.mpr among)).kind
  have same := Bundle.eq_unextended_of_read authored made (mapError_eq_ok read)
  rw [← same]
  exact opened

/-- A catalog that has been saved and loaded has the same names, and under each of them what the definition
is compiled to without changes to its modes. That is the same grammar again if there are no such changes,
but a hook without a name makes saving fail. -/
theorem Built.load_compiles (built : Built engine GrammarDefinition.Authored catalog) :
    (∀ failure, catalog.save = .error failure ↔
      failure = .json { cause := .data .unwritableHook } ∧
        ∃ entry ∈ catalog.grammars.entries, entry.2.definition.HasCustomHook) ∧
    ∀ bytes loaded, catalog.save = .ok bytes → bytes.length < Nat.pow 2 64 →
      load engine bytes = .ok loaded → loaded.names = catalog.names ∧
        ∀ name restored, loaded.grammars.find? name = some restored →
          ∃ grammar, catalog.grammars.find? name = some grammar ∧
            Grammar.compile engine name grammar.definition.unextended = .ok restored ∧
            (grammar.definition.extensions = [] → restored = grammar) := by
  refine ⟨fun _ => save_eq_error_iff, fun bytes loaded saved small opened => ?_⟩
  have given := built.toCatalog_of_load saved small opened
  have entries : (Bundle.ofCatalog catalog).unextended.grammars.entries =
      catalog.grammars.entries.map fun entry => (entry.1, entry.2.definition.unextended) :=
    List.map_map
  have stands : ∀ entry ∈ catalog.grammars.entries,
      StandsUnder engine GrammarDefinition.Authored entry.1 entry.2 :=
    fun entry listed => built.stands (Dictionary.find?_eq_some_iff.mpr listed)
  have compiled := Bundle.compiled_of_toCatalog (by
    rw [entries]
    intro entry listed
    obtain ⟨original, among, rfl⟩ := List.mem_map.mp listed
    exact (stands original among).lower) given
  rw [entries, List.forall₂_map_left_iff] at compiled
  constructor
  · exact (forall₂_map_eq (compiled.imp fun _ _ => And.left)).symm
  · intro name restored found
    obtain ⟨⟨other, grammar⟩, among, same, again⟩ :=
      exists_of_forall₂ compiled.flip (Dictionary.find?_eq_some_iff.mp found)
    obtain rfl : other = name := same
    refine ⟨grammar, Dictionary.find?_eq_some_iff.mpr among, again, fun plain => ?_⟩
    have whole : grammar.definition.unextended = grammar.definition := by
      unfold GrammarDefinition.unextended
      rw [← plain]
    rw [whole, (stands _ among).compiled] at again
    exact (Except.ok.inj again).symm

def hookedText : String := "\x7b\"contains\":[\x7b\"begin\":\"a\",\"on:begin\":\"notAfterDot\"\x7d]\x7d"

def hashBarred : GrammarDefinition where
  extensions := [fun mode =>
    if mode.illegal.isNone then { mode with illegal := some (.one "#") } else mode]

theorem authored_hashBarred : hashBarred.Authored := by
  rintro part (within | ⟨entry, listed, _⟩)
  · exact (ModeDefinition.fieldsFit_default 0).authored within
  · cases listed

theorem Built.load_compiles_hooked : ∃ catalog bytes loaded grammar,
    Built Pattern.engine GrammarDefinition.Authored catalog ∧ catalog.save = .ok bytes ∧
      bytes.length < Nat.pow 2 64 ∧ load Pattern.engine bytes = .ok loaded ∧
      loaded.names = ["a", "b"] ∧ catalog.grammars.find? "b" = some grammar ∧
      loaded.grammars.find? "b" = some grammar := by
  have answers : ((({} : Catalog).register Pattern.engine "a" hashBarred).toOption.bind fun first =>
      (first.addText Pattern.engine "b" hookedText).toOption.bind fun catalog =>
        catalog.save.toOption.bind fun bytes => (load Pattern.engine bytes).toOption.bind fun loaded =>
          (catalog.grammars.find? "b").bind fun grammar =>
            (loaded.grammars.find? "b").map fun restored =>
              (decide (bytes.length < 200), catalog.names, grammar.definition.extensions.length)) =
      some (true, ["a", "b"], 0) := by decide +kernel
  obtain ⟨first, firstOk, answers⟩ := Option.bind_eq_some_iff.mp answers
  obtain ⟨catalog, added, answers⟩ := Option.bind_eq_some_iff.mp answers
  obtain ⟨bytes, saved, answers⟩ := Option.bind_eq_some_iff.mp answers
  obtain ⟨loaded, loadedOk, answers⟩ := Option.bind_eq_some_iff.mp answers
  obtain ⟨grammar, found, answers⟩ := Option.bind_eq_some_iff.mp answers
  obtain ⟨restored, restoredFound, answers⟩ := Option.map_eq_some_iff.mp answers
  simp only [Prod.mk.injEq, decide_eq_true_eq, List.length_eq_zero_iff] at answers
  obtain ⟨few, names, plain⟩ := answers
  have built : Built Pattern.engine GrammarDefinition.Authored catalog :=
    (Built.empty.register authored_hashBarred (eq_ok_of_toOption firstOk)).addText
      (fun _ given => (GrammarDefinition.Supplied.read given).authored) (eq_ok_of_toOption added)
  have small : bytes.length < Nat.pow 2 64 := Nat.lt_trans few (by decide)
  obtain ⟨same, each⟩ := built.load_compiles.2 bytes loaded (eq_ok_of_toOption saved) small
    (eq_ok_of_toOption loadedOk)
  obtain ⟨other, otherFound, _, kept⟩ := each "b" restored restoredFound
  obtain rfl := Option.some.inj (found.symm.trans otherFound)
  refine ⟨catalog, bytes, loaded, grammar, built, eq_ok_of_toOption saved, small,
    eq_ok_of_toOption loadedOk, same.trans names, found, ?_⟩
  rw [restoredFound, kept plain]

/-- A grammar is saved and loaded without any error, and its root mode has lost what was illegal in it. -/
theorem load_save_extended : ∃ catalog bytes loaded grammar restored,
    Built Pattern.engine GrammarDefinition.Authored catalog ∧ catalog.save = .ok bytes ∧
      load Pattern.engine bytes = .ok loaded ∧ catalog.grammars.find? "a" = some grammar ∧
      loaded.grammars.find? "a" = some restored ∧ (grammar.mode 0).illegal.isSome = true ∧
      (restored.mode 0).illegal = none := by
  have answers : ((({} : Catalog).register Pattern.engine "a" hashBarred).toOption.bind fun catalog =>
      catalog.save.toOption.bind fun bytes => (load Pattern.engine bytes).toOption.bind fun loaded =>
        (catalog.grammars.find? "a").bind fun grammar => (loaded.grammars.find? "a").map fun restored =>
          ((grammar.mode 0).illegal.isSome, (restored.mode 0).illegal.isNone)) =
      some (true, true) := by decide +kernel
  obtain ⟨catalog, registered, answers⟩ := Option.bind_eq_some_iff.mp answers
  obtain ⟨bytes, saved, answers⟩ := Option.bind_eq_some_iff.mp answers
  obtain ⟨loaded, loadedOk, answers⟩ := Option.bind_eq_some_iff.mp answers
  obtain ⟨grammar, found, answers⟩ := Option.bind_eq_some_iff.mp answers
  obtain ⟨restored, restoredFound, answers⟩ := Option.map_eq_some_iff.mp answers
  simp only [Prod.mk.injEq, Option.isNone_iff_eq_none] at answers
  have built : Built Pattern.engine GrammarDefinition.Authored catalog :=
    Built.empty.register authored_hashBarred (eq_ok_of_toOption registered)
  exact ⟨catalog, bytes, loaded, grammar, restored, built, eq_ok_of_toOption saved,
    eq_ok_of_toOption loadedOk, found, restoredFound, answers⟩

end Catalog

end Highlight
