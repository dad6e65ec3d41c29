import Highlight.Catalog.Bundle
import Highlight.Proofs.Catalog.History
import Highlight.Proofs.Definition.RoundTrip
import Highlight.Proofs.File.Frame
import Highlight.Proofs.Json.RoundTrip

set_option autoImplicit false

/-! What a catalog finds after it has been saved and loaded. The grammars are the same again. A name that
stood for another one does so still, but one that a grammar has declared and lost since is declared
again. -/

namespace Highlight

open Json Json.Decoder Outcome

/-! ### Texts as bytes -/

theorem toList_loop (bytes : ByteArray) (index : Nat) (done : List UInt8) :
    ByteArray.toList.loop bytes index done = done.reverse ++ bytes.data.toList.drop index := by
  rw [ByteArray.toList.loop.eq_def]
  split
  · rename_i inside
    have inside : index < bytes.data.toList.length := inside
    have here : bytes.get! index = bytes.data.toList[index] := by
      change bytes.data[index]! = _
      rw [getElem!_pos bytes.data index inside, Array.getElem_toList]
    rw [toList_loop bytes (index + 1), here, List.reverse_cons, List.append_assoc,
      List.singleton_append, List.getElem_cons_drop]
  · rename_i outside
    rw [List.drop_eq_nil_of_le (Nat.not_lt.mp outside), List.append_nil]
termination_by bytes.size - index

theorem fromUTF8?_toUTF8 (text : String) :
    String.fromUTF8? ⟨text.toUTF8.toList.toArray⟩ = some text := by
  have same : (⟨text.toUTF8.toList.toArray⟩ : ByteArray) = text.toUTF8 := by
    rw [ByteArray.toList, toList_loop]
    simp
  rw [same, String.fromUTF8?, String.toUTF8_eq_toByteArray, dif_pos text.isValidUTF8]
  rfl

/-! ### Reading a bundle -/

namespace Bundle

theorem bundleMembers_eq_ok (depth : Nat) (bundle : Bundle) {documents : List (Member Document)}
    (names : (documents.map (·.name)).Perm [.ok "grammars", .ok "aliases"])
    (grammars : ∀ document ∈ documents, document.name = .ok "grammars" →
      Json.Decoder.dictionary grammar depth document.value = .ok bundle.grammars)
    (aliases : ∀ document ∈ documents, document.name = .ok "aliases" →
      Json.Decoder.dictionary string depth document.value = .ok bundle.aliases) :
    bundleMembers depth {} documents =
      .ok { grammars := some bundle.grammars, aliases := some bundle.aliases } := by
  match documents, names.length_eq with
  | [first, second], _ =>
      have placed : first.name = .ok "grammars" ∧ second.name = .ok "aliases" ∨
          first.name = .ok "aliases" ∧ second.name = .ok "grammars" := by
        have different : first.name ≠ second.name := by simpa using names.nodup_iff.mpr (by simp)
        have firstAmong : first.name = .ok "grammars" ∨ first.name = .ok "aliases" := by
          simpa using names.mem_iff (a := first.name)
        have secondAmong : second.name = .ok "grammars" ∨ second.name = .ok "aliases" := by
          simpa using names.mem_iff (a := second.name)
        rcases firstAmong with firstNamed | firstNamed
        · exact .inl ⟨firstNamed, secondAmong.resolve_left fun same =>
            different (firstNamed.trans same.symm)⟩
        · exact .inr ⟨firstNamed, secondAmong.resolve_right fun same =>
            different (firstNamed.trans same.symm)⟩
      rcases placed with ⟨firstNamed, secondNamed⟩ | ⟨firstNamed, secondNamed⟩
      · have firstRead := grammars first (by simp) firstNamed
        have secondRead := aliases second (by simp) secondNamed
        simp only [bundleMembers, memberName, member, firstNamed, secondNamed, firstRead, secondRead]
        rfl
      · have firstRead := aliases first (by simp) firstNamed
        have secondRead := grammars second (by simp) secondNamed
        simp only [bundleMembers, memberName, member, firstNamed, secondNamed, firstRead, secondRead]
        rfl

/-- A bundle all of whose grammars can be written is read again from what is written. -/
theorem reads_toJson (depth : Nat) {bundle : Bundle}
    (each : ∀ entry ∈ bundle.grammars.entries, entry.2.Restorable depth) :
    ∃ json, bundle.toJson = .ok json ∧ json.fits (depth + 2) = true ∧
      Reads (mostNested + 1) Json.Decoder.bundle json bundle := by
  obtain ⟨members, written, fits, reads⟩ := writes_entries (mostNested + 1) each
  refine ⟨.object [("grammars", .object members), ("aliases", bundle.aliases.toJson .string)], ?_, ?_, ?_⟩
  · rw [toJson, written]
    rfl
  · have names : (bundle.aliases.toJson .string).fits (depth + 1) = true :=
      Dictionary.fits_toJson fun _ _ => fits_string _ _
    simpa [names] using fits
  · intro height within document depicts
    obtain ⟨inside, documents, below, rfl, rfl, names, held⟩ := depicts.object
    have shallow : below ≤ mostNested + 1 := by omega
    have grammars := Reads.dictionary reads below shallow
    have aliases := reads_dictionary _ (reads_string _) bundle.aliases below shallow
    have read := bundleMembers_eq_ok below bundle names (by
      intro document listed named
      obtain ⟨value, among, valued, depicts⟩ := held document listed
      rcases List.mem_pair.mp among with rfl | rfl
      · exact grammars _ depicts
      · exact absurd (Except.ok.inj (named.symm.trans valued)) (by simp)) (by
      intro document listed named
      obtain ⟨value, among, valued, depicts⟩ := held document listed
      rcases List.mem_pair.mp among with rfl | rfl
      · exact absurd (Except.ok.inj (named.symm.trans valued)) (by simp)
      · exact aliases _ depicts)
    simp only [Json.Decoder.bundle, read, ok_bind]
    rfl

end Bundle

/-! ### The catalog of a bundle -/

/-- The definitions that catalogs get: those that have been read, and the one without any modes. -/
inductive GrammarDefinition.Supplied : GrammarDefinition → Prop
  | read {text : String} {definition : GrammarDefinition}
      (given : GrammarDefinition.read text = .ok definition) : Supplied definition
  | plain : Supplied Catalog.plainDefinition

theorem GrammarDefinition.Supplied.restorable {definition : GrammarDefinition}
    (supplied : definition.Supplied) : definition.Restorable mostNested := by
  cases supplied with
  | read given => exact restorable_of_grammar (run_eq_ok given)
  | plain =>
      have fit : Catalog.plainDefinition.FieldsFit 126 := ⟨.inl rfl, .inl rfl, .inl rfl, rfl⟩
      exact fit.restorable (ModeDefinition.fieldsFit_default _)

namespace Catalog

variable {engine : Pattern.Engine} {defined : GrammarDefinition → Prop} {catalog : Catalog}

def putAll (start : Catalog) (entries : List (String × Grammar)) : Catalog :=
  entries.foldl (fun known entry => known.put entry.2) start

@[simp] theorem putAll_cons (start : Catalog) (entry : String × Grammar) (rest : List (String × Grammar)) :
    putAll start (entry :: rest) = putAll (start.put entry.2) rest := rfl

def lastDeclaring? (entries : List (String × Grammar)) (name : String) : Option String :=
  (entries.reverse.find? fun entry => name ∈ entry.2.aliases.map Unicode.lowercase).map (·.1)

theorem foldlM_register {entries : List (String × Grammar)}
    (stands : ∀ entry ∈ entries, StandsUnder engine defined entry.1 entry.2) (start : Catalog) :
    (entries.map fun entry => (entry.1, entry.2.definition)).foldlM
        (fun (known : Catalog) entry => known.register engine entry.1 entry.2) start =
      .ok (putAll start entries) := by
  induction entries generalizing start with
  | nil => rfl
  | cons entry rest ih =>
      have first := stands entry List.mem_cons_self
      have registered : start.register engine entry.1 entry.2.definition = .ok (start.put entry.2) :=
        register_eq_ok_iff.mpr ⟨entry.2, by rw [first.lower]; exact first.compiled, rfl⟩
      rw [List.map_cons, List.foldlM_cons, registered, putAll_cons]
      exact ih (fun other listed => stands other (List.mem_cons_of_mem _ listed)) _

theorem grammars_putAll {entries : List (String × Grammar)}
    (stands : ∀ entry ∈ entries, StandsUnder engine defined entry.1 entry.2) (start : Catalog) :
    (putAll start entries).grammars =
      entries.foldl (fun known entry => known.insert entry.1 entry.2) start.grammars := by
  induction entries generalizing start with
  | nil => rfl
  | cons entry rest ih =>
      have first := stands entry List.mem_cons_self
      rw [putAll_cons, List.foldl_cons,
        ih (fun other listed => stands other (List.mem_cons_of_mem _ listed)), grammars_put, first.name_eq]

/-- Of grammars that are put in, each under a name of its own, the last one to declare another name has
it. -/
theorem find?_aliases_putAll {entries : List (String × Grammar)}
    (stands : ∀ entry ∈ entries, StandsUnder engine defined entry.1 entry.2)
    (distinct : entries.Pairwise fun left right => left.1 ≠ right.1) (start : Catalog)
    (foreign : ∀ other target, start.aliases.find? other = some target →
      ∀ entry ∈ entries, entry.1 ≠ target)
    (name : String) :
    (putAll start entries).aliases.find? name =
      (lastDeclaring? entries name).or (start.aliases.find? name) := by
  induction entries generalizing start with
  | nil => rfl
  | cons entry rest ih =>
      obtain ⟨apart, distinct⟩ := List.pairwise_cons.mp distinct
      have first := stands entry List.mem_cons_self
      -- Nothing is dropped: so far no name stands for a grammar that is still to come.
      have put : ∀ other, (start.put entry.2).aliases.find? other =
          if other ∈ entry.2.aliases.map Unicode.lowercase then some entry.1
          else start.aliases.find? other := by
        intro other
        rw [find?_aliases_put, first.name_eq, first.lower]
        congr 1
        cases found : start.aliases.find? other with
        | none => rfl
        | some target =>
            have different := foreign other target found entry List.mem_cons_self
            simp [Ne.symm different]
      rw [putAll_cons, ih (fun other listed => stands other (List.mem_cons_of_mem _ listed)) distinct _, put]
      · unfold lastDeclaring?
        rw [List.reverse_cons, List.find?_append, List.find?_singleton]
        cases rest.reverse.find? fun later => name ∈ later.2.aliases.map Unicode.lowercase with
        | some later => rfl
        | none => by_cases declared : name ∈ entry.2.aliases.map Unicode.lowercase <;> simp [declared]
      · intro other target found later listed
        rw [put] at found
        split at found
        · obtain rfl := Option.some.inj found
          exact (apart later listed).symm
        · exact foreign other target found later (List.mem_cons_of_mem _ listed)

theorem foldl_addAliases {entries : List (String × String)}
    (lower : ∀ entry ∈ entries,
      Unicode.lowercase entry.1 = entry.1 ∧ Unicode.lowercase entry.2 = entry.2)
    (start : Catalog) :
    entries.foldl (fun known entry => known.addAliases [entry.1] entry.2) start =
      { start with
        aliases := entries.foldl (fun known entry => known.insert entry.1 entry.2) start.aliases } := by
  induction entries generalizing start with
  | nil => rfl
  | cons entry rest ih =>
      obtain ⟨name, target⟩ := lower entry List.mem_cons_self
      rw [List.foldl_cons, ih fun other listed => lower other (List.mem_cons_of_mem _ listed)]
      simp only [addAliases, List.foldl_cons, List.foldl_nil, name, target]

/-- The catalog of the bundle of a catalog has the same grammars. A name that stood for another one does
so again, and else the last grammar that declares a name has it. -/
theorem Built.toCatalog_ofCatalog (built : Built engine defined catalog) :
    ∃ loaded, (Bundle.ofCatalog catalog).toCatalog engine = .ok loaded ∧
      loaded.grammars = catalog.grammars ∧
      ∀ name, loaded.aliases.find? name =
        (catalog.aliases.find? name).or (lastDeclaring? catalog.grammars.entries name) := by
  have stands : ∀ entry ∈ catalog.grammars.entries, StandsUnder engine defined entry.1 entry.2 :=
    fun entry listed => built.stands (Dictionary.find?_eq_some_iff.mpr listed)
  have lower : ∀ entry ∈ catalog.aliases.entries,
      Unicode.lowercase entry.1 = entry.1 ∧ Unicode.lowercase entry.2 = entry.2 :=
    fun entry listed => built.lower_aliases (Dictionary.find?_eq_some_iff.mpr listed)
  have distinct : catalog.grammars.entries.Pairwise fun left right => left.1 ≠ right.1 :=
    catalog.grammars.sorted.imp fun less => String.ne_of_lt less
  have registered := foldlM_register stands {}
  have given : (Bundle.ofCatalog catalog).toCatalog engine = .ok
      { grammars := (putAll {} catalog.grammars.entries).grammars
        aliases := catalog.aliases.entries.foldl (fun known entry => known.insert entry.1 entry.2)
          (putAll {} catalog.grammars.entries).aliases } := by
    unfold Bundle.toCatalog Bundle.ofCatalog Dictionary.map
    dsimp only
    rw [registered, ok_bind, foldl_addAliases lower]
    rfl
  refine ⟨_, given, ?_, fun name => ?_⟩
  · rw [grammars_putAll stands]
    exact Dictionary.ofList_eq fun _ => Iff.rfl
  · have declared := find?_aliases_putAll stands distinct {} (by
      intro other target found
      cases found) name
    have nothing : (({} : Catalog).aliases.find? name) = none := rfl
    rw [nothing, Option.or_none] at declared
    rw [Dictionary.find?_foldl_entries fun _ => Iff.rfl, declared]

/-! ### Saving and loading -/

theorem save_eq_ok_iff {bytes : List UInt8} : catalog.save = .ok bytes ↔
    ∃ json, (Bundle.ofCatalog catalog).toJson = .ok json ∧
      Frame.pack json.write.toUTF8.toList = bytes := by
  unfold save
  cases (Bundle.ofCatalog catalog).toJson with
  | error failure => simp
  | ok json => simp

/-- All grammars of a catalog can be written, and read again out of its bundle. -/
theorem Built.reads_ofCatalog (built : Built engine GrammarDefinition.Supplied catalog) :
    ∃ json, (Bundle.ofCatalog catalog).toJson = .ok json ∧
      Reads (mostNested + 1) Json.Decoder.bundle json (Bundle.ofCatalog catalog) := by
  have each : ∀ entry ∈ (Bundle.ofCatalog catalog).grammars.entries, entry.2.Restorable mostNested := by
    intro entry listed
    obtain ⟨⟨name, grammar⟩, among, rfl⟩ := List.mem_map.mp listed
    exact (built.stands (Dictionary.find?_eq_some_iff.mpr among)).kind.restorable
  obtain ⟨json, written, _, reads⟩ := Bundle.reads_toJson mostNested each
  exact ⟨json, written, reads⟩

/-- A catalog that has come about from supplied definitions can always be saved. -/
theorem Built.exists_save (built : Built engine GrammarDefinition.Supplied catalog) :
    ∃ bytes, catalog.save = .ok bytes := by
  obtain ⟨json, written, _⟩ := built.reads_ofCatalog
  exact ⟨_, save_eq_ok_iff.mpr ⟨json, written, rfl⟩⟩

/-- Whether the bundle of a catalog is nested no deeper than what can be read. -/
def Shallow (catalog : Catalog) : Prop :=
  ∀ json, (Bundle.ofCatalog catalog).toJson = .ok json → json.fits mostNested = true

theorem Built.load_eq (built : Built engine GrammarDefinition.Supplied catalog)
    (shallow : catalog.Shallow) {bytes : List UInt8} (saved : catalog.save = .ok bytes)
    (small : bytes.length < Nat.pow 2 64) :
    load engine bytes = (Bundle.ofCatalog catalog).toCatalog engine := by
  obtain ⟨json, written, reads⟩ := built.reads_ofCatalog
  obtain ⟨other, otherWritten, rfl⟩ := save_eq_ok_iff.mp saved
  obtain rfl := Except.ok.inj (written.symm.trans otherWritten)
  have read : Bundle.read json.write = .ok (Bundle.ofCatalog catalog) :=
    reads.run (Nat.le_succ _) (shallow json written)
  have unpacked := Frame.unpack?_pack
    (Nat.lt_of_le_of_lt (Frame.length_le_pack json.write.toUTF8.toList) small)
  simp only [load, bundleText, unpacked, fromUTF8?_toUTF8, ok_bind, read]
  rfl

/-- A name that a grammar has declared, but that stands for nothing any more: it is that of no grammar,
and since it was declared it has been given to another one and dropped there. -/
def Abandoned (catalog : Catalog) (name : String) : Prop :=
  catalog.grammars.find? name = none ∧ catalog.aliases.find? name = none ∧
    ∃ entry ∈ catalog.grammars.entries, name ∈ entry.2.aliases.map Unicode.lowercase

theorem lastDeclaring?_eq_none_iff {entries : List (String × Grammar)} {name : String} :
    lastDeclaring? entries name = none ↔
      ∀ entry ∈ entries, name ∉ entry.2.aliases.map Unicode.lowercase := by
  unfold lastDeclaring?
  rw [Option.map_eq_none_iff, List.find?_eq_none]
  simp

theorem exists_of_lastDeclaring? {entries : List (String × Grammar)} {name target : String}
    (last : lastDeclaring? entries name = some target) :
    ∃ grammar, (target, grammar) ∈ entries ∧ name ∈ grammar.aliases.map Unicode.lowercase := by
  obtain ⟨⟨_, grammar⟩, found, rfl⟩ := Option.map_eq_some_iff.mp last
  exact ⟨grammar, List.mem_reverse.mp (List.mem_of_find?_eq_some found), by
    simpa using List.find?_some found⟩

/-- A catalog that has been saved can be loaded as long as its bundle is not nested too deep. The same
grammars are there again, and every name that is not abandoned stands for the same one as before. An
abandoned name, which stood for nothing, stands for a grammar that declares it. -/
theorem Built.load_save (built : Built engine GrammarDefinition.Supplied catalog)
    (shallow : catalog.Shallow) {bytes : List UInt8} (saved : catalog.save = .ok bytes)
    (small : bytes.length < Nat.pow 2 64) :
    ∃ loaded, load engine bytes = .ok loaded ∧ loaded.names = catalog.names ∧ ∀ query,
      (¬catalog.Abandoned (Unicode.lowercase query) →
        (loaded.find? query).map (·.name) = (catalog.find? query).map (·.name)) ∧
      (catalog.Abandoned (Unicode.lowercase query) → catalog.find? query = none ∧
        ∃ grammar, loaded.find? query = some grammar ∧
          Unicode.lowercase query ∈ grammar.aliases.map Unicode.lowercase) := by
  obtain ⟨loaded, given, grammars, aliases⟩ := built.toCatalog_ofCatalog
  refine ⟨loaded, (built.load_eq shallow saved small).trans given, congrArg Dictionary.names grammars,
    fun query => ⟨fun held => congrArg _ ?_, fun abandoned => ?_⟩⟩
  · unfold find?
    dsimp only
    rw [grammars, aliases]
    cases here : catalog.grammars.find? (Unicode.lowercase query) with
    | some grammar => rfl
    | none =>
        cases other : catalog.aliases.find? (Unicode.lowercase query) with
        | some target => rfl
        | none =>
            have undeclared : lastDeclaring? catalog.grammars.entries (Unicode.lowercase query) = none :=
              lastDeclaring?_eq_none_iff.mpr fun entry listed declared =>
                held ⟨here, other, entry, listed, declared⟩
            rw [undeclared]
            rfl
  · obtain ⟨here, other, entry, listed, declared⟩ := abandoned
    cases last : lastDeclaring? catalog.grammars.entries (Unicode.lowercase query) with
    | none => exact absurd declared (lastDeclaring?_eq_none_iff.mp last entry listed)
    | some target =>
        obtain ⟨grammar, among, declares⟩ := exists_of_lastDeclaring? last
        have found := Dictionary.find?_eq_some_iff.mpr among
        refine ⟨?_, grammar, ?_, declares⟩
        · simp only [find?, here, other, Option.bind_none]
        · simp only [find?, grammars, aliases, here, other, last, Option.none_or, Option.bind_some, found]

def declaringText : String := "\x7b\"aliases\":[\"x\"]\x7d"

theorem Built.load_save_declaring : ∃ catalog bytes loaded,
    Built Pattern.engine GrammarDefinition.Supplied catalog ∧ catalog.Shallow ∧
      catalog.save = .ok bytes ∧ bytes.length < Nat.pow 2 64 ∧ load Pattern.engine bytes = .ok loaded ∧
      loaded.names = ["a"] ∧ (loaded.find? "Y").map (·.name) = some "a" := by
  have answers : ((({} : Catalog).addText Pattern.engine "a" declaringText).toOption.bind fun added =>
      let catalog := added.addAliases ["y"] "a"
      catalog.save.toOption.map fun bytes =>
        (decide (bytes.length < 100), (Bundle.ofCatalog catalog).toJson.toOption.map (·.fits mostNested),
          catalog.names, catalog.aliases.find? (Unicode.lowercase "Y"),
          (catalog.find? "Y").map (·.name))) =
      some (true, some true, ["a"], some "a", some "a") := by decide +kernel
  obtain ⟨added, addedOk, answers⟩ := Option.bind_eq_some_iff.mp answers
  obtain ⟨bytes, saved, answers⟩ := Option.map_eq_some_iff.mp answers
  simp only [Prod.mk.injEq, decide_eq_true_eq] at answers
  obtain ⟨few, fits, names, known, found⟩ := answers
  have built : Built Pattern.engine GrammarDefinition.Supplied (added.addAliases ["y"] "a") :=
    (Built.empty.addText (fun _ => .read) (eq_ok_of_toOption addedOk)).addAliases ["y"] "a"
  have shallow : (added.addAliases ["y"] "a").Shallow := by
    intro json written
    rw [written] at fits
    exact Option.some.inj fits
  have small : bytes.length < Nat.pow 2 64 := Nat.lt_trans few (by decide)
  obtain ⟨loaded, load, same, finds⟩ := built.load_save shallow (eq_ok_of_toOption saved) small
  refine ⟨_, bytes, loaded, built, shallow, eq_ok_of_toOption saved, small, load, same.trans names, ?_⟩
  rw [(finds "Y").1 fun abandoned => ?_, found]
  rw [abandoned.2.1] at known
  cases known

/-- A grammar declares a name that is given to another one, which is taken out again. After saving and
loading, the name stands for the first grammar. -/
theorem load_save_abandoned : ∃ catalog bytes loaded,
    Built Pattern.engine GrammarDefinition.Supplied catalog ∧ catalog.save = .ok bytes ∧
      load Pattern.engine bytes = .ok loaded ∧ catalog.find? "x" = none ∧
      (loaded.find? "x").map (·.name) = some "a" := by
  have answers : ((({} : Catalog).addText Pattern.engine "a" declaringText).toOption.bind fun first =>
      (first.addText Pattern.engine "b" "\x7b\x7d").toOption.bind fun both =>
        let catalog := (both.addAliases ["x"] "b").remove "b"
        catalog.save.toOption.bind fun bytes => (load Pattern.engine bytes).toOption.map fun loaded =>
          ((catalog.find? "x").isNone, (loaded.find? "x").map (·.name))) =
      some (true, some "a") := by decide +kernel
  obtain ⟨first, firstAdded, answers⟩ := Option.bind_eq_some_iff.mp answers
  obtain ⟨both, bothAdded, answers⟩ := Option.bind_eq_some_iff.mp answers
  obtain ⟨bytes, saved, answers⟩ := Option.bind_eq_some_iff.mp answers
  obtain ⟨loaded, loadedOk, answers⟩ := Option.map_eq_some_iff.mp answers
  simp only [Prod.mk.injEq, Option.isNone_iff_eq_none] at answers
  obtain ⟨gone, back⟩ := answers
  have built : Built Pattern.engine GrammarDefinition.Supplied ((both.addAliases ["x"] "b").remove "b") :=
    (((Built.empty.addText (fun _ => .read) (eq_ok_of_toOption firstAdded)).addText
      (fun _ => .read) (eq_ok_of_toOption bothAdded)).addAliases ["x"] "b").remove "b"
  exact ⟨_, bytes, loaded, built, eq_ok_of_toOption saved, eq_ok_of_toOption loadedOk, gone, back⟩

end Catalog

end Highlight
