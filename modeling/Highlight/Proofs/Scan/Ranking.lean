import Highlight.Proofs.Catalog.History
import Highlight.Proofs.Scan.Detection
import Highlight.Scan.Run
import Mathlib.Data.List.Induction

set_option autoImplicit false

/-! The order in which results are ranked. Each result moves forward past those that it goes before,
until it meets one that it does not go before: only neighbours are compared. So it comes to stand in front
of the longest run of results at the end all of which it goes before, and no later result changes the
order of the earlier ones. That relevance falls along the ranking follows from this; that a grammar ranks
before the ones that declare themselves supersets of it does not. -/

namespace Highlight

open Outcome

theorem ScanContext.language_of_result {context : ScanContext} {run : Run} {scanned : Scanned}
    (given : context.result run = .ok scanned) : scanned.result.language = context.grammar.name := by
  unfold result at given
  split at given
  · obtain rfl := Except.ok.inj given
    rfl
  · split at given
    · obtain rfl := Except.ok.inj given
      rfl
    · cases given
  · cases given

theorem Catalog.language_of_scanNested {catalog : Catalog} {depth : Nat} {grammar : Grammar}
    {text : String} {settings : ScanSettings} {stack : Option ModeStack} {scanned : Scanned}
    (scan : catalog.scanNested depth grammar text settings stack = .ok scanned) :
    scanned.result.language = grammar.name := by
  cases depth with
  | zero => cases scan
  | succ depth => exact ScanContext.language_of_result scan

namespace Detection

/-- Whether the grammar of one result declares itself a superset of the grammar of the other one. -/
def widens (catalog : Catalog) (wide narrow : ScanResult) : Bool :=
  (catalog.find? wide.language).any fun grammar =>
    grammar.definition.supersetOf == some narrow.language

variable {catalog : Catalog}

theorem ranksBefore_iff {left right : ScanResult} : ranksBefore catalog left right = true ↔
    right.relevance < left.relevance ∨
      left.relevance = right.relevance ∧ widens catalog right left = true := by
  unfold ranksBefore widens
  split
  · rename_i same
    simp [same]
  · rename_i different
    simp [different]

variable (catalog)

/-! ### One more result -/

theorem insertRanked_eq (result : ScanResult) (ranked : List ScanResult) : ∃ passed rest,
    ranked = passed ++ rest ∧ insertRanked catalog result ranked = passed ++ result :: rest ∧
      (∀ other ∈ passed, ranksBefore catalog result other = true) ∧
      ∀ next ∈ rest.head?, ranksBefore catalog result next = false := by
  induction ranked with
  | nil => exact ⟨[], [], rfl, rfl, by simp, by simp⟩
  | cons last earlier ih =>
      unfold insertRanked
      split
      · rename_i before
        obtain ⟨passed, rest, rfl, inserted, all, stops⟩ := ih
        refine ⟨last :: passed, rest, rfl, by rw [inserted]; rfl, fun other member => ?_, stops⟩
        rcases List.mem_cons.mp member with rfl | later
        · exact before
        · exact all other later
      · rename_i stops
        exact ⟨[], last :: earlier, rfl, rfl, by simp, by simpa using stops⟩

theorem rank_concat (before : List ScanResult) (result : ScanResult) :
    rank catalog (before ++ [result]) =
      (insertRanked catalog result (rank catalog before).reverse).reverse := by
  simp [rank, List.foldl_append]

/-- One more result is put in front of the longest end of the ranking in which it goes before every
result. -/
theorem rank_insert (before : List ScanResult) (result : ScanResult) : ∃ front back,
    rank catalog before = front ++ back ∧
      rank catalog (before ++ [result]) = front ++ result :: back ∧
      (∀ other ∈ back, ranksBefore catalog result other = true) ∧
      ∀ last ∈ front.getLast?, ranksBefore catalog result last = false := by
  obtain ⟨passed, rest, ranked, inserted, all, stops⟩ :=
    insertRanked_eq catalog result (rank catalog before).reverse
  refine ⟨rest.reverse, passed.reverse, ?_, ?_, fun other member => ?_, ?_⟩
  · rw [← List.reverse_append, ← ranked, List.reverse_reverse]
  · rw [rank_concat, inserted]
    simp
  · exact all other (List.mem_reverse.mp member)
  · rwa [List.getLast?_reverse]

theorem rank_sublist (before after : List ScanResult) :
    (rank catalog before).Sublist (rank catalog (before ++ after)) := by
  induction after generalizing before with
  | nil => simp
  | cons result rest ih =>
      obtain ⟨front, back, ranked, inserted, _, _⟩ := rank_insert catalog before result
      have placed : (rank catalog before).Sublist (rank catalog (before ++ [result])) := by
        rw [ranked, inserted]
        exact (List.Sublist.refl front).append (List.sublist_cons_self result back)
      have onward := ih (before ++ [result])
      rw [List.append_assoc] at onward
      exact placed.trans onward

theorem rank_descending (results : List ScanResult) :
    (rank catalog results).Pairwise fun earlier later => later.relevance ≤ earlier.relevance := by
  induction results using List.reverseRecOn with
  | nil => exact List.Pairwise.nil
  | append_singleton before result ih =>
      obtain ⟨front, back, ranked, inserted, passes, stops⟩ := rank_insert catalog before result
      rw [ranked] at ih
      obtain ⟨frontOrder, backOrder, across⟩ := List.pairwise_append.mp ih
      have behind : ∀ other ∈ back, other.relevance ≤ result.relevance := by
        intro other member
        rcases ranksBefore_iff.mp (passes other member) with less | ⟨same, _⟩
        · exact Nat.le_of_lt less
        · exact Nat.le_of_eq same.symm
      have ahead : ∀ other ∈ front, result.relevance ≤ other.relevance := by
        intro other member
        cases front using List.reverseRecOn with
        | nil => cases member
        | append_singleton start last =>
            have least : last.relevance ≤ other.relevance := by
              rcases List.mem_append.mp member with earlier | final
              · exact (List.pairwise_append.mp frontOrder).2.2 other earlier last List.mem_cons_self
              · exact Nat.le_of_eq (congrArg _ (List.mem_singleton.mp final).symm)
            have stopped : ¬ ranksBefore catalog result last = true := by
              simp [stops last (by simp)]
            have notMore : ¬ last.relevance < result.relevance := fun less =>
              stopped (ranksBefore_iff.mpr (Or.inl less))
            omega
      rw [inserted]
      refine List.pairwise_append.mpr ⟨frontOrder, List.pairwise_cons.mpr ⟨behind, backOrder⟩, ?_⟩
      intro other member later placed
      rcases List.mem_cons.mp placed with rfl | within
      · exact ahead other member
      · exact across other member later within

/-- Of two results that are equally relevant, the later one stands in front of the earlier one in the end
if the grammars of all that tie with them from the earlier one on declare themselves supersets of its own
grammar, and behind it if one of them does not. -/
theorem rank_tied {before : List ScanResult} (after : List ScanResult) {later earlier : ScanResult}
    {above below : List ScanResult} (ranked : rank catalog before = above ++ earlier :: below)
    (tie : earlier.relevance = later.relevance) :
    ((∀ tied ∈ earlier :: below, tied.relevance = later.relevance → widens catalog tied later = true) →
      ∃ front gap, above = front ++ gap ∧ (front ++ later :: (gap ++ earlier :: below)).Sublist
        (rank catalog (before ++ later :: after))) ∧
    ∀ tied ∈ earlier :: below, tied.relevance = later.relevance → widens catalog tied later = false →
      ∃ gap back, below = gap ++ back ∧ (above ++ earlier :: (gap ++ later :: back)).Sublist
        (rank catalog (before ++ later :: after)) := by
  obtain ⟨front, back, split, inserted, passes, stops⟩ := rank_insert catalog before later
  have kept : (front ++ later :: back).Sublist (rank catalog (before ++ later :: after)) := by
    have onward := rank_sublist catalog (before ++ [later]) after
    rwa [inserted, List.append_assoc] at onward
  have passed : ∀ tied ∈ back, tied.relevance = later.relevance → widens catalog tied later = true :=
    fun tied member same => ((ranksBefore_iff.mp (passes tied member)).resolve_left (by omega)).2
  have descends := rank_descending catalog before
  rw [ranked] at split descends
  have ordered := (List.pairwise_append.mp descends).2.1
  -- the results that the later one passes either reach back to the earlier one or they do not
  rcases List.append_eq_append_iff.mp split with ⟨stay, rfl, rest⟩ | ⟨gap, rfl, rfl⟩
  · cases stay with
    | nil =>
        obtain rfl : earlier :: below = back := rest
        refine ⟨fun _ => ⟨above, [], by simp, by simpa using kept⟩, fun tied member same apart => ?_⟩
        simp [passed tied member same] at apart
    | cons first stay =>
        obtain ⟨rfl, rfl⟩ := List.cons_eq_cons.mp rest
        refine ⟨fun all => False.elim ?_, fun _ _ _ _ => ⟨stay, back, rfl, by simpa using kept⟩⟩
        obtain ⟨last, final⟩ := Option.isSome_iff_exists.mp
          (show (earlier :: stay).getLast?.isSome = true by simp)
        have member := List.mem_of_getLast? final
        have stopped : ¬ ranksBefore catalog later last = true := by
          simp [stops last (by rw [List.getLast?_append, final]; rfl)]
        have atMost : last.relevance ≤ earlier.relevance := by
          rcases List.mem_cons.mp member with rfl | within
          · exact Nat.le_refl _
          · exact (List.pairwise_cons.mp ordered).1 last (List.mem_append_left back within)
        have atLeast : ¬ last.relevance < later.relevance := fun less =>
          stopped (ranksBefore_iff.mpr (.inl less))
        have same : last.relevance = later.relevance := by omega
        exact stopped (ranksBefore_iff.mpr (.inr ⟨same.symm,
          all last (List.mem_append_left back member) same⟩))
  · refine ⟨fun _ => ⟨front, gap, rfl, by simpa using kept⟩, fun tied member same apart => ?_⟩
    simp [passed tied (List.mem_append_right gap member) same] at apart

/-! ### The results of a detection -/

variable {catalog}

theorem language_of_resultOf {depth : Nat} {limits : ScanLimits} {text : String} {grammar : Grammar}
    {result : ScanResult}
    (resulted : resultOf (catalog.scanNested depth) limits text grammar = .ok result) :
    result.language = grammar.name := by
  unfold resultOf at resulted
  split at resulted
  · rename_i scanned scan
    obtain rfl := Except.ok.inj resulted
    exact Catalog.language_of_scanNested scan
  · obtain rfl := Except.ok.inj resulted
    rfl
  · cases resulted

/-- The result of a grammar that takes part has the language by which the catalog finds the grammar. -/
theorem find?_language {engine : Pattern.Engine} {defined : GrammarDefinition → Prop}
    (built : Catalog.Built engine defined catalog) {candidates : Option (List String)}
    {grammar : Grammar} (takesPart : grammar ∈ participants catalog candidates) {depth : Nat}
    {limits : ScanLimits} {text : String} {result : ScanResult}
    (resulted : resultOf (catalog.scanNested depth) limits text grammar = .ok result) :
    catalog.find? result.language = some grammar := by
  obtain ⟨⟨name, _⟩, registered, rfl⟩ := mem_participants takesPart
  rw [language_of_resultOf resulted]
  exact built.find?_name registered

/-- Where the result of a grammar stands next to that of a superset of it that is equally relevant. If
it is the earlier one of the two, it keeps its place in front. If it is the later one, it comes to stand
in front of the superset when all that tie with them and stand behind the superset by then are results
of grammars that declare themselves supersets of it too; any other one among them holds it up. -/
theorem detect_ranks_supersets {engine : Pattern.Engine} {defined : GrammarDefinition → Prop}
    (built : Catalog.Built engine defined catalog) {candidates : Option (List String)} {depth : Nat}
    {limits : ScanLimits} {text : String} {special general : Grammar} {narrow wide : ScanResult}
    (specialTakesPart : special ∈ participants catalog candidates)
    (generalTakesPart : general ∈ participants catalog candidates)
    (narrowResult : resultOf (catalog.scanNested depth) limits text special = .ok narrow)
    (wideResult : resultOf (catalog.scanNested depth) limits text general = .ok wide)
    (declares : general.definition.supersetOf = some special.name)
    (oneWay : special.definition.supersetOf ≠ some general.name)
    (tie : wide.relevance = narrow.relevance) {all : List ScanResult}
    (resulted : results catalog (catalog.scanNested depth) text candidates limits = .ok all) :
    detect catalog (catalog.scanNested depth) text candidates limits =
        .ok (best text (rank catalog all)) ∧
    (∀ before after above below, all = before ++ wide :: after →
      rank catalog before = above ++ narrow :: below →
      ∃ gap back, below = gap ++ back ∧
        (above ++ narrow :: (gap ++ wide :: back)).Sublist (rank catalog all)) ∧
    ∀ before after above below, all = before ++ narrow :: after →
      rank catalog before = above ++ wide :: below →
      ((∀ tied ∈ below, tied.relevance = narrow.relevance → widens catalog tied narrow = true) →
        ∃ front gap, above = front ++ gap ∧
          (front ++ narrow :: (gap ++ wide :: below)).Sublist (rank catalog all)) ∧
      ∀ tied ∈ below, tied.relevance = narrow.relevance → widens catalog tied narrow = false →
        ∃ gap back, below = gap ++ back ∧
          (above ++ wide :: (gap ++ narrow :: back)).Sublist (rank catalog all) := by
  have narrowName := language_of_resultOf narrowResult
  have wideName := language_of_resultOf wideResult
  have widened : widens catalog wide narrow = true := by
    simp [widens, find?_language built generalTakesPart wideResult, declares, narrowName]
  have unwidened : widens catalog narrow wide = false := by
    simp [widens, find?_language built specialTakesPart narrowResult, wideName, oneWay]
  refine ⟨by rw [detect, resulted]; rfl, ?_, ?_⟩
  · rintro before after above below rfl ranked
    exact (rank_tied catalog after ranked tie.symm).2 narrow List.mem_cons_self tie.symm unwidened
  · rintro before after above below rfl ranked
    obtain ⟨front, behind⟩ := rank_tied catalog after ranked tie
    refine ⟨fun others => front fun tied member same => ?_, fun tied member =>
      behind tied (List.mem_cons_of_mem _ member)⟩
    rcases List.mem_cons.mp member with rfl | later
    · exact widened
    · exact others tied later same

/-- A grammar with one keyword that may declare itself a superset of another one. -/
def keyworded (supersetOf : Option String) : GrammarDefinition where
  supersetOf := supersetOf
  root := { keywords := some (.words "k") }

/-- A grammar and a superset of it that is registered before it, and nothing else that ties with them. -/
theorem detect_ranks_supersets_pair : ∃ catalog all narrow wide,
    ((Catalog.register {} Pattern.engine "a" (keyworded (some "b"))).bind
      fun catalog => catalog.register Pattern.engine "b" (keyworded none)) = .ok catalog ∧
    results catalog catalog.scanWith "k" none {} = .ok all ∧
    wide.language = "a" ∧ narrow.language = "b" ∧
    [narrow, wide].Sublist (rank catalog all) := by
  have answers : (((Catalog.register {} Pattern.engine "a" (keyworded (some "b"))).bind
      fun catalog => catalog.register Pattern.engine "b" (keyworded none)).toOption.map fun catalog =>
      ((participants catalog none).map fun grammar => (grammar.name, grammar.definition.supersetOf,
        (resultOf catalog.scanWith {} "k" grammar).toOption.map (·.relevance)))) =
      some [("a", some "b", some 1), ("b", none, some 1)] := by decide +kernel
  obtain ⟨catalog, registered, answers⟩ := Option.map_eq_some_iff.mp answers
  replace registered := eq_ok_of_toOption registered
  obtain ⟨general, _, shape, generalParts, answers⟩ := List.map_eq_cons_iff.mp answers
  obtain ⟨special, _, rfl, specialParts, answers⟩ := List.map_eq_cons_iff.mp answers
  obtain rfl := List.map_eq_nil_iff.mp answers
  simp only [Prod.mk.injEq, Option.map_eq_some_iff] at generalParts specialParts
  obtain ⟨generalName, declares, wide, wideResult, wideRelevance⟩ := generalParts
  obtain ⟨specialName, undeclared, narrow, narrowResult, narrowRelevance⟩ := specialParts
  replace wideResult := eq_ok_of_toOption wideResult
  replace narrowResult := eq_ok_of_toOption narrowResult
  have built : Catalog.Built Pattern.engine (fun _ => True) catalog := by
    obtain ⟨middle, first, second⟩ := bind_eq_ok.mp registered
    exact (Catalog.Built.empty.register trivial first).register trivial second
  have resulted : results catalog catalog.scanWith "k" none {} =
      .ok [ScanResult.plain plainName "k", wide, narrow] := by
    simp only [results, shape, List.mapM_cons, List.mapM_nil, wideResult, narrowResult]
    rfl
  have ranked : rank catalog [ScanResult.plain plainName "k", wide] =
      [] ++ wide :: [ScanResult.plain plainName "k"] := by
    have passes : ranksBefore catalog wide (ScanResult.plain plainName "k") = true :=
      ranksBefore_iff.mpr (.inl (by rw [wideRelevance]; decide))
    simp [rank, insertRanked, passes]
  have placing := (detect_ranks_supersets built (by simp [shape]) (by simp [shape]) narrowResult
    wideResult (declares.trans (congrArg some specialName.symm)) (by simp [undeclared])
    (wideRelevance.trans narrowRelevance.symm) resulted).2.2 _ [] _ _ rfl ranked
  obtain ⟨front, gap, whole, placed⟩ := placing.1 (by simp [narrowRelevance, ScanResult.plain])
  obtain ⟨rfl, rfl⟩ := List.append_eq_nil_iff.mp whole.symm
  exact ⟨catalog, _, narrow, wide, registered, resulted,
    (language_of_resultOf wideResult).trans generalName,
    (language_of_resultOf narrowResult).trans specialName, (by simp : [narrow, wide].Sublist _).trans placed⟩

/-- The superset that stands first is the best result though the subset is as relevant: the unrelated
grammar that stands between them holds the subset up. -/
theorem detect_ranks_superset_first : ∃ catalog all,
    (((Catalog.register {} Pattern.engine "a" (keyworded (some "c"))).bind
      fun catalog => catalog.register Pattern.engine "b" (keyworded none)).bind
      fun catalog => catalog.register Pattern.engine "c" (keyworded none)) = .ok catalog ∧
    ((participants catalog none).map fun grammar => (grammar.name, grammar.definition.supersetOf)) =
      [("a", some "c"), ("b", none), ("c", none)] ∧
    results catalog catalog.scanWith "k" none {} = .ok all ∧
    (rank catalog all).map (fun result => (result.language, result.relevance)) =
      [("a", 1), ("b", 1), ("c", 1), ("plaintext", 0)] := by
  have answers : ((((Catalog.register {} Pattern.engine "a" (keyworded (some "c"))).bind
      fun catalog => catalog.register Pattern.engine "b" (keyworded none)).bind
      fun catalog => catalog.register Pattern.engine "c" (keyworded none)).toOption.bind fun catalog =>
      (results catalog catalog.scanWith "k" none {}).toOption.map fun all =>
        (((participants catalog none).map fun grammar =>
          (grammar.name, grammar.definition.supersetOf)),
        (rank catalog all).map fun result => (result.language, result.relevance))) =
      some ([("a", some "c"), ("b", none), ("c", none)],
        [("a", 1), ("b", 1), ("c", 1), ("plaintext", 0)]) := by decide +kernel
  obtain ⟨catalog, registered, answers⟩ := Option.bind_eq_some_iff.mp answers
  obtain ⟨all, resulted, answers⟩ := Option.map_eq_some_iff.mp answers
  obtain ⟨takePart, ranked⟩ := Prod.mk.inj answers
  exact ⟨catalog, all, eq_ok_of_toOption registered, takePart, eq_ok_of_toOption resulted, ranked⟩

end Detection

end Highlight
