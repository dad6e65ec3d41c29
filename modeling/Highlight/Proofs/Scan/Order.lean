import Highlight.Proofs.Scan.Ranking
import Mathlib.Data.List.Forall2

set_option autoImplicit false

/-! Which result of a detection stands where. Two results can be told apart by the place at which they
were found; along the ranking, places fall only where a later result is more relevant, or as relevant
as a superset of its grammar. What this says of neighbours alone is what the insertion compares; that it
holds of any two results follows since a result comes to stand in front of a whole run, each member of
which it goes before. -/

namespace Highlight

open Outcome

/-! ### Results that are flagged -/

/-- A scan that has met text that does not belong, or that has failed, gives a result of no
relevance. -/
theorem ScanContext.relevance_of_flagged {context : ScanContext} {run : Run} {scanned : Scanned}
    (given : context.result run = .ok scanned)
    (flagged : scanned.result.illegal = true ∨ scanned.result.failed = true) :
    scanned.result.relevance = 0 := by
  unfold result at given
  split at given
  · obtain rfl := Except.ok.inj given
    rcases flagged with illegal | failed
    · cases illegal
    · cases failed
  · split at given
    · obtain rfl := Except.ok.inj given
      rfl
    · cases given
  · cases given

theorem Catalog.relevance_of_flagged {catalog : Catalog} {depth : Nat} {grammar : Grammar}
    {text : String} {settings : ScanSettings} {stack : Option ModeStack} {scanned : Scanned}
    (scan : catalog.scanNested depth grammar text settings stack = .ok scanned)
    (flagged : scanned.result.illegal = true ∨ scanned.result.failed = true) :
    scanned.result.relevance = 0 := by
  cases depth with
  | zero => cases scan
  | succ depth => exact ScanContext.relevance_of_flagged scan flagged

namespace Detection

variable (catalog : Catalog)

theorem relevance_of_resultOf {catalog : Catalog} {depth : Nat} {limits : ScanLimits}
    {text : String} {grammar : Grammar} {result : ScanResult}
    (resulted : resultOf (catalog.scanNested depth) limits text grammar = .ok result)
    (flagged : result.illegal = true ∨ result.failed = true) : result.relevance = 0 := by
  unfold resultOf at resulted
  split at resulted
  · rename_i scanned scan
    obtain rfl := Except.ok.inj resulted
    exact Catalog.relevance_of_flagged scan flagged
  · obtain rfl := Except.ok.inj resulted
    rfl
  · cases resulted

/-! ### Places -/

/-- Where one numbered result may stand ahead of another one: if it has the higher number, it is more
relevant, or as relevant while the grammar found under the language of the other one declares itself a
superset of its own language. -/
def MayStandAhead (ahead behind : ScanResult × Nat) : Prop :=
  behind.2 < ahead.2 →
    behind.1.relevance < ahead.1.relevance ∨
      ahead.1.relevance = behind.1.relevance ∧
        ∃ grammar, catalog.find? behind.1.language = some grammar ∧
          grammar.definition.supersetOf = some ahead.1.language

theorem widens_iff {wide narrow : ScanResult} : widens catalog wide narrow = true ↔
    ∃ grammar, catalog.find? wide.language = some grammar ∧
      grammar.definition.supersetOf = some narrow.language := by
  simp [widens, Option.any_eq_true]

/-- The ranking keeps the numbers of the results apart, and puts no result ahead of one with a lower
number that it may not stand ahead of. -/
theorem rank_numbered (results : List ScanResult) : ∃ ranked : List (ScanResult × Nat),
    ranked.Perm results.zipIdx ∧ ranked.map Prod.fst = rank catalog results ∧
      ranked.Pairwise (MayStandAhead catalog) := by
  induction results using List.reverseRecOn with
  | nil => exact ⟨[], List.Perm.refl _, rfl, List.Pairwise.nil⟩
  | append_singleton before result ih =>
    obtain ⟨ranked, permuted, shown, ordered⟩ := ih
    obtain ⟨front, back, split, inserted, passes, _⟩ := rank_insert catalog before result
    rw [split] at shown
    obtain ⟨numberedFront, numberedBack, rfl, rfl, rfl⟩ := List.map_eq_append_iff.mp shown
    obtain ⟨frontOrder, backOrder, across⟩ := List.pairwise_append.mp ordered
    refine ⟨numberedFront ++ (result, before.length) :: numberedBack, ?_, ?_, ?_⟩
    case refine_1 =>
      rw [List.zipIdx_append, Nat.zero_add, List.zipIdx_singleton]
      exact List.perm_middle.trans ((permuted.cons _).trans (List.perm_append_singleton _ _).symm)
    case refine_2 => rw [inserted, List.map_append, List.map_cons]
    case refine_3 =>
      have aheadOfBack : ∀ other ∈ numberedBack,
          MayStandAhead catalog (result, before.length) other := by
        intro other member _
        rcases ranksBefore_iff.mp (passes other.1 (List.mem_map_of_mem member)) with less | tied
        · exact .inl less
        · exact .inr ⟨tied.1, (widens_iff catalog).mp tied.2⟩
      have behindFront : ∀ other ∈ numberedFront,
          MayStandAhead catalog other (result, before.length) := by
        intro other member higher
        have numbered : other ∈ before.zipIdx :=
          permuted.mem_iff.mp (List.mem_append_left numberedBack member)
        have lower := (List.mem_zipIdx numbered).2.1
        dsimp only at higher
        omega
      refine List.pairwise_append.mpr
        ⟨frontOrder, List.pairwise_cons.mpr ⟨aheadOfBack, backOrder⟩, ?_⟩
      intro other member later placed
      rcases List.mem_cons.mp placed with rfl | within
      · exact behindFront other member
      · exact across other member later within

theorem rank_relevances (results : List ScanResult) :
    (rank catalog results).map ScanResult.relevance =
      (results.map ScanResult.relevance).mergeSort fun left right => decide (right ≤ left) := by
  have transitive : ∀ first second third : Nat, decide (second ≤ first) = true →
      decide (third ≤ second) = true → decide (third ≤ first) = true := by
    intro first second third
    simp only [decide_eq_true_eq]
    omega
  have total : ∀ left right : Nat, (decide (right ≤ left) || decide (left ≤ right)) = true := by
    intro left right
    simpa using Nat.le_total right left
  have sorted := List.pairwise_mergeSort transitive total (results.map ScanResult.relevance)
  refine @List.Perm.eq_of_pairwise _ (fun left right => right ≤ left) _ _ ?_ ?_ ?_ ?_
  case refine_1 => exact fun left right _ _ above below => Nat.le_antisymm below above
  case refine_2 => exact List.pairwise_map.mpr (rank_descending catalog results)
  case refine_3 => exact sorted.imp of_decide_eq_true
  case refine_4 =>
    exact ((rank_perm catalog results).map _).trans (List.mergeSort_perm _ _).symm

/-! ### What a detection gives -/

theorem forall₂_of_mapM_eq_ok {α β ε : Type} {step : α → Except ε β} {items : List α}
    {results : List β} :
    items.mapM step = .ok results ↔
      List.Forall₂ (fun item result => step item = .ok result) items results := by
  induction items generalizing results with
  | nil =>
    rw [List.mapM_nil, pure_eq_ok, List.forall₂_nil_left_iff, eq_comm]
  | cons item rest ih =>
    rw [List.mapM_cons, bind_eq_ok]
    constructor
    case mp =>
      rintro ⟨first, firstGiven, given⟩
      obtain ⟨others, othersGiven, given⟩ := bind_eq_ok.mp given
      obtain rfl := pure_eq_ok.mp given
      exact .cons firstGiven (ih.mp othersGiven)
    case mpr =>
      rintro (_ | ⟨firstGiven, othersGiven⟩)
      exact ⟨_, firstGiven, bind_eq_ok.mpr ⟨_, ih.mpr othersGiven, rfl⟩⟩

theorem exists_mapM_eq_ok {α β ε : Type} {step : α → Except ε β} {items : List α}
    (each : ∀ item ∈ items, ∃ result, step item = .ok result) :
    ∃ results, items.mapM step = .ok results := by
  induction items with
  | nil => exact ⟨[], rfl⟩
  | cons item rest ih =>
    obtain ⟨first, firstGiven⟩ := each item List.mem_cons_self
    obtain ⟨others, othersGiven⟩ := ih fun other listed => each other (List.mem_cons_of_mem item listed)
    exact ⟨first :: others, forall₂_of_mapM_eq_ok.mpr
      (.cons firstGiven (forall₂_of_mapM_eq_ok.mp othersGiven))⟩

variable {catalog} {depth : Nat} {text : String} {candidates : Option (List String)}
  {limits : ScanLimits}

theorem results_eq_ok_iff {all : List ScanResult} :
    results catalog (catalog.scanNested depth) text candidates limits = .ok all ↔
      ∃ scanned, all = ScanResult.plain plainName text :: scanned ∧
        List.Forall₂ (fun grammar result =>
          resultOf (catalog.scanNested depth) limits text grammar = .ok result)
          (participants catalog candidates) scanned := by
  rw [results, bind_eq_ok]
  constructor
  case mp =>
    rintro ⟨scanned, given, rest⟩
    exact ⟨scanned, (pure_eq_ok.mp rest).symm, forall₂_of_mapM_eq_ok.mp given⟩
  case mpr =>
    rintro ⟨scanned, rfl, each⟩
    exact ⟨scanned, forall₂_of_mapM_eq_ok.mpr each, rfl⟩

theorem detect_eq_ok_iff :
    (∃ given, detect catalog (catalog.scanNested depth) text candidates limits = .ok given) ↔
      ∀ grammar ∈ participants catalog candidates,
        ∃ result, resultOf (catalog.scanNested depth) limits text grammar = .ok result := by
  constructor
  case mp =>
    rintro ⟨given, detected⟩ grammar takesPart
    obtain ⟨all, resulted, _⟩ := bind_eq_ok.mp detected
    obtain ⟨scanned, scans, _⟩ := bind_eq_ok.mp resulted
    obtain ⟨result, _, given⟩ := exists_of_mapM_eq_ok scans takesPart
    exact ⟨result, given⟩
  case mpr =>
    intro each
    obtain ⟨scanned, scans⟩ := exists_mapM_eq_ok each
    refine ⟨best text (rank catalog (ScanResult.plain plainName text :: scanned)), ?_⟩
    rw [detect, results, scans]
    rfl

/-- A flagged result does not come to stand first, as the one of the bare text, which is found first
and is as relevant, only gives way to a grammar that it is declared a superset of. -/
theorem unflagged_of_first {scanned : List ScanResult}
    (each : List.Forall₂ (fun grammar result =>
      resultOf (catalog.scanNested depth) limits text grammar = .ok result)
      (participants catalog candidates) scanned)
    {first : ScanResult × Nat} {others : List (ScanResult × Nat)}
    (permuted : (first :: others).Perm (ScanResult.plain plainName text :: scanned).zipIdx)
    (ordered : (first :: others).Pairwise (MayStandAhead catalog))
    (plainIsNarrow : ∀ grammar, catalog.find? plainName = some grammar →
      grammar.definition.supersetOf = none) :
    first.1.illegal = false ∧ first.1.failed = false := by
  have numbered : first ∈ (ScanResult.plain plainName text :: scanned).zipIdx :=
    permuted.mem_iff.mp List.mem_cons_self
  obtain ⟨result, place⟩ := first
  rw [List.zipIdx_cons, List.mem_cons] at numbered
  rcases numbered with same | later
  · obtain ⟨rfl, rfl⟩ := Prod.mk.inj same
    exact ⟨rfl, rfl⟩
  · have among : result ∈ scanned := by
      rw [← List.zipIdx_map_fst (0 + 1) scanned]
      exact List.mem_map_of_mem later
    have behind : (ScanResult.plain plainName text, 0) ∈ others := by
      have plainNumbered : (ScanResult.plain plainName text, 0) ∈ (result, place) :: others :=
        permuted.mem_iff.mpr List.mem_cons_self
      refine (List.mem_cons.mp plainNumbered).resolve_left fun same => ?_
      have notFirst := (List.mem_zipIdx later).1
      obtain ⟨_, rfl⟩ := Prod.mk.inj same
      omega
    have higher : 0 < place := (List.mem_zipIdx later).1
    have notFlagged : ¬(result.illegal = true ∨ result.failed = true) := by
      intro flagged
      obtain ⟨grammar, _, resulted⟩ :=
        mem_of_mapM_eq_ok (forall₂_of_mapM_eq_ok.mpr each) among
      have least := relevance_of_resultOf resulted flagged
      rcases (List.pairwise_cons.mp ordered).1 _ behind higher with more | ⟨_, wide, found, declares⟩
      · exact Nat.not_lt_zero _ (Nat.lt_of_lt_of_eq more least)
      · rw [plainIsNarrow wide found] at declares
        cases declares
    simpa using notFlagged

/-- A detection gives a result exactly if the scan of every grammar that takes part does. The results
that it ranks are that of the bare text and those of the grammars, in the order of the candidates, each
with its number in that order. Along the ranking relevance never rises, and a result with a higher number stands ahead of one with a
lower number only if it is more relevant, or as relevant while the grammar found under the other's
language declares itself a superset of its own. The best result is the first of the ranking and
carries the second one, so theirs are the two highest relevances; and it is not flagged unless a
grammar under the name of the bare text declares itself a superset. -/
theorem detect_ranking (catalog : Catalog) (depth : Nat) (text : String)
    (candidates : Option (List String)) (limits : ScanLimits) :
    ((∃ given, detect catalog (catalog.scanNested depth) text candidates limits = .ok given) ↔
      ∀ grammar ∈ participants catalog candidates,
        ∃ result, resultOf (catalog.scanNested depth) limits text grammar = .ok result) ∧
    ∀ given, detect catalog (catalog.scanNested depth) text candidates limits = .ok given →
      ∃ scanned : List ScanResult, ∃ ranked : List (ScanResult × Nat),
        List.Forall₂ (fun grammar result =>
          resultOf (catalog.scanNested depth) limits text grammar = .ok result)
          (participants catalog candidates) scanned ∧
        ranked.map Prod.fst = rank catalog (ScanResult.plain plainName text :: scanned) ∧
        ranked.Perm (ScanResult.plain plainName text :: scanned).zipIdx ∧
        ranked.Pairwise (fun ahead behind => behind.1.relevance ≤ ahead.1.relevance) ∧
        ranked.Pairwise (MayStandAhead catalog) ∧
        (∃ first others, ranked = first :: others ∧
          given = { first.1 with secondBest := others.head?.map Prod.fst }) ∧
        given.relevance :: (given.secondBest.map ScanResult.relevance).toList =
          (((ScanResult.plain plainName text :: scanned).map ScanResult.relevance).mergeSort
            fun left right => decide (right ≤ left)).take 2 ∧
        ((∀ grammar, catalog.find? plainName = some grammar →
            grammar.definition.supersetOf = none) →
          given.illegal = false ∧ given.failed = false) := by
  refine ⟨detect_eq_ok_iff, fun given detected => ?_⟩
  obtain ⟨all, resulted, taken⟩ := bind_eq_ok.mp detected
  obtain rfl := pure_eq_ok.mp taken
  obtain ⟨scanned, rfl, each⟩ := results_eq_ok_iff.mp resulted
  obtain ⟨ranked, permuted, shown, ordered⟩ :=
    rank_numbered catalog (ScanResult.plain plainName text :: scanned)
  have descending := rank_descending catalog (ScanResult.plain plainName text :: scanned)
  have relevances := rank_relevances catalog (ScanResult.plain plainName text :: scanned)
  rw [← shown] at descending relevances
  obtain ⟨first, others, rfl⟩ : ∃ first others, ranked = first :: others := by
    cases ranked with
    | nil => exact absurd permuted.length_eq (by simp)
    | cons first others => exact ⟨first, others, rfl⟩
  have given : best text (rank catalog (ScanResult.plain plainName text :: scanned)) =
      { first.1 with secondBest := others.head?.map Prod.fst } := by
    rw [← shown, List.map_cons, best, List.head?_map]
  rw [given]
  refine ⟨scanned, first :: others, each, shown, permuted, List.pairwise_map.mp descending, ordered,
    ⟨first, others, rfl, rfl⟩, ?_, unflagged_of_first each permuted ordered⟩
  rw [← relevances]
  cases others with
  | nil => rfl
  | cons second rest => rfl

/-- A grammar of a keyword that may declare itself a superset, one of the same keyword, and one that
the text does not belong in. -/
theorem detect_ranking_of_three : ∃ catalog given scanned,
    (((Catalog.register {} Pattern.engine "a" (keyworded (some "b"))).bind
      fun catalog => catalog.register Pattern.engine "b" (keyworded none)).bind
      fun catalog => catalog.register Pattern.engine "c"
        { root := { illegal := some (.one "k") } }) = .ok catalog ∧
    detect catalog catalog.scanWith "k" none {} = .ok given ∧
    List.Forall₂ (fun grammar result => resultOf catalog.scanWith {} "k" grammar = .ok result)
      (participants catalog none) scanned ∧
    scanned.map (fun result => (result.language, result.relevance, result.illegal)) =
      [("a", 1, false), ("b", 1, false), ("c", 0, true)] ∧
    (∃ ranked : List (ScanResult × Nat),
      ranked.map Prod.fst = rank catalog (ScanResult.plain plainName "k" :: scanned) ∧
      ranked.Perm (ScanResult.plain plainName "k" :: scanned).zipIdx ∧
      ranked.Pairwise (MayStandAhead catalog)) ∧
    (given.language, given.secondBest.map ScanResult.language) = ("b", some "a") ∧
    given.illegal = false ∧ given.failed = false := by
  have answers : ((((Catalog.register {} Pattern.engine "a" (keyworded (some "b"))).bind
      fun catalog => catalog.register Pattern.engine "b" (keyworded none)).bind
      fun catalog => catalog.register Pattern.engine "c"
        { root := { illegal := some (.one "k") } }).toOption.bind fun catalog =>
      (results catalog catalog.scanWith "k" none {}).toOption.map fun all =>
        (all.tail.map fun result => (result.language, result.relevance, result.illegal),
          (best "k" (rank catalog all)).language,
          (best "k" (rank catalog all)).secondBest.map ScanResult.language,
          (catalog.find? plainName).isNone)) =
      some ([("a", 1, false), ("b", 1, false), ("c", 0, true)], "b", some "a", true) := by
    decide +kernel
  obtain ⟨catalog, registered, answers⟩ := Option.bind_eq_some_iff.mp answers
  obtain ⟨all, resulted, answers⟩ := Option.map_eq_some_iff.mp answers
  simp only [Prod.mk.injEq] at answers
  obtain ⟨shown, language, second, noPlain⟩ := answers
  replace resulted := eq_ok_of_toOption resulted
  have detected : detect catalog catalog.scanWith "k" none {} = .ok (best "k" (rank catalog all)) := by
    rw [detect, resulted]
    rfl
  have plainIsNarrow : ∀ grammar, catalog.find? plainName = some grammar →
      grammar.definition.supersetOf = none := by
    intro grammar found
    rw [found] at noPlain
    cases noPlain
  obtain ⟨scanned, ranked, each, shown_, permuted, _, ordered, _, _, unflagged⟩ :=
    (detect_ranking catalog Catalog.deepestScan "k" none {}).2 _ detected
  have sameResults : all = ScanResult.plain plainName "k" :: scanned :=
    Except.ok.inj (resulted.symm.trans (results_eq_ok_iff.mpr ⟨scanned, rfl, each⟩))
  rw [sameResults] at shown
  exact ⟨catalog, _, scanned, eq_ok_of_toOption registered, detected, each, shown,
    ⟨ranked, shown_, permuted, ordered⟩, Prod.ext language second, unflagged plainIsNarrow⟩

end Detection

end Highlight
