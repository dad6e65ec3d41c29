import Highlight.Proofs.Scan.Alike
import Highlight.Proofs.Scan.Bounds

set_option autoImplicit false

/-! What a scan has to do with the other grammars of its catalog. It reaches those only that the modes of
its grammar have texts scanned with, and those that the modes of these do, and so on. What else a catalog
holds, and what else is found in it, is nothing to the scan, unless a language is to be detected, which
may be that of any grammar. -/

namespace Highlight

/-- The grammars that a scan can come to use which begins with one of them, as long as no language is to
be detected. -/
inductive Catalog.Involves (catalog : Catalog) (start : Grammar) : Grammar → Prop
  | start : Involves catalog start start
  | embedded {grammar inner : Grammar} {place : Nat} {name : String}
      (outer : Involves catalog start grammar)
      (embeds : (grammar.mode place).subLanguage = some (.named name))
      (found : catalog.find? name = some inner) : Involves catalog start inner

namespace ScanContext

/-- Two scans that differ in their catalogs and embedded scans at most, where the texts of all modes that
are scanned with other grammars come out alike. -/
structure Agrees (first second : ScanContext) : Prop where
  grammar : second.grammar = first.grammar
  text : second.text = first.text
  settings : second.settings = first.settings
  embeds : ∀ state subLanguage words, (first.topMode state).subLanguage = some subLanguage →
    second.emitEmbedded subLanguage words state = first.emitEmbedded subLanguage words state

namespace Agrees

variable {first second : ScanContext} (agrees : Agrees first second)

include agrees

theorem alike : Alike first second :=
  ⟨agrees.grammar, agrees.text, by rw [agrees.settings]⟩

theorem flushAlike : FlushAlike first second := by
  refine { agrees.alike with flush_eq := fun state => ?_ }
  unfold flush
  simp only [agrees.alike.topMode_eq]
  cases embedded : (first.topMode { state with buffer := "" }).subLanguage with
  | some subLanguage => exact agrees.embeds _ _ _ embedded
  | none => exact agrees.alike.emitKeywords_eq _ _

theorem meetIllegal_eq (found : Pattern.RuleMatch) (lexeme : String) (state : ScanState) :
    second.meetIllegal found lexeme state = first.meetIllegal found lexeme state := by
  unfold meetIllegal
  simp only [agrees.grammar, agrees.text, agrees.settings, agrees.alike.takeChar_eq,
    agrees.alike.topMode_eq]

theorem process_eq (found : Pattern.RuleMatch) (state : ScanState) :
    second.process found state = first.process found state := by
  unfold process
  simp only [agrees.grammar, agrees.text, agrees.settings, agrees.alike.takeChar_eq,
    agrees.flushAlike.beginMode_eq, agrees.flushAlike.endModes_eq, agrees.meetIllegal_eq]

theorem step_eq (state : ScanState) : second.step state = first.step state := by
  unfold step
  simp only [agrees.grammar, agrees.text, agrees.alike.tooManyRounds_eq, agrees.process_eq]

theorem runRounds_eq (rounds : Nat) (state : ScanState) :
    second.runRounds rounds state = first.runRounds rounds state := by
  induction rounds generalizing state with
  | zero =>
      unfold runRounds
      rw [agrees.grammar]
  | succ rounds ih =>
      unfold runRounds
      simp only [agrees.step_eq, ih]

theorem run_eq (stack : Option ModeStack) : second.run stack = first.run stack := by
  unfold run
  simp only [agrees.text, agrees.settings, agrees.alike.start_eq, agrees.runRounds_eq,
    agrees.flushAlike.takeRest_eq]

theorem result_eq (run : Run) : second.result run = first.result run := by
  unfold result degraded failurePosition
  simp only [agrees.grammar, agrees.text, agrees.settings]

/-- Scans that agree in what comes of each embedded text have the same outcome. -/
theorem scan_eq (stack : Option ModeStack) : second.scan stack = first.scan stack := by
  unfold scan
  rw [agrees.run_eq, agrees.result_eq]

end Agrees

end ScanContext

namespace Catalog

variable {catalog other : Catalog} {start : Grammar}

theorem Involves.trans {middle last : Grammar} (outer : catalog.Involves start middle)
    (inner : catalog.Involves middle last) : catalog.Involves start last := by
  induction inner with
  | start => exact outer
  | embedded _ embeds found ih => exact .embedded ih embeds found

/-- Whatever else two catalogs hold, scans with a grammar have the same outcome in both, if both have the
same grammars under the names that the modes involved have their texts scanned with, and none of these
modes has a language detected. -/
theorem scanNested_isolated
    (finds : ∀ grammar place name, catalog.Involves start grammar →
      (grammar.mode place).subLanguage = some (.named name) → other.find? name = catalog.find? name)
    (named : ∀ grammar place candidates, catalog.Involves start grammar →
      (grammar.mode place).subLanguage ≠ some (.detected candidates))
    (depth : Nat) (text : String) (settings : ScanSettings) (stack : Option ModeStack) :
    other.scanNested depth start text settings stack =
      catalog.scanNested depth start text settings stack := by
  induction depth generalizing start text settings stack with
  | zero => rfl
  | succ depth ih =>
      let first := catalog.nestedContext depth start text settings
      let second := other.nestedContext depth start text settings
      have agrees : ScanContext.Agrees first second := by
        refine ⟨rfl, rfl, rfl, ?_⟩
        intro state subLanguage words embeds
        cases subLanguage with
        | detected candidates => exact absurd embeds (named start _ candidates .start)
        | named name =>
            unfold ScanContext.emitEmbedded
            dsimp only [first, second, nestedContext]
            rw [finds start _ name .start embeds]
            cases found : catalog.find? name with
            | none => rfl
            | some inner =>
                have involved : catalog.Involves start inner := .embedded .start embeds found
                have scanned : ∀ settings stack,
                    other.scanNested depth inner words settings stack =
                      catalog.scanNested depth inner words settings stack := by
                  intro settings stack
                  apply ih
                  · intro grammar place name within
                    exact finds grammar place name (involved.trans within)
                  · intro grammar place candidates within
                    exact named grammar place candidates (involved.trans within)
                simp only [scanned]
                rfl
      exact agrees.scan_eq stack

/-- A grammar without any matches that has its text scanned with another one, if any. -/
def wrapping (name : String) (subLanguage : Option SubLanguage) : Grammar where
  name := name
  modes := #[{ subLanguage }]
  matchers := #[Thunk.mk fun _ => Pattern.RuleSet.compile Pattern.engine {} []]
  definition := {}

/-- The inner grammar alone, and with a grammar beside it that takes part in every detection. -/
theorem scanNested_isolated_wrapping :
    let catalog : Catalog := Catalog.put {} (wrapping "inner" none)
    let other := catalog.put (wrapping "other" (some (.detected none)))
    (other.find? "other").isSome ∧ (catalog.find? "other").isNone ∧
      (other.find? "inner").isSome ∧
      other.scanNested 2 (wrapping "outer" (some (.named "inner"))) "text" {} none =
        catalog.scanNested 2 (wrapping "outer" (some (.named "inner"))) "text" {} none := by
  intro catalog other
  have embedded : ∀ {name place subLanguage inner},
      ((wrapping name subLanguage).mode place).subLanguage = some inner → subLanguage = some inner := by
    intro name place subLanguage inner embeds
    cases place with
    | zero => exact embeds
    | succ place => cases embeds
  have involved : ∀ grammar,
      catalog.Involves (wrapping "outer" (some (.named "inner"))) grammar →
        grammar = wrapping "outer" (some (.named "inner")) ∨ grammar = wrapping "inner" none := by
    intro grammar involves
    induction involves with
    | start => exact .inl rfl
    | embedded _ embeds found ih =>
        rcases ih with rfl | rfl
        · obtain rfl : "inner" = _ := by simpa using embedded embeds
          exact .inr (Option.some.inj found).symm
        · cases embedded embeds
  refine ⟨by decide +kernel, by decide +kernel, by decide +kernel, ?_⟩
  refine scanNested_isolated ?_ ?_ 2 "text" {} none
  · intro grammar place name involves embeds
    rcases involved grammar involves with rfl | rfl
    · obtain rfl : "inner" = name := by simpa using embedded embeds
      rfl
    · cases embedded embeds
  · intro grammar place candidates involves embeds
    rcases involved grammar involves with rfl | rfl
    · cases embedded embeds
    · cases embedded embeds

end Catalog

end Highlight
