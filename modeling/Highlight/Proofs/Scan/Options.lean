import Highlight.Proofs.Outcome
import Highlight.Proofs.Scan.Alike

set_option autoImplicit false

/-! What the options of a scan can change. A step reads them in two places only: where a match repeats
the last one, and where text does not belong. So the runs of two scans that differ in one option are
the same up to the first step that fails in strict terms for the reason which the option is about, and
a scan that does not fail for that reason is the same under both. Embedded scans are given options of
their own and see nothing of those of the scan around them. -/

namespace Highlight

open Outcome

namespace Halt

def isRepetition : Halt → Bool
  | failed (.zeroWidthMatch ..) => true
  | _ => false

def isIllegal : Halt → Bool
  | failed error => error.isIllegal
  | _ => false

end Halt

namespace ScanContext

def withOptions (context : ScanContext) (lenient ignoreIllegal : Bool) : ScanContext :=
  { context with settings := { context.settings with lenient, ignoreIllegal } }

/-- Nothing that begins or ends modes or puts text away reads the options. -/
theorem flushAlike_withOptions (context : ScanContext) (lenient ignoreIllegal lenient' ignoreIllegal' : Bool) :
    FlushAlike (context.withOptions lenient ignoreIllegal)
      (context.withOptions lenient' ignoreIllegal') := by
  have alike : Alike (context.withOptions lenient ignoreIllegal)
      (context.withOptions lenient' ignoreIllegal') := ⟨rfl, rfl, rfl⟩
  refine { alike with flush_eq := fun state => ?_ }
  unfold flush
  simp only [alike.topMode_eq, alike.emitKeywords_eq]
  rfl

section

variable (context : ScanContext) (lenient ignoreIllegal : Bool)

/-! ### One step under two choices of an option -/

/-- Two computations give the same, unless the first one halts for some reason. -/
def SameUnless {α : Type} (reason : Halt → Bool) (first second : Except Halt α) : Prop :=
  (∀ halt, first = .error halt → reason halt = false) → second = first

private theorem SameUnless.of_eq {α : Type} {reason : Halt → Bool} {first second : Except Halt α}
    (same : second = first) : SameUnless reason first second :=
  fun _ => same

private theorem SameUnless.bind {α β : Type} {reason : Halt → Bool} (start : Except Halt α)
    {first second : α → Except Halt β} (same : ∀ value, SameUnless reason (first value) (second value)) :
    SameUnless reason (start >>= first) (start >>= second) := by
  cases start with
  | error halt => exact SameUnless.of_eq rfl
  | ok value => exact same value

private theorem step_sameUnless {first second : ScanContext} (alike : Alike first second)
    {reason : Halt → Bool}
    (processed : ∀ found state, SameUnless reason (first.process found state) (second.process found state))
    (state : ScanState) : SameUnless reason (first.step state) (second.step state) := by
  unfold step
  simp only [alike.grammar, alike.text, alike.tooManyRounds_eq]
  split
  · exact SameUnless.of_eq rfl
  · split
    · exact SameUnless.of_eq rfl
    · split
      · exact SameUnless.of_eq rfl
      · exact processed _ _

/-- A lenient scan takes the step that a strict one takes, unless that fails for a match that repeats
the last one. -/
theorem step_lenient (state : ScanState) :
    SameUnless Halt.isRepetition ((context.withOptions false ignoreIllegal).step state)
      ((context.withOptions true ignoreIllegal).step state) := by
  have alike := flushAlike_withOptions context false ignoreIllegal true ignoreIllegal
  refine step_sameUnless alike.toAlike (fun found state => ?_) state
  unfold process
  refine SameUnless.bind _ fun skipped => SameUnless.bind _ fun lexeme => ?_
  dsimp only
  split
  · exact fun strict => absurd (strict _ rfl) (by simp [Halt.isRepetition])
  · cases found.rule with
    | begins place => exact SameUnless.of_eq (alike.beginMode_eq ..)
    | ends => exact SameUnless.of_eq (alike.endModes_eq ..)
    | illegal => exact SameUnless.of_eq rfl

/-- A scan that takes up text that does not belong takes the step that another one takes, unless that
fails for such text. -/
theorem step_ignoring (state : ScanState) :
    SameUnless Halt.isIllegal ((context.withOptions lenient false).step state)
      ((context.withOptions lenient true).step state) := by
  have alike := flushAlike_withOptions context lenient false lenient true
  refine step_sameUnless alike.toAlike (fun found state => ?_) state
  unfold process
  refine SameUnless.bind _ fun skipped => SameUnless.bind _ fun lexeme => ?_
  dsimp only
  split
  · exact SameUnless.of_eq rfl
  · cases found.rule with
    | begins place => exact SameUnless.of_eq (alike.beginMode_eq ..)
    | ends => exact SameUnless.of_eq (alike.endModes_eq ..)
    | illegal => exact fun legal => absurd (legal _ rfl) (by simp [Halt.isIllegal, ScanError.isIllegal])

/-! ### The runs of two scans -/

variable {context lenient ignoreIllegal}

theorem runRounds_sameUnless {first second : ScanContext} {reason : Halt → Bool}
    (alike : Alike first second)
    (steps : ∀ state, SameUnless reason (first.step state) (second.step state)) (rounds : Nat)
    (state : ScanState)
    (others : ∀ halt, (first.runRounds rounds state).halt = some halt → reason halt = false) :
    second.runRounds rounds state = first.runRounds rounds state := by
  induction rounds generalizing state with
  | zero => simp only [runRounds, alike.grammar]
  | succ rounds ih =>
      unfold runRounds at others ⊢
      have step : second.step state = first.step state := by
        refine steps state fun halt stepped => ?_
        rw [stepped] at others
        exact others halt rfl
      rw [step]
      cases stepped : first.step state with
      | error halt => rfl
      | ok progress =>
          cases progress with
          | advance next =>
              rw [stepped] at others
              exact ih next others
          | finish last => rfl

/-- Two scans that put texts away alike run alike if their steps are alike, unless the first one halts
for the reason for which they may differ. -/
theorem run_sameUnless {first second : ScanContext} {reason : Halt → Bool}
    (alike : FlushAlike first second)
    (steps : ∀ state, SameUnless reason (first.step state) (second.step state))
    (stack : Option ModeStack)
    (others : ∀ halt, (first.run stack).halt = some halt → reason halt = false) :
    second.run stack = first.run stack := by
  unfold run at others ⊢
  simp only [alike.takeRest_eq, alike.start_eq, alike.limits, alike.text]
  rw [runRounds_sameUnless alike.toAlike steps]
  intro halt halted
  simp only [halted] at others
  exact others halt rfl

/-! ### The outcomes of two scans -/

private theorem halt_of_strict_ok {run : Run} {scanned : Scanned}
    (succeeded : (context.withOptions false ignoreIllegal).result run = .ok scanned) :
    run.halt = none := by
  unfold result at succeeded
  cases halted : run.halt with
  | none => rfl
  | some halt =>
      rw [halted] at succeeded
      cases halt <;> cases succeeded

private theorem halt_of_strict_error {run : Run} {halt : Halt}
    (failed : (context.withOptions false ignoreIllegal).result run = .error halt) :
    run.halt = some halt := by
  unfold result at failed
  cases halted : run.halt with
  | none =>
      rw [halted] at failed
      cases failed
  | some cause =>
      rw [halted] at failed
      cases cause <;> exact congrArg some (Except.error.inj failed)

variable (context)

theorem scan_lenient_of_ok {stack : Option ModeStack} {scanned : Scanned}
    (scan : (context.withOptions false ignoreIllegal).scan stack = .ok scanned) :
    (context.withOptions true ignoreIllegal).scan stack = .ok scanned := by
  have ended := halt_of_strict_ok scan
  unfold ScanContext.scan at scan ⊢
  rw [run_sameUnless (flushAlike_withOptions ..) (step_lenient context ignoreIllegal) stack (by simp [ended])]
  unfold result at scan ⊢
  rw [ended] at scan ⊢
  exact scan

/-- What a strict scan fails for, a lenient one degrades for, unless it is a match that repeats the
last one. -/
theorem scan_lenient_of_error {stack : Option ModeStack} {error : ScanError}
    (scan : (context.withOptions false ignoreIllegal).scan stack = .error (.failed error))
    (other : (Halt.failed error).isRepetition = false) :
    ∃ state, ((context.withOptions false ignoreIllegal).run stack).state = state ∧
      (context.withOptions true ignoreIllegal).scan stack = .ok {
        result := context.degraded error state
        stack := if error.isIllegal then none else some state.stack } := by
  have halted := halt_of_strict_error scan
  refine ⟨_, rfl, ?_⟩
  unfold ScanContext.scan
  rw [run_sameUnless (flushAlike_withOptions ..) (step_lenient context ignoreIllegal) stack
    fun halt same => by
      obtain rfl := Option.some.inj (halted.symm.trans same)
      exact other]
  unfold result
  rw [halted]
  rfl

/-- Whether a scan has met no text that does not belong, as its outcome tells. -/
def isLegal : Except Halt Scanned → Bool
  | .ok scanned => !scanned.result.illegal
  | .error halt => !halt.isIllegal

/-- A scan that has met no text that does not belong is the same if such text is taken as it is. -/
theorem scan_ignoring {stack : Option ModeStack}
    (legal : isLegal ((context.withOptions lenient false).scan stack) = true) :
    (context.withOptions lenient true).scan stack =
      (context.withOptions lenient false).scan stack := by
  unfold ScanContext.scan at legal ⊢
  rw [run_sameUnless (flushAlike_withOptions ..) (step_ignoring context lenient) stack]
  · rfl
  · intro halt halted
    unfold result at legal
    rw [halted] at legal
    cases halt with
    | failed error =>
        cases lenient with
        | true => simpa [withOptions, isLegal, degraded, Halt.isIllegal] using legal
        | false => simpa [withOptions, isLegal, Halt.isIllegal] using legal
    | outOfText => rfl
    | tooDeep => rfl

end

end ScanContext

namespace Catalog

def context (catalog : Catalog) (depth : Nat) (grammar : Grammar) (text : String)
    (limits : ScanLimits) (lenient ignoreIllegal : Bool) : ScanContext where
  catalog := catalog
  grammar := grammar
  text := Text.ofString text
  settings := { lenient, ignoreIllegal, limits }
  embedded := catalog.scanNested depth

/-- Whoever relaxes the options of a scan, within the same limits, gets the same as before where they
do not matter: what a strict scan gives, a lenient one gives too; where a strict one fails, but for a
match that repeats the last one, a lenient one gives the bare text with the error of the strict one; and
a scan that has met no text that does not belong is the same if such text is taken as it is. -/
theorem scanNested_relaxed (catalog : Catalog) (depth : Nat) (grammar : Grammar) (text : String)
    (limits : ScanLimits) (stack : Option ModeStack) (lenient ignoreIllegal : Bool) :
    (∀ scanned,
      catalog.scanNested (depth + 1) grammar text ⟨false, ignoreIllegal, limits⟩ stack =
        .ok scanned →
      catalog.scanNested (depth + 1) grammar text ⟨true, ignoreIllegal, limits⟩ stack =
        .ok scanned) ∧
    (∀ error,
      catalog.scanNested (depth + 1) grammar text ⟨false, ignoreIllegal, limits⟩ stack =
        .error (.failed error) →
      (∀ name offset, error ≠ .zeroWidthMatch name offset) →
      ∃ state scanned,
        ((catalog.context depth grammar text limits false ignoreIllegal).run stack).state = state ∧
        catalog.scanNested (depth + 1) grammar text ⟨true, ignoreIllegal, limits⟩ stack =
          .ok scanned ∧
        scanned.result =
          (catalog.context depth grammar text limits true ignoreIllegal).degraded error state ∧
        scanned.result.illegal = error.isIllegal ∧ scanned.result.failed = !error.isIllegal ∧
        scanned.result.diagnostic.map Diagnostic.message = some error.message ∧
        scanned.stack = if error.isIllegal then none else some state.stack) ∧
    (ScanContext.isLegal
        (catalog.scanNested (depth + 1) grammar text ⟨lenient, false, limits⟩ stack) = true →
      catalog.scanNested (depth + 1) grammar text ⟨lenient, true, limits⟩ stack =
        catalog.scanNested (depth + 1) grammar text ⟨lenient, false, limits⟩ stack) := by
  let context := catalog.context depth grammar text limits false ignoreIllegal
  refine ⟨fun scanned scan => ?_, fun error scan other => ?_, fun legal => ?_⟩
  · exact ScanContext.scan_lenient_of_ok context scan
  · have kept : (Halt.failed error).isRepetition = false := by
      cases error with
      | zeroWidthMatch name offset => exact absurd rfl (other name offset)
      | illegalLexeme => rfl
      | endless => rfl
      | badMatcher => rfl
    obtain ⟨state, run, lenientScan⟩ := ScanContext.scan_lenient_of_error context scan kept
    exact ⟨state, _, run, lenientScan, rfl, rfl, rfl, rfl, rfl⟩
  · exact ScanContext.scan_ignoring context legal

def hashless : Grammar where
  name := "hashless"
  modes := #[{ illegal := (Pattern.engine {} "#").toOption }]
  matchers := #[Thunk.mk fun _ => Pattern.RuleSet.compile Pattern.engine {} [(.illegal, "#")]]
  definition := {}

def scanHashless (text : String) (lenient ignoreIllegal : Bool) : Except Halt Scanned :=
  Catalog.scanNested {} 1 hashless text ⟨lenient, ignoreIllegal, {}⟩ none

theorem scanNested_relaxed_hashless :
    (∃ scanned, scanHashless "ab" false false = .ok scanned ∧
      scanHashless "ab" true false = .ok scanned) ∧
    (∃ scanned, scanHashless "a#b" false false =
        .error (.failed (.illegalLexeme "hashless" "#" "<unnamed>" 1)) ∧
      scanHashless "a#b" true false = .ok scanned ∧ scanned.result.illegal = true) ∧
    scanHashless "ab" true true = scanHashless "ab" true false := by
  refine ⟨?_, ?_, ?_⟩
  · have succeeds : (scanHashless "ab" false false).isOk = true := by decide +kernel
    obtain ⟨scanned, scan⟩ := exists_of_isOk succeeds
    exact ⟨scanned, scan, (scanNested_relaxed {} 0 hashless "ab" {} none true false).1 scanned scan⟩
  · have failed : scanHashless "a#b" false false =
        .error (.failed (.illegalLexeme "hashless" "#" "<unnamed>" 1)) := by rfl
    obtain ⟨_, scanned, _, scan, _, illegal, _⟩ :=
      (scanNested_relaxed {} 0 hashless "a#b" {} none true false).2.1 _ failed (by simp)
    exact ⟨scanned, failed, scan, illegal⟩
  · have legal : ScanContext.isLegal (scanHashless "ab" true false) = true := by decide +kernel
    exact (scanNested_relaxed {} 0 hashless "ab" {} none true false).2.2 legal

end Catalog

end Highlight
