import OnlinetLabs.Lib.Dict
import OnlinetLabs.Lib.Generator
import OnlinetLabs.Lib.Json

/-!
# The validation runner

A spec is run twice over: `run_validation` streams it to the learner and leaves the record of the
run, `evaluate_spec` observes it in the background. What the handler of a check does is an outcome
given for each step and check by their places, so that an outcome may differ from one run to the
next. Message catalogues and `str.format` are a parameter.
-/

namespace OnlinetLabs.Validation

open Json (Fields)

/-! ### Localization -/

inductive Locale where
  | en
  | ru
deriving Repr, DecidableEq

def Locale.tag : Locale → String
  | .en => "en"
  | .ru => "ru"

def defaultLocale : Locale := .en

/-- A plain string, a map of locales, or nothing. -/
inductive Localized where
  | missing
  | plain (text : String)
  | map (entries : Dict String String)
deriving DecidableEq

def resolveLocalized (locale : Locale) : Localized → String
  | .missing => ""
  | .plain text => text
  | .map entries =>
      let candidates := [locale, defaultLocale].filterMap fun candidate =>
          entries.get? candidate.tag
      ((candidates ++ entries.entries.map (·.2)).find? fun text => text != "").getD ""

structure Catalogs where
  message : Locale → String → Option String
  /-- `message.format(**params)`, or `none` where it raises. -/
  format : String → Fields → Option String

/-- `t`, or `none` where it raises. -/
def Catalogs.t (catalogs : Catalogs) (key : String) (locale : Locale) (params : Fields) :
    Option String :=
  ((catalogs.message locale key).orElse fun _ => catalogs.message defaultLocale key).bind
    fun message =>
    catalogs.format message params

/-! ### Specs and outcomes -/

/-- A check of a spec. The keys beside `kind` and `expect` are its params. -/
structure Check where
  kind : String := ""
  params : Fields := []
  expect : Option Fields := none

structure Step where
  id : String := ""
  title : Localized := .missing
  checks : List Check := []

structure Spec where
  steps : List Step := []

structure CheckResult where
  ok : Bool
  expected : Fields := []
  actual : Fields := []
  log : String := ""
  observed : Bool := true
  errorKey : String := ""
  errorParams : Fields := []

/-- What `_eval_check` meets: a kind without a handler, or what the handler does. -/
inductive Outcome where
  | unknown
  | returns (result : CheckResult)
  | raises (message : String)

abbrev Outcomes := Nat → Nat → Outcome

/-- `check.get("expect") or {}`. -/
def Check.expected (check : Check) : Fields := check.expect.getD []

def evalCheck (check : Check) : Outcome → CheckResult
  | .unknown => {
      ok := false
      expected := check.expected
      actual := [("error", .str ("unknown check kind: " ++ check.kind))] }
  | .returns result => result
  | .raises message =>
      { ok := false, expected := check.expected, actual := [("error", .str message)] }

/-! ### Records -/

/-- `observed` is the key of that name, if the record has it. -/
structure CheckRecord where
  kind : String
  params : Fields
  ok : Bool
  expected : Fields
  actual : Fields
  observed : Option Bool := none

structure StepRecord where
  id : String
  title : String
  ok : Bool
  checks : List CheckRecord

/-- The text of an unobserved outcome, or `none` where `t` raises. -/
def renderError (catalogs : Catalogs) (locale : Locale) (result : CheckResult) : Option String :=
  if result.errorKey = "" then some "" else catalogs.t result.errorKey locale result.errorParams

/-- `_check_record`, or `none` where it raises. -/
def checkRecord (catalogs : Catalogs) (locale : Locale) (check : Check) (result : CheckResult) :
    Option CheckRecord :=
  let record : CheckRecord := {
    kind := check.kind
    params := check.params
    ok := result.ok
    expected := result.expected
    actual := result.actual }
  if result.observed then some record
  else (renderError catalogs locale result).map fun error => { record with
    observed := some false
    actual := Dict.assign "error" (.str error) record.actual }

/-! ### evaluate_spec -/

section Evaluate

variable (catalogs : Catalogs) (locale : Locale)

def evaluateChecks (outcome : Nat → Outcome) : Nat → List Check → List CheckRecord → Bool →
    Option (List CheckRecord × Bool)
  | _, [], results, stepOk => some (results, stepOk)
  | idx, check :: checks, results, stepOk => do
      let result := evalCheck check (outcome idx)
      let record ← checkRecord catalogs locale check result
      evaluateChecks outcome (idx + 1) checks (results ++ [record]) (stepOk && result.ok)

def evaluateSteps (outcomes : Outcomes) :
    Nat → List Step → List StepRecord → Option (List StepRecord)
  | _, [], accumulated => some accumulated
  | n, step :: steps, accumulated => do
      let title := resolveLocalized locale step.title
      let (checks, ok) ← evaluateChecks catalogs locale (outcomes n) 0 step.checks [] true
      evaluateSteps outcomes (n + 1) steps (accumulated ++ [{ id := step.id, title, ok, checks }])

/-- `evaluate_spec`, or `none` where it raises. -/
def evaluateSpec (outcomes : Outcomes) (spec : Spec) : Option (List StepRecord) :=
  evaluateSteps catalogs locale outcomes 0 spec.steps []

end Evaluate

/-! ### run_validation -/

structure Event where
  type : String
  data : Fields := []

/-- `str.splitlines`: the characters that end a line. -/
def isLineBoundary (c : Char) : Bool :=
  let n := c.toNat
  decide (10 ≤ n ∧ n ≤ 13) || decide (28 ≤ n ∧ n ≤ 30) || n == 0x85 || n == 0x2028 || n == 0x2029

/-- `str.splitlines`, of a text the current line of which has begun with `line`. -/
def splitLinesFrom (line : List Char) : List Char → List (List Char)
  | [] => if line.isEmpty then [] else [line]
  | '\r' :: '\n' :: rest => line :: splitLinesFrom [] rest
  | c :: rest =>
      if isLineBoundary c then line :: splitLinesFrom [] rest else splitLinesFrom (line ++ [c]) rest

def splitlines (text : String) : List String := (splitLinesFrom [] text.toList).map String.ofList

def runStart (totalSteps : Nat) : Event := ⟨"run.start", [("totalSteps", .ofNat totalSteps)]⟩

def stepStart (step : Step) (title : String) : Event :=
  ⟨"step.start",
    [("stepId", .str step.id), ("title", .str title), ("totalChecks", .ofNat step.checks.length)]⟩

def checkStart (stepId : String) (idx : Nat) (check : Check) : Event :=
  ⟨"check.start", [("stepId", .str stepId), ("checkIndex", .ofNat idx), ("kind", .str check.kind),
    ("params", .obj check.params)]⟩

def checkLog (stepId : String) (idx : Nat) (line : String) : Event :=
  ⟨"check.log", [("stepId", .str stepId), ("checkIndex", .ofNat idx), ("line", .str line)]⟩

def checkResult (stepId : String) (idx : Nat) (record : CheckRecord) (observed : Bool) : Event :=
  ⟨"check.result", [("stepId", .str stepId), ("checkIndex", .ofNat idx), ("ok", .bool record.ok),
    ("expected", .obj record.expected), ("actual", .obj record.actual)]
      ++ if observed then [] else [("observed", .bool false)]⟩

def stepResult (record : StepRecord) : Event :=
  ⟨"step.result",
    [("stepId", .str record.id), ("title", .str record.title), ("ok", .bool record.ok)]⟩

def runFinish (ok : Bool) : Event := ⟨"run.finish", [("ok", .bool ok)]⟩

/-- An event, and the steps accumulated when it is yielded. -/
abbrev Yielded := Event × List StepRecord

section Run

variable (catalogs : Catalogs) (locale : Locale) (accumulated : List StepRecord)

def runChecks (stepId : String) (outcome : Nat → Outcome) :
    Nat → List Check → List CheckRecord → Bool →
    Generator Yielded (List CheckRecord × Bool)
  | _, [], results, stepOk => pure (results, stepOk)
  | idx, check :: checks, results, stepOk => do
      Generator.yield (checkStart stepId idx check, accumulated)
      let result := evalCheck check (outcome idx)
      Generator.yieldAll ((splitlines result.log).map fun line =>
        (checkLog stepId idx line, accumulated))
      let record ← Generator.ofOption (checkRecord catalogs locale check result)
      Generator.yield (checkResult stepId idx record result.observed, accumulated)
      -- A dict of its own, beside the record of the event.
      let appended : CheckRecord := {
        kind := check.kind
        params := check.params
        ok := result.ok
        expected := result.expected
        actual := record.actual }
      runChecks stepId outcome (idx + 1) checks (results ++ [appended]) (stepOk && result.ok)

def runStep (outcome : Nat → Outcome) (step : Step) : Generator Yielded StepRecord := do
  let title := resolveLocalized locale step.title
  Generator.yield (stepStart step title, accumulated)
  let (checks, ok) ← runChecks catalogs locale accumulated step.id outcome 0 step.checks [] true
  let record : StepRecord := { id := step.id, title, ok, checks }
  Generator.yield (stepResult record, accumulated ++ [record])
  return record

def runSteps (outcomes : Outcomes) : Nat → List Step → List StepRecord →
    Generator Yielded (List StepRecord)
  | _, [], accumulated => pure accumulated
  | n, step :: steps, accumulated => do
      let record ← runStep catalogs locale accumulated (outcomes n) step
      runSteps outcomes (n + 1) steps (accumulated ++ [record])

end Run

/-- `all(s["ok"] for s in accumulated_steps) if accumulated_steps else True`. -/
def overallOk (accumulated : List StepRecord) : Bool :=
  if accumulated.isEmpty then true else accumulated.all (·.ok)

def runValidation (catalogs : Catalogs) (locale : Locale) (outcomes : Outcomes) (spec : Spec) :
    Generator Yielded PUnit := do
  Generator.yield (runStart spec.steps.length, [])
  let accumulated ← runSteps catalogs locale outcomes 0 spec.steps []
  Generator.yield (runFinish (overallOk accumulated), accumulated)

end OnlinetLabs.Validation
