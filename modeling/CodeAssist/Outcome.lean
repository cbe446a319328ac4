import CodeAssist.Json.Wire

/-!
What the analysing actions give back: a refactoring, a diagnosis, generated files, a review. Each
names the provider that produced it.
-/

namespace CodeAssist

/-! ## 1. Refactoring -/

/-- `RefactorOutcome`: code in another form, to the same effect. -/
structure Refactoring where
  code : String
  explanation : String
  changes : List String
  provider : String
  deriving DecidableEq, Repr, Inhabited

namespace Refactoring

def toJson (r : Refactoring) : Json :=
  .object [("refactored_code", .text r.code), ("explanation", .text r.explanation),
    ("changes", Json.ofTexts r.changes), ("provider", .text r.provider)]

def ofJson? (j : Json) : Option Refactoring := do
  let [code, explanation, changes, provider] ←
    j.slots? ["refactored_code", "explanation", "changes", "provider"] | none
  return {
    code := ← code.required Json.asText?
    explanation := ← explanation.required Json.asText?
    changes := ← changes.default [] Json.asTexts?
    provider := ← provider.required Json.asText? }

end Refactoring

/-! ## 2. Diagnosis -/

/-- `DiagnosisOutcome`: the cause of a compiler error and how to mend it. -/
structure Diagnosis where
  diagnosis : String
  suggestedFix : String
  explanation : String
  provider : String
  deriving DecidableEq, Repr, Inhabited

namespace Diagnosis

def toJson (d : Diagnosis) : Json :=
  .object [("diagnosis", .text d.diagnosis), ("suggested_fix", .text d.suggestedFix),
    ("explanation", .text d.explanation), ("provider", .text d.provider)]

def ofJson? (j : Json) : Option Diagnosis := do
  let [diagnosis, suggestedFix, explanation, provider] ←
    j.slots? ["diagnosis", "suggested_fix", "explanation", "provider"] | none
  return {
    diagnosis := ← diagnosis.required Json.asText?
    suggestedFix := ← suggestedFix.required Json.asText?
    explanation := ← explanation.required Json.asText?
    provider := ← provider.required Json.asText? }

end Diagnosis

/-! ## 3. Generated files -/

structure GeneratedFile where
  name : String
  content : String
  purpose : String
  deriving DecidableEq, Repr, Inhabited

namespace GeneratedFile

def toJson (f : GeneratedFile) : Json :=
  .object [("name", .text f.name), ("content", .text f.content), ("purpose", .text f.purpose)]

def ofJson? (j : Json) : Option GeneratedFile := do
  let [name, content, purpose] ← j.slots? ["name", "content", "purpose"] | none
  return {
    name := ← name.required Json.asText?
    content := ← content.required Json.asText?
    purpose := ← purpose.default "" Json.asText? }

end GeneratedFile

/-- `GenerationOutcome`: a project in files. -/
structure Generation where
  files : List GeneratedFile
  /-- The file with the entry point, when there is one. -/
  mainFile : Option String
  explanation : String
  provider : String
  deriving DecidableEq, Repr, Inhabited

namespace Generation

/-- The JSON form of a generated project; an unknown main file is left out. -/
def toJson (g : Generation) : Json :=
  .object <|
    ("files", .array (g.files.map GeneratedFile.toJson)) ::
      (match g.mainFile with
        | some name => [("main_file", Json.text name)]
        | none => []) ++
      [("explanation", .text g.explanation), ("provider", .text g.provider)]

def ofJson? (j : Json) : Option Generation := do
  let [files, mainFile, explanation, provider] ←
    j.slots? ["files", "main_file", "explanation", "provider"] | none
  return {
    files := ← files.required (Json.asList? GeneratedFile.ofJson?)
    mainFile := ← mainFile.optional Json.asText?
    explanation := ← explanation.required Json.asText?
    provider := ← provider.required Json.asText? }

end Generation

/-! ## 4. Review -/

inductive Severity where
  | info
  | warning
  | error
  deriving DecidableEq, Repr, Inhabited

namespace Severity

def name : Severity → String
  | info => "info"
  | warning => "warning"
  | error => "error"

def ofName? (s : String) : Option Severity :=
  [info, warning, error].find? fun v => v.name == s

def ofJson? (j : Json) : Option Severity :=
  j.asName?.bind ofName?

end Severity

/-- `ReviewIssue`: something a review complains about. -/
structure Issue where
  message : String
  /-- The line of the code, counted from one, when it is known. -/
  line : Option Nat
  severity : Severity
  deriving DecidableEq, Repr, Inhabited

namespace Issue

/-- The JSON form of an issue; an unknown line is left out. -/
def toJson (i : Issue) : Json :=
  .object <|
    ("message", .text i.message) ::
      (match i.line with
        | some n => [("line", Json.ofNat n)]
        | none => []) ++
      [("severity", .text i.severity.name)]

def ofJson? (j : Json) : Option Issue := do
  let [message, line, severity] ← j.slots? ["message", "line", "severity"] | none
  return {
    message := ← message.required Json.asText?
    line := ← line.optional Json.asNat?
    severity := ← severity.required Severity.ofJson? }

end Issue

/-- `ReviewOutcome`: what a review says. -/
structure Review where
  summary : String
  issues : List Issue
  suggestions : List String
  provider : String
  deriving DecidableEq, Repr, Inhabited

namespace Review

def toJson (r : Review) : Json :=
  .object [("summary", .text r.summary), ("issues", .array (r.issues.map Issue.toJson)),
    ("suggestions", Json.ofTexts r.suggestions), ("provider", .text r.provider)]

def ofJson? (j : Json) : Option Review := do
  let [summary, issues, suggestions, provider] ←
    j.slots? ["summary", "issues", "suggestions", "provider"] | none
  return {
    summary := ← summary.required Json.asText?
    issues := ← issues.default [] (Json.asList? Issue.ofJson?)
    suggestions := ← suggestions.default [] Json.asTexts?
    provider := ← provider.required Json.asText? }

end Review

end CodeAssist
