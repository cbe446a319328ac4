import CodeAssist.Json.Printer
import CodeAssist.Offline.Completion
import CodeAssist.Offline.Diagnosis
import CodeAssist.Offline.Review
import CodeAssist.Offline.Starter
import CodeAssist.Offline.Tidy
import CodeAssist.Provider.Chain

/-!
The provider that needs no network. It answers every subject, an analysis as the text of a JSON
object with the fields that outcomes are read from.
-/

namespace CodeAssist.Offline

def providerName : String := "local"

def Tidied.toJson (t : Tidied) : Json :=
  .object [("changes", Json.ofTexts t.changes), ("explanation", .text t.explanation),
    ("refactored_code", .text t.code)]

def Advice.toJson (a : Advice) : Json :=
  .object [("diagnosis", .text a.diagnosis), ("explanation", .text a.explanation),
    ("suggested_fix", .text a.suggestedFix)]

def Findings.toJson (f : Findings) : Json :=
  .object [("issues", .array (f.issues.map Issue.toJson)),
    ("suggestions", Json.ofTexts f.suggestions), ("summary", .text f.summary)]

/-- The reply whose text is an object, its keys ascending. -/
def objectReply (object : Json) : Reply :=
  ⟨providerName, object.canonical.render, [], .null⟩

/-- `complete`: the reply to what a prompt is about. -/
def answer : Subject → Reply
  | .completion scene =>
    let found := complete scene.linePrefix scene.knownFunctions scene.knownVariables
    ⟨providerName, "\n".intercalate (found.map (·.insertText)), found, .null⟩
  | .refactor code _ => objectReply (tidy code).toJson
  | .diagnosis errorMessage code => objectReply (diagnose errorMessage code).toJson
  | .generation prompt => objectReply (starter prompt).toJson
  | .review code focus => objectReply (reviewCode code focus).toJson

/-- `LocalAdapter`: the provider that answers at once and never fails. -/
def provider : Provider where
  name := providerName
  isLocal := true
  complete := fun _ call => .answers 0 (.ok (answer call.prompt.subject))
  health := .answers 0 (.ok none)

end CodeAssist.Offline
