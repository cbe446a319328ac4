import CodeAssist.Outcome
import CodeAssist.Provider.Basic
import CodeAssist.Reply.Embedded
import CodeAssist.Reply.Fence
import CodeAssist.Reply.Listing

/-!
Outcomes in a reply.

Each outcome is looked for first in a JSON object with the expected fields, then in a fenced block
and the prose around it. A reply with nothing of use is malformed, and names what it lacks.
-/

namespace CodeAssist.Reply

open Text

/-! ## 1. Fields of an object -/

/-- `string_field`: a string member, without blanks at its end. -/
def textMember? (object : Json) (key : String) : Option String :=
  ((object.get? key).bind Json.asText?).map trimEnd

def textMember (object : Json) (key : String) : String :=
  (textMember? object key).getD ""

/-- `string_list`: the strings of an array member, trimmed, blank ones left out. -/
def textsMember (object : Json) (key : String) : List String :=
  let items := ((object.get? key).bind Json.asArray?).getD []
  ((items.filterMap Json.asText?).map trim).filter fun s => !s.isEmpty

def lacking (r : Reply) (what : String) : ProviderError :=
  .malformed s!"{r.provider}: reply has no {what}"

/-! ## 2. Refactoring -/

/-- `parse_refactor`: the refactoring in a reply about `code`. Blank code is accepted in answer to
blank code only. -/
def refactoring (r : Reply) (language code : String) : Except ProviderError Refactoring :=
  let fromObject : Option Refactoring := do
    let object ← embedded r.text
    let new ← textMember? object "refactored_code"
    if isBlankText new && !isBlankText code then none
    else
      some {
        code := new
        explanation := textMember object "explanation"
        changes := textsMember object "changes"
        provider := r.provider }
  match fromObject with
  | some found => .ok found
  | none =>
    match (codeBlock r.text language).filter fun block => !isBlankText block with
    | none => .error (lacking r "refactored code")
    | some block =>
      let (explanation, changes) := splitList (prose r.text)
      .ok { code := block, explanation, changes, provider := r.provider }

/-! ## 3. Diagnosis -/

/-- The first paragraph of a text and what follows the empty line after it, both trimmed. -/
def paragraphs (cs : List Char) : List Char × List Char :=
  match splitFirst ['\n', '\n'] cs with
  | some (first, rest) => (strip first, strip rest)
  | none => (strip cs, [])

/-- `parse_diagnosis`: the diagnosis in a reply: the first paragraph of its prose, explained by the
rest, its code being the fix. -/
def diagnosis (r : Reply) (language : String) : Except ProviderError Diagnosis :=
  let fromObject : Option Diagnosis := do
    let object ← embedded r.text
    let found ← textMember? object "diagnosis"
    if found.isEmpty then none
    else
      some {
        diagnosis := found
        suggestedFix := textMember object "suggested_fix"
        explanation := textMember object "explanation"
        provider := r.provider }
  match fromObject with
  | some found => .ok found
  | none =>
    let (first, rest) := paragraphs (prose r.text).toList
    if first.isEmpty then .error (lacking r "diagnosis")
    else
      .ok {
        diagnosis := String.ofList first
        suggestedFix := (codeBlock r.text language).getD ""
        explanation := String.ofList rest
        provider := r.provider }

/-! ## 4. Generated files -/

/-- The file that holds the entry point unless another one is named. -/
def defaultMain : String := "main.c"

/-- A part of a path that names an entry: neither empty nor a dot nor two. -/
def isEntryName (part : List Char) : Bool :=
  !part.isEmpty && part != ['.'] && part != ['.', '.']

/-- `is_safe_file_name`: whether a name is a path inside the project: relative, its parts separated
by slashes, none of them leading out. -/
def isSafeName (name : String) : Bool :=
  let cs := name.toList
  !cs.isEmpty && cs.head? != some '/' && !cs.contains '\\' && !cs.contains ':' &&
    (splitAt '/' cs).all isEntryName

/-- The generated file that an item describes, if its name is safe. -/
def generatedFile? (item : Json) : Option GeneratedFile := do
  let name ← textMember? item "name"
  let content ← (item.get? "content").bind Json.asText?
  if isSafeName name then some ⟨name, content, textMember item "purpose"⟩ else none

/-- `pick_main_file`: the main file: the one asked for, or the default, or the first C source. -/
def chooseMain (files : List GeneratedFile) (wanted : Option String) : Option String :=
  let has (name : String) : Bool := files.any fun f => f.name == name
  match wanted.filter has with
  | some name => some name
  | none =>
    if has defaultMain then some defaultMain
    else (files.find? fun f => ".c".toList.isSuffixOf f.name.toList).map (·.name)

/-- `parse_generation`: the generated project in a reply. -/
def generation (r : Reply) (language : String) : Except ProviderError Generation :=
  let listed : Option (Json × List Json) := do
    let object ← embedded r.text
    let items ← (object.get? "files").bind Json.asArray?
    return (object, items)
  let (files, wanted, explanation) : List GeneratedFile × Option String × String :=
    match listed with
    | some (object, items) =>
      (items.filterMap generatedFile?, textMember? object "main_file",
        textMember object "explanation")
    | none =>
      let code := (codeBlock r.text language).filter fun block => !isBlankText block
      ((code.map fun c => ⟨defaultMain, c, "Program entry point"⟩).toList, none, prose r.text)
  if files.isEmpty then .error (lacking r "usable files")
  else .ok { files, mainFile := chooseMain files wanted, explanation, provider := r.provider }

/-! ## 5. Review -/

def graveWords : List String :=
  ["error", "overflow", "undefined", "crash"]

def defectWords : List String :=
  ["bug", "error", "issue", "problem", "unsafe", "overflow", "leak", "undefined", "crash"]

def namesDefect (s : String) : Bool :=
  let low := lowerChars s.toList
  defectWords.any fun w => occurs w.toList low

/-- `severity_for`: how grave a message sounds. -/
def severityOf (message : String) : Severity :=
  let low := lowerChars message.toList
  if graveWords.any fun w => occurs w.toList low then .error
  else if namesDefect (String.ofList low) then .warning
  else .info

/-- The severity that a label names; any other label is an information. -/
def severityOfLabel (label : String) : Severity :=
  let name := lowerAscii (trim label)
  if name == "error" then .error else if name == "warning" then .warning else .info

/-- `review_issue`: the issue that an item describes: a string, or an object with a message. -/
def issue? (item : Json) : Option Issue :=
  match (item.asText?.map trim).filter fun m => !m.isEmpty with
  | some message => some ⟨message, none, severityOf message⟩
  | none => do
    let message ← (textMember? item "message").filter fun m => !isBlankText m
    let severity := match (item.get? "severity").bind Json.asText? with
      | some label => severityOfLabel label
      | none => severityOf message
    let line := ((item.get? "line").bind Json.asNat?).filter (0 < ·)
    return { message, line, severity }

/-- `parse_review`: the review in a reply. In prose, list items that name a defect are issues, the
others are suggestions, and the rest is the summary. -/
def review (r : Reply) : Except ProviderError Review :=
  let fromObject : Option Review := do
    let object ← embedded r.text
    let summary := textMember object "summary"
    let items := ((object.get? "issues").bind Json.asArray?).getD []
    let issues := items.filterMap issue?
    let suggestions := textsMember object "suggestions"
    if summary.isEmpty && issues.isEmpty && suggestions.isEmpty then none
    else some { summary, issues, suggestions, provider := r.provider }
  match fromObject with
  | some found => .ok found
  | none =>
    let (summary, items) := splitList (prose r.text)
    if summary.isEmpty && items.isEmpty then .error (lacking r "review")
    else
      .ok {
        summary
        issues := (items.filter namesDefect).map fun m => ⟨m, none, severityOf m⟩
        suggestions := items.filter fun m => !namesDefect m
        provider := r.provider }

end CodeAssist.Reply
