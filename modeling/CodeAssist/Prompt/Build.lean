import CodeAssist.Memory.Basic
import CodeAssist.Prompt.Sections
import CodeAssist.Prompt.Template
import CodeAssist.Provider.Basic

/-!
Prompts for requests.

A prompt is a function of the request, the view of the project and three settings: the language,
how many lines around the cursor are shown, and how many characters there may be in all. It is
total but for one sum: where the number of the last line around the cursor is no 64-bit word,
building the prompt panics.
-/

namespace CodeAssist.Prompt

open Text

/-! ## 1. Settings -/

/-- `ContextConfig`: the settings of prompts. -/
structure Config where
  /-- The name of the language, as instructions and fences use it. -/
  language : String
  /-- Lines shown on each side of the cursor. -/
  windowLines : UInt64
  /-- Characters in instructions and text together. -/
  budgetChars : UInt64
  deriving DecidableEq, Repr, Inhabited

namespace Config

def standard : Config := ⟨"C", 10, 6000⟩

def toJson (c : Config) : Json :=
  .object [("language", .text c.language), ("window_lines", .ofWord c.windowLines),
    ("budget_chars", .ofWord c.budgetChars)]

def ofJson? (j : Json) : Option Config := do
  let [language, windowLines, budgetChars] ←
    j.slots? ["language", "window_lines", "budget_chars"] | none
  return {
    language := ← language.required Json.asText?
    windowLines := ← windowLines.required Json.asWord?
    budgetChars := ← budgetChars.required Json.asWord? }

end Config

/-! ## 2. Panics -/

/-- How building a prompt stops without a prompt: a sum of words is no word. -/
inductive Panic where
  | overflow
  deriving DecidableEq, Repr, Inhabited

def Panic.message : Panic → String
  | overflow => "attempt to add with overflow"

/-- The sum of two words, checked. -/
def checkedAdd (a b : UInt64) : Except Panic UInt64 :=
  if a.toNat + b.toNat < UInt64.size then .ok (a + b) else .error .overflow

/-! ## 3. Header and body -/

/-- The header: project, file, action, cursor and includes. -/
def header (action : Action) (cursor : Cursor) (view : View) : String :=
  let file := (view.openFile.map (·.path)).getD "(no file open)"
  let place :=
    if action == .completion || view.openFile.isSome then
      s!"\nCursor: line {cursor.line.toNat}, column {cursor.column.toNat}"
    else ""
  let includes :=
    if view.includes.isEmpty then "" else "\nIncludes: " ++ ", ".intercalate view.includes
  s!"Project: {view.project.name}\nFile: {file}\nAction: {action.name}" ++ place ++ includes

/-- The cursor line of the open file. Line zero counts as the first. -/
def cursorLineText (view : View) (cursor : Cursor) : Option (List Char) := do
  let file ← view.openFile
  (lines file.content.toList)[cursor.line.toNat - 1]?

/-- `line_prefix`: the cursor line up to the cursor. -/
def beforeCursor (view : View) (cursor : Cursor) : String :=
  match cursorLineText view cursor with
  | some line => String.ofList (line.take (cursor.column.toNat - 1))
  | none => ""

def fenced (tag code : String) : String :=
  s!"```{tag}\n{code}\n```"

def body (config : Config) (request : Request) (cursor : Cursor) (view : View) : String :=
  let tag := fenceTag config.language
  match request with
  | .completion _ selection =>
    "Complete the code at the cursor.\nCurrent line: " ++ beforeCursor view cursor ++
      (if selection.isEmpty then "" else s!"\nSelected text:\n{selection}")
  | .refactor code intent =>
    let goal := if isBlankText intent then "improve readability and structure" else trim intent
    s!"Refactor this code ({goal}):\n" ++ fenced tag code
  | .diagnosis errorMessage code =>
    s!"Compiler error:\n{errorMessage}\n\nCode:\n" ++ fenced tag code
  | .generation prompt => s!"Generate a project for:\n{prompt}"
  | .review code focus =>
    let areas := (focus.map trim).filter fun area => !area.isEmpty
    let about := if areas.isEmpty then "" else ", focusing on " ++ ", ".intercalate areas
    "Review this code" ++ about ++ ":\n" ++ fenced tag code

/-! ## 4. Optional sections -/

/-- `window`: the lines of the open file within `windowLines` of the cursor. The first one is found
by a subtraction that stops at zero, the last one by an addition that may overflow. -/
def window (config : Config) (cursor : Cursor) (view : View) : Except Panic (List NumberedLine) :=
  match view.openFile with
  | none => .ok []
  | some file => do
    let middle := max cursor.line 1
    let first := max (middle.toNat - config.windowLines.toNat) 1
    let last ← checkedAdd middle config.windowLines
    let numbered := (lines file.content.toList).zipIdx.map fun (text, index) => (index + 1, text)
    return numbered.filter fun (line, _) => first ≤ line && line ≤ last.toNat

def signature (path : String) (f : FunctionFact) : String :=
  s!"{f.returnType} {f.name}() at {path}:{f.line}"

/-- The entries of the index as signatures are listed: that of the open file, then the others. -/
def signedEntries (view : View) : List (String × Facts) :=
  let current := view.openFile.map (·.path)
  (current.bind fun path => view.index.entries.find? (·.1 == path)).toList ++
    view.index.entries.filter fun (path, _) => some path != current

/-- `signatures`: the signatures of the project's functions, those of the open file first. -/
def signatures (view : View) : List String :=
  (signedEntries view).flatMap fun (path, facts) => facts.functions.map (signature path)

/-- How many characters of a text an excerpt shows. -/
def excerptLength : Nat := 80

def excerpt (text : String) : String :=
  let flat := joinWith [' '] (words text.toList)
  if flat.length ≤ excerptLength then String.ofList flat
  else String.ofList (flat.take excerptLength) ++ "..."

/-- `interaction_line`: an exchange in a prompt. -/
def exchangeLine (e : Exchange) : String :=
  s!"[{e.action.name}] {excerpt e.prompt} => {excerpt e.response}"

/-! ## 5. The prompt -/

def cursorOf (request : Request) (view : View) : Cursor :=
  match request with
  | .completion cursor _ => cursor
  | _ => view.editing.cursor

/-- The sections of a prompt, with the lines around the cursor. -/
def sections (config : Config) (request : Request) (view : View) (nearby : List NumberedLine) :
    Sections :=
  let cursor := cursorOf request view
  { header := (header request.action cursor view).toList
    body := (body config request cursor view).toList
    nearby
    nearbyPath := ((view.openFile.map (·.path)).getD "").toList
    cursorLine := cursor.line.toNat
    signatures := (signatures view).map String.toList
    exchanges := view.recentExchanges.map fun e => (exchangeLine e).toList }

/-- `subject`: the subject of a request. A completion sees the lines that the prompt shows. -/
def subjectOf (request : Request) (view : View) (nearby : List NumberedLine) : Subject :=
  match request with
  | .completion cursor selection =>
    .completion {
      file := view.openFile.map (·.path)
      cursor
      selection
      linePrefix := beforeCursor view cursor
      surrounding := String.ofList (joinWith ['\n'] (nearby.map (·.2)))
      knownFunctions := view.knownFunctions
      knownVariables := view.knownVariables }
  | .refactor code intent => .refactor code intent
  | .diagnosis errorMessage code => .diagnosis errorMessage code
  | .generation prompt => .generation prompt
  | .review code focus => .review code focus

def budget (config : Config) (action : Action) : Nat :=
  config.budgetChars.toNat - (instructions action config.language).length

/-- The prompt that shows the lines around the cursor as far as they fit. -/
def promptOf (config : Config) (request : Request) (view : View) (nearby : List NumberedLine) :
    Prompt :=
  let action := request.action
  let left := budget config action
  let fitted := (sections config request view nearby).fit left
  { action
    system := instructions action config.language
    user := String.ofList (fitted.renderWithin left)
    subject := subjectOf request view fitted.nearby }

/-- `build`: the prompt for a request, unless finding the lines around the cursor panics. -/
def build (config : Config) (request : Request) (view : View) : Except Panic Prompt :=
  (window config (cursorOf request view) view).map (promptOf config request view)

end CodeAssist.Prompt
