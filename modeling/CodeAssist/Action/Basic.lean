import CodeAssist.Json.Wire

/-!
Actions an editor can ask for.

A request is what the editor sends; a subject is what a provider works on, with the surroundings
of the cursor filled in.
-/

namespace CodeAssist

open Json (ofNat ofTexts ofWord)

/-! ## 1. Kinds of action -/

/-- `ActionKind`: the kind of help that is asked for. -/
inductive Action where
  | completion
  | refactor
  | diagnosis
  | generation
  | review
  deriving DecidableEq, Repr, Inhabited

namespace Action

def all : List Action :=
  [completion, refactor, diagnosis, generation, review]

def name : Action → String
  | completion => "completion"
  | refactor => "refactor"
  | diagnosis => "diagnosis"
  | generation => "generation"
  | review => "review"

def ofName? (s : String) : Option Action :=
  all.find? fun a => a.name == s

def toJson (a : Action) : Json :=
  .text a.name

def ofJson? (j : Json) : Option Action :=
  j.asName?.bind ofName?

end Action

/-! ## 2. Cursors -/

/-- `CursorPosition`: line and column, both counted from one, as 64-bit words. -/
structure Cursor where
  line : UInt64
  column : UInt64
  deriving DecidableEq, Repr, Inhabited

namespace Cursor

/-- The cursor of an editor that has not reported one. -/
def start : Cursor := ⟨0, 0⟩

def toJson (c : Cursor) : Json :=
  .object [("line", ofWord c.line), ("column", ofWord c.column)]

def ofJson? (j : Json) : Option Cursor := do
  let [line, column] ← j.slots? ["line", "column"] | none
  return { line := ← line.required Json.asWord?, column := ← column.required Json.asWord? }

end Cursor

/-! ## 3. Requests -/

/-- `ActionRequest`: what an editor asks for. -/
inductive Request where
  | completion (cursor : Cursor) (selection : String)
  | refactor (code intent : String)
  | diagnosis (errorMessage code : String)
  | generation (prompt : String)
  | review (code : String) (focus : List String)
  deriving DecidableEq, Repr, Inhabited

namespace Request

def action : Request → Action
  | completion .. => .completion
  | refactor .. => .refactor
  | diagnosis .. => .diagnosis
  | generation .. => .generation
  | review .. => .review

def fields : Request → List (String × Json)
  | completion cursor selection => [("cursor", cursor.toJson), ("selection", .text selection)]
  | refactor code intent => [("code", .text code), ("intent", .text intent)]
  | diagnosis errorMessage code =>
    [("error_message", .text errorMessage), ("code", .text code)]
  | generation prompt => [("prompt", .text prompt)]
  | review code focus => [("code", .text code), ("focus", ofTexts focus)]

/-- The JSON form of a request, its kind under `action`. -/
def toJson (r : Request) : Json :=
  .object (("action", r.action.toJson) :: r.fields)

def ofRecord? (action : Action) (j : Json) : Option Request :=
  match action with
  | .completion => do
    let [cursor, selection] ← j.slots? ["cursor", "selection"] | none
    return completion (← cursor.required Cursor.ofJson?) (← selection.default "" Json.asText?)
  | .refactor => do
    let [code, intent] ← j.slots? ["code", "intent"] | none
    return refactor (← code.required Json.asText?) (← intent.default "" Json.asText?)
  | .diagnosis => do
    let [errorMessage, code] ← j.slots? ["error_message", "code"] | none
    return diagnosis (← errorMessage.required Json.asText?) (← code.required Json.asText?)
  | .generation => do
    let [prompt] ← j.slots? ["prompt"] | none
    return generation (← prompt.required Json.asText?)
  | .review => do
    let [code, focus] ← j.slots? ["code", "focus"] | none
    return review (← code.required Json.asText?) (← focus.default [] Json.asTexts?)

def ofJson? (j : Json) : Option Request := do
  let (tag, record) ← j.tagged? "action"
  let action ← Action.ofName? tag
  ofRecord? action record

end Request

/-! ## 4. Subjects -/

/-- What a completion works on: where the cursor is and what the project offers there. -/
structure Scene where
  /-- Path of the open file. -/
  file : Option String
  cursor : Cursor
  selection : String
  /-- Text of the cursor line up to the cursor. -/
  linePrefix : String
  /-- Lines around the cursor. -/
  surrounding : String
  /-- Names of the project's functions, those of the open file first. -/
  knownFunctions : List String
  /-- Names of the project's variables, those of the open file first. -/
  knownVariables : List String
  deriving DecidableEq, Repr, Inhabited

/-- `ActionSubject`: what a prompt is about, for providers that read no prompts. -/
inductive Subject where
  | completion (scene : Scene)
  | refactor (code intent : String)
  | diagnosis (errorMessage code : String)
  | generation (prompt : String)
  | review (code : String) (focus : List String)
  deriving DecidableEq, Repr, Inhabited

namespace Subject

def action : Subject → Action
  | completion _ => .completion
  | refactor .. => .refactor
  | diagnosis .. => .diagnosis
  | generation .. => .generation
  | review .. => .review

/-- The fields of a scene; a file that is not open is left out. -/
def sceneFields (s : Scene) : List (String × Json) :=
  (match s.file with
    | some path => [("file", Json.text path)]
    | none => []) ++
  [("cursor", s.cursor.toJson), ("selection", .text s.selection),
   ("line_prefix", .text s.linePrefix), ("surrounding", .text s.surrounding),
   ("known_functions", ofTexts s.knownFunctions), ("known_variables", ofTexts s.knownVariables)]

def fields : Subject → List (String × Json)
  | completion scene => sceneFields scene
  | refactor code intent => [("code", .text code), ("intent", .text intent)]
  | diagnosis errorMessage code =>
    [("error_message", .text errorMessage), ("code", .text code)]
  | generation prompt => [("prompt", .text prompt)]
  | review code focus => [("code", .text code), ("focus", ofTexts focus)]

/-- The JSON form of a subject, its kind under `action`. -/
def toJson (s : Subject) : Json :=
  .object (("action", s.action.toJson) :: s.fields)

def sceneOfRecord? (j : Json) : Option Scene := do
  let [file, cursor, selection, linePrefix, surrounding, functions, vars] ←
    j.slots? ["file", "cursor", "selection", "line_prefix", "surrounding", "known_functions",
      "known_variables"] | none
  return {
    file := ← file.optional Json.asText?
    cursor := ← cursor.required Cursor.ofJson?
    selection := ← selection.default "" Json.asText?
    linePrefix := ← linePrefix.default "" Json.asText?
    surrounding := ← surrounding.default "" Json.asText?
    knownFunctions := ← functions.default [] Json.asTexts?
    knownVariables := ← vars.default [] Json.asTexts? }

def ofRequest? : Request → Option Subject
  | .completion .. => none
  | .refactor code intent => some (refactor code intent)
  | .diagnosis errorMessage code => some (diagnosis errorMessage code)
  | .generation prompt => some (generation prompt)
  | .review code focus => some (review code focus)

def ofJson? (j : Json) : Option Subject := do
  let (tag, record) ← j.tagged? "action"
  let action ← Action.ofName? tag
  match action with
  | .completion => (sceneOfRecord? record).map completion
  | other => (Request.ofRecord? other record).bind ofRequest?

end Subject

end CodeAssist
