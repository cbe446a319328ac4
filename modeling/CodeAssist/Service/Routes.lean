import CodeAssist.Service.Message
import CodeAssist.Session.Request
import CodeAssist.Session.Upkeep

/-!
The service that editors talk to: which message does what.
-/

namespace CodeAssist.Service

open Json.Reader Session Text

/-! ## 1. Endpoints -/

inductive Endpoint where
  | healthz
  | getFile
  | putFile
  | getContext
  | patchContext
  | completions
  | refactor
  | diagnosis
  | generation
  | review
  | providerHealth
  | search
  | exportMemory
  | importMemory
  | clearMemory
  | stats
  deriving DecidableEq, Repr

/-- `router`: the methods of a path, with what they do. -/
def routes : String → Option (List (String × Endpoint))
  | "/healthz" => some [("GET", .healthz)]
  | "/files" => some [("GET", .getFile), ("PUT", .putFile)]
  | "/context" => some [("GET", .getContext), ("PATCH", .patchContext)]
  | "/completions" => some [("POST", .completions)]
  | "/refactor" => some [("POST", .refactor)]
  | "/diagnosis" => some [("POST", .diagnosis)]
  | "/generation" => some [("POST", .generation)]
  | "/review" => some [("POST", .review)]
  | "/providers/health" => some [("GET", .providerHealth)]
  | "/search" => some [("GET", .search)]
  | "/memory" => some [("GET", .exportMemory), ("POST", .importMemory), ("DELETE", .clearMemory)]
  | "/stats" => some [("GET", .stats)]
  | _ => none

/-! ## 2. Bodies -/

def fileUpdateReader : Json.Reader :=
  record [required "path" text, required "content" text]

def fileUpdate? (j : Json) : Option (String × String) := do
  let [path, content] ← j.slots? ["path", "content"] | none
  return (← path.required Json.asText?, ← content.required Json.asText?)

def completionReader : Json.Reader :=
  record [required "cursor" Cursor.reader, optional "selection" text]

def completion? (j : Json) : Option Request := do
  let [cursor, selection] ← j.slots? ["cursor", "selection"] | none
  return .completion (← cursor.required Cursor.ofJson?) (← selection.default "" Json.asText?)

def refactorReader : Json.Reader :=
  record [required "code" text, optional "intent" text]

def refactor? (j : Json) : Option (String × String) := do
  let [code, intent] ← j.slots? ["code", "intent"] | none
  return (← code.required Json.asText?, ← intent.default "" Json.asText?)

def diagnosisReader : Json.Reader :=
  record [⟨"error_message", .byPosition, nullable text⟩, optional "code" text]

/-- An error, which may be missing, and code. -/
def diagnosis? (j : Json) : Option (Option String × String) := do
  let [errorMessage, code] ← j.slots? ["error_message", "code"] | none
  return (← errorMessage.nullable Json.asText?, ← code.default "" Json.asText?)

def generationReader : Json.Reader :=
  record [required "prompt" text]

def generation? (j : Json) : Option String := do
  let [prompt] ← j.slots? ["prompt"] | none
  prompt.required Json.asText?

def reviewReader : Json.Reader :=
  record [required "code" text, optional "focus" (list text)]

def review? (j : Json) : Option (String × List String) := do
  let [code, focus] ← j.slots? ["code", "focus"] | none
  return (← code.required Json.asText?, ← focus.default [] Json.asTexts?)

/-! ## 3. Failures -/

/-- What comes of a message: a response, or none because the handler panicked. -/
abbrev Reaction := Except Prompt.Panic Response

def assistFailure (e : AssistError) : Reaction :=
  match e with
  | .superseded _ => .ok (.failure 409 e.message)
  | .exhausted failure =>
    .ok (.failure 502 e.message
      [("detail", .object [("attempts", .array (failure.attempts.map Attempt.toJson))])])
  | .panicked panic => .error panic

def storeFailure (e : StoreError) : Response :=
  match e with
  | .invalidPath _ => .failure 400 e.message
  | .write .. => .failure 500 e.message

def importFailure (e : Store.ImportError) : Response :=
  match e with
  | .refused refusal => .failure 400 refusal.message
  | .store error => .failure 500 error.message

def stored (toJson : α → Json) : Except StoreError α → Response
  | .ok a => .ok (toJson a)
  | .error e => storeFailure e

def assisted : Except AssistError Answer → Reaction
  | .ok answer => .ok (.ok answer.toJson)
  | .error e => assistFailure e

def diagnosed : Option (Except AssistError Answer) → Reaction
  | some result => assisted result
  | none => .ok (.failure 400 "no error recorded; pass error_message")

def imported : Except Store.ImportError ImportSummary → Response
  | .ok summary => .ok (.object [("imported", summary.toJson)])
  | .error e => importFailure e

def cleared : Except StoreError Unit → Response
  | .ok () => ⟨204, .empty⟩
  | .error e => storeFailure e

def healthReport (report : List Health) : Response :=
  .ok (.object [("healthy", .bool (report.any (·.healthy))),
    ("providers", .array (report.map Health.toJson))])

/-! ## 4. What the endpoints do -/

def ask (request : Request) (now : Moment) : Course Reaction :=
  assisted <$> assist request now

/-- A course that always responds. -/
def responding (c : Course Response) : Course Reaction :=
  Except.ok <$> c

def looking (f : Session → Response) : Course Reaction :=
  responding (Course.look f)

/-- A text that is needed, or a complaint that it is blank. -/
def nonblank (name text : String) : Except Response String :=
  if isBlankText text then .error (.failure 400 s!"{name} must not be empty") else .ok text

def serviceName : String := "quill-api"

def courseAt (m : Message) (now : Moment) : Endpoint → Except Response (Course Reaction)
  | .healthz =>
    .ok <| looking fun s =>
      .ok (.object [("status", .text "ok"), ("service", .text serviceName),
        ("project", .text s.store.memory.project.name),
        ("providers", Json.ofTexts s.chain.names)])
  | .getFile => do
    let path ← queryRequired (queryPairs m.query) "path"
    return looking fun s =>
      match s.store.file? path with
      | some f => .ok f.toJson
      | none => .failure 404 s!"no file `{path}` in project memory"
  | .putFile => do
    let (path, content) ← jsonBody m fileUpdateReader fileUpdate?
    let path ← nonblank "path" path
    return responding (stored SourceFile.toJson <$> updateFile path content now)
  | .getContext => .ok <| looking fun s => .ok s.store.view.toJson
  | .patchContext => do
    let patch ← jsonBody m EditPatch.reader EditPatch.ofJson?
    return responding (stored Editing.toJson <$> updateEditing patch now)
  | .completions => do
    return ask (← jsonBody m completionReader completion?) now
  | .refactor => do
    let (code, intent) ← jsonBody m refactorReader refactor?
    return ask (.refactor (← nonblank "code" code) intent) now
  | .diagnosis => do
    match ← jsonBody m diagnosisReader diagnosis? with
    | (some errorMessage, code) => return ask (.diagnosis errorMessage code) now
    | (none, _) => return diagnosed <$> diagnoseLastError now
  | .generation => do
    let prompt ← jsonBody m generationReader generation?
    return ask (.generation (← nonblank "prompt" prompt)) now
  | .review => do
    let (code, focus) ← jsonBody m reviewReader review?
    return ask (.review (← nonblank "code" code) focus) now
  | .providerHealth => .ok (responding (healthReport <$> Session.providerHealth))
  | .search => do
    let pairs := queryPairs m.query
    let query ← queryRequired pairs "q"
    let scope ← match ← queryValue pairs "scope" with
      | none => .ok .everything
      | some text => (SearchScope.parse text).mapError fun e => .failure 400 e.message
    return looking fun s =>
      .ok (.object [("query", .text query),
        ("results", .array ((s.store.memory.search query scope).map SearchHit.toJson))])
  | .exportMemory => .ok <| looking fun s => .ok s.store.memory.toJson
  | .importMemory => do
    let j ← anyJsonBody m
    return responding (imported <$> importJson j now)
  | .clearMemory => .ok (responding (cleared <$> clear now))
  | .stats => .ok <| looking fun s => .ok s.statsJson

/-! ## 5. Messages -/

def bodiless (r : Response) : Response :=
  { r with body := .empty }

/-- The course at an endpoint, or the response that refuses the message. -/
def serve (m : Message) (now : Moment) (e : Endpoint) : Course Reaction :=
  match courseAt m now e with
  | .ok c => c
  | .error refusal => pure (.ok refusal)

/-- The course that a message asks for. A question for the head of a response is answered like
one for the response, but without a body. -/
def handle (m : Message) (now : Moment) : Course Reaction :=
  match routes m.path with
  | none => pure (.ok ⟨404, .empty⟩)
  | some methods =>
    match methods.lookup m.method, methods.lookup "GET" with
    | some e, _ => serve m now e
    | none, some e =>
      if m.method == "HEAD" then (·.map bodiless) <$> serve m now e
      else pure (.ok ⟨405, .empty⟩)
    | none, none => pure (.ok ⟨405, .empty⟩)

end CodeAssist.Service
