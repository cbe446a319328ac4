import CodeAssist.Action.Basic

/-!
Providers: what they are asked, what they answer and how they fail.
-/

namespace CodeAssist

/-! ## 1. Prompts and calls -/

/-- `CompletionOptions`: the options of a call. -/
structure Options where
  maxTokens : UInt32
  /-- A number of the 32-bit format. -/
  temperature : Number.Binary
  timeoutMs : UInt64
  deriving DecidableEq, Repr, Inhabited

namespace Options

/-- The number of tenths, in the 32-bit format. -/
def tenths (n : Nat) : Number.Binary :=
  Number.single.round false n 10

def forAction : Action → Options
  | .completion => ⟨256, tenths 1, 10000⟩
  | .generation => ⟨2048, tenths 2, 30000⟩
  | _ => ⟨2048, tenths 1, 30000⟩

def toJson (o : Options) : Json :=
  .object [("max_tokens", .ofNat o.maxTokens.toNat), ("temperature", .ofSingle o.temperature),
    ("timeout_ms", .ofWord o.timeoutMs)]

def ofJson? (j : Json) : Option Options := do
  let [maxTokens, temperature, timeoutMs] ←
    j.slots? ["max_tokens", "temperature", "timeout_ms"] | none
  return {
    maxTokens := ← maxTokens.required Json.asWord32?
    temperature := ← temperature.required Json.asSingle?
    timeoutMs := ← timeoutMs.required Json.asWord? }

end Options

/-- `PromptPayload`: instructions, text, and what it is about. -/
structure Prompt where
  action : Action
  system : String
  user : String
  subject : Subject
  deriving DecidableEq, Repr, Inhabited

namespace Prompt

def length (p : Prompt) : Nat :=
  p.system.length + p.user.length

def toJson (p : Prompt) : Json :=
  .object [("action", p.action.toJson), ("system", .text p.system), ("user", .text p.user),
    ("subject", p.subject.toJson)]

def ofJson? (j : Json) : Option Prompt := do
  let [action, system, user, subject] ← j.slots? ["action", "system", "user", "subject"] | none
  return {
    action := ← action.required Action.ofJson?
    system := ← system.required Json.asText?
    user := ← user.required Json.asText?
    subject := ← subject.required Subject.ofJson? }

end Prompt

/-- `ProviderRequest`: a prompt with its options. -/
structure Call where
  requestId : String
  prompt : Prompt
  options : Options
  deriving DecidableEq, Repr, Inhabited

def Call.toJson (c : Call) : Json :=
  .object [("request_id", .text c.requestId), ("prompt", c.prompt.toJson),
    ("options", c.options.toJson)]

def Call.ofJson? (j : Json) : Option Call := do
  let [requestId, prompt, options] ← j.slots? ["request_id", "prompt", "options"] | none
  return {
    requestId := ← requestId.required Json.asText?
    prompt := ← prompt.required Prompt.ofJson?
    options := ← options.required Options.ofJson? }

/-! ## 2. Replies -/

inductive SuggestionKind where
  | value
  | function
  | snippet
  | header
  | text
  deriving DecidableEq, Repr, Inhabited

namespace SuggestionKind

def name : SuggestionKind → String
  | value => "variable"
  | function => "function"
  | snippet => "snippet"
  | header => "module"
  | text => "text"

def ofName? (s : String) : Option SuggestionKind :=
  [value, function, snippet, header, text].find? fun v => v.name == s

def ofJson? (j : Json) : Option SuggestionKind :=
  j.asName?.bind ofName?

end SuggestionKind

structure Suggestion where
  label : String
  insertText : String
  /-- A number of the 32-bit format. -/
  confidence : Number.Binary
  kind : SuggestionKind
  deriving DecidableEq, Repr, Inhabited

namespace Suggestion

def toJson (s : Suggestion) : Json :=
  .object [("label", .text s.label), ("insert_text", .text s.insertText),
    ("confidence", .ofSingle s.confidence), ("kind", .text s.kind.name)]

def ofJson? (j : Json) : Option Suggestion := do
  let [label, insertText, confidence, kind] ←
    j.slots? ["label", "insert_text", "confidence", "kind"] | none
  return {
    label := ← label.required Json.asText?
    insertText := ← insertText.required Json.asText?
    confidence := ← confidence.required Json.asSingle?
    kind := ← kind.required SuggestionKind.ofJson? }

end Suggestion

/-- `ProviderResponse`: what a provider says. -/
structure Reply where
  provider : String
  text : String
  suggestions : List Suggestion
  /-- The document the answer came in; null when there was none. -/
  raw : Json
  deriving Repr, Inhabited

namespace Reply

/-- The JSON form of a reply; a null document is left out. -/
def toJson (r : Reply) : Json :=
  .object <|
    [("provider", .text r.provider), ("text", .text r.text),
     ("suggestions", .array (r.suggestions.map Suggestion.toJson))] ++
    (if r.raw.isNull then [] else [("raw", r.raw)])

def ofJson? (j : Json) : Option Reply := do
  let [provider, text, suggestions, raw] ← j.slots? ["provider", "text", "suggestions", "raw"]
    | none
  return {
    provider := ← provider.required Json.asText?
    text := ← text.required Json.asText?
    suggestions := ← suggestions.default [] (Json.asList? Suggestion.ofJson?)
    raw := ← raw.default .null (fun j => some j.canonical) }

end Reply

/-! ## 3. Failures -/

inductive ProviderError where
  | unauthorized (message : String)
  | rateLimited (message : String)
  | timeout (message : String)
  | unreachable (message : String)
  | malformed (message : String)
  | unknown (message : String)
  deriving DecidableEq, Repr, Inhabited

namespace ProviderError

def kind : ProviderError → String
  | unauthorized _ => "unauthorized"
  | rateLimited _ => "rate_limited"
  | timeout _ => "timeout"
  | unreachable _ => "unreachable"
  | malformed _ => "malformed_response"
  | unknown _ => "unknown"

def detail : ProviderError → String
  | unauthorized m => m
  | rateLimited m => m
  | timeout m => m
  | unreachable m => m
  | malformed m => m
  | unknown m => m

def message (e : ProviderError) : String :=
  let lead := match e with
    | unauthorized _ => "unauthorized: "
    | rateLimited _ => "rate limited: "
    | timeout _ => "timed out: "
    | unreachable _ => "unreachable: "
    | malformed _ => "malformed response: "
    | unknown _ => "provider error: "
  lead ++ e.detail

def ofKind? (kind message : String) : Option ProviderError :=
  [unauthorized message, rateLimited message, timeout message, unreachable message,
    malformed message, unknown message].find? fun e => e.kind == kind

def toJson (e : ProviderError) : Json :=
  .object [("kind", .text e.kind), ("message", .text e.detail)]

/-- The failure of a JSON value. By position the kind is a plain string. -/
def ofJson? (j : Json) : Option ProviderError := do
  let [kind, message] ← j.slots? ["kind", "message"] | none
  let kindName := if j.isArray then Json.asText? else Json.asName?
  ofKind? (← kind.required kindName) (← message.required Json.asText?)

end ProviderError

/-- `AttemptRecord`: a provider that was asked, and how long it took. -/
structure Attempt where
  provider : String
  elapsedMs : Nat
  /-- How it failed, if it did. -/
  error : Option ProviderError
  deriving DecidableEq, Repr, Inhabited

namespace Attempt

def succeeded (a : Attempt) : Bool :=
  a.error.isNone

def toJson (a : Attempt) : Json :=
  .object <|
    [("provider", .text a.provider), ("elapsed_ms", .ofNat a.elapsedMs)] ++
    (match a.error with
      | some e => [("error", e.toJson)]
      | none => [])

def ofJson? (j : Json) : Option Attempt := do
  let [provider, elapsedMs, error] ← j.slots? ["provider", "elapsed_ms", "error"] | none
  return {
    provider := ← provider.required Json.asText?
    elapsedMs := ← elapsedMs.required Json.asNat?
    error := ← error.optional ProviderError.ofJson? }

end Attempt

/-- `ExhaustedFailure`: the failure of a whole chain. -/
structure Exhausted where
  attempts : List Attempt
  deriving DecidableEq, Repr, Inhabited

namespace Exhausted

def message (e : Exhausted) : String :=
  s!"all {e.attempts.length} providers failed"

def toJson (e : Exhausted) : Json :=
  .object [("attempts", .array (e.attempts.map Attempt.toJson))]

def ofJson? (j : Json) : Option Exhausted := do
  let [attempts] ← j.slots? ["attempts"] | none
  return { attempts := ← attempts.required (Json.asList? Attempt.ofJson?) }

end Exhausted

/-! ## 4. Health -/

/-- `ProviderHealth`: how a provider is. -/
structure Health where
  provider : String
  healthy : Bool
  /-- How many models it offers, when it says so. -/
  models : Option Nat
  error : Option ProviderError
  elapsedMs : Nat
  deriving DecidableEq, Repr, Inhabited

namespace Health

def toJson (h : Health) : Json :=
  .object <|
    [("provider", .text h.provider), ("healthy", .bool h.healthy)] ++
    (match h.models with
      | some n => [("models", Json.ofNat n)]
      | none => []) ++
    (match h.error with
      | some e => [("error", e.toJson)]
      | none => []) ++
    [("elapsed_ms", .ofNat h.elapsedMs)]

def ofJson? (j : Json) : Option Health := do
  let [provider, healthy, models, error, elapsedMs] ←
    j.slots? ["provider", "healthy", "models", "error", "elapsed_ms"] | none
  return {
    provider := ← provider.required Json.asText?
    healthy := ← healthy.required Json.asBool?
    models := ← models.optional Json.asNat?
    error := ← error.optional ProviderError.ofJson?
    elapsedMs := ← elapsedMs.required Json.asNat? }

end Health

end CodeAssist
