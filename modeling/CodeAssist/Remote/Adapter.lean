import CodeAssist.Json.Reader
import CodeAssist.Provider.Chain
import CodeAssist.Remote.Http
import CodeAssist.Reply.Suggestions

/-!
Remote providers: the request for a call, and the reply in the answer.

There are two dialects. A chat service takes messages and gives choices, and wants a key. A
generate service takes a system text and a prompt and gives a response.
-/

namespace CodeAssist.Remote

open Json.Reader (free list optional record required text)
open Text

/-! ## 1. Adapters -/

/-- What an adapter is given from outside. -/
structure Outside where
  /-- What comes of a request. -/
  send : HttpRequest → Transfer
  /-- What is wrong with a body that is not JSON or has another shape, in the words of the JSON
  library. -/
  explain : String → String

inductive Dialect where
  | chat (apiKey : Option String) (extraHeaders : List (String × String))
  | generate
  deriving DecidableEq, Repr

structure Adapter where
  name : String
  baseUrl : String
  model : String
  dialect : Dialect
  deriving DecidableEq, Repr

def dropSlashes (s : String) : String :=
  String.ofList ((s.toList.reverse.dropWhile (· == '/')).reverse)

def openrouter (apiKey : Option String) : Adapter where
  name := "openrouter"
  baseUrl := "https://openrouter.ai/api/v1"
  model := "qwen/qwen2.5-coder-7b-instruct"
  dialect := .chat apiKey
    [("HTTP-Referer", "https://github.com/quill-editor/quill"), ("X-Title", "Quill")]

def together (apiKey : Option String) : Adapter where
  name := "together"
  baseUrl := "https://api.together.xyz/v1"
  model := "mistralai/Mistral-7B-Instruct-v0.2"
  dialect := .chat apiKey []

/-- Where a generate service listens unless told otherwise. -/
def ollamaUrl : String := "http://localhost:11434"

/-- The model of a generate service unless another is asked for. -/
def ollamaModel : String := "codellama"

/-- The adapter of a generate service; its address has to name the protocol. -/
def ollama (baseUrl model : String) : Except ProviderError Adapter :=
  let base := trim baseUrl
  if (after? "http://".toList base.toList).isSome || (after? "https://".toList base.toList).isSome
  then .ok { name := "ollama", baseUrl := dropSlashes base, model, dialect := .generate }
  else .error (.unknown s!"ollama: invalid endpoint `{baseUrl}`")

namespace Adapter

/-- `api_key`: the key, trimmed, unless it is blank. -/
def key? (apiKey : Option String) : Option String :=
  (apiKey.map trim).filter fun k => !k.isEmpty

/-- The headers of a request, or the failure of a missing key. -/
def headers (a : Adapter) : Except ProviderError (List (String × String)) :=
  match a.dialect with
  | .chat apiKey extra =>
    match key? apiKey with
    | some k => .ok (("Authorization", "Bearer " ++ k) :: extra)
    | none => .error (.unauthorized s!"{a.name}: no API key configured")
  | .generate => .ok []

/-! ## 2. Requests -/

def callBody (a : Adapter) (call : Call) : Json :=
  match a.dialect with
  | .chat .. =>
    let message (role content : String) : Json :=
      .object [("role", .text role), ("content", .text content)]
    .object [("model", .text a.model),
      ("messages", .array [message "system" call.prompt.system, message "user" call.prompt.user]),
      ("max_tokens", .ofNat call.options.maxTokens.toNat),
      ("temperature", .ofSingle call.options.temperature)]
  | .generate =>
    .object [("model", .text a.model), ("system", .text call.prompt.system),
      ("prompt", .text call.prompt.user), ("stream", .bool false),
      ("options", .object [("temperature", .ofSingle call.options.temperature),
        ("num_predict", .ofNat call.options.maxTokens.toNat)])]

def callUrl (a : Adapter) : String :=
  dropSlashes a.baseUrl ++ (match a.dialect with
    | .chat .. => "/chat/completions"
    | .generate => "/api/generate")

def modelsUrl (a : Adapter) : String :=
  dropSlashes a.baseUrl ++ (match a.dialect with
    | .chat .. => "/models"
    | .generate => "/api/tags")

/-- A request that can be sent, or the failure. -/
def sendable (a : Adapter) (request : HttpRequest) : Except ProviderError HttpRequest :=
  if request.isSendable then .ok request else .error (.unknown s!"{a.name}: builder error")

def callRequest (a : Adapter) (call : Call) : Except ProviderError HttpRequest := do
  let headers ← a.headers
  a.sendable { method := .post, url := a.callUrl, headers, body := some (a.callBody call) }

def modelsRequest (a : Adapter) : Except ProviderError HttpRequest := do
  let headers ← a.headers
  a.sendable { method := .get, url := a.modelsUrl, headers, body := none }

/-! ## 3. Replies -/

def notJson (a : Adapter) (reason body : String) : ProviderError :=
  match a.dialect with
  | .chat .. => .malformed s!"{a.name}: {reason}: {snippet body}"
  | .generate =>
    .malformed s!"{a.name}: {reason}; ensure `stream=false` is used: {snippet body}"

def otherShape (a : Adapter) (reason : String) : ProviderError :=
  .malformed s!"{a.name}: {reason}"

/-- The content of a choice: nothing if the choice has another shape. -/
def choiceContent? (j : Json) : Option (Option String) := do
  let [message] ← j.slots? ["message"] | none
  message.required fun m => do
    let [content] ← m.slots? ["content"] | none
    content.optional Json.asText?

def answerText (a : Adapter) (reason : String) (raw : Json) : Except ProviderError String :=
  match a.dialect with
  | .chat .. =>
    let choices : Option (List (Option String)) := do
      let [choices] ← raw.slots? ["choices"] | none
      choices.default [] (Json.asList? choiceContent?)
    match choices with
    | none => .error (a.otherShape reason)
    | some contents =>
      match contents.head?.join with
      | some content => .ok content
      | none =>
        .error (.malformed s!"{a.name}: response has no choices[0].message.content")
  | .generate =>
    let response : Option String := do
      let [response] ← raw.slots? ["response"] | none
      response.required Json.asText?
    match response with
    | some text => .ok text
    | none => .error (a.otherShape reason)

/-- The reply in the body of an answer. A completion needs some text. -/
def replyOf (a : Adapter) (explain : String → String) (action : Action) (body : String) :
    Except ProviderError Reply :=
  match Json.read body with
  | none => .error (a.notJson (explain body) body)
  | some raw => do
    let text ← a.answerText (explain body) raw
    if action == .completion && isBlankText text then
      .error (.malformed s!"{a.name}: empty completion")
    else
      .ok {
        provider := a.name
        text
        suggestions := if action == .completion then Reply.suggested text else []
        raw }

/-- The shape of a list of models, under the name it has in a dialect. -/
def modelsReader (a : Adapter) : Json.Reader :=
  match a.dialect with
  | .chat .. => record [optional "data" (list free)]
  | .generate => record [optional "models" (list (record [required "name" text]))]

def countModels? (a : Adapter) (j : Json) : Option Nat :=
  match a.dialect with
  | .chat .. => do
    let [data] ← j.slots? ["data"] | none
    (data.default [] (Json.asList? some)).map List.length
  | .generate => do
    let [models] ← j.slots? ["models"] | none
    (models.default [] (Json.asList? some)).map List.length

def modelCount (a : Adapter) (explain : String → String) (body : String) :
    Except ProviderError Nat :=
  (Json.decode a.modelsReader a.countModels? body.toList).mapError fun _ =>
    a.otherShape (explain body)

/-! ## 4. Calls -/

/-- `complete`: what comes of a call, given what comes of its request. -/
def complete (a : Adapter) (call : Call) (out : Outside) : Except ProviderError Reply := do
  let request ← a.callRequest call
  let body ← (out.send request).body a.name
  a.replyOf out.explain call.prompt.action body

/-- `check_health`: how many models there are, given what comes of the request for them. -/
def health (a : Adapter) (out : Outside) : Except ProviderError Nat := do
  let request ← a.modelsRequest
  let body ← (out.send request).body a.name
  a.modelCount out.explain body

/-- The provider that an adapter stands for, over a network that answers at once. -/
def provider (a : Adapter) (out : Outside) : Provider where
  name := a.name
  isLocal := false
  complete := fun _ call => .answers 0 (a.complete call out)
  health := .answers 0 ((a.health out).map some)

end Adapter

end CodeAssist.Remote
