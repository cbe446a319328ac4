import CodeAssist.Offline.Provider
import CodeAssist.Remote.Adapter

/-!
Which providers are used, by environment variables.

The chain is fixed: the two chat services if they have keys, then the generate service unless it
is switched off, then the provider that needs no network.
-/

namespace CodeAssist

open Text

/-- `ProviderSettings`: which providers there are. -/
structure Settings where
  openrouterKey : Option String := none
  openrouterModel : Option String := none
  togetherKey : Option String := none
  togetherModel : Option String := none
  /-- Nothing switches the generate service off. -/
  ollamaUrl : Option String := none
  ollamaModel : Option String := none
  deriving DecidableEq, Repr, Inhabited

inductive ChainMember where
  | remote (adapter : Remote.Adapter)
  | offline
  deriving DecidableEq, Repr

namespace ChainMember

def name : ChainMember → String
  | remote adapter => adapter.name
  | offline => "local"

def isLocal : ChainMember → Bool
  | remote _ => false
  | offline => true

def provider (out : Remote.Outside) : ChainMember → Provider
  | remote adapter => adapter.provider out
  | offline => Offline.provider

end ChainMember

namespace Settings

def offline : Settings := {}

/-- `first_set`: the first variable that is set to something, trimmed. -/
def firstSet (lookup : String → Option String) (keys : List String) : Option String :=
  ((keys.filterMap lookup).map trim).find? fun v => !v.isEmpty

/-- `truthy`: whether a value of a variable says yes. -/
def saysYes (value : String) : Bool :=
  ["1", "true", "yes", "on"].contains (lowerAscii (trim value))

def vars : List String :=
  ["QUILL_OPENROUTER_API_KEY", "OPENROUTER_API_KEY", "QUILL_OPENROUTER_MODEL",
    "QUILL_TOGETHER_API_KEY", "TOGETHER_API_KEY", "QUILL_TOGETHER_MODEL", "QUILL_DISABLE_OLLAMA",
    "QUILL_OLLAMA_URL", "QUILL_OLLAMA_MODEL"]

/-- `from_lookup`: the settings that variables make. -/
def ofEnvironment (lookup : String → Option String) : Settings :=
  let disabled := (firstSet lookup ["QUILL_DISABLE_OLLAMA"]).any saysYes
  { openrouterKey := firstSet lookup ["QUILL_OPENROUTER_API_KEY", "OPENROUTER_API_KEY"]
    openrouterModel := firstSet lookup ["QUILL_OPENROUTER_MODEL"]
    togetherKey := firstSet lookup ["QUILL_TOGETHER_API_KEY", "TOGETHER_API_KEY"]
    togetherModel := firstSet lookup ["QUILL_TOGETHER_MODEL"]
    ollamaUrl :=
      if disabled then none
      else some ((firstSet lookup ["QUILL_OLLAMA_URL"]).getD Remote.ollamaUrl)
    ollamaModel := firstSet lookup ["QUILL_OLLAMA_MODEL"] }

/-- The JSON form of the settings, without the keys. -/
def toJson (s : Settings) : Json :=
  .object [("openrouter_model", Json.ofOption .text s.openrouterModel),
    ("together_model", Json.ofOption .text s.togetherModel),
    ("ollama_url", Json.ofOption .text s.ollamaUrl),
    ("ollama_model", Json.ofOption .text s.ollamaModel)]

/-- A chain that cannot be built. -/
structure ChainError where
  cause : ProviderError
  deriving DecidableEq, Repr

def ChainError.message (e : ChainError) : String :=
  "building ollama adapter: " ++ e.cause.message

/-- An adapter with another model, if one is asked for. -/
def withModel (adapter : Remote.Adapter) (model : Option String) : Remote.Adapter :=
  { adapter with model := model.getD adapter.model }

/-- `build_chain`: the providers of the settings, the offline one last. -/
def chain (s : Settings) : Except ChainError (List ChainMember) :=
  let openrouter := s.openrouterKey.map fun key =>
    ChainMember.remote (withModel (Remote.openrouter (some key)) s.openrouterModel)
  let together := s.togetherKey.map fun key =>
    ChainMember.remote (withModel (Remote.together (some key)) s.togetherModel)
  let chat := openrouter.toList ++ together.toList
  match s.ollamaUrl with
  | none => .ok (chat ++ [.offline])
  | some url =>
    match Remote.ollama url (s.ollamaModel.getD Remote.ollamaModel) with
    | .ok adapter => .ok (chat ++ [.remote adapter, .offline])
    | .error cause => .error ⟨cause⟩

end Settings

end CodeAssist
