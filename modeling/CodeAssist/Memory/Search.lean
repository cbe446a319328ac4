import CodeAssist.Json.Printer
import CodeAssist.Memory.Basic
import CodeAssist.Text.Line

/-!
Searching a memory: lines of files, names of functions and variables, events, exchanges.

A hit contains the query, both in lower case and the query trimmed. An empty query finds nothing.
-/

namespace CodeAssist

open Text

/-! ## 1. Scopes -/

inductive SearchScope where
  | everything
  | files
  | symbols
  | events
  | exchanges
  deriving DecidableEq, Repr, Inhabited

namespace SearchScope

def all : List SearchScope :=
  [everything, files, symbols, events, exchanges]

def name : SearchScope → String
  | everything => "all"
  | files => "files"
  | symbols => "symbols"
  | events => "history"
  | exchanges => "interactions"

def includes (s other : SearchScope) : Bool :=
  s == everything || s == other

def ofName? (s : String) : Option SearchScope :=
  all.find? fun scope => scope.name == s

def ofJson? (j : Json) : Option SearchScope :=
  j.asName?.bind ofName?

/-- A name that is no scope, in lower case. -/
structure Unknown where
  name : String
  deriving DecidableEq, Repr

def Unknown.message (u : Unknown) : String :=
  s!"unknown search scope `{u.name}`"

/-- The scope of that name, ASCII capitals counting as small letters. -/
def parse (text : String) : Except Unknown SearchScope :=
  let low := lowerAscii text
  match ofName? low with
  | some scope => .ok scope
  | none => .error ⟨low⟩

end SearchScope

/-! ## 2. Hits -/

/-- `SearchResult`: where a query was found. -/
inductive SearchHit where
  | file (path : String) (line : Nat) (text : String)
  | function (path name returnType : String) (line : Nat)
  | variable_ (path name type : String) (line : Nat)
  | event (index : Nat) (kind : EventKind) (moment : Moment)
  | exchange (index : Nat) (action : Action) (excerpt : String)
  deriving DecidableEq, Repr, Inhabited

namespace SearchHit

def toJson : SearchHit → Json
  | file path line text =>
    .object [("type", .text "file"), ("path", .text path), ("line", .ofNat line),
      ("text", .text text)]
  | function path name returnType line =>
    .object [("type", .text "function"), ("path", .text path), ("name", .text name),
      ("return_type", .text returnType), ("line", .ofNat line)]
  | variable_ path name type line =>
    .object [("type", .text "variable"), ("path", .text path), ("name", .text name),
      ("var_type", .text type), ("line", .ofNat line)]
  | event index kind moment =>
    .object [("type", .text "history"), ("index", .ofNat index), ("action", kind.toJson),
      ("timestamp", .ofMoment moment)]
  | exchange index action excerpt =>
    .object [("type", .text "interaction"), ("index", .ofNat index), ("kind", action.toJson),
      ("excerpt", .text excerpt)]

def ofJson? (j : Json) : Option SearchHit := do
  let (tag, record) ← j.tagged? "type"
  match tag with
  | "file" =>
    let [path, line, text] ← record.slots? ["path", "line", "text"] | none
    return file (← path.required Json.asText?) (← line.required Json.asNat?)
      (← text.required Json.asText?)
  | "function" =>
    let [path, name, returnType, line] ←
      record.slots? ["path", "name", "return_type", "line"] | none
    return function (← path.required Json.asText?) (← name.required Json.asText?)
      (← returnType.required Json.asText?) (← line.required Json.asNat?)
  | "variable" =>
    let [path, name, type, line] ← record.slots? ["path", "name", "var_type", "line"] | none
    return variable_ (← path.required Json.asText?) (← name.required Json.asText?)
      (← type.required Json.asText?) (← line.required Json.asNat?)
  | "history" =>
    let [index, kind, moment] ← record.slots? ["index", "action", "timestamp"] | none
    return event (← index.required Json.asNat?)
      (← kind.required fun k => k.asTaggedName?.bind EventKind.ofName?)
      (← moment.required Json.asMoment?)
  | "interaction" =>
    let [index, action, excerpt] ← record.slots? ["index", "kind", "excerpt"] | none
    return exchange (← index.required Json.asNat?)
      (← action.required fun k => k.asTaggedName?.bind Action.ofName?)
      (← excerpt.required Json.asText?)
  | _ => none

end SearchHit

/-! ## 3. Searching -/

namespace Memory

/-- Whether a text contains a needle, its case aside. -/
def mentions (needle : List Char) (text : String) : Bool :=
  occurs needle (lowerChars text.toList)

def searchFile (needle : List Char) (path : String) (f : SourceFile) : List SearchHit :=
  (linesOf f.content).zipIdx.filterMap fun (line, index) =>
    if mentions needle line then some (.file path (index + 1) (trim line)) else none

def searchSymbols (needle : List Char) (path : String) (f : SourceFile) : List SearchHit :=
  ((f.facts.functions.filter fun fn => mentions needle fn.name).map fun fn =>
    SearchHit.function path fn.name fn.returnType fn.line) ++
  ((f.facts.vars.filter fun v => mentions needle v.name).map fun v =>
    SearchHit.variable_ path v.name v.type v.line)

def searchEvent (needle : List Char) (e : Event) (index : Nat) : Option SearchHit :=
  if mentions needle e.kind.name || mentions needle e.details.render then
    some (.event index e.kind e.moment)
  else none

/-- How many characters of a prompt a hit shows. -/
def excerptLength : Nat := 120

/-- A hit in the prompt or the response of an exchange. -/
def searchExchange (needle : List Char) (e : Exchange) (index : Nat) : Option SearchHit :=
  if mentions needle e.prompt || mentions needle e.response then
    some (.exchange index e.action (String.ofList (e.prompt.toList.take excerptLength)))
  else none

/-- What a query finds in a scope: files, then symbols, then events, then exchanges. -/
def search (m : Memory) (query : String) (scope : SearchScope) : List SearchHit :=
  let needle := lowerChars (strip query.toList)
  if needle.isEmpty then []
  else
    (if scope.includes .files then
      m.files.entries.flatMap fun (path, f) => searchFile needle path f else []) ++
    (if scope.includes .symbols then
      m.files.entries.flatMap fun (path, f) => searchSymbols needle path f else []) ++
    (if scope.includes .events then
      m.events.zipIdx.filterMap fun (e, index) => searchEvent needle e index else []) ++
    (if scope.includes .exchanges then
      m.exchanges.zipIdx.filterMap fun (e, index) => searchExchange needle e index else [])

end Memory

end CodeAssist
