import CodeAssist.Json.Reader
import CodeAssist.Text.Bytes
import CodeAssist.Text.Line

/-!
Messages of the service: requests, responses, queries and bodies.
-/

namespace CodeAssist.Service

open Text

/-! ## 1. Requests and responses -/

structure Message where
  method : String
  path : String
  /-- What follows the question mark. -/
  query : String
  contentType : Option String
  body : String
  deriving DecidableEq, Repr, Inhabited

def isSchemeChar (c : Char) : Bool :=
  isAsciiAlnum c || c == '+' || c == '-' || c == '.'

/-- The part of a target from its path on. A target that starts with no slash names a host, after
a scheme or by itself. -/
def fromPath (cs : List Char) : List Char :=
  if cs.head? == some '/' || cs == ['*'] then cs
  else
    let scheme := cs.takeWhile isSchemeChar
    match cs.drop scheme.length with
    | ':' :: '/' :: '/' :: rest =>
      match rest.dropWhile fun c => !(['/', '?', '#'].contains c) with
      | '/' :: more => '/' :: more
      | more => '/' :: more
    | _ => []

/-- The path and the query of a target; what follows a number sign is no part of it. -/
def splitTarget (target : String) : String × String :=
  let cs := (fromPath target.toList).takeWhile (· != '#')
  let path := cs.takeWhile (· != '?')
  (String.ofList path, String.ofList (cs.drop (path.length + 1)))

inductive Body where
  | empty
  | json (value : Json)
  /-- A sentence about what is wrong with a message. -/
  | text (sentence : String)

structure Response where
  status : Nat
  body : Body

namespace Response

def ok (value : Json) : Response :=
  ⟨200, .json value⟩

/-- A response that says what went wrong, with more about it if there is more. -/
def failure (status : Nat) (message : String) (detail : List (String × Json) := []) : Response :=
  ⟨status, .json (.object (("error", .text message) :: detail))⟩

end Response

/-! ## 2. Queries -/

def hexValue? (c : Char) : Option Nat :=
  if '0' ≤ c && c ≤ '9' then some (c.toNat - 0x30)
  else if 'a' ≤ c && c ≤ 'f' then some (c.toNat - 0x61 + 10)
  else if 'A' ≤ c && c ≤ 'F' then some (c.toNat - 0x41 + 10)
  else none

/-- The bytes that a part of a query stands for: a plus is a blank, and a percent sign with two
digits is a byte. -/
def unescape : List Char → List UInt8
  | [] => []
  | '+' :: rest => 0x20 :: unescape rest
  | '%' :: a :: b :: rest =>
    match hexValue? a, hexValue? b with
    | some x, some y => UInt8.ofNat (x * 16 + y) :: unescape rest
    | _, _ => 0x25 :: unescape (a :: b :: rest)
  | c :: rest => encode (String.singleton c) ++ unescape rest

def queryText (cs : List Char) : String :=
  String.ofList (decodeLossy (unescape cs))

def queryPair (cs : List Char) : String × String :=
  let name := cs.takeWhile (· != '=')
  (queryText name, queryText (cs.drop (name.length + 1)))

def queryPairs (query : String) : List (String × String) :=
  ((splitAt '&' query.toList).filter (!·.isEmpty)).map queryPair

/-- What a query says about a name: nothing, one value, or too much. -/
def queryValue (pairs : List (String × String)) (name : String) :
    Except Response (Option String) :=
  match (pairs.filter (·.1 == name)).map (·.2) with
  | [] => .ok none
  | [value] => .ok (some value)
  | _ => .error ⟨400, .text s!"Failed to deserialize query string: duplicate field `{name}`"⟩

def queryRequired (pairs : List (String × String)) (name : String) : Except Response String := do
  match ← queryValue pairs name with
  | some value => .ok value
  | none => .error ⟨400, .text s!"Failed to deserialize query string: missing field `{name}`"⟩

/-! ## 3. Bodies -/

def isTokenChar (c : Char) : Bool :=
  c.isAlphanum || c.toNat == 0x27 ||
    ['!', '#', '$', '%', '&', '*', '+', '-', '.', '^', '_', '\x60', '|', '~'].contains c

/-- Where a reader of the parameters of a content type is. -/
inductive ParameterMode where
  | nameStart
  | name
  | valueStart
  | value
  | quotedStart
  | quoted
  | afterQuoted
  deriving DecidableEq, Repr

/-- The mode after one more character, if it may stand there. -/
def ParameterMode.next (c : Char) : ParameterMode → Option ParameterMode
  | nameStart => if c == ' ' then some .nameStart else if isTokenChar c then some .name else none
  | name => if c == '=' then some .valueStart else if isTokenChar c then some .name else none
  | valueStart =>
    if c == '"' then some .quotedStart else if isTokenChar c then some .value else none
  | value => if c == ';' then some .nameStart else if isTokenChar c then some .value else none
  | quotedStart => if ' ' ≤ c && c ≤ '~' then some .quoted else none
  | quoted =>
    if c == '"' then some .afterQuoted else if ' ' ≤ c && c ≤ '~' then some .quoted else none
  | afterQuoted =>
    if c == ';' then some .nameStart else if c == ' ' then some .afterQuoted else none

def ParameterMode.isFinal : ParameterMode → Bool
  | name => false
  | quotedStart => false
  | quoted => false
  | _ => true

def areParameters (cs : List Char) : Bool :=
  ((cs.foldlM (fun mode c => ParameterMode.next c mode) ParameterMode.nameStart).map
    ParameterMode.isFinal).getD false

/-- The two names of a content type, in small letters, if it is well formed. -/
def mediaType? (contentType : String) : Option (List Char × List Char) :=
  let cs := contentType.toList
  let top := cs.takeWhile isTokenChar
  match cs.drop top.length with
  | '/' :: rest =>
    let sub := rest.takeWhile isTokenChar
    let names := (top.map asciiLower, sub.map asciiLower)
    match rest.drop sub.length with
    | [] => if top.isEmpty then none else some names
    | ';' :: parameters =>
      if top.isEmpty || sub.isEmpty || !areParameters parameters then none else some names
    | _ => none
  | _ => none

/-- The second name of a content type without its suffix, and the suffix: what follows the last
plus sign, unless the name starts with it. -/
def splitSuffix (sub : List Char) : List Char × Option (List Char) :=
  let tail := (sub.reverse.takeWhile (· != '+')).reverse
  if tail.length + 1 < sub.length then (sub.take (sub.length - tail.length - 1), some tail)
  else (sub, none)

def promisesJson (contentType : String) : Bool :=
  match mediaType? contentType with
  | some (top, sub) =>
    let (name, suffix) := splitSuffix sub
    top == "application".toList && (name == "json".toList || suffix == some "json".toList)
  | none => false

def bodyLimit : Nat := 2 * 1024 * 1024

/-- The text of a body that promises JSON and is not too long. -/
def jsonText (m : Message) : Except Response String :=
  if !(m.contentType.map promisesJson).getD false then
    .error ⟨415, .text "Expected request with `Content-Type: application/json`"⟩
  else if m.body.utf8ByteSize > bodyLimit then
    .error ⟨413, .text "Failed to buffer the request body: length limit exceeded"⟩
  else .ok m.body

def badJson : Response :=
  ⟨400, .text "Failed to parse the request body as JSON"⟩

def wrongShape : Response :=
  ⟨422, .text "Failed to deserialize the JSON body into the target type"⟩

def refusedBody : Json.Refusal → Response
  | .malformed => badJson
  | .mismatched => wrongShape

/-- What a body says, read by `reader` and then by `item`. -/
def jsonBody (m : Message) (reader : Json.Reader) (item : Json → Option α) :
    Except Response α := do
  (Json.decode reader item (← jsonText m).toList).mapError refusedBody

def anyJsonBody (m : Message) : Except Response Json :=
  jsonBody m .free fun j => some j.canonical

end CodeAssist.Service
