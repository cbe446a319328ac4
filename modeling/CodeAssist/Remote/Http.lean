import CodeAssist.Provider.Basic
import CodeAssist.Remote.Host

/-!
Requests over HTTP and what comes back.

A request is built before anything is sent; one that cannot be sent, because its address is no
address or a header holds a character that headers may not hold, fails without a transfer.
-/

namespace CodeAssist.Remote

open Text

/-! ## 1. Requests -/

inductive Method where
  | get
  | post
  deriving DecidableEq, Repr

structure HttpRequest where
  method : Method
  url : String
  headers : List (String × String)
  body : Option Json

inductive Transfer where
  /-- An answer with a status and a body. -/
  | answered (status : Nat) (body : String)
  /-- No answer in time. -/
  | timedOut (detail : String)
  /-- No connection, or one that broke before an answer. -/
  | unreachable (detail : String)
  /-- An answer whose body did not arrive whole. -/
  | broken (detail : String)
  deriving DecidableEq, Repr

/-! ## 2. Addresses and headers -/

/-- Whether a text names a port, or is empty. -/
def isPort (cs : List Char) : Bool :=
  cs.all isAsciiDigit && cs.foldl (fun n d => n * 10 + (d.toNat - 0x30)) 0 < 65536

def endsAuthority (c : Char) : Bool :=
  c == '/' || c == '\\' || c == '?' || c == '#'

/-- What stands behind the last sign for "at", or everything. -/
def afterUser (cs : List Char) : List Char :=
  (cs.reverse.takeWhile (· != '@')).reverse

/-- The host and the port of an authority, which a colon outside brackets separates. -/
def splitPort (inside : Bool) : List Char → List Char × List Char
  | [] => ([], [])
  | c :: rest =>
    if c == ':' && !inside then ([], rest)
    else
      let inside := c == '[' || (inside && c != ']')
      let (host, port) := splitPort inside rest
      (c :: host, port)

/-- The text of an address without the controls and spaces around it and without the tabs and line
ends in it. -/
def tidyAddress (cs : List Char) : List Char :=
  let isEdge := fun c : Char => c.toNat ≤ 0x20
  let cs := ((cs.dropWhile isEdge).reverse.dropWhile isEdge).reverse
  cs.filter fun c => !(['\t', '\n', '\r'].contains c)

/-- Whether a text is an address of the web: the scheme, slashes, and a host with or without a
port. -/
def isWebAddress (url : String) : Bool :=
  let cs := tidyAddress url.toList
  let scheme := (cs.takeWhile (· != ':')).map asciiLower
  if scheme == "http".toList || scheme == "https".toList then
    let rest := (cs.drop (scheme.length + 1)).dropWhile fun c => c == '/' || c == '\\'
    let (host, port) := splitPort false (afterUser (rest.takeWhile (!endsAuthority ·)))
    isHost host && isPort port
  else false

def isHeaderChar (c : Char) : Bool :=
  c == '\t' || (0x20 ≤ c.toNat && c.toNat != 0x7f)

def HttpRequest.isSendable (r : HttpRequest) : Bool :=
  isWebAddress r.url && r.headers.all fun (_, value) => value.toList.all isHeaderChar

/-! ## 3. Failures -/

/-- How many characters of a body a failure shows. -/
def snippetLength : Nat := 240

def snippet (body : String) : String :=
  String.ofList (body.toList.take snippetLength)

/-- `classify_status`: the failure that a status stands for. -/
def statusError (status : Nat) (provider body : String) : ProviderError :=
  let message := s!"{provider}: HTTP {status}: {snippet body}"
  if status == 401 || status == 403 then .unauthorized message
  else if status == 429 then .rateLimited message
  else if status == 408 || status == 504 then .timeout message
  else if 500 ≤ status && status ≤ 599 then .unreachable message
  else .unknown message

/-- The body of a good answer, or the failure that a transfer stands for. -/
def Transfer.body (provider : String) : Transfer → Except ProviderError String
  | .answered status body =>
    if 200 ≤ status && status ≤ 299 then .ok body else .error (statusError status provider body)
  | .timedOut detail => .error (.timeout s!"{provider}: {detail}")
  | .unreachable detail => .error (.unreachable s!"{provider}: {detail}")
  | .broken detail => .error (.malformed s!"{provider}: {detail}")

end CodeAssist.Remote
