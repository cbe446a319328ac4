import CodeAssist.Memory.Search

/-!
The arguments of the command line.

Options of the whole program come first, then the name of what to do, then its own options and
operands in any order. An option takes the next argument or what follows an equals sign, and only
those that say so may come more than once.
-/

namespace CodeAssist.Command

/-! ## 1. Options and operands -/

inductive Arity where
  | flag
  | value
  /-- Any number of times, one value each. -/
  | values
  deriving DecidableEq, Repr

abbrev Options := List (String × Arity)

structure Parsed where
  /-- Options in the order in which they were given; a flag has an empty value. -/
  given : List (String × String) := []
  operands : List String := []
  deriving DecidableEq, Repr, Inhabited

namespace Parsed

def has (p : Parsed) (name : String) : Bool :=
  p.given.any (·.1 == name)

def values (p : Parsed) (name : String) : List String :=
  (p.given.filter (·.1 == name)).map (·.2)

def value? (p : Parsed) (name : String) : Option String :=
  (p.values name).head?

/-- Adds an option, unless it was given before and may not be repeated. -/
def add (p : Parsed) (name value : String) (arity : Arity) : Option Parsed :=
  if p.has name && arity != .values then none
  else some { p with given := p.given ++ [(name, value)] }

end Parsed

def looksLikeOption (arg : String) : Bool :=
  arg.toList.head? == some '-' && arg != "-"

def splitOption (arg : String) : String × Option String :=
  let cs := arg.toList
  let name := cs.takeWhile (· != '=')
  (String.ofList name,
    if name.length < cs.length then some (String.ofList (cs.drop (name.length + 1))) else none)

/-- Reads arguments. `waiting` is an option that still needs its value. Reading stops at the first
operand if `stopAtOperand` says so, and gives what is left. After two dashes there are only
operands. -/
def scan (options : Options) (stopAtOperand : Bool) :
    Option (String × Arity) → List String → Parsed → Option (Parsed × List String)
  | none, [], p => some (p, [])
  | some _, [], _ => none
  | some (name, arity), value :: rest, p =>
    if looksLikeOption value then none
    else do scan options stopAtOperand none rest (← p.add name value arity)
  | none, arg :: rest, p =>
    if arg == "--" then
      if stopAtOperand then none else some ({ p with operands := p.operands ++ rest }, [])
    else if looksLikeOption arg then
      let (name, inline) := splitOption arg
      match options.lookup name, inline with
      | none, _ => none
      | some .flag, none => do scan options stopAtOperand none rest (← p.add name "" .flag)
      | some .flag, some _ => none
      | some arity, some value => do scan options stopAtOperand none rest (← p.add name value arity)
      | some arity, none => scan options stopAtOperand (some (name, arity)) rest p
    else if stopAtOperand then some (p, arg :: rest)
    else scan options stopAtOperand none rest { p with operands := p.operands ++ [arg] }

def word? (text : String) : Option UInt64 :=
  let cs := text.toList
  let digits := if cs.head? == some '+' then cs.drop 1 else cs
  if digits.isEmpty || !digits.all Char.isDigit then none
  else
    let n := digits.foldl (fun n d => n * 10 + (d.toNat - 0x30)) 0
    if n < Nat.pow 2 64 then some (UInt64.ofNat n) else none

/-! ## 2. Commands -/

inductive Task where
  | index (paths : List String)
  | context
  | complete (file : String) (line column : UInt64) (selection : String)
  | refactor (file intent : String)
  | diagnose (error file : Option String)
  | generate (prompt : String) (write : Bool)
  | review (file : String) (focus : List String)
  | health
  | build (file : String) (run : Bool)
  | search (query : String) (scope : SearchScope)
  | exportTo (out : Option String)
  | importFrom (file : String)
  | clear
  | stats
  deriving DecidableEq, Repr

structure Invocation where
  root : String
  offline : Bool
  timeoutMs : Option UInt64
  compiler : String
  task : Task
  deriving DecidableEq, Repr

def programOptions : Options :=
  [("--root", .value), ("--offline", .flag), ("--timeout-ms", .value), ("--compiler", .value)]

def path? (text : String) : Option String :=
  if text.isEmpty then none else some text

/-- An option that may be missing, read by `item` if it is there. -/
def optional (value : Option String) (item : String → Option α) : Option (Option α) :=
  match value with
  | none => some none
  | some text => (item text).map some

def taskArguments (options : Options) (args : List String) : Option Parsed :=
  (scan options false none args {}).map (·.1)

def bare (task : Task) (args : List String) : Option Task := do
  let p ← taskArguments [] args
  if p.operands.isEmpty then some task else none

def task? (name : String) (args : List String) : Option Task :=
  match name with
  | "index" => do
    let p ← taskArguments [] args
    return .index (← p.operands.mapM path?)
  | "context" => bare .context args
  | "complete" => do
    let p ← taskArguments [("--line", .value), ("--column", .value), ("--selection", .value)] args
    let [file] := p.operands | none
    return .complete (← path? file) (← (← p.value? "--line") |> word?)
      (← (← p.value? "--column") |> word?) ((p.value? "--selection").getD "")
  | "refactor" => do
    let p ← taskArguments [("--intent", .value)] args
    let [file] := p.operands | none
    return .refactor (← path? file) ((p.value? "--intent").getD "")
  | "diagnose" => do
    let p ← taskArguments [("--error", .value), ("--file", .value)] args
    let [] := p.operands | none
    return .diagnose (p.value? "--error") (← optional (p.value? "--file") path?)
  | "generate" => do
    let p ← taskArguments [("--write", .flag)] args
    let [prompt] := p.operands | none
    return .generate prompt (p.has "--write")
  | "review" => do
    let p ← taskArguments [("--focus", .values)] args
    let [file] := p.operands | none
    return .review (← path? file) (p.values "--focus")
  | "health" => bare .health args
  | "build" => do
    let p ← taskArguments [("--run", .flag)] args
    let [file] := p.operands | none
    return .build (← path? file) (p.has "--run")
  | "search" => do
    let p ← taskArguments [("--scope", .value)] args
    let [query] := p.operands | none
    let scope ← (SearchScope.parse ((p.value? "--scope").getD "all")).toOption
    return .search query scope
  | "export" => do
    let p ← taskArguments [("--out", .value)] args
    let [] := p.operands | none
    return .exportTo (← optional (p.value? "--out") path?)
  | "import" => do
    let p ← taskArguments [] args
    let [file] := p.operands | none
    return .importFrom (← path? file)
  | "clear" => bare .clear args
  | "stats" => bare .stats args
  | _ => none

/-- The variables of the environment that stand in for options of the whole program. -/
def optionVariables : List (String × String) :=
  [("--root", "QUILL_ROOT"), ("--timeout-ms", "QUILL_TIMEOUT_MS"), ("--compiler", "QUILL_CC")]

/-- The value of an option of the whole program, or of the variable that stands in for it. -/
def setting? (environment : String → Option String) (p : Parsed) (name : String) : Option String :=
  (p.value? name).orElse fun _ => (optionVariables.lookup name).bind environment

/-- What the arguments tell the program in an environment, if they can be understood. -/
def Invocation.parse (environment : String → Option String) (args : List String) :
    Option Invocation := do
  let (p, rest) ← scan programOptions true none args {}
  let name :: rest := rest | none
  return {
    root := ← path? ((setting? environment p "--root").getD ".")
    offline := p.has "--offline"
    timeoutMs := ← optional (setting? environment p "--timeout-ms") word?
    compiler := (setting? environment p "--compiler").getD "cc"
    task := ← task? name rest }

end CodeAssist.Command
