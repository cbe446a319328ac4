import CodeAssist.TestBed.Condition
import CodeAssist.TestBed.Expand
import CodeAssist.TestBed.Parser
import CodeAssist.TestBed.Tools

/-!
Test bed: the commands that a shell does itself.

Some of them are special: if one of these goes wrong, the shell ends. The others give a status.
-/

namespace CodeAssist.TestBed

open Text Act

abbrev Builtin := List String → Act Nat

def refuse (message : String) : Act Nat := do
  blame message
  return 2

/-! ## 1. Ending and leaving -/

def countOf (text : String) : Act Nat := do
  match conditionNumber text with
  | .ok n =>
    if n < 0 || 2147483647 < n then fail s!"Illegal number: {text}" else return n.toNat
  | .error message => fail message

def exitBuiltin : Builtin := fun args => do
  match args with
  | [] => throw (.exit (← process).status)
  | n :: _ => throw (.exit ((← countOf n) % 256))

def returnBuiltin : Builtin := fun args => do
  match args with
  | [] => throw (.return_ (← process).status)
  | n :: _ => throw (.return_ ((← countOf n) % 256))

def leaveLoops (leaving : Nat → Leaving) : Builtin := fun args => do
  let n ← match args with
    | [] => pure 1
    | n :: _ => do
      let count ← countOf n
      if count == 0 then fail s!"Illegal number: {n}" else pure count
  let loops := (← process).loops
  setStatus 0
  if loops == 0 then return 0 else throw (leaving (min n loops))

/-! ## 2. Variables -/

def settingOf (arg : String) : String × Option String :=
  let cs := arg.toList
  let name := cs.takeWhile (· != '=')
  (String.ofList name,
    if name.length < cs.length then some (String.ofList (cs.drop (name.length + 1))) else none)

def exportBuiltin : Builtin := fun args => do
  for arg in args do
    let (name, value) := settingOf arg
    if !isName name.toList then fail s!"{name}: bad variable name"
    match value with
    | some value => assign name value
    | none => pure ()
    putVar name (some { (← var? name).getD {} with exported := true })
  return 0

def unsetBuiltin : Builtin := fun args => do
  let (functions, names) := match args with
    | "-f" :: names => (true, names)
    | "-v" :: names => (false, names)
    | names => (false, names)
  for name in names do
    if functions then
      modifyProcess fun p => { p with functions := p.functions.filter (·.1 != name) }
    else
      if !isName name.toList then fail s!"{name}: bad variable name"
      putVar name none
  return 0

def localBuiltin : Builtin := fun args => do
  match (← process).locals with
  | [] => fail "not in a function"
  | mine :: others =>
    let mut mine := mine
    for arg in args do
      let (name, value) := settingOf arg
      if !isName name.toList then fail s!"{name}: bad variable name"
      if (mine.lookup name).isNone then mine := (name, ← var? name) :: mine
      modifyProcess fun p => { p with locals := mine :: others }
      match value with
      | some value => assign name value
      | none => pure ()
    return 0

/-! ## 3. Parameters and options -/

def setOption (letter : Char) (on : Bool) : Act Unit := do
  if !optionLetters.contains letter then fail s!"Illegal option -{letter}"
  modifyProcess fun p =>
    let others := p.options.filter (· != letter)
    { p with options := if on then letter :: others else others }

/-- Reads options at the start of arguments; those that are left, whether they are the parameters
even if there are none, and whether a shell is told to run a text. -/
def readOptions (byShell : Bool) : List String → Act (List String × Bool × Bool)
  | [] => return ([], false, false)
  | arg :: rest => do
    match arg.toList with
    | ['-', '-'] => return (rest, true, false)
    | sign :: c :: letters =>
      if sign != '-' && sign != '+' then return (arg :: rest, false, false)
      else
        let isText (d : Char) : Bool := byShell && d == 'c'
        for d in c :: letters do
          if !isText d then setOption d (sign == '-')
        let (left, reset, runsText) ← readOptions byShell rest
        return (left, reset, runsText || (c :: letters).any isText)
    | _ => return (arg :: rest, false, false)

def setBuiltin : Builtin := fun args => do
  let (left, reset, _) ← readOptions false args
  if reset || !left.isEmpty then
    modifyProcess fun p => { p with arguments := p.arguments.take 1 ++ left }
  return 0

def shiftBuiltin : Builtin := fun args => do
  let n ← match args with
    | [] => pure 1
    | n :: _ => countOf n
  let arguments := (← process).arguments
  if arguments.length - 1 < n then fail "can't shift that many"
  modifyProcess fun p => { p with arguments := arguments.take 1 ++ arguments.drop (n + 1) }
  return 0

/-! ## 4. Reading -/

/-- The cells of a line, how many characters it takes, and whether it is ended. A backslash quotes a
character, or joins lines, unless it is left as it is. -/
def lineCells (raw : Bool) : List Char → List Cell × Nat × Bool
  | [] => ([], 0, false)
  | '\n' :: _ => ([], 1, true)
  | c :: rest =>
    if c == '\\' && !raw then
      match rest with
      | [] => ([], 1, false)
      | d :: more =>
        let (cells, n, ended) := lineCells raw more
        (if d == '\n' then cells else ⟨d, true⟩ :: cells, n + 2, ended)
    else
      let (cells, n, ended) := lineCells raw rest
      (⟨c, false⟩ :: cells, n + 1, ended)

/-- Whether a cell is a splitter that is a blank, or any splitter. -/
def Cell.isSplitter (splitters : List Char) (blank : Bool) (c : Cell) : Bool :=
  !c.quoted && splitters.contains c.char &&
    (!blank || c.char == ' ' || c.char == '\t' || c.char == '\n')

/-- The first field of cells, and what follows the splitters after it. -/
def firstField (splitters : List Char) (cells : List Cell) : List Cell × List Cell :=
  let field := cells.takeWhile fun c => !c.isSplitter splitters false
  let rest := (cells.drop field.length).dropWhile (·.isSplitter splitters true)
  match rest with
  | c :: more =>
    if c.isSplitter splitters false then (field, more.dropWhile (·.isSplitter splitters true))
    else (field, rest)
  | [] => (field, [])

/-- The last of the fields that are read: all that is left, without the blanks at its end, and
without a splitter there if it is the only one. -/
def lastField (splitters : List Char) (cells : List Cell) : List Cell :=
  let (field, rest) := firstField splitters cells
  if rest.isEmpty then field
  else (cells.reverse.dropWhile (·.isSplitter splitters true)).reverse

def fieldsFor (splitters : List Char) : Nat → List Cell → List (List Cell)
  | 0, _ => []
  | 1, cells => [lastField splitters cells]
  | n + 1, cells =>
    let (field, rest) := firstField splitters cells
    field :: fieldsFor splitters n rest

/-- The switches of the reading command, and the names after them. -/
def readSwitches : List String → Except Char (Bool × List String)
  | "-r" :: rest => (readSwitches rest).map fun (_, names) => (true, names)
  | "-p" :: _ :: rest => readSwitches rest
  | "--" :: rest => .ok (false, rest)
  | arg :: rest =>
    match arg.toList with
    | '-' :: c :: _ => .error c
    | _ => .ok (false, arg :: rest)
  | [] => .ok (false, [])

def readBuiltin : Builtin := fun args => do
  match readSwitches args with
  | .error c => refuse s!"Illegal option -{c}"
  | .ok (_, []) => refuse "arg count"
  | .ok (raw, names) =>
    let bytes ← readable 0
    let (cells, n, ended) := lineCells raw (charsOfBytes bytes)
    leave 0 (bytes.drop n)
    let splitters ← splitters
    let cells := cells.filter fun c => c.char.toNat != 0
    let start := cells.dropWhile (·.isSplitter splitters true)
    let names := names.map fun arg => (settingOf arg).1
    for (name, field) in names.zip (fieldsFor splitters names.length start) do
      if !isName name.toList then return ← refuse s!"{name}: bad variable name"
      assign name (String.ofList (field.map (·.char)))
    return if ended then 0 else 1

/-! ## 5. The rest -/

def testBuiltin (bracket : Bool) : Builtin := fun args => do
  let isClosed := args.getLast?.any fun a => a.toList.head? == some ']'
  if bracket && !isClosed then refuse "missing ]"
  else
    let words := if bracket then args.dropLast else args
    match conditionHolds (← world).files words with
    | .ok holds => return if holds then 0 else 1
    | .error message => refuse message

/-- Goes to a directory; there is none that matters but the workspace. -/
def cdBuiltin : Builtin := fun args => do
  match args with
  | [] => return 0
  | name :: _ => if isDirectory name then return 0 else refuse s!"can't cd to {name}"

def waitBuiltin : Builtin := fun args => do
  let jobsEnd := (← process).jobsEnd
  modifyWorld fun w => { w with now := max w.now jobsEnd }
  return if args.isEmpty then 0 else 127

def runTool (t : Tool) (called : String) (args : List String) : Act Nat := do
  let done := t called args (← readable 0) (← world).files
  let isHeard := (← process).channels.any fun (_, c) => match c with
    | .said _ => true
    | _ => false
  modifyWorld fun w =>
    let now := w.now + done.tookMs
    let heardUntil := if isHeard then max w.heardUntil now else w.heardUntil
    { w with files := done.files, now, heardUntil }
  if done.tookInput then leave 0 []
  for (stream, bytes) in done.said do
    say (if stream == .first then 1 else 2) bytes
  return done.status

def ownTool (t : String → Tool) (called : String) : Builtin := fun args => do
  runTool (t (← blameStart)) called args

/-- The commands that a shell does itself, but for those that run others. -/
def builtins : List (String × Builtin) :=
  [(":", fun _ => return 0), ("break", leaveLoops .break_), ("continue", leaveLoops .continue_),
    ("exit", exitBuiltin), ("export", exportBuiltin), ("local", localBuiltin),
    ("return", returnBuiltin), ("set", setBuiltin), ("shift", shiftBuiltin),
    ("unset", unsetBuiltin), ("true", fun _ => return 0), ("false", fun _ => return 1),
    ("echo", ownTool (fun _ => shellEcho) "echo"), ("printf", ownTool printf "printf"),
    ("test", testBuiltin false), ("[", testBuiltin true), ("read", readBuiltin),
    ("cd", cdBuiltin), ("wait", waitBuiltin)]

end CodeAssist.TestBed
