import CodeAssist.TestBed.Invocation
import CodeAssist.TestBed.Redirect

/-!
Test bed: running commands.

A command may run any other one for a part, so all of this is given by a number that bounds how
deep commands go, as for reading. A loop is run so many times at most; what goes on after that
counts as endless.

The members of a pipe are run one after the other, each with what the one before it said.
-/

namespace CodeAssist.TestBed

open Text Act

/-! ## 1. Simple commands -/

/-- The words of a command as texts. Those that set variables are not split after the names of some
commands. -/
def commandTexts (below : Below) (words : List Word) : Act (List String) :=
  words.foldlM (fun texts w => do
    let sets := match texts with
      | name :: _ => ["export", "local"].contains name
      | [] => false
    match if sets then assignment? w else none with
    | some (name, value) => return texts ++ [name ++ "=" ++ (← wholeText below value)]
    | none => return texts ++ (← wordTexts below w)) []

/-- Gives variables the values that a command starts with; what the variables were before. -/
def setVars (below : Below) (exported : Bool) (settings : List (String × Word)) :
    Act (List (String × Option Variable)) := do
  let mut saved := []
  for (name, value) in settings do
    let text ← wholeText below value
    saved := (name, ← var? name) :: saved
    assign name text
    if exported then putVar name (some { (← var? name).getD {} with exported := true })
  return saved

/-- Does something with variables that have other values meanwhile. -/
def withVars (below : Below) (settings : List (String × Word)) (act : Act Unit) : Act Unit := do
  let saved ← setVars below true settings
  let mend : Act Unit := saved.forM fun (name, v) => putVar name v
  try
    act
    mend
  catch e =>
    mend
    throw e

def runTexts (below : Below) (settings : List (String × Word)) (rs : List Redirection)
    (name : String) (args : List String) : Act Unit := do
  let isSpecial := specialNames.contains name
  let known := (← process).functions.lookup name
  let function := if isSpecial then none else known
  match function, builtin? below name with
  | some body, _ =>
    let _ ← redirected below rs (withVars below settings (callFunction below body args))
  | none, some b =>
    if isSpecial then
      let ok ← redirected below rs do
        let _ ← setVars below false settings
        runBuiltin b name args
      if !ok then throw (.exit 2)
    else
      let _ ← redirected below rs (withVars below settings (runBuiltin b name args))
  | none, none =>
    if name == "exec" then
      if !(← redirectAll below rs) then throw (.exit 2)
      let _ ← setVars below true settings
      match args with
      | [] => setStatus 0
      | name :: args =>
        speakingAs (some "exec") (runExternal below name args)
        throw (.exit (← process).status)
    else
      let _ ← redirected below rs (withVars below settings (runApart below name args))

/-- Runs a simple command: assignments stand before its words, and are kept if there are none. -/
def runSimple (below : Below) (line : Nat) (words : List Word) (rs : List Redirection) :
    Act Unit := do
  modifyProcess fun p => { p with line, outputStatus := 0 }
  let settings := (words.map assignment?).takeWhile Option.isSome |>.filterMap id
  let texts ← commandTexts below (words.drop settings.length)
  match texts with
  | [] =>
    let _ ← redirected below rs do
      let _ ← setVars below false settings
      setStatus (← process).outputStatus
  | name :: args => runTexts below settings rs name args
  checkFailure

/-! ## 2. Other commands -/

/-- Runs the members of a pipe from one on, with what the one before said, and all from the same
time on; the status of the last one, and when all have ended. -/
def runMembers (below : Below) (start : Nat) :
    List Command → Option Channel → Nat → Act (Nat × Nat)
  | [], _, ends => return (0, ends)
  | c :: rest, input, ends => do
    let n := (← world).next
    modifyWorld fun w => { w with next := n + 1, now := start }
    let status ← subshell do
      match input with
      | some channel => setChannel 0 (some channel)
      | none => pure ()
      if !rest.isEmpty then setChannel 1 (some (.pipe n))
      below.run c
    let ends := max ends (← world).now
    if rest.isEmpty then return (status, ends)
    let said := ((← world).pipes.lookup n).getD []
    modifyWorld fun w => { w with pipes := w.pipes.filter (·.1 != n) }
    runMembers below start rest (some (← newInput said)) ends

def runBackground (below : Below) (c : Command) : Act Unit := do
  let start := (← world).now
  let _ ← subshell do
    setChannel 0 (some .nowhere)
    below.run c
  let ends := (← world).now
  modifyWorld fun w => { w with now := start }
  modifyProcess fun p => { p with jobsEnd := max p.jobsEnd ends, status := 0 }

/-- Does one round of a loop; whether there may be another one. -/
def oneRound (act : Act Bool) : Act Bool := do
  try
    act
  catch
    | .break_ n => if n ≤ 1 then return false else throw (.break_ (n - 1))
    | .continue_ n => if n ≤ 1 then return true else throw (.continue_ (n - 1))
    | e => throw e

def maxRounds : Nat := 10000

/-- Runs a loop as long as its test has a result; the status of the last round is kept. -/
def runWhile (below : Below) (test body : Command) (until_ : Bool) : Nat → Nat → Act Unit
  | 0, _ => throw .endless
  | rounds + 1, status => do
    let goesOn ← oneRound do
      tested (below.run test)
      if ((← process).status == 0) == until_ then
        setStatus status
        return false
      below.run body
      return true
    if goesOn then runWhile below test body until_ rounds (← process).status

def runFor (below : Below) (name : String) (body : Command) : List String → Act Unit
  | [] => return
  | text :: rest => do
    assign name text
    let goesOn ← oneRound do
      below.run body
      return true
    if goesOn then runFor below name body rest

/-- The body of the first clause that has a pattern for a text. -/
def chosenClause (below : Below) (text : List Char) :
    List (List Word × Command) → Act (Option Command)
  | [] => return none
  | (patterns, body) :: rest => do
    for w in patterns do
      let glob := Glob.ofCells (← patternCells below w)
      if glob.fits text then return some body
    chosenClause below text rest

def runCommand (below : Below) (c : Command) : Act Unit := do
  match c with
  | .empty => return
  | .simple line words rs => runSimple below line words rs
  | .pipe members =>
    let start := (← world).now
    let (status, ends) ← runMembers below start members none start
    modifyWorld fun w => { w with now := ends }
    setStatus status
    checkFailure
  | .negated c =>
    tested (below.run c)
    setStatus (if (← process).status == 0 then 1 else 0)
  | .ifSuccess a b =>
    tested (below.run a)
    if (← process).status == 0 then below.run b
  | .ifFailure a b =>
    tested (below.run a)
    if (← process).status != 0 then below.run b
  | .after a b =>
    below.run a
    below.run b
  | .background c => runBackground below c
  | .apart c =>
    setStatus (← subshell (below.run c))
    checkFailure
  | .redirected line c rs =>
    modifyProcess fun p => { p with line }
    let _ ← redirected below rs (below.run c)
    checkFailure
  | .if_ test body other =>
    tested (below.run test)
    if (← process).status == 0 then below.run body
    else
      match other with
      | .empty => setStatus 0
      | other => below.run other
  | .while_ test body until_ => inLoop (runWhile below test body until_ maxRounds 0)
  | .for_ line name words body =>
    modifyProcess fun p => { p with line }
    let texts ← match words with
      | some words => do pure (← words.mapM (wordTexts below)).flatten
      | none => do pure ((← process).arguments.drop 1)
    if texts.isEmpty then setStatus 0 else inLoop (runFor below name body texts)
  | .case_ line w clauses =>
    modifyProcess fun p => { p with line }
    let text ← wholeText below w
    match ← chosenClause below text.toList clauses with
    | none => setStatus 0
    | some .empty => setStatus 0
    | some body => below.run body
  | .function name body =>
    modifyProcess fun p =>
      { p with functions := (name, body) :: p.functions.filter (·.1 != name) }
    setStatus 0

def shellBelow : Nat → Below
  | 0 => { run := fun _ => throw .endless, expand := fun _ _ => throw .endless }
  | depth + 1 =>
    { run := fun c s => runCommand (shellBelow depth) c s
      expand := fun many w s => expandWord (shellBelow depth) many w s }

end CodeAssist.TestBed
