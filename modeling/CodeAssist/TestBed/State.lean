import CodeAssist.TestBed.Syntax
import CodeAssist.TestBed.Tool

/-!
Test bed: the state of a shell.

The world holds what shells share: the files, what was said, and what is left of inputs. What each
shell has for itself is its process: variables, functions, arguments, and where its descriptors
lead.
-/

namespace CodeAssist.TestBed

open Text

/-! ## 1. The world -/

inductive Channel where
  /-- To an output of the machine. -/
  | said (s : Stream)
  /-- Into a pipe, by its number. -/
  | pipe (n : Nat)
  | file (name : String)
  | nowhere
  /-- To an input, by its number. -/
  | input (n : Nat)

structure World where
  files : Workspace
  said : List (Stream × List UInt8) := []
  pipes : List (Nat × List UInt8) := []
  inputs : List (Nat × List UInt8) := []
  next : Nat := 0
  now : Nat := 0
  heardUntil : Nat := 0
  hereTexts : List (Nat × Word) := []
  nextHere : Nat := 0

/-! ## 2. Processes -/

structure Variable where
  value : Option String := none
  exported : Bool := false

structure Process where
  arguments : List String
  vars : List (String × Variable) := []
  functions : List (String × Command) := []
  status : Nat := 0
  /-- The status of the last command whose output stood for something. -/
  outputStatus : Nat := 0
  options : List Char := []
  channels : List (Nat × Channel) := []
  line : Nat := 1
  lineRead : Nat := 1
  speaker : Option String := none
  /-- Whether a failure is looked at, so that it does not end the shell. -/
  tested : Bool := false
  loops : Nat := 0
  calls : Nat := 0
  /-- What the variables of the functions that are being run were before. -/
  locals : List (List (String × Option Variable)) := []
  jobsEnd : Nat := 0

structure State where
  world : World
  process : Process

inductive Leaving where
  | exit (status : Nat)
  /-- So many loops are left. -/
  | break_ (loops : Nat)
  /-- So many loops are left but for the last, which goes on. -/
  | continue_ (loops : Nat)
  | return_ (status : Nat)
  /-- It would never end. -/
  | endless

abbrev Act := ExceptT Leaving (StateM State)

/-! ## 3. Reading and writing -/

namespace Act

def process : Act Process := do
  return (← get).process

def world : Act World := do
  return (← get).world

def modifyProcess (f : Process → Process) : Act Unit :=
  modify fun s => { s with process := f s.process }

def modifyWorld (f : World → World) : Act Unit :=
  modify fun s => { s with world := f s.world }

def setStatus (status : Nat) : Act Unit :=
  modifyProcess fun p => { p with status }

def channel? (fd : Nat) : Act (Option Channel) := do
  return (← process).channels.lookup fd

def setChannel (fd : Nat) (c : Option Channel) : Act Unit :=
  modifyProcess fun p =>
    { p with channels := (c.map fun c => (fd, c)).toList ++ p.channels.filter (·.1 != fd) }

def changed (list : List (Nat × α)) (n : Nat) (value : α) : List (Nat × α) :=
  (n, value) :: list.filter (·.1 != n)

def send (c : Channel) (bytes : List UInt8) : Act Unit :=
  modifyWorld fun w => match c with
    | .said s => { w with said := w.said ++ [(s, bytes)] }
    | .pipe n => { w with pipes := changed w.pipes n ((w.pipes.lookup n).getD [] ++ bytes) }
    | .file name =>
      let before := ((w.files.file? name).map (·.bytes)).getD []
      { w with files := w.files.withBytes name (before ++ bytes) }
    | _ => w

def say (fd : Nat) (bytes : List UInt8) : Act Unit := do
  match ← channel? fd with
  | some c => send c bytes
  | none => return

def newInput (bytes : List UInt8) : Act Channel := do
  let n := (← world).next
  modifyWorld fun w => { w with inputs := (n, bytes) :: w.inputs, next := n + 1 }
  return .input n

def readable (fd : Nat) : Act (List UInt8) := do
  match ← channel? fd with
  | some (.input n) => return ((← world).inputs.lookup n).getD []
  | _ => return []

def leave (fd : Nat) (bytes : List UInt8) : Act Unit := do
  match ← channel? fd with
  | some (.input n) => modifyWorld fun w => { w with inputs := changed w.inputs n bytes }
  | _ => return

/-! ## 4. Complaints -/

def blameStart : Act String := do
  let p ← process
  let name := p.arguments.head?.getD "sh"
  let speaker := (p.speaker.map (· ++ ": ")).getD ""
  return s!"{name}: {p.line}: {speaker}"

def blame (message : String) : Act Unit := do
  let start ← blameStart
  say 2 (rawBytes (start ++ message ++ "\n"))

def fail (message : String) : Act α := do
  blame message
  throw (.exit 2)

/-! ## 5. Variables -/

def var? (name : String) : Act (Option Variable) := do
  return (← process).vars.lookup name

def putVar (name : String) (v : Option Variable) : Act Unit :=
  modifyProcess fun p =>
    { p with vars := (v.map fun v => (name, v)).toList ++ p.vars.filter (·.1 != name) }

def isOn (letter : Char) : Act Bool := do
  return (← process).options.contains letter

def assign (name value : String) : Act Unit := do
  let v := (← var? name).getD {}
  putVar name (some { v with value := some value })

def splitters : Act (List Char) := do
  return (((← var? "IFS").bind (·.value)).getD " \t\n").toList

/-! ## 6. Processes of their own -/

/-- Does something in a process that starts as this one is; the world is shared. Its status is
what it ends with. -/
def apart (act : Act Unit) : Act Nat := do
  let before ← process
  let status ← try
      act
      pure (← process).status
    catch
      | .exit status => pure status
      | .return_ status => pure status
      | .endless => throw .endless
      | _ => pure (← process).status
  modifyProcess fun _ => before
  return status

end Act

end CodeAssist.TestBed
