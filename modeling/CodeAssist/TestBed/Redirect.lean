import CodeAssist.TestBed.Script
import CodeAssist.TestBed.Tools

/-!
Test bed: redirections, that is where the descriptors of a command lead while it is run.
-/

namespace CodeAssist.TestBed

open Text Act

/-- Ends the shell because of a mistake in what was read last. -/
def failReading (e : SyntaxError) : Act α := do
  modifyProcess fun p => { p with line := p.lineRead }
  fail e.message

def openOutput (name : String) (opening : Opening) : Act (Except String Channel) := do
  let files := (← world).files
  let plain := plainName name
  if isNothing name then return .ok .nowhere
  else if name == "/dev/stdout" || name == "/dev/fd/1" then
    return ((← channel? 1).map Except.ok).getD (.ok .nowhere)
  else if name == "/dev/stderr" || name == "/dev/fd/2" then
    return ((← channel? 2).map Except.ok).getD (.ok .nowhere)
  else if isDirectory name then return .error s!"cannot create {name}: Is a directory"
  else if !canMake name then return .error s!"cannot create {name}: Directory nonexistent"
  else
    let bytes := if opening == .append then ((files.file? plain).map (·.bytes)).getD [] else []
    modifyWorld fun w => { w with files := w.files.withBytes plain bytes }
    return .ok (.file plain)

def openInput (name : String) : Act (Except String Channel) := do
  if isNothing name || isDirectory name then return .ok (← newInput [])
  else if name == "/dev/stdin" || name == "/dev/fd/0" then
    return ((← channel? 0).map Except.ok).getD (.ok .nowhere)
  else
    match (← world).files.file? (plainName name) with
    | some f => return .ok (← newInput f.bytes)
    | none => return .error s!"cannot open {name}: No such file"

def redirect (below : Below) (r : Redirection) : Act Bool := do
  let lead (fd : Nat) (c : Except String Channel) : Act Bool := do
    match c with
    | .ok c =>
      setChannel fd (some c)
      return true
    | .error message =>
      blame message
      return false
  match r with
  | .read fd w => lead fd (← openInput (← wholeText below w))
  | .write fd w opening => lead fd (← openOutput (← wholeText below w) opening)
  | .here fd n =>
    let word := ((← world).hereTexts.lookup n).getD []
    try
      let text := textOfAtoms (← between) (← expandWord below false word)
      lead fd (.ok (← newInput (rawBytes text)))
    catch
      | .exit _ => return false
      | e => throw e
  | .copy fd w =>
    let text ← wholeText below w
    match text.toList with
    | ['-'] =>
      setChannel fd none
      return true
    | [c] =>
      if !c.isDigit then failReading .badDescriptor
      match ← channel? (c.toNat - 0x30) with
      | some channel => lead fd (.ok channel)
      | none =>
        setChannel fd none
        blame s!"{text}: Bad file descriptor"
        return false
    | _ => failReading .badDescriptor

/-- Sets up redirections one after the other; whether all can be. -/
def redirectAll (below : Below) (rs : List Redirection) : Act Bool := do
  for r in rs do
    if !(← redirect below r) then return false
  return true

/-- Does something with redirections, if they can be set up; whether they can be. -/
def redirected (below : Below) (rs : List Redirection) (act : Act Unit) : Act Bool :=
  let isMine (fd : Nat) : Bool := rs.any fun r => r.fd == fd
  let mend (before p : Process) : Process :=
    { p with
      channels := (before.channels.filter fun (fd, _) => isMine fd) ++
        p.channels.filter fun (fd, _) => !isMine fd }
  within id mend do
    if ← redirectAll below rs then
      act
      return true
    else
      setStatus 2
      return false

end CodeAssist.TestBed
