import CodeAssist.TestBed.Expand
import CodeAssist.TestBed.Parser

/-!
Test bed: running the texts of scripts.

A script is run command by command as it is read, so what stands before a mistake is done.
-/

namespace CodeAssist.TestBed

open Text Act

/-! ## 1. Scopes -/

/-- Does something in a changed process, and mends the process then, however the thing ends. -/
def within (change : Process → Process) (mend : Process → Process → Process) (act : Act α) :
    Act α := do
  let before ← process
  modifyProcess change
  try
    let a ← act
    modifyProcess (mend before)
    return a
  catch e =>
    modifyProcess (mend before)
    throw e

def tested (act : Act α) : Act α :=
  within (fun p => { p with tested := true }) (fun before p => { p with tested := before.tested })
    act

def inLoop (act : Act α) : Act α :=
  within (fun p => { p with loops := p.loops + 1 })
    (fun before p => { p with loops := before.loops }) act

def speakingAs (name : Option String) (act : Act α) : Act α :=
  within (fun p => { p with speaker := name })
    (fun before p => { p with speaker := before.speaker }) act

/-- Ends the shell after a failure that is not looked at, if it is told to. -/
def checkFailure : Act Unit := do
  let p ← process
  if p.status != 0 && p.options.contains 'e' && !p.tested then throw (.exit p.status)

/-! ## 2. Scripts -/

/-- Runs the commands of a source. The fuel bounds the number of its lines. -/
def runSource (below : Below) : Nat → Source → Act Unit
  | 0, _ => return
  | fuel + 1, source => do
    let source := { source with next := max source.next (← world).nextHere, bodies := [] }
    match source.nextPart with
    | .finished => return
    | .mistake e line =>
      modifyProcess fun p => { p with line }
      fail e.message
    | .commands c rest =>
      modifyWorld fun w =>
        { w with hereTexts := rest.bodies ++ w.hereTexts, nextHere := rest.next }
      modifyProcess fun p => { p with lineRead := rest.line }
      below.run c
      runSource below fuel rest

def runText (below : Below) (text : List Char) : Act Unit :=
  within id (fun before p => { p with lineRead := before.lineRead })
    (runSource below (text.length + 2) { rest := text })

def subshell (act : Act Unit) : Act Nat :=
  apart do
    modifyProcess fun p => { p with jobsEnd := 0 }
    act

end CodeAssist.TestBed
