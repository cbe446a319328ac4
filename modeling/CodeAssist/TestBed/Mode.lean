/-!
Test bed: the modes of files, and changes of them.

A mode has three groups of three bits: for the owner, the group and the others, to read, to write
and to start the file. A change is a number, or says which bits
are added, taken away or set for whom.
-/

namespace CodeAssist.TestBed

/-! ## 1. Changes -/

inductive ModeDeed where
  | add
  | remove
  | set

structure ModeStep where
  /-- The bits of those it is for; for none of them it is for all but what the mask holds. -/
  whom : Nat
  deed : ModeDeed
  bits : Nat
  /-- Whether the bits to start a file are added if it has one of them. -/
  startsToo : Bool := false

inductive ModeChange where
  | to_ (mode : Nat)
  | steps (steps : List ModeStep)

def whomBits? (c : Char) : Option Nat :=
  [('u', 0o700), ('g', 0o070), ('o', 0o007), ('a', 0o777)].lookup c

def permissionBits? (c : Char) : Option Nat :=
  [('r', 0o444), ('w', 0o222), ('x', 0o111), ('X', 0)].lookup c

def modeDeed? (c : Char) : Option ModeDeed :=
  [('+', .add), ('-', .remove), ('=', .set)].lookup c

/-- The steps of one clause, after those it is for. The fuel is the number of characters. -/
def modeSteps? (whom : Nat) : Nat → List Char → Option (List ModeStep)
  | 0, _ => none
  | fuel + 1, cs =>
    match cs with
    | [] => none
    | sign :: rest =>
      match modeDeed? sign with
      | none => none
      | some deed =>
        let letters := rest.takeWhile fun c => (permissionBits? c).isSome
        let bits := letters.foldl (fun n c => n ||| (permissionBits? c).getD 0) 0
        let step := { whom, deed, bits, startsToo := letters.contains 'X' }
        match rest.drop letters.length with
        | [] => some [step]
        | rest => (modeSteps? whom fuel rest).map (step :: ·)

def clauses : List Char → List (List Char)
  | [] => [[]]
  | ',' :: rest => [] :: clauses rest
  | c :: rest =>
    match clauses rest with
    | first :: others => (c :: first) :: others
    | [] => [[c]]

def clauseSteps? (cs : List Char) : Option (List ModeStep) :=
  let letters := cs.takeWhile fun c => (whomBits? c).isSome
  let whom := letters.foldl (fun n c => n ||| (whomBits? c).getD 0) 0
  modeSteps? whom (cs.length + 1) (cs.drop letters.length)

def ModeChange.ofText? (text : String) : Option ModeChange :=
  let cs := text.toList
  if !cs.isEmpty && cs.all fun c => '0' ≤ c && c ≤ '7' then
    let mode := cs.foldl (fun n c => n * 8 + (c.toNat - 0x30)) 0
    if mode ≤ 0o7777 then some (.to_ mode) else none
  else ((clauses cs).mapM clauseSteps?).map fun steps => .steps steps.flatten

/-! ## 2. Changing -/

/-- A mode after a step, with a mask of the bits that are left alone where nobody is named. -/
def ModeStep.apply (mask mode : Nat) (s : ModeStep) : Nat :=
  let bits := s.bits ||| (if s.startsToo && mode &&& 0o111 != 0 then 0o111 else 0)
  let whom := if s.whom == 0 then 0o777 - mask else s.whom
  let chosen := bits &&& whom
  let without (bits : Nat) := mode - (mode &&& bits)
  match s.deed with
  | .add => mode ||| chosen
  | .remove => without chosen
  | .set => without whom ||| chosen

def ModeChange.apply (mask mode : Nat) : ModeChange → Nat
  | to_ mode => mode
  | steps list => list.foldl (ModeStep.apply mask) mode

end CodeAssist.TestBed
