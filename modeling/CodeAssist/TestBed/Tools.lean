import CodeAssist.TestBed.Mode
import CodeAssist.TestBed.Quoting
import CodeAssist.TestBed.Sed.Editing

/-!
Test bed: the tools of the small machine.
-/

namespace CodeAssist.TestBed

open Text

/-! ## 1. Arguments -/

structure Told where
  switches : List Char := []
  operands : List String := []
  plain : Bool := false

/-- What the arguments of a tool say, or what is wrong with them: a switch is one of some
letters. -/
def told (letters : List Char) (args : List String) : Except String Told :=
  args.foldlM (fun t arg =>
    let operand : Told := { t with operands := t.operands ++ [arg] }
    if t.plain then .ok operand
    else
      match arg.toList with
      | ['-', '-'] => .ok { t with plain := true }
      | '-' :: '-' :: _ => .error s!"unrecognized option '{arg}'"
      | '-' :: c :: more =>
        match (c :: more).find? fun c => !letters.contains c with
        | some c => .error s!"invalid option -- '{c}'"
        | none => .ok { t with switches := t.switches ++ c :: more }
      | _ => .ok operand) {}

def complainUsage (called : String) (files : Workspace) (status : Nat) (message : String) : Done :=
  complain files status s!"{called}: {message}\nTry '{called} --help' for more information."

/-- Why there is no file under a name: it leads through a file, or there is nothing. -/
def whyMissing (files : Workspace) (name : String) : String :=
  let parts := splitAt '/' name.toList
  let leadsThrough := parts.dropLast.any fun p => (files.file? (String.ofList p)).isSome
  if leadsThrough then "Not a directory" else missing

/-- Whether a name is that of the device that has nothing in it. -/
def isNothing (name : String) : Bool :=
  name == "/dev/null"

/-! ## 2. Speaking -/

/-- Says its arguments. Letters after a first dash are switches: no newline, and escapes. -/
def echo : Tool := fun _ args _ files =>
  let isSwitch (a : String) : Bool :=
    a.length > 1 && a.toList.head? == some '-' && (a.toList.drop 1).all ['n', 'e', 'E'].contains
  let switches := (args.takeWhile isSwitch).flatMap (·.toList.drop 1)
  let text := " ".intercalate (args.dropWhile isSwitch)
  let escapes := (switches.filter (· != 'n')).getLast? == some 'e'
  let (bytes, ended) := if escapes then unescape 0 text.toList else (rawBytes text, false)
  saying files (bytes ++ (if switches.contains 'n' || ended then [] else [10]))

def shellEcho : Tool := fun _ args _ files =>
  let quiet := args.head? == some "-n"
  let text := " ".intercalate (if quiet then args.drop 1 else args)
  let (bytes, ended) := unescape 0 text.toList
  saying files (bytes ++ (if quiet || ended then [] else [10]))

/-- Says its arguments in a format. Complaints start with what `speaker` says. -/
def printf (speaker : String) : Tool := fun _ args _ files =>
  let first := (args.head?.getD "").toList
  if first.length > 1 && first.head? == some '-' && first != ['-', '-'] then
    complain files 2 s!"{speaker}Illegal option -{String.ofList ((first.drop 1).take 1)}"
  else
    match if first == ['-', '-'] then args.drop 1 else args with
    | [] => complain files 2 s!"{speaker}usage: printf format [arg ...]"
    | format :: args =>
      let f := fillFormat format args
      let (status, halted) := match f.halt with
        | some (.broken sentence) => (2, [sentence])
        | _ => (if f.complaints.isEmpty then 0 else 1, [])
      let complaints := (f.complaints ++ halted).map fun c => complaint (speaker ++ c)
      { status, said := complaints ++ [(.first, f.out)], files }

/-! ## 3. Showing files -/

/-- A text with its lines numbered; the number of the last one before is given, and whether a line
begins. -/
def numbered : Nat → Bool → List Char → List Char
  | _, _, [] => []
  | n, fresh, c :: rest =>
    let digits := Nat.toDigits 10 (n + 1)
    let start := List.replicate (6 - digits.length) ' ' ++ digits ++ ['\t']
    (if fresh then start else []) ++ c :: numbered (if fresh then n + 1 else n) (c == '\n') rest

def cat : Tool := fun called args stdin files =>
  match told ['n', 'u'] args with
  | .error message => complainUsage called files 1 message
  | .ok t =>
    let names := if t.operands.isEmpty then ["-"] else t.operands
    let (said, _) := names.foldl (fun (said, left) name =>
      let one : Stream × List UInt8 :=
        if name == "-" then (.first, left)
        else if isNothing name then (.first, [])
        else
          match files.file? (plainName name) with
          | some f => (.first, f.bytes)
          | none =>
            let why := if isDirectory name then "Is a directory" else whyMissing files name
            complaint s!"{called}: {shownName name}: {why}"
      (said ++ [one], if name == "-" then [] else left))
      (([] : List (Stream × List UInt8)), stdin)
    let all := said.flatMap fun (s, bytes) => if s == .first then charsOfBytes bytes else []
    { status := if said.any fun (s, _) => s == .second then 1 else 0
      said := if t.switches.contains 'n' then
          said.filter (fun (s, _) => s == .second) ++
            [(.first, bytesOfChars (numbered 0 true all))]
        else said
      files, tookInput := names.any (· == "-") }

/-! ## 4. Copying -/

/-- The workspace with a file copied: the copy gets the mode of the file, but a file that is there
already keeps its own. -/
def copied (files : Workspace) (f : WorkFile) (target : String) : Workspace :=
  let mode := ((files.file? target).map (·.mode)).getD f.mode
  files.put { name := target, bytes := f.bytes, mode }

def canMake (name : String) : Bool :=
  !name.isEmpty && (!(plainName name).toList.contains '/' || isDirectory (folder name))
where
  folder (name : String) : String :=
    String.ofList ((name.toList.reverse.dropWhile (· != '/')).reverse)

def copyOne (called : String) (files : Workspace) (source target : String) :
    Workspace × List (Stream × List UInt8) :=
  let complain (message : String) := (files, [complaint s!"{called}: {message}"])
  let shown := quotedName source
  match files.file? (plainName source) with
  | none =>
    if isNothing source then (files.withBytes (plainName target) [], [])
    else if isDirectory source then complain s!"-r not specified; omitting directory {shown}"
    else complain s!"cannot stat {shown}: {whyMissing files source}"
  | some f =>
    let goal := quotedName target
    if plainName source == plainName target then
      complain s!"{shown} and {goal} are the same file"
    else if isNothing target then (files, [])
    else if !canMake target then
      if whyMissing files target == missing then
        let why := if target.toList.getLast? == some '/' then "Not a directory" else missing
        complain s!"cannot create regular file {goal}: {why}"
      else complain s!"cannot stat {goal}: Not a directory"
    else (copied files f (plainName target), [])

def cp : Tool := fun called args _ files =>
  match told ['a', 'f', 'p', 'R', 'r'] args with
  | .error message => complainUsage called files 1 message
  | .ok t =>
    match t.operands with
    | [] => complainUsage called files 1 "missing file operand"
    | [source] =>
      complainUsage called files 1 s!"missing destination file operand after {quotedName source}"
    | operands =>
      let target := operands.getLast?.getD ""
      let sources := operands.dropLast
      let into := isDirectory target
      if sources.length > 1 && !into then
        let why := if (files.file? (plainName target)).isSome then "Not a directory"
          else whyMissing files target
        complain files 1 s!"{called}: target {quotedName target}: {why}"
      else
        let goal (source : String) : String :=
          if into then
            let slash := if target.toList.getLast? == some '/' then "" else "/"
            let last := (source.toList.reverse.takeWhile (· != '/')).reverse
            target ++ slash ++ String.ofList last
          else target
        let (files, said) := sources.foldl (fun (files, said) source =>
          let (files, more) := copyOne called files source (goal source)
          (files, said ++ more)) (files, [])
        { status := if said.any fun (s, _) => s == .second then 1 else 0, said, files }

/-! ## 5. Modes -/

/-- Whether an argument is a change of modes although it begins like a switch. -/
def isModeSwitch (arg : String) : Bool :=
  match arg.toList with
  | '-' :: c :: _ => (permissionBits? c).isSome || ('0' ≤ c && c ≤ '7') ||
      ['u', 'g', 'o', 'a'].contains c
  | _ => false

def chmod : Tool := fun called args _ files =>
  let removal := args.find? isModeSwitch
  let others := match removal with
    | some mode => args.erase mode
    | none => args
  match told [] others with
  | .error message => complainUsage called files 1 message
  | .ok t =>
    match removal.toList ++ t.operands with
    | [] => complainUsage called files 1 "missing operand"
    | [mode] => complainUsage called files 1 s!"missing operand after {quotedName mode}"
    | mode :: names =>
      match ModeChange.ofText? mode with
      | none => complainUsage called files 1 s!"invalid mode: {quotedName mode}"
      | some change =>
        let (files, said) := names.foldl (fun (files, said) name =>
          match Workspace.file? files (plainName name) with
          | some f =>
            let mode := change.apply 0o022 f.mode
            (files.map fun g => if g.name == f.name then { g with mode } else g, said)
          | none =>
            if isDirectory name || isNothing name then (files, said)
            else
              let why := s!"{called}: cannot access {quotedName name}: {whyMissing files name}"
              (files, said ++ [complaint why])) (files, ([] : List (Stream × List UInt8)))
        { status := if said.isEmpty then 0 else 1, said, files }

/-! ## 6. Listing -/

def listedText (names : List String) : String :=
  String.join ((names.mergeSort fun a b => a ≤ b).map (· ++ "\n"))

def ls : Tool := fun called args _ files =>
  match told ['1', 'a', 'A'] args with
  | .error message => complainUsage called files 2 message
  | .ok t =>
    let has (c : Char) : Bool := t.switches.contains c
    let names := if t.operands.isEmpty then ["."] else t.operands
    let isFile (n : String) : Bool := (files.file? (plainName n)).isSome || isNothing n
    let absent := names.filter fun n => !isFile n && !isDirectory n
    let given := names.filter isFile
    let folders := (names.filter fun n => !isFile n && isDirectory n).mergeSort fun a b => a ≤ b
    let inside := (if has 'a' then [".", ".."] else []) ++
      (files.map (·.name)).filter fun n => !n.toList.contains '/' &&
        (n.toList.head? != some '.' || has 'a' || has 'A')
    let parts := (if given.isEmpty then [] else [listedText given]) ++ folders.map fun n =>
      (if names.length > 1 then s!"{n}:\n" else "") ++ listedText inside
    { status := if absent.isEmpty then 0 else 2
      said := absent.map (fun n =>
          complaint s!"{called}: cannot access {quotedName n}: {whyMissing files n}") ++
        [(.first, rawBytes ("\n".intercalate parts))]
      files }

/-! ## 7. The rest -/

/-- The milliseconds of a number of seconds with a fraction, and what follows it. -/
def secondsOf? (cs : List Char) : Option (Nat × List Char) :=
  let (whole, length) := leadingNumber cs
  let rest := cs.drop length
  match rest with
  | '.' :: more =>
    let digits := more.takeWhile Char.isDigit
    if length == 0 && digits.isEmpty then none
    else
      let part := (leadingNumber ((digits ++ ['0', '0', '0']).take 3)).1
      some (whole * 1000 + part, more.drop digits.length)
  | _ => if length == 0 then none else some (whole * 1000, rest)

def milliseconds? (text : String) : Option Nat :=
  match secondsOf? text.toList with
  | some (ms, []) => some ms
  | some (ms, ['s']) => some ms
  | some (ms, ['m']) => some (ms * 60)
  | some (ms, ['h']) => some (ms * 3600)
  | some (ms, ['d']) => some (ms * 86400)
  | _ => if text == "inf" || text == "infinity" then some endlessMs else none

def sleep : Tool := fun called args _ files =>
  match told [] args with
  | .error message => complainUsage called files 1 message
  | .ok t =>
    match t.operands.filter fun a => (milliseconds? a).isNone with
    | [] =>
      if t.operands.isEmpty then complainUsage called files 1 "missing operand"
      else { files, tookMs := (t.operands.filterMap milliseconds?).foldl (· + ·) 0 }
    | bad =>
      let lines := bad.map fun a => s!"{called}: invalid time interval {quotedName a}"
      let hint := s!"Try '{called} --help' for more information."
      complain files 1 ("\n".intercalate (lines ++ [hint]))

def ends (status : Nat) : Tool := fun _ _ _ files =>
  { status, files }

def tool? (name : String) : Option Tool :=
  [("true", ends 0), ("false", ends 1), ("echo", echo), ("printf", printf "printf: "), ("cat", cat),
    ("cp", cp), ("chmod", chmod), ("ls", ls), ("sed", sed), ("sleep", sleep)].lookup name

end CodeAssist.TestBed
