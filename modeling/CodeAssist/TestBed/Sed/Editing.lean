import CodeAssist.TestBed.Sed.Run
import CodeAssist.TestBed.Tool

/-!
Test bed: the stream editor as a tool.

Its arguments are switches, scripts and the names of files. It edits the lines of all files as one
text, or puts what it makes of each file in the place of the file.
-/

namespace CodeAssist.TestBed.Sed

open Text

/-! ## 1. Arguments -/

structure Editing where
  scripts : List (List Char) := []
  quiet : Bool := false
  extended : Bool := false
  /-- Whether the files themselves are changed. -/
  inPlace : Bool := false
  operands : List String := []
  /-- Whether the next argument is a script. -/
  waiting : Bool := false
  plain : Bool := false

namespace Editing

def switches (e : Editing) : List Char → Except String Editing
  | [] => .ok e
  | 'n' :: more => { e with quiet := true }.switches more
  | 'E' :: more => { e with extended := true }.switches more
  | 'r' :: more => { e with extended := true }.switches more
  | 'i' :: more => { e with inPlace := true }.switches more
  | ['e'] => .ok { e with waiting := true }
  | 'e' :: script => .ok { e with scripts := e.scripts ++ [script] }
  | c :: _ => .error s!"invalid option -- '{c}'"

def take (e : Editing) (arg : String) : Except String Editing :=
  if e.waiting then .ok { e with scripts := e.scripts ++ [arg.toList], waiting := false }
  else if e.plain then .ok { e with operands := e.operands ++ [arg] }
  else
    match arg.toList with
    | ['-', '-'] => .ok { e with plain := true }
    | '-' :: '-' :: _ => .error s!"unrecognized option '{arg}'"
    | '-' :: c :: more => e.switches (c :: more)
    | _ => .ok { e with operands := e.operands ++ [arg] }

/-- What the arguments tell. Without another script the first operand is the script. -/
def ofArguments (args : List String) : Except String Editing := do
  let e ← args.foldlM take {}
  if e.waiting then throw "option requires an argument -- 'e'"
  match e.scripts, e.operands with
  | [], script :: operands => return { e with scripts := [script.toList], operands }
  | [], [] => throw "Usage: sed [OPTION]... \x7bscript-only-if-no-other-script\x7d [input-file]..."
  | _, _ => return e

end Editing

/-! ## 2. Scripts -/

/-- Where a place of the joined scripts is: the number of the script, and the place in it. -/
def placeIn : List (List Char) → Nat → Nat → String
  | text :: other :: rest, n, place =>
    if text.length + 1 < place then placeIn (other :: rest) (n + 1) (place - text.length - 1)
    else s!"-e expression #{n}, char {min place text.length}"
  | texts, n, place => s!"-e expression #{n}, char {min place texts.flatten.length}"

/-- The commands of the joined scripts, or what is wrong with them: a status and a sentence. -/
def commandsOf (extended : Bool) (scripts : List (List Char)) :
    Except (Nat × String) (List Command) :=
  let text := ['\n'].intercalate scripts
  let (r, mistake) := readCommands extended (text.length + 1) {} text
  match mistake.or r.unfinished?, missingLabels r.done with
  | some m, _ =>
    let place := match m.left with
      | some left => placeIn scripts 1 (text.length - left)
      | none => "-e expression #1, char 0"
    .error (1, s!"{place}: {m.sentence}")
  | none, label :: _ => .error (4, s!"can't find label for jump to \x60{label}'")
  | none, [] => .ok r.done

/-! ## 3. Editing -/

inductive Found where
  | bytes (bs : List UInt8)
  | absent (why : String)
  /-- Something that ends its work. -/
  | fatal (why : String)

def find (inPlace : Bool) (stdin : List UInt8) (files : Workspace) (name : String) : Found :=
  if name == "-" && !inPlace then .bytes stdin
  else
    match files.file? (plainName name) with
    | some f => .bytes f.bytes
    | none =>
      if isDirectory name then
        .fatal (if inPlace then s!"couldn't edit {name}: not a regular file"
          else s!"read error on {name}: Is a directory")
      else .absent s!"can't read {name}: {missing}"

structure Progress where
  files : Workspace
  said : List Char := []
  stop : Stop := .finished

def Progress.edit (p : Progress) (e : Editing) (commands : List Command)
    (group : List (String × List UInt8)) : Progress :=
  if p.stop != .finished then p
  else
    let input := group.flatMap fun (_, bytes) => spacesOf (charsOfBytes bytes)
    let (editor, stop) := Editor.run commands { input, quiet := e.quiet }
    let out := textOf false editor.written
    match e.inPlace, group with
    | true, [(name, _)] =>
      { p with files := p.files.withBytes (plainName name) (bytesOfChars out), stop }
    | _, _ => { p with said := p.said ++ out, stop }

end CodeAssist.TestBed.Sed

namespace CodeAssist.TestBed

open Text
open TestBed.Sed

def Sed.Editing.run (e : Editing) (called : String) (commands : List Sed.Command)
    (stdin : List UInt8) (files : Workspace) : Done :=
  let names := if e.operands.isEmpty then ["-"] else e.operands
  let all := names.map fun name => (name, find e.inPlace stdin files name)
  let good := all.takeWhile fun (_, f) => !(f matches .fatal _)
  let found := good.filterMap fun (name, f) => match f with
    | .bytes bs => some (name, bs)
    | _ => none
  let absent := good.filterMap fun (_, f) => match f with
    | .absent why => some (complaint s!"{called}: {why}")
    | _ => none
  let fatal := (all.drop good.length).head?.bind fun (_, f) => match f with
    | .fatal why => some (complaint s!"{called}: {why}")
    | _ => none
  let groups := if e.inPlace then found.map ([·]) else [found]
  let p : Progress := groups.foldl (fun p group => p.edit e commands group) { files }
  let (status, why, tookMs) : Nat × List (Stream × List UInt8) × Nat := match p.stop with
    | .endless => (0, [], endlessMs)
    | .quit status => (if absent.isEmpty then status else 2, [], 0)
    | .finished =>
      if fatal.isSome then (4, fatal.toList, 0) else (if absent.isEmpty then 0 else 2, [], 0)
  { status, tookMs
    said := absent ++ why ++ [(.first, bytesOfChars p.said)]
    files := p.files
    tookInput := all.any fun (name, _) => name == "-" }

def sed : Tool := fun called args stdin files =>
  match Sed.Editing.ofArguments args with
  | .error message => complain files 1 s!"{called}: {message}"
  | .ok e =>
    match commandsOf e.extended e.scripts with
    | .error (status, message) => complain files status s!"{called}: {message}"
    | .ok commands =>
      -- A script may tell to be quiet by its first characters.
      let quiet := e.quiet || e.scripts.head?.any (['#', 'n'].isPrefixOf ·)
      { e with quiet }.run called commands stdin files

end CodeAssist.TestBed
