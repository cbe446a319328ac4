import CodeAssist.Outcome
import CodeAssist.Text.Line
import CodeAssist.Text.Pattern

/-!
Review without a network: line by line checks for common hazards of C.
-/

namespace CodeAssist.Offline

open Text

/-! ## 1. Hazards -/

def callPattern (names : List String) : Pattern String := fun before cs =>
  names.findSome? fun w => do
    let rest ← wordStart? w before cs
    let rest ← afterChar? '(' (dropBlank rest)
    return (w, rest)

def scanStringPattern : Pattern Unit := fun before cs => do
  let rest ← wordStart? "scanf" before cs
  let rest ← afterChar? '(' (dropBlank rest)
  let rest ← afterChar? '"' (dropBlank rest)
  if occurs ['%', 's'] (rest.takeWhile (· != '"')) then some ((), rest) else none

def startsName (c : Char) : Bool :=
  isAsciiLetter c || c == '_'

def variableFormatPattern : Pattern Unit := fun before cs => do
  let rest ← wordStart? "printf" before cs
  let rest ← afterChar? '(' (dropBlank rest)
  match dropBlank rest with
  | c :: rest =>
    if startsName c then
      let rest ← afterChar? ')' (dropBlank (rest.dropWhile isWord))
      return ((), rest)
    else none
  | [] => none

def markerPattern : Pattern Unit := fun before cs =>
  ["TODO", "FIXME", "XXX"].findSome? fun w => do
    let rest ← wordStart? w before cs
    if rest.head?.any isWord then none else some ((), rest)

def longLine : Nat := 100

/-! ## 2. Findings -/

/-- An issue on a line, and advice that goes with it. -/
structure Finding where
  severity : Severity
  message : String
  advice : Option String
  deriving DecidableEq, Repr

def finding (found : Bool) (severity : Severity) (message : String) (advice : Option String) :
    List Finding :=
  if found then [⟨severity, message, advice⟩] else []

def lineFindings (line : List Char) : List Finding :=
  finding (isMatch (callPattern ["gets"]) line) .error
    "gets() cannot limit its input and can overflow the buffer"
    (some "Read lines with fgets(buffer, sizeof buffer, stdin).") ++
  finding (isMatch scanStringPattern line) .warning
    "scanf with %s has no field width and can overflow the buffer"
    (some "Give %s a field width one less than the buffer size, e.g. %63s.") ++
  (match firstMatch (callPattern ["strcpy", "strcat", "sprintf"]) line with
    | some name =>
      [⟨.warning, s!"{name}() does not check the destination size",
        some "Prefer snprintf or check lengths before copying strings."⟩]
    | none => []) ++
  finding (isMatch variableFormatPattern line) .warning
    "printf is called with a non-literal format string"
    (some "Print untrusted text with printf(\"%s\", text) or puts.") ++
  finding (isMatch markerPattern line) .info "unfinished work is marked in a comment" none ++
  finding (longLine < line.length) .info s!"line is longer than {longLine} characters"
    (some "Wrap long lines to keep the code readable.")

/-- The findings on all lines, each with its line number. -/
def findings (ls : List (List Char)) : List (Nat × Finding) :=
  ls.zipIdx.flatMap fun (line, index) => (lineFindings line).map fun f => (index + 1, f)

/-- The first line that allocates memory, if none is released anywhere. -/
def leak? (code : List Char) (ls : List (List Char)) : Option Nat :=
  if isMatch (callPattern ["free"]) code then none
  else (ls.findIdx? (isMatch (callPattern ["malloc", "calloc", "realloc"]))).map (· + 1)

def leakFinding : Finding where
  severity := .warning
  message := "memory is allocated but never freed, which leaks it"
  advice := some "Release every allocation with free() once it is no longer needed."

/-! ## 3. The review -/

def eachOnce (seen : List String) : List String → List String
  | [] => []
  | s :: rest => if seen.contains s then eachOnce seen rest else s :: eachOnce (s :: seen) rest

/-- The areas asked for, trimmed, blank ones left out. -/
def areas (focus : List String) : List String :=
  (focus.map trim).filter fun s => !s.isEmpty

def countText : Nat → String
  | 0 => "No problems found by the local checks."
  | 1 => "The local checks found 1 issue."
  | n => s!"The local checks found {n} issues."

/-- `LocalReview`: a review of some code. -/
structure Findings where
  summary : String
  issues : List Issue
  suggestions : List String
  deriving DecidableEq, Repr

/-- `review_locally`: the review of some code, with areas to look at. -/
def reviewCode (code : String) (focus : List String) : Findings :=
  if isBlankText code then ⟨"Nothing to review: the code is empty.", [], []⟩
  else
    let cs := code.toList
    let ls := lines cs
    let all := findings ls ++ ((leak? cs ls).map fun n => (n, leakFinding)).toList
    let asked := areas focus
    let tail :=
      if asked.isEmpty then "" else " Requested focus: " ++ ", ".intercalate asked ++ "."
    { summary := countText all.length ++ tail
      issues := all.map fun (line, f) => ⟨f.message, some line, f.severity⟩
      suggestions := eachOnce [] (all.filterMap fun (_, f) => f.advice) }

end CodeAssist.Offline
