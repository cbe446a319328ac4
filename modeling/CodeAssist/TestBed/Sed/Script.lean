import CodeAssist.TestBed.Format
import CodeAssist.TestBed.Regex.Reader
import CodeAssist.Text.Line

/-!
Test bed: scripts of a stream editor.

A script is a list of commands. A command has at most two addresses, which say for which lines it
is, and does one thing with the line in hand. Commands between braces are skipped together, and a
label can be jumped to, so the commands of a script are numbered.
-/

namespace CodeAssist.TestBed.Sed

/-! ## 1. Commands -/

/-- A regular expression, and whether letters may be of any case. -/
structure Pattern where
  regex : Regex
  anyCase : Bool := false
  deriving DecidableEq

inductive Address where
  | line (n : Nat)
  /-- Every so many lines, from a line on. -/
  | steps (first step : Nat)
  | last
  | matching (p : Pattern)
  /-- So many lines after the first address. -/
  | further (n : Nat)

inductive Casing where
  | upper
  | lower
  deriving DecidableEq

inductive Filler where
  | char (c : Char)
  /-- A group of the match, or all of it. -/
  | group (n : Nat)
  /-- From here on letters are changed, or not any more. -/
  | casing (c : Option Casing)
  /-- The next letter is changed. -/
  | casingOnce (c : Casing)
  deriving DecidableEq

structure Substitution where
  pattern : Pattern
  fillers : List Filler
  nth : Nat := 1
  everywhere : Bool := false
  prints : Bool := false
  deriving DecidableEq

inductive Deed where
  /-- The start of commands between braces, and the number of the command after them. -/
  | block (after : Nat)
  | substitute (s : Substitution)
  | transliterate (pairs : List (Char × Char))
  /-- Lines after this one, before it, or in place of it. -/
  | append (text : List Char)
  | insert (text : List Char)
  | change (text : List Char)
  | delete
  | deleteFirst
  | print
  | printFirst
  | number
  | next
  | nextAppended
  | hold
  | holdAppended
  | get
  | getAppended
  | exchange
  | quit (status : Nat)
  /-- Goes on at a label, or at the end of the script; `ifChanged` only after a substitution. -/
  | jump (ifChanged : Bool) (label : String)
  | label (name : String)
  deriving DecidableEq

/-- A command: its addresses, whether it is for the other lines, and what it does. -/
structure Command where
  first : Option Address := none
  second : Option Address := none
  inverted : Bool := false
  deed : Deed

/-- What is wrong with a script, and where: in which of its texts, and how many characters follow
the place there, if there is a place. -/
structure Mistake where
  sentence : String
  left : Option Nat

def mistake (sentence : String) (rest : List Char) : Except Mistake α :=
  .error ⟨sentence, some rest.length⟩

/-! ## 2. Escapes -/

/-- The character of the digits at the start of a text, at most `most` of them, and how many there
are. -/
def codeOf (base most : Nat) (cs : List Char) : Option (Char × Nat) :=
  let digits := (cs.take most).takeWhile fun c => (digitIn? base c).isSome
  if digits.isEmpty then none
  else
    let n := digits.foldl (fun n d => n * base + (digitIn? base d).getD 0) 0
    some (Char.ofNat (n % 256), digits.length)

/-- The character of an escape after its backslash, and the number of its characters. An escape of
a line's end is not among these. -/
def escapedChar? (cs : List Char) : Option (Char × Nat) :=
  match cs with
  | 'a' :: _ => some ('\x07', 1)
  | 'f' :: _ => some ('\x0c', 1)
  | 'r' :: _ => some ('\r', 1)
  | 't' :: _ => some ('\t', 1)
  | 'v' :: _ => some ('\x0b', 1)
  | 'o' :: rest => (codeOf 8 3 rest).map fun (c, n) => (c, n + 1)
  | 'x' :: rest => (codeOf 16 2 rest).map fun (c, n) => (c, n + 1)
  | _ => none

/-- A text with its escapes undone. Those for which `keeps` says so get a backslash, and so do
characters after a backslash that begin no escape. `skip` characters were read already. -/
def unescaped (keeps : Char → Bool) : Nat → List Char → List Char
  | _, [] => []
  | skip + 1, _ :: rest => unescaped keeps skip rest
  | 0, '\\' :: rest =>
    match escapedChar? rest with
    | some (c, n) => (if keeps c then ['\\', c] else [c]) ++ unescaped keeps n rest
    | none =>
      match rest with
      | c :: more => '\\' :: c :: unescaped keeps 0 more
      | [] => ['\\']
  | 0, c :: rest => c :: unescaped keeps 0 rest

/-- A text without the backslashes that stand before other characters; one before the letter of a
line's end makes that. -/
def withoutBackslashes : List Char → List Char
  | '\\' :: c :: rest => (if c == 'n' then '\n' else c) :: withoutBackslashes rest
  | c :: rest => c :: withoutBackslashes rest
  | [] => []

/-! ## 3. Texts between signs -/

/-- What stands before a sign on the same line, and what follows it. A sign after a backslash, or
between brackets in a regular expression, does not count; the backslash before a sign is dropped.
A line's end after a backslash ends no line. -/
def upTo (sign : Char) (isRegex : Bool) : Nat → List Char → List Char →
    Except (List Char) (List Char × List Char)
  | 0, _, rest => .error rest
  | fuel + 1, done, cs =>
    match cs with
    | [] => .error []
    | '\\' :: c :: rest =>
      let kept :=
        if c == sign && !(c == '&' && !isRegex) then [c]
        else if c == 'n' && isRegex then ['\n']
        else if c == '\n' && isRegex then ['\n']
        else ['\\', c]
      upTo sign isRegex fuel (kept.reverse ++ done) rest
    | c :: rest =>
      if c == sign then .ok (done.reverse, rest)
      else if c == '\n' then .error cs
      else if c == '[' && isRegex then
        let inside := bracketLength rest
        upTo sign isRegex fuel ((withLineEnds (rest.take inside)).reverse ++ c :: done)
          (rest.drop inside)
      else upTo sign isRegex fuel (c :: done) rest
where
  /-- The characters of a set with the escapes of line's ends undone. -/
  withLineEnds : List Char → List Char
    | '\\' :: c :: rest => (if c == 'n' then ['\n'] else ['\\', c]) ++ withLineEnds rest
    | c :: rest => c :: withLineEnds rest
    | [] => []
  /-- How many characters a set has after its opening bracket, if it is closed on the line. -/
  bracketLength (rest : List Char) : Nat :=
    let line := rest.takeWhile (· != '\n')
    match charSet line with
    | .ok (_, after) => line.length - after.length
    | .error _ => line.length

/-- The pattern of a regular expression, and how many groups it has. -/
def patternOf (extended anyCase : Bool) (re rest : List Char) : Except Mistake (Pattern × Nat) :=
  if re.isEmpty then .error ⟨"no previous regular expression", none⟩
  else
    match Regex.parse extended (unescaped (· == '\\') 0 re) with
    | .ok r => .ok (⟨r, anyCase⟩, r.groupCount)
    | .error e => mistake e.message rest

/-! ## 4. Addresses -/

def isSpace (c : Char) : Bool :=
  c == ' ' || c == '\t' || c == '\r' || c == '\x0b' || c == '\x0c'

def skipSpace (cs : List Char) : List Char :=
  cs.dropWhile isSpace

def number? (cs : List Char) : Option (Nat × List Char) :=
  let digits := cs.takeWhile Char.isDigit
  if digits.isEmpty then none
  else some (digits.foldl (fun n d => n * 10 + (d.toNat - 0x30)) 0, cs.drop digits.length)

/-- The address of a regular expression that ends with a sign. -/
def regexAddress (extended : Bool) (sign : Char) (cs : List Char) :
    Except Mistake (Option Address × List Char) :=
  match upTo sign true (cs.length + 1) [] cs with
  | .error rest => mistake "unterminated address regex" rest
  | .ok (re, rest) => do
    let anyCase := rest.head? == some 'I'
    let rest := if anyCase then rest.drop 1 else rest
    let (p, _) ← patternOf extended anyCase re rest
    return (some (.matching p), rest)

def address (extended : Bool) (cs : List Char) : Except Mistake (Option Address × List Char) :=
  match cs with
  | '$' :: rest => .ok (some .last, rest)
  | '/' :: rest => regexAddress extended '/' rest
  | '\\' :: sign :: rest => regexAddress extended sign rest
  | '+' :: rest => .ok ((number? rest).elim (some (.further 0), rest) fun (n, rest) =>
      (some (.further n), rest))
  | cs =>
    match number? cs with
    | none => .ok (none, cs)
    | some (n, rest) =>
      match skipSpace rest with
      | '~' :: more =>
        match number? (skipSpace more) with
        | some (step, rest) => .ok (some (if step == 0 then .line n else .steps n step), rest)
        | none => .ok (some (.line n), more)
      | _ => .ok (some (.line n), rest)

/-! ## 5. Deeds -/

/-- What follows a command: the end, or the sign of another one. -/
def ended (deed : Deed) (cs : List Char) : Except Mistake (Deed × List Char) :=
  match skipSpace cs with
  | [] => .ok (deed, [])
  | c :: rest =>
    if c == '\x7d' || c == '#' then .ok (deed, c :: rest)
    else if c == '\n' || c == ';' then .ok (deed, rest)
    else mistake "extra characters after command" rest

def fillers : List Char → List Filler
  | [] => []
  | '\\' :: c :: rest =>
    (if c.isDigit then Filler.group (c.toNat - 0x30)
     else match c with
      | 'n' => .char '\n'
      | 'U' => .casing (some .upper)
      | 'L' => .casing (some .lower)
      | 'E' => .casing none
      | 'u' => .casingOnce .upper
      | 'l' => .casingOnce .lower
      | c => .char c) :: fillers rest
  | '&' :: rest => .group 0 :: fillers rest
  | c :: rest => .char c :: fillers rest

def greatestGroup (fs : List Filler) : Nat :=
  fs.foldl (fun n f => match f with
    | .group m => max n m
    | _ => n) 0

structure Flags where
  nth : Option Nat := none
  everywhere : Bool := false
  prints : Bool := false
  anyCase : Bool := false

/-- The flags after a substitution, and what follows them. The fuel is the length of the text. -/
def flags : Nat → Flags → List Char → Except Mistake (Flags × List Char)
  | 0, f, cs => .ok (f, cs)
  | fuel + 1, f, cs =>
    match cs with
    | [] => .ok (f, [])
    | c :: rest =>
      if c == 'i' || c == 'I' then flags fuel { f with anyCase := true } rest
      else if c == 'p' then
        if f.prints then mistake "multiple \x60p' options to \x60s' command" rest
        else flags fuel { f with prints := true } rest
      else if c == 'g' then
        if f.everywhere then mistake "multiple \x60g' options to \x60s' command" rest
        else flags fuel { f with everywhere := true } rest
      else if c.isDigit then
        let (n, after) := (number? cs).getD (0, rest)
        if f.nth.isSome then mistake "multiple number options to \x60s' command" rest
        else if n == 0 then mistake "number option to \x60s' command may not be zero" after
        else flags fuel { f with nth := some n } after
      else if isSpace c then flags fuel f rest
      else if c == '\x7d' || c == '#' then .ok (f, cs)
      else if c == '\n' || c == ';' then .ok (f, rest)
      else mistake "unknown option to \x60s'" rest

/-- The two texts of a command between its signs, and what follows them. -/
def twoTexts (letter : Char) (cs : List Char) :
    Except Mistake (List Char × List Char × List Char) :=
  let unterminated {α : Type} (rest : List Char) : Except Mistake α :=
    mistake s!"unterminated \x60{letter}' command" rest
  match cs with
  | [] => unterminated []
  | sign :: rest =>
    if sign == '\n' || sign == '\\' then unterminated rest
    else
      match upTo sign (letter == 's') (rest.length + 1) [] rest with
      | .error rest => unterminated rest
      | .ok (first, rest) =>
        match upTo sign false (rest.length + 1) [] rest with
        | .error rest => unterminated rest
        | .ok (second, rest) => .ok (first, second, rest)

def substitution (extended : Bool) (cs : List Char) : Except Mistake (Deed × List Char) := do
  let (re, replacement, rest) ← twoTexts 's' cs
  let fs := fillers (unescaped (fun c => c == '&' || c == '\\') 0 replacement)
  let (f, rest) ← flags (rest.length + 1) {} rest
  let (pattern, count) ← patternOf extended f.anyCase re rest
  let wanted := greatestGroup fs
  if count < wanted then
    mistake s!"invalid reference \\{wanted} on \x60s' command's RHS" rest
  else
    return (.substitute
      { pattern, fillers := fs, nth := f.nth.getD 1, everywhere := f.everywhere,
        prints := f.prints }, rest)

def translitSide (cs : List Char) : List Char :=
  go (unescaped (· == '\\') 0 cs)
where
  go : List Char → List Char
    | '\\' :: 'n' :: rest => '\n' :: go rest
    | '\\' :: c :: rest => c :: go rest
    | c :: rest => c :: go rest
    | [] => []

def transliteration (cs : List Char) : Except Mistake (Deed × List Char) := do
  let (first, second, rest) ← twoTexts 'y' cs
  let (first, second) := (translitSide first, translitSide second)
  if first.length == second.length then ended (.transliterate (first.zip second)) rest
  else mistake "strings for \x60y' command are different lengths" rest

/-- The lines of a text that is to be added: up to a newline without a backslash before it. -/
def addedLines : List Char → List Char × List Char
  | [] => ([], [])
  | ['\\'] => ([], [])
  | '\\' :: c :: rest =>
    let (text, after) := addedLines rest
    ('\\' :: c :: text, after)
  | c :: rest =>
    if c == '\n' then ([], rest)
    else
      let (text, after) := addedLines rest
      (c :: text, after)

/-- An addition, after its letter: its text follows on the line or on the next one. -/
def addition (deed : List Char → Deed) (cs : List Char) : Except Mistake (Deed × List Char) :=
  match skipSpace cs with
  | [] => mistake "expected \\ after \x60a', \x60c' or \x60i'" []
  | '\\' :: rest =>
    match skipSpace rest with
    | [] => .ok (deed [], [])
    | '\n' :: more => withText more
    | _ => withText rest
  | rest => withText rest
where
  withText (text : List Char) : Except Mistake (Deed × List Char) :=
    let (lines, after) := addedLines text
    .ok (deed (withoutBackslashes (unescaped (· == '\\') 0 lines) ++ ['\n']), after)

def labelText (endsAtBrace : Bool) (cs : List Char) : String × List Char :=
  let isEnd (c : Char) : Bool :=
    isSpace c || c == ';' || c == '\n' || (endsAtBrace && c == '\x7d')
  let name := (skipSpace cs).takeWhile fun c => !isEnd c
  (String.ofList name, (skipSpace cs).drop name.length)

def jump (ifChanged : Bool) (cs : List Char) : Except Mistake (Deed × List Char) :=
  let (name, rest) := labelText true cs
  ended (.jump ifChanged name) rest

def quitting (cs : List Char) : Except Mistake (Deed × List Char) :=
  let (status, rest) := (number? (skipSpace cs)).getD (0, cs)
  ended (.quit status) rest

/-- What a command with a letter does, and what follows it. Commands between braces are not among
these. -/
def deed (extended ranged : Bool) (c : Char) (rest : List Char) :
    Except Mistake (Deed × List Char) :=
  match c with
  | '=' => ended .number rest
  | 'd' => ended .delete rest
  | 'D' => ended .deleteFirst rest
  | 'g' => ended .get rest
  | 'G' => ended .getAppended rest
  | 'h' => ended .hold rest
  | 'H' => ended .holdAppended rest
  | 'n' => ended .next rest
  | 'N' => ended .nextAppended rest
  | 'p' => ended .print rest
  | 'P' => ended .printFirst rest
  | 'x' => ended .exchange rest
  | 'q' => if ranged then mistake "command only uses one address" rest else quitting rest
  | 's' => substitution extended rest
  | 'y' => transliteration rest
  | 'a' => addition .append rest
  | 'i' => addition .insert rest
  | 'c' => addition .change rest
  | 'b' => jump false rest
  | 't' => jump true rest
  | _ => mistake s!"unknown command: \x60{c}'" rest

/-! ## 6. Scripts -/

/-- What has been read of a script: its commands, and the numbers of the blocks that are open, the
innermost first. -/
structure Reading where
  done : List Command := []
  blocks : List Nat := []

def Reading.add (r : Reading) (c : Command) : Reading :=
  { r with done := r.done ++ [c] }

def Reading.closeBlock (r : Reading) (rest : List Char) : Except Mistake Reading :=
  match r.blocks with
  | [] => mistake "unexpected \x60\x7d'" rest
  | b :: blocks =>
    let after := r.done.length
    .ok { done := r.done.mapIdx fun i c => if i == b then { c with deed := .block after } else c
          blocks }

/-- The addresses at the start of a text, and whether they are turned around. -/
def addresses (extended : Bool) (cs : List Char) :
    Except Mistake (Option Address × Option Address × Bool × List Char) := do
  let (first, cs) ← address extended cs
  match first with
  | some (.further _) => mistake "invalid usage of +N or ~N as first address" cs
  | some (.line 0) => mistake "invalid usage of line address 0" (cs.drop 1)
  | _ => pure ()
  let (second, cs) ← match first, skipSpace cs with
    | some _, ',' :: rest => do
      match ← address extended (skipSpace rest) with
      | (none, rest) => mistake "unexpected \x60,'" (rest.drop 1)
      | found => pure found
    | _, cs => pure (none, cs)
  match skipSpace cs with
  | '!' :: rest =>
    match skipSpace rest with
    | '!' :: rest => mistake "multiple \x60!'s" rest
    | rest => return (first, second, true, rest)
  | cs => return (first, second, false, cs)

def readCommand (extended : Bool) (r : Reading) (cs : List Char) :
    Except Mistake (Reading × List Char) := do
  let (first, second, inverted, cs) ← addresses extended cs
  match cs with
  | [] => mistake "missing command" []
  | '#' :: rest =>
    if first.isSome then mistake "comments don't accept any addresses" rest
    else return (r, rest.dropWhile (· != '\n'))
  | ':' :: rest =>
    if first.isSome then mistake ": doesn't want any addresses" rest
    else
      let (name, rest) := labelText false rest
      if name.isEmpty then mistake "\":\" lacks a label" rest
      else return (r.add { deed := .label name }, rest)
  | '\x7b' :: rest =>
    let block : Command := { first, second, inverted, deed := .block 0 }
    return ({ r.add block with blocks := r.done.length :: r.blocks }, rest)
  | '\x7d' :: rest => do
    let r ← r.closeBlock rest
    if first.isSome then mistake "\x60\x7d' doesn't want any addresses" rest
    let (_, rest) ← ended .delete rest
    return (r, rest)
  | c :: rest => do
    let (deed, rest) ← deed extended second.isSome c rest
    return (r.add { first, second, inverted, deed }, rest)

/-- Reads the commands of a text, up to a mistake. The fuel is its length. -/
def readCommands (extended : Bool) : Nat → Reading → List Char → Reading × Option Mistake
  | 0, r, _ => (r, none)
  | fuel + 1, r, cs =>
    match cs.dropWhile fun c => isSpace c || c == ';' || c == '\n' with
    | [] => (r, none)
    | cs =>
      match readCommand extended r cs with
      | .ok (r, rest) => readCommands extended fuel r rest
      | .error m => (r, some m)

def missingLabels (commands : List Command) : List String :=
  let known := commands.filterMap fun c => match c.deed with
    | .label name => some name
    | _ => none
  commands.filterMap fun c => match c.deed with
    | .jump _ name => if name.isEmpty || known.contains name then none else some name
    | _ => none

def Reading.unfinished? (r : Reading) : Option Mistake :=
  if r.blocks.isEmpty then none else some ⟨"unmatched \x60\x7b'", none⟩

end CodeAssist.TestBed.Sed
