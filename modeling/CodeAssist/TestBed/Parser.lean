import CodeAssist.TestBed.Syntax

/-!
Test bed: reading scripts.

A script is read command by command, so that the commands before a mistake are known by the time
the mistake is found. A reader may need any other one for a part, so all of them are given by a
number that bounds how deep parts go: each reader uses those of the number below.
-/

namespace CodeAssist.TestBed

/-! ## 1. Sources -/

/-- What a redirection does, before the word that says from where or to what. -/
inductive RedirectionSign where
  | read
  | write (opening : Opening)
  | copy
  /-- A text of the script; tabs at the start of its lines are dropped if `stripped` says so. -/
  | here (stripped : Bool)

inductive Token where
  | eof
  | newline
  | operator (symbol : String)
  | redirection (fd : Nat) (sign : RedirectionSign)
  | word (w : Word)
  | keyword (name : String)

def Token.name : Token → String
  | eof => "end of file"
  | newline => "newline"
  | operator symbol => s!"\"{symbol}\""
  | redirection _ _ => "redirection"
  | word _ => "word"
  | keyword name => s!"\"{name}\""

def Token.isOperator (t : Token) (symbol : String) : Bool :=
  match t with
  | operator other => other == symbol
  | _ => false

def Token.isKeyword (t : Token) (name : String) : Bool :=
  match t with
  | keyword other => other == name
  | _ => false

structure HereText where
  number : Nat
  mark : List Char
  quoted : Bool
  stripped : Bool

structure Source where
  rest : List Char
  line : Nat := 1
  pushed : Option Token := none
  waiting : List HereText := []
  bodies : List (Nat × Word) := []
  next : Nat := 0

/-- Reading from a source, which may find a mistake on a line. -/
abbrev Parse := StateT Source (Except (SyntaxError × Nat))

def syntaxFailure (e : SyntaxError) : Parse α := do
  throw (e, (← get).line)

def unexpectedToken (t : Token) (expecting : Option String := none) : Parse α :=
  syntaxFailure (.unexpected t.name expecting)

/-- A text without the ends of lines that a backslash joins, at its start, and their number. -/
def joined : List Char → List Char × Nat
  | '\\' :: '\n' :: rest =>
    let (rest, n) := joined rest
    (rest, n + 1)
  | cs => (cs, 0)

def peekChar : Parse (Option Char) := do
  let s ← get
  let (rest, n) := joined s.rest
  set { s with rest, line := s.line + n }
  return rest.head?

def skipChar : Parse Unit :=
  modify fun s => match s.rest with
    | '\n' :: rest => { s with rest, line := s.line + 1 }
    | _ :: rest => { s with rest }
    | [] => s

def takeIf (c : Char) : Parse Bool := do
  if (← peekChar) == some c then
    skipChar
    return true
  else return false

def takeChars (fits : Char → Bool) : Parse (List Char) := do
  let s ← get
  let taken := s.rest.takeWhile fits
  set { s with rest := s.rest.drop taken.length, line := s.line + taken.count '\n' }
  return taken

def giveBack (t : Token) : Parse Unit :=
  modify fun s => { s with pushed := some t }

/-! ## 2. Readers -/

inductive Ending where
  /-- At a blank or an operator. -/
  | word
  | quote
  /-- At a brace, unless it is between quotes of its own. -/
  | brace (inner : Bool)
  /-- At the end of the text. -/
  | text
  /-- At two parentheses, with so many others open. -/
  | expression (open_ : Nat)
  deriving DecidableEq

inductive ListEnd where
  /-- At the end of a line. -/
  | line
  /-- At a token that ends lists; there may be no command. -/
  | token
  /-- At a token that ends lists, after one command at least. -/
  | nonempty
  deriving DecidableEq

structure Readers where
  pieces : Ending → Bool → List Piece → Parse Word
  /-- A token. Ends of lines are passed over, and keywords are looked for, if that is asked for. -/
  token : Bool → Bool → Parse Token
  list : ListEnd → Option Command → Parse (Option Command)
  andOr : Command → Parse Command
  members : List Command → Parse (List Command)
  command : Parse Command
  /-- A simple command, of which some words and redirections were read. -/
  simple : Nat → List Word → List Redirection → Parse Command
  otherwise : Parse Command
  clauses : Parse (List (List Word × Command))
  patterns : List Word → Parse (List Word)
  words : List Word → Parse (List Word)
  redirections : List Redirection → Parse (List Redirection)

/-! ## 3. Words -/

def addChar (pieces : List Piece) (c : Char) (quoted : Bool) : List Piece :=
  match pieces.getLast? with
  | some (.text cs q) =>
    if q == quoted then pieces.dropLast ++ [.text (cs ++ [c]) q]
    else pieces ++ [.text [c] quoted]
  | _ => pieces ++ [.text [c] quoted]

def metaChars : List Char :=
  [' ', '\t', '\n', ';', '&', '|', '<', '>', '(', ')']

/-- The text before a backquote, and what follows it. Between double quotes a backslash can quote
a double quote. -/
def backquoted (inDouble : Bool) : List Char → Option (List Char × List Char)
  | [] => none
  | '\x60' :: rest => some ([], rest)
  | '\\' :: c :: rest =>
    let kept :=
      if c == '\n' then []
      else if c == '\\' || c == '\x60' || c == '$' || (inDouble && c == '"') then [c]
      else ['\\', c]
    (backquoted inDouble rest).map fun (text, after) => (kept ++ text, after)
  | c :: rest => (backquoted inDouble rest).map fun (text, after) => (c :: text, after)

/-- Reads from another text, whose first line has a number, and comes back. -/
def withText (text : List Char) (line : Nat) (act : Parse α) : Parse α := do
  let s ← get
  set { s with rest := text, line, pushed := none, waiting := [] }
  let a ← act
  let t ← get
  set { s with bodies := t.bodies, next := t.next }
  return a

def readBackquoted (r : Readers) (quoted : Bool) : Parse Piece := do
  let s ← get
  match backquoted quoted s.rest with
  | none => throw (.openBackquote, s.line + s.rest.count '\n')
  | some (text, rest) =>
    let taken := s.rest.take (s.rest.length - rest.length)
    let body ← withText text 1 (r.list .token none)
    modify fun t => { t with rest, line := s.line + taken.count '\n' }
    return .output (body.getD .empty) quoted

def readOutput (r : Readers) (quoted : Bool) : Parse Piece := do
  let s ← get
  set { s with pushed := none, waiting := [] }
  let body ← r.list .token none
  let t ← r.token false false
  if !t.isOperator ")" then unexpectedToken t (some "\")\"")
  modify fun t => { t with pushed := none, waiting := s.waiting }
  return .output (body.getD .empty) quoted

/-- The name of a parameter between braces, whether it is its length that counts, and whether there
is a name at all. -/
def readBracedName : Parse (String × Bool × Bool) := do
  match ← peekChar with
  | none => return ("", false, false)
  | some c =>
    if isNameStart c then return (String.ofList (← takeChars isNameChar), false, true)
    else if c.isDigit then return (String.ofList (← takeChars Char.isDigit), false, true)
    else if c == '\x7d' then return ("", false, false)
    else if c == '#' then
      skipChar
      match (← get).rest with
      | d :: more =>
        if isNameStart d then return (String.ofList (← takeChars isNameChar), true, true)
        else if d.isDigit then return (String.ofList (← takeChars Char.isDigit), true, true)
        else if d != '\x7d' && more.head? == some '\x7d' then
          skipChar
          return (String.singleton d, true, isSpecialName d)
        else return ("#", false, true)
      | [] => return ("#", false, true)
    else
      skipChar
      return (String.singleton c, false, isSpecialName c)

def choice? (c : Char) : Option Choice :=
  [('-', .default), ('=', .assign), ('?', .fail), ('+', .replace)].lookup c

def readBraced (r : Readers) (quoted : Bool) : Parse Piece := do
  let (name, isLength, isGood) ← readBracedName
  let rest (plain : Bool) : Parse Word := r.pieces (.brace false) (quoted && !plain) []
  if !isGood then
    let _ ← rest false
    return .parameter name .bad quoted
  if isLength then
    let more ← rest false
    return .parameter name (if more.isEmpty then .length else .bad) quoted
  let orEmpty ← takeIf ':'
  match ← peekChar with
  | none => syntaxFailure .openBrace
  | some c =>
    if c == '\x7d' && !orEmpty then
      skipChar
      return .parameter name .value quoted
    match choice? c with
    | some choice =>
      skipChar
      return .parameter name (.choice choice orEmpty (← rest false)) quoted
    | none =>
      if (c == '%' || c == '#') && !orEmpty then
        skipChar
        let longest ← takeIf c
        return .parameter name (.trimmed (c == '%') longest (← rest true)) quoted
      if c == '\x7d' then skipChar
      let _ ← rest false
      return .parameter name .bad quoted

def readDollar (r : Readers) (quoted : Bool) : Parse Piece := do
  match ← peekChar with
  | none => return .text ['$'] quoted
  | some c =>
    if c == '(' then
      skipChar
      if ← takeIf '(' then return .number (← r.pieces (.expression 0) true []) quoted
      else readOutput r quoted
    else if c == '\x7b' then
      skipChar
      readBraced r quoted
    else if isNameStart c then
      return .parameter (String.ofList (← takeChars isNameChar)) .value quoted
    else if isSpecialName c then
      skipChar
      return .parameter (String.singleton c) .value quoted
    else return .text ['$'] quoted

def readBackslash (ending : Ending) (quoted : Bool) (pieces : List Piece) :
    Parse (List Piece) := do
  match (← get).rest with
  | [] => return addChar pieces '\\' true
  | c :: _ =>
    skipChar
    if c == '\n' then return pieces
    let isEscape := c == '\\' || c == '\x60' || c == '$' || (c == '"' && ending != .text) ||
      (c == '\x7d' && ending matches .brace _)
    if quoted && !isEscape then return addChar (addChar pieces '\\' true) c true
    else return addChar pieces c true

def readSingle (pieces : List Piece) : Parse (List Piece) := do
  let cs ← takeChars (·.toNat != 0x27)
  if (← get).rest.isEmpty then syntaxFailure .openQuote
  skipChar
  return pieces ++ [.text cs true]

def readPieces (r : Readers) (ending : Ending) (quoted : Bool) (pieces : List Piece) :
    Parse Word := do
  match (← get).rest with
  | [] =>
    match ending with
    | .quote => syntaxFailure .openQuote
    | .brace _ => syntaxFailure (if quoted then .openQuote else .openBrace)
    | .expression _ => syntaxFailure .openExpression
    | _ => return pieces
  | c :: rest =>
    if ending == .word && metaChars.contains c then return pieces
    skipChar
    let goOn (pieces : List Piece) : Parse Word := r.pieces ending quoted pieces
    if c == '\\' then goOn (← readBackslash ending quoted pieces)
    else if c == '$' then goOn (pieces ++ [← readDollar r quoted])
    else if c == '\x60' then goOn (pieces ++ [← readBackquoted r quoted])
    else
      match ending with
      | .quote => if c == '"' then return pieces else goOn (addChar pieces c true)
      | .text => goOn (addChar pieces c true)
      | .expression open_ =>
        if c == ')' && open_ == 0 && rest.head? == some ')' then
          skipChar
          return pieces
        let open_ := if c == '(' then open_ + 1 else if c == ')' then open_ - 1 else open_
        r.pieces (.expression open_) quoted (addChar pieces c true)
      | ending =>
        if c == '\x7d' && ending == .brace false then return pieces
        else if c == '"' then
          match ending, quoted with
          | .brace inner, true => r.pieces (.brace !inner) quoted pieces
          | _, _ =>
            let inside ← r.pieces .quote true []
            goOn (pieces ++ if inside.isEmpty then [.text [] true] else inside)
        else if c.toNat == 0x27 && !quoted then goOn (← readSingle pieces)
        else goOn (addChar pieces c quoted)

/-! ## 4. Tokens -/

def keywords : List String :=
  ["!", "case", "do", "done", "elif", "else", "esac", "fi", "for", "if", "in", "then", "until",
    "while", "\x7b", "\x7d"]

/-- A text without blanks and a comment at its start, and how many lines were joined there. -/
def skipBlanks : List Char → List Char × Nat
  | ' ' :: rest => skipBlanks rest
  | '\t' :: rest => skipBlanks rest
  | '\\' :: '\n' :: rest =>
    let (rest, n) := skipBlanks rest
    (rest, n + 1)
  | '#' :: rest => (rest.dropWhile (· != '\n'), 0)
  | cs => (cs, 0)

/-- The lines of a text up to one that is a mark, without the tabs at their start if they are to be
dropped, what follows, and how many lines were taken. -/
def hereLines (stripped : Bool) (mark : List Char) : Nat → List Char →
    List Char × List Char × Nat
  | 0, cs => ([], cs, 0)
  | fuel + 1, cs =>
    if cs.isEmpty then ([], [], 0)
    else
      let whole := cs.takeWhile (· != '\n')
      let rest := cs.drop (whole.length + 1)
      let line := if stripped then whole.dropWhile (· == '\t') else whole
      if line == mark then ([], rest, 1)
      else
        let (lines, rest, n) := hereLines stripped mark fuel rest
        let isEnded := whole.length < cs.length
        (line ++ (if isEnded then ['\n'] else []) ++ lines, rest, if isEnded then n + 1 else n)

def readHere (r : Readers) (h : HereText) : Parse Unit := do
  let s ← get
  let (text, rest, lines) := hereLines h.stripped h.mark (s.rest.length + 1) s.rest
  let body ← if h.quoted then pure [.text text true]
    else
      try withText text s.line (r.pieces .text true [])
      catch mistake =>
        let (e, line) := mistake
        -- What is not closed in such a text is looked for up to the end of the script.
        let isOpen := e == .openBackquote || e == .unexpected "end of file" (some "\")\"")
        throw (e, if isOpen then s.line + s.rest.count '\n' else line)
  modify fun t =>
    { t with rest, line := s.line + lines, bodies := (h.number, body) :: t.bodies }

def readWaiting (r : Readers) : Parse Unit := do
  let waiting := (← get).waiting
  modify fun s => { s with waiting := [] }
  for h in waiting do readHere r h

def readRedirection (fd : Option Nat) : Parse Token := do
  let c ← peekChar
  skipChar
  if c == some '>' then
    let fd := fd.getD 1
    if ← takeIf '>' then return .redirection fd (.write .append)
    else if ← takeIf '|' then return .redirection fd (.write .over_)
    else if ← takeIf '&' then return .redirection fd .copy
    else return .redirection fd (.write .fresh)
  else
    let fd := fd.getD 0
    if ← takeIf '<' then return .redirection fd (.here (← takeIf '-'))
    else if ← takeIf '&' then return .redirection fd .copy
    else if ← takeIf '>' then return .redirection fd .read
    else return .redirection fd .read

def descriptor? (w : Word) : Option Nat :=
  match w with
  | [.text [c] false] => if c.isDigit then some (c.toNat - 0x30) else none
  | _ => none

def freshToken (r : Readers) : Parse Token := do
  let s ← get
  let (rest, n) := skipBlanks s.rest
  set { s with rest, line := s.line + n }
  let operator (c : Char) : Parse Token := do
    skipChar
    if c == '(' || c == ')' then return .operator (String.singleton c)
    else if ← takeIf c then return .operator (String.ofList [c, c])
    else return .operator (String.singleton c)
  match rest with
  | [] => return .eof
  | '\n' :: _ =>
    skipChar
    readWaiting r
    return .newline
  | c :: _ =>
    if ['&', '|', ';', '(', ')'].contains c then operator c
    else if c == '<' || c == '>' then readRedirection none
    else
      let w ← r.pieces .word false []
      let next := (← get).rest.head?
      match descriptor? w with
      | some fd =>
        if next == some '<' || next == some '>' then readRedirection (some fd)
        else return .word w
      | none => return .word w

/-- A token, as a keyword if it is one and keywords are looked for. -/
def asKeyword (t : Token) : Token :=
  match t with
  | .word [.text cs false] =>
    let name := String.ofList cs
    if keywords.contains name then .keyword name else t
  | _ => t

def readToken (r : Readers) (skipsLines findsKeywords : Bool) : Parse Token := do
  let s ← get
  let t ← match s.pushed with
    | some t =>
      set { s with pushed := none }
      pure t
    | none => freshToken r
  match t, skipsLines with
  | .newline, true => r.token true findsKeywords
  | t, _ => return if findsKeywords then asKeyword t else t

/-! ## 5. Commands -/

def endsList : Token → Bool
  | .eof => true
  | .operator symbol => symbol == ")" || symbol == ";;"
  | .keyword name => ["do", "done", "elif", "else", "esac", "fi", "then", "\x7d"].contains name
  | _ => false

def followedBy (done : Option Command) (c : Command) : Command :=
  match done with
  | none => c
  | some first => .after first c

def readPipeline (r : Readers) (t : Token) : Parse Command := do
  let isNegated := t.isKeyword "!"
  if isNegated then giveBack (← r.token false true) else giveBack t
  let first ← r.command
  let members ← r.members [first]
  let c := match members with
    | [c] => c
    | members => .pipe members
  return if isNegated then .negated c else c

def readMembers (r : Readers) (done : List Command) : Parse (List Command) := do
  let t ← r.token false false
  if t.isOperator "|" then
    giveBack (← r.token true true)
    r.members (done ++ [← r.command])
  else
    giveBack t
    return done

def readAndOr (r : Readers) (first : Command) : Parse Command := do
  let t ← r.token false false
  if t.isOperator "&&" then r.andOr (.ifSuccess first (← readPipeline r (← r.token true true)))
  else if t.isOperator "||" then
    r.andOr (.ifFailure first (← readPipeline r (← r.token true true)))
  else
    giveBack t
    return first

def readList (r : Readers) (ending : ListEnd) (done : Option Command) :
    Parse (Option Command) := do
  let byLine := ending == .line
  let t ← r.token (!byLine) true
  match t with
  | .newline => return done
  | .eof =>
    giveBack .eof
    return done
  | _ =>
    if (ending == .token || (ending == .nonempty && done.isSome)) && endsList t then
      giveBack t
      return done
    let c ← r.andOr (← readPipeline r t)
    let t ← r.token false false
    if t.isOperator "&" then r.list ending (some (followedBy done (.background c)))
    else if t.isOperator ";" then r.list ending (some (followedBy done c))
    else
      let done := some (followedBy done c)
      match t with
      | .eof =>
        giveBack .eof
        return done
      | .newline =>
        giveBack t
        r.list ending done
      | t =>
        if byLine then unexpectedToken t
        giveBack (asKeyword t)
        return done

def expectKeyword (r : Readers) (name : String) : Parse Unit := do
  let t ← r.token false true
  if !t.isKeyword name then unexpectedToken t (some s!"\"{name}\"")

def readBody (r : Readers) : Parse Command := do
  return (← r.list .nonempty none).getD .empty

def readOtherwise (r : Readers) : Parse Command := do
  let t ← r.token false true
  if t.isKeyword "elif" then
    let test ← readBody r
    expectKeyword r "then"
    let body ← readBody r
    return .if_ test body (← r.otherwise)
  else if t.isKeyword "else" then readBody r
  else
    giveBack t
    return .empty

def readFor (r : Readers) (line : Nat) : Parse Command := do
  let name ← match ← r.token false false with
    | .word w =>
      match plainText? w with
      | some (cs, false) => if isName cs then pure (String.ofList cs) else
          syntaxFailure .badVariable
      | _ => syntaxFailure .badVariable
    | _ => syntaxFailure .badVariable
  let t ← r.token true true
  let words ← if t.isKeyword "in" then do
      let words ← r.words []
      match ← r.token false false with
      | .newline => pure ()
      | .operator ";" => pure ()
      | t => unexpectedToken t
      pure (some words)
    else do
      if !t.isOperator ";" then giveBack t
      pure none
  let t ← r.token true true
  if !t.isKeyword "do" then unexpectedToken t (some "\"do\"")
  let body ← readBody r
  expectKeyword r "done"
  return .for_ line name words body

def readCase (r : Readers) (line : Nat) : Parse Command := do
  match ← r.token false false with
  | .word w =>
    let t ← r.token true true
    if !t.isKeyword "in" then unexpectedToken t (some "\"in\"")
    return .case_ line w (← r.clauses)
  | t => unexpectedToken t (some "word")

/-- Reads patterns with bars between them, after some. A token that is no word counts as an empty
one. -/
def readPatterns (r : Readers) (done : List Word) : Parse (List Word) := do
  let pattern : Word := match ← r.token false false with
    | .word w => w
    | _ => []
  let t ← r.token false false
  if t.isOperator "|" then r.patterns (done ++ [pattern])
  else if t.isOperator ")" then return done ++ [pattern]
  else unexpectedToken t (some "\")\"")

def readClauses (r : Readers) : Parse (List (List Word × Command)) := do
  let t ← r.token true true
  if t.isKeyword "esac" then return []
  let t ← if t.isOperator "(" then r.token false false else pure t
  let word : Token := match t with
    | .keyword name => .word [.text name.toList false]
    | t => t
  giveBack word
  let patterns ← r.patterns []
  let body ← r.list .token none
  let clause := (patterns, body.getD .empty)
  let t ← r.token true true
  if t.isKeyword "esac" then return [clause]
  else if t.isOperator ";;" then return clause :: (← r.clauses)
  else unexpectedToken t (some "\";;\"")

def readWords (r : Readers) (done : List Word) : Parse (List Word) := do
  match ← r.token false false with
  | .word w => r.words (done ++ [w])
  | t =>
    giveBack t
    return done

def readTarget (r : Readers) (fd : Nat) (sign : RedirectionSign) : Parse Redirection := do
  match ← r.token false false with
  | .word w =>
    match sign with
    | .read => return .read fd w
    | .write opening => return .write fd w opening
    | .copy => return .copy fd w
    | .here stripped =>
      let (mark, quoted) := (plainText? w).getD ([], true)
      let s ← get
      let waiting := s.waiting ++ [{ number := s.next, mark, quoted, stripped }]
      set { s with waiting, next := s.next + 1 }
      return .here fd s.next
  | t => unexpectedToken t

def readRedirections (r : Readers) (done : List Redirection) : Parse (List Redirection) := do
  match ← r.token false true with
  | .redirection fd sign => r.redirections (done ++ [← readTarget r fd sign])
  | t =>
    giveBack t
    return done

/-- The commands that the shell does itself, and whose names no function may have. -/
def specialNames : List String :=
  [":", ".", "break", "continue", "eval", "exec", "exit", "export", "local", "return", "set",
    "shift", "unset"]

def readFunction (r : Readers) (w : Word) : Parse Command := do
  let t ← r.token false false
  if !t.isOperator ")" then unexpectedToken t (some "\")\"")
  match plainText? w with
  | some (cs, false) =>
    if !isName cs || specialNames.contains (String.ofList cs) then syntaxFailure .badFunction
    giveBack (← r.token true true)
    return .function (String.ofList cs) (← r.command)
  | _ => syntaxFailure .badFunction

def readSimple (r : Readers) (line : Nat) (words : List Word) (rs : List Redirection) :
    Parse Command := do
  match ← r.token false false with
  | .word w => r.simple line (words ++ [w]) rs
  | .redirection fd sign => r.simple line words (rs ++ [← readTarget r fd sign])
  | t =>
    match t.isOperator "(", words, rs with
    | true, [w], [] =>
      if (assignment? w).isSome then
        giveBack t
        return .simple line words rs
      else readFunction r w
    | _, _, _ =>
      giveBack t
      return .simple line words rs

def readCommand (r : Readers) : Parse Command := do
  let line := (← get).line
  let t ← r.token false true
  let withRedirections (c : Command) : Parse Command := do
    match ← r.redirections [] with
    | [] => return c
    | rs => return .redirected line c rs
  match t with
  | .word w =>
    giveBack (.word w)
    r.simple line [] []
  | .redirection fd sign =>
    giveBack (.redirection fd sign)
    r.simple line [] []
  | .operator "(" =>
    let body ← readBody r
    let t ← r.token false false
    if !t.isOperator ")" then unexpectedToken t (some "\")\"")
    withRedirections (.apart body)
  | .keyword "\x7b" =>
    let body ← readBody r
    expectKeyword r "\x7d"
    withRedirections body
  | .keyword "if" =>
    let test ← readBody r
    expectKeyword r "then"
    let body ← readBody r
    let other ← r.otherwise
    expectKeyword r "fi"
    withRedirections (.if_ test body other)
  | .keyword "while" =>
    let test ← readBody r
    expectKeyword r "do"
    let body ← readBody r
    expectKeyword r "done"
    withRedirections (.while_ test body false)
  | .keyword "until" =>
    let test ← readBody r
    expectKeyword r "do"
    let body ← readBody r
    expectKeyword r "done"
    withRedirections (.while_ test body true)
  | .keyword "for" => withRedirections (← readFor r line)
  | .keyword "case" => withRedirections (← readCase r line)
  | t => unexpectedToken t

/-! ## 6. Scripts -/

def readers : Nat → Readers
  | 0 =>
    { pieces := fun _ _ _ => syntaxFailure .openQuote
      token := fun _ _ => syntaxFailure .openQuote
      list := fun _ _ => syntaxFailure .openQuote
      andOr := fun _ => syntaxFailure .openQuote
      members := fun _ => syntaxFailure .openQuote
      command := syntaxFailure .openQuote
      simple := fun _ _ _ => syntaxFailure .openQuote
      otherwise := syntaxFailure .openQuote
      clauses := syntaxFailure .openQuote
      patterns := fun _ => syntaxFailure .openQuote
      words := fun _ => syntaxFailure .openQuote
      redirections := fun _ => syntaxFailure .openQuote }
  | depth + 1 =>
    { pieces := fun e q ps s => readPieces (readers depth) e q ps s
      token := fun l k s => readToken (readers depth) l k s
      list := fun e c s => readList (readers depth) e c s
      andOr := fun c s => readAndOr (readers depth) c s
      members := fun cs s => readMembers (readers depth) cs s
      command := fun s => readCommand (readers depth) s
      simple := fun l ws rs s => readSimple (readers depth) l ws rs s
      otherwise := fun s => readOtherwise (readers depth) s
      clauses := fun s => readClauses (readers depth) s
      patterns := fun ws s => readPatterns (readers depth) ws s
      words := fun ws s => readWords (readers depth) ws s
      redirections := fun rs s => readRedirections (readers depth) rs s }

/-- A part of a script: its next commands, or a mistake with its line. At the end there is
neither. -/
inductive NextPart where
  | commands (c : Command) (rest : Source)
  | mistake (e : SyntaxError) (line : Nat)
  | finished

def Source.nextPart (s : Source) : NextPart :=
  let depth := 8 * s.rest.length + 64
  match readList (readers depth) .line none s with
  | .error (e, line) => .mistake e line
  | .ok (found, rest) =>
    match found with
    | some c => .commands c rest
    | none => if rest.rest.isEmpty then .finished else .commands .empty rest

end CodeAssist.TestBed
