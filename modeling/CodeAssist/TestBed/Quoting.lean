/-!
Test bed: names in messages.

A name is put in quotes if a shell would read it in another way, or always. What cannot be printed
is written by its number.
-/

namespace CodeAssist.TestBed

/-- Whether a character stands for itself in any way of quoting. -/
def isHarmless (c : Char) : Bool :=
  c.isAlphanum || ['%', '+', ',', '-', '.', '/', ':', ']', '_'].contains c

def isPrinted (c : Char) : Bool :=
  ' ' ≤ c && c ≤ '~'

/-- Whether a character makes a name of some characters one that needs quotes. -/
def needsQuotes (isFirst isAlone : Bool) (c : Char) : Bool :=
  if c == '#' || c == '~' then isFirst
  else if c == '\x7b' || c == '\x7d' then isAlone
  else !isPrinted c || c.toNat == 0x27 ||
    [' ', '!', '"', '$', '&', '(', ')', '*', ':', ';', '<', '=', '>', '[', '^', '\x60', '|', '?',
      '\\'].contains c

def numberEscape (c : Char) : List Char :=
  match [('\x07', 'a'), ('\x08', 'b'), ('\t', 't'), ('\n', 'n'), ('\x0b', 'v'), ('\x0c', 'f'),
      ('\r', 'r')].lookup c with
  | some letter => ['\\', letter]
  | none =>
    let n := c.toNat
    '\\' :: [n / 64 % 8, n / 8 % 8, n % 8].map fun d => Char.ofNat (0x30 + d)

def singleQuote : Char := Char.ofNat 0x27

/-- The inside of a name in single quotes. `escaping` says that escapes are being written. -/
def quotedFrom : Bool → List Char → List Char
  | escaping, [] => if escaping then [singleQuote, singleQuote] else []
  | escaping, c :: rest =>
    if !isPrinted c then
      (if escaping then [] else [singleQuote, '$', singleQuote]) ++ numberEscape c ++
        quotedFrom true rest
    else
      (if escaping then [singleQuote, singleQuote] else []) ++
        (if c == singleQuote then [singleQuote, '\\', singleQuote, singleQuote] else [c]) ++
        quotedFrom false rest

/-- A name in quotes. A name with single quotes and nothing else that matters is put in double
ones. -/
def inQuotes (name : List Char) : List Char :=
  let isPlain (c : Char) := isHarmless c || c == ' ' || c == singleQuote
  if name.contains singleQuote && name.all isPlain then '"' :: name ++ ['"']
  else
    let written := singleQuote :: quotedFrom false name ++ [singleQuote]
    -- Escapes at the end need no quotes after them.
    if (name.getLast?.any fun c => !isPrinted c) then written.dropLast.dropLast else written

def quotedName (name : String) : String :=
  String.ofList (inQuotes name.toList)

def shownName (name : String) : String :=
  let cs := name.toList
  let needs := cs.isEmpty || cs.zipIdx.any fun (c, i) => needsQuotes (i == 0) (cs.length == 1) c
  if needs then quotedName name else name

end CodeAssist.TestBed
