import CodeAssist.Text.Bytes

/-!
Test bed: formats, that is texts with directives into which arguments are put.

A format is read into pieces first, plain bytes and directives, and arguments are put into the
pieces then. What is missing counts as empty or zero; a number that is none is zero too, with a
complaint.
-/

namespace CodeAssist.TestBed

open Text

/-! ## 1. Escapes -/

def octal? (c : Char) : Option Nat :=
  if '0' ≤ c && c ≤ '7' then some (c.toNat - 0x30) else none

/-- The byte of the octal digits at the start of a text, at most three of them, and their number. -/
def octalByte (cs : List Char) : Nat × Nat :=
  let digits := (cs.take 3).takeWhile fun c => (octal? c).isSome
  (digits.foldl (fun n d => n * 8 + (d.toNat - 0x30)) 0 % 256, digits.length)

def escapeByte? (c : Char) : Option Nat :=
  [('a', 7), ('b', 8), ('e', 27), ('f', 12), ('n', 10), ('r', 13), ('t', 9), ('v', 11),
    ('\\', 92)].lookup c

/-- The bytes of the escape after a backslash, and how many characters it has. A backslash that
begins no escape stands for itself. -/
def escape (cs : List Char) : List UInt8 × Nat :=
  match cs with
  | [] => ([92], 0)
  | c :: _ =>
    match escapeByte? c with
    | some b => ([UInt8.ofNat b], 1)
    | none =>
      if (octal? c).isSome then
        let (b, n) := octalByte cs
        ([UInt8.ofNat b], n)
      else ([92], 0)

/-- The bytes of a text with escapes, up to an escape that ends it, and whether there was such an
end. An octal escape may have a zero more. `skip` characters were read already. -/
def unescape : Nat → List Char → List UInt8 × Bool
  | _, [] => ([], false)
  | skip + 1, _ :: rest => unescape skip rest
  | 0, '\\' :: rest =>
    match rest with
    | 'c' :: _ => ([], true)
    | '0' :: more =>
      let (b, n) := octalByte more
      let (after, ended) := unescape (n + 1) rest
      (UInt8.ofNat b :: after, ended)
    | _ =>
      let (bytes, n) := escape rest
      let (after, ended) := unescape n rest
      (bytes ++ after, ended)
  | 0, c :: rest =>
    let (after, ended) := unescape 0 rest
    (bytesOfChars [c] ++ after, ended)

/-! ## 2. Pieces -/

/-- A width or a precision: written out, or the next argument. -/
inductive Amount where
  | fixed (n : Nat)
  | argument

inductive Conversion where
  | text
  | escapedText
  | firstByte
  | integer
  | natural (base : Nat) (capitals : Bool)

structure Directive where
  flags : List Char
  width : Amount
  precision : Option Amount
  conversion : Conversion

inductive FormatPiece where
  | plain (bytes : List UInt8)
  | directive (d : Directive)
  /-- What is wrong with the format from here on. -/
  | broken (sentence : String)

def conversion? (c : Char) : Option Conversion :=
  [('s', .text), ('b', .escapedText), ('c', .firstByte), ('d', .integer), ('i', .integer),
    ('u', .natural 10 false), ('o', .natural 8 false), ('x', .natural 16 false),
    ('X', .natural 16 true)].lookup c

def leadingNumber (cs : List Char) : Nat × Nat :=
  let digits := cs.takeWhile Char.isDigit
  (digits.foldl (fun n d => n * 10 + (d.toNat - 0x30)) 0, digits.length)

def leadingAmount (cs : List Char) : Amount × Nat :=
  match cs with
  | '*' :: _ => (.argument, 1)
  | _ =>
    let (n, length) := leadingNumber cs
    (.fixed n, length)

/-- The piece that a percent sign begins, and how many characters after the sign belong to it. -/
def directivePiece (cs : List Char) : FormatPiece × Nat :=
  let flags := cs.takeWhile ['-', '+', ' ', '0', '#'].contains
  let (width, w) := leadingAmount (cs.drop flags.length)
  let start := flags.length + w
  let (precision, p) := match cs.drop start with
    | '.' :: rest =>
      let (amount, length) := leadingAmount rest
      (some amount, length + 1)
    | _ => (none, 0)
  let length := start + p
  match cs.drop length with
  | [] => (.broken "missing format character", length)
  | letter :: _ =>
    match conversion? letter with
    | some conversion => (.directive { flags, width, precision, conversion }, length + 1)
    | none =>
      (.broken s!"%{String.ofList (cs.take (length + 1))}: invalid directive", length + 1)

/-- The pieces of a format. `skip` characters were read already. -/
def formatPieces : Nat → List Char → List FormatPiece
  | _, [] => []
  | skip + 1, _ :: rest => formatPieces skip rest
  | 0, '%' :: rest =>
    if rest.head? == some '%' then .plain [37] :: formatPieces 1 rest
    else
      let (piece, length) := directivePiece rest
      piece :: formatPieces length rest
  | 0, '\\' :: rest =>
    let (bytes, length) := escape rest
    .plain bytes :: formatPieces length rest
  | 0, c :: rest => .plain (bytesOfChars [c]) :: formatPieces 0 rest

/-! ## 3. Numbers -/

def digitIn? (base : Nat) (c : Char) : Option Nat :=
  let value :=
    if c.isDigit then c.toNat - 0x30
    else if c.isLower then c.toNat - 0x57
    else if c.isUpper then c.toNat - 0x37
    else base
  if value < base then some value else none

/-- The natural that the digits at the start of a text write, and how many there are. -/
def leadingDigits (base : Nat) (cs : List Char) : Nat × Nat :=
  let digits := cs.takeWhile fun c => (digitIn? base c).isSome
  (digits.foldl (fun n d => n * base + (digitIn? base d).getD 0) 0, digits.length)

/-- A number in the way of programs: hexadecimal after `0x`, octal after another zero. -/
def leadingMagnitude (cs : List Char) : Nat × Nat :=
  match cs with
  | '0' :: x :: rest =>
    let (n, length) := leadingDigits 16 rest
    if (x == 'x' || x == 'X') && 0 < length then (n, length + 2) else leadingDigits 8 cs
  | _ => leadingDigits 10 cs

structure Numeral where
  value : Int
  complaint : Option String := none

/-- The most that a number can be and the least, for numbers with a sign and for those without,
where a minus counts down from zero to the most. -/
def limits (signed : Bool) : Int × Int :=
  if signed then (9223372036854775807, -9223372036854775808)
  else (18446744073709551615, -18446744073709551615)

/-- Whether a character is a blank, which may stand before a number. -/
def isBlankByte (c : Char) : Bool :=
  c == ' ' || ('\t' ≤ c && c ≤ '\r')

/-- The byte that follows a quote at the start of an argument. -/
def quotedByte? (arg : String) : Option Nat :=
  match arg.toList with
  | first :: _ =>
    if first == '"' || first.toNat == 0x27 then
      some (((bytesOfChars arg.toList)[1]?).getD 0).toNat
    else none
  | [] => none

/-- What is wrong with an argument of which `length` characters were read as a number and `left`
characters were not. Nothing at all counts as zero. -/
def complaintAbout (arg : String) (length left : Nat) (outOfRange : Bool) : Option String :=
  if length == 0 then if arg.isEmpty then none else some s!"{arg}: expected numeric value"
  else if 0 < left then some s!"{arg}: not completely converted"
  else if outOfRange then some s!"{arg}: Numerical result out of range"
  else none

/-- The number that an argument is. After a quote it is the byte that follows. -/
def numeral (signed : Bool) (arg : String) : Numeral :=
  match quotedByte? arg with
  | some b => ⟨b, none⟩
  | none =>
    let cs := arg.toList.dropWhile isBlankByte
    let sign := (cs.takeWhile fun c => c == '-' || c == '+').take 1
    let cs := cs.drop sign.length
    let (n, length) := leadingMagnitude cs
    let written : Int := if sign == ['-'] then -n else n
    let (most, least) := limits signed
    let bounded := if written < least && !signed then most else max least (min written most)
    let value := if bounded < 0 && !signed then bounded + 18446744073709551616 else bounded
    ⟨value, complaintAbout arg length (cs.length - length) (bounded != written)⟩

/-! ## 4. Putting arguments in -/

def padTo (flags : List Char) (width : Nat) (bytes : List UInt8) : List UInt8 :=
  let fill := List.replicate (width - bytes.length) 32
  if flags.contains '-' then bytes ++ fill else fill ++ bytes

/-- The text of a number: a sign or another mark before it, and at least as many digits as the
precision says. Zeros fill the width if a flag asks for it. -/
def layOut (flags : List Char) (width : Nat) (precision : Option Nat) (mark digits : List Char) :
    List UInt8 :=
  let digits := if precision == some 0 && digits == ['0'] then [] else digits
  let least := match precision with
    | some n => n
    | none =>
      if flags.contains '0' && !(flags.contains '-') then width - mark.length else 0
  let zeros := List.replicate (least - digits.length) '0'
  padTo flags width (bytesOfChars (mark ++ zeros ++ digits))

/-- The mark before a number: its sign, or what a flag puts there. -/
def signMark (flags : List Char) (negative : Bool) : List Char :=
  if negative then ['-']
  else if flags.contains '+' then ['+']
  else if flags.contains ' ' then [' ']
  else []

def layOutInteger (flags : List Char) (width : Nat) (precision : Option Nat) (n : Int) :
    List UInt8 :=
  layOut flags width precision (signMark flags (n < 0)) (Nat.toDigits 10 n.natAbs)

def layOutNatural (flags : List Char) (width : Nat) (precision : Option Nat) (base : Nat)
    (capitals : Bool) (n : Nat) : List UInt8 :=
  let digits := Nat.toDigits base n
  let digits := if capitals then digits.map Char.toUpper else digits
  if flags.contains '#' && n != 0 then
    if base == 16 then
      layOut flags width precision (if capitals then ['0', 'X'] else ['0', 'x']) digits
    else if base == 8 then layOut flags width precision [] ('0' :: digits)
    else layOut flags width precision [] digits
  else layOut flags width precision [] digits

inductive Halt where
  /-- An argument asked for it. -/
  | asked
  | broken (sentence : String)

structure Filled where
  out : List UInt8 := []
  complaints : List String := []
  halt : Option Halt := none
  left : List String

namespace Filled

def takeNumber (f : Filled) (signed : Bool) : Int × Filled :=
  match f.left with
  | [] => (0, f)
  | arg :: left =>
    let n := numeral signed arg
    (n.value, { f with left, complaints := f.complaints ++ n.complaint.toList })

def takeText (f : Filled) : String × Filled :=
  (f.left.head?.getD "", { f with left := f.left.drop 1 })

def takeAmount (f : Filled) : Amount → Int × Filled
  | .fixed n => (n, f)
  | .argument => f.takeNumber true

def put (f : Filled) (bytes : List UInt8) : Filled :=
  { f with out := f.out ++ bytes }

def follow (f : Filled) (d : Directive) : Filled :=
  let (width, f) := f.takeAmount d.width
  let flags := if width < 0 then '-' :: d.flags else d.flags
  let width := width.natAbs
  let (precision, f) : Option Nat × Filled := match d.precision with
    | none => (none, f)
    | some amount =>
      let (n, f) := f.takeAmount amount
      (if n < 0 then none else some n.toNat, f)
  let cut (bytes : List UInt8) := (precision.map bytes.take).getD bytes
  match d.conversion with
  | .text =>
    let (arg, f) := f.takeText
    f.put (padTo flags width (cut (bytesOfChars arg.toList)))
  | .escapedText =>
    let (arg, f) := f.takeText
    let (bytes, ended) := unescape 0 arg.toList
    let f := f.put (padTo flags width (cut bytes))
    if ended then { f with halt := some .asked } else f
  | .firstByte =>
    let (arg, f) := f.takeText
    f.put (padTo flags width [((bytesOfChars arg.toList).head?).getD 0])
  | .integer =>
    let (n, f) := f.takeNumber true
    f.put (layOutInteger flags width precision n)
  | .natural base capitals =>
    let (n, f) := f.takeNumber false
    f.put (layOutNatural flags width precision base capitals n.toNat)

def add (f : Filled) (p : FormatPiece) : Filled :=
  if f.halt.isSome then f
  else
    match p with
    | .plain bytes => f.put bytes
    | .directive d => f.follow d
    | .broken sentence => { f with halt := some (.broken sentence) }

/-- With the pieces gone through, and again as long as there are arguments for them. `fuel` bounds
how often. -/
def fill (pieces : List FormatPiece) : Nat → Filled → Filled
  | 0, f => f
  | fuel + 1, f =>
    let g := pieces.foldl add f
    if g.halt.isSome || g.left.isEmpty || g.left.length == f.left.length then g
    else fill pieces fuel g

end Filled

def fillFormat (format : String) (args : List String) : Filled :=
  Filled.fill (formatPieces 0 format.toList) (args.length + 1) { left := args }

end CodeAssist.TestBed
