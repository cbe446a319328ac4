import CodeAssist.Remote.DomainName
import CodeAssist.Text.Bytes

/-!
Hosts in addresses of the web: numeric addresses in four bytes or eight groups, and names.
-/

namespace CodeAssist.Remote

open Text

/-! ## 1. Four bytes -/

def hexDigit? (c : Char) : Option Nat :=
  let c := asciiLower c
  if isAsciiDigit c then some (c.toNat - 0x30)
  else if 'a' ≤ c && c ≤ 'f' then some (c.toNat - 0x57)
  else none

def inBase (base : Nat) (cs : List Char) : Option Nat :=
  cs.foldlM (fun n c => do let d ← hexDigit? c; if d < base then some (n * base + d) else none) 0

/-- A number of a numeric address: hexadecimal after `0x`, octal after another zero. -/
def addressNumber? : List Char → Option Nat
  | [] => none
  | '0' :: 'x' :: rest => inBase 16 rest
  | '0' :: c :: rest => inBase 8 (c :: rest)
  | cs => inBase 10 cs

/-- The labels of a name, without the empty one after a dot at the end. -/
def labelsOf (name : List Char) : List (List Char) :=
  let labels := splitAt '.' name
  if labels.getLast? == some [] then labels.dropLast else labels

/-- Whether a name ends in a number, so that it has to be a numeric address. -/
def endsInNumber (name : List Char) : Bool :=
  match (labelsOf name).getLast? with
  | none => false
  | some last => (!last.isEmpty && last.all isAsciiDigit) || (addressNumber? last).isSome

/-- Whether a name is a numeric address: at most four numbers, each a byte but for the last one,
which fills the bytes that are left. -/
def isNumericAddress (name : List Char) : Bool :=
  match (labelsOf name).mapM addressNumber? with
  | none => false
  | some numbers =>
    numbers.length ≤ 4 && numbers.dropLast.all (· < 256) &&
      (numbers.getLast?.all fun n => n < Nat.pow 256 (5 - numbers.length))

/-! ## 2. Eight groups -/

/-- Whether a text is a byte in decimal digits, without needless zeros. -/
def isDecimalByte (cs : List Char) : Bool :=
  !cs.isEmpty && cs.all isAsciiDigit && (cs.length == 1 || cs.head? != some '0') &&
    (inBase 10 cs).any (· < 256)

/-- For how many groups a part between colons stands. Only the last part may be four bytes. -/
def groupSize? (isLast : Bool) (cs : List Char) : Option Nat :=
  if !cs.isEmpty && cs.length ≤ 4 && cs.all fun c => (hexDigit? c).isSome then some 1
  else
    let bytes := splitAt '.' cs
    if isLast && bytes.length == 4 && bytes.all isDecimalByte then some 2 else none

/-- The number of groups of a text, where `atEnd` tells whether the address ends with it. -/
def groupCount? (atEnd : Bool) (cs : List Char) : Option Nat :=
  if cs.isEmpty then some 0
  else
    let parts := splitAt ':' cs
    let sizes := parts.zipIdx.mapM fun (part, i) =>
      groupSize? (atEnd && i + 1 == parts.length) part
    sizes.map fun ns => ns.foldl (· + ·) 0

/-- The texts before and after the first double colon. -/
def splitGap (before : List Char) : List Char → Option (List Char × List Char)
  | ':' :: ':' :: rest => some (before.reverse, rest)
  | c :: rest => splitGap (c :: before) rest
  | [] => none

/-- Whether a text is an address of eight groups, some of them possibly left out at one gap. -/
def isGroupAddress (cs : List Char) : Bool :=
  match splitGap [] cs with
  | none => groupCount? true cs == some 8
  | some (before, after) =>
    match groupCount? false before, groupCount? true after with
    | some m, some n => m + n ≤ 7
    | _, _ => false

/-! ## 3. Hosts -/

/-- The bytes of a text in which a percent sign and two digits stand for a byte. -/
def percentDecoded : List Char → List UInt8
  | [] => []
  | '%' :: a :: b :: rest =>
    match hexDigit? a, hexDigit? b with
    | some x, some y => UInt8.ofNat (x * 16 + y) :: percentDecoded rest
    | _, _ => 0x25 :: percentDecoded (a :: b :: rest)
  | c :: rest => encode (String.singleton c) ++ percentDecoded rest

/-- Whether a text is a host: groups in brackets, or a name, which is a numeric address if it ends
in a number. -/
def isHost (cs : List Char) : Bool :=
  match cs with
  | '[' :: rest => rest.getLast? == some ']' && isGroupAddress rest.dropLast
  | _ =>
    match foldedName? (decodeLossy (percentDecoded cs)) with
    | none => false
    | some name => !name.isEmpty && (!endsInNumber name || isNumericAddress name)

end CodeAssist.Remote
