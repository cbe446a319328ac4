import CodeAssist.Text.Composed
import CodeAssist.Text.Direction
import CodeAssist.Text.Fold
import CodeAssist.Text.Joining
import CodeAssist.Text.Quoted

/-!
Names of hosts in any script.

A name is folded and composed first, then cut into labels at its dots. A label that starts with
`xn--` is the ASCII spelling of a label in another script: its end says which characters to put
where among the plain ones before the last hyphen. Each label then has to be one that can be read:
of allowed characters, not starting with a mark, joiners only where they join, and written in one
direction.
-/

namespace CodeAssist.Remote

open Text

/-! ## 1. The ASCII spelling -/

/-- The value of a digit of the spelling: the letters, then the digits. -/
def digitValue? (c : Char) : Option Nat :=
  if 'a' ≤ c && c ≤ 'z' then some (c.toNat - 0x61)
  else if '0' ≤ c && c ≤ '9' then some (c.toNat - 0x30 + 26)
  else none

/-- The value from which on a digit at a place is not the last one. -/
def digitLimit (place bias : Nat) : Nat :=
  min 26 (max 1 (place - bias))

def numberLimit : Nat := Nat.pow 2 32

def withinLimit (n : Nat) : Option Nat :=
  if n < numberLimit then some n else none

/-- A number plus the one at the head of a text, least digit first, and the text after it. -/
def spelledNumber (bias place weight total : Nat) : List Char → Option (Nat × List Char)
  | [] => none
  | c :: rest => do
    let digit ← digitValue? c
    let total ← withinLimit (total + digit * weight)
    let limit := digitLimit place bias
    if digit < limit then some (total, rest)
    else
      let weight ← withinLimit (weight * (36 - limit))
      spelledNumber bias (place + 36) weight total rest

/-- How far a number goes down to be below a limit, thirty-five times smaller at each step. `fuel`
bounds the steps. -/
def scaledDown : Nat → Nat → Nat → Nat × Nat
  | 0, delta, steps => (delta, steps)
  | fuel + 1, delta, steps =>
    if 455 < delta then scaledDown fuel (delta / 35) (steps + 36) else (delta, steps)

/-- The bias for the next number, from the last one and the length of the label by then. -/
def nextBias (delta length : Nat) (first : Bool) : Nat :=
  let delta := if first then delta / 700 else delta / 2
  let (delta, steps) := scaledDown delta (delta + delta / length) 0
  steps + 36 * delta / (delta + 38)

/-- Puts characters into a label, one for each number of a text. `code` and `position` are those
of the character before, and `fuel` bounds the number of characters. -/
def insertSpelled : Nat → Nat → Nat → Nat → List Char → List Char → Option (List Char)
  | _, _, _, _, label, [] => some label
  | 0, _, _, _, _, _ => none
  | fuel + 1, bias, code, position, label, cs =>
    match spelledNumber bias 36 1 position cs with
    | none => none
    | some (total, rest) =>
      let length := label.length + 1
      let code := code + total / length
      if h : code.isValidChar then
        let place := total % length
        let label := label.insertIdx place (Char.ofNatAux code h)
        let bias := nextBias (total - position) length (position == 0)
        insertSpelled fuel bias code (place + 1) label rest
      else none

/-- The label that an ASCII spelling stands for. What stands before the last hyphen is taken as it
is, and a hyphen at the start divides nothing. -/
def labelOfSpelling (cs : List Char) : Option (List Char) :=
  let digits := (cs.reverse.takeWhile (· != '-')).reverse
  let plain := cs.take (cs.length - digits.length - 1)
  let digits := if plain.isEmpty then cs else digits
  insertSpelled digits.length 72 0x80 0 plain digits

/-! ## 2. Characters -/

def ignoredRanges : List (Nat × Nat) :=
  [(0xad, 0xad), (0x34f, 0x34f), (0x115f, 0x1160), (0x17b4, 0x17b5), (0x180b, 0x180f),
   (0x200b, 0x200b), (0x2060, 0x2064), (0x206a, 0x206f), (0x3164, 0x3164), (0xfe00, 0xfe0f),
   (0xfeff, 0xfeff), (0xffa0, 0xffa0), (0x1bca0, 0x1bca3), (0x1d173, 0x1d17a), (0xe0100, 0xe01ef)]

/-- Characters that can be seen and yet may not stand in a name: those that stand for a dot or for
a blank, those that describe how a character is drawn, and those that stand for no character. -/
def refusedRanges : List (Nat × Nat) :=
  [(0xa8, 0xa8), (0xaf, 0xaf), (0xb4, 0xb4), (0xb8, 0xb8), (0x2d8, 0x2dd), (0x37a, 0x37a),
   (0x384, 0x385), (0x1fbd, 0x1fbd), (0x1fbf, 0x1fc1), (0x1fcd, 0x1fcf), (0x1fdd, 0x1fdf),
   (0x1fed, 0x1fee), (0x1ffd, 0x1ffe), (0x2017, 0x2017), (0x2024, 0x2026), (0x203e, 0x203e),
   (0x2488, 0x249b), (0x2ff0, 0x2fff), (0x309b, 0x309c), (0x31ef, 0x31ef), (0x33c2, 0x33c2),
   (0x33c7, 0x33c7), (0x33d8, 0x33d8), (0xfc5e, 0xfc63), (0xfdfa, 0xfdfb), (0xfe12, 0xfe12),
   (0xfe19, 0xfe19), (0xfe30, 0xfe30), (0xfe49, 0xfe4c), (0xfe52, 0xfe52), (0xfe70, 0xfe70),
   (0xfe72, 0xfe72), (0xfe74, 0xfe74), (0xfe76, 0xfe76), (0xfe78, 0xfe78), (0xfe7a, 0xfe7a),
   (0xfe7c, 0xfe7c), (0xfe7e, 0xfe7e), (0xffe3, 0xffe3), (0xfffc, 0xfffd), (0x1f100, 0x1f100)]

/-- A character that joins the ones beside it, or keeps them apart. -/
def isJoiner (c : Char) : Bool :=
  c.toNat == 0x200c || c.toNat == 0x200d

/-- Whether an ASCII character may stand in a name. -/
def isHostChar (c : Char) : Bool :=
  isAsciiAlnum c || c.toNat == 0x27 ||
    ['!', '$', '&', '(', ')', '*', '+', ',', '-', '.', ';', '=', '_', '~'].contains c

def isAllowed (c : Char) : Bool :=
  if c.toNat < 0x80 then isHostChar c
  else if inRanges c.toNat refusedRanges then false
  else isMark c || isJoiner c || !(isUnseen c)

def isIgnored (c : Char) : Bool :=
  inRanges c.toNat ignoredRanges

def foldChar (c : Char) : List Char :=
  if isIgnored c then [] else (foldOf? c).getD [c]

/-! ## 3. Labels -/

/-- Whether every joiner of a label joins: after a mark that joins consonants, or, if it keeps
letters apart, between letters that would join. -/
def joinersFit (before : List Char) : List Char → Bool
  | [] => true
  | c :: rest =>
    (!isJoiner c || before.head?.any isVirama ||
      (c.toNat == 0x200c && (nearest before).any joinsAfter && (nearest rest).any joinsBefore)) &&
      joinersFit (c :: before) rest
where
  /-- The nearest character across which letters do not join. -/
  nearest (cs : List Char) : Option Char :=
    (cs.dropWhile isPassedOver).head?

/-- A label with characters beyond ASCII is no longer than this. -/
def labelLimit : Nat := 1000

/-- An ASCII spelling is no longer than this. -/
def spellingLimit : Nat := 2000

def isAscii (cs : List Char) : Bool :=
  cs.all (·.toNat < 0x80)

def isLabel (label : List Char) : Bool :=
  label.all isAllowed && !(label.head?.any isMark) && joinersFit [] label &&
    (isAscii label || label.length ≤ labelLimit)

def isFolded (label : List Char) : Bool :=
  label.all (fun c => !(isIgnored c) && (foldOf? c).isNone) && composed label == label

/-- The label as it is read: an ASCII spelling is undone, and has to spell a folded label with
some character beyond ASCII. -/
def readLabel (label : List Char) : Option (List Char) :=
  if "xn--".toList.isPrefixOf label then
    let spelling := label.drop 4
    if isAscii spelling && spelling.length ≤ spellingLimit then
      (labelOfSpelling spelling).filter fun read => !(isAscii read) && isFolded read
    else none
  else some label

/-- Whether the labels of a name can stand together: if one of them is written from right to left,
the directions of each have to agree. -/
def labelsAgree (labels : List (List Char)) : Bool :=
  let directions := labels.map (·.map directionOf)
  let mixed := directions.any (·.any fun d => d == .right || d == .arabicNumber)
  !mixed || directions.all directionsAgree

/-! ## 4. Names -/

def foldedName? (cs : List Char) : Option (List Char) :=
  let name := composed (cs.flatMap foldChar)
  match (splitAt '.' name).mapM readLabel with
  | none => none
  | some labels => if labels.all isLabel && labelsAgree labels then some name else none

end CodeAssist.Remote
