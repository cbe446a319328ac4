import CodeAssist.Text.Mark
import CodeAssist.Text.Word

/-!
The direction in which characters are written. The tables are of folded characters: a character
that folds to others has their directions.
-/

namespace CodeAssist.Text

/-! ## 1. The tables -/

/-- Characters beyond ASCII without a direction of their own: signs, punctuation and joiners. -/
def neutralRanges : List (Nat × Nat) :=
  spacedRanges 0 [161, 54, 31, 0, 449, 1, 7, 13, 2, 27, 1, 16, 117, 0, 128, 0, 403, 5, 118, 1, 1, 1,
    1, 0, 1, 1, 90, 0, 115, 0, 10, 0, 268, 3, 504, 1, 7, 0, 245, 0, 257, 7, 125, 6, 448, 0, 250, 3,
    1106, 9, 102, 0, 666, 1, 318, 0, 20, 26, 309, 5, 152, 33, 1548, 181, 66, 73, 60, 427, 69, 25, 1,
    789, 1, 338, 256, 767, 229, 5, 14, 6, 256, 516, 3, 24, 15, 0, 6, 0, 5, 2, 96, 0, 90, 0, 196, 37,
    7130, 63, 22160, 54, 326, 2, 99, 0, 10, 1, 128, 33, 102, 0, 159, 3, 12, 1, 58, 3, 754, 1, 20567,
    572, 69, 1, 698, 0, 62, 76, 3, 16, 1918, 0, 537, 6, 558, 0, 353, 8, 377, 19, 1530, 12, 2408, 28,
    20464, 0, 23581, 752, 760, 88, 3, 0, 186, 86, 4008, 0, 3056, 575, 61, 2, 61, 0, 178, 2458]

/-- Digits beyond ASCII that are written like the ASCII digits. -/
def numberRanges : List (Nat × Nat) :=
  [(0x6f0, 0x6f9), (0x102e1, 0x102fb)]

def arabicNumberRanges : List (Nat × Nat) :=
  [(0x660, 0x669), (0x66b, 0x66c), (0x10d30, 0x10d49), (0x10e60, 0x10e7e)]

def rightRanges : List (Nat × Nat) :=
  spacedRanges 0 [1470, 0, 1, 0, 2, 0, 2, 0, 9, 36, 19, 0, 2, 0, 1, 0, 13, 47, 34, 2, 1, 100, 15, 1,
    7, 1, 10, 22, 1, 29, 29, 88, 11, 57, 9, 1, 4, 0, 3, 23, 4, 0, 9, 0, 3, 0, 7, 40, 5, 49, 16, 41,
    62184, 16, 688, 0, 2444, 283, 4, 224, 15, 37, 10, 164, 6, 74, 10, 483, 38, 5, 31, 32, 240, 41,
    3, 26, 56, 69, 11, 48, 4, 112, 55305, 207, 82, 33, 7, 1010]

/-- Nonspacing marks that have a direction of their own, which is from left to right. -/
def leftMarkRanges : List (Nat × Nat) :=
  [(0xcbf, 0xcbf), (0xcc6, 0xcc6), (0x11a07, 0x11a08), (0x11c3f, 0x11c3f)]

/-! ## 2. Directions -/

inductive Direction where
  | left
  | right
  | number
  | arabicNumber
  /-- It goes with the character before it. -/
  | mark
  | neutral
  deriving DecidableEq, Repr

def directionOf (c : Char) : Direction :=
  let n := c.toNat
  if n < 0x80 then
    if isAsciiLetter c then .left else if isAsciiDigit c then .number else .neutral
  else if isNonspacing c && !(inRanges n leftMarkRanges) then .mark
  else if inRanges n numberRanges then .number
  else if inRanges n arabicNumberRanges then .arabicNumber
  else if inRanges n neutralRanges then .neutral
  else if inRanges n rightRanges then .right
  else .left

/-- Whether the directions of a label agree: it starts with a letter, has letters of one direction
only, and ends with a letter or a number. -/
def directionsAgree (ds : List Direction) : Bool :=
  let last := (ds.reverse.dropWhile (· == .mark)).head?
  match ds.head? with
  | none => true
  | some .left =>
    !(ds.any fun d => d == .right || d == .arabicNumber) &&
      (last == some .left || last == some .number)
  | some .right =>
    !(ds.contains .left) && !(ds.contains .number && ds.contains .arabicNumber) &&
      last != some .neutral
  | _ => false

end CodeAssist.Text
