import CodeAssist.Text.Mark

/-!
How the letters of scripts such as Arabic join their neighbours.
-/

namespace CodeAssist.Text

/-! ## 1. The tables -/

/-- Letters that join both the letter before and the letter after them. -/
def joinsBothRanges : List (Nat × Nat) :=
  spacedRanges 0 [1568, 0, 5, 0, 1, 0, 1, 4, 4, 12, 1, 6, 1, 1, 35, 1, 9, 14, 18, 37, 1, 1, 9, 0, 1,
    0, 1, 1, 40, 2, 2, 0, 18, 2, 5, 3, 1, 8, 1, 0, 1, 0, 1, 1, 31, 10, 3, 14, 2, 3, 1, 0, 2, 2, 2,
    5, 74, 32, 86, 4, 2, 0, 1, 9, 1, 0, 10, 0, 1, 3, 2, 0, 29, 0, 2, 4, 1, 0, 16, 9, 5, 1, 2, 5, 1,
    14, 3902, 0, 24, 88, 14, 33, 1, 0, 36757, 49, 25166, 4, 14, 3, 1, 4, 1, 2, 10, 3, 145, 0, 1, 0,
    3, 2, 1, 1, 1, 0, 2, 0, 28, 1, 338, 32, 1, 0, 415, 1, 1, 1, 104, 2, 1, 16, 12, 2, 28, 3, 2, 11,
    46, 0, 1, 1, 4, 0, 2, 1, 1, 1, 1, 0, 2, 0, 5, 0, 55639, 33]

/-- Letters that join only the letter before them. -/
def joinsBeforeRanges : List (Nat × Nat) :=
  spacedRanges 0 [1570, 3, 1, 0, 1, 0, 5, 3, 21, 0, 40, 2, 20, 17, 38, 0, 2, 8, 1, 0, 1, 0, 2, 1, 1,
    0, 24, 1, 32, 0, 4, 4, 4, 0, 9, 0, 1, 0, 1, 0, 2, 0, 29, 0, 11, 2, 15, 1, 4, 0, 1, 1, 3, 1, 198,
    0, 5, 1, 1, 0, 10, 0, 1, 2, 14, 0, 1, 25, 11, 0, 27, 2, 1, 0, 2, 1, 6, 0, 66059, 0, 1, 0, 1, 1,
    3, 4, 10, 0, 3, 0, 2, 0, 10, 0, 145, 0, 1, 2, 3, 0, 2, 0, 1, 1, 1, 0, 23, 3, 373, 0, 415, 0,
    112, 0, 32, 0, 31, 1, 62, 2, 2, 1, 2, 0, 4, 1, 5, 0]

def joinsAfterRanges : List (Nat × Nat) :=
  [(0xa872, 0xa872), (0x10acd, 0x10acd), (0x10ad7, 0x10ad7), (0x10d00, 0x10d00), (0x10fcb, 0x10fcb)]

/-! ## 2. Joining -/

def joinsAfter (c : Char) : Bool :=
  inRanges c.toNat joinsBothRanges || inRanges c.toNat joinsAfterRanges

def joinsBefore (c : Char) : Bool :=
  inRanges c.toNat joinsBothRanges || inRanges c.toNat joinsBeforeRanges

/-- Whether letters join across a character as if it was not there: a mark over or under a letter,
and the nasal sign of Adlam. -/
def isPassedOver (c : Char) : Bool :=
  isNonspacing c || c.toNat == 0x1e94b

end CodeAssist.Text
