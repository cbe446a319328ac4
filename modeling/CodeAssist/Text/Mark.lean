import CodeAssist.Text.Range

/-!
Combining marks.
-/

namespace CodeAssist.Text

def markRanges : List (Nat × Nat) :=
  spacedRanges 0 [768, 111, 275, 6, 263, 44, 1, 0, 1, 1, 1, 1, 1, 0, 72, 10, 48, 20, 16, 0, 101, 6,
    2, 5, 2, 1, 1, 3, 35, 0, 30, 26, 91, 10, 58, 8, 9, 0, 24, 3, 1, 8, 1, 2, 1, 4, 43, 2, 59, 8, 42,
    23, 1, 32, 54, 2, 1, 17, 1, 6, 10, 1, 29, 2, 56, 0, 1, 6, 2, 1, 2, 2, 9, 0, 10, 1, 26, 0, 2, 2,
    56, 0, 1, 4, 4, 1, 2, 2, 3, 0, 30, 1, 3, 0, 11, 2, 56, 0, 1, 7, 1, 2, 1, 2, 20, 1, 22, 5, 1, 2,
    56, 0, 1, 6, 2, 1, 2, 2, 7, 2, 10, 1, 30, 0, 59, 4, 3, 2, 1, 3, 9, 0, 40, 4, 55, 0, 1, 6, 1, 2,
    1, 3, 7, 1, 11, 1, 29, 2, 56, 0, 1, 6, 1, 2, 1, 3, 7, 1, 11, 1, 15, 0, 12, 3, 55, 1, 1, 6, 1, 2,
    1, 3, 9, 0, 10, 1, 29, 2, 70, 0, 4, 5, 1, 0, 1, 7, 18, 1, 61, 0, 2, 6, 12, 7, 98, 0, 2, 8, 11,
    6, 73, 1, 27, 0, 1, 0, 1, 0, 4, 1, 49, 19, 1, 1, 5, 10, 1, 35, 9, 0, 100, 19, 23, 3, 4, 2, 1, 2,
    2, 6, 3, 3, 13, 11, 1, 0, 10, 3, 703, 2, 946, 3, 28, 2, 29, 1, 30, 1, 64, 31, 9, 0, 45, 2, 1, 0,
    117, 1, 34, 0, 118, 11, 4, 11, 219, 4, 57, 9, 1, 28, 2, 0, 48, 45, 2, 11, 20, 4, 47, 16, 38, 8,
    12, 2, 30, 12, 56, 13, 48, 19, 152, 2, 1, 20, 4, 0, 6, 0, 2, 2, 198, 63, 720, 32, 3070, 2, 141,
    0, 96, 31, 554, 5, 105, 1, 30164, 3, 1, 9, 32, 1, 80, 1, 272, 0, 3, 0, 4, 0, 23, 4, 4, 0, 83, 1,
    50, 17, 26, 17, 13, 0, 38, 7, 25, 12, 44, 3, 47, 13, 36, 0, 67, 13, 12, 0, 8, 1, 45, 2, 50, 0,
    1, 2, 2, 1, 5, 1, 1, 0, 41, 4, 5, 1, 236, 7, 1, 1, 20272, 0, 737, 15, 16, 15, 973, 0, 226, 0,
    149, 4, 1670, 2, 1, 1, 5, 3, 40, 2, 4, 0, 165, 1, 573, 3, 65, 4, 317, 1, 77, 5, 70, 10, 49, 3,
    122, 2, 53, 14, 41, 0, 2, 1, 10, 3, 45, 10, 7, 0, 61, 2, 36, 13, 16, 1, 44, 0, 12, 2, 48, 13, 8,
    3, 1, 1, 92, 11, 6, 0, 2, 0, 157, 11, 21, 3, 55, 1, 1, 6, 2, 1, 2, 2, 9, 0, 10, 1, 2, 6, 3, 4,
    67, 8, 1, 0, 2, 0, 1, 3, 1, 4, 1, 0, 14, 1, 82, 17, 23, 0, 81, 19, 235, 6, 2, 8, 27, 1, 82, 16,
    106, 12, 101, 14, 256, 14, 245, 5, 1, 1, 2, 3, 1, 0, 1, 1, 141, 6, 2, 6, 3, 0, 28, 9, 40, 6, 1,
    3, 8, 0, 9, 10, 46, 15, 198, 7, 199, 7, 1, 7, 82, 21, 1, 13, 122, 5, 3, 0, 1, 1, 1, 6, 1, 0, 66,
    4, 1, 1, 1, 4, 347, 3, 9, 1, 1, 0, 48, 6, 3, 4, 23, 0, 5349, 0, 6, 14, 11464, 17, 2496, 4, 59,
    6, 1048, 0, 1, 54, 7, 3, 81, 0, 11, 1, 19627, 1, 4705, 45, 2, 22, 542, 4, 3, 5, 8, 7, 2, 6, 30,
    3, 148, 2, 1979, 54, 4, 49, 8, 0, 14, 0, 22, 4, 1, 14, 1360, 6, 1, 16, 2, 6, 1, 1, 1, 4, 100, 0,
    160, 6, 375, 0, 61, 3, 508, 3, 254, 1, 243, 0, 2, 0, 7, 1, 5, 0, 474, 6, 109, 6, 792501, 239]

def spacingRanges : List (Nat × Nat) :=
  spacedRanges 0 [2307, 0, 55, 0, 2, 2, 8, 3, 1, 1, 50, 1, 58, 2, 6, 1, 2, 1, 10, 0, 43, 0, 58, 2,
    66, 0, 58, 2, 8, 0, 1, 1, 53, 1, 58, 0, 1, 0, 6, 1, 2, 1, 10, 0, 102, 1, 1, 1, 3, 2, 1, 2, 10,
    0, 41, 2, 61, 3, 61, 1, 58, 0, 1, 4, 2, 1, 1, 1, 9, 1, 28, 0, 14, 1, 58, 2, 5, 2, 1, 2, 10, 0,
    42, 1, 75, 2, 6, 7, 18, 1, 330, 1, 63, 0, 171, 1, 4, 0, 6, 0, 2, 1, 25, 1, 10, 2, 2, 6, 21, 1,
    2, 5, 2, 0, 10, 2, 1656, 0, 30, 0, 129, 0, 7, 7, 1, 1, 346, 3, 2, 2, 4, 1, 1, 5, 224, 1, 58, 0,
    1, 0, 9, 0, 1, 1, 8, 5, 145, 0, 48, 0, 5, 0, 1, 4, 1, 1, 61, 0, 30, 0, 4, 1, 2, 0, 60, 0, 2, 2,
    1, 0, 3, 1, 48, 7, 8, 1, 171, 0, 21, 0, 4918, 1, 30707, 1, 2, 0, 88, 1, 50, 15, 142, 1, 47, 0,
    48, 1, 4, 1, 2, 2, 110, 1, 2, 1, 24, 0, 45, 0, 1, 0, 109, 0, 2, 1, 5, 0, 237, 1, 1, 1, 1, 1, 1,
    0, 25619, 0, 1, 0, 127, 0, 45, 2, 4, 1, 115, 0, 24, 1, 59, 0, 48, 2, 9, 1, 13, 0, 93, 2, 3, 1,
    1, 0, 170, 2, 31, 1, 58, 1, 1, 3, 2, 1, 2, 2, 9, 0, 10, 1, 84, 2, 7, 0, 2, 0, 1, 3, 1, 1, 1, 0,
    101, 2, 8, 1, 3, 0, 106, 2, 6, 0, 1, 3, 2, 0, 237, 2, 6, 3, 2, 0, 113, 2, 8, 1, 1, 0, 109, 0, 1,
    1, 6, 0, 103, 0, 1, 1, 4, 0, 261, 2, 9, 0, 247, 5, 1, 1, 4, 0, 2, 0, 1, 0, 142, 2, 8, 3, 4, 0,
    84, 0, 29, 1, 62, 0, 201, 0, 3, 0, 1, 0, 199, 0, 14, 0, 106, 0, 7, 0, 2, 0, 213, 4, 4, 1, 1, 0,
    350, 1, 12, 0, 48, 1, 8, 1, 1, 0, 16872, 2, 3620, 54, 104, 1, 24947, 1, 6, 5]

def isMark (c : Char) : Bool :=
  inRanges c.toNat markRanges

/-- A mark that sits over, under or around the character before it. -/
def isNonspacing (c : Char) : Bool :=
  isMark c && !(inRanges c.toNat spacingRanges)

end CodeAssist.Text
