import CodeAssist.Text.Mark
import CodeAssist.Text.Word

/-!
Texts between quotes, for sentences that show what they were given.

Quotes and backslashes are marked. A character that cannot be seen by itself, because it is no
graphic character, is a blank other than the space, or joins the character before it, is written
by its number.
-/

namespace CodeAssist.Text

/-! ## 1. The table -/

/-- Characters beyond ASCII that are written by their number, unless they are word characters:
controls, formats, private and unassigned characters, and blanks. -/
def unseenRanges : List (Nat × Nat) :=
  spacedRanges 0 [128, 32, 12, 0, 714, 1, 6, 3, 7, 23, 397, 40, 50, 1, 3, 0, 55, 38, 6, 16, 22, 0,
    192, 0, 48, 177, 59, 1, 49, 1, 15, 30, 1, 16, 32, 82, 161, 97, 25, 102, 17, 110, 12, 115, 18,
    109, 21, 96, 2, 24, 22, 78, 3, 106, 6, 3, 16, 1, 26, 113, 3, 73, 29, 163, 72, 40, 39, 37, 15, 0,
    13, 36, 198, 9, 377, 275, 32, 2, 26, 101, 640, 0, 28, 2, 89, 37, 24, 72, 94, 17, 10, 5, 14, 305,
    1, 2, 42, 97, 11, 2, 62, 1, 65, 64, 14, 159, 166, 7, 60, 2, 15, 2, 62, 49, 11, 7, 43, 698, 15,
    0, 14, 8, 19, 5, 9, 16, 24, 7, 47, 16, 2, 1, 27, 16, 34, 61, 140, 3, 666, 21, 11, 20, 1812, 1,
    382, 4, 45, 72, 2, 110, 126, 33, 26, 0, 89, 11, 214, 25, 16, 0, 63, 88, 103, 143, 86, 8, 48, 0,
    29293, 2, 55, 8, 348, 19, 184, 7, 221, 19, 60, 2, 10, 5, 56, 85, 12, 5, 116, 10, 30, 2, 78, 15,
    33, 92, 103, 23, 28, 56, 60, 3, 126, 11281, 2048, 6940, 26, 14, 650, 31, 42, 5, 51, 0, 19, 0, 4,
    148, 190, 32, 7, 0, 7, 12, 2, 257, 3, 3, 45, 2, 88, 0, 13, 2, 1, 46, 46, 225, 28, 3, 36, 122,
    37, 3, 14, 408, 12, 731, 72, 7, 9, 74, 33, 2, 27, 4, 27, 97, 20, 1, 50, 58, 10, 6, 9, 6, 64, 31,
    39, 3, 12, 65, 29, 1, 27, 4, 26, 6, 4, 11, 7, 329, 46, 64, 29, 7, 2, 207, 31, 43, 3, 19, 6, 7,
    9, 34, 44, 7, 42, 21, 26, 37, 28, 51, 78, 3, 36, 8, 62, 0, 5, 114, 18, 7, 39, 8, 96, 0, 20, 29,
    47, 92, 11, 289, 10, 0, 2, 38, 92, 0, 5, 29, 72, 239, 38, 33, 69, 26, 13, 18, 58, 117, 23, 184,
    60, 99, 83, 71, 12, 146, 11, 26, 72, 7, 83, 92, 10, 86, 1, 2, 1, 0, 1, 87, 34, 85, 14, 9, 29, 2,
    32, 287, 44, 3, 10, 245, 25, 68, 29, 100, 50, 12, 923, 213, 5, 2842, 99, 14970, 81, 48, 6, 9,
    70, 20, 7, 477, 58, 197, 91, 4, 25, 1, 25, 267, 5, 10, 7, 8, 7382, 40, 32, 96, 115, 11944, 4,
    3935, 253, 2, 436, 5, 23, 14, 17, 94, 116, 59, 246, 9, 39, 1, 74, 7, 112, 20, 70, 121, 20, 11,
    20, 11, 87, 8, 25, 814, 292, 1, 702, 1729, 2, 430, 1, 766, 1, 191, 31, 0, 3, 0, 2, 0, 7, 1, 5,
    8, 2, 454, 16, 134, 2, 784, 68, 75, 61, 433, 2, 269, 44, 3, 100, 11, 15, 1, 15, 0, 15, 0, 37, 9,
    174, 55, 29, 12, 44, 3, 9, 6, 2, 13, 6, 153, 985, 2, 17, 2, 13, 2, 218, 5, 12, 3, 1, 14, 12, 3,
    56, 7, 10, 5, 40, 7, 30, 1, 12, 3, 2, 13, 9, 38, 344, 7, 14, 1, 13, 2, 11, 2, 57, 0, 1, 3, 16,
    1, 12, 3, 10, 6, 147, 0, 103, 43780, 4382, 1, 5774, 17569, 8490, 904069]

/-- Word characters that are written by their number, beside the nonspacing marks: joiners, fillers,
and other marks that extend the character before them. -/
def unseenWordRanges : List (Nat × Nat) :=
  spacedRanges 0 [2494, 0, 24, 0, 358, 0, 24, 0, 102, 0, 24, 0, 232, 0, 1, 0, 4, 1, 1, 1, 9, 1, 103,
    0, 24, 0, 119, 0, 15, 0, 895, 1, 1460, 0, 30, 0, 1024, 8, 5, 1, 101, 0, 71, 1, 1048, 1, 4128, 1,
    308, 0, 30702, 0, 108, 0, 21983, 0, 4639, 0, 116, 0, 264, 0, 14, 0, 9, 0, 96, 0, 9, 0, 2, 0, 1,
    2, 5, 0, 224, 0, 12, 0, 241, 0, 262, 0, 633, 0, 12, 0, 1539, 0, 20654, 1, 24947, 1, 6, 5]

/-! ## 2. Quoting -/

def isUnseen (c : Char) : Bool :=
  if c.toNat < 0x80 then c.toNat < 0x20 || c.toNat == 0x7f
  else if isWord c then isNonspacing c || inRanges c.toNat unseenWordRanges
  else inRanges c.toNat unseenRanges

def byNumber (c : Char) : List Char :=
  ['\\', 'u', '\x7b'] ++ Nat.toDigits 16 c.toNat ++ ['\x7d']

def quoteChar (c : Char) : List Char :=
  if c == '"' || c == '\\' then ['\\', c]
  else if c == '\t' then ['\\', 't']
  else if c == '\n' then ['\\', 'n']
  else if c == '\r' then ['\\', 'r']
  else if c.toNat == 0 then ['\\', '0']
  else if isUnseen c then byNumber c
  else [c]

def quoted (s : String) : String :=
  String.ofList ('"' :: s.toList.flatMap quoteChar ++ ['"'])

end CodeAssist.Text
