import CodeAssist.Text.Range

/-!
White space, trimming and words.

A character is blank when it has the Unicode property White_Space. Trimming removes blank
characters from the ends of a text, and the words of a text are its maximal runs of characters
that are not blank.
-/

namespace CodeAssist.Text

/-! ## 1. The property -/

def blankRanges : List (Nat × Nat) :=
  [(0x85, 0x85), (0xa0, 0xa0), (0x1680, 0x1680), (0x2000, 0x200a), (0x2028, 0x2029),
   (0x202f, 0x202f), (0x205f, 0x205f), (0x3000, 0x3000)]

def isBlank (c : Char) : Bool :=
  if c.toNat < 0x80 then c.toNat == 0x20 || (0x09 ≤ c.toNat && c.toNat ≤ 0x0d)
  else inRanges c.toNat blankRanges

/-! ## 2. Trimming -/

/-- The text without its leading blank characters. -/
def dropBlank (cs : List Char) : List Char :=
  cs.dropWhile isBlank

/-- The text without its trailing blank characters. -/
def dropBlankEnd (cs : List Char) : List Char :=
  (cs.reverse.dropWhile isBlank).reverse

/-- The text without blank characters at either end. -/
def strip (cs : List Char) : List Char :=
  dropBlankEnd (dropBlank cs)

/-- `strip` on strings. -/
def trim (s : String) : String :=
  String.ofList (strip s.toList)

/-- `dropBlankEnd` on strings. -/
def trimEnd (s : String) : String :=
  String.ofList (dropBlankEnd s.toList)

/-- A text is blank when it holds nothing but blank characters. -/
def isBlankText (s : String) : Bool :=
  s.toList.all isBlank

/-! ## 3. Words -/

/-- The maximal runs of characters that are not blank. `word` is the run read so far, reversed. -/
def wordsFrom (word : List Char) : List Char → List (List Char)
  | [] => if word.isEmpty then [] else [word.reverse]
  | c :: rest =>
    if isBlank c then
      if word.isEmpty then wordsFrom [] rest else word.reverse :: wordsFrom [] rest
    else wordsFrom (c :: word) rest

def words (cs : List Char) : List (List Char) :=
  wordsFrom [] cs

end CodeAssist.Text
