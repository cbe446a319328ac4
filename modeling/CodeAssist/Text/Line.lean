/-!
Lines, joining and searching.

A line ends at a newline; a carriage return right before that newline belongs to the line end. A
text that ends with a newline has no further empty line after it.
-/

namespace CodeAssist.Text

/-! ## 1. Lines -/

/-- The lines of a text, without their line ends. -/
def lines : List Char → List (List Char)
  | [] => []
  | '\n' :: rest => [] :: lines rest
  | '\r' :: '\n' :: rest => [] :: lines rest
  | c :: rest =>
    match lines rest with
    | [] => [[c]]
    | line :: more => (c :: line) :: more

def linesOf (s : String) : List String :=
  (lines s.toList).map String.ofList

def newlines (cs : List Char) : Nat :=
  cs.count '\n'

/-! ## 2. Joining and splitting -/

/-- The texts one after the other with `sep` between them. -/
def joinWith (sep : List Char) : List (List Char) → List Char
  | [] => []
  | [t] => t
  | t :: rest => t ++ sep ++ joinWith sep rest

/-- The pieces between the occurrences of `sep`; one more than there are occurrences. -/
def splitAt (sep : Char) : List Char → List (List Char)
  | [] => [[]]
  | c :: rest =>
    if c == sep then [] :: splitAt sep rest
    else
      match splitAt sep rest with
      | [] => [[c]]
      | piece :: more => (c :: piece) :: more

/-! ## 3. Searching -/

/-- Whether `needle` occurs in a text. -/
def occurs (needle : List Char) : List Char → Bool
  | [] => needle.isEmpty
  | c :: rest => needle.isPrefixOf (c :: rest) || occurs needle rest

/-- `occurs` on strings: whether `needle` occurs in `text`. -/
def contains (text needle : String) : Bool :=
  occurs needle.toList text.toList

/-- What stands before and after the first occurrence of a nonempty `needle`. -/
def splitFirst (needle : List Char) : List Char → Option (List Char × List Char)
  | [] => none
  | c :: rest =>
    if needle.isPrefixOf (c :: rest) then some ([], (c :: rest).drop needle.length)
    else (splitFirst needle rest).map fun (before, after) => (c :: before, after)

/-! ## 4. Repeats -/

/-- The texts that are not `seen`, each where it comes first. -/
def firsts (seen : List String) : List String → List String
  | [] => []
  | s :: rest => if seen.contains s then firsts seen rest else s :: firsts (s :: seen) rest

end CodeAssist.Text
