import CodeAssist.TestBed.Arithmetic
import CodeAssist.TestBed.Tool

/-!
Test bed: conditions of a shell.

A condition is made of words: texts, and operators before or between them. What it means is told by
the number of its words.
-/

namespace CodeAssist.TestBed

def conditionNumber (text : String) : Except String Int :=
  let cs := text.toList.dropWhile isBlankByte
  let (negative, digits) := match cs with
    | '-' :: rest => (true, rest)
    | '+' :: rest => (false, rest)
    | cs => (false, cs)
  let figures := digits.takeWhile Char.isDigit
  let n := figures.foldl (fun n c => n * 10 + (c.toNat - 0x30)) 0
  if figures.isEmpty || !(digits.drop figures.length).all isBlankByte || greatest < n then
    .error s!"Illegal number: {text}"
  else .ok (if negative then -(n : Int) else n)

/-- What an operator before a word means. -/
def unaryTest? (files : Workspace) (sign : String) : Option (String → Bool) :=
  let file (word : String) := files.file? (plainName word)
  let present (word : String) := (file word).isSome || isDirectory word
  [("-z", String.isEmpty), ("-n", fun word => !word.isEmpty),
    ("-f", fun word => (file word).isSome),
    ("-d", isDirectory), ("-e", present), ("-r", present), ("-w", present),
    ("-s", fun word => isDirectory word || (file word).any fun f => !f.bytes.isEmpty),
    ("-x", fun word => isDirectory word || (file word).any (·.executable))].lookup sign

/-- What an operator between two words means. -/
def binaryTest? (sign : String) : Option (String → String → Except String Bool) :=
  let numbers (holds : Int → Int → Bool) (a b : String) : Except String Bool := do
    return holds (← conditionNumber a) (← conditionNumber b)
  let texts (holds : String → String → Bool) (a b : String) : Except String Bool := .ok (holds a b)
  [("=", texts (· == ·)), ("!=", texts (· != ·)), ("<", texts fun a b => a < b),
    (">", texts fun a b => b < a), ("-eq", numbers (· == ·)), ("-ne", numbers (· != ·)),
    ("-ge", numbers fun x y => y ≤ x), ("-gt", numbers fun x y => y < x),
    ("-le", numbers fun x y => x ≤ y), ("-lt", numbers fun x y => x < y)].lookup sign

/-- Whether a condition holds. -/
def conditionHolds (files : Workspace) : List String → Except String Bool
  | [] => .ok false
  | [word] => .ok !word.isEmpty
  | [sign, word] =>
    match sign == "!", unaryTest? files sign with
    | true, _ => .ok word.isEmpty
    | false, some test => .ok (test word)
    | false, none => .error s!"{sign}: unexpected operator"
  | first :: sign :: second :: rest =>
    match rest, binaryTest? sign, first == "!" with
    | [], some test, _ => test first second
    | _, _, true => (conditionHolds files (sign :: second :: rest)).map (!·)
    | _, _, _ => .error s!"{first}: unexpected operator"

end CodeAssist.TestBed
