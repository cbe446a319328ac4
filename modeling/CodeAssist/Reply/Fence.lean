import CodeAssist.Text.Case
import CodeAssist.Text.Line
import CodeAssist.Text.Pattern

/-!
Fenced code in a reply.

A line that starts with three backticks after blanks is a fence. Fences open and close blocks in
turn; a block that is not closed goes to the end of the text. What stands outside the blocks is
prose.
-/

namespace CodeAssist.Reply

open Text

def fenceMark : List Char :=
  List.replicate 3 (Char.ofNat 0x60)

def fenceTag? (line : List Char) : Option (List Char) :=
  after? fenceMark (dropBlank line)

def isFence (line : List Char) : Bool :=
  (fenceTag? line).isSome

/-- A fenced block: the tag of its opening fence, trimmed and in lower case, and its lines. -/
structure Block where
  tag : List Char
  body : List (List Char)
  deriving DecidableEq, Repr

mutual

def blocksOutside : List (List Char) → List Block
  | [] => []
  | line :: rest =>
    match fenceTag? line with
    | some tag => blocksInside ((strip tag).map asciiLower) [] rest
    | none => blocksOutside rest

/-- The blocks of lines that stand inside one, whose lines so far are `body`, last first. -/
def blocksInside (tag : List Char) (body : List (List Char)) : List (List Char) → List Block
  | [] => [⟨tag, body.reverse⟩]
  | line :: rest =>
    if isFence line then ⟨tag, body.reverse⟩ :: blocksOutside rest
    else blocksInside tag (line :: body) rest

end

def blocks (cs : List Char) : List Block :=
  blocksOutside (lines cs)

/-- The lines of the first block with the tag, or else of the first block. -/
def chooseBlock (language : List Char) (bs : List Block) : Option Block :=
  (bs.find? fun b => b.tag == language.map asciiLower).or bs.head?

/-- `code_block`: the code of a reply: the first block tagged with the language, or else the first
block. -/
def codeBlock (text language : String) : Option String :=
  (chooseBlock language.toList (blocks text.toList)).map fun b =>
    String.ofList (joinWith ['\n'] b.body)

def proseLines (inside : Bool) : List (List Char) → List (List Char)
  | [] => []
  | line :: rest =>
    if isFence line then proseLines (!inside) rest
    else if inside then proseLines inside rest
    else line :: proseLines inside rest

/-- `prose_outside_blocks`: what stands outside the blocks of a reply, trimmed. -/
def prose (text : String) : String :=
  String.ofList (strip (joinWith ['\n'] (proseLines false (lines text.toList))))

end CodeAssist.Reply
