/-!
The lexical segments of C text: code, string and character literals, comments.

The segments of a text, one after the other, are the text. A literal ends at its quote or at the
end of the line, a backslash shielding the character after it; a line comment ends before the end
of the line.
-/

namespace CodeAssist.Offline

inductive SegmentKind where
  | code
  | stringLiteral
  | charLiteral
  | lineComment
  | blockComment
  deriving DecidableEq, Repr

structure Segment where
  kind : SegmentKind
  text : List Char
  deriving DecidableEq, Repr

def apostrophe : Char := Char.ofNat 0x27

mutual

/-- The segments of a text that goes on in code. `acc` is the segment so far, reversed. -/
def segmentsInCode (acc : List Char) : List Char → List Segment
  | [] => [⟨.code, acc.reverse⟩]
  | c :: rest =>
    if c == '"' then ⟨.code, acc.reverse⟩ :: segmentsInLiteral .stringLiteral '"' [c] rest
    else if c == apostrophe then
      ⟨.code, acc.reverse⟩ :: segmentsInLiteral .charLiteral apostrophe [c] rest
    else if c == '/' then
      match rest with
      | '/' :: more => ⟨.code, acc.reverse⟩ :: segmentsInLine ['/', '/'] more
      | '*' :: more => ⟨.code, acc.reverse⟩ :: segmentsInBlock ['*', '/'] more
      | rest => segmentsInCode (c :: acc) rest
    else segmentsInCode (c :: acc) rest
termination_by structural cs => cs

def segmentsInLiteral (kind : SegmentKind) (quote : Char) (acc : List Char) :
    List Char → List Segment
  | [] => [⟨kind, acc.reverse⟩]
  | c :: rest =>
    if c == '\\' then
      match rest with
      | e :: more => segmentsInLiteral kind quote (e :: c :: acc) more
      | [] => [⟨kind, (c :: acc).reverse⟩]
    else if c == quote || c == '\n' then ⟨kind, (c :: acc).reverse⟩ :: segmentsInCode [] rest
    else segmentsInLiteral kind quote (c :: acc) rest
termination_by structural cs => cs

def segmentsInLine (acc : List Char) : List Char → List Segment
  | [] => [⟨.lineComment, acc.reverse⟩]
  | c :: rest =>
    if c == '\n' then ⟨.lineComment, acc.reverse⟩ :: segmentsInCode [c] rest
    else segmentsInLine (c :: acc) rest
termination_by structural cs => cs

def segmentsInBlock (acc : List Char) : List Char → List Segment
  | [] => [⟨.blockComment, acc.reverse⟩]
  | c :: rest =>
    if c == '*' then
      match rest with
      | '/' :: more => ⟨.blockComment, ('/' :: c :: acc).reverse⟩ :: segmentsInCode [] more
      | rest => segmentsInBlock (c :: acc) rest
    else segmentsInBlock (c :: acc) rest
termination_by structural cs => cs

end

def segments (cs : List Char) : List Segment :=
  segmentsInCode [] cs

/-- The text of a segment, changed by `f` if it is code. -/
def Segment.mapCode (f : List Char → List Char) (s : Segment) : List Char :=
  if s.kind == .code then f s.text else s.text

/-- `map_code_segments`: the text with `f` applied to each stretch of code, literals and comments
left alone. -/
def mapCode (f : List Char → List Char) (cs : List Char) : List Char :=
  (segments cs).flatMap (Segment.mapCode f)

end CodeAssist.Offline
