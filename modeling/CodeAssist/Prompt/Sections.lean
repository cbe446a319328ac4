import CodeAssist.Moment
import CodeAssist.Text.Line

/-!
The sections of a prompt and how they are made to fit.

A prompt has a header and a body, then optional sections: lines around the cursor, signatures of
functions, recent exchanges. A prompt that is too long loses, in this order and one at a time, its
oldest exchange, its last signature, the line farthest from the cursor; when none of these is
left, the body is cut and marked, and at last the whole text is cut.
-/

namespace CodeAssist.Prompt

open Text

/-! ## 1. Sections -/

/-- A source line and its number, counted from one. -/
abbrev NumberedLine := Nat × List Char

structure Sections where
  header : List Char
  body : List Char
  /-- Lines around the cursor, in order. -/
  nearby : List NumberedLine
  nearbyPath : List Char
  cursorLine : Nat
  signatures : List (List Char)
  /-- Oldest first. -/
  exchanges : List (List Char)
  deriving Repr, Inhabited

def lineNumber (n : Nat) : List Char :=
  let ds := Number.digitsOf n
  List.replicate (4 - ds.length) ' ' ++ ds

def renderLine (l : NumberedLine) : List Char :=
  '\n' :: lineNumber l.1 ++ [' ', '|', ' '] ++ l.2

def renderItem (item : List Char) : List Char :=
  ['\n', '-', ' '] ++ item

/-- A titled section; nothing when it has no content. -/
def renderSection (title : List Char) (content : List Char) (isEmpty : Bool) : List Char :=
  if isEmpty then [] else ['\n', '\n'] ++ title ++ content

namespace Sections

def core (s : Sections) : List Char :=
  s.header ++ ['\n', '\n'] ++ s.body

def renderNearby (s : Sections) : List Char :=
  renderSection ("Nearby code (".toList ++ s.nearbyPath ++ "):".toList)
    (s.nearby.flatMap renderLine) s.nearby.isEmpty

def renderSignatures (s : Sections) : List Char :=
  renderSection "Project functions:".toList (s.signatures.flatMap renderItem) s.signatures.isEmpty

def renderExchanges (s : Sections) : List Char :=
  renderSection "Recent assistance:".toList (s.exchanges.flatMap renderItem) s.exchanges.isEmpty

def render (s : Sections) : List Char :=
  s.core ++ s.renderNearby ++ s.renderSignatures ++ s.renderExchanges

def length (s : Sections) : Nat :=
  s.core.length + s.renderNearby.length + s.renderSignatures.length + s.renderExchanges.length

def fits (s : Sections) (budget : Nat) : Bool :=
  s.length ≤ budget

/-! ## 2. Dropping -/

def fitExchanges (s : Sections) (budget : Nat) : List (List Char) → List (List Char)
  | [] => []
  | e :: rest =>
    if { s with exchanges := e :: rest }.fits budget then e :: rest
    else fitExchanges s budget rest

/-- The first signatures that fit, given with the last one first. -/
def fitSignatures (s : Sections) (budget : Nat) : List (List Char) → List (List Char)
  | [] => []
  | last :: before =>
    if { s with signatures := (last :: before).reverse }.fits budget then (last :: before).reverse
    else fitSignatures s budget before

/-- How far a line is from the cursor, the line above counting as farther than the one below. -/
def farness (cursorLine line : Nat) : Nat :=
  2 * (max line cursorLine - min line cursorLine) + (if line < cursorLine then 1 else 0)

/-- `farthest_window_line`: the index of the farthest line, the last one of those equally far. -/
def farthest (cursorLine : Nat) (ls : List NumberedLine) : Nat :=
  (ls.zipIdx.foldl
    (fun (best : Nat × Nat) (l, index) =>
      if best.1 ≤ farness cursorLine l.1 then (farness cursorLine l.1, index) else best)
    (0, 0)).2

/-- The lines nearest to the cursor that fit; `count` is their number at the start. -/
def fitNearby (s : Sections) (budget : Nat) : Nat → List NumberedLine → List NumberedLine
  | 0, ls => ls
  | count + 1, ls =>
    if { s with nearby := ls }.fits budget then ls
    else fitNearby s budget count (ls.eraseIdx (farthest s.cursorLine ls))

/-- The sections without what has to go for the text to fit. -/
def fit (s : Sections) (budget : Nat) : Sections :=
  let s := { s with exchanges := s.fitExchanges budget s.exchanges }
  let s := { s with signatures := s.fitSignatures budget s.signatures.reverse }
  { s with nearby := s.fitNearby budget s.nearby.length s.nearby }

/-! ## 3. Cutting -/

def cutMark : List Char :=
  "\n[truncated]".toList

/-- `render_bounded`: the text in at most `budget` characters: the body cut and marked if needed,
then the whole text. -/
def renderWithin (s : Sections) (budget : Nat) : List Char :=
  let excess := s.length - budget
  if excess == 0 then s.render
  else
    let keep := s.body.length - (excess + cutMark.length)
    let cut := { s with body := s.body.take keep ++ cutMark }
    cut.render.take budget

end Sections

end CodeAssist.Prompt
