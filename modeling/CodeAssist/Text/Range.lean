/-!
Tables of characters.

A property of characters that a standard lists by ascending ranges is a table here, and asking
whether a character has the property is a look-up that stops at the first range beyond it. What
single characters go with is a text of pairs.
-/

namespace CodeAssist.Text

/-- Whether `n` lies in one of the ranges, which are inclusive, disjoint and ascending. -/
def inRanges (n : Nat) : List (Nat × Nat) → Bool
  | [] => false
  | (lo, hi) :: rest => if n < lo then false else if n ≤ hi then true else inRanges n rest

/-- The ranges that steps lead to, from `start` on: in turn, how many numbers are left out and how
many follow the first one of a range. -/
def spacedRanges (start : Nat) : List Nat → List (Nat × Nat)
  | gap :: more :: rest =>
    (start + gap, start + gap + more) :: spacedRanges (start + gap + more + 1) rest
  | _ => []

def pairsOf : List Char → List (Char × Char)
  | a :: b :: rest => (a, b) :: pairsOf rest
  | _ => []

end CodeAssist.Text
