import CodeAssist.Text.Pattern

/-!
Replacing the matches of a pattern, match by match.

A replacement walks over a text: it keeps a character, or swaps what a match read for the value of
the match and goes on behind it. `replaceFrom_induct` and `replaceAll_induct` are that walk as an
induction. They ask that a match reads something (`Pattern.Reads`). What a replacement does to a
text is often seen match by match (`PartByPart.replaceAll`). A pattern that does not look at the
character before the match (`Pattern.IsLocal`) may also be replaced in the parts of a text one by
one.
-/

namespace CodeAssist.Text

open List

variable {rest piece behind new : List Char}

/-! ## 1. The walk -/

/-- A pattern whose matches read something, and leave the rest of the text. -/
def Pattern.Reads (p : Pattern (List Char)) : Prop :=
  ∀ before cs new behind, p before cs = some (new, behind) →
    ∃ piece, piece ≠ [] ∧ cs = piece ++ behind

theorem getLast?_or_cons (c : Char) (cs : List Char) (before : Option Char) :
    cs.getLast?.or (some c) = (c :: cs).getLast?.or before := by
  rw [getLast?_cons]
  cases cs.getLast? <;> rfl

theorem replaceFrom_skip (p : Pattern (List Char)) (cs : List Char) (skip : Nat)
    (before : Option Char) :
    replaceFrom p skip before cs =
      replaceFrom p 0 ((cs.take skip).getLast?.or before) (cs.drop skip) := by
  induction cs generalizing skip before with
  | nil => simp [replaceFrom]
  | cons c rest ih =>
    cases skip with
    | zero => rfl
    | succ k => rw [replaceFrom, ih, take_succ_cons, drop_succ_cons, getLast?_or_cons]

variable {p : Pattern (List Char)}

theorem replaceFrom_keep {before : Option Char} {c : Char} (h : p before (c :: rest) = none) :
    replaceFrom p 0 before (c :: rest) = c :: replaceFrom p 0 (some c) rest := by
  simp only [replaceFrom, h]

theorem replaceFrom_swap {before : Option Char} (hpiece : piece ≠ [])
    (h : p before (piece ++ behind) = some (new, behind)) :
    replaceFrom p 0 before (piece ++ behind) = new ++ replaceFrom p 0 piece.getLast? behind := by
  cases piece with
  | nil => exact absurd rfl hpiece
  | cons c piece =>
    rw [cons_append] at h ⊢
    simp only [replaceFrom, h]
    rw [replaceFrom_skip, length_append, Nat.add_sub_cancel, take_left, drop_left,
      getLast?_or_cons c piece none, Option.or_none]

theorem getLast?_append_of_ne_nil (front : List Char) (hpiece : piece ≠ []) :
    (front ++ piece).getLast? = piece.getLast? := by
  rw [getLast?_append, getLast?_eq_some_getLast hpiece, Option.some_or]

/-- The walk as an induction on what is left to read. `front` is the text before. -/
theorem replaceFrom_induct (hp : p.Reads) {motive : List Char → List Char → Prop}
    (nil : ∀ front, motive front [])
    (keep : ∀ front c rest, p front.getLast? (c :: rest) = none → motive (front ++ [c]) rest →
      motive front (c :: rest))
    (swap : ∀ front piece behind new, piece ≠ [] →
      p front.getLast? (piece ++ behind) = some (new, behind) → motive (front ++ piece) behind →
      motive front (piece ++ behind)) (front cs : List Char) : motive front cs := by
  -- a match may read any number of characters, so the induction is on the length
  induction hn : cs.length using Nat.strongRecOn generalizing front cs with
  | ind n ih =>
    cases cs with
    | nil => exact nil front
    | cons c rest =>
      cases hmatch : p front.getLast? (c :: rest) with
      | none =>
        have hlength : rest.length < n := by
          rw [← hn]
          exact Nat.lt_succ_self _
        exact keep front c rest hmatch (ih rest.length hlength (front ++ [c]) rest rfl)
      | some read =>
        obtain ⟨new, behind⟩ := read
        obtain ⟨piece, hpiece, hcs⟩ := hp _ _ _ _ hmatch
        rw [hcs] at hmatch hn ⊢
        have hlength : behind.length < n := by
          have hread := length_pos_iff.2 hpiece
          rw [length_append] at hn
          omega
        exact swap front piece behind new hpiece hmatch
          (ih behind.length hlength (front ++ piece) behind rfl)

/-- What holds of the walk step by step holds of the replacement. -/
theorem replaceAll_induct (hp : p.Reads) {motive : List Char → List Char → List Char → Prop}
    (nil : ∀ front, motive front [] [])
    (keep : ∀ front c rest out, p front.getLast? (c :: rest) = none →
      motive (front ++ [c]) rest out → motive front (c :: rest) (c :: out))
    (swap : ∀ front piece behind new out, piece ≠ [] →
      p front.getLast? (piece ++ behind) = some (new, behind) →
      motive (front ++ piece) behind out → motive front (piece ++ behind) (new ++ out))
    (cs : List Char) : motive [] cs (replaceAll p cs) := by
  have hwalk := replaceFrom_induct hp
    (motive := fun front cs => motive front cs (replaceFrom p 0 front.getLast? cs))
  refine hwalk nil ?_ ?_ [] cs
  · intro front c rest hnone ih
    rw [getLast?_append_of_ne_nil front (cons_ne_nil c [])] at ih
    rw [replaceFrom_keep hnone]
    exact keep front c rest _ hnone ih
  · intro front piece behind new hpiece hmatch ih
    rw [getLast?_append_of_ne_nil front hpiece] at ih
    rw [replaceFrom_swap hpiece hmatch]
    exact swap front piece behind new _ hpiece hmatch ih

/-- A relation between texts that holds where it holds part by part. -/
structure PartByPart (r : List Char → List Char → Prop) : Prop where
  refl : ∀ cs, r cs cs
  append : ∀ {xs ys xs' ys'}, r xs xs' → r ys ys' → r (xs ++ ys) (xs' ++ ys')

/-- A text is related to its replacement where each match is related to its value. -/
theorem PartByPart.replaceAll {r : List Char → List Char → Prop} (hr : PartByPart r) (hp : p.Reads)
    (h : ∀ before piece behind new, p before (piece ++ behind) = some (new, behind) → r piece new)
    (cs : List Char) : r cs (replaceAll p cs) := by
  have hwalk := replaceAll_induct hp (motive := fun _ cs out => r cs out)
  refine hwalk (fun _ => hr.refl []) ?_ ?_ cs
  · intro front c rest out _ ih
    exact hr.append (hr.refl [c]) ih
  · intro front piece behind new out _ hmatch ih
    exact hr.append (h _ _ _ _ hmatch) ih

/-! ## 2. Patterns that look at the match only -/

/-- A pattern that does not look at the character before the match. -/
def Pattern.IsLocal (p : Pattern (List Char)) : Prop :=
  ∀ before before' cs, p before cs = p before' cs

theorem Pattern.IsLocal.replaceFrom_eq (hp : p.IsLocal) (before : Option Char) (cs : List Char) :
    replaceFrom p 0 before cs = replaceAll p cs := by
  cases cs with
  | nil => rfl
  | cons c rest => rw [replaceAll, replaceFrom, replaceFrom, hp before none]

theorem Pattern.IsLocal.replaceAll_keep (hp : p.IsLocal) {c : Char}
    (h : p none (c :: rest) = none) :
    replaceAll p (c :: rest) = c :: replaceAll p rest := by
  rw [replaceAll, replaceFrom_keep h, hp.replaceFrom_eq]

theorem Pattern.IsLocal.replaceAll_swap (hp : p.IsLocal) (hpiece : piece ≠ [])
    (h : p none (piece ++ behind) = some (new, behind)) :
    replaceAll p (piece ++ behind) = new ++ replaceAll p behind := by
  rw [replaceAll, replaceFrom_swap hpiece h, hp.replaceFrom_eq]

end CodeAssist.Text
