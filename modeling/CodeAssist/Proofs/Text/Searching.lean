import CodeAssist.Proofs.Text.Replacing

/-!
Where a pattern matches, and what a replacement leaves to match.

A text has no match if and only if the pattern reads none at any place of it
(`isMatch_eq_false_iff`), and then a replacement leaves it alone. The other way round, a replacement
that leaves a text alone tells that nothing matched, where each value is lighter than its match
(`isMatch_or_lighter`).

The text that a replacement gives may itself have matches: a value may complete one that begins
before it, or hold the beginning of one. `isMatch_replaceAll` gives the two conditions under which
it has none, and `replaceFrom_eq_append` is the tool for the first of them: of what a replacement
gives, characters that begin no value were characters of the text.
-/

namespace CodeAssist.Text

open List Option

variable {cs out : List Char}

/-! ## 1. Matches of a text -/

variable {before : Option Char}

theorem firstFrom_cons_eq_none {p : Pattern α} {c : Char} {rest : List Char} :
    firstFrom p before (c :: rest) = none ↔
      p before (c :: rest) = none ∧ firstFrom p (some c) rest = none := by
  rw [firstFrom]
  cases p before (c :: rest) <;> simp

variable {p : Pattern (List Char)}

theorem Pattern.Reads.nil (hp : p.Reads) (before : Option Char) :
    p before [] = none := by
  refine eq_none_iff_forall_ne_some.2 fun read hmatch => ?_
  obtain ⟨piece, hpiece, hcs⟩ := hp _ _ _ _ hmatch
  exact hpiece (append_eq_nil_iff.1 hcs.symm).1

/-- Nothing is found if the pattern fails everywhere. -/
theorem firstFrom_eq_none_iff (hp : p.Reads) (front cs : List Char) :
    firstFrom p front.getLast? cs = none ↔
      ∀ left right, cs = left ++ right → p (front ++ left).getLast? right = none := by
  induction cs generalizing front with
  | nil =>
    refine iff_of_true rfl fun left right h => ?_
    rw [(append_eq_nil_iff.1 h.symm).2, hp.nil]
  | cons c rest ih =>
    have hrest := ih (front ++ [c])
    rw [getLast?_append_of_ne_nil front (cons_ne_nil c []), getLast?_singleton] at hrest
    rw [firstFrom_cons_eq_none, hrest]
    constructor
    · rintro ⟨hhere, hlater⟩ left right h
      cases left with
      | nil => rw [← nil_append right, ← h, append_nil, hhere]
      | cons d left =>
        obtain ⟨rfl, hright⟩ := cons.inj h
        rw [append_cons]
        exact hlater left right hright
    · intro h
      have hhere := h [] (c :: rest) rfl
      rw [append_nil] at hhere
      refine ⟨hhere, fun left right hrest => ?_⟩
      rw [← append_cons]
      exact h (c :: left) right (by rw [hrest, cons_append])

theorem firstFrom_append (hp : p.Reads) {front piece behind : List Char}
    (h : firstFrom p front.getLast? (piece ++ behind) = none) :
    firstFrom p (front ++ piece).getLast? behind = none := by
  rw [firstFrom_eq_none_iff hp] at h ⊢
  intro left right hbehind
  rw [append_assoc]
  exact h (piece ++ left) right (by rw [hbehind, append_assoc])

theorem isMatch_eq_false_iff (hp : p.Reads) (cs : List Char) :
    isMatch p cs = false ↔
      ∀ front rest, cs = front ++ rest → p front.getLast? rest = none := by
  rw [isMatch, firstMatch, isSome_eq_false_iff, isNone_iff_eq_none]
  exact firstFrom_eq_none_iff hp [] cs

theorem isMatch_iff (hp : p.Reads) (cs : List Char) :
    isMatch p cs = true ↔
      ∃ front rest, cs = front ++ rest ∧ (p front.getLast? rest).isSome = true := by
  have h := not_congr (isMatch_eq_false_iff hp cs)
  rw [Bool.not_eq_false] at h
  rw [h]
  simp only [Classical.not_forall, ← ne_eq, isSome_iff_ne_none, exists_prop]

theorem replaceFrom_of_firstFrom (h : firstFrom p before cs = none) :
    replaceFrom p 0 before cs = cs := by
  induction cs generalizing before with
  | nil => rfl
  | cons c rest ih =>
    rw [firstFrom_cons_eq_none] at h
    rw [replaceFrom_keep h.1, ih h.2]

theorem replaceAll_eq_self (h : isMatch p cs = false) : replaceAll p cs = cs := by
  rw [isMatch, firstMatch, isSome_eq_false_iff, isNone_iff_eq_none] at h
  exact replaceFrom_of_firstFrom h

/-- Where each match is heavier than its value, a text with a match is heavier than its
replacement. -/
theorem isMatch_or_lighter (hp : p.Reads) (weight : List Char → Int)
    (hweight : ∀ xs ys, weight (xs ++ ys) = weight xs + weight ys)
    (h : ∀ before piece behind new, p before (piece ++ behind) = some (new, behind) →
      weight new < weight piece) (cs : List Char) :
    isMatch p cs = false ∨ weight (replaceAll p cs) < weight cs := by
  have hwalk := replaceAll_induct hp (motive := fun front cs out =>
    (firstFrom p front.getLast? cs = none ∧ out = cs) ∨ weight out < weight cs)
  have hall : (firstFrom p none cs = none ∧ replaceAll p cs = cs) ∨
      weight (replaceAll p cs) < weight cs := by
    refine hwalk (fun _ => .inl ⟨rfl, rfl⟩) ?_ ?_ cs
    · intro front c rest out hkeep ih
      rw [getLast?_append_of_ne_nil front (cons_ne_nil c [])] at ih
      rcases ih with ⟨hnone, rfl⟩ | hlighter
      · exact .inl ⟨firstFrom_cons_eq_none.2 ⟨hkeep, hnone⟩, rfl⟩
      · have hout := hweight [c] out
        have hrest := hweight [c] rest
        rw [singleton_append] at hout hrest
        exact .inr (by omega)
    · intro front piece behind new out _ hmatch ih
      have hnew := h _ _ _ _ hmatch
      rw [hweight, hweight]
      rcases ih with ⟨-, rfl⟩ | hlighter <;> exact .inr (by omega)
  refine hall.imp_left fun hnone => ?_
  rw [isMatch, firstMatch, hnone.1]
  rfl

/-! ## 2. Matches of a replacement -/

theorem replaceFrom_eq_cons {c : Char} (h : replaceFrom p 0 before cs = c :: out)
    (hc : ∀ new behind later, p before cs = some (new, behind) → new ++ later ≠ c :: out) :
    ∃ rest, cs = c :: rest ∧ replaceFrom p 0 (some c) rest = out := by
  cases cs with
  | nil => cases h
  | cons e rest =>
    cases hmatch : p before (e :: rest) with
    | none =>
      rw [replaceFrom_keep hmatch] at h
      obtain ⟨rfl, hrest⟩ := cons.inj h
      exact ⟨rest, rfl, hrest⟩
    | some read =>
      simp only [replaceFrom, hmatch] at h
      exact absurd h (hc _ _ _ hmatch)

/-- Where all values begin with one character, what has none of it was kept. -/
theorem replaceFrom_eq_append {d : Char}
    (hp : ∀ before cs new behind, p before cs = some (new, behind) → ∃ tail, new = d :: tail)
    {xs : List Char} (hxs : d ∉ xs) (h : replaceFrom p 0 before cs = xs ++ out) :
    ∃ rest, cs = xs ++ rest ∧ replaceFrom p 0 (xs.getLast?.or before) rest = out := by
  induction xs generalizing before cs with
  | nil => exact ⟨cs, rfl, h⟩
  | cons c xs ih =>
    rw [mem_cons, not_or] at hxs
    obtain ⟨rest, rfl, hrest⟩ := replaceFrom_eq_cons h fun new behind later hmatch => by
      obtain ⟨tail, rfl⟩ := hp _ _ _ _ hmatch
      exact fun hsame => hxs.1 (cons.inj hsame).1
    obtain ⟨more, rfl, hmore⟩ := ih hxs.2 hrest
    exact ⟨more, rfl, by rwa [← getLast?_or_cons]⟩

theorem firstFrom_append_eq_none {new : List Char}
    (hnew : ∀ left right, new = left ++ right → right ≠ [] →
      p (left.getLast?.or before) (right ++ out) = none)
    (hout : firstFrom p (new.getLast?.or before) out = none) :
    firstFrom p before (new ++ out) = none := by
  induction new generalizing before with
  | nil => exact hout
  | cons c new ih =>
    refine firstFrom_cons_eq_none.2 ⟨hnew [] (c :: new) rfl (cons_ne_nil c new), ih ?_ ?_⟩
    · intro left right h hright
      rw [getLast?_or_cons c left before]
      exact hnew (c :: left) right (by rw [h, cons_append]) hright
    · rwa [getLast?_or_cons c new before]

/-- A replacement has no match where what it keeps begins none that a value completes, and where
none begins in a value. -/
theorem isMatch_replaceAll (hp : p.Reads)
    (hlast : ∀ before piece behind new, p before (piece ++ behind) = some (new, behind) →
      new ≠ [] ∧ new.getLast? = piece.getLast?)
    (hkeep : ∀ before c rest, p before (c :: rest) = none →
      p before (c :: replaceFrom p 0 (some c) rest) = none)
    (hswap : ∀ before cs new behind, p before cs = some (new, behind) →
      ∀ left right out, new = left ++ right → right ≠ [] →
        p (left.getLast?.or before) (right ++ out) = none) (cs : List Char) :
    isMatch p (replaceAll p cs) = false := by
  have hwalk := replaceFrom_induct hp (motive := fun front cs =>
    firstFrom p front.getLast? (replaceFrom p 0 front.getLast? cs) = none)
  have hall : firstFrom p none (replaceAll p cs) = none := by
    refine hwalk (fun _ => rfl) ?_ ?_ [] cs
    · intro front c rest hnone ih
      rw [getLast?_append_of_ne_nil front (cons_ne_nil c [])] at ih
      rw [replaceFrom_keep hnone]
      exact firstFrom_cons_eq_none.2 ⟨hkeep _ _ _ hnone, ih⟩
    · intro front piece behind new hpiece hmatch ih
      rw [getLast?_append_of_ne_nil front hpiece] at ih
      obtain ⟨hnew, hsame⟩ := hlast _ _ _ _ hmatch
      rw [replaceFrom_swap hpiece hmatch]
      refine firstFrom_append_eq_none (fun left right h hright => ?_) ?_
      · exact hswap _ _ _ _ hmatch left right _ h hright
      · rwa [getLast?_eq_some_getLast hnew, some_or,
          ← getLast?_eq_some_getLast hnew, hsame]
  rw [isMatch, firstMatch, hall]
  rfl

end CodeAssist.Text
