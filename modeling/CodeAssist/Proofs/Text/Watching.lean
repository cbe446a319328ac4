import CodeAssist.Proofs.Text.Replacing

/-!
Machines that watch a text.

A watch reads a text character by character and may refuse one, for what it has read before. What it
says of a text it says of the parts, one after the other (`Watch.passes_append`), so that a part may
be replaced by another without the watch noticing, if it leaves both in the same state
(`Watch.KeepsAt`). Over a whole replacement this holds part by part.
-/

namespace CodeAssist.Text

open List

/-- A machine that reads a text and may refuse a character. -/
structure Watch (σ : Type) where
  step : σ → Char → σ
  allows : σ → Char → Bool

namespace Watch

variable {σ : Type}

def after (w : Watch σ) (s : σ) (cs : List Char) : σ :=
  cs.foldl w.step s

/-- Whether each character of a text is allowed. -/
def passes (w : Watch σ) : σ → List Char → Bool
  | _, [] => true
  | s, c :: cs => w.allows s c && w.passes (w.step s c) cs

variable {w : Watch σ}

@[simp] theorem after_nil (s : σ) : w.after s [] = s := rfl

@[simp] theorem after_cons (s : σ) (c : Char) (cs : List Char) :
    w.after s (c :: cs) = w.after (w.step s c) cs := rfl

@[simp] theorem passes_nil (s : σ) : w.passes s [] = true := rfl

@[simp] theorem passes_cons (s : σ) (c : Char) (cs : List Char) :
    w.passes s (c :: cs) = (w.allows s c && w.passes (w.step s c) cs) := rfl

theorem after_append (s : σ) (xs ys : List Char) :
    w.after s (xs ++ ys) = w.after (w.after s xs) ys :=
  foldl_append

theorem passes_append (s : σ) (xs ys : List Char) :
    w.passes s (xs ++ ys) = (w.passes s xs && w.passes (w.after s xs) ys) := by
  induction xs generalizing s with
  | nil => rfl
  | cons c xs ih => rw [cons_append, passes_cons, ih, passes_cons, Bool.and_assoc, after_cons]

/-- A machine stops at a character that it does not allow. -/
theorem passes_eq_false_iff (s : σ) (cs : List Char) :
    w.passes s cs = false ↔
      ∃ left c right, cs = left ++ c :: right ∧ w.allows (w.after s left) c = false := by
  induction cs generalizing s with
  | nil => simp
  | cons c rest ih =>
    rw [passes_cons, Bool.and_eq_false_iff, ih]
    constructor
    · rintro (hhere | ⟨left, d, right, rfl, hlater⟩)
      · exact ⟨[], c, rest, rfl, hhere⟩
      · exact ⟨c :: left, d, right, rfl, hlater⟩
    · rintro ⟨left, d, right, hcs, hd⟩
      cases left with
      | nil =>
        obtain ⟨rfl, -⟩ := cons.inj hcs
        exact .inl hd
      | cons e left =>
        obtain ⟨rfl, hrest⟩ := cons.inj hcs
        exact .inr ⟨left, d, right, hrest, hd⟩

theorem idle {s : σ} {cs : List Char}
    (h : ∀ c ∈ cs, w.step s c = s ∧ w.allows s c = true) :
    w.after s cs = s ∧ w.passes s cs = true := by
  induction cs with
  | nil => exact ⟨rfl, rfl⟩
  | cons c cs ih =>
    obtain ⟨⟨hstep, hallows⟩, hrest⟩ := forall_mem_cons.1 h
    rw [after_cons, passes_cons, hstep, hallows]
    exact ih hrest

/-- Read from a state, the second text is allowed where the first is and leaves the watch alike. -/
structure KeepsAt (w : Watch σ) (s : σ) (xs ys : List Char) : Prop where
  after : w.after s ys = w.after s xs
  passes : w.passes s xs = true → w.passes s ys = true

theorem KeepsAt.refl (s : σ) (xs : List Char) : w.KeepsAt s xs xs :=
  ⟨rfl, id⟩

theorem KeepsAt.trans {s : σ} {xs ys zs : List Char} (h : w.KeepsAt s xs ys)
    (h' : w.KeepsAt s ys zs) : w.KeepsAt s xs zs :=
  ⟨h'.after.trans h.after, fun hpass => h'.passes (h.passes hpass)⟩

theorem KeepsAt.append {s : σ} {xs ys xs' ys' : List Char} (h : w.KeepsAt s xs xs')
    (h' : w.KeepsAt (w.after s xs) ys ys') : w.KeepsAt s (xs ++ ys) (xs' ++ ys') := by
  constructor
  · rw [after_append, after_append, h.after, h'.after]
  · rw [passes_append, passes_append, Bool.and_eq_true, Bool.and_eq_true, h.after]
    exact fun hpass => ⟨h.passes hpass.1, h'.passes hpass.2⟩

theorem keepsAt_partByPart (w : Watch σ) : PartByPart fun xs ys => ∀ s, w.KeepsAt s xs ys where
  refl := fun cs s => .refl s cs
  append := fun hxs hys s => (hxs s).append (hys _)

/-- To the watch the two texts are the same. -/
structure Alike (w : Watch σ) (xs ys : List Char) : Prop where
  after : ∀ s, w.after s ys = w.after s xs
  passes : ∀ s, w.passes s ys = w.passes s xs

theorem alike_partByPart (w : Watch σ) : PartByPart w.Alike where
  refl := fun _ => ⟨fun _ => rfl, fun _ => rfl⟩
  append := by
    intro xs ys xs' ys' hxs hys
    constructor <;> intro s
    · rw [after_append, after_append, hxs.after, hys.after]
    · rw [passes_append, passes_append, hxs.passes, hxs.after, hys.passes]

/-- Texts that begin alike are alike where nothing behind moves the watch. -/
theorem alike_of_idle {s₀ : σ} {c : Char} {xs ys : List Char} (hc : ∀ s, w.step s c = s₀)
    (hxs : ∀ d ∈ xs, w.step s₀ d = s₀ ∧ w.allows s₀ d = true)
    (hys : ∀ d ∈ ys, w.step s₀ d = s₀ ∧ w.allows s₀ d = true) : w.Alike (c :: xs) (c :: ys) := by
  constructor <;> intro s
  · rw [after_cons, after_cons, hc, (idle hxs).1, (idle hys).1]
  · rw [passes_cons, passes_cons, hc, (idle hxs).2, (idle hys).2]

end Watch

end CodeAssist.Text
