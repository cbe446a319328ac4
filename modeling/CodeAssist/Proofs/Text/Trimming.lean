import CodeAssist.Text.Blank

/-!
Trimming, by where the blanks of a text end.

A character that is not blank stops the trimming from either side: what stands before it is kept by
`dropBlankEnd` and what stands behind it by `dropBlank`. So a text that begins and ends with such a
character is left alone.
-/

namespace CodeAssist.Text

open List String

variable {c d : Char} {ws cs : List Char} {s : String}

/-! ## 1. The first and the last character that is not blank -/

theorem dropBlank_cons (hc : isBlank c = false) (cs : List Char) :
    dropBlank (c :: cs) = c :: cs := by
  rw [dropBlank, dropWhile_cons, hc]
  rfl

theorem dropBlank_append (hws : ws.all isBlank = true) (cs : List Char) :
    dropBlank (ws ++ cs) = dropBlank cs := by
  rw [dropBlank, dropWhile_append_of_pos (all_eq_true.1 hws), dropBlank]

theorem exists_dropBlank (h : cs.all isBlank = false) :
    ∃ ws c more, cs = ws ++ c :: more ∧ ws.all isBlank = true ∧ isBlank c = false := by
  induction cs with
  | nil => cases h
  | cons c cs ih =>
    cases hc : isBlank c with
    | false => exact ⟨[], c, cs, rfl, rfl, hc⟩
    | true =>
      rw [all_cons, hc, Bool.true_and] at h
      obtain ⟨ws, d, more, rfl, hws, hd⟩ := ih h
      exact ⟨c :: ws, d, more, rfl, by rw [all_cons, hc, hws]; rfl, hd⟩

/-- A stretch ends at the first character that is not of its kind. -/
theorem stretch_unique {p : Char → Bool} {xs ys rest more : List Char} (hxs : xs.all p = true)
    (hys : ys.all p = true) (hc : p c = false) (hd : p d = false)
    (h : xs ++ c :: rest = ys ++ d :: more) : xs = ys ∧ c = d ∧ rest = more := by
  induction xs generalizing ys with
  | nil =>
    cases ys with
    | nil => exact ⟨rfl, cons.inj h⟩
    | cons y ys =>
      rw [(cons.inj h).1, (Bool.and_eq_true_iff.1 hys).1] at hc
      cases hc
  | cons x xs ih =>
    cases ys with
    | nil =>
      rw [← (cons.inj h).1, (Bool.and_eq_true_iff.1 hxs).1] at hd
      cases hd
    | cons y ys =>
      obtain ⟨rfl, htail⟩ := cons.inj h
      obtain ⟨rfl, hrest⟩ :=
        ih (Bool.and_eq_true_iff.1 hxs).2 (Bool.and_eq_true_iff.1 hys).2 htail
      exact ⟨rfl, hrest⟩

theorem dropBlankEnd_append_cons (hc : isBlank c = false) (xs ys : List Char) :
    dropBlankEnd (xs ++ c :: ys) = xs ++ c :: dropBlankEnd ys := by
  rw [dropBlankEnd, dropBlankEnd, reverse_append, reverse_cons, List.append_assoc,
    dropWhile_append]
  split
  · rename_i hempty
    rw [isEmpty_iff.1 hempty, singleton_append, dropWhile_cons, hc]
    simp
  · simp

theorem dropBlankEnd_cons (hc : isBlank c = false) (cs : List Char) :
    dropBlankEnd (c :: cs) = c :: dropBlankEnd cs :=
  dropBlankEnd_append_cons hc [] cs

theorem dropBlankEnd_append_single (hc : isBlank c = false) (cs : List Char) :
    dropBlankEnd (cs ++ [c]) = cs ++ [c] :=
  dropBlankEnd_append_cons hc cs []

theorem dropBlankEnd_append (hws : ws.all isBlank = true) (cs : List Char) :
    dropBlankEnd (cs ++ ws) = dropBlankEnd cs := by
  have hback : ws.reverse.all isBlank = true := by rwa [all_reverse]
  rw [dropBlankEnd, reverse_append, ← dropBlank, dropBlank_append hback]
  rfl

theorem exists_dropBlankEnd (h : cs.all isBlank = false) :
    ∃ front c, dropBlankEnd cs = front ++ [c] ∧ isBlank c = false := by
  obtain ⟨ws, c, more, hreverse, hws, hc⟩ := exists_dropBlank
    (show cs.reverse.all isBlank = false by rwa [all_reverse])
  refine ⟨more.reverse, c, ?_, hc⟩
  rw [dropBlankEnd, hreverse, ← dropBlank, dropBlank_append hws, dropBlank_cons hc,
    reverse_cons]

theorem dropBlankEnd_isPrefix (cs : List Char) : dropBlankEnd cs <+: cs := by
  rw [dropBlankEnd, ← reverse_suffix, reverse_reverse]
  exact dropWhile_suffix isBlank

theorem strip_isInfix (cs : List Char) : strip cs <:+: cs :=
  (dropBlankEnd_isPrefix _).isInfix.trans (dropWhile_suffix isBlank).isInfix

theorem strip_cons (hc : isBlank c = false) (cs : List Char) :
    strip (c :: cs) = c :: dropBlankEnd cs := by
  rw [strip, dropBlank_cons hc, dropBlankEnd_cons hc]

theorem strip_append (hws : ws.all isBlank = true) (cs : List Char) :
    strip (ws ++ cs) = strip cs := by
  rw [strip, dropBlank_append hws, strip]

theorem strip_append_blank (hws : ws.all isBlank = true) (cs : List Char) :
    strip (cs ++ ws) = strip cs := by
  cases hblank : cs.all isBlank with
  | true =>
    have hcs := strip_append hblank []
    have hboth := strip_append hws []
    rw [append_nil] at hcs hboth
    rw [strip_append hblank, hcs, hboth]
  | false =>
    obtain ⟨front, c, more, rfl, hfront, hc⟩ := exists_dropBlank hblank
    rw [List.append_assoc, cons_append, strip_append hfront, strip_append hfront,
      strip_cons hc, strip_cons hc, dropBlankEnd_append hws]

theorem exists_strip (h : cs.all isBlank = false) :
    ∃ c back front d, strip cs = c :: back ∧ isBlank c = false ∧ strip cs = front ++ [d] ∧
      isBlank d = false := by
  obtain ⟨ws, c, more, rfl, hws, hc⟩ := exists_dropBlank h
  have hmore : (c :: more).all isBlank = false := by rw [all_cons, hc, Bool.false_and]
  obtain ⟨front, d, hend, hd⟩ := exists_dropBlankEnd hmore
  refine ⟨c, dropBlankEnd more, front, d, ?_, hc, ?_, hd⟩
  · rw [strip_append hws, strip_cons hc]
  · rw [strip_append hws, strip, dropBlank_cons hc, hend]

theorem exists_ends (hne : cs ≠ []) (htrim : strip cs = cs) :
    ∃ c back front d, cs = c :: back ∧ isBlank c = false ∧ cs = front ++ [d] ∧
      isBlank d = false := by
  cases hblank : cs.all isBlank with
  | true =>
    have hnil := strip_append hblank []
    rw [append_nil, htrim] at hnil
    exact absurd hnil hne
  | false =>
    have hends := exists_strip hblank
    rwa [htrim] at hends

theorem strip_of_visible {front back : List Char} (hfirst : cs = c :: back) (hc : isBlank c = false)
    (hlast : cs = front ++ [d]) (hd : isBlank d = false) : strip cs = cs := by
  rw [strip, hfirst, dropBlank_cons hc, ← hfirst, hlast, dropBlankEnd_append_single hd]

/-! ## 2. Visible ends -/

/-- A text whose last character is not blank. -/
def endsVisibly (s : String) : Bool :=
  s.toList.getLast?.any fun c => !isBlank c

/-- A text whose first and last characters are not blank. -/
def isFramed (s : String) : Bool :=
  (s.toList.head?.any fun c => !isBlank c) && endsVisibly s

theorem endsVisibly_ofList (h : (cs.getLast?.any fun c => !isBlank c) = true) :
    endsVisibly (ofList cs) = true := by
  rw [endsVisibly, toList_ofList, h]

theorem isFramed_ofList
    (h : ((cs.head?.any fun c => !isBlank c) && cs.getLast?.any fun c => !isBlank c) = true) :
    isFramed (ofList cs) = true := by
  rw [isFramed, endsVisibly, toList_ofList, h]

theorem exists_of_endsVisibly (h : endsVisibly s = true) :
    ∃ cs c, s.toList = cs ++ [c] ∧ isBlank c = false := by
  obtain ⟨c, hlast, hc⟩ := (Option.any_eq_true _ _).1 h
  obtain ⟨cs, hcs⟩ := getLast?_eq_some_iff.1 hlast
  exact ⟨cs, c, hcs, by simpa using hc⟩

theorem endsVisibly_append (s : String) {t : String} (h : endsVisibly t = true) :
    endsVisibly (s ++ t) = true := by
  obtain ⟨cs, c, ht, hc⟩ := exists_of_endsVisibly h
  simp [endsVisibly, ht, hc]

theorem trimEnd_of_endsVisibly (h : endsVisibly s = true) : trimEnd s = s := by
  obtain ⟨cs, c, hs, hc⟩ := exists_of_endsVisibly h
  rw [trimEnd, hs, dropBlankEnd_append_single hc, ← hs, ofList_toList]

theorem isBlankText_of_endsVisibly (h : endsVisibly s = true) :
    isBlankText s = false := by
  obtain ⟨cs, c, hs, hc⟩ := exists_of_endsVisibly h
  simp [isBlankText, hs, hc]

theorem isEmpty_of_endsVisibly (h : endsVisibly s = true) : s.isEmpty = false := by
  rw [Bool.eq_false_iff]
  intro hempty
  rw [isEmpty_iff.1 hempty] at h
  cases h

theorem isEmpty_of_isFramed (h : isFramed s = true) : s.isEmpty = false :=
  isEmpty_of_endsVisibly (Bool.and_eq_true_iff.1 h).2

theorem trim_of_isFramed (h : isFramed s = true) : trim s = s := by
  obtain ⟨hfirst, hlast⟩ := Bool.and_eq_true_iff.1 h
  obtain ⟨c, hhead, hc⟩ := (Option.any_eq_true _ _).1 hfirst
  obtain ⟨cs, hcs⟩ := head?_eq_some_iff.1 hhead
  have hstart : dropBlank s.toList = s.toList := by
    rw [hcs]
    exact dropBlank_cons (by simpa using hc) cs
  rw [trim, strip, hstart]
  exact trimEnd_of_endsVisibly hlast

theorem all_blank_of_dropWhile (cs : List Char) :
    (cs.dropWhile isBlank).all isBlank = true → cs.all isBlank = true := by
  induction cs with
  | nil => exact id
  | cons c rest ih =>
    intro h
    rw [dropWhile_cons] at h
    split at h
    · rename_i hc
      rw [all_cons, hc, ih h]
      rfl
    · exact h

theorem all_blank_of_dropBlankEnd (h : (dropBlankEnd cs).all isBlank = true) :
    cs.all isBlank = true := by
  rw [dropBlankEnd, all_reverse] at h
  have := all_blank_of_dropWhile cs.reverse h
  rwa [all_reverse] at this

end CodeAssist.Text
