import CodeAssist.Proofs.Offline.Marks
import CodeAssist.Proofs.Text.Searching
import CodeAssist.Proofs.Text.Watching

/-!
Texts that the rules for white space leave alone.

Such a text has no tab, no blank before the end of a line, and no more than two newlines in a row
(`Respaced`). The rules give one (`respaced_respace`), and leave one alone. The other rules keep it
that way: what they write begins and ends with something visible, as does what they read, so that
none of them makes a line end in a blank or brings newlines together (`respaced_tidied`).
-/

namespace CodeAssist.Offline

open Text List Watch

variable {cs : List Char}

/-! ## 1. Margins -/

/-- What stands right before a character. -/
inductive Margin where
  /-- Something visible, or the beginning of the text. -/
  | text
  /-- A blank that ends no line. -/
  | blank
  /-- One newline. -/
  | line
  /-- Two newlines. -/
  | gap
  deriving DecidableEq

def Margin.step (m : Margin) (c : Char) : Margin :=
  if c == '\n' then
    match m with
    | .text => .line
    | .blank => .line
    | .line => .gap
    | .gap => .gap
  else if isBlank c then .blank
  else .text

/-- Refuses tabs, newlines behind another blank, and the third of three newlines. -/
def marginWatch : Watch Margin where
  step := Margin.step
  allows := fun m c => c != '\t' && (c != '\n' || (m != .blank && m != .gap))

/-- A text whose white space the rules leave alone. -/
structure Respaced (cs : List Char) : Prop where
  passes : marginWatch.passes .text cs = true
  ends : marginWatch.after .text cs ≠ .blank

theorem marginWatch_visible {c : Char} (hc : isBlank c = false) (m : Margin) :
    marginWatch.step m c = .text ∧ marginWatch.allows m c = true := by
  have hline : c ≠ '\n' := by
    rintro rfl
    cases hc
  have htab : c ≠ '\t' := by
    rintro rfl
    cases hc
  simp [marginWatch, Margin.step, hc, hline, htab]

theorem marginWatch_blank {c : Char} (hc : isBlank c = true) (hline : c ≠ '\n') (m : Margin) :
    marginWatch.step m c = .blank := by
  simp [marginWatch, Margin.step, hc, hline]

/-- Newlines and other blanks, as the rules leave them before something visible. -/
theorem marginWatch_gap {n : Nat} (hn : n ≤ 2) {tail : List Char} (hline : '\n' ∉ tail)
    (htab : '\t' ∉ tail) :
    marginWatch.passes .text (replicate n '\n' ++ tail) = true := by
  have htail : ∀ m, marginWatch.passes m tail = true := by
    induction tail with
    | nil => exact fun _ => rfl
    | cons d tail ih =>
      intro m
      rw [mem_cons, not_or] at hline htab
      rw [passes_cons, ih hline.2 htab.2]
      simp [marginWatch, Ne.symm hline.1, Ne.symm htab.1]
  have hlines : marginWatch.passes .text (replicate n '\n') = true := by
    match n, hn with
    | 0, _ => rfl
    | 1, _ => rfl
    | 2, _ => rfl
  rw [passes_append, hlines, htail]
  rfl

/-- The rules for white space give a text that they leave alone. -/
theorem respaced_respace (cs : List Char) : Respaced (respace cs) := by
  induction hn : cs.length using Nat.strongRecOn generalizing cs with
  | ind n ih =>
    by_cases hblank : cs.all isBlank = true
    · rw [respace_blank_eq hblank]
      have htwo : min (newlines cs) 2 ≤ 2 := by omega
      generalize min (newlines cs) 2 = k at htwo
      match k, htwo with
      | 0, _ => exact ⟨rfl, nofun⟩
      | 1, _ => exact ⟨rfl, nofun⟩
      | 2, _ => exact ⟨rfl, nofun⟩
    · obtain ⟨gap, c, rest, rfl, hgap, hc⟩ := exists_dropBlank (Bool.eq_false_iff.2 hblank)
      obtain ⟨tail, hrespace, -, hline, htab, -⟩ := respace_gap_eq hc rest hgap
      have hrest : Respaced (respace rest) := by
        refine ih rest.length ?_ rest rfl
        rw [← hn, length_append, length_cons]
        omega
      have hgap := marginWatch_gap (show min (newlines gap) 2 ≤ 2 by omega) hline htab
      have hvisible := marginWatch_visible hc
      rw [hrespace]
      constructor
      · rw [passes_append, hgap, passes_cons, (hvisible _).1, (hvisible _).2,
          hrest.passes]
        rfl
      · rw [after_append, after_cons, (hvisible _).1]
        exact hrest.ends

/-! ## 2. The rules for white space on such a text -/

/-- A pattern is left alone where the watch refuses every match. -/
theorem Respaced.replaceAll_eq {p : Pattern (List Char)} (hp : p.Reads)
    (hrefused : ∀ before cs read, p before cs = some read →
      ∃ left c right, cs = left ++ c :: right ∧
        ∀ m, marginWatch.allows (marginWatch.after m left) c = false) (h : Respaced cs) :
    replaceAll p cs = cs := by
  refine replaceAll_eq_self ((isMatch_eq_false_iff hp cs).2 fun front rest hcs => ?_)
  refine Option.eq_none_iff_forall_ne_some.2 fun read hmatch => ?_
  obtain ⟨left, c, right, rfl, hc⟩ := hrefused _ _ _ hmatch
  have hrefused := (passes_eq_false_iff Margin.text cs).2
    ⟨front ++ left, c, right, by rw [hcs, append_assoc], by
      rw [after_append]
      exact hc _⟩
  rw [h.passes] at hrefused
  cases hrefused

theorem Respaced.crlf (h : Respaced cs) : replaceAll crlfPattern cs = cs := by
  refine h.replaceAll_eq crlfPattern_keepsGaps.reads ?_
  rintro before cs ⟨new, behind⟩ hmatch
  obtain ⟨rfl, -⟩ := crlfPattern_eq_some hmatch
  exact ⟨['\r'], '\n', behind, rfl, fun m => by cases m <;> rfl⟩

theorem Respaced.tab (h : Respaced cs) : replaceAll tabPattern cs = cs := by
  refine h.replaceAll_eq tabPattern_keepsGaps.reads ?_
  rintro before cs ⟨new, behind⟩ hmatch
  obtain ⟨rfl, -⟩ := tabPattern_eq_some hmatch
  exact ⟨[], '\t', behind, rfl, fun m => by cases m <;> rfl⟩

theorem Respaced.blankRun (h : Respaced cs) :
    replaceAll blankRunPattern cs = cs := by
  refine h.replaceAll_eq blankRunPattern_reads ?_
  rintro before cs ⟨new, behind⟩ hmatch
  obtain ⟨run, rfl, -⟩ := blankRunPattern_eq_some hmatch
  exact ⟨['\n', '\n'], '\n', run ++ behind, rfl, fun m => by cases m <;> rfl⟩

theorem marginWatch_line_visible (hpass : marginWatch.passes .blank cs = true)
    (hend : marginWatch.after .blank cs ≠ .blank) :
    (cs.takeWhile (· != '\n')).all isBlank = false := by
  induction cs with
  | nil => exact absurd rfl hend
  | cons c rest ih =>
    rw [passes_cons, Bool.and_eq_true] at hpass
    have hline : c ≠ '\n' := by
      rintro rfl
      cases hpass.1
    rw [takeWhile_cons_of_pos (by simpa using hline), all_cons]
    cases hc : isBlank c with
    | false => rfl
    | true =>
      rw [after_cons, marginWatch_blank hc hline] at hend
      rw [marginWatch_blank hc hline] at hpass
      exact ih hpass.2 hend

theorem marginWatch_dropEnds {m : Margin} (hpass : marginWatch.passes m cs = true)
    (hend : marginWatch.after m cs ≠ .blank) : dropEnds cs = cs := by
  induction cs generalizing m with
  | nil => rfl
  | cons c rest ih =>
    rw [passes_cons, Bool.and_eq_true] at hpass
    rw [after_cons] at hend
    rw [dropEnds, if_neg, ih hpass.2 hend]
    rintro ⟨hline, hblank⟩
    rw [takeWhile_cons_of_pos (by simpa using hline), all_cons,
      Bool.and_eq_true] at hblank
    rw [marginWatch_blank hblank.1 hline] at hpass hend
    rw [marginWatch_line_visible hpass.2 hend] at hblank
    cases hblank.2

theorem Respaced.trimLines (h : Respaced cs) : trimLines cs = cs := by
  rw [trimLines_eq]
  exact marginWatch_dropEnds h.passes h.ends

/-! ## 3. The other rules keep it -/

theorem Respaced.of_keepsAt {out : List Char} (h : Respaced cs)
    (hkept : marginWatch.KeepsAt .text cs out) : Respaced out :=
  ⟨hkept.passes h.passes, by rw [hkept.after]; exact h.ends⟩

theorem marginWatch_after {c : Char} (hc : isBlank c = false) (cs : List Char) (m : Margin) :
    marginWatch.after m (cs ++ [c]) = .text := by
  rw [after_append]
  exact (marginWatch_visible hc _).1

theorem marginWatch_keeps {xs ys : List Char} (hxs : ∀ m, marginWatch.after m xs = .text)
    (hys : ∀ m, marginWatch.after m ys = .text ∧ marginWatch.passes m ys = true) (m : Margin) :
    marginWatch.KeepsAt m xs ys :=
  ⟨(hys m).1.trans (hxs m).symm, fun _ => (hys m).2⟩

theorem marginWatch_keyword (cs : List Char) (m : Margin) :
    marginWatch.KeepsAt m cs (replaceAll keywordPattern cs) := by
  refine keywordPattern_related marginWatch.keepsAt_partByPart (fun w hw => ?_) cs m
  have hnew : ∀ m, ∀ w ∈ spacedKeywords, marginWatch.after m (w.toList ++ [' ', '(']) = .text ∧
      marginWatch.passes m (w.toList ++ [' ', '(']) = true := by
    intro m
    cases m <;> decide
  exact marginWatch_keeps (marginWatch_after (by decide) w.toList) fun m => hnew m w hw

theorem marginWatch_comma (cs : List Char) (m : Margin) :
    marginWatch.KeepsAt m cs (replaceAll commaPattern cs) := by
  refine commaPattern_related marginWatch.keepsAt_partByPart (fun c hc => ?_) cs m
  refine marginWatch_keeps (marginWatch_after hc [',']) fun m =>
    ⟨marginWatch_after hc [',', ' '] m, ?_⟩
  have hspace : marginWatch.passes m [',', ' '] = true := by cases m <;> rfl
  have hnew : marginWatch.passes m ([',', ' '] ++ [c]) = true := by
    rw [passes_append, hspace, passes_cons, (marginWatch_visible hc _).2]
    rfl
  exact hnew

theorem marginWatch_brace (cs : List Char) (m : Margin) :
    marginWatch.KeepsAt m (cs ++ ['{']) [')', ' ', '{'] :=
  marginWatch_keeps (marginWatch_after (by decide) cs) (fun m => by cases m <;> exact ⟨rfl, rfl⟩) m

theorem marginWatch_braces (cs : List Char) (m : Margin) : marginWatch.KeepsAt m cs
    (replaceAll braceTightPattern (replaceAll braceBelowPattern cs)) := by
  have hbelow : marginWatch.KeepsAt m cs (replaceAll braceBelowPattern cs) := by
    refine braceBelowPattern_related marginWatch.keepsAt_partByPart (fun right left _ _ => ?_) cs m
    have hparts : ')' :: (right ++ '\n' :: (left ++ ['{'])) =
        (')' :: (right ++ '\n' :: left)) ++ ['{'] := by simp
    rw [hparts]
    exact marginWatch_brace _
  exact hbelow.trans (braceTightPattern_related marginWatch.keepsAt_partByPart
    (marginWatch_brace [')']) _ m)

theorem marginWatch_layOut (cs : List Char) (m : Margin) :
    marginWatch.KeepsAt m cs (layOut cs) := by
  have hr := marginWatch.keepsAt_partByPart
  exact ((mapCode_partByPart hr marginWatch_keyword cs m).trans
    (mapCode_partByPart hr marginWatch_comma _ m)).trans
    (mapCode_partByPart hr marginWatch_braces _ m)

theorem marginWatch_main (cs : List Char) (m : Margin) :
    marginWatch.KeepsAt m cs (replaceAll bareMainPattern cs) := by
  refine bareMainPattern_related marginWatch.keepsAt_partByPart (fun gap inner last _ _ _ => ?_)
    cs m
  rw [bareMain_eq]
  exact marginWatch_keeps (marginWatch_after (by decide) _) fun m => by cases m <;> decide

theorem marginWatch_puts (cs : List Char) (m : Margin) :
    marginWatch.KeepsAt m cs (preferPuts cs) := by
  refine preferPuts_related marginWatch.keepsAt_partByPart (fun text _ m => ?_) cs m
  have hstart : marginWatch.KeepsAt m printStart putsStart :=
    marginWatch_keeps (fun m => by cases m <;> decide) (fun m => by cases m <;> decide) m
  have hend : ∀ m, marginWatch.KeepsAt m ['\\', 'n', '"', ')', ';'] ['"', ')', ';'] :=
    marginWatch_keeps (fun m => by cases m <;> decide) (fun m => by cases m <;> decide)
  exact hstart.append ((KeepsAt.refl _ text).append (hend _))

theorem respaced_tidied (cs : List Char) : Respaced (preferPuts (nameMain cs)) :=
  (respaced_respace cs).of_keepsAt (((marginWatch_layOut _ _).trans (marginWatch_main _ _)).trans
    (marginWatch_puts _ _))

end CodeAssist.Offline
