import CodeAssist.Proofs.Offline.Changes
import CodeAssist.Proofs.Text.Searching

/-!
What tidying does to the visible characters of a text.

The rules for white space and for layout keep the characters that are not blank, all of them and in
their order (`visible_layOut_respace`): what a match reads and what is put in its place differ in
blanks only, and the segments of a text, one after the other, are the text. The two improvements do
not. Each rewriting of `main` brings in a letter, and each rewriting of a print takes a backslash
away, so that neither can make up for the other: the visible characters are the same if and only if
neither rule fires (`tidy_visible_iff`).
-/

namespace CodeAssist.Text

open List

/-! ## 1. Visible characters -/

/-- The characters of a text that are not blank. -/
def visible (cs : List Char) : List Char :=
  cs.filter fun c => !isBlank c

theorem visible_cons (c : Char) (cs : List Char) :
    visible (c :: cs) = visible [c] ++ visible cs :=
  filter_append [c] cs

theorem visible_append (xs ys : List Char) : visible (xs ++ ys) = visible xs ++ visible ys :=
  filter_append xs ys

theorem visible_eq_nil_iff {cs : List Char} : visible cs = [] ↔ cs.all isBlank = true := by
  simp [visible]

theorem visible_blank {cs : List Char} (h : cs.all isBlank = true) : visible cs = [] :=
  visible_eq_nil_iff.2 h

theorem count_visible {c : Char} (hc : isBlank c = false) (cs : List Char) :
    (visible cs).count c = cs.count c :=
  count_filter (by simp [hc])

theorem visible_partByPart : PartByPart fun xs ys => visible ys = visible xs where
  refl := fun _ => rfl
  append := by
    intro xs ys xs' ys' hxs hys
    rw [visible_append, visible_append, hxs, hys]

/-- To have something visible wherever the text before has. -/
theorem staysVisible_partByPart : PartByPart fun xs ys => visible ys = [] → visible xs = [] where
  refl := fun _ => id
  append := by
    intro xs ys xs' ys' hxs hys h
    rw [visible_append, append_eq_nil_iff] at h ⊢
    exact ⟨hxs h.1, hys h.2⟩

end CodeAssist.Text

namespace CodeAssist.Offline

open Text List

/-! ## 2. Rules that keep them -/

/-- The white space rules change the gaps between visible characters. -/
theorem visible_respace (cs : List Char) : visible (respace cs) = visible cs := by
  induction hn : cs.length using Nat.strongRecOn generalizing cs with
  | ind n ih =>
    by_cases hblank : cs.all isBlank = true
    · rw [visible_blank hblank, visible_blank (respace_blank hblank)]
    · obtain ⟨gap, c, rest, rfl, hgap, hc⟩ := exists_dropBlank (Bool.eq_false_iff.2 hblank)
      obtain ⟨other, hrespace, hother, -⟩ := respace_gap hc rest hgap
      have hrest : visible (respace rest) = visible rest := by
        refine ih rest.length ?_ rest rfl
        rw [← hn, length_append, length_cons]
        omega
      rw [hrespace, visible_append, visible_append, visible_blank hgap, visible_blank hother,
        visible_cons, visible_cons c rest, hrest]

theorem mapCode_id (cs : List Char) : mapCode id cs = cs := by
  have htext : Segment.mapCode id = Segment.text := by
    funext s
    rw [Segment.mapCode]
    split <;> rfl
  rw [mapCode, htext]
  exact segments_flatMap cs

theorem visible_keyword (cs : List Char) :
    visible (replaceAll keywordPattern cs) = visible cs := by
  refine keywordPattern_related visible_partByPart (fun w _ => ?_) cs
  rw [visible_append, visible_append]
  rfl

theorem visible_comma (cs : List Char) : visible (replaceAll commaPattern cs) = visible cs :=
  commaPattern_related visible_partByPart (fun _ _ => rfl) cs

theorem visible_spaces {cs : List Char} (h : cs.all isSpaceOrTab = true) : visible cs = [] := by
  refine visible_blank (all_eq_true.2 fun c hc => ?_)
  rcases eq_of_mem_spaces h hc with rfl | rfl <;> decide

theorem visible_braceBelow (cs : List Char) :
    visible (replaceAll braceBelowPattern cs) = visible cs := by
  refine braceBelowPattern_related visible_partByPart (fun right left hright hleft => ?_) cs
  have hparts : ')' :: (right ++ '\n' :: (left ++ ['{'])) =
      [')'] ++ (right ++ (['\n'] ++ (left ++ ['{']))) := rfl
  simp only [hparts, visible_append, visible_spaces hright, visible_spaces hleft]
  rfl

theorem visible_braceTight (cs : List Char) :
    visible (replaceAll braceTightPattern cs) = visible cs :=
  braceTightPattern_related visible_partByPart rfl cs

theorem visible_layOut_respace (cs : List Char) : visible (layOut (respace cs)) = visible cs := by
  have hbraces : ∀ text,
      visible (replaceAll braceTightPattern (replaceAll braceBelowPattern text)) =
        visible text := by
    intro text
    rw [visible_braceTight, visible_braceBelow]
  rw [layOut, mapCode_partByPart visible_partByPart hbraces,
    mapCode_partByPart visible_partByPart visible_comma,
    mapCode_partByPart visible_partByPart visible_keyword, visible_respace]

/-- Neither improvement puts blanks in the place of code. -/
theorem isBlankText_of_tidy (code : String) (h : isBlankText (tidy code).code = true) :
    isBlankText code = true := by
  rw [isBlankText, ← visible_eq_nil_iff] at h ⊢
  rw [tidy_code] at h
  split at h
  · exact h
  · have hnamed := preferPuts_related staysVisible_partByPart
      (fun text _ hputs => absurd hputs (cons_ne_nil _ _)) _ h
    have hlaid := bareMainPattern_related staysVisible_partByPart
      (fun _ _ _ _ _ _ hvoid => absurd hvoid (by decide)) _ hnamed
    rwa [visible_layOut_respace] at hlaid

/-! ## 3. The main result -/

/-- The weight of a text, which each improvement lowers and no other rule changes. -/
def weight (cs : List Char) : Int :=
  cs.count '\\' - cs.count 'v'

theorem weight_append (xs ys : List Char) : weight (xs ++ ys) = weight xs + weight ys := by
  simp only [weight, count_append]
  omega

theorem weight_visible (cs : List Char) : weight (visible cs) = weight cs := by
  rw [weight, count_visible (by decide), count_visible (by decide), weight]

theorem nameMain_eq_or_lighter (cs : List Char) :
    nameMain cs = layOut (respace cs) ∨ weight (nameMain cs) < weight (layOut (respace cs)) := by
  refine (isMatch_or_lighter bareMainPattern_reads weight weight_append ?_ _).imp_left
    replaceAll_eq_self
  intro before piece behind new h
  obtain ⟨gap, inner, last, hgap, hinner, hlast, hpiece, rfl⟩ := bareMainPattern_eq_some h
  obtain rfl := append_cancel_right hpiece
  rw [← weight_visible (bareMain gap inner last)]
  simp only [bareMain, visible_append, visible_blank hgap, visible_blank hinner,
    visible_blank hlast]
  decide

theorem isMatch_print_or_lighter (cs : List Char) :
    isMatch constantPrintPattern cs = false ∨
      weight (replaceAll constantPrintPattern cs) < weight cs := by
  refine isMatch_or_lighter constantPrintPattern_reads weight weight_append ?_ cs
  intro before piece behind new h
  obtain ⟨text, -, -, hpiece, rfl⟩ := constantPrintPattern_eq_some h
  obtain rfl := append_cancel_right hpiece
  have hstarts : weight putsStart = 0 ∧ weight printStart = 0 ∧ weight ['"', ')', ';'] = 0 ∧
      weight ['\\', 'n', '"', ')', ';'] = 1 := by decide
  simp only [putsCall, printCall, weight_append]
  omega

theorem preferPuts_eq_or_lighter (cs : List Char) :
    preferPuts cs = cs ∨ weight (preferPuts cs) < weight cs := by
  rw [preferPuts]
  split
  · exact (isMatch_print_or_lighter cs).imp_left replaceAll_eq_self
  · exact .inl rfl

/-- The segments of a text make up the text, and tidied code has the visible characters of the code
if and only if neither improvement was made. -/
theorem tidy_visible_iff :
    (∀ cs : List Char, mapCode id cs = cs) ∧
    ∀ code : String, visible (tidy code).code.toList = visible code.toList ↔
      "Declared main with an explicit void parameter list" ∉ (tidy code).changes ∧
      "Replaced constant printf calls with puts" ∉ (tidy code).changes := by
  refine ⟨mapCode_id, fun code => ?_⟩
  by_cases hcode : isBlankText code = true
  · rw [tidy, if_pos hcode]
    simp
  · have hvisible := visible_layOut_respace code.toList
    rw [Bool.not_eq_true] at hcode
    rw [mem_changes_main hcode, mem_changes_puts hcode, Decidable.not_not, Decidable.not_not,
      tidy_code, if_neg (by simp [hcode])]
    constructor
    · intro h
      -- Both improvements make a text lighter, so that a text as heavy as before saw neither.
      have hweight : weight (preferPuts (nameMain code.toList)) =
          weight (layOut (respace code.toList)) := by
        rw [← weight_visible, h, ← hvisible, weight_visible]
      rcases nameMain_eq_or_lighter code.toList with hmain | hmain <;>
        rcases preferPuts_eq_or_lighter (nameMain code.toList) with hputs | hputs
      · exact ⟨hmain, hputs⟩
      · rw [hmain] at hputs hweight
        omega
      · rw [hputs] at hweight
        omega
      · omega
    · rintro ⟨hmain, hputs⟩
      rw [hputs, hmain, hvisible]

end CodeAssist.Offline
