import CodeAssist.Offline.Diagnosis
import CodeAssist.Offline.Review
import CodeAssist.Offline.Starter
import CodeAssist.Proofs.Offline.Tidy
import CodeAssist.Proofs.Text.Trimming
import Mathlib.Tactic.SplitIfs

/-!
The wording of the offline provider.

Labels and advice begin and end with a character that is not blank, and so do not change when they
are trimmed. Explanations, diagnoses, messages and summaries end with such a character, also those
that name something of the code (`reviewCode_worded`). The issues of a review stand on lines of
the code.
-/

namespace CodeAssist.Text

theorem length_lines_le (cs : List Char) : (lines cs).length ≤ cs.length := by
  fun_induction lines cs with
  | case1 => exact Nat.le_refl 0
  | case2 rest ih => exact Nat.succ_le_succ ih
  | case3 rest ih => exact Nat.le_succ_of_le (Nat.succ_le_succ ih)
  | case4 c rest _ _ hlines ih => exact Nat.succ_le_succ (Nat.zero_le _)
  | case5 c rest _ _ line more hlines ih =>
    rw [hlines] at ih
    exact Nat.le_succ_of_le ih

end CodeAssist.Text

namespace CodeAssist.Offline

open Text List Option

/-! ## 1. Tidied code -/

theorem mem_labels {label : String} {rs : List Rule} {cs : List Char}
    (h : label ∈ (applyRules rs cs).2) : ∃ r ∈ rs, r.label = label := by
  induction rs generalizing cs with
  | nil => cases h
  | cons r more ih =>
    have hmore : label ∈ (applyRules more (r.apply cs)).2 →
        ∃ r' ∈ r :: more, r'.label = label := by
      intro hmem
      obtain ⟨r', hr', hlabel⟩ := ih hmem
      exact ⟨r', mem_cons_of_mem _ hr', hlabel⟩
    rw [applyRules] at h
    dsimp only at h
    split at h
    · exact hmore h
    · rcases mem_cons.1 h with rfl | hmem
      · exact ⟨r, mem_cons_self, rfl⟩
      · exact hmore hmem

theorem rules_framed : ∀ r ∈ rules, isFramed r.label = true := by
  intro r hr
  simp only [rules, mem_cons, not_mem_nil, or_false] at hr
  rcases hr with rfl | rfl | rfl | rfl | rfl | rfl | rfl | rfl | rfl <;>
    exact isFramed_ofList (by decide)

theorem tidy_changes_framed (code : String) :
    ∀ label ∈ (tidy code).changes, isFramed label = true := by
  intro label hlabel
  rw [tidy] at hlabel
  split at hlabel
  · cases hlabel
  · obtain ⟨r, hr, rfl⟩ := mem_labels hlabel
    exact rules_framed r hr

theorem tidy_explanation_visible (code : String) : endsVisibly (tidy code).explanation = true := by
  rw [tidy]
  split
  · exact endsVisibly_ofList (by decide)
  · dsimp only
    split
    · exact endsVisibly_ofList (by decide)
    · exact endsVisibly_append _ (endsVisibly_ofList (by decide))

/-! ## 2. Advice -/

/-- Advice whose diagnosis and explanation end visibly. -/
structure Advice.Worded (a : Advice) : Prop where
  diagnosis : endsVisibly a.diagnosis = true
  explanation : endsVisibly a.explanation = true

theorem declarationAdvice_worded (name : Option String) (code : String) :
    (declarationAdvice name code).Worded := by
  refine ⟨endsVisibly_append _ (endsVisibly_ofList (by decide)), ?_⟩
  rw [declarationAdvice]
  dsimp only
  split
  · exact endsVisibly_append _ (endsVisibly_ofList (by decide))
  · exact endsVisibly_ofList (by decide)

theorem diagnose_worded (errorMessage code : String) : (diagnose errorMessage code).Worded := by
  rw [diagnose]
  split_ifs
  · exact ⟨endsVisibly_ofList (by decide), endsVisibly_append _ (endsVisibly_ofList (by decide))⟩
  · exact declarationAdvice_worded _ _
  · exact ⟨endsVisibly_append _ (endsVisibly_ofList (by decide)), endsVisibly_ofList (by decide)⟩
  · exact ⟨endsVisibly_append _ (endsVisibly_ofList (by decide)), endsVisibly_ofList (by decide)⟩
  · exact ⟨endsVisibly_ofList (by decide), endsVisibly_append _ (endsVisibly_ofList (by decide))⟩
  · exact ⟨endsVisibly_ofList (by decide), endsVisibly_ofList (by decide)⟩
  · exact ⟨endsVisibly_ofList (by decide), endsVisibly_ofList (by decide)⟩

/-! ## 3. Starters -/

/-- A starter whose file has the usual name, and whose other texts end visibly. -/
structure Starter.Worded (s : Starter) : Prop where
  name : s.file.name = "main.c"
  purpose : endsVisibly s.file.purpose = true
  explanation : endsVisibly s.explanation = true

theorem starter_worded (prompt : String) : (starter prompt).Worded := by
  rw [starter]
  split
  · exact ⟨rfl, endsVisibly_ofList (by decide), endsVisibly_ofList (by decide)⟩
  · exact ⟨rfl, endsVisibly_ofList (by decide),
      endsVisibly_append _ (endsVisibly_ofList (by decide))⟩

/-! ## 4. Findings -/

/-- A finding whose message ends visibly and whose advice trimming leaves alone. -/
structure Finding.Worded (f : Finding) : Prop where
  message : endsVisibly f.message = true
  advice : ∀ a ∈ f.advice, isFramed a = true

theorem framed_some {advice : String} (h : isFramed advice = true) :
    ∀ a ∈ some advice, isFramed a = true := by
  rintro a ⟨⟩
  exact h

theorem finding_worded {found : Bool} {severity : Severity} {message : String}
    {advice : Option String} (hmessage : endsVisibly message = true)
    (hadvice : ∀ a ∈ advice, isFramed a = true) :
    ∀ f ∈ finding found severity message advice, f.Worded := by
  intro f hf
  rw [finding] at hf
  split at hf
  · rw [mem_singleton.1 hf]
    exact ⟨hmessage, hadvice⟩
  · cases hf

theorem lineFindings_worded (line : List Char) : ∀ f ∈ lineFindings line, f.Worded := by
  intro f hf
  simp only [lineFindings, mem_append] at hf
  rcases hf with ((((hgets | hscanf) | hcopy) | hprintf) | hmarker) | hlong
  · exact finding_worded (endsVisibly_ofList (by decide))
      (framed_some (isFramed_ofList (by decide))) f hgets
  · exact finding_worded (endsVisibly_ofList (by decide))
      (framed_some (isFramed_ofList (by decide))) f hscanf
  · -- the message names the function that is called
    split at hcopy
    · rw [mem_singleton.1 hcopy]
      exact ⟨endsVisibly_append _ (endsVisibly_ofList (by decide)),
        framed_some (isFramed_ofList (by decide))⟩
    · cases hcopy
  · exact finding_worded (endsVisibly_ofList (by decide))
      (framed_some (isFramed_ofList (by decide))) f hprintf
  · exact finding_worded (endsVisibly_ofList (by decide)) (fun a ha => by cases ha) f hmarker
  · exact finding_worded (endsVisibly_append _ (endsVisibly_ofList (by decide)))
      (framed_some (isFramed_ofList (by decide))) f hlong

theorem leakFinding_worded : leakFinding.Worded :=
  ⟨endsVisibly_ofList (by decide), framed_some (isFramed_ofList (by decide))⟩

/-- The findings in some code, each with its line number. -/
def numbered (code : String) : List (Nat × Finding) :=
  findings (lines code.toList) ++
    ((leak? code.toList (lines code.toList)).map fun n => (n, leakFinding)).toList

theorem numbered_worded (code : String) :
    ∀ e ∈ numbered code, e.2.Worded ∧ 0 < e.1 ∧ e.1 ≤ (lines code.toList).length := by
  rintro ⟨n, f⟩ he
  rcases mem_append.1 he with hline | hleak
  · rw [findings] at hline
    obtain ⟨⟨line, index⟩, hmem, hf⟩ := mem_flatMap.1 hline
    obtain ⟨g, hg, hpair⟩ := mem_map.1 hf
    cases hpair
    have hindex : index < (lines code.toList).length := by
      simpa using snd_lt_of_mem_zipIdx hmem
    exact ⟨lineFindings_worded line f hg, Nat.succ_pos index, hindex⟩
  · obtain ⟨m, hm, hpair⟩ := map_eq_some_iff.1 (mem_toList.1 hleak)
    cases hpair
    rw [leak?] at hm
    split at hm
    · cases hm
    · obtain ⟨index, hfound, rfl⟩ := map_eq_some_iff.1 hm
      obtain ⟨hindex, -⟩ := findIdx?_eq_some_iff_getElem.1 hfound
      exact ⟨leakFinding_worded, Nat.succ_pos index, hindex⟩

theorem mem_of_mem_eachOnce {t : String} {seen ts : List String} (h : t ∈ eachOnce seen ts) :
    t ∈ ts := by
  induction ts generalizing seen with
  | nil => exact h
  | cons s rest ih =>
    rw [eachOnce] at h
    split at h
    · exact mem_cons_of_mem _ (ih h)
    · rcases mem_cons.1 h with rfl | hmem
      · exact mem_cons_self
      · exact mem_cons_of_mem _ (ih hmem)

theorem countText_visible (n : Nat) : endsVisibly (countText n) = true := by
  unfold countText
  split
  · exact endsVisibly_ofList (by decide)
  · exact endsVisibly_ofList (by decide)
  · exact endsVisibly_append _ (endsVisibly_ofList (by decide))

/-- A review whose summary ends visibly, whose suggestions trimming leaves alone, and whose issues
have a message that ends visibly and a line of a text with `height` lines. -/
structure Findings.Worded (height : Nat) (f : Findings) : Prop where
  summary : endsVisibly f.summary = true
  suggestions : ∀ s ∈ f.suggestions, isFramed s = true
  messages : ∀ i ∈ f.issues, endsVisibly i.message = true
  lines : ∀ i ∈ f.issues, ∃ n, i.line = some n ∧ 0 < n ∧ n ≤ height

/-- A review says nothing blank and names lines that there are. -/
theorem reviewCode_worded (code : String) (focus : List String) :
    (reviewCode code focus).Worded (lines code.toList).length := by
  have hall := numbered_worded code
  rw [reviewCode]
  split
  · exact ⟨endsVisibly_ofList (by decide), by simp, by simp, by simp⟩
  · change Findings.Worded _ {
      summary := countText (numbered code).length ++ _
      issues := (numbered code).map _
      suggestions := eachOnce [] ((numbered code).filterMap _) }
    refine ⟨?_, ?_, ?_, ?_⟩
    · dsimp only
      split
      · rw [String.append_empty]
        exact countText_visible _
      · exact endsVisibly_append _ (endsVisibly_append _ (endsVisibly_ofList (by decide)))
    · intro s hs
      obtain ⟨⟨n, f⟩, hmem, hf⟩ := mem_filterMap.1 (mem_of_mem_eachOnce hs)
      exact (hall _ hmem).1.advice s hf
    · intro i hi
      obtain ⟨⟨n, f⟩, hmem, rfl⟩ := mem_map.1 hi
      exact (hall _ hmem).1.message
    · intro i hi
      obtain ⟨⟨n, f⟩, hmem, rfl⟩ := mem_map.1 hi
      exact ⟨n, rfl, (hall _ hmem).2⟩

end CodeAssist.Offline
