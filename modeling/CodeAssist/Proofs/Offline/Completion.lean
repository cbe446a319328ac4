import CodeAssist.Offline.Completion
import CodeAssist.Proofs.Prompt.Symbols

/-!
What is offered without a network.

Of candidates that insert the same text the first one is kept, and the first five kept ones are
offered. So a source of candidates gives way to those before it: where a function of the project
is left out, all that is offered are functions of the project.
-/

namespace CodeAssist.Offline

open Text List

/-! ## 1. Distinct candidates -/

theorem insertTexts_distinct (seen : List String) (cs : List Candidate) :
    (distinct seen cs).map (·.insertText) = Text.firsts seen (cs.map (·.insertText)) := by
  induction cs generalizing seen with
  | nil => rfl
  | cons c rest ih =>
    rw [distinct, map_cons, Text.firsts]
    split
    · exact ih seen
    · rw [map_cons, ih]

theorem distinct_sublist (seen : List String) (cs : List Candidate) :
    (distinct seen cs).Sublist cs := by
  induction cs generalizing seen with
  | nil => exact .slnil
  | cons c rest ih =>
    rw [distinct]
    split
    · exact (ih seen).cons c
    · exact (ih _).cons_cons c

theorem distinct_append (seen : List String) (front back : List Candidate) :
    ∃ more, distinct seen (front ++ back) = distinct seen front ++ more := by
  induction front generalizing seen with
  | nil => exact ⟨_, rfl⟩
  | cons c front ih =>
    rw [cons_append, distinct, distinct]
    split
    · exact ih seen
    · obtain ⟨more, hmore⟩ := ih (c.insertText :: seen)
      exact ⟨more, by rw [hmore, cons_append]⟩

/-- If a text of the first candidates is not among the first `n` kept, these are all from the first
candidates. -/
theorem take_distinct_of_not_mem {front back : List Candidate} {n : Nat} {c : Candidate}
    (hc : c ∈ front)
    (hout : c.insertText ∉ ((distinct [] (front ++ back)).take n).map (·.insertText)) :
    ((distinct [] (front ++ back)).take n).length = n ∧
      ∀ k ∈ (distinct [] (front ++ back)).take n, k ∈ front := by
  obtain ⟨more, hmore⟩ := distinct_append [] front back
  have hmem : c.insertText ∈ (distinct [] front).map (·.insertText) := by
    rw [insertTexts_distinct, Text.firsts_eq]
    simpa using ⟨c, hc, rfl⟩
  have hlong : n ≤ (distinct [] front).length := by
    refine Nat.le_of_not_lt fun hshort => hout ?_
    rw [hmore, take_append, take_of_length_le (Nat.le_of_lt hshort), map_append]
    exact mem_append_left _ hmem
  rw [hmore, take_append_of_le_length hlong]
  exact ⟨length_take_of_le hlong, fun k hk =>
    (distinct_sublist [] front).mem (mem_of_mem_take hk)⟩

/-! ## 2. Candidates for a word -/

theorem fragment_append {before word : List Char} (hword : ∀ c ∈ word, isFragmentChar c = true)
    (hbefore : ∀ c, before.getLast? = some c → isFragmentChar c = false) :
    fragment (before ++ word) = word := by
  have hstop : before.reverse.takeWhile isFragmentChar = [] := by
    rw [← head?_reverse] at hbefore
    cases hlast : before.reverse with
    | nil => rfl
    | cons c rest => simp [hbefore c (by rw [hlast]; rfl)]
  rw [fragment, reverse_append, takeWhile_append_of_pos (by simpa using hword), hstop,
    append_nil, reverse_reverse]

/-- The calls of the known functions that go on from a word. -/
def calls (word : List Char) (functions : List String) : List Candidate :=
  (functions.filter fun name => word.isPrefixOf name.toList && name.toList != word).map
    (.call "()")

theorem wordCandidates_eq (word : List Char) (functions vars : List String) :
    ∃ others, wordCandidates word functions vars = calls word functions ++ others :=
  ⟨_, by simp only [wordCandidates, append_assoc]; rfl⟩

theorem label_of_mem_wordCandidates {word : List Char} {functions vars : List String}
    {c : Candidate} (h : c ∈ wordCandidates word functions vars) : word <+: c.label.toList := by
  simp only [wordCandidates, mem_append, mem_map, mem_filter, Bool.and_eq_true,
    isPrefixOf_iff_prefix] at h
  rcases h with (((⟨_, ⟨_, h, _⟩, rfl⟩ | ⟨_, ⟨_, h, _⟩, rfl⟩) | ⟨_, ⟨_, h, _⟩, rfl⟩) |
    ⟨_, ⟨_, h, _⟩, rfl⟩) | ⟨_, ⟨_, h⟩, rfl⟩
  all_goals exact h

/-! ## 3. What is offered -/

theorem insertTexts_complete (linePrefix : String) (functions vars : List String) :
    (complete linePrefix functions vars).map (·.insertText) =
      ((distinct [] (candidates linePrefix functions vars)).take maxOffered).map
        (·.insertText) := by
  rw [complete, map_map]
  conv_rhs => rw [← zipIdx_map_fst 0 ((distinct [] _).take maxOffered), map_map]
  rfl

theorem exists_candidate {linePrefix : String} {functions vars : List String} {s : Suggestion}
    (h : s ∈ complete linePrefix functions vars) :
    ∃ c ∈ (distinct [] (candidates linePrefix functions vars)).take maxOffered,
      s.label = c.label ∧ s.insertText = c.insertText ∧ s.kind = c.kind := by
  obtain ⟨⟨c, rank⟩, hc, rfl⟩ := mem_map.1 h
  exact ⟨c, (mem_zipIdx' hc).2 ▸ getElem_mem _, rfl, rfl, rfl⟩

/-- At most five suggestions are offered, and no two insert the same text. If the line is no
directive and ends with a word, all labels begin with the word; and if the call of a known function
that goes on from the word is left out, all that is offered are calls of known functions. -/
theorem completions_prefer_project (linePrefix : String) (functions vars : List String) :
    (complete linePrefix functions vars).length ≤ 5 ∧
    ((complete linePrefix functions vars).map (·.insertText)).Nodup ∧
    ∀ before word : String, linePrefix = before ++ word → word ≠ "" →
      (∀ c ∈ word.toList, isFragmentChar c = true) →
      (∀ c, before.toList.getLast? = some c → isFragmentChar c = false) →
      (trim linePrefix).toList.head? ≠ some '#' →
      (∀ s ∈ complete linePrefix functions vars, word.toList <+: s.label.toList) ∧
      ∀ g ∈ functions, word.toList <+: g.toList → g ≠ word →
        g ++ "()" ∉ (complete linePrefix functions vars).map (·.insertText) →
        (complete linePrefix functions vars).length = 5 ∧
        ∀ s ∈ complete linePrefix functions vars,
          s.kind = .function ∧ s.insertText = s.label ++ "()" ∧ s.label ∈ functions := by
  have hlength : (complete linePrefix functions vars).length =
      ((distinct [] (candidates linePrefix functions vars)).take maxOffered).length := by
    simp [complete]
  refine ⟨hlength ▸ length_take_le _ _, ?_, ?_⟩
  · rw [insertTexts_complete, map_take, insertTexts_distinct]
    exact (Text.firsts_nodup _ _).1.sublist (take_sublist _ _)
  intro before word hline hword hchars hbefore htrim
  have hcandidates : candidates linePrefix functions vars =
      wordCandidates word.toList functions vars := by
    have hfragment : fragment linePrefix.toList = word.toList := by
      rw [hline, String.toList_append, fragment_append hchars hbefore]
    rw [trim, String.toList_ofList] at htrim
    simp [candidates, hfragment, htrim, hword]
  refine ⟨fun s hs => ?_, fun g hg hstarts hne hout => ?_⟩
  · obtain ⟨c, hc, hlabel, -⟩ := exists_candidate hs
    rw [hcandidates] at hc
    rw [hlabel]
    exact label_of_mem_wordCandidates ((distinct_sublist _ _).mem (mem_of_mem_take hc))
  · obtain ⟨others, hothers⟩ := wordCandidates_eq word.toList functions vars
    rw [hothers] at hcandidates
    have hcall : Candidate.call "()" g ∈ calls word.toList functions := by
      refine mem_map_of_mem (mem_filter.2 ⟨hg, ?_⟩)
      simpa [hstarts] using fun h => hne (String.toList_inj.1 h)
    rw [insertTexts_complete, hcandidates] at hout
    obtain ⟨hfull, hfront⟩ := take_distinct_of_not_mem hcall hout
    rw [hlength, hcandidates]
    refine ⟨hfull, fun s hs => ?_⟩
    obtain ⟨c, hc, hlabel, htext, hkind⟩ := exists_candidate hs
    rw [hcandidates] at hc
    obtain ⟨name, hname, rfl⟩ := mem_map.1 (hfront c hc)
    exact ⟨hkind, by rw [htext, hlabel]; rfl, hlabel ▸ (mem_filter.1 hname).1⟩

/-- Names of which one is repeated and one is also a function of the library. -/
def printers : List String :=
  ["print_a", "print_b", "printf", "print_a", "print_c", "print_d", "print_e"]

theorem completions_prefer_project_printers :
    "print_e()" ∉ (complete "  x = pri" printers ["price"]).map (·.insertText) ∧
    (complete "  x = pri" printers ["price"]).length = 5 ∧
    ∀ s ∈ complete "  x = pri" printers ["price"], s.label ∈ printers := by
  have hout : "print_e()" ∉ (complete "  x = pri" printers ["price"]).map (·.insertText) := by
    decide +kernel
  obtain ⟨-, hcalls⟩ := (completions_prefer_project "  x = pri" printers ["price"]).2.2
    "  x = " "pri" rfl (by decide) (all_eq_true.1 (by decide))
    (fun c hc => Option.some.inj hc ▸ by decide) (by decide)
  obtain ⟨hfull, hall⟩ := hcalls "print_e" (by decide) (by decide) (by decide) hout
  exact ⟨hout, hfull, fun s hs => (hall s hs).2.2⟩

end CodeAssist.Offline
