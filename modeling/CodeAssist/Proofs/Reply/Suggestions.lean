import CodeAssist.Proofs.Reply.Listing
import CodeAssist.Proofs.Text.Lines
import CodeAssist.Reply.Suggestions

/-!
The suggestions of a text, line by line.

Each line that is neither blank nor a fence gives one suggestion, up to ten of them
(`suggested_line_by_line`). No such line is lost: behind a list marker something of it is always
left (`suggestionText_ends`), and that begins and ends visibly, so that the label can be cut from
its beginning.
-/

namespace CodeAssist.Reply

open Text List

variable {line cs : List Char}

/-! ## 1. Texts -/

theorem suggestionText_eq (h : line.all isBlank = false) :
    suggestionText line = dropMarker (strip line) := by
  obtain ⟨ws, c, more, rfl, hws, hc⟩ := exists_dropBlank h
  rw [suggestionText, dropBlankEnd_append_cons hc, dropBlank_append hws, dropBlank_cons hc,
    strip_append hws, strip_cons hc]

theorem dropMarker_cases (cs : List Char) :
    (dropMarker cs = cs ∧ ∀ marker, IsMarker marker → ¬marker <+: cs) ∨
    ∃ marker, IsMarker marker ∧ cs = marker ++ dropMarker cs ∧
      dropBlank (dropMarker cs) = dropMarker cs := by
  rw [dropMarker]
  cases hmarker : afterMarker? cs with
  | none => exact .inl ⟨rfl, (afterMarker?_eq_none_iff cs).1 hmarker⟩
  | some rest => exact .inr (exists_of_afterMarker? hmarker)

theorem IsMarker.exists_last {marker : List Char} (h : IsMarker marker) :
    ∃ front c, marker = front ++ [c] ∧ isBlank c = true := by
  have hlast : ∀ ws : List Char, ws ≠ [] → ws.all isBlank = true →
      ∃ front c, ws = front ++ [c] ∧ isBlank c = true := by
    intro ws hne hws
    refine ⟨ws.dropLast, ws.getLast hne, (dropLast_concat_getLast hne).symm, ?_⟩
    exact all_eq_true.1 hws _ (getLast_mem hne)
  cases h with
  | @sign c ws _ hne hws =>
    obtain ⟨front, d, rfl, hd⟩ := hlast ws hne hws
    exact ⟨c :: front, d, rfl, hd⟩
  | @number ds p ws _ _ _ hne hws =>
    obtain ⟨front, d, rfl, hd⟩ := hlast ws hne hws
    exact ⟨ds ++ p :: front, d, by simp, hd⟩

/-- A line that begins and ends visibly does so without its marker. -/
theorem dropMarker_ends (h : cs.all isBlank = false) (htrim : strip cs = cs) :
    dropMarker cs ≠ [] ∧ strip (dropMarker cs) = dropMarker cs := by
  obtain ⟨c, back, front, d, hfirst, hc, hlast, hd⟩ := exists_strip h
  rw [htrim] at hfirst hlast
  rcases dropMarker_cases cs with ⟨hsame, -⟩ | ⟨marker, hmarker, hcs, hvisible⟩
  · rw [hsame, htrim, hfirst]
    exact ⟨cons_ne_nil c back, rfl⟩
  · -- a line that ended with its marker would end in a blank
    have hne : dropMarker cs ≠ [] := by
      intro hnil
      obtain ⟨front', e, rfl, he⟩ := hmarker.exists_last
      rw [hnil, append_nil, hlast] at hcs
      rw [(cons.inj (append_inj' hcs rfl).2).1, he] at hd
      cases hd
    have hsuffix : dropMarker cs <:+ front ++ [d] := ⟨marker, hcs.symm.trans hlast⟩
    obtain ⟨front', hback, -⟩ := (suffix_concat_iff.1 hsuffix).resolve_left hne
    refine ⟨hne, ?_⟩
    rw [strip, hvisible, hback, dropBlankEnd_append_single hd]

theorem all_isBlank_strip (h : cs.all isBlank = false) :
    (strip cs).all isBlank = false := by
  obtain ⟨c, back, -, -, hfirst, hc, -⟩ := exists_strip h
  rw [hfirst, all_cons, hc, Bool.false_and]

theorem strip_strip (h : cs.all isBlank = false) : strip (strip cs) = strip cs := by
  obtain ⟨c, back, front, d, hfirst, hc, hlast, hd⟩ := exists_strip h
  exact strip_of_visible hfirst hc hlast hd

theorem suggestionText_ends (h : line.all isBlank = false) :
    suggestionText line ≠ [] ∧ strip (suggestionText line) = suggestionText line := by
  rw [suggestionText_eq h]
  exact dropMarker_ends (all_isBlank_strip h) (strip_strip h)

theorem newline_not_mem_suggestionText (h : line.all isBlank = false) (hline : '\n' ∉ line) :
    '\n' ∉ suggestionText line := by
  have hstrip : '\n' ∉ strip line := fun hmem => hline ((strip_isInfix line).subset hmem)
  rw [suggestionText_eq h]
  rcases dropMarker_cases (strip line) with ⟨hsame, -⟩ | ⟨marker, -, hcs, -⟩
  · rwa [hsame]
  · intro hmem
    rw [hcs] at hstrip
    exact hstrip (mem_append_right marker hmem)

/-! ## 2. Labels -/

/-- The beginning of a text that begins visibly is cut from it by trimming, too. -/
theorem strip_takeWhile_isPrefix {c : Char} (hc : isBlank c = false) (p : Char → Bool)
    (cs : List Char) : strip ((c :: cs).takeWhile p) <+: c :: cs := by
  have hcut : dropBlank ((c :: cs).takeWhile p) = (c :: cs).takeWhile p := by
    rw [takeWhile_cons]
    split
    · exact dropBlank_cons hc _
    · rfl
  have htaken : (c :: cs).takeWhile p <+: c :: cs := takeWhile_prefix p
  rw [strip, hcut]
  exact (dropBlankEnd_isPrefix _).trans htaken

/-- The label of a text on one line that begins and ends visibly. -/
theorem label_ofList {c : Char} (hc : isBlank c = false) (htrim : strip (c :: cs) = c :: cs)
    (hline : '\n' ∉ c :: cs) :
    label (String.ofList (c :: cs)) ≠ "" ∧ (label (String.ofList (c :: cs))).toList <+: c :: cs ∧
      (label (String.ofList (c :: cs))).length ≤ maxLabel := by
  have hfirst : firstLine (c :: cs) = c :: cs := by
    rw [firstLine, lines_of_not_mem (cons_ne_nil c cs) hline, headD_cons, htrim]
  -- what is cut to length is a beginning of the text, and not empty
  obtain ⟨base, hbase, hne, hlabel⟩ : ∃ base, base <+: c :: cs ∧ base ≠ [] ∧
      label (String.ofList (c :: cs)) =
        if (base.take maxLabel).isEmpty then "suggestion"
        else String.ofList (base.take maxLabel) := by
    refine ⟨_, ?_, ?_, by rw [label, String.toList_ofList, hfirst]⟩
    · split
      · exact prefix_rfl
      · exact strip_takeWhile_isPrefix hc _ cs
    · split
      · exact cons_ne_nil c cs
      · rename_i hpart
        simpa using hpart
  have hcut : base.take maxLabel ≠ [] := by
    rw [ne_eq, take_eq_nil_iff, not_or]
    exact ⟨by decide, hne⟩
  rw [hlabel, if_neg (by simpa using hcut), String.toList_ofList, String.length_ofList]
  have htaken : base.take maxLabel <+: base := take_prefix _ _
  refine ⟨fun hempty => hcut ?_, htaken.trans hbase, length_take_le _ _⟩
  simpa using congrArg String.toList hempty

/-! ## 3. The main statement -/

theorem suggested_eq (text : String) :
    suggested text = (((lines text.toList).filter isSuggestionLine).take maxSuggestions).zipIdx.map
      fun entry => suggestion entry.2 (String.ofList (suggestionText entry.1)) := by
  have hkept : (((lines text.toList).filter isSuggestionLine).map suggestionText).filter
      (!·.isEmpty) = ((lines text.toList).filter isSuggestionLine).map suggestionText := by
    rw [filter_eq_self]
    intro t ht
    obtain ⟨line, hline, rfl⟩ := mem_map.1 ht
    have hsays := (mem_filter.1 hline).2
    rw [isSuggestionLine, Bool.and_eq_true, Bool.not_eq_true'] at hsays
    simpa using (suggestionText_ends hsays.1).1
  simp only [suggested, hkept, ← map_take, zipIdx_map, map_map]
  rfl

/-- What a suggestion has of its line: the text is the trimmed line without a marker that it may
begin with, and the label a beginning of that. -/
structure Suggests (line : List Char) (s : Suggestion) : Prop where
  ofLine : (s.insertText.toList = strip line ∧
      ∀ marker, IsMarker marker → ¬marker <+: strip line) ∨
    ∃ marker, IsMarker marker ∧ strip line = marker ++ s.insertText.toList
  nonempty : s.insertText ≠ ""
  trimmed : trim s.insertText = s.insertText
  oneLine : '\n' ∉ s.insertText.toList
  labelNonempty : s.label ≠ ""
  labelBegins : s.label.toList <+: s.insertText.toList
  labelShort : s.label.length ≤ 60

/-- A line becomes a suggestion as it should. -/
theorem suggests_suggestion (h : line.all isBlank = false) (hline : '\n' ∉ line) (rank : Nat) :
    Suggests line (suggestion rank (String.ofList (suggestionText line))) := by
  obtain ⟨hne, htrim⟩ := suggestionText_ends h
  have hplain := newline_not_mem_suggestionText h hline
  obtain ⟨c, back, -, -, hfirst, hc, -⟩ := exists_ends hne htrim
  have hlabel := label_ofList hc (hfirst ▸ htrim) (hfirst ▸ hplain)
  rw [← hfirst] at hlabel
  have hcases := dropMarker_cases (strip line)
  rw [← suggestionText_eq h] at hcases
  constructor <;> simp only [suggestion, trim, String.toList_ofList]
  · rcases hcases with hsame | ⟨marker, hmarker, hcs, -⟩
    · exact .inl hsame
    · exact .inr ⟨marker, hmarker, hcs⟩
  · exact fun hempty => hne (by simpa using congrArg String.toList hempty)
  · rw [htrim]
  · exact hplain
  · exact hlabel.1
  · exact hlabel.2.1
  · exact hlabel.2.2

/-- A text gives one suggestion for each of the first ten lines that are neither blank nor a fence,
in their order. -/
theorem suggested_line_by_line (text : String) :
    (suggested text).length =
      min 10 ((lines text.toList).filter fun line => !line.all isBlank && !isFence line).length ∧
    ∀ (i : Nat) (s : Suggestion), (suggested text)[i]? = some s →
      ∃ line, ((lines text.toList).filter fun line => !line.all isBlank && !isFence line)[i]? =
        some line ∧ Suggests line s := by
  change (suggested text).length = min 10 ((lines text.toList).filter isSuggestionLine).length ∧
    ∀ (i : Nat) (s : Suggestion), (suggested text)[i]? = some s →
      ∃ line, ((lines text.toList).filter isSuggestionLine)[i]? = some line ∧ Suggests line s
  rw [suggested_eq]
  refine ⟨by simp [maxSuggestions], fun i s hs => ?_⟩
  rw [List.getElem?_map, List.getElem?_zipIdx, Option.map_map, Option.map_eq_some_iff] at hs
  obtain ⟨line, hline, rfl⟩ := hs
  rw [List.getElem?_take, Option.ite_none_right_eq_some] at hline
  obtain ⟨hmem, hsays⟩ := List.mem_filter.1 (List.mem_of_getElem? hline.2)
  rw [isSuggestionLine, Bool.and_eq_true, Bool.not_eq_true'] at hsays
  exact ⟨line, hline.2, suggests_suggestion hsays.1 (newline_not_mem_line _ line hmem) _⟩

/-- Fences, a blank line, two markers on one line, a dash alone, and a marker with a digit and a
blank beyond ASCII. -/
def markedReply : String :=
  "```c\n - - int x;\n\t\n-\n٣)\u00a0f();\n```"

theorem suggested_line_by_line_marked :
    (suggested markedReply).length = 3 ∧
    (suggested markedReply)[0]? = some (suggestion 0 "- int x;") ∧
    Suggests " - - int x;".toList (suggestion 0 "- int x;") := by
  obtain ⟨hlength, hlines⟩ := suggested_line_by_line markedReply
  have hfirst : (suggested markedReply)[0]? = some (suggestion 0 "- int x;") := by decide +kernel
  obtain ⟨line, hline, hsuggests⟩ := hlines 0 _ hfirst
  have hsame : some line = some " - - int x;".toList := hline.symm.trans (by decide +kernel)
  exact ⟨hlength.trans (by decide +kernel), hfirst, Option.some.inj hsame ▸ hsuggests⟩

end CodeAssist.Reply
