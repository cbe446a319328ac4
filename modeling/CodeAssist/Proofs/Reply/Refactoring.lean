import CodeAssist.Proofs.Memory.Key
import CodeAssist.Proofs.Reply.Asked
import CodeAssist.Proofs.Reply.Listing
import CodeAssist.Prompt.Template

/-!
The refactoring that the instructions ask for.

It is asked for as code in a fenced block, an explanation, and a line for each change. Such a reply
is read as it was made (`refactoring_asked`), and unlike in a diagnosis it makes no difference
whether there are empty lines between the parts: the prose is divided by what its lines begin with.
-/

namespace CodeAssist.Reply

open Text List Option String

variable {ls : List (List Char)} {tag back : List Char}

/-! ## 1. Empty lines -/

theorem strip_joinWith_above (n : Nat) (ls : List (List Char)) :
    strip (joinWith ['\n'] (replicate n [] ++ ls)) = strip (joinWith ['\n'] ls) := by
  induction n with
  | zero => rfl
  | succ n ih =>
    rw [replicate_succ, cons_append, ← ih]
    by_cases hne : replicate n [] ++ ls = []
    · rw [hne]
      rfl
    · rw [joinWith_newline hne]
      exact strip_append (show ['\n'].all isBlank = true by decide) _

theorem strip_joinWith_below (n : Nat) (ls : List (List Char)) :
    strip (joinWith ['\n'] (ls ++ replicate n [])) = strip (joinWith ['\n'] ls) := by
  induction n with
  | zero => rw [replicate_zero, append_nil]
  | succ n ih =>
    rw [replicate_succ', ← List.append_assoc, ← ih]
    by_cases hne : ls ++ replicate n [] = []
    · rw [hne]
      rfl
    · rw [joinWith_append _ hne (cons_ne_nil _ _)]
      exact strip_append_blank (show ['\n'].all isBlank = true by decide) _

theorem strip_joinWith_lines (h : ∀ line ∈ ls, FitsLine line) :
    strip (joinWith ['\n'] (lines (joinWith ['\n'] ls))) = strip (joinWith ['\n'] ls) := by
  rcases lines_joinWith h with hsame | hmore
  · rw [← hsame]
  · have hbelow := strip_joinWith_below 1 (lines (joinWith ['\n'] ls))
    rw [replicate_one, ← hmore] at hbelow
    exact hbelow.symm

theorem lines_joinWith_trimmed (h : ∀ line ∈ ls, FitsLine line) (hne : ls ≠ [[]])
    (htrim : strip (joinWith ['\n'] ls) = joinWith ['\n'] ls) :
    lines (joinWith ['\n'] ls) = ls := by
  rcases lines_joinWith h with hsame | hmore
  · exact hsame.symm
  · -- an empty line at the end would leave a newline there
    have hfront : lines (joinWith ['\n'] ls) ≠ [] := by
      intro hnil
      rw [hnil] at hmore
      exact hne hmore
    have hend : joinWith ['\n'] ls =
        joinWith ['\n'] (lines (joinWith ['\n'] ls)) ++ ['\n'] := by
      conv_lhs => rw [hmore]
      rw [joinWith_append _ hfront (cons_ne_nil _ _)]
      rfl
    obtain ⟨-, -, front, d, -, -, hlast, hd⟩ := exists_ends (by rw [hend]; simp) htrim
    rw [hlast] at hend
    rw [(cons.inj (append_inj' hend rfl).2).1] at hd
    cases hd

/-! ## 2. Parts -/

theorem lines_block {code : List Char} (htag : '\n' ∉ tag)
    (hcode : ∀ line ∈ splitAt '\n' code, line.getLast? ≠ some '\r') (ls : List (List Char)) :
    ∃ tag', lines (joinWith ['\n'] ((fenceMark ++ tag) :: code :: fenceMark :: ls)) =
      (fenceMark ++ tag') :: (splitAt '\n' code ++ fenceMark :: lines (joinWith ['\n'] ls)) := by
  obtain ⟨tag', htag'⟩ := exists_fenceLine htag
  have hbelow : lines (joinWith ['\n'] (fenceMark :: ls)) =
      fenceMark :: lines (joinWith ['\n'] ls) := by
    by_cases hne : ls = []
    · rw [hne]
      decide
    · have hclose : lines (fenceMark ++ ['\n']) = [fenceMark] := by decide
      rw [joinWith_newline hne, lines_append_newline, hclose]
      rfl
  refine ⟨tag', ?_⟩
  rw [joinWith_newline (cons_ne_nil _ _), joinWith_newline (cons_ne_nil _ _),
    lines_append_newline, htag', lines_append_newline, lines_pieces hcode, hbelow]
  rfl

/-- A reply that begins with a block has its code there, and its prose below. -/
theorem parts_of_block {text : String} {code : List Char}
    (htext : text.toList = joinWith ['\n'] ((fenceMark ++ tag) :: code :: fenceMark :: ls))
    (htag : '\n' ∉ tag) (hunfenced : Unfenced (splitAt '\n' code))
    (hcode : ∀ line ∈ splitAt '\n' code, line.getLast? ≠ some '\r')
    (hfits : ∀ line ∈ ls, FitsLine line) (hls : Unfenced ls) (language : String) :
    codeBlock text language = some (ofList code) ∧
      prose text = ofList (strip (joinWith ['\n'] ls)) := by
  obtain ⟨tag', hlines⟩ := lines_block htag hcode ls
  have hbelow : Unfenced (lines (joinWith ['\n'] ls)) := by
    intro line hline
    rcases lines_joinWith hfits with hsame | hmore
    · exact hls line (hsame ▸ hline)
    · exact hls line (hmore ▸ mem_append_left _ hline)
  have habove : Unfenced [] := forall_mem_nil _
  constructor
  · rw [codeBlock_of_blocks (b := ⟨_, _⟩) (by
      rw [blocks, htext, hlines]
      exact blocksOutside_fenced habove hunfenced hbelow tag'), joinWith_splitAt]
  · have hprose := proseLines_fenced habove hunfenced hbelow tag'
    rw [nil_append, nil_append] at hprose
    rw [prose, htext, hlines, hprose, strip_joinWith_lines hfits]

theorem refactoring_of_parts {r : Reply} {language code explanation : String}
    {changes : List String}
    (hobject : ∀ object, embedded r.text = some object →
      (object.get? "refactored_code").bind Json.asText? = none)
    (hcode : codeBlock r.text language = some code) (hvisible : isBlankText code = false)
    (hprose : splitList (prose r.text) = (explanation, changes)) (original : String) :
    r.refactoring language original = .ok ⟨code, explanation, changes, r.provider⟩ := by
  have hblock :
      (codeBlock r.text language).filter (fun block => !isBlankText block) = some code := by
    rw [hcode, filter_some, hvisible]
    rfl
  have hmember : ∀ object, embedded r.text = some object →
      textMember? object "refactored_code" = none := by
    intro object hfound
    rw [textMember?, hobject object hfound]
    rfl
  cases hfound : embedded r.text with
  | none =>
    simp only [refactoring, hfound, hblock, hprose]
    rfl
  | some object =>
    simp only [refactoring, hfound, hmember object hfound, hblock, hprose, bind_eq_bind,
      bind_some, bind_none]

/-! ## 3. The main statement -/

/-- Code for a block: something of it is visible, and no line of it is a fence or ends in a carriage
return. -/
structure IsCode (cs : List Char) : Prop where
  visible : cs.all isBlank = false
  unfenced : Unfenced (splitAt '\n' cs)
  noReturn : ∀ line ∈ splitAt '\n' cs, line.getLast? ≠ some '\r'

/-- A trimmed text, possibly empty, without fences, list lines and carriage returns. -/
structure IsExplanation (cs : List Char) : Prop where
  trimmed : strip cs = cs
  unfenced : Unfenced (splitAt '\n' cs)
  unlisted : ∀ line ∈ splitAt '\n' cs, ¬IsListLine line
  noReturn : '\r' ∉ cs

/-- A trimmed text on one line with something visible. -/
structure IsChange (cs : List Char) : Prop where
  visible : cs.all isBlank = false
  trimmed : strip cs = cs
  oneLine : '\n' ∉ cs

/-- The reply that is asked for: the code in a block, an explanation if there is one, and a line for
each change, with some empty lines above the explanation, below it and at the end. -/
def askedRefactoring (tag code explanation : List Char) (changes : List (List Char))
    (above below last : Nat) : List Char :=
  joinWith ['\n'] ((fenceMark ++ tag) :: code :: fenceMark :: (replicate above [] ++
    ((if explanation.isEmpty then [] else [explanation]) ++
      (replicate below [] ++ (changes.map itemLine ++ replicate last [])))))

/-- The lines of an explanation; an empty one has none. -/
def explanationLines (explanation : List Char) : List (List Char) :=
  if explanation.isEmpty then [] else splitAt '\n' explanation

theorem mem_of_mem_explanationLines {e line : List Char} (h : line ∈ explanationLines e) :
    line ∈ splitAt '\n' e := by
  rw [explanationLines] at h
  split at h
  · cases h
  · exact h

theorem joinWith_explanationLines (e : List Char) : joinWith ['\n'] (explanationLines e) = e := by
  rw [explanationLines]
  split
  · rename_i hempty
    rw [isEmpty_iff.1 hempty]
    rfl
  · exact joinWith_splitAt '\n' e

theorem IsExplanation.fits {e : List Char} (h : IsExplanation e) :
    ∀ line ∈ explanationLines e, FitsLine line := by
  intro line hline
  have hmem := mem_of_mem_splitAt (mem_of_mem_explanationLines hline)
  refine ⟨fun hnewline => (hmem _ hnewline).2 rfl, fun hlast => ?_⟩
  exact h.noReturn (hmem _ (mem_of_getLast? hlast)).1

theorem IsExplanation.lines_eq {e : List Char} (h : IsExplanation e) :
    lines e = explanationLines e := by
  have htrim := h.trimmed
  rw [← joinWith_explanationLines e] at htrim
  have hlines := lines_joinWith_trimmed h.fits (fun hempty => ?_) htrim
  · rwa [joinWith_explanationLines] at hlines
  · -- the only line would be empty, but an empty explanation has none
    have he : e = [] := by rw [← joinWith_explanationLines e, hempty]; rfl
    rw [he] at hempty
    cases hempty

namespace IsChange

variable {c : List Char} (h : IsChange c)

include h

theorem ne_nil : c ≠ [] := by
  rintro rfl
  cases h.visible

theorem exists_last : ∃ front d, itemLine c = front ++ [d] ∧ isBlank d = false := by
  obtain ⟨-, -, front, d, -, -, hlast, hd⟩ := exists_ends h.ne_nil h.trimmed
  exact ⟨'-' :: ' ' :: front, d, by rw [hlast]; rfl, hd⟩

theorem fits : FitsLine (itemLine c) := by
  obtain ⟨front, d, hlast, hd⟩ := h.exists_last
  refine ⟨by simp [itemLine, h.oneLine], ?_⟩
  rw [hlast, getLast?_concat]
  rintro ⟨rfl⟩
  cases hd

end IsChange

/-- A text made of lines is trimmed if it begins and ends visibly. -/
theorem strip_joinWith_ends {c d : Char} {front : List Char} (hhead : ls.head? = some (c :: back))
    (hc : isBlank c = false) (hlast : ls.getLast? = some (front ++ [d])) (hd : isBlank d = false) :
    strip (joinWith ['\n'] ls) = joinWith ['\n'] ls := by
  obtain ⟨more, rfl⟩ := head?_eq_some_iff.1 hhead
  obtain ⟨cs, hcs⟩ := joinWith_cons ['\n'] c back more
  obtain ⟨above, habove⟩ := getLast?_eq_some_iff.1 hlast
  have hend : ∃ front', joinWith ['\n'] ((c :: back) :: more) = front' ++ [d] := by
    rw [habove]
    by_cases hne : above = []
    · exact ⟨front, by rw [hne]; rfl⟩
    · rw [joinWith_append _ hne (cons_ne_nil _ _)]
      exact ⟨joinWith ['\n'] above ++ '\n' :: front, by simp [joinWith]⟩
  obtain ⟨front', hfront'⟩ := hend
  exact strip_of_visible hcs hc hfront' hd

section Asked

variable {code e : List Char} {changes : List (List Char)} (hcode : IsCode code)
  (he : IsExplanation e) (hchanges : ∀ c ∈ changes, IsChange c)

include hchanges

/-- Lines above the changes, the first of which begins visibly, are read as they are. -/
theorem lines_changes (hne : changes ≠ []) (kept : List (List Char))
    (hkept : ∀ line ∈ kept, FitsLine line) {c : Char}
    (hhead : (kept ++ changes.map itemLine).head? = some (c :: back)) (hc : isBlank c = false) :
    lines (strip (joinWith ['\n'] (kept ++ changes.map itemLine))) =
      kept ++ changes.map itemLine := by
  obtain ⟨above, last, rfl⟩ := eq_nil_or_concat changes |>.resolve_left hne
  rw [concat_eq_append] at hchanges hhead ⊢
  obtain ⟨front, d, hfront, hd⟩ := (hchanges last (by simp)).exists_last
  have hlast : (kept ++ (above ++ [last]).map itemLine).getLast? = some (front ++ [d]) := by
    rw [map_append, ← List.append_assoc, map_singleton, getLast?_concat, hfront]
  have hfits : ∀ line ∈ kept ++ (above ++ [last]).map itemLine, FitsLine line := by
    intro line hline
    rcases mem_append.1 hline with hline | hline
    · exact hkept line hline
    · obtain ⟨c, hc, rfl⟩ := mem_map.1 hline
      exact (hchanges c hc).fits
  have htrim := strip_joinWith_ends hhead hc hlast hd
  rw [htrim]
  refine lines_joinWith_trimmed hfits (fun hempty => ?_) htrim
  rw [hempty] at hhead
  cases hhead

include he

/-- The lines of the prose are some that are no list lines, with the explanation on them, and those
of the changes. -/
theorem exists_kept (below : Nat) :
    ∃ kept, lines (strip (joinWith ['\n'] (explanationLines e ++ (replicate below [] ++
        changes.map itemLine)))) = kept ++ changes.map itemLine ∧
      (∀ line ∈ kept, ¬IsListLine line) ∧ strip (joinWith ['\n'] kept) = e := by
  have hunlisted : ∀ line ∈ explanationLines e, ¬IsListLine line := fun line hline =>
    he.unlisted line (mem_of_mem_explanationLines hline)
  have hstrip : strip (joinWith ['\n'] (explanationLines e)) = e := by
    rw [joinWith_explanationLines, he.trimmed]
  by_cases hne : changes = []
  · refine ⟨explanationLines e, ?_, hunlisted, hstrip⟩
    rw [hne, map_nil, append_nil, strip_joinWith_below, hstrip, he.lines_eq,
      append_nil]
  · by_cases hempty : e = []
    · -- the empty lines stand above the changes and are trimmed away
      obtain ⟨first, rest, hfirst⟩ := exists_cons_of_ne_nil hne
      refine ⟨[], ?_, forall_mem_nil _, by rw [hempty]; rfl⟩
      rw [hempty, show explanationLines [] = [] from rfl, nil_append, strip_joinWith_above]
      have hhead : (changes.map itemLine).head? = some ('-' :: ' ' :: first) := by rw [hfirst]; rfl
      exact lines_changes hchanges hne [] (forall_mem_nil _) hhead (by decide)
    · obtain ⟨c, back, -, -, hfirst, hc, -⟩ := exists_ends hempty he.trimmed
      have hnewline : c ≠ '\n' := by
        rintro rfl
        cases hc
      obtain ⟨piece, more, -, hsplit⟩ := splitAt_cons_of_ne hnewline back
      have hlines : explanationLines e = (c :: piece) :: more := by
        rw [explanationLines, hfirst, ← hsplit]
        rfl
      have hhead : ((explanationLines e ++ replicate below []) ++ changes.map itemLine).head? =
          some (c :: piece) := by rw [hlines]; rfl
      have hblank : ∀ line ∈ replicate below ([] : List Char), line = [] := fun line hline =>
        (mem_replicate.1 hline).2
      refine ⟨explanationLines e ++ replicate below [], ?_, fun line hline => ?_, ?_⟩
      · rw [← List.append_assoc]
        refine lines_changes hchanges hne _ (fun line hline => ?_) hhead hc
        rcases mem_append.1 hline with hline | hline
        · exact he.fits line hline
        · rw [hblank line hline]
          exact fitsLine_nil
      · rcases mem_append.1 hline with hline | hline
        · exact hunlisted line hline
        · rw [hblank line hline, not_isListLine_iff]
          rfl
      · rw [strip_joinWith_below, hstrip]

theorem splitList_parts (below : Nat) :
    splitList (ofList (strip (joinWith ['\n'] (explanationLines e ++
      (replicate below [] ++ changes.map itemLine))))) =
      (ofList e, changes.map ofList) := by
  obtain ⟨kept, hlines, hunlisted, hkept⟩ := exists_kept he hchanges below
  have hitems := splitItems_items fun c hc => ⟨(hchanges c hc).ne_nil, (hchanges c hc).trimmed⟩
  rw [splitList, toList_ofList, hlines, splitItems_kept hunlisted, hitems]
  simp only [append_nil, hkept]

end Asked

theorem newline_not_mem_fenceTag (label : String) : '\n' ∉ (Prompt.fenceTag label).toList := by
  rw [Prompt.fenceTag, toList_ofList, mem_filter]
  exact fun h => absurd h.2 (by decide)

theorem askedRefactoring_eq (tag code e : List Char) (changes : List (List Char))
    (above below last : Nat) :
    askedRefactoring tag code e changes above below last =
      joinWith ['\n'] ((fenceMark ++ tag) :: code :: fenceMark :: (replicate above [] ++
        (explanationLines e ++ (replicate below [] ++
          (changes.map itemLine ++ replicate last []))))) := by
  rw [askedRefactoring, explanationLines]
  split
  · rfl
  · obtain ⟨piece, more, hsplit⟩ := exists_piece '\n' e
    have hsplice := joinWith_splice (show splitAt '\n' e ≠ [] by rw [hsplit]; exact cons_ne_nil _ _)
      ((fenceMark ++ tag) :: code :: fenceMark :: replicate above [])
      (replicate below [] ++ (changes.map itemLine ++ replicate last []))
    rwa [joinWith_splitAt] at hsplice

/-- The reply that is asked for is read as it was made, with or without empty lines between its
parts, if the object that may be found in it has no text for the code. -/
theorem refactoring_asked (label : String) {code e : List Char} {changes : List (List Char)}
    (hcode : IsCode code) (he : IsExplanation e) (hchanges : ∀ c ∈ changes, IsChange c)
    (above below last : Nat) {r : Reply}
    (hr : r.text.toList =
      askedRefactoring (Prompt.fenceTag label).toList code e changes above below last)
    (hobject : ∀ object, embedded r.text = some object →
      (object.get? "refactored_code").bind Json.asText? = none)
    (language original : String) :
    r.refactoring language original =
      .ok ⟨String.ofList code, String.ofList e, changes.map String.ofList, r.provider⟩ := by
  rw [askedRefactoring_eq] at hr
  have hplain : ∀ line ∈ List.replicate above [] ++ (explanationLines e ++
      (List.replicate below [] ++ (changes.map itemLine ++ List.replicate last []))),
      FitsLine line ∧ isFence line = false := by
    have hempty : ∀ n, ∀ line ∈ List.replicate n [], FitsLine line ∧ isFence line = false := by
      intro n line hline
      rw [(List.mem_replicate.1 hline).2]
      exact ⟨fitsLine_nil, rfl⟩
    simp only [List.forall_mem_append, List.forall_mem_map]
    exact ⟨hempty above, fun line hline => ⟨he.fits line hline,
      he.unfenced line (mem_of_mem_explanationLines hline)⟩, hempty below,
      fun c hc => ⟨(hchanges c hc).fits, rfl⟩, hempty last⟩
  obtain ⟨hblock, hprose⟩ := parts_of_block hr (newline_not_mem_fenceTag label) hcode.unfenced
    hcode.noReturn (fun line hline => (hplain line hline).1)
    (fun line hline => (hplain line hline).2) language
  refine refactoring_of_parts hobject hblock ?_ ?_ original
  · rw [isBlankText, String.toList_ofList, hcode.visible]
  · rw [hprose, strip_joinWith_above, ← List.append_assoc (List.replicate below []),
      ← List.append_assoc (explanationLines e), strip_joinWith_below, splitList_parts he hchanges]

def bracedCode : String :=
  "int f(void) \x7b\n  return 1;\n\x7d"

/-- An explanation of two paragraphs, with dashes that begin no list. -/
def dashedExplanation : String :=
  "Tidied -\n\n-1 is gone."

/-- Changes, one of which begins like a list line of its own. -/
def dashedChanges : List String :=
  ["Renamed x", "- 1. Added spaces"]

/-- The reply made of these, with an empty line above and below each part of the prose. -/
def spacedReply : Reply where
  provider := "remote"
  text := ofList (askedRefactoring (Prompt.fenceTag " C++ ").toList bracedCode.toList
    dashedExplanation.toList (dashedChanges.map String.toList) 1 1 1)
  suggestions := []
  raw := .null

theorem refactoring_asked_spaced :
    spacedReply.refactoring "c++" "int f();" =
      .ok ⟨bracedCode, dashedExplanation, dashedChanges, "remote"⟩ := by
  have hcode : IsCode bracedCode.toList := by
    constructor <;> (try unfold Unfenced) <;> decide +kernel
  have he : IsExplanation dashedExplanation.toList := by
    constructor <;> (try unfold Unfenced) <;> decide +kernel
  have hchanges : ∀ c ∈ dashedChanges.map String.toList, IsChange c := by
    rw [List.forall_mem_map]
    intro c hc
    have hall : ∀ c ∈ dashedChanges, c.toList.all isBlank = false ∧ strip c.toList = c.toList ∧
        '\n' ∉ c.toList := by decide +kernel
    exact ⟨(hall c hc).1, (hall c hc).2.1, (hall c hc).2.2⟩
  have hnone : (embedded spacedReply.text).isNone = true := by decide +kernel
  have hread := refactoring_asked " C++ " hcode he hchanges 1 1 1 (r := spacedReply)
    String.toList_ofList (fun object hfound => by rw [hfound] at hnone; cases hnone) "c++"
    "int f();"
  simp only [String.ofList_toList, List.map_map, Function.comp_def, List.map_id'] at hread
  exact hread

end CodeAssist.Reply
