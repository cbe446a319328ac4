import CodeAssist.Proofs.Reply.Embedded
import CodeAssist.Proofs.Text.Finding
import CodeAssist.Proofs.Text.Lines
import CodeAssist.Reply.Outcome

/-!
Replies in the form that the instructions ask for.

A diagnosis is asked for as a paragraph, the code in a fenced block, and an explanation. The block
is cut out before the prose is divided into paragraphs, and with it goes the break between the two
that it stood for: only an empty line above or below the block keeps them apart
(`diagnosis_parts_iff`).
-/

namespace CodeAssist.Reply

open Text List String

variable {ls : List (List Char)}

/-! ## 1. Blocks -/

def Unfenced (ls : List (List Char)) : Prop :=
  ∀ line ∈ ls, isFence line = false

theorem fenceTag?_mark (tag : List Char) : fenceTag? (fenceMark ++ tag) = some tag := by
  have hmark : dropBlank (fenceMark ++ tag) = fenceMark ++ tag := rfl
  rw [fenceTag?, hmark, after?_append]

theorem isFence_mark (tag : List Char) : isFence (fenceMark ++ tag) = true := by
  rw [isFence, fenceTag?_mark]
  rfl

theorem blocksOutside_append (h : Unfenced ls) (rest : List (List Char)) :
    blocksOutside (ls ++ rest) = blocksOutside rest := by
  induction ls with
  | nil => rfl
  | cons line ls ih =>
    obtain ⟨hline, hls⟩ := forall_mem_cons.1 h
    have htag : fenceTag? line = none := by simpa [isFence] using hline
    rw [cons_append, blocksOutside, htag]
    exact ih hls

theorem blocksInside_append (h : Unfenced ls) (tag : List Char) (body rest : List (List Char)) :
    blocksInside tag body (ls ++ rest) = blocksInside tag (ls.reverse ++ body) rest := by
  induction ls generalizing body with
  | nil => rfl
  | cons line ls ih =>
    obtain ⟨hline, hls⟩ := forall_mem_cons.1 h
    rw [cons_append, blocksInside, hline, if_neg (by decide), ih hls]
    simp

theorem proseLines_outside (h : Unfenced ls) (rest : List (List Char)) :
    proseLines false (ls ++ rest) = ls ++ proseLines false rest := by
  induction ls with
  | nil => rfl
  | cons line ls ih =>
    obtain ⟨hline, hls⟩ := forall_mem_cons.1 h
    simp [proseLines, hline, ih hls]

theorem proseLines_inside (h : Unfenced ls) (rest : List (List Char)) :
    proseLines true (ls ++ rest) = proseLines true rest := by
  induction ls with
  | nil => rfl
  | cons line ls ih =>
    obtain ⟨hline, hls⟩ := forall_mem_cons.1 h
    simp [proseLines, hline, ih hls]

section Fenced

variable {above body below : List (List Char)} (habove : Unfenced above) (hbody : Unfenced body)
  (hbelow : Unfenced below) (tag : List Char)

include habove hbody hbelow

theorem blocksOutside_fenced :
    blocksOutside (above ++ (fenceMark ++ tag) :: (body ++ fenceMark :: below)) =
      [⟨(strip tag).map asciiLower, body⟩] := by
  have hclose : isFence fenceMark = true := by decide
  have hlast : blocksOutside below = [] := by
    rw [← append_nil below, blocksOutside_append hbelow]
    rfl
  rw [blocksOutside_append habove, blocksOutside, fenceTag?_mark]
  simp only
  rw [blocksInside_append hbody, blocksInside, hclose, if_pos rfl, hlast]
  simp

theorem proseLines_fenced :
    proseLines false (above ++ (fenceMark ++ tag) :: (body ++ fenceMark :: below)) =
      above ++ below := by
  have hclose : isFence fenceMark = true := by decide
  have hlast : proseLines false below = below := by
    rw [← append_nil below, proseLines_outside hbelow]
    simp [proseLines]
  rw [proseLines_outside habove, proseLines, isFence_mark, if_pos rfl, Bool.not_false,
    proseLines_inside hbody, proseLines, hclose, if_pos rfl, Bool.not_true, hlast]

end Fenced

/-- A text with one block has its code there, whatever the language. -/
theorem codeBlock_of_blocks {text : String} {b : Block} (h : blocks text.toList = [b])
    (language : String) :
    codeBlock text language = some (ofList (joinWith ['\n'] b.body)) := by
  have hchosen : chooseBlock language.toList [b] = some b := by
    cases htag : b.tag == language.toList.map asciiLower <;>
      simp only [chooseBlock, List.find?, htag] <;> rfl
  rw [codeBlock, h, hchosen]
  rfl

/-! ## 2. Objects -/

/-- A text without opening braces embeds no object. -/
theorem embedded_eq_none {text : String} (h : '{' ∉ text.toList) : embedded text = none := by
  have hwhole : objectOnly ((Json.parseChars (strip text.toList)).map Json.canonical) = none := by
    cases hblank : text.toList.all isBlank with
    | true =>
      have hstrip := strip_append hblank []
      rw [append_nil] at hstrip
      rw [hstrip]
      rfl
    | false =>
      obtain ⟨ws, c, more, hcs, hws, hc⟩ := exists_dropBlank hblank
      have hbrace : c ≠ '{' := by
        rintro rfl
        exact h (by simp [hcs])
      rw [hcs, strip_append hws, strip_cons hc]
      exact objectOnly_opening hc hbrace _
  have hdrop : text.toList.dropWhile (· != '{') = [] := by
    rw [← append_nil text.toList, dropWhile_append_of_pos]
    · rfl
    · intro c hc
      rw [bne_iff_ne]
      rintro rfl
      exact h hc
  rw [embedded, embeddedIn, hwhole]
  simp only
  rw [hdrop]
  rfl

/-! ## 3. Diagnoses -/

theorem diagnosis_of_paragraphs {r : Reply} (hnone : embedded r.text = none)
    {first rest : List Char} (hparts : paragraphs (prose r.text).toList = (first, rest))
    (hfirst : first.isEmpty = false) (language : String) :
    r.diagnosis language = .ok ⟨ofList first, (codeBlock r.text language).getD "",
      ofList rest, r.provider⟩ := by
  simp only [diagnosis, hnone, hparts, hfirst]
  rfl

/-- A text with something on each of its lines, none of them a fence, and without a brace. -/
structure IsParagraph (cs : List Char) : Prop where
  visible : cs.all isBlank = false
  trimmed : strip cs = cs
  filled : ∀ line ∈ lines cs, line.all isBlank = false
  unfenced : Unfenced (lines cs)
  noBrace : '{' ∉ cs

/-- Code for a block: no line of it is a fence or ends in a carriage return, and no brace is in
it. -/
structure IsBody (cs : List Char) : Prop where
  unfenced : Unfenced (splitAt '\n' cs)
  noReturn : ∀ line ∈ splitAt '\n' cs, line.getLast? ≠ some '\r'
  noBrace : '{' ∉ cs

/-- The reply that is asked for: a diagnosis, the code in a block, and an explanation, with some
empty lines above and below the block. -/
def askedDiagnosis (diagnosis tag code explanation : List Char) (above below : Nat) : List Char :=
  diagnosis ++ '\n' :: (List.replicate above '\n' ++ (fenceMark ++ tag ++ '\n' :: (code ++ '\n' ::
    (fenceMark ++ '\n' :: (List.replicate below '\n' ++ explanation)))))

/-- A text with its line ends written as newlines. -/
def unixEnds (cs : List Char) : List Char :=
  joinWith ['\n'] (lines cs)

namespace IsParagraph

variable {cs : List Char} (h : IsParagraph cs)

include h

theorem ends : ∃ c back front d, cs = c :: back ∧ isBlank c = false ∧ cs = front ++ [d] ∧
    isBlank d = false := by
  have hends := exists_strip h.visible
  rwa [h.trimmed] at hends

theorem unixEnds_ends : ∃ c back front d, unixEnds cs = c :: back ∧ isBlank c = false ∧
    unixEnds cs = front ++ [d] ∧ isBlank d = false := by
  obtain ⟨c, back, front, d, hfirst, hc, hlast, hd⟩ := h.ends
  have hnewline : ∀ e, isBlank e = false → e ≠ '\n' ∧ e ≠ '\r' := by
    intro e he
    constructor <;> rintro rfl <;> cases he
  have hcrlf : c = '\r' → back.head? ≠ some '\n' := fun hreturn =>
    absurd hreturn (hnewline c hc).2
  have hcons := joinWith_lines_cons (hnewline c hc).1 hcrlf
  obtain ⟨front', hconcat⟩ := joinWith_lines_concat (hnewline d hd).1 front
  rw [← hfirst] at hcons
  rw [← hlast] at hconcat
  exact ⟨c, _, front', d, hcons, hc, hconcat, hd⟩

theorem lines_ne_nil : lines cs ≠ [] := by
  obtain ⟨c, back, -, -, hfirst, -⟩ := h.ends
  obtain ⟨line, more, hlines⟩ := exists_line (show cs ≠ [] by rw [hfirst]; exact cons_ne_nil _ _)
  rw [hlines]
  exact cons_ne_nil line more

theorem lines_concat : lines (cs ++ ['\n']) = lines cs := by
  obtain ⟨-, -, front, d, -, -, hlast, hd⟩ := h.ends
  rw [hlast]
  refine lines_concat_newline ?_ ?_ <;> rintro rfl <;> cases hd

theorem lines_plain : ∀ line ∈ lines cs, line ≠ [] ∧ '\n' ∉ line := by
  intro line hline
  refine ⟨?_, newline_not_mem_line cs line hline⟩
  rintro rfl
  cases h.filled [] hline

end IsParagraph

/-- A paragraph without carriage returns at line ends is its own text. -/
theorem unixEnds_eq_self {cs : List Char} (h : IsParagraph cs)
    (hreturn : ∀ line ∈ splitAt '\n' cs, line.getLast? ≠ some '\r') : unixEnds cs = cs := by
  rw [unixEnds, ← h.lines_concat, lines_pieces hreturn, joinWith_splitAt]

theorem lines_replicate (n : Nat) (cs : List Char) :
    lines (List.replicate n '\n' ++ cs) = List.replicate n [] ++ lines cs := by
  induction n with
  | zero => rfl
  | succ n ih => rw [replicate_succ, cons_append, lines_newline, ih]; rfl

theorem joinWith_replicate (n : Nat) (h : ls ≠ []) :
    joinWith ['\n'] (List.replicate n [] ++ ls) = List.replicate n '\n' ++ joinWith ['\n'] ls := by
  induction n with
  | zero => rfl
  | succ n ih =>
    rw [replicate_succ, cons_append, joinWith, ih]
    · rfl
    · simp [h]

/-- The line of an opening fence. A carriage return at its end is not part of it. -/
theorem exists_fenceLine {tag : List Char} (h : '\n' ∉ tag) :
    ∃ tag', lines (fenceMark ++ tag ++ ['\n']) = [fenceMark ++ tag'] := by
  have hline : ∃ tag', lines (tag ++ ['\n']) = [tag'] := by
    induction tag with
    | nil => exact ⟨[], rfl⟩
    | cons c tag ih =>
      rw [mem_cons, not_or] at h
      obtain ⟨tag', htag'⟩ := ih h.2
      by_cases hcrlf : c = '\r' ∧ (tag ++ ['\n']).head? = some '\n'
      · exact ⟨tag', by rw [cons_append, hcrlf.1, lines_return hcrlf.2, htag']⟩
      · refine ⟨c :: tag', ?_⟩
        rw [cons_append, lines_cons (Ne.symm h.1) fun h h' => hcrlf ⟨h, h'⟩, htag']
        rfl
  obtain ⟨tag', htag'⟩ := hline
  have htick : ∀ cs, lines (Char.ofNat 0x60 :: cs) =
      (Char.ofNat 0x60 :: (lines cs).headD []) :: (lines cs).tail :=
    fun cs => lines_cons (by decide) fun h => absurd h (by decide)
  refine ⟨tag', ?_⟩
  simp only [fenceMark, replicate_succ, replicate_zero, cons_append, nil_append,
    htick, htag', headD_cons, tail_cons]

section Asked

variable {d tag code e : List Char} (hd : IsParagraph d) (hcode : IsBody code)
  (he : IsParagraph e) (above below : Nat)

include hd hcode in
theorem lines_askedDiagnosis (htag : '\n' ∉ tag) :
    ∃ tag', lines (askedDiagnosis d tag code e above below) =
      (lines d ++ List.replicate above []) ++ (fenceMark ++ tag') :: (splitAt '\n' code ++
        fenceMark :: (List.replicate below [] ++ lines e)) := by
  obtain ⟨tag', htag'⟩ := exists_fenceLine htag
  have hclose : lines (fenceMark ++ ['\n']) = [fenceMark] := by decide
  refine ⟨tag', ?_⟩
  rw [askedDiagnosis, lines_append_newline, hd.lines_concat, lines_replicate, lines_append_newline,
    htag', lines_append_newline, lines_pieces hcode.noReturn, lines_append_newline, hclose,
    lines_replicate]
  simp

include hd he in
/-- As many newlines stand between the two parts of the prose as there are empty lines around the
block, and one more. -/
theorem joinWith_parts (n : Nat) :
    joinWith ['\n'] (lines d ++ (List.replicate n [] ++ lines e)) =
      unixEnds d ++ '\n' :: (List.replicate n '\n' ++ unixEnds e) := by
  have hback : List.replicate n [] ++ lines e ≠ [] := by simp [he.lines_ne_nil]
  rw [joinWith_append _ hd.lines_ne_nil hback, joinWith_replicate n he.lines_ne_nil]
  rfl

include hd he in
/-- Two parts with `n` empty lines between them are two paragraphs, or one if there is none. -/
theorem paragraphs_parts (n : Nat) :
    paragraphs (strip (joinWith ['\n'] (lines d ++ (List.replicate n [] ++ lines e)))) =
      if n = 0 then (unixEnds d ++ '\n' :: unixEnds e, []) else (unixEnds d, unixEnds e) := by
  obtain ⟨c, back, front, c', hfirst, hc, hlast, hc'⟩ := hd.unixEnds_ends
  obtain ⟨b, back', front', b', hfirst', hb, hlast', hb'⟩ := he.unixEnds_ends
  have hstrip : strip (unixEnds d ++ '\n' :: (List.replicate n '\n' ++ unixEnds e)) =
      unixEnds d ++ '\n' :: (List.replicate n '\n' ++ unixEnds e) := by
    have hend : unixEnds d ++ '\n' :: (List.replicate n '\n' ++ unixEnds e) =
        (unixEnds d ++ '\n' :: (List.replicate n '\n' ++ front')) ++ [b'] := by
      rw [hlast']
      simp
    exact strip_of_visible (c := c) (by rw [hfirst]; rfl) hc hend hb'
  rw [joinWith_parts hd he, hstrip]
  cases n with
  | zero =>
    have hplain : ∀ line ∈ lines d ++ lines e, line ≠ [] ∧ '\n' ∉ line := by
      intro line hline
      rcases mem_append.1 hline with hline | hline
      · exact hd.lines_plain line hline
      · exact he.lines_plain line hline
    have hwhole := splitFirst_joinWith (by simp [hd.lines_ne_nil]) hplain []
    have hparts := joinWith_parts hd he 0
    rw [replicate_zero, nil_append, replicate_zero, nil_append] at hparts
    rw [append_nil, hparts] at hwhole
    rw [replicate_zero, nil_append] at hstrip ⊢
    rw [paragraphs, hwhole, if_pos rfl, ← hstrip]
    simp [splitFirst, hstrip]
  | succ n =>
    have hdivided := splitFirst_joinWith hd.lines_ne_nil hd.lines_plain
      ('\n' :: '\n' :: (List.replicate n '\n' ++ unixEnds e))
    have hempty : splitFirst ['\n', '\n'] ('\n' :: '\n' :: (List.replicate n '\n' ++ unixEnds e)) =
        some ([], List.replicate n '\n' ++ unixEnds e) := rfl
    have hblank : (List.replicate n '\n').all isBlank = true := by
      rw [all_replicate]
      split <;> rfl
    rw [hempty, ← unixEnds, Option.map_some, append_nil] at hdivided
    rw [paragraphs, replicate_succ, cons_append, hdivided, if_neg (Nat.succ_ne_zero n)]
    simp only
    rw [strip_append hblank, strip_of_visible hfirst hc hlast hc',
      strip_of_visible hfirst' hb hlast' hb']

include hd hcode he in
/-- The diagnosis of a reply of that form, by the empty lines around its block. -/
theorem diagnosis_askedDiagnosis (htag : '\n' ∉ tag) (hbrace : '{' ∉ tag) {r : Reply}
    (hr : r.text.toList = askedDiagnosis d tag code e above below) (language : String) :
    r.diagnosis language = .ok (
      if above + below = 0 then
        ⟨ofList (unixEnds d ++ '\n' :: unixEnds e), ofList code, "", r.provider⟩
      else
        ⟨ofList (unixEnds d), ofList code, ofList (unixEnds e),
          r.provider⟩) := by
  obtain ⟨tag', hlines⟩ := lines_askedDiagnosis (e := e) hd hcode above below htag
  have hempty : ∀ n, Unfenced (List.replicate n []) := by
    intro n line hline
    rw [(mem_replicate.1 hline).2]
    rfl
  have habove : Unfenced (lines d ++ List.replicate above []) := by
    intro line hline
    exact (mem_append.1 hline).elim (hd.unfenced line) (hempty above line)
  have hbelow : Unfenced (List.replicate below [] ++ lines e) := by
    intro line hline
    exact (mem_append.1 hline).elim (hempty below line) (he.unfenced line)
  have hnone : embedded r.text = none := by
    refine embedded_eq_none ?_
    rw [hr, askedDiagnosis]
    simp [hd.noBrace, hbrace, hcode.noBrace, he.noBrace, fenceMark]
  have hfix : codeBlock r.text language = some (ofList code) := by
    rw [codeBlock_of_blocks (b := ⟨_, _⟩) (by
      rw [blocks, hr, hlines, blocksOutside_fenced habove hcode.unfenced hbelow]), joinWith_splitAt]
  have hprose : (prose r.text).toList =
      strip (joinWith ['\n'] (lines d ++ (List.replicate (above + below) [] ++ lines e))) := by
    rw [prose, toList_ofList, hr, hlines, proseLines_fenced habove hcode.unfenced hbelow]
    rw [List.append_assoc, ← append_assoc (List.replicate above []),
      replicate_append_replicate]
  have hvisible : ∀ more, (unixEnds d ++ more).isEmpty = false := by
    obtain ⟨c, back, -, -, hfirst, -⟩ := hd.unixEnds_ends
    intro more
    rw [hfirst]
    rfl
  by_cases hzero : above + below = 0
  · have hparts := paragraphs_parts hd he (above + below)
    rw [if_pos hzero, ← hprose] at hparts
    rw [diagnosis_of_paragraphs hnone hparts (hvisible _), hfix, if_pos hzero]
    rfl
  · have hparts := paragraphs_parts hd he (above + below)
    have hfirst := hvisible []
    rw [if_neg hzero, ← hprose] at hparts
    rw [append_nil] at hfirst
    rw [diagnosis_of_paragraphs hnone hparts hfirst, hfix, if_neg hzero]
    rfl

include hd hcode he in
/-- The reply is read as it was made if and only if there is an empty line above or below the block,
carriage returns at line ends apart. Without one the explanation goes into the diagnosis. -/
theorem diagnosis_parts_iff (htag : '\n' ∉ tag) (hbrace : '{' ∉ tag) {r : Reply}
    (hr : r.text.toList = askedDiagnosis d tag code e above below) (language : String) :
    r.diagnosis language = .ok (
      if above + below = 0 then
        ⟨String.ofList (unixEnds d ++ '\n' :: unixEnds e), String.ofList code, "", r.provider⟩
      else
        ⟨String.ofList (unixEnds d), String.ofList code, String.ofList (unixEnds e),
          r.provider⟩) ∧
    ((∀ line ∈ splitAt '\n' d, line.getLast? ≠ some '\r') →
      (∀ line ∈ splitAt '\n' e, line.getLast? ≠ some '\r') →
      (r.diagnosis language =
          .ok ⟨String.ofList d, String.ofList code, String.ofList e, r.provider⟩ ↔
        0 < above + below)) := by
  have hread := diagnosis_askedDiagnosis hd hcode he above below htag hbrace hr language
  refine ⟨hread, fun hreturn hreturn' => ?_⟩
  rw [hread, unixEnds_eq_self hd hreturn, unixEnds_eq_self he hreturn']
  by_cases hzero : above + below = 0
  · rw [if_pos hzero, hzero]
    refine iff_of_false (fun hsame => ?_) (Nat.lt_irrefl 0)
    -- an explanation that was lost would have been empty
    have hlost := congrArg Diagnosis.explanation (Except.ok.inj hsame)
    have hempty : e = [] := by simpa using congrArg String.toList hlost.symm
    rw [hempty] at he
    cases he.visible
  · rw [if_neg hzero]
    exact iff_of_true rfl (Nat.pos_of_ne_zero hzero)

end Asked

/-- The parts of a reply about a missing semicolon. -/
def missingSemicolon : List Char := "The semicolon is missing.".toList

def declaration : List Char := "int x;".toList

def endOfStatement : List Char := "A statement ends with one.".toList

/-- The reply, with some empty lines below the block. -/
def semicolonReply (below : Nat) : Reply :=
  ⟨"remote",
    ofList (askedDiagnosis missingSemicolon ['c'] declaration endOfStatement 0 below),
    [], .null⟩

theorem diagnosis_parts_iff_semicolon :
    (semicolonReply 1).diagnosis "c" = .ok ⟨"The semicolon is missing.", "int x;",
      "A statement ends with one.", "remote"⟩ ∧
    (semicolonReply 0).diagnosis "c" ≠ .ok ⟨"The semicolon is missing.", "int x;",
      "A statement ends with one.", "remote"⟩ := by
  have hd : IsParagraph missingSemicolon := by
    constructor <;> (try unfold Unfenced) <;> decide +kernel
  have hcode : IsBody declaration := by
    constructor <;> (try unfold Unfenced) <;> decide +kernel
  have he : IsParagraph endOfStatement := by
    constructor <;> (try unfold Unfenced) <;> decide +kernel
  have htext : ∀ below, (semicolonReply below).text.toList =
      askedDiagnosis missingSemicolon ['c'] declaration endOfStatement 0 below := fun _ =>
    String.toList_ofList
  have hread : ∀ below, (semicolonReply below).diagnosis "c" = .ok ⟨"The semicolon is missing.",
      "int x;", "A statement ends with one.", "remote"⟩ ↔ 0 < 0 + below := fun below =>
    (diagnosis_parts_iff hd hcode he 0 below (by decide) (by decide) (htext below) "c").2
      (by decide +kernel) (by decide +kernel)
  exact ⟨(hread 1).2 Nat.one_pos, fun h => absurd ((hread 0).1 h) (by decide)⟩

/-- With no empty line, diagnosis and explanation become one. -/
theorem diagnosis_swallows_explanation :
    ((⟨"remote", "The semicolon is missing.\n```c\nint x;\n```\nA statement ends with one.", [],
      .null⟩ : Reply).diagnosis "c").toOption =
      some ⟨"The semicolon is missing.\nA statement ends with one.", "int x;", "", "remote"⟩ := by
  decide +kernel

end CodeAssist.Reply
