import CodeAssist.Proofs.Offline.Scanning
import CodeAssist.Proofs.Offline.Tidy
import CodeAssist.Proofs.Text.Lines
import CodeAssist.Proofs.Text.Replacing
import CodeAssist.Proofs.Text.Trimming

/-!
White space rules and the literals and comments of a text.

A text is runs of blanks, the gaps, between characters that are not blank. The first four rules of a
tidying keep those characters and change each gap on its own (`respace_gap`): a gap keeps whether it
is empty and whether it holds a newline, and between two visible characters that is nearly all that
the scanner can tell of it (`modeAfter_gap_congr`). The exception is a gap behind a backslash in a
literal. The backslash shields the first character of the gap, and that may be the newline after the
rules where it was another blank before. `bareScan_respace` says that this is the only exception.
-/

namespace CodeAssist.Offline

open Text List Option

variable {other cs new behind tail : List Char} {m : Mode} {before : Option Char}

/-! ## 1. Gaps as the scanner sees them -/

variable {c : Char}

/-- Blanks are none of the characters that the scanner looks for, newlines apart. -/
theorem ne_of_isBlank (hc : isBlank c = true) :
    c ≠ '"' ∧ c ≠ apostrophe ∧ c ≠ '/' ∧ c ≠ '*' ∧ c ≠ '\\' := by
  refine ⟨?_, ?_, ?_, ?_, ?_⟩ <;> rintro rfl <;> revert hc <;> decide

theorem Mode.step_code_blank (hc : isBlank c = true) : code.step c = code := by
  obtain ⟨h₁, h₂, h₃, -⟩ := ne_of_isBlank hc
  simp [step, stepCode, h₁, h₂, h₃]

theorem Mode.step_slash_blank (hc : isBlank c = true) : slash.step c = code := by
  obtain ⟨-, -, h₃, h₄, -⟩ := ne_of_isBlank hc
  rw [(step_slash h₃ h₄).1, step_code_blank hc]

theorem Mode.step_literal_blank (kind : LiteralKind) (hc : isBlank c = true) :
    (literal kind).step c = if c = '\n' then code else literal kind := by
  obtain ⟨h₁, h₂, -, -, h₅⟩ := ne_of_isBlank hc
  have hquote : c ≠ kind.quote := by cases kind <;> assumption
  simp [step, h₅, hquote]

theorem Mode.step_block_blank (hc : isBlank c = true) : block.step c = block := by
  obtain ⟨-, -, -, h₄, -⟩ := ne_of_isBlank hc
  simp [step, h₄]

theorem Mode.step_star_blank (hc : isBlank c = true) : star.step c = block := by
  obtain ⟨-, -, h₃, -, -⟩ := ne_of_isBlank hc
  rw [step_star h₃, step_block_blank hc]

theorem Mode.emit_blank (m : Mode) (hc : isBlank c = true) :
    (m.emit c).filter (fun t => !t.isBlank) = [] := by
  obtain ⟨h₁, h₂, h₃, h₄, -⟩ := ne_of_isBlank hc
  cases m with
  | code => simp [emit, emitCode, h₁, h₂]
  | slash => simp [emit, emitCode, h₁, h₂, h₃, h₄]
  | line =>
    rw [emit]
    split <;> simp [Token.isBlank, hc]
  | _ => simp [emit, Token.isBlank, hc]

variable {gap : List Char}

theorem bareScan_blank (m : Mode) (hgap : gap.all isBlank = true) :
    bareScan m gap = [] := by
  induction gap generalizing m with
  | nil => rfl
  | cons c gap ih =>
    rw [all_cons, Bool.and_eq_true] at hgap
    rw [bareScan_cons, m.emit_blank hgap.1, ih _ hgap.2]
    rfl

/-- Blanks leave a mode that each of them leaves. -/
theorem modeAfter_steady (hm : ∀ {c}, isBlank c = true → m.step c = m)
    (hgap : gap.all isBlank = true) : modeAfter m gap = m := by
  induction gap with
  | nil => rfl
  | cons c gap ih =>
    rw [all_cons, Bool.and_eq_true] at hgap
    rw [modeAfter_cons, hm hgap.1, ih hgap.2]

theorem modeAfter_code_gap (hgap : gap.all isBlank = true) : modeAfter .code gap = .code :=
  modeAfter_steady Mode.step_code_blank hgap

theorem modeAfter_block_gap (hgap : gap.all isBlank = true) : modeAfter .block gap = .block :=
  modeAfter_steady Mode.step_block_blank hgap

/-- Of the blanks only a newline ends such a mode. -/
theorem modeAfter_ended (hm : ∀ {c}, isBlank c = true → m.step c = if c = '\n' then .code else m)
    (hgap : gap.all isBlank = true) : modeAfter m gap = if '\n' ∈ gap then .code else m := by
  induction gap with
  | nil => rfl
  | cons c gap ih =>
    rw [all_cons, Bool.and_eq_true] at hgap
    rw [modeAfter_cons, hm hgap.1]
    by_cases hc : c = '\n'
    · rw [if_pos hc, modeAfter_code_gap hgap.2, if_pos (by simp [hc])]
    · rw [if_neg hc, ih hgap.2]
      simp [Ne.symm hc]

theorem modeAfter_literal_gap (kind : LiteralKind) (hgap : gap.all isBlank = true) :
    modeAfter (.literal kind) gap = if '\n' ∈ gap then .code else .literal kind :=
  modeAfter_ended (Mode.step_literal_blank kind) hgap

theorem modeAfter_line_gap (hgap : gap.all isBlank = true) :
    modeAfter .line gap = if '\n' ∈ gap then .code else .line :=
  modeAfter_ended (fun _ => by simp [Mode.step]) hgap

theorem modeAfter_shielded_gap (kind : LiteralKind) (hne : gap ≠ [])
    (hgap : gap.all isBlank = true) :
    modeAfter (.shielded kind) gap = if '\n' ∈ gap.tail then .code else .literal kind := by
  cases gap with
  | nil => exact absurd rfl hne
  | cons c gap =>
    rw [all_cons, Bool.and_eq_true] at hgap
    exact modeAfter_literal_gap kind hgap.2

theorem modeAfter_settling {m' : Mode} (hm : ∀ {c}, isBlank c = true → m.step c = m')
    (hm' : ∀ {c}, isBlank c = true → m'.step c = m') (hne : gap ≠ [])
    (hgap : gap.all isBlank = true) : modeAfter m gap = m' := by
  obtain ⟨c, gap, rfl⟩ := exists_cons_of_ne_nil hne
  rw [all_cons, Bool.and_eq_true] at hgap
  rw [modeAfter_cons, hm hgap.1, modeAfter_steady hm' hgap.2]

theorem modeAfter_slash_gap (hne : gap ≠ []) (hgap : gap.all isBlank = true) :
    modeAfter .slash gap = .code :=
  modeAfter_settling Mode.step_slash_blank Mode.step_code_blank hne hgap

theorem modeAfter_star_gap (hne : gap ≠ []) (hgap : gap.all isBlank = true) :
    modeAfter .star gap = .block :=
  modeAfter_settling Mode.step_star_blank Mode.step_block_blank hne hgap

/-- Two gaps between visible characters are the same to the scanner if both or neither are empty and
hold a newline, and a newline that is not shielded. -/
theorem modeAfter_gap_congr {gap : List Char} (hgap : gap.all isBlank = true)
    (hother : other.all isBlank = true) (hempty : other = [] ↔ gap = [])
    (hnewline : '\n' ∈ other ↔ '\n' ∈ gap)
    (hshield : ∀ kind, m = .shielded kind → ('\n' ∈ other.tail ↔ '\n' ∈ gap.tail)) :
    modeAfter m other = modeAfter m gap := by
  by_cases hne : gap = []
  · rw [hne, hempty.2 hne]
  · have hne' : other ≠ [] := fun h => hne (hempty.1 h)
    cases m with
    | code => rw [modeAfter_code_gap hgap, modeAfter_code_gap hother]
    | literal kind =>
      simp only [modeAfter_literal_gap kind hgap, modeAfter_literal_gap kind hother, hnewline]
    | shielded kind =>
      simp only [modeAfter_shielded_gap kind hne hgap, modeAfter_shielded_gap kind hne' hother,
        hshield kind rfl]
    | line => simp only [modeAfter_line_gap hgap, modeAfter_line_gap hother, hnewline]
    | block => rw [modeAfter_block_gap hgap, modeAfter_block_gap hother]
    | slash => rw [modeAfter_slash_gap hne hgap, modeAfter_slash_gap hne' hother]
    | star => rw [modeAfter_star_gap hne hgap, modeAfter_star_gap hne' hother]

/-! ## 2. Gaps as the rules change them -/

/-- A gap and what a rule makes of it, newline for newline. -/
structure GapKept (gap other : List Char) : Prop where
  blank : other.all isBlank = true
  empty : other = [] ↔ gap = []
  newlines : newlines other = newlines gap

theorem GapKept.trans {gap third : List Char} (h : GapKept gap other) (h' : GapKept other third) :
    GapKept gap third :=
  ⟨h'.blank, h'.empty.trans h.empty, h'.newlines.trans h.newlines⟩

/-- A pattern whose matches and values are blanks with as many newlines. -/
structure KeepsGaps (p : Pattern (List Char)) : Prop where
  reads : p.Reads
  isLocal : p.IsLocal
  swap : ∀ before piece behind new, p before (piece ++ behind) = some (new, behind) →
    new ≠ [] ∧ new.all isBlank = true ∧ newlines new = newlines piece

/-- A rule that keeps gaps keeps this one. -/
theorem KeepsGaps.gapKept {p : Pattern (List Char)} (hp : KeepsGaps p)
    (hgap : gap.all isBlank = true) : GapKept gap (replaceAll p gap) := by
  have hwalk := replaceAll_induct hp.reads
    (motive := fun _ cs out => cs.all isBlank = true → GapKept cs out)
  refine hwalk (fun _ _ => ⟨rfl, Iff.rfl, rfl⟩) ?_ ?_ gap hgap
  · intro front c rest out _ ih hcs
    rw [all_cons, Bool.and_eq_true] at hcs
    have hrest := ih hcs.2
    refine ⟨by rw [all_cons, hcs.1, hrest.blank]; rfl, by simp, ?_⟩
    have hcount := hrest.newlines
    simp only [newlines, count_cons] at hcount ⊢
    rw [hcount]
  · intro front piece behind new out hpiece hmatch ih hcs
    rw [all_append, Bool.and_eq_true] at hcs
    have hrest := ih hcs.2
    obtain ⟨hnew, hblank, hcount⟩ := hp.swap _ _ _ _ hmatch
    refine ⟨by rw [all_append, hblank, hrest.blank]; rfl, by simp [hnew, hpiece], ?_⟩
    have hcount' := hrest.newlines
    simp only [newlines, count_append] at hcount hcount' ⊢
    rw [hcount, hcount']

theorem crlfPattern_eq_some (h : crlfPattern before cs = some (new, behind)) :
    cs = ['\r', '\n'] ++ behind ∧ new = ['\n'] := by
  simp only [crlfPattern, bind_eq_bind, bind_eq_some_iff, Option.pure_def,
    some.injEq, Prod.mk.injEq] at h
  obtain ⟨rest, hrest, rfl, rfl⟩ := h
  exact ⟨after?_eq_some hrest, rfl⟩

theorem crlfPattern_keepsGaps : KeepsGaps crlfPattern where
  reads := fun _ _ _ _ h => ⟨_, cons_ne_nil _ _, (crlfPattern_eq_some h).1⟩
  isLocal := fun _ _ _ => rfl
  swap := by
    intro before piece behind new h
    obtain ⟨hpiece, rfl⟩ := crlfPattern_eq_some h
    rw [append_cancel_right hpiece]
    decide

theorem tabPattern_eq_some (h : tabPattern before cs = some (new, behind)) :
    cs = ['\t'] ++ behind ∧ new = [' ', ' ', ' ', ' '] := by
  simp only [tabPattern, bind_eq_bind, bind_eq_some_iff, Option.pure_def,
    some.injEq, Prod.mk.injEq] at h
  obtain ⟨rest, hrest, rfl, rfl⟩ := h
  exact ⟨afterChar?_eq_some hrest, rfl⟩

theorem tabPattern_keepsGaps : KeepsGaps tabPattern where
  reads := fun _ _ _ _ h => ⟨_, cons_ne_nil _ _, (tabPattern_eq_some h).1⟩
  isLocal := fun _ _ _ => rfl
  swap := by
    intro before piece behind new h
    obtain ⟨hpiece, rfl⟩ := tabPattern_eq_some h
    rw [append_cancel_right hpiece]
    decide

theorem replaceAll_crlf_swap (rest : List Char) :
    replaceAll crlfPattern ('\r' :: '\n' :: rest) = '\n' :: replaceAll crlfPattern rest :=
  crlfPattern_keepsGaps.isLocal.replaceAll_swap (cons_ne_nil '\r' ['\n']) rfl

variable {rest : List Char}

theorem replaceAll_crlf_keep (h : c = '\r' → rest.head? ≠ some '\n') :
    replaceAll crlfPattern (c :: rest) = c :: replaceAll crlfPattern rest := by
  refine crlfPattern_keepsGaps.isLocal.replaceAll_keep ?_
  refine eq_none_iff_forall_ne_some.2 fun read hmatch => ?_
  obtain ⟨hcs, -⟩ := crlfPattern_eq_some hmatch
  cases hcs
  exact h rfl rfl

theorem replaceAll_crlf_append (hc : isBlank c = false) (rest gap : List Char) :
    replaceAll crlfPattern (gap ++ c :: rest) =
      replaceAll crlfPattern gap ++ c :: replaceAll crlfPattern rest := by
  have hreturn : c ≠ '\r' := by
    rintro rfl
    cases hc
  have hnewline : c ≠ '\n' := by
    rintro rfl
    cases hc
  induction hn : gap.length using Nat.strongRecOn generalizing gap with
  | ind n ih =>
    cases gap with
    | nil => exact replaceAll_crlf_keep fun h => absurd h hreturn
    | cons d gap =>
      rw [length_cons] at hn
      by_cases hend : d = '\r' ∧ gap.head? = some '\n'
      · obtain ⟨rfl, hhead⟩ := hend
        obtain ⟨gap, rfl⟩ := head?_eq_some_iff.1 hhead
        have hgap := ih gap.length (by rw [← hn, length_cons]; omega) gap rfl
        rw [cons_append, cons_append, replaceAll_crlf_swap, replaceAll_crlf_swap, hgap,
          cons_append]
      · have hgap := ih gap.length (by omega) gap rfl
        rw [cons_append, replaceAll_crlf_keep, replaceAll_crlf_keep, hgap, cons_append]
        · exact fun hd hhead => hend ⟨hd, hhead⟩
        · intro hd hhead
          cases gap with
          | nil => exact hnewline (some.inj hhead)
          | cons e gap => exact hend ⟨hd, hhead⟩

theorem replaceAll_tab_keep (hc : c ≠ '\t') (rest : List Char) :
    replaceAll tabPattern (c :: rest) = c :: replaceAll tabPattern rest := by
  refine tabPattern_keepsGaps.isLocal.replaceAll_keep ?_
  simp [tabPattern, afterChar?, hc]

theorem replaceAll_tab_append (xs ys : List Char) :
    replaceAll tabPattern (xs ++ ys) = replaceAll tabPattern xs ++ replaceAll tabPattern ys := by
  induction xs with
  | nil => rfl
  | cons d xs ih =>
    rw [cons_append]
    by_cases htab : d = '\t'
    · subst htab
      have hswap : ∀ tail, replaceAll tabPattern ('\t' :: tail) =
          [' ', ' ', ' ', ' '] ++ replaceAll tabPattern tail := fun tail =>
        tabPattern_keepsGaps.isLocal.replaceAll_swap (cons_ne_nil '\t' []) rfl
      rw [hswap, hswap, ih, append_assoc]
    · rw [replaceAll_tab_keep htab, replaceAll_tab_keep htab, ih, cons_append]

/-- The text without the blanks that only blanks follow on their line. -/
def dropEnds : List Char → List Char
  | [] => []
  | c :: rest =>
    if c ≠ '\n' ∧ ((c :: rest).takeWhile (· != '\n')).all isBlank = true then dropEnds rest
    else c :: dropEnds rest

/-- Whether the first line is blank shows up to the first newline. -/
theorem lines_first_blank (cs : List Char) :
    ((lines cs).headD []).all isBlank = (cs.takeWhile (· != '\n')).all isBlank := by
  induction cs with
  | nil => rfl
  | cons c rest ih =>
    by_cases hnewline : c = '\n'
    · subst hnewline
      rfl
    · rw [takeWhile_cons_of_pos (by simpa using hnewline), all_cons, ← ih]
      by_cases hcrlf : c = '\r' ∧ rest.head? = some '\n'
      · obtain ⟨rfl, hhead⟩ := hcrlf
        obtain ⟨more, rfl⟩ := head?_eq_some_iff.1 hhead
        rfl
      · rw [lines_cons hnewline fun hc hhead => hcrlf ⟨hc, hhead⟩]
        rfl

theorem dropBlankEnd_cons_eq (c : Char) (cs : List Char) :
    dropBlankEnd (c :: cs) =
      (if (c :: cs).all isBlank = true then [] else [c]) ++ dropBlankEnd cs := by
  rw [dropBlankEnd, dropBlankEnd, reverse_cons, dropWhile_append]
  by_cases hcs : cs.all isBlank = true
  · have hnone : cs.reverse.dropWhile isBlank = [] := by
      rw [← append_nil cs.reverse]
      exact dropBlank_append (by rwa [all_reverse]) []
    cases hc : isBlank c <;> simp [hnone, hc, hcs]
  · have hsome : cs.reverse.dropWhile isBlank ≠ [] := by
      intro hnone
      have hblank := all_blank_of_dropWhile cs.reverse (by rw [hnone]; rfl)
      exact hcs (by rwa [all_reverse] at hblank)
    have hall : ¬ (c :: cs).all isBlank = true := by
      rw [all_cons, Bool.and_eq_true]
      exact fun h => hcs h.2
    rw [if_neg (by simpa using hsome), if_neg hall, reverse_append]
    rfl

theorem trimLines_newline (rest : List Char) :
    trimLines ('\n' :: rest) = '\n' :: trimLines rest := by
  cases rest with
  | nil => rfl
  | cons d more =>
    obtain ⟨line, found, hlines⟩ := exists_line (cons_ne_nil d more)
    rw [trimLines, trimLines, lines_newline, getLast?_cons_cons, hlines]
    rfl

/-- A character that ends no line is kept unless its line is blank from there on. -/
theorem trimLines_cons (hnewline : c ≠ '\n') (hcrlf : c = '\r' → rest.head? ≠ some '\n') :
    trimLines (c :: rest) =
      (if ((c :: rest).takeWhile (· != '\n')).all isBlank = true then [] else [c]) ++
        trimLines rest := by
  have hblank : ((c :: rest).takeWhile (· != '\n')).all isBlank =
      (c :: (lines rest).headD []).all isBlank := by
    rw [takeWhile_cons_of_pos (by simpa using hnewline), all_cons, all_cons,
      lines_first_blank]
  rw [trimLines, trimLines, lines_cons hnewline hcrlf, map_cons, dropBlankEnd_cons_eq,
    joinWith_append_cons, hblank, append_assoc]
  cases rest with
  | nil => simp [lines, joinWith, dropBlankEnd, hnewline]
  | cons d more =>
    obtain ⟨line, found, hlines⟩ := exists_line (cons_ne_nil d more)
    rw [getLast?_cons_cons, hlines]
    rfl

theorem trimLines_eq (cs : List Char) : trimLines cs = dropEnds cs := by
  induction cs with
  | nil => rfl
  | cons c rest ih =>
    rw [dropEnds]
    by_cases hnewline : c = '\n'
    · rw [if_neg fun h => h.1 hnewline, hnewline, trimLines_newline, ih]
    · by_cases hcrlf : c = '\r' ∧ rest.head? = some '\n'
      · obtain ⟨rfl, hhead⟩ := hcrlf
        obtain ⟨more, rfl⟩ := head?_eq_some_iff.1 hhead
        rw [if_pos ⟨hnewline, rfl⟩, ← ih]
        rfl
      · rw [trimLines_cons hnewline fun hc hhead => hcrlf ⟨hc, hhead⟩, ih]
        split <;> rename_i hblank
        · rw [if_pos ⟨hnewline, hblank⟩, nil_append]
        · rw [if_neg fun h => hblank h.2, singleton_append]

theorem dropEnds_sublist (cs : List Char) : Sublist (dropEnds cs) cs := by
  induction cs with
  | nil => exact .slnil
  | cons c rest ih =>
    rw [dropEnds]
    split
    · exact ih.cons c
    · exact ih.cons_cons c

theorem takeWhile_gap_blank (hc : isBlank c = false) (rest : List Char)
    (hgap : gap.all isBlank = true) :
    ((gap ++ c :: rest).takeWhile (· != '\n')).all isBlank = true ↔ '\n' ∈ gap := by
  induction gap with
  | nil =>
    have hnewline : c ≠ '\n' := by
      rintro rfl
      cases hc
    simp [hnewline, hc]
  | cons d gap ih =>
    rw [all_cons, Bool.and_eq_true] at hgap
    by_cases hd : d = '\n'
    · simp [hd]
    · rw [cons_append, takeWhile_cons_of_pos (by simpa using hd), all_cons, hgap.1,
        Bool.true_and, ih hgap.2]
      simp [Ne.symm hd]

/-- Of a gap, its newlines are left and what stands behind the last of them. -/
theorem dropEnds_gap (hc : isBlank c = false) (rest : List Char) (hgap : gap.all isBlank = true) :
    ∃ tail, dropEnds (gap ++ c :: rest) =
        replicate (newlines gap) '\n' ++ (tail ++ c :: dropEnds rest) ∧
      tail.all isBlank = true ∧ '\n' ∉ tail ∧ (newlines gap = 0 → tail = gap) := by
  induction gap with
  | nil =>
    refine ⟨[], ?_, rfl, not_mem_nil, fun _ => rfl⟩
    rw [nil_append, dropEnds, if_neg]
    · rfl
    · rintro ⟨-, hblank⟩
      exact not_mem_nil ((takeWhile_gap_blank hc rest rfl).1 hblank)
  | cons d gap ih =>
    have hall := hgap
    rw [all_cons, Bool.and_eq_true] at hgap
    obtain ⟨tail, htail, hblank, hplain, hnone⟩ := ih hgap.2
    have hline := takeWhile_gap_blank hc rest hall
    rw [cons_append] at hline ⊢
    rw [dropEnds, htail]
    by_cases hd : d = '\n'
    · have hcount : newlines (d :: gap) = newlines gap + 1 := by
        rw [hd, newlines, count_cons_self, newlines]
      refine ⟨tail, ?_, hblank, hplain, fun h => by omega⟩
      rw [if_neg fun h => h.1 hd, hcount, replicate_succ, hd, cons_append]
    · have hcount : newlines (d :: gap) = newlines gap := count_cons_of_ne hd
      rw [hcount]
      by_cases hmem : '\n' ∈ gap
      · have hpos : 0 < newlines gap := count_pos_iff.2 hmem
        exact ⟨tail, if_pos ⟨hd, hline.2 (mem_cons_of_mem d hmem)⟩, hblank, hplain,
          fun h => by omega⟩
      · have hzero : newlines gap = 0 := count_eq_zero.2 hmem
        refine ⟨d :: tail, ?_, ?_, ?_, fun _ => by rw [hnone hzero]⟩
        · rw [if_neg fun h => hmem (mem_of_ne_of_mem (Ne.symm hd) (hline.1 h.2)), hzero]
          rfl
        · rw [all_cons, hgap.1, hblank]
          rfl
        · simpa using ⟨Ne.symm hd, hplain⟩

/-! Runs of newlines: three or more become two. -/

theorem blankRunPattern_eq_some (h : blankRunPattern before cs = some (new, behind)) :
    ∃ run, cs = ('\n' :: '\n' :: '\n' :: run) ++ behind ∧ new = ['\n', '\n'] := by
  simp only [blankRunPattern, bind_eq_bind, bind_eq_some_iff, Option.pure_def,
    some.injEq, Prod.mk.injEq] at h
  obtain ⟨rest, hrest, rfl, rfl⟩ := h
  refine ⟨rest.takeWhile (· == '\n'), ?_, rfl⟩
  rw [after?_eq_some hrest]
  simp

theorem blankRunPattern_isLocal : blankRunPattern.IsLocal := fun _ _ _ => rfl

theorem blankRunPattern_reads : blankRunPattern.Reads := by
  intro before cs new behind h
  obtain ⟨run, hcs, -⟩ := blankRunPattern_eq_some h
  exact ⟨_, cons_ne_nil _ _, hcs⟩

theorem replaceAll_blankRun_keep (h : ∀ more, c :: rest ≠ '\n' :: '\n' :: '\n' :: more) :
    replaceAll blankRunPattern (c :: rest) = c :: replaceAll blankRunPattern rest := by
  refine blankRunPattern_isLocal.replaceAll_keep ?_
  refine eq_none_iff_forall_ne_some.2 fun read hmatch => ?_
  obtain ⟨run, hcs, -⟩ := blankRunPattern_eq_some hmatch
  exact h _ hcs

theorem replaceAll_blankRun_tail (htail : '\n' ∉ tail) (rest : List Char) :
    replaceAll blankRunPattern (tail ++ rest) = tail ++ replaceAll blankRunPattern rest := by
  induction tail with
  | nil => rfl
  | cons d tail ih =>
    rw [mem_cons, not_or] at htail
    rw [cons_append, replaceAll_blankRun_keep, ih htail.2, cons_append]
    intro more h
    exact htail.1 (cons.inj h).1.symm

/-- Of some line ends in a row at most two are left. -/
theorem replaceAll_blankRun_newlines (k : Nat) (hrest : rest.head? ≠ some '\n') :
    replaceAll blankRunPattern (replicate k '\n' ++ rest) =
      replicate (min k 2) '\n' ++ replaceAll blankRunPattern rest := by
  have hhead : ∀ more, rest ≠ '\n' :: more := by
    rintro more rfl
    exact hrest rfl
  match k with
  | 0 => rfl
  | 1 =>
    refine replaceAll_blankRun_keep fun more h => ?_
    exact hhead _ (cons.inj h).2
  | 2 =>
    have hsecond : replaceAll blankRunPattern ('\n' :: rest) =
        '\n' :: replaceAll blankRunPattern rest :=
      replaceAll_blankRun_keep fun more h => hhead _ (cons.inj h).2
    have hfirst : replaceAll blankRunPattern ('\n' :: '\n' :: rest) =
        '\n' :: replaceAll blankRunPattern ('\n' :: rest) :=
      replaceAll_blankRun_keep fun more h => hhead _ (cons.inj (cons.inj h).2).2
    exact hfirst.trans (congrArg _ hsecond)
  | k + 3 =>
    have hdrop : (replicate k '\n' ++ rest).dropWhile (· == '\n') = rest := by
      rw [dropWhile_append_of_pos (by simp)]
      cases rest with
      | nil => rfl
      | cons c rest =>
        have hc : c ≠ '\n' := fun hc => hhead rest (by rw [hc])
        rw [dropWhile_cons_of_neg (by simpa using hc)]
    have hmatch : blankRunPattern none (replicate (k + 3) '\n' ++ rest) =
        some (['\n', '\n'], rest) := by
      simp [blankRunPattern, after?, replicate_succ, hdrop]
    rw [blankRunPattern_isLocal.replaceAll_swap (by simp [replicate_succ]) hmatch,
      Nat.min_eq_right (by omega)]
    rfl

/-! ## 3. The white space rules -/

/-- The text after the rules for white space. -/
def respace (cs : List Char) : List Char :=
  replaceAll blankRunPattern (trimLines (replaceAll tabPattern (replaceAll crlfPattern cs)))

theorem dropEnds_blank (hgap : gap.all isBlank = true) :
    dropEnds gap = replicate (newlines gap) '\n' := by
  induction gap with
  | nil => rfl
  | cons c gap ih =>
    have hline : ((c :: gap).takeWhile (· != '\n')).all isBlank = true := by
      refine all_eq_true.2 fun d hd => ?_
      exact all_eq_true.1 hgap d ((takeWhile_sublist _).mem hd)
    rw [all_cons, Bool.and_eq_true] at hgap
    rw [dropEnds, ih hgap.2]
    by_cases hc : c = '\n'
    · rw [if_neg fun h => h.1 hc, hc, newlines, newlines, count_cons_self,
        replicate_succ]
    · rw [if_pos ⟨hc, hline⟩, newlines, newlines, count_cons_of_ne hc]

theorem respace_blank_eq (hgap : gap.all isBlank = true) :
    respace gap = replicate (min (newlines gap) 2) '\n' := by
  have hkept := (crlfPattern_keepsGaps.gapKept hgap).trans
    (tabPattern_keepsGaps.gapKept (crlfPattern_keepsGaps.gapKept hgap).blank)
  have hruns := replaceAll_blankRun_newlines (newlines gap) (show [].head? ≠ some '\n' by simp)
  rw [append_nil] at hruns
  rw [respace, trimLines_eq, dropEnds_blank hkept.blank, hkept.newlines, hruns]
  exact append_nil _

theorem respace_blank (hgap : gap.all isBlank = true) :
    (respace gap).all isBlank = true := by
  rw [respace_blank_eq hgap, List.all_eq_true]
  intro d hd
  rw [(mem_replicate.1 hd).2]
  rfl

theorem mem_squeezed (k : Nat) (htail : '\n' ∉ tail) :
    '\n' ∈ replicate (min k 2) '\n' ++ tail ↔ 0 < k := by
  rw [mem_append, or_iff_left htail, mem_replicate, and_iff_left rfl]
  omega

theorem mem_tail_squeezed (k : Nat) (htail : '\n' ∉ tail) :
    '\n' ∈ (replicate (min k 2) '\n' ++ tail).tail ↔ 2 ≤ k := by
  match k with
  | 0 => simpa using fun h => htail (mem_of_mem_tail h)
  | 1 => simpa using htail
  | k + 2 => simp [replicate_succ]

theorem replaceAll_tab (cs : List Char) : '\t' ∉ replaceAll tabPattern cs := by
  have hwalk := replaceAll_induct tabPattern_keepsGaps.reads (motive := fun _ _ out => '\t' ∉ out)
  refine hwalk (fun _ => not_mem_nil) ?_ ?_ cs
  · intro front c rest out hkeep ih
    rw [mem_cons, not_or]
    refine ⟨?_, ih⟩
    rintro rfl
    cases hkeep
  · intro front piece behind new out _ hmatch ih
    rw [(tabPattern_eq_some hmatch).2, mem_append, not_or]
    exact ⟨by decide, ih⟩

/-- The rules change each gap on its own. At most two newlines are left of it, and other blanks
behind them. -/
theorem respace_gap_eq (hc : isBlank c = false) (rest : List Char) (hgap : gap.all isBlank = true) :
    ∃ tail, respace (gap ++ c :: rest) =
        replicate (min (newlines gap) 2) '\n' ++ tail ++ c :: respace rest ∧
      tail.all isBlank = true ∧ '\n' ∉ tail ∧ '\t' ∉ tail ∧
      (newlines gap = 0 → (tail = [] ↔ gap = [])) := by
  have hnewline : c ≠ '\n' := by
    rintro rfl
    cases hc
  have htab : c ≠ '\t' := by
    rintro rfl
    cases hc
  have hkept := (crlfPattern_keepsGaps.gapKept hgap).trans
    (tabPattern_keepsGaps.gapKept (crlfPattern_keepsGaps.gapKept hgap).blank)
  obtain ⟨tail, hends, hblank, hplain, hnone⟩ :=
    dropEnds_gap hc (replaceAll tabPattern (replaceAll crlfPattern rest)) hkept.blank
  rw [hkept.newlines] at hends hnone
  refine ⟨tail, ?_, hblank, hplain, ?_, ?_⟩
  · have hhead : ∀ more, (tail ++ c :: more).head? ≠ some '\n' := by
      intro more
      cases tail with
      | nil => simpa using hnewline
      | cons d tail => simpa using fun hd => hplain (by simp [hd])
    have hkeep : ∀ more, replaceAll blankRunPattern (c :: more) =
        c :: replaceAll blankRunPattern more := fun more =>
      replaceAll_blankRun_keep fun _ h => hnewline (cons.inj h).1
    rw [respace, replaceAll_crlf_append hc, replaceAll_tab_append, replaceAll_tab_keep htab,
      trimLines_eq, hends, replaceAll_blankRun_newlines _ (hhead _),
      replaceAll_blankRun_tail hplain, hkeep, respace, trimLines_eq, append_assoc]
  · intro hmem
    have hsource : '\t' ∈ dropEnds (replaceAll tabPattern (replaceAll crlfPattern gap) ++
        c :: replaceAll tabPattern (replaceAll crlfPattern rest)) := by
      rw [hends]
      simp [hmem]
    rw [← replaceAll_tab_keep htab, ← replaceAll_tab_append] at hsource
    exact replaceAll_tab _ ((dropEnds_sublist _).mem hsource)
  · intro hzero
    rw [hnone hzero]
    exact hkept.empty

/-- A gap becomes another gap, empty only if it was, with a line end if it had one. -/
theorem respace_gap (hc : isBlank c = false) (rest : List Char) (hgap : gap.all isBlank = true) :
    ∃ other, respace (gap ++ c :: rest) = other ++ c :: respace rest ∧
      other.all isBlank = true ∧ (other = [] ↔ gap = []) ∧ ('\n' ∈ other ↔ '\n' ∈ gap) ∧
      ('\n' ∈ other.tail ↔ 2 ≤ newlines gap) := by
  obtain ⟨tail, hrespace, hblank, hplain, -, hnone⟩ := respace_gap_eq hc rest hgap
  refine ⟨_, hrespace, ?_, ?_, ?_, ?_⟩
  · rw [all_append, hblank, Bool.and_true, List.all_eq_true]
    intro d hd
    rw [(mem_replicate.1 hd).2]
    rfl
  · by_cases hzero : newlines gap = 0
    · rw [hzero]
      exact hnone hzero
    · have hmem : '\n' ∈ gap := count_pos_iff.1 (Nat.pos_of_ne_zero hzero)
      have hmem' := (mem_squeezed (newlines gap) hplain).2 (Nat.pos_of_ne_zero hzero)
      exact iff_of_false (ne_nil_of_mem hmem') (ne_nil_of_mem hmem)
  · exact (mem_squeezed _ hplain).trans count_pos_iff
  · exact mem_tail_squeezed _ hplain

/-! ## 4. Breaks behind a backslash -/

/-- A gap right behind the backslash of a literal that begins with another blank and then ends the
line, once. -/
def Mode.Breaks (m : Mode) (gap : List Char) : Prop :=
  (∃ kind, m = .shielded kind) ∧ gap.head? ≠ some '\n' ∧ newlines gap = 1

/-- Such a gap somewhere in a text, with something visible behind it. -/
def BreaksIn (m : Mode) (cs : List Char) : Prop :=
  ∃ front gap c rest, cs = front ++ (gap ++ c :: rest) ∧ (modeAfter m front).Breaks gap ∧
    gap.all isBlank = true ∧ isBlank c = false

theorem not_breaksIn_blank (hgap : gap.all isBlank = true) :
    ¬ BreaksIn m gap := by
  rintro ⟨front, inner, c, rest, rfl, -, -, hc⟩
  have hblank := all_eq_true.1 hgap c (by simp)
  rw [hc] at hblank
  cases hblank

theorem not_breaks_of_blank {front gap : List Char} (hne : front ≠ [])
    (hfront : front.all isBlank = true) : ¬ (modeAfter m front).Breaks gap := by
  rintro ⟨⟨kind, hmode⟩, -⟩
  cases m with
  | code => rw [modeAfter_code_gap hfront] at hmode; cases hmode
  | slash => rw [modeAfter_slash_gap hne hfront] at hmode; cases hmode
  | block => rw [modeAfter_block_gap hfront] at hmode; cases hmode
  | star => rw [modeAfter_star_gap hne hfront] at hmode; cases hmode
  | literal kind => rw [modeAfter_literal_gap kind hfront] at hmode; split at hmode <;> cases hmode
  | line => rw [modeAfter_line_gap hfront] at hmode; split at hmode <;> cases hmode
  | shielded kind =>
    rw [modeAfter_shielded_gap kind hne hfront] at hmode
    split at hmode <;> cases hmode

/-- A break in a text stands in its first gap or behind it. -/
theorem breaksIn_gap (hgap : gap.all isBlank = true) (hc : isBlank c = false) :
    BreaksIn m (gap ++ c :: rest) ↔
      m.Breaks gap ∨ BreaksIn ((modeAfter m gap).step c) rest := by
  constructor
  · rintro ⟨front, inner, d, more, hcs, hbreaks, hinner, hd⟩
    rcases append_eq_append_iff.1 hcs with ⟨past, rfl, hpast⟩ | ⟨left, rfl, hleft⟩
    · cases past with
      | nil =>
        -- the gap would begin with `c`
        have hempty : inner = [] := (stretch_unique hinner all_nil hd hc hpast.symm).1
        rw [hempty] at hbreaks
        cases hbreaks.2.2
      | cons e past =>
        obtain ⟨rfl, hrest⟩ := cons.inj hpast
        refine .inr ⟨past, inner, d, more, hrest, ?_, hinner, hd⟩
        rwa [modeAfter_append] at hbreaks
    · by_cases hfront : front = []
      · subst hfront
        have hsame := (stretch_unique hinner hgap hd hc hleft).1
        rw [hsame] at hbreaks
        exact .inl hbreaks
      · rw [all_append, Bool.and_eq_true] at hgap
        exact absurd hbreaks (not_breaks_of_blank hfront hgap.1)
  · rintro (hbreaks | ⟨front, inner, d, more, rfl, hbreaks, hinner, hd⟩)
    · exact ⟨[], gap, c, rest, rfl, hbreaks, hgap, hc⟩
    · refine ⟨gap ++ c :: front, inner, d, more, by simp, ?_, hinner, hd⟩
      rwa [modeAfter_append, modeAfter_cons]

theorem mem_tail_iff (h : gap.head? = some '\n' ∨ newlines gap ≠ 1) :
    '\n' ∈ gap.tail ↔ 2 ≤ newlines gap := by
  cases gap with
  | nil => simp [newlines]
  | cons c gap =>
    have hpos : '\n' ∈ gap ↔ 0 < newlines gap := count_pos_iff.symm
    rw [tail_cons, hpos]
    by_cases hc : c = '\n'
    · have hcount : newlines (c :: gap) = newlines gap + 1 := by
        rw [hc, newlines, count_cons_self, newlines]
      omega
    · have hcount : newlines (c :: gap) = newlines gap := count_cons_of_ne hc
      have hone := h.resolve_left fun hhead => hc (some.inj hhead)
      omega

theorem mem_tail_of_head? (hmem : '\n' ∈ gap) (hhead : gap.head? ≠ some '\n') :
    '\n' ∈ gap.tail := by
  cases gap with
  | nil => exact absurd hmem not_mem_nil
  | cons c gap =>
    exact mem_of_ne_of_mem (fun h => hhead (by rw [h]; rfl)) hmem

/-- The white space rules keep what the scanner says of a text, white space apart, if and only if
no gap breaks a literal. -/
theorem bareScan_respace (m : Mode) (cs : List Char) :
    bareScan m (respace cs) = bareScan m cs ↔ ¬ BreaksIn m cs := by
  induction hn : cs.length using Nat.strongRecOn generalizing m cs with
  | ind n ih =>
    by_cases hblank : cs.all isBlank = true
    · rw [bareScan_blank m hblank, bareScan_blank m (respace_blank hblank)]
      exact iff_of_true rfl (not_breaksIn_blank hblank)
    · obtain ⟨gap, c, rest, rfl, hgap, hc⟩ := exists_dropBlank (Bool.eq_false_iff.2 hblank)
      obtain ⟨other, hrespace, hother, hempty, hnewline, htail⟩ := respace_gap hc rest hgap
      rw [hrespace, breaksIn_gap hgap hc, bareScan_append, bareScan_append, bareScan_blank m hgap,
        bareScan_blank m hother, nil_append, nil_append]
      by_cases hbreaks : m.Breaks gap
      · refine iff_of_false ?_ (not_not_intro (.inl hbreaks))
        obtain ⟨⟨kind, rfl⟩, hhead, hone⟩ := hbreaks
        have hpos : 0 < newlines gap := by omega
        have hmem : '\n' ∈ gap := count_pos_iff.1 hpos
        have hne := ne_nil_of_mem hmem
        -- the literal ended in the gap, and now goes on behind it
        have hended : modeAfter (.shielded kind) gap = .code := by
          rw [modeAfter_shielded_gap kind hne hgap, if_pos (mem_tail_of_head? hmem hhead)]
        have hgoes : modeAfter (.shielded kind) other = .literal kind := by
          rw [modeAfter_shielded_gap kind (fun h => hne (hempty.1 h)) hother, if_neg]
          rw [htail]
          omega
        rw [hended, hgoes, bareScan_cons (.literal kind)]
        have hvisible :
            (Mode.emit (.literal kind) c).filter (fun t => !t.isBlank) = [.inside c] := by
          simp [Mode.emit, Token.isBlank, hc]
        rw [hvisible]
        exact fun h => bareScan_code_ne_inside _ _ _ h.symm
      · have hmode : modeAfter m other = modeAfter m gap := by
          refine modeAfter_gap_congr hgap hother hempty hnewline fun kind hm => ?_
          rw [htail, mem_tail_iff]
          by_cases hhead : gap.head? = some '\n'
          · exact .inl hhead
          · exact .inr fun hone => hbreaks ⟨⟨kind, hm⟩, hhead, hone⟩
        rw [hmode, bareScan_cons, bareScan_cons, append_cancel_left_eq, or_iff_right hbreaks]
        refine ih rest.length ?_ _ _ rfl
        rw [← hn, length_append, length_cons]
        omega

end CodeAssist.Offline
