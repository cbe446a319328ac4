import CodeAssist.Offline.Diagnosis
import CodeAssist.Proofs.Text.Lines
import CodeAssist.Proofs.Text.Trimming

/-!
Where a missing semicolon is put.

The line that gets it is found from its number alone, and the text is put together from its lines
again. So one line changes, and of the others nothing but carriage returns at their ends.
-/

namespace CodeAssist.Text

open List Option

/-- A carriage return at the end of a line belongs to the line end once a newline follows. -/
theorem exists_line_newline {line : List Char} (h : '\n' ∉ line) :
    ∃ kept, lines (line ++ ['\n']) = [kept] ∧ (kept = line ∨ line = kept ++ ['\r']) := by
  by_cases hreturn : line.getLast? = some '\r'
  · obtain ⟨front, rfl⟩ := getLast?_eq_some_iff.1 hreturn
    refine ⟨front, ?_, .inr rfl⟩
    clear hreturn
    induction front with
    | nil => rfl
    | cons c front ih =>
      rw [cons_append, mem_cons, not_or] at h
      have hhead : (front ++ ['\r'] ++ ['\n']).head? ≠ some '\n' := by
        cases front with
        | nil => simp
        | cons d front => simpa using fun hd : d = '\n' => h.2 (by simp [hd])
      rw [cons_append, cons_append, lines_cons (Ne.symm h.1) fun _ => hhead, ih h.2]
      rfl
  · exact ⟨line, lines_fitting ⟨h, hreturn⟩, .inl rfl⟩

/-- Lines put together again are read as they were, but for carriage returns at their ends. -/
theorem lines_rejoined {ls : List (List Char)} (hne : ls ≠ []) (h : ∀ line ∈ ls, '\n' ∉ line)
    {tail : List Char} (htail : tail = ['\n'] ∨ tail = [] ∧ ls.getLast? ≠ some []) :
    (lines (joinWith ['\n'] ls ++ tail)).length = ls.length ∧
      ∀ (i : Nat) line, ls[i]? = some line → ∃ kept,
        (lines (joinWith ['\n'] ls ++ tail))[i]? = some kept ∧
          (kept = line ∨ line = kept ++ ['\r']) := by
  induction ls with
  | nil => exact absurd rfl hne
  | cons line ls ih =>
    obtain ⟨hline, hls⟩ := forall_mem_cons.1 h
    obtain ⟨kept, hkept, hsame⟩ := exists_line_newline hline
    by_cases hmore : ls = []
    · subst hmore
      obtain ⟨kept, hlines, hsame⟩ : ∃ kept, lines (line ++ tail) = [kept] ∧
          (kept = line ∨ line = kept ++ ['\r']) := by
        rcases htail with rfl | ⟨rfl, hlast⟩
        · exact ⟨kept, hkept, hsame⟩
        · rw [append_nil]
          exact ⟨line, lines_of_not_mem (by simpa using hlast) hline, .inl rfl⟩
      rw [joinWith, hlines]
      refine ⟨rfl, fun i other hother => ⟨kept, ?_⟩⟩
      cases i with
      | zero => exact ⟨rfl, some.inj hother ▸ hsame⟩
      | succ i => cases hother
    · rw [getLast?_cons_of_ne_nil hmore] at htail
      obtain ⟨hlength, hrest⟩ := ih hmore hls htail
      rw [joinWith_newline hmore, append_assoc, cons_append, lines_append_newline,
        hkept, singleton_append]
      refine ⟨congrArg (· + 1) hlength, fun i other hother => ?_⟩
      cases i with
      | zero =>
        obtain rfl := some.inj hother
        exact ⟨kept, rfl, hsame⟩
      | succ i => exact hrest i other hother

end CodeAssist.Text

namespace CodeAssist.Offline

open Text List Option

/-! ## 1. The line -/

theorem strip_of_needsSemicolon {line : List Char} (h : needsSemicolon line = true) :
    line.all isBlank = false ∧ (strip line).head? ≠ some '#' ∧
      ∀ c ∈ [';', '{', '}'], (strip line).getLast? ≠ some c := by
  have hblank : line.all isBlank = false := by
    rw [Bool.eq_false_iff]
    intro hall
    have hfront := fun c hc => all_eq_true.1 hall c ((dropBlankEnd_isPrefix line).mem hc)
    simp [needsSemicolon, all_eq_true.2 hfront] at h
  obtain ⟨ws, c, more, rfl, hws, hc⟩ := exists_dropBlank hblank
  rw [needsSemicolon, dropBlankEnd_append_cons hc, dropBlank_append hws, dropBlank_cons hc] at h
  rw [strip_append hws, strip_cons hc]
  refine ⟨hblank, ?_⟩
  simp_all

theorem mem_zipIdx_take {ls : List (List Char)} {reported i : Nat} {line : List Char} :
    (line, i) ∈ (ls.take reported).zipIdx ↔ i < reported ∧ ls[i]? = some line := by
  rw [mem_zipIdx_iff_getElem?, getElem?_take, ite_none_right_eq_some]

/-- The line is the reported one or the nearest one before it that is not blank. -/
theorem semicolonLine?_spec {ls : List (List Char)} {reported index : Nat}
    (h : semicolonLine? ls reported = some index) :
    index ≤ reported ∧ (∃ line, ls[index]? = some line ∧ needsSemicolon line = true) ∧
      ∀ i line, index < i → i < reported → ls[i]? = some line → line.all isBlank = true := by
  simp only [semicolonLine?] at h
  split at h
  · rename_i line found hfound
    obtain rfl := some.inj h
    obtain ⟨hfind, hneeds⟩ := filter_eq_some_iff.1 hfound
    obtain ⟨hbefore, hline⟩ := mem_zipIdx_take.1 (mem_reverse.1 (mem_of_find?_eq_some hfind))
    refine ⟨Nat.le_of_lt hbefore, ⟨line, hline, hneeds⟩, fun i other hlt hi hother => ?_⟩
    obtain ⟨-, later, earlier, hsplit, hlater⟩ := find?_eq_some_iff_append.1 hfind
    rw [reverse_eq_iff, reverse_append, reverse_cons, append_assoc] at hsplit
    -- the lines stand in the order of their numbers, so one with a greater number stands behind
    have hmem := mem_zipIdx_take.2 ⟨hi, hother⟩
    have hascending : ((ls.take reported).zipIdx.map (·.2)).Pairwise (· < ·) := by
      rw [zipIdx_map_snd]
      exact pairwise_lt_range'
    rw [hsplit, map_append, pairwise_append] at hascending
    rw [hsplit, mem_append] at hmem
    rcases hmem with hmem | hmem
    · have hback := hascending.2.2 i (mem_map_of_mem hmem) found (by simp)
      omega
    · rcases mem_cons.1 hmem with heq | hmem
      · exact absurd (Prod.ext_iff.1 heq).2 (Nat.ne_of_gt hlt)
      · simpa using hlater _ (mem_reverse.1 hmem)
  · rw [ite_none_right_eq_some] at h
    obtain ⟨hneeds, h⟩ := h
    obtain rfl := some.inj h
    refine ⟨Nat.le_refl _, ?_, fun i _ hlt hi => absurd hi (Nat.lt_asymm hlt)⟩
    simpa [Option.any_eq_true] using hneeds

/-! ## 2. The text -/

/-- Lines with a semicolon at the end of one of them. -/
def mended (ls : List (List Char)) (t : Nat) : List (List Char) :=
  ls.modify t fun line => dropBlankEnd line ++ [';']

theorem newline_not_mem_mended (code : List Char) (t : Nat) :
    ∀ line ∈ mended (lines code) t, '\n' ∉ line := by
  intro line hmem
  obtain ⟨i, hi⟩ := mem_iff_getElem?.1 hmem
  rw [mended, getElem?_modify] at hi
  obtain ⟨old, hold, rfl⟩ := map_eq_some_iff.1 hi
  have hplain := newline_not_mem_line code old (mem_of_getElem? hold)
  split
  · simpa using fun hmem => hplain ((dropBlankEnd_isPrefix old).mem hmem)
  · exact hplain

theorem getLast?_mended {code : List Char} (h : code.getLast? ≠ some '\n') (t : Nat) :
    (mended (lines code) t).getLast? ≠ some [] := by
  intro hempty
  rw [getLast?_eq_getElem?, mended, getElem?_modify, length_modify,
    ← getLast?_eq_getElem?] at hempty
  obtain ⟨last, hlast, hnil⟩ := map_eq_some_iff.1 hempty
  split at hnil
  · simp at hnil
  · rcases eq_nil_or_concat code with rfl | ⟨cs, c, rfl⟩
    · cases hlast
    · rw [concat_eq_append] at h hlast
      obtain ⟨front, line, hlines⟩ := exists_last_line (c := c) (by simpa using h) cs
      simp [hlines, hnil] at hlast

theorem insertSemicolon_eq_some {code fixed : List Char} {n : Nat}
    (h : insertSemicolon code n = some fixed) : (1 ≤ n ∧ n ≤ (lines code).length) ∧
      ∃ t tail, semicolonLine? (lines code) (n - 1) = some t ∧
        fixed = joinWith ['\n'] (mended (lines code) t) ++ tail ∧
        (code.getLast? = some '\n' ∧ tail = ['\n'] ∨ code.getLast? ≠ some '\n' ∧ tail = []) := by
  simp only [insertSemicolon] at h
  split at h
  · cases h
  · rename_i hrange
    obtain ⟨t, hindex, hfixed⟩ := bind_eq_some_iff.1 h
    refine ⟨by simpa [Nat.one_le_iff_ne_zero] using hrange, t, _, hindex,
      (some.inj hfixed).symm, ?_⟩
    by_cases hend : code.getLast? = some '\n' <;> simp [hend]

theorem getLast?_joinWith_mended {code : List Char} {t : Nat} (hne : mended (lines code) t ≠ [])
    (h : code.getLast? ≠ some '\n') :
    (joinWith ['\n'] (mended (lines code) t)).getLast? ≠ some '\n' := by
  obtain ⟨last, hlast⟩ := isSome_iff_exists.1 (getLast?_isSome.2 hne)
  rcases eq_nil_or_concat last with rfl | ⟨front, c, rfl⟩
  · exact absurd hlast (getLast?_mended h t)
  · rw [concat_eq_append] at hlast
    have hc := newline_not_mem_mended code t _ (mem_of_getLast? hlast)
    rw [getLast?_joinWith hlast]
    exact fun hnewline => hc (by simp [some.inj hnewline])

/-- A fix stands for a line number of the code. It has as many lines, of which one is changed: the
reported line or one with only blank lines between; that line lacked its semicolon and gets it in
place of the blanks at its end. The others may only lose a carriage return at their end. -/
theorem semicolon_on_one_line {code fixed : List Char} {n : Nat}
    (h : insertSemicolon code n = some fixed) :
    (1 ≤ n ∧ n ≤ (lines code).length) ∧ (lines fixed).length = (lines code).length ∧
    (∃ t line, t < n ∧ (lines code)[t]? = some line ∧
      (lines fixed)[t]? = some (dropBlankEnd line ++ [';']) ∧
      (∀ i other, i ≠ t → (lines code)[i]? = some other → ∃ kept,
        (lines fixed)[i]? = some kept ∧ (kept = other ∨ other = kept ++ ['\r'])) ∧
      line.all isBlank = false ∧ (strip line).head? ≠ some '#' ∧
      (∀ c ∈ [';', '{', '}'], (strip line).getLast? ≠ some c) ∧
      ∀ i other, t < i → i + 1 < n → (lines code)[i]? = some other → other.all isBlank = true) ∧
    (fixed.getLast? = some '\n' ↔ code.getLast? = some '\n') := by
  obtain ⟨hn, t, tail, hindex, htail, hcode⟩ := insertSemicolon_eq_some h
  obtain ⟨hle, ⟨line, hline, hneeds⟩, hblank⟩ := semicolonLine?_spec hindex
  obtain ⟨hvisible, hdirective, hlast⟩ := strip_of_needsSemicolon hneeds
  have hne : mended (lines code) t ≠ [] := by
    rw [mended, ← length_pos_iff, length_modify]
    omega
  obtain ⟨hlength, hlines⟩ := lines_rejoined hne (newline_not_mem_mended code t)
    (hcode.imp And.right fun h => ⟨h.2, getLast?_mended h.1 t⟩)
  rw [← htail] at hlength hlines
  refine ⟨hn, hlength.trans (length_modify ..), ⟨t, line, by omega, hline, ?_, ?_, hvisible,
    hdirective, hlast, fun i other hlt hi => hblank i other hlt (by omega)⟩, ?_⟩
  · obtain ⟨kept, hkept, hsame⟩ := hlines t _ (by rw [mended, getElem?_modify_eq, hline]; rfl)
    rcases hsame with rfl | hsame
    · exact hkept
    · simpa using congrArg getLast? hsame
  · intro i other hi hother
    exact hlines i other (by rw [mended, getElem?_modify_ne _ _ hi.symm, hother])
  · rcases hcode with ⟨hend, rfl⟩ | ⟨hend, rfl⟩
    · simp [htail, hend]
    · rw [htail, append_nil]
      exact iff_of_false (getLast?_joinWith_mended hne hend) hend

/-- The code of a report on its fourth line. Its second line ends with two carriage returns. -/
def reportedCode : List Char :=
  "int x = 1  \n\r\r\n\t\nreturn x;\n".toList

theorem semicolon_on_one_line_reported :
    insertSemicolon reportedCode 4 = some "int x = 1;\n\r\n\t\nreturn x;\n".toList ∧
    (lines "int x = 1;\n\r\n\t\nreturn x;\n".toList).length = (lines reportedCode).length := by
  have h : insertSemicolon reportedCode 4 = some "int x = 1;\n\r\n\t\nreturn x;\n".toList := by
    decide +kernel
  exact ⟨h, (semicolon_on_one_line h).2.1⟩

end CodeAssist.Offline
