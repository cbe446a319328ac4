import CodeAssist.Text.Line

/-!
Lines of a text, character by character.

A newline ends a line, and so does a carriage return with a newline behind it; any other character
belongs to the line it stands in. So the number of newlines before a text without line ends is the
index of its line (`exists_line_of_newlines`), and the lines of a text up to a newline are read
apart from what follows (`lines_append_newline`).
-/

namespace CodeAssist.Text

open List

variable {c : Char} {ls : List (List Char)} {rest cs word line : List Char}

/-! ## 1. Lines -/

theorem lines_newline (rest : List Char) : lines ('\n' :: rest) = [] :: lines rest := rfl

theorem lines_cons (hnewline : c ≠ '\n') (hcrlf : c = '\r' → rest.head? ≠ some '\n') :
    lines (c :: rest) = (c :: (lines rest).headD []) :: (lines rest).tail := by
  have hrest : ∀ more, c = '\r' → rest = '\n' :: more → False := by
    rintro more hc rfl
    exact hcrlf hc rfl
  rw [lines.eq_4 c rest hnewline hrest]
  cases lines rest <;> rfl

theorem lines_return (h : rest.head? = some '\n') :
    lines ('\r' :: rest) = lines rest := by
  obtain ⟨more, rfl⟩ := head?_eq_some_iff.1 h
  rfl

theorem exists_line (h : cs ≠ []) : ∃ line more, lines cs = line :: more := by
  cases cs with
  | nil => exact absurd rfl h
  | cons c rest =>
    by_cases hnewline : c = '\n'
    · exact ⟨[], lines rest, by rw [hnewline, lines_newline]⟩
    · by_cases hcrlf : c = '\r' ∧ rest.head? = some '\n'
      · obtain ⟨more, rfl⟩ := head?_eq_some_iff.1 hcrlf.2
        exact ⟨[], lines more, by rw [hcrlf.1, lines_return rfl, lines_newline]⟩
      · exact ⟨_, _, lines_cons hnewline fun hc hhead => hcrlf ⟨hc, hhead⟩⟩

theorem newline_not_mem_line (cs : List Char) : ∀ line ∈ lines cs, '\n' ∉ line := by
  induction cs with
  | nil => exact forall_mem_nil _
  | cons c rest ih =>
    by_cases hnewline : c = '\n'
    · rw [hnewline, lines_newline, forall_mem_cons]
      exact ⟨not_mem_nil, ih⟩
    · by_cases hcrlf : c = '\r' ∧ rest.head? = some '\n'
      · rw [hcrlf.1, lines_return hcrlf.2]
        exact ih
      · rw [lines_cons hnewline fun hc hhead => hcrlf ⟨hc, hhead⟩, forall_mem_cons]
        cases hlines : lines rest with
        | nil => simpa using Ne.symm hnewline
        | cons line more =>
          rw [hlines, forall_mem_cons] at ih
          exact ⟨by simpa using ⟨Ne.symm hnewline, ih.1⟩, ih.2⟩

theorem lines_of_not_mem (hne : cs ≠ []) (h : '\n' ∉ cs) : lines cs = [cs] := by
  induction cs with
  | nil => exact absurd rfl hne
  | cons c cs ih =>
    rw [mem_cons, not_or] at h
    have hcrlf : c = '\r' → cs.head? ≠ some '\n' := fun _ hhead => h.2 (mem_of_head? hhead)
    rw [lines_cons (Ne.symm h.1) hcrlf]
    cases cs with
    | nil => rfl
    | cons d cs =>
      rw [ih (cons_ne_nil d cs) h.2]
      rfl

/-- A text without line ends begins the first line of every text that begins with it. -/
theorem lines_word (hword : word ≠ []) (hplain : ∀ c ∈ word, c ≠ '\n' ∧ c ≠ '\r')
    (rest : List Char) :
    ∃ tail more, lines (word ++ rest) = (word ++ tail) :: more := by
  induction word with
  | nil => exact absurd rfl hword
  | cons c word ih =>
    obtain ⟨hc, hrest⟩ := forall_mem_cons.1 hplain
    rw [cons_append, lines_cons hc.1 fun heq => absurd heq hc.2]
    cases word with
    | nil => exact ⟨_, _, rfl⟩
    | cons d word =>
      obtain ⟨tail, more, hlines⟩ := ih (cons_ne_nil _ _) hrest
      rw [hlines]
      exact ⟨tail, more, rfl⟩

/-- A text without line ends stands in one line, after as many lines as there are newlines before
it. -/
theorem exists_line_of_newlines (hword : word ≠ []) (hplain : ∀ c ∈ word, c ≠ '\n' ∧ c ≠ '\r')
    (before rest : List Char) :
    ∃ line, (lines (before ++ (word ++ rest)))[newlines before]? = some line ∧ word <:+: line := by
  induction before with
  | nil =>
    obtain ⟨tail, more, hlines⟩ := lines_word hword hplain rest
    exact ⟨word ++ tail, by rw [nil_append, hlines]; rfl,
      (prefix_append word tail).isInfix⟩
  | cons c before ih =>
    obtain ⟨line, hline, hpart⟩ := ih
    rw [cons_append]
    by_cases hnewline : c = '\n'
    · subst hnewline
      refine ⟨line, ?_, hpart⟩
      rw [lines_newline, newlines, count_cons_self]
      exact hline
    · have hcount : newlines (c :: before) = newlines before := count_cons_of_ne hnewline
      rw [hcount]
      by_cases hcrlf : c = '\r' ∧ (before ++ (word ++ rest)).head? = some '\n'
      · -- the carriage return belongs to the line end after it, and has no line of its own
        obtain ⟨rfl, hhead⟩ := hcrlf
        obtain ⟨more, hmore⟩ := head?_eq_some_iff.1 hhead
        rw [hmore] at hline ⊢
        exact ⟨line, hline, hpart⟩
      · rw [lines_cons hnewline fun hc hhead => hcrlf ⟨hc, hhead⟩]
        cases hlines : lines (before ++ (word ++ rest)) with
        | nil =>
          rw [hlines] at hline
          cases hline
        | cons first more =>
          rw [hlines] at hline
          cases hindex : newlines before with
          | zero =>
            rw [hindex, getElem?_cons_zero] at hline
            obtain rfl := Option.some.inj hline
            exact ⟨c :: first, rfl, hpart.trans (suffix_cons c first).isInfix⟩
          | succ k =>
            rw [hindex] at hline
            exact ⟨line, hline, hpart⟩

/-! ## 2. Line ends -/

theorem lines_append_newline (xs ys : List Char) :
    lines (xs ++ '\n' :: ys) = lines (xs ++ ['\n']) ++ lines ys := by
  induction xs with
  | nil => rfl
  | cons c xs ih =>
    rw [cons_append, cons_append]
    by_cases hnewline : c = '\n'
    · rw [hnewline, lines_newline, lines_newline, ih, cons_append]
    · have hhead : (xs ++ '\n' :: ys).head? = (xs ++ ['\n']).head? := by cases xs <;> rfl
      by_cases hcrlf : c = '\r' ∧ (xs ++ ['\n']).head? = some '\n'
      · rw [hcrlf.1, lines_return (hhead.trans hcrlf.2), lines_return hcrlf.2, ih]
      · have hplain : c = '\r' → (xs ++ ['\n']).head? ≠ some '\n' := fun hc h => hcrlf ⟨hc, h⟩
        obtain ⟨line, more, hlines⟩ := exists_line (show xs ++ ['\n'] ≠ [] by simp)
        rw [lines_cons hnewline (hhead ▸ hplain), lines_cons hnewline hplain, ih, hlines]
        rfl

/-- A newline behind a text that does not end in part of a line end gives no further line. -/
theorem lines_concat_newline {xs : List Char} (hnewline : c ≠ '\n') (hreturn : c ≠ '\r') :
    lines (xs ++ [c] ++ ['\n']) = lines (xs ++ [c]) := by
  induction xs with
  | nil =>
    rw [nil_append, singleton_append, lines_cons hnewline fun h => absurd h hreturn,
      lines_cons hnewline fun h => absurd h hreturn]
    rfl
  | cons d xs ih =>
    simp only [cons_append] at ih ⊢
    by_cases hd : d = '\n'
    · rw [hd, lines_newline, lines_newline, ih]
    · have hhead : (xs ++ [c] ++ ['\n']).head? = (xs ++ [c]).head? := by cases xs <;> rfl
      by_cases hcrlf : d = '\r' ∧ (xs ++ [c]).head? = some '\n'
      · rw [hcrlf.1, lines_return (hhead.trans hcrlf.2), lines_return hcrlf.2, ih]
      · have hplain : d = '\r' → (xs ++ [c]).head? ≠ some '\n' := fun hc h => hcrlf ⟨hc, h⟩
        rw [lines_cons hd (hhead ▸ hplain), lines_cons hd hplain, ih]

theorem exists_piece (sep : Char) (cs : List Char) :
    ∃ piece more, splitAt sep cs = piece :: more := by
  cases cs with
  | nil => exact ⟨[], [], rfl⟩
  | cons c cs =>
    rw [splitAt]
    split
    · exact ⟨_, _, rfl⟩
    · split <;> exact ⟨_, _, rfl⟩

theorem splitAt_cons_of_ne {sep : Char} (h : c ≠ sep) (cs : List Char) :
    ∃ piece more, splitAt sep cs = piece :: more ∧
      splitAt sep (c :: cs) = (c :: piece) :: more := by
  obtain ⟨piece, more, hcs⟩ := exists_piece sep cs
  exact ⟨piece, more, hcs, by rw [splitAt, if_neg (by simpa using h), hcs]⟩

/-- Where no carriage return ends a line, a newline ends each piece between the newlines. -/
theorem lines_pieces (h : ∀ piece ∈ splitAt '\n' cs, piece.getLast? ≠ some '\r') :
    lines (cs ++ ['\n']) = splitAt '\n' cs := by
  induction cs with
  | nil => rfl
  | cons c cs ih =>
    rw [cons_append]
    by_cases hc : c = '\n'
    · rw [hc, splitAt, if_pos (by decide), forall_mem_cons] at h
      rw [hc, lines_newline, splitAt, if_pos (by decide), ih h.2]
    · obtain ⟨piece, more, hcs, hsplit⟩ := splitAt_cons_of_ne hc cs
      rw [hsplit, forall_mem_cons] at h
      have hrest : lines (cs ++ ['\n']) = piece :: more := by
        rw [← hcs]
        refine ih ?_
        rw [hcs, forall_mem_cons]
        refine ⟨fun hlast => h.1 ?_, h.2⟩
        rw [getLast?_cons, hlast]
        rfl
      have hplain : c = '\r' → (cs ++ ['\n']).head? ≠ some '\n' := by
        rintro rfl hhead
        -- the piece would be the carriage return alone
        have hempty : piece = [] := by
          cases cs with
          | nil => exact (cons.inj hcs).1.symm
          | cons d cs =>
            have hd : d = '\n' := Option.some.inj hhead
            rw [hd, splitAt, if_pos (by decide)] at hcs
            exact (cons.inj hcs).1.symm
        rw [hempty] at h
        exact h.1 rfl
      rw [lines_cons hc hplain, hrest, hsplit]
      rfl

/-! ## 3. Joining -/

theorem joinWith_cons (sep : List Char) (c : Char) (line : List Char) (more : List (List Char)) :
    ∃ cs, joinWith sep ((c :: line) :: more) = c :: cs := by
  cases more with
  | nil => exact ⟨line, rfl⟩
  | cons next rest => exact ⟨line ++ sep ++ joinWith sep (next :: rest), rfl⟩

theorem joinWith_append_cons (sep xs ys : List Char) (rest : List (List Char)) :
    joinWith sep ((xs ++ ys) :: rest) = xs ++ joinWith sep (ys :: rest) := by
  cases rest with
  | nil => rfl
  | cons t rest => simp [joinWith]

theorem joinWith_append (sep : List Char) {front back : List (List Char)} (hfront : front ≠ [])
    (hback : back ≠ []) :
    joinWith sep (front ++ back) = joinWith sep front ++ (sep ++ joinWith sep back) := by
  induction front with
  | nil => exact absurd rfl hfront
  | cons t front ih =>
    cases front with
    | nil =>
      cases back with
      | nil => exact absurd rfl hback
      | cons u back => simp [joinWith]
    | cons u front =>
      have hrest := ih (cons_ne_nil u front)
      simp only [cons_append, joinWith] at hrest ⊢
      rw [hrest]
      simp

theorem joinWith_splitAt (sep : Char) (cs : List Char) :
    joinWith [sep] (splitAt sep cs) = cs := by
  induction cs with
  | nil => rfl
  | cons c cs ih =>
    by_cases hc : c = sep
    · obtain ⟨piece, more, hcs⟩ := exists_piece sep cs
      rw [hcs] at ih
      rw [splitAt, if_pos (by simpa using hc), hcs, joinWith, ih, hc]
      · rfl
      · exact cons_ne_nil piece more
    · obtain ⟨piece, more, hcs, hsplit⟩ := splitAt_cons_of_ne hc cs
      have hjoin := joinWith_append_cons [sep] [c] piece more
      rw [← hcs, ih] at hjoin
      rw [hsplit]
      exact hjoin

/-- A character that ends no line is kept where the lines are put together again. -/
theorem joinWith_lines_cons (hnewline : c ≠ '\n') (hcrlf : c = '\r' → rest.head? ≠ some '\n') :
    joinWith ['\n'] (lines (c :: rest)) = c :: joinWith ['\n'] (lines rest) := by
  rw [lines_cons hnewline hcrlf]
  cases hlines : lines rest with
  | nil => rfl
  | cons line more => exact joinWith_append_cons ['\n'] [c] line more

/-- The last line of a text that does not end with a newline is not empty. -/
theorem exists_last_line (hnewline : c ≠ '\n') (cs : List Char) :
    ∃ front line, lines (cs ++ [c]) = front ++ [line ++ [c]] := by
  induction cs with
  | nil => exact ⟨[], [], lines_cons hnewline fun _ h => nomatch h⟩
  | cons d cs ih =>
    obtain ⟨front, line, hlines⟩ := ih
    rw [cons_append]
    by_cases hd : d = '\n'
    · exact ⟨[] :: front, line, by rw [hd, lines_newline, hlines]; rfl⟩
    · by_cases hcrlf : d = '\r' ∧ (cs ++ [c]).head? = some '\n'
      · exact ⟨front, line, by rw [hcrlf.1, lines_return hcrlf.2, hlines]⟩
      · rw [lines_cons hd fun h h' => hcrlf ⟨h, h'⟩, hlines]
        cases front with
        | nil => exact ⟨[], d :: line, rfl⟩
        | cons first front => exact ⟨(d :: first) :: front, line, rfl⟩

theorem getLast?_joinWith {sep : List Char} (h : ls.getLast? = some (line ++ [c])) :
    (joinWith sep ls).getLast? = some c := by
  obtain ⟨front, rfl⟩ := getLast?_eq_some_iff.1 h
  by_cases hfront : front = []
  · simp [hfront, joinWith]
  · simp [joinWith_append sep hfront (cons_ne_nil _ _), joinWith]

theorem joinWith_lines_concat (hnewline : c ≠ '\n') (cs : List Char) :
    ∃ front, joinWith ['\n'] (lines (cs ++ [c])) = front ++ [c] := by
  obtain ⟨front, line, hlines⟩ := exists_last_line hnewline cs
  have hlast : (lines (cs ++ [c])).getLast? = some (line ++ [c]) := by simp [hlines]
  exact getLast?_eq_some_iff.1 (getLast?_joinWith hlast)

/-- An empty line divides a text at the first place where two newlines meet. -/
theorem splitFirst_word (h : '\n' ∉ word) (rest : List Char) :
    splitFirst ['\n', '\n'] (word ++ rest) =
      (splitFirst ['\n', '\n'] rest).map fun parts => (word ++ parts.1, parts.2) := by
  induction word with
  | nil => simp
  | cons c word ih =>
    rw [mem_cons, not_or] at h
    have hc : (['\n', '\n'] : List Char).isPrefixOf (c :: (word ++ rest)) = false := by
      simp [isPrefixOf, beq_false_of_ne h.1]
    rw [cons_append, splitFirst, hc, ih h.2]
    simp [Function.comp_def]

theorem splitFirst_joinWith (hne : ls ≠ []) (h : ∀ line ∈ ls, line ≠ [] ∧ '\n' ∉ line)
    (rest : List Char) :
    splitFirst ['\n', '\n'] (joinWith ['\n'] ls ++ rest) =
      (splitFirst ['\n', '\n'] rest).map fun parts =>
        (joinWith ['\n'] ls ++ parts.1, parts.2) := by
  induction ls with
  | nil => exact absurd rfl hne
  | cons line ls ih =>
    obtain ⟨⟨-, hline⟩, hrest⟩ := forall_mem_cons.1 h
    cases ls with
    | nil => exact splitFirst_word hline rest
    | cons next ls =>
      have hmore := ih (cons_ne_nil next ls) hrest
      obtain ⟨c, next', hnext⟩ := exists_cons_of_ne_nil (hrest next mem_cons_self).1
      have hc : c ≠ '\n' := by
        rintro rfl
        exact (hrest next mem_cons_self).2 (by simp [hnext])
      obtain ⟨cs, hcs⟩ := joinWith_cons ['\n'] c next' ls
      rw [← hnext] at hcs
      have hgap : (['\n', '\n'] : List Char).isPrefixOf ('\n' :: (c :: cs ++ rest)) = false := by
        simp [isPrefixOf, beq_false_of_ne (Ne.symm hc)]
      rw [hcs] at hmore
      rw [joinWith, append_assoc, append_assoc, splitFirst_word hline,
        singleton_append, hcs, splitFirst, hgap, hmore]
      · simp [Function.comp_def]
      · exact cons_ne_nil next ls

/-! ## 4. Texts made of lines -/

/-- What can stand on a line: no newline, and no carriage return at the end. -/
def FitsLine (line : List Char) : Prop :=
  '\n' ∉ line ∧ line.getLast? ≠ some '\r'

theorem fitsLine_nil : FitsLine [] :=
  ⟨not_mem_nil, nofun⟩

theorem lines_fitting (h : FitsLine line) : lines (line ++ ['\n']) = [line] := by
  obtain ⟨hnewline, hreturn⟩ := h
  rcases eq_nil_or_concat line with rfl | ⟨front, c, rfl⟩
  · rfl
  · have hc : c ≠ '\n' := by
      rintro rfl
      exact hnewline (by simp)
    have hc' : c ≠ '\r' := by
      rintro rfl
      exact hreturn (by simp)
    rw [concat_eq_append] at hnewline ⊢
    rw [lines_concat_newline hc hc', lines_of_not_mem (by simp) hnewline]

theorem joinWith_newline (h : ls ≠ []) :
    joinWith ['\n'] (line :: ls) = line ++ '\n' :: joinWith ['\n'] ls := by
  cases ls with
  | nil => exact absurd rfl h
  | cons next ls => simp [joinWith]

/-- The lines of a text are those it was made of, except for an empty one at the end. -/
theorem lines_joinWith (h : ∀ line ∈ ls, FitsLine line) :
    ls = lines (joinWith ['\n'] ls) ∨ ls = lines (joinWith ['\n'] ls) ++ [[]] := by
  induction ls with
  | nil => exact .inl rfl
  | cons line ls ih =>
    obtain ⟨hline, hls⟩ := forall_mem_cons.1 h
    by_cases hne : ls = []
    · subst hne
      by_cases hempty : line = []
      · exact .inr (by rw [hempty]; rfl)
      · exact .inl (lines_of_not_mem hempty hline.1).symm
    · rw [joinWith_newline hne, lines_append_newline, lines_fitting hline]
      exact (ih hls).imp (fun heq => congrArg (line :: ·) heq) (fun heq => congrArg (line :: ·) heq)

theorem joinWith_splice {part : List (List Char)} (hpart : part ≠ [])
    (front back : List (List Char)) :
    joinWith ['\n'] (front ++ joinWith ['\n'] part :: back) =
      joinWith ['\n'] (front ++ (part ++ back)) := by
  have hback : joinWith ['\n'] (joinWith ['\n'] part :: back) = joinWith ['\n'] (part ++ back) := by
    by_cases hne : back = []
    · rw [hne, append_nil]
      rfl
    · rw [joinWith_newline hne, joinWith_append _ hpart hne]
      rfl
  by_cases hne : front = []
  · rw [hne]
    exact hback
  · rw [joinWith_append _ hne (cons_ne_nil _ _), joinWith_append _ hne (by simp [hpart]), hback]

end CodeAssist.Text
