import CodeAssist.Proofs.Offline.Layout
import CodeAssist.Proofs.Offline.Marks

/-!
What the two improvements leave for themselves.

The rule for `main` leaves no bare definition, and the rule for constant prints, which comes behind
it, brings none about (`isMatch_main`, `isMatch_main_prints`). The latter may leave a print. The
text of a call may end in the name of another, `printf("a printf(\n");`, and in the call of `puts`
the quote then stands right behind that name, `puts("a printf(");`. If the text behind goes on as
the rest of a call does, there is a constant print that was none before. That is the only way
(`isMatch_prints_iff`).
-/

namespace CodeAssist.Offline

open Text List Option

variable {c : Char} {gap cs inner last behind left right out text rest front : List Char}
  {before : Option Char}

/-! ## 1. Bare definitions of `main` -/

theorem blanks?_gap (hne : gap ≠ []) (hgap : gap.all isBlank = true) (hc : isBlank c = false)
    (rest : List Char) :
    blanks? (gap ++ c :: rest) = some (c :: rest) := by
  obtain ⟨d, gap, rfl⟩ := exists_cons_of_ne_nil hne
  have hd : isBlank d = true := (Bool.and_eq_true_iff.1 hgap).1
  rw [blanks?, dropBlank_append hgap, dropBlank_cons hc, cons_append, head?_cons,
    any_some, hd, if_pos rfl]

theorem afterChar?_gap (hgap : gap.all isBlank = true) (hc : isBlank c = false) (rest : List Char) :
    afterChar? c (dropBlank (gap ++ c :: rest)) = some rest := by
  rw [dropBlank_append hgap, dropBlank_cons hc, afterChar?, if_pos (beq_self_eq_true c)]

/-- What the pattern for `main` looks for. -/
theorem bareMainPattern_isSome :
    (bareMainPattern before cs).isSome = true ↔
      before.any isWord = false ∧ ∃ gap inner last rest, gap ≠ [] ∧ gap.all isBlank = true ∧
        inner.all isBlank = true ∧ last.all isBlank = true ∧
        cs = bareMain gap inner last ++ rest := by
  have hparts : ∀ gap inner last rest : List Char, bareMain gap inner last ++ rest =
      "int".toList ++
        (gap ++ 'm' :: ("ain".toList ++ (inner ++ '(' :: (last ++ ')' :: rest)))) := by
    intro gap inner last rest
    simp [bareMain]
  have hint : before.any isWord = false → ∀ tail,
      wordStart? "int" before ("int".toList ++ tail) = some tail := by
    intro hbefore tail
    rw [wordStart?, hbefore, after?_append]
    rfl
  constructor
  · intro h
    obtain ⟨⟨new, behind⟩, hmatch⟩ := isSome_iff_exists.1 h
    obtain ⟨gap, inner, last, hgap, hinner, hlast, hcs, -⟩ := bareMainPattern_eq_some hmatch
    have hbefore : before.any isWord = false := by
      refine Bool.eq_false_iff.2 fun hword => ?_
      simp [bareMainPattern, wordStart?, hword] at hmatch
    refine ⟨hbefore, gap, inner, last, behind, ?_, hgap, hinner, hlast, hcs⟩
    rintro rfl
    have hnone : ∀ tail, blanks? ('m' :: tail) = none := fun _ => rfl
    rw [hcs, hparts, bareMainPattern, hint hbefore, bind_eq_bind, bind_some,
      nil_append, hnone] at hmatch
    cases hmatch
  · rintro ⟨hbefore, gap, inner, last, rest, hne, hgap, hinner, hlast, rfl⟩
    have hword : ∀ tail, after? "main".toList ('m' :: ("ain".toList ++ tail)) = some tail :=
      fun tail => after?_append "main".toList tail
    simp only [hparts, bareMainPattern, hint hbefore, hword, bind_eq_bind, bind_some,
      blanks?_gap hne hgap (show isBlank 'm' = false by decide),
      afterChar?_gap hinner (show isBlank '(' = false by decide),
      afterChar?_gap hlast (show isBlank ')' = false by decide), Option.pure_def,
      isSome_some]

/-- The definition, cut at the letter that its replacement begins with. -/
theorem bareMain_cut (gap inner last : List Char) : bareMain gap inner last =
    'i' :: (('n' :: 't' :: (gap ++ ['m', 'a'])) ++
      'i' :: ('n' :: (inner ++ '(' :: (last ++ [')'])))) := by
  simp [bareMain]

/-- A bare definition that goes on in a replaced text went on in the text. -/
theorem replaceFrom_bareMain (hgap : gap.all isBlank = true) (hinner : inner.all isBlank = true)
    (hlast : last.all isBlank = true) (h : 'i' :: replaceFrom bareMainPattern 0 (some 'i') cs =
      bareMain gap inner last ++ behind) : ∃ rest, 'i' :: cs = bareMain gap inner last ++ rest := by
  have hvalue : ∀ before cs new behind, bareMainPattern before cs = some (new, behind) →
      ∃ tail, new = 'i' :: tail := by
    intro before cs new behind hmatch
    obtain ⟨-, -, -, -, -, -, -, rfl⟩ := bareMainPattern_eq_some hmatch
    exact ⟨_, rfl⟩
  have hi : ∀ {gap : List Char}, gap.all isBlank = true → 'i' ∉ gap := not_mem_blank (by decide)
  have hcut : replaceFrom bareMainPattern 0 (some 'i') cs = ('n' :: 't' :: (gap ++ ['m', 'a'])) ++
      'i' :: (('n' :: (inner ++ '(' :: (last ++ [')']))) ++ behind) := by
    rw [(cons.inj h).2]
    simp
  obtain ⟨rest, rfl, hrest⟩ := replaceFrom_eq_append hvalue (by simp [hi hgap]) hcut
  -- within the word `main` no match begins
  have hlast? : (('n' :: 't' :: (gap ++ ['m', 'a'])).getLast?.or (some 'i')) = some 'a' := by
    simp [getLast?_cons, getLast?_append]
  rw [hlast?] at hrest
  obtain ⟨tail, rfl, htail⟩ := replaceFrom_eq_cons hrest fun new behind later hmatch => by
    have hbefore := (bareMainPattern_isSome.1 (isSome_iff_exists.2 ⟨_, hmatch⟩)).1
    exact absurd hbefore (by decide)
  have hend : 'i' ∉ 'n' :: (inner ++ '(' :: (last ++ [')'])) := by
    simp [hi hinner, hi hlast]
  obtain ⟨rest, rfl, -⟩ := replaceFrom_eq_append hvalue hend htail
  exact ⟨rest, by simp [bareMain_cut]⟩

/-- No bare `main` begins inside one that was named. -/
theorem voidMain_not_begun (hnew : voidMain = left ++ right) (hright : right ≠ []) :
    bareMainPattern (left.getLast?.or before) (right ++ out) = none := by
  rw [← not_isSome_iff_eq_none]
  intro h
  obtain ⟨hbefore, gap, inner, last, rest, -, hgap, hinner, hlast, hcs⟩ :=
    bareMainPattern_isSome.1 h
  cases left with
  | nil =>
    -- its own first letter begins one with a name between the brackets
    rw [nil_append] at hnew
    subst hnew
    have hparts : [' '] ++ 'm' :: 'a' :: 'i' :: 'n' ::
          ([] ++ '(' :: ([] ++ 'v' :: ("oid)".toList ++ out))) =
        gap ++ 'm' :: 'a' :: 'i' :: 'n' :: (inner ++ '(' :: (last ++ ')' :: rest)) := by
      simpa [voidMain, bareMain] using hcs
    have hmain := stretch_unique (p := isBlank) (by decide) hgap (by decide) (by decide) hparts
    simp only [cons.injEq, true_and] at hmain
    have hopen := stretch_unique (p := isBlank) rfl hinner (by decide) (by decide) hmain.2
    have hclose := stretch_unique (p := isBlank) rfl hlast (by decide) (by decide) hopen.2.2
    exact absurd hclose.2.1 (by decide)
  | cons c left =>
    -- the others stand within a word
    have hinside : ∀ k < voidMain.length, k ≠ 0 → (voidMain.drop k).head? = some 'i' →
        (voidMain.take k).getLast?.any isWord = true := by decide
    have hhead : right.head? = some 'i' := by
      obtain ⟨d, right, rfl⟩ := exists_cons_of_ne_nil hright
      rw [(cons.inj hcs).1]
      rfl
    have hword := hinside (c :: left).length
    rw [hnew, length_append, drop_left, take_left] at hword
    rw [getLast?_eq_some_getLast (cons_ne_nil c left), some_or,
      ← getLast?_eq_some_getLast, hword (by have := length_pos_iff.2 hright; omega)
        (Nat.succ_ne_zero _) hhead] at hbefore
    cases hbefore

/-- One pass leaves no `main` to name. -/
theorem isMatch_main (cs : List Char) :
    isMatch bareMainPattern (replaceAll bareMainPattern cs) = false := by
  refine isMatch_replaceAll bareMainPattern_reads ?_ ?_ ?_ cs
  · intro before piece behind new h
    obtain ⟨gap, inner, last, -, -, -, hpiece, rfl⟩ := bareMainPattern_eq_some h
    rw [append_cancel_right hpiece, bareMain_eq, getLast?_concat]
    exact ⟨by decide, rfl⟩
  · intro before c rest hnone
    rw [← not_isSome_iff_eq_none] at hnone ⊢
    intro h
    obtain ⟨hbefore, gap, inner, last, behind, hne, hgap, hinner, hlast, hcs⟩ :=
      bareMainPattern_isSome.1 h
    obtain rfl : c = 'i' := (cons.inj hcs).1
    obtain ⟨rest', hrest⟩ := replaceFrom_bareMain hgap hinner hlast hcs
    exact hnone (bareMainPattern_isSome.2
      ⟨hbefore, gap, inner, last, rest', hne, hgap, hinner, hlast, hrest⟩)
  · intro before cs new behind h left right out hnew hright
    obtain ⟨-, -, -, -, -, -, -, rfl⟩ := bareMainPattern_eq_some h
    exact voidMain_not_begun hnew hright

/-! ## 2. Constant prints -/

/-- The text of a constant print and the end of the call. -/
def printRest (text : List Char) : List Char :=
  text ++ ['\\', 'n', '"', ')', ';']

/-- The text ends in the name of a print, and what follows is the rest of that call. So it is once
the literal ends right behind the name. -/
def OpensPrint (text behind : List Char) : Prop :=
  ∃ outer tail rest, text = outer ++ "printf(".toList ∧ outer.getLast?.any isWord = false ∧
    tail.all isConstantChar = true ∧ behind = printRest tail ++ rest

/-- A constant print whose text opens another one. -/
def NestedPrint (cs : List Char) : Prop :=
  ∃ front text behind, cs = front ++ (printCall text ++ behind) ∧
    front.getLast?.any isWord = false ∧ text.all isConstantChar = true ∧ OpensPrint text behind

theorem nestedPrint_iff (cs : List Char) :
    NestedPrint cs ↔ ¬ EachCall (fun _ text behind => ¬ OpensPrint text behind) [] cs := by
  simp only [NestedPrint, EachCall, nil_append, Classical.not_forall, not_not, exists_prop]

theorem constantPrintPattern_isSome :
    (constantPrintPattern before cs).isSome = true ↔
      before.any isWord = false ∧ ∃ text behind, text.all isConstantChar = true ∧
        cs = printCall text ++ behind := by
  constructor
  · intro h
    obtain ⟨⟨new, behind⟩, hmatch⟩ := isSome_iff_exists.1 h
    obtain ⟨text, hbefore, htext, hcs, -⟩ := constantPrintPattern_eq_some hmatch
    exact ⟨hbefore, text, behind, htext, hcs⟩
  · rintro ⟨hbefore, text, behind, htext, rfl⟩
    rw [constantPrintPattern_printCall hbefore htext]
    rfl

/-- A constant text ends at its first quote or backslash, so it cannot end at both. -/
theorem quote_ne_backslash {name more : List Char} (hname : name.all isConstantChar = true)
    (htext : text.all isConstantChar = true) :
    name ++ '"' :: more ≠ text ++ '\\' :: rest := by
  intro h
  exact absurd (stretch_unique hname htext (by decide) (by decide) h).2.1 (by decide)

theorem constantPrintPattern_text (htext : text.all isConstantChar = true) (before : Option Char)
    (rest : List Char) :
    constantPrintPattern before (text ++ '\\' :: rest) = none := by
  rw [← not_isSome_iff_eq_none, constantPrintPattern_isSome]
  rintro ⟨-, inner, behind, -, hcs⟩
  have hname : "printf(".toList.all isConstantChar = true := by decide
  exact quote_ne_backslash hname htext hcs.symm

theorem constantPrintPattern_cons (hc : c ≠ 'p') (before : Option Char) (rest : List Char) :
    constantPrintPattern before (c :: rest) = none := by
  rw [← not_isSome_iff_eq_none, constantPrintPattern_isSome]
  rintro ⟨-, inner, behind, -, hcs⟩
  exact hc (cons.inj hcs).1

/-- The rest of a print stays as it is. -/
theorem replaceFrom_printRest (htext : text.all isConstantChar = true) (before : Option Char)
    (rest : List Char) :
    replaceFrom constantPrintPattern 0 before (printRest text ++ rest) =
      printRest text ++ replaceFrom constantPrintPattern 0 (some ';') rest := by
  induction text generalizing before with
  | nil =>
    simp only [printRest, nil_append, cons_append]
    rw [replaceFrom_keep (constantPrintPattern_cons (by decide) _ _),
      replaceFrom_keep (constantPrintPattern_cons (by decide) _ _),
      replaceFrom_keep (constantPrintPattern_cons (by decide) _ _),
      replaceFrom_keep (constantPrintPattern_cons (by decide) _ _),
      replaceFrom_keep (constantPrintPattern_cons (by decide) _ _)]
  | cons c text ih =>
    have hnone : constantPrintPattern before (c :: (printRest text ++ rest)) = none := by
      have hhere := constantPrintPattern_text htext before ('n' :: '"' :: ')' :: ';' :: rest)
      simpa [printRest] using hhere
    have hcons : printRest (c :: text) = c :: printRest text := rfl
    rw [hcons, cons_append, replaceFrom_keep hnone, ih (Bool.and_eq_true_iff.1 htext).2,
      cons_append]

theorem putsCall_begins (before : Option Char) (cs new behind : List Char)
    (h : constantPrintPattern before cs = some (new, behind)) : ∃ tail, new = 'p' :: tail := by
  obtain ⟨text, -, -, -, rfl⟩ := constantPrintPattern_eq_some h
  exact ⟨_, rfl⟩

/-- What replacing leaves as the rest of a print was that before. -/
theorem replaceFrom_eq_printRest (htext : text.all isConstantChar = true)
    (h : replaceFrom constantPrintPattern 0 before cs = printRest text ++ out) :
    ∃ rest, cs = printRest text ++ rest ∧
      replaceFrom constantPrintPattern 0 (some ';') rest = out := by
  induction text generalizing before cs with
  | nil =>
    exact replaceFrom_eq_append putsCall_begins (by decide) h
  | cons c text ih =>
    have hcons : printRest (c :: text) = c :: printRest text := rfl
    rw [hcons, cons_append] at h
    obtain ⟨more, rfl, hmore⟩ := replaceFrom_eq_cons h fun new behind later hmatch => by
      obtain ⟨inner, -, -, -, rfl⟩ := constantPrintPattern_eq_some hmatch
      have hname : "puts(".toList.all isConstantChar = true := by decide
      intro hsame
      have hquote : "puts(".toList ++ '"' :: (inner ++ ['"', ')', ';'] ++ later) =
          (c :: text) ++ '\\' :: ('n' :: '"' :: ')' :: ';' :: out) := by
        simpa [putsCall, putsStart, printRest] using hsame
      exact quote_ne_backslash hname htext hquote
    obtain ⟨rest, rfl, hrest⟩ := ih (Bool.and_eq_true_iff.1 htext).2 hmore
    exact ⟨rest, rfl, hrest⟩

theorem constantPrintPattern_keep (h : constantPrintPattern before (c :: rest) = none) :
    constantPrintPattern before (c :: replaceFrom constantPrintPattern 0 (some c) rest) = none := by
  rw [← not_isSome_iff_eq_none, constantPrintPattern_isSome] at h ⊢
  rintro ⟨hbefore, text, behind, htext, hcs⟩
  obtain rfl : c = 'p' := (cons.inj hcs).1
  have htail : replaceFrom constantPrintPattern 0 (some 'p') rest =
      printStart.tail ++ (printRest text ++ behind) := by
    rw [(cons.inj hcs).2]
    simp [printStart, printRest]
  obtain ⟨more, rfl, hmore⟩ := replaceFrom_eq_append putsCall_begins (by decide) htail
  obtain ⟨rest, rfl, -⟩ := replaceFrom_eq_printRest htext hmore
  exact h ⟨hbefore, text, rest, htext, by simp [printCall, printStart, printRest]⟩

theorem opensPrint_replaceFrom (text behind : List Char) :
    OpensPrint text (replaceFrom constantPrintPattern 0 (some ';') behind) ↔
      OpensPrint text behind := by
  constructor
  · rintro ⟨outer, tail, out, htext, hword, htail, hbehind⟩
    obtain ⟨rest, rfl, -⟩ := replaceFrom_eq_printRest htail hbehind
    exact ⟨outer, tail, rest, htext, hword, htail, rfl⟩
  · rintro ⟨outer, tail, rest, htext, hword, htail, rfl⟩
    exact ⟨outer, tail, _, htext, hword, htail, replaceFrom_printRest htail _ rest⟩

theorem getLast?_printCall (text : List Char) : (printCall text).getLast? = some ';' := by
  simp [printCall, getLast?_append]

theorem getLast?_putsCall (text : List Char) : (putsCall text).getLast? = some ';' := by
  simp [putsCall, getLast?_append]

/-- The places of a call of `puts`: in its name, in its text, in its end. -/
theorem putsCall_split (h : putsCall text = left ++ right) (hright : right ≠ []) :
    (∃ start, start ≠ [] ∧ putsStart = left ++ start ∧ right = start ++ (text ++ ['"', ')', ';'])) ∨
      (∃ outer inner, text = outer ++ inner ∧ left = putsStart ++ outer ∧
        right = inner ++ ['"', ')', ';']) ∨
      ∃ c tail, c ∈ ['"', ')', ';'] ∧ right = c :: tail := by
  have hbehind : ∀ outer, left = putsStart ++ outer → text ++ ['"', ')', ';'] = outer ++ right →
      (∃ outer inner, text = outer ++ inner ∧ left = putsStart ++ outer ∧
        right = inner ++ ['"', ')', ';']) ∨ ∃ c tail, c ∈ ['"', ')', ';'] ∧ right = c :: tail := by
    intro outer hleft houter
    rcases append_eq_append_iff.1 houter with ⟨late, -, hend⟩ | ⟨inner, htext, hinner⟩
    · obtain ⟨c, tail, rfl⟩ := exists_cons_of_ne_nil hright
      exact .inr ⟨c, tail, by simp [hend], rfl⟩
    · exact .inl ⟨outer, inner, htext, hleft, hinner⟩
  rcases append_eq_append_iff.1 h with ⟨outer, hleft, houter⟩ | ⟨start, hstart, hrest⟩
  · exact .inr (hbehind outer hleft houter)
  · cases start with
    | nil => exact .inr (hbehind [] (by simpa using hstart.symm) hrest.symm)
    | cons c start => exact .inl ⟨c :: start, cons_ne_nil c start, hstart, hrest⟩

theorem any_isWord_quoted {start : List Char} (hstart : start.getLast? = some '"')
    (front outer : List Char) :
    (front ++ (start ++ outer)).getLast?.any isWord = outer.getLast?.any isWord := by
  rw [getLast?_append, getLast?_append, hstart]
  cases outer.getLast? <;> rfl

/-- Between the brackets of a call of `puts` stands no constant print but the one that its text
opens. -/
theorem OpensPrint.of_isSome (htext : text.all isConstantChar = true)
    (hsplit : putsCall text = left ++ right) (hright : right ≠ [])
    (h : (constantPrintPattern (front ++ left).getLast? (right ++ out)).isSome = true) :
    OpensPrint text out := by
  obtain ⟨hword, inner, behind, hinner, hcall⟩ := constantPrintPattern_isSome.1 h
  rcases putsCall_split hsplit hright with
    ⟨start, hne, hstart, rfl⟩ | ⟨outer, name, rfl, rfl, rfl⟩ | ⟨c, tail, hc, rfl⟩
  · obtain ⟨c, start, rfl⟩ := exists_cons_of_ne_nil hne
    obtain rfl : c = 'p' := (cons.inj hcall).1
    cases left with
    | nil =>
      obtain rfl : start = putsStart.tail := (cons.inj hstart).2.symm
      cases (cons.inj (cons.inj hcall).2).1
    | cons d left =>
      have hmem : 'p' ∈ putsStart.tail := by simp [hstart]
      exact absurd hmem (by decide)
  · have hquote : name ++ '"' :: (')' :: ';' :: out) =
        "printf(".toList ++ '"' :: (printRest inner ++ behind) := by
      simpa [printCall, printStart, printRest] using hcall
    rw [all_append, Bool.and_eq_true] at htext
    obtain ⟨rfl, -, hrest⟩ := stretch_unique htext.2 (by decide) (by decide) (by decide) hquote
    -- the text of the inner call begins with what closed the outer one
    obtain ⟨tail, rfl⟩ : ∃ tail, inner = ')' :: ';' :: tail := by
      rcases inner with _ | ⟨c, _ | ⟨d, tail⟩⟩ <;> simp only [printRest, nil_append,
        cons_append, cons.injEq] at hrest
      · exact absurd hrest.1 (by decide)
      · exact absurd hrest.2.1 (by decide)
      · exact ⟨tail, by rw [hrest.1, hrest.2.1]⟩
    rw [all_cons, all_cons, Bool.and_eq_true, Bool.and_eq_true] at hinner
    rw [any_isWord_quoted rfl] at hword
    exact ⟨outer, tail, behind, rfl, hword, hinner.2.2, (cons.inj (cons.inj hrest).2).2⟩
  · obtain rfl : c = 'p' := (cons.inj hcall).1
    exact absurd hc (by decide)

/-- Behind a call of `puts` the next constant print is looked for, unless one opens in its text. -/
theorem firstFrom_putsCall (htext : text.all isConstantChar = true) (front out : List Char) :
    firstFrom constantPrintPattern front.getLast? (putsCall text ++ out) = none ↔
      ¬ OpensPrint text out ∧ firstFrom constantPrintPattern (some ';') out = none := by
  constructor
  · intro h
    constructor
    · rintro ⟨outer, tail, rest, rfl, hword, htail, rfl⟩
      rw [firstFrom_eq_none_iff constantPrintPattern_reads] at h
      have hcall := h (putsStart ++ outer) (printCall (')' :: ';' :: tail) ++ rest)
        (by simp [putsCall, printCall, printStart, printRest])
      rw [constantPrintPattern_printCall (by rwa [any_isWord_quoted rfl])
        (by rw [all_cons, all_cons, htail]; rfl)] at hcall
      cases hcall
    · have hlater := firstFrom_append constantPrintPattern_reads h
      rwa [getLast?_append, getLast?_putsCall, some_or] at hlater
  · rintro ⟨hopens, hlater⟩
    refine firstFrom_append_eq_none (fun left right hsplit hright => ?_) ?_
    · rw [← getLast?_append, ← not_isSome_iff_eq_none]
      exact fun h => hopens (.of_isSome htext hsplit hright h)
    · rwa [getLast?_putsCall]

/-- The rule for constant prints leaves one if and only if the text of one opened another. -/
theorem isMatch_prints_iff (cs : List Char) :
    isMatch constantPrintPattern (replaceAll constantPrintPattern cs) = true ↔ NestedPrint cs := by
  have hwalk := replaceFrom_induct constantPrintPattern_reads (motive := fun front cs =>
    firstFrom constantPrintPattern front.getLast?
        (replaceFrom constantPrintPattern 0 front.getLast? cs) = none ↔
      EachCall (fun _ text behind => ¬ OpensPrint text behind) front cs)
  rw [nestedPrint_iff, ← hwalk ?_ ?_ ?_ [] cs, isMatch, firstMatch, isSome_iff_ne_none]
  · rfl
  · exact fun front => iff_of_true rfl (eachCall_nil front)
  · intro front c rest hkeep ih
    rw [Text.getLast?_append_of_ne_nil front (cons_ne_nil c [])] at ih
    rw [replaceFrom_keep hkeep, firstFrom_cons_eq_none, eachCall_keep hkeep, ← ih]
    exact and_iff_right (constantPrintPattern_keep hkeep)
  · intro front piece behind new hpiece hmatch ih
    rw [Text.getLast?_append_of_ne_nil front hpiece] at ih
    rw [replaceFrom_swap hpiece hmatch]
    obtain ⟨text, hbefore, htext, hread, rfl⟩ := constantPrintPattern_eq_some hmatch
    obtain rfl := append_cancel_right hread
    rw [getLast?_printCall] at ih ⊢
    rw [firstFrom_putsCall htext, opensPrint_replaceFrom, eachCall_call htext hbefore, ih]

/-! ## 3. Definitions of `main` behind the rule for prints -/

theorem not_mem_bareMain (hc : isBlank c = false) (hletters : c ∉ "intmain(".toList)
    (hclose : c ≠ ')') (hgap : gap.all isBlank = true) (hinner : inner.all isBlank = true)
    (hlast : last.all isBlank = true) :
    c ∉ bareMain gap inner last := by
  rw [bareMain_eq, mem_append, mem_singleton, not_or]
  exact ⟨not_mem_openMain hc hletters hgap hinner hlast, hclose⟩

/-- A bare `main` that begins inside a call of `puts` begins inside its text. -/
theorem bareMain_in_puts (hsplit : putsCall text = left ++ right) (hright : right ≠ [])
    (hgap : gap.all isBlank = true) (hinner : inner.all isBlank = true)
    (hlast : last.all isBlank = true) (h : right ++ out = bareMain gap inner last ++ rest) :
    ∃ outer more, text = outer ++ (bareMain gap inner last ++ more) ∧
      left = putsStart ++ outer := by
  have hquote : '"' ∉ bareMain gap inner last :=
    not_mem_bareMain (by decide) (by decide) (by decide) hgap hinner hlast
  rcases putsCall_split hsplit hright with
    ⟨start, hne, hstart, rfl⟩ | ⟨outer, tail, rfl, rfl, rfl⟩ | ⟨c, tail, hc, rfl⟩
  · obtain ⟨c, start, rfl⟩ := exists_cons_of_ne_nil hne
    obtain rfl : c = 'i' := (cons.inj h).1
    have hmem : 'i' ∈ putsStart := by simp [hstart]
    exact absurd hmem (by decide)
  · rw [append_assoc] at h
    rcases append_eq_append_iff.1 h with ⟨late, hlate, hend⟩ | ⟨more, rfl, -⟩
    · cases late with
      | nil => exact ⟨outer, [], by simp [hlate], rfl⟩
      | cons d late =>
        obtain rfl : '"' = d := (cons.inj hend).1
        exact absurd (hlate ▸ by simp) hquote
    · exact ⟨outer, more, rfl, rfl⟩
  · obtain rfl : c = 'i' := (cons.inj h).1
    exact absurd hc (by decide)

/-- A bare definition that begins with a kept character was kept. -/
theorem bareMainPattern_keep (h : bareMainPattern before (c :: rest) = none) :
    bareMainPattern before (c :: replaceFrom constantPrintPattern 0 (some c) rest) = none := by
  rw [← not_isSome_iff_eq_none, bareMainPattern_isSome] at h ⊢
  rintro ⟨hbefore, gap, inner, last, out, hne, hgap, hinner, hlast, hcs⟩
  have hp : 'p' ∉ bareMain gap inner last :=
    not_mem_bareMain (by decide) (by decide) (by decide) hgap hinner hlast
  rw [bareMain_cut, mem_cons, not_or] at hp
  rw [bareMain_cut] at hcs
  obtain ⟨rfl, htail⟩ := cons.inj hcs
  obtain ⟨more, rfl, -⟩ := replaceFrom_eq_append putsCall_begins hp.2 htail
  exact h ⟨hbefore, gap, inner, last, more, hne, hgap, hinner, hlast, by simp [bareMain_cut]⟩

theorem bareMainPattern_putsCall
    (h : firstFrom bareMainPattern front.getLast? (printCall text ++ behind) = none)
    (hsplit : putsCall text = left ++ right) (hright : right ≠ []) :
    bareMainPattern (front ++ left).getLast? (right ++ out) = none := by
  rw [← not_isSome_iff_eq_none, bareMainPattern_isSome]
  rintro ⟨hword, gap, inner, last, rest, hne, hgap, hinner, hlast, hcs⟩
  obtain ⟨outer, more, rfl, rfl⟩ := bareMain_in_puts hsplit hright hgap hinner hlast hcs
  rw [any_isWord_quoted rfl] at hword
  -- the same text stood in the call that was replaced, and behind a quote as well
  rw [firstFrom_eq_none_iff bareMainPattern_reads] at h
  have hprint := h (printStart ++ outer)
    (bareMain gap inner last ++ (printRest more ++ behind)) (by simp [printCall, printRest])
  rw [← not_isSome_iff_eq_none, bareMainPattern_isSome, any_isWord_quoted rfl] at hprint
  exact hprint ⟨hword, gap, inner, last, _, hne, hgap, hinner, hlast, rfl⟩

/-- The rule for constant prints brings no bare definition about. -/
theorem isMatch_main_prints (h : isMatch bareMainPattern cs = false) :
    isMatch bareMainPattern (replaceAll constantPrintPattern cs) = false := by
  have hwalk := replaceFrom_induct constantPrintPattern_reads (motive := fun front cs =>
    firstFrom bareMainPattern front.getLast? cs = none →
      firstFrom bareMainPattern front.getLast?
        (replaceFrom constantPrintPattern 0 front.getLast? cs) = none)
  rw [isMatch, firstMatch, isSome_eq_false_iff, isNone_iff_eq_none] at h ⊢
  refine hwalk (fun _ _ => rfl) ?_ ?_ [] cs h
  · intro front c rest hkeep ih hnone
    rw [Text.getLast?_append_of_ne_nil front (cons_ne_nil c [])] at ih
    rw [firstFrom_cons_eq_none] at hnone
    rw [replaceFrom_keep hkeep, firstFrom_cons_eq_none]
    exact ⟨bareMainPattern_keep hnone.1, ih hnone.2⟩
  · intro front piece behind new hpiece hmatch ih hnone
    have hlater := ih (firstFrom_append bareMainPattern_reads hnone)
    rw [replaceFrom_swap hpiece hmatch]
    obtain ⟨text, -, -, hread, rfl⟩ := constantPrintPattern_eq_some hmatch
    obtain rfl := append_cancel_right hread
    rw [getLast?_append, getLast?_printCall, some_or] at hlater
    rw [getLast?_printCall]
    refine firstFrom_append_eq_none (fun left right hsplit hright => ?_) ?_
    · rw [← getLast?_append]
      exact bareMainPattern_putsCall hnone hsplit hright
    · rwa [getLast?_putsCall]

end CodeAssist.Offline
