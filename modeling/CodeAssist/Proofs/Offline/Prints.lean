import CodeAssist.Proofs.Offline.Rewriting

/-!
Constant prints that become calls of `puts`, and the literals and comments of a text.

The rule for constant prints works on the whole text. A call in code has one literal, its argument,
and so has the call in its place. A call in a mark is text of the mark, and the scanner sees that
its name changes. Between these is a call whose text runs over the end of a line: a literal ends
there, so that the quote behind the text opens another one. Then no mark changes if that quote
stands in code, and else one does that is no argument.
-/

namespace CodeAssist.Offline

open Text List Option Mode

variable {c d : Char} {cs new behind front old out piece text' behind' : List Char}

/-! ## 1. Calls -/

def printStart : List Char :=
  ['p', 'r', 'i', 'n', 't', 'f', '(', '"']

def printCall (text : List Char) : List Char :=
  printStart ++ (text ++ ['\\', 'n', '"', ')', ';'])

def putsStart : List Char :=
  ['p', 'u', 't', 's', '(', '"']

def putsCall (text : List Char) : List Char :=
  putsStart ++ (text ++ ['"', ')', ';'])

def printLiteral (text : List Char) : Segment :=
  ⟨.stringLiteral, '"' :: (text ++ ['\\', 'n', '"'])⟩

def putsLiteral (text : List Char) : Segment :=
  ⟨.stringLiteral, '"' :: (text ++ ['"'])⟩

/-- Every constant print begins in code, and its text stands on one line or ends in code again. -/
def PrintsInCode (cs : List Char) : Prop :=
  ∀ front text behind, cs = front ++ (printCall text ++ behind) →
    front.getLast?.any isWord = false → text.all isConstantChar = true →
    lastKind front = .code ∧
      ('\n' ∉ text ∨ lastKind (front ++ (printStart ++ text)) = .code)

/-- A part of a text, what it became, and the text of the constant print behind it. -/
structure PrintedPart where
  old : List Char
  new : List Char
  text : List Char

/-- The texts are parts with the same literals and comments and, between the parts, constant prints
in the one and calls of `puts` in the other. But for the arguments of these calls, the texts have
the literals and comments of the parts. -/
def PutsInstead (old new : List Char) : Prop :=
  ∃ (parts : List PrintedPart) (last last' : List Char),
    (∀ e ∈ parts, marks e.new = marks e.old ∧ e.text.all isConstantChar = true ∧ '\n' ∉ e.text) ∧
    marks last' = marks last ∧
    old = parts.flatMap (fun e => e.old ++ printCall e.text) ++ last ∧
    new = parts.flatMap (fun e => e.new ++ putsCall e.text) ++ last' ∧
    marks old = parts.flatMap (fun e => marks e.old ++ [printLiteral e.text]) ++ marks last ∧
    marks new = parts.flatMap (fun e => marks e.old ++ [putsLiteral e.text]) ++ marks last

theorem constantPrintPattern_eq_some {before : Option Char}
    (h : constantPrintPattern before cs = some (new, behind)) :
    ∃ text, before.any isWord = false ∧ text.all isConstantChar = true ∧
      cs = printCall text ++ behind ∧ new = putsCall text := by
  simp only [constantPrintPattern, bind_eq_bind, bind_eq_some_iff, Option.pure_def,
    some.injEq, Prod.mk.injEq] at h
  obtain ⟨rest, hstart, tail, hend, rfl, rfl⟩ := h
  have hrest : rest = rest.takeWhile isConstantChar ++ (['\\', 'n', '"', ')', ';'] ++ tail) := by
    have hdrop := after?_eq_some hend
    simp only [String.reduceToList] at hdrop
    rw [← hdrop, takeWhile_append_dropWhile]
  refine ⟨rest.takeWhile isConstantChar, wordStart?_boundary hstart, all_takeWhile, ?_, ?_⟩
  · rw [wordStart?_eq_some hstart]
    simp only [printCall, printStart, String.reduceToList, append_assoc, ← hrest]
  · simp only [putsCall, putsStart, String.reduceToList, append_assoc]

theorem constantPrintPattern_reads : constantPrintPattern.Reads := by
  intro before cs new behind h
  obtain ⟨text, -, -, hcs, -⟩ := constantPrintPattern_eq_some h
  exact ⟨printCall text, cons_ne_nil _ _, hcs⟩

theorem preferPuts_related {r : List Char → List Char → Prop} (hr : PartByPart r)
    (h : ∀ text : List Char, text.all isConstantChar = true → r (printCall text) (putsCall text))
    (cs : List Char) : r cs (preferPuts cs) := by
  rw [preferPuts]
  split
  · refine hr.replaceAll constantPrintPattern_reads (fun _ _ _ _ hmatch => ?_) cs
    obtain ⟨text, -, htext, hpiece, rfl⟩ := constantPrintPattern_eq_some hmatch
    rw [append_cancel_right hpiece]
    exact h text htext
  · exact hr.refl cs

/-! ## 2. Calls in code -/

variable {m : Mode}

theorem scan_callStart (hm : m.kind = .code) {name : List Char} (hne : name ≠ [])
    (hname : name.all isPlain = true) (cs : List Char) :
    scan m (name ++ ('"' :: cs)) =
        .opening .stringLiteral :: .inside '"' :: scan (.literal .string) cs ∧
      modeAfter m (name ++ ('"' :: cs)) = modeAfter (.literal .string) cs := by
  obtain ⟨hscan, hmode⟩ := scan_plain hm hne hname
  rw [scan_append, modeAfter_append, hscan, hmode]
  exact ⟨rfl, rfl⟩

theorem scan_printStart (hm : m.kind = .code) (cs : List Char) :
    scan m (printStart ++ cs) =
        .opening .stringLiteral :: .inside '"' :: scan (.literal .string) cs ∧
      modeAfter m (printStart ++ cs) = modeAfter (.literal .string) cs :=
  scan_callStart hm (cons_ne_nil 'p' ['r', 'i', 'n', 't', 'f', '(']) (by decide) cs

theorem scan_putsStart (hm : m.kind = .code) (cs : List Char) :
    scan m (putsStart ++ cs) =
        .opening .stringLiteral :: .inside '"' :: scan (.literal .string) cs ∧
      modeAfter m (putsStart ++ cs) = modeAfter (.literal .string) cs :=
  scan_callStart hm (cons_ne_nil 'p' ['u', 't', 's', '(']) (by decide) cs

theorem step_constant (hc : isConstantChar c = true) (hline : c ≠ '\n') :
    (literal .string).step c = .literal .string := by
  simp only [isConstantChar, Bool.and_eq_true, bne_iff_ne] at hc
  simp [step, LiteralKind.quote, hc.1.2, hc.2, hline]

variable {text : List Char}

theorem scan_constant (htext : text.all isConstantChar = true) (hline : '\n' ∉ text)
    (cs : List Char) :
    scan (.literal .string) (text ++ cs) = text.map .inside ++ scan (.literal .string) cs ∧
      modeAfter (.literal .string) (text ++ cs) = modeAfter (.literal .string) cs := by
  induction text with
  | nil => exact ⟨rfl, rfl⟩
  | cons c text ih =>
    rw [all_cons, Bool.and_eq_true] at htext
    rw [mem_cons, not_or] at hline
    obtain ⟨hscan, hmode⟩ := ih htext.2 hline.2
    rw [cons_append, scan_cons, modeAfter_cons, step_constant htext.1 (Ne.symm hline.1), hscan,
      hmode]
    exact ⟨rfl, rfl⟩

/-- A call with a constant text on one line has one mark, and code behind it. -/
theorem scan_printCall (htext : text.all isConstantChar = true) (hline : '\n' ∉ text) (m : Mode)
    (hm : m.kind = .code) :
    scan m (printCall text) = (printLiteral text).tokens ∧
      modeAfter m (printCall text) = .code := by
  obtain ⟨hstart, hstart'⟩ := scan_printStart hm (text ++ ['\\', 'n', '"', ')', ';'])
  obtain ⟨hconst, hconst'⟩ := scan_constant htext hline ['\\', 'n', '"', ')', ';']
  rw [printCall, hstart, hstart', hconst, hconst']
  refine ⟨?_, rfl⟩
  simp [printLiteral, Segment.tokens, Segment.isMark, emit, emitCode, step,
    stepCode, LiteralKind.quote, apostrophe]

theorem scan_putsCall (htext : text.all isConstantChar = true) (hline : '\n' ∉ text) (m : Mode)
    (hm : m.kind = .code) :
    scan m (putsCall text) = (putsLiteral text).tokens ∧ modeAfter m (putsCall text) = .code := by
  obtain ⟨hstart, hstart'⟩ := scan_putsStart hm (text ++ ['"', ')', ';'])
  obtain ⟨hconst, hconst'⟩ := scan_constant htext hline ['"', ')', ';']
  rw [putsCall, hstart, hstart', hconst, hconst']
  refine ⟨?_, rfl⟩
  simp [putsLiteral, Segment.tokens, Segment.isMark, emit, emitCode, step,
    stepCode, LiteralKind.quote, apostrophe]

/-- Where the text breaks off its literal and ends in code, the two calls have the same marks: the
quote behind the text opens another literal. -/
theorem scan_brokenCall (hm : m.kind = .code)
    (hend : (modeAfter (.literal .string) text).kind = .code) :
    scan m (putsCall text) = scan m (printCall text) ∧
      modeAfter m (putsCall text) = modeAfter m (printCall text) := by
  obtain ⟨hprint, hprint'⟩ := scan_printStart hm (text ++ ['\\', 'n', '"', ')', ';'])
  obtain ⟨hputs, hputs'⟩ := scan_putsStart hm (text ++ ['"', ')', ';'])
  rw [printCall, putsCall, hprint, hprint', hputs, hputs', scan_append, scan_append,
    modeAfter_append, modeAfter_append]
  rcases kind_eq_code.1 hend with hcode | hcode <;> rw [hcode] <;> exact ⟨rfl, rfl⟩

theorem marks_congr {ds : List Char} (h : scan .code cs = scan .code ds) : marks cs = marks ds :=
  marks_eq isMark_of_mem_marks (by rw [h, marks_tokens])

theorem marks_call {call : List Char} {s : Segment} (hs : s.isMark = true)
    (hfront : (modeAfter .code front).kind = .code)
    (hcall : ∀ m : Mode, m.kind = .code → scan m call = s.tokens ∧ modeAfter m call = .code)
    (behind : List Char) :
    marks (front ++ (call ++ behind)) = marks front ++ s :: marks behind := by
  obtain ⟨hscan, hmode⟩ := hcall _ hfront
  refine marks_eq ?_ ?_
  · intro t ht
    rcases mem_append.1 ht with hleft | hright
    · exact isMark_of_mem_marks t hleft
    · rcases mem_cons.1 hright with rfl | hlater
      · exact hs
      · exact isMark_of_mem_marks t hlater
  · rw [scan_append, scan_append, hscan, hmode, flatMap_append, flatMap_cons,
      marks_tokens, marks_tokens]

theorem PutsInstead.of_marks (h : marks new = marks old) :
    PutsInstead old new :=
  ⟨[], old, new, fun _ he => absurd he not_mem_nil, h, rfl, rfl, rfl, h⟩

theorem PutsInstead.call {text : List Char} (hscan : scan .code new = scan .code old)
    (hmode : modeAfter .code new = modeAfter .code old) (hold : (modeAfter .code old).kind = .code)
    (htext : text.all isConstantChar = true) (hline : '\n' ∉ text) (h : PutsInstead behind out) :
    PutsInstead (old ++ (printCall text ++ behind)) (new ++ (putsCall text ++ out)) := by
  obtain ⟨parts, last, last', hparts, hlast, rfl, rfl, hbehind, hout⟩ := h
  have hmarks := marks_congr hscan
  refine ⟨⟨old, new, text⟩ :: parts, last, last', ?_, hlast, ?_, ?_, ?_, ?_⟩
  · exact forall_mem_cons.2 ⟨⟨hmarks, htext, hline⟩, hparts⟩
  · simp
  · simp
  · rw [marks_call rfl hold (scan_printCall htext hline), hbehind]
    simp
  · rw [marks_call rfl (hmode ▸ hold) (scan_putsCall htext hline), hout, hmarks]
    simp

/-- Every constant print of `cs`, which follows `front`, is one that `p` holds of: of the text
before it, its own text and the text behind it. -/
def EachCall (p : List Char → List Char → List Char → Prop) (front cs : List Char) : Prop :=
  ∀ more text behind, cs = more ++ (printCall text ++ behind) →
    (front ++ more).getLast?.any isWord = false → text.all isConstantChar = true →
    p (front ++ more) text behind

theorem EachCall.append {p : List Char → List Char → List Char → Prop}
    (h : EachCall p front (piece ++ behind)) :
    EachCall p (front ++ piece) behind := by
  intro more text rest hbehind
  have hhere := h (piece ++ more) text rest (by rw [hbehind, append_assoc])
  rwa [← append_assoc] at hhere

/-- `PrintsInCode` for what follows a text. -/
def PrintsFrom (front cs : List Char) : Prop :=
  ∀ more text behind, cs = more ++ (printCall text ++ behind) →
    (front ++ more).getLast?.any isWord = false → text.all isConstantChar = true →
    (modeAfter .code (front ++ more)).kind = .code ∧
      ('\n' ∉ text ∨ (modeAfter .code (front ++ more ++ (printStart ++ text))).kind = .code)

theorem printsInCode_iff (cs : List Char) : PrintsInCode cs ↔ PrintsFrom [] cs := by
  simp only [PrintsInCode, PrintsFrom, lastKind_eq, nil_append]

theorem printsFrom_iff (front cs : List Char) : PrintsFrom front cs ↔
    EachCall (fun before text _ => (modeAfter .code before).kind = .code ∧
      ('\n' ∉ text ∨ (modeAfter .code (before ++ (printStart ++ text))).kind = .code)) front cs :=
  Iff.rfl

theorem PrintsFrom.append (h : PrintsFrom front (piece ++ behind)) :
    PrintsFrom (front ++ piece) behind :=
  (printsFrom_iff _ _).2 ((printsFrom_iff _ _).1 h).append

/-- Constant prints in code become calls of `puts`, and no other mark changes. -/
theorem putsInstead_replaceAll (h : PrintsInCode cs) :
    PutsInstead cs (replaceAll constantPrintPattern cs) := by
  -- `old` is what follows the last call that was rewritten, and `new` what it became
  have hwalk := replaceAll_induct constantPrintPattern_reads
    (motive := fun front cs out => PrintsFrom front cs → ∀ old new,
      modeAfter .code old = modeAfter .code front → scan .code new = scan .code old →
      modeAfter .code new = modeAfter .code old → PutsInstead (old ++ cs) (new ++ out))
  refine hwalk ?_ ?_ ?_ cs ((printsInCode_iff cs).1 h) [] [] rfl rfl rfl
  · intro front _ old new _ hscan _
    rw [append_nil, append_nil]
    exact .of_marks (marks_congr hscan)
  · intro front c rest out _ ih hprints old new hold hscan hmode
    have hlater : PrintsFrom (front ++ [c]) rest := hprints.append
    have hrest := ih hlater (old ++ [c]) (new ++ [c])
    rw [append_assoc, append_assoc] at hrest
    refine hrest ?_ ?_ ?_
    · rw [modeAfter_append, modeAfter_append, hold]
    · rw [scan_append, scan_append, hscan, hmode]
    · rw [modeAfter_append, modeAfter_append, hmode]
  · intro front piece behind new' out _ hmatch ih hprints old new hold hscan hmode
    obtain ⟨text, hbefore, htext, hread, rfl⟩ := constantPrintPattern_eq_some hmatch
    obtain rfl := append_cancel_right hread
    obtain ⟨hkind, hends⟩ := hprints [] text behind rfl (by rwa [append_nil]) htext
    rw [append_nil, ← hold] at hkind
    rw [append_nil, modeAfter_append, ← hold, (scan_printStart hkind text).2] at hends
    by_cases hline : '\n' ∈ text
    · have hend := hends.resolve_left (not_not_intro hline)
      obtain ⟨hsame, hsame'⟩ := scan_brokenCall hkind hend
      have hrest := ih hprints.append (old ++ printCall text) (new ++ putsCall text)
      rw [append_assoc, append_assoc] at hrest
      refine hrest ?_ ?_ ?_
      · rw [modeAfter_append, modeAfter_append, hold]
      · rw [scan_append, scan_append, hscan, hmode, hsame]
      · rw [modeAfter_append, modeAfter_append, hmode, hsame']
    · have hcode : modeAfter .code (front ++ printCall text) = .code := by
        rw [modeAfter_append, ← hold, (scan_printCall htext hline _ hkind).2]
      have hrest := ih hprints.append [] [] hcode.symm rfl rfl
      exact .call hscan hmode hkind htext hline hrest

/-! ## 3. Other calls -/

/-- What the scanner says of two texts that differ in the arguments of such calls only. -/
inductive ArgsApart : List Token → List Token → Prop where
  | nil : ArgsApart [] []
  | same (t : Token) {ts us : List Token} : ArgsApart ts us → ArgsApart (t :: ts) (t :: us)
  | argument {text : List Char} {ts us : List Token} :
    text.all isConstantChar = true → '\n' ∉ text → ArgsApart ts us →
    ArgsApart
      (.opening .stringLiteral :: .inside '"' ::
        (text.map .inside ++ .inside '\\' :: .inside 'n' :: .inside '"' :: ts))
      (.opening .stringLiteral :: .inside '"' :: (text.map .inside ++ .inside '"' :: us))

variable {ts us : List Token}

theorem ArgsApart.append_same (h : ArgsApart ts us) :
    ∀ said, ArgsApart (said ++ ts) (said ++ us)
  | [] => h
  | t :: said => .same t (h.append_same said)

theorem ArgsApart.refl (ts : List Token) : ArgsApart ts ts := by
  simpa using ArgsApart.nil.append_same ts

theorem ArgsApart.of_putsInstead (h : PutsInstead old new) :
    ArgsApart (scan .code old) (scan .code new) := by
  obtain ⟨parts, last, last', hparts, -, -, -, hold, hnew⟩ := h
  rw [← marks_tokens old, ← marks_tokens new, hold, hnew]
  clear hold hnew
  induction parts with
  | nil => exact .refl _
  | cons e parts ih =>
    obtain ⟨⟨-, htext, hline⟩, hparts⟩ := forall_mem_cons.1 hparts
    have hrest := (ArgsApart.argument htext hline (ih hparts)).append_same
      ((marks e.old).flatMap Segment.tokens)
    simpa [printLiteral, putsLiteral, Segment.tokens, Segment.isMark] using hrest

/-- The same within a literal: `text` is the rest of an argument, up to where the two differ. -/
def Beside (m : Mode) (ts us : List Token) : Prop :=
  ArgsApart ts us ∨
    m = .literal .string ∧ ∃ (text : List Char) (ts' us' : List Token),
      text.all isConstantChar = true ∧ '\n' ∉ text ∧
      ts = text.map .inside ++ .inside '\\' :: .inside 'n' :: .inside '"' :: ts' ∧
      us = text.map .inside ++ .inside '"' :: us' ∧ ArgsApart ts' us'

theorem ArgsApart.of_inside (h : ArgsApart (.inside c :: ts) (.inside d :: us)) :
    c = d ∧ ArgsApart ts us := by
  cases h with
  | same t h => exact ⟨rfl, h⟩

theorem ArgsApart.of_opening {kind : SegmentKind} (hkind : kind ≠ .stringLiteral)
    (h : ArgsApart (.opening kind :: ts) (.opening kind :: us)) :
    ArgsApart ts us := by
  cases h with
  | same t h => exact h
  | argument => exact absurd rfl hkind

theorem ArgsApart.of_string
    (h : ArgsApart (.opening .stringLiteral :: .inside '"' :: ts)
      (.opening .stringLiteral :: .inside '"' :: us)) : Beside (.literal .string) ts us := by
  cases h with
  | same t h => exact .inl h.of_inside.2
  | argument htext hline h => exact .inr ⟨rfl, _, _, _, htext, hline, rfl, rfl, h⟩

/-- A character in code opens a string, opens another mark, or is not seen. -/
theorem ArgsApart.of_emitCode (h : ArgsApart (emitCode c ++ ts) (emitCode c ++ us)) :
    Beside (stepCode c) ts us := by
  rw [emitCode] at h
  rw [stepCode]
  split at h
  · rename_i hc
    obtain rfl := beq_iff_eq.1 hc
    exact h.of_string
  · rename_i hc
    rw [if_neg hc]
    split at h
    · exact .inl (h.of_opening (by decide)).of_inside.2
    · exact .inl h

/-- Readings that stay side by side do so after one more character. -/
theorem Beside.step (h : Beside m (m.emit c ++ ts) (m.emit c ++ us)) :
    Beside (m.step c) ts us := by
  rcases h with h | ⟨rfl, text, ts', us', htext, hline, hts, hus, h⟩
  · cases m with
    | code => exact h.of_emitCode
    | slash =>
      rw [emit] at h
      rw [step]
      split at h
      · exact .inl (h.of_opening (by decide)).of_inside.2.of_inside.2
      · rename_i hslash
        rw [if_neg hslash]
        split at h
        · exact .inl (h.of_opening (by decide)).of_inside.2.of_inside.2
        · rename_i hstar
          rw [if_neg hstar]
          exact h.of_emitCode
    | line =>
      rw [emit] at h
      split at h
      · exact .inl h
      · exact .inl h.of_inside.2
    | _ => exact .inl h.of_inside.2
  · cases text with
    | nil =>
      have hc := Token.inside.inj (cons.inj hts).1
      have hc' := Token.inside.inj (cons.inj hus).1
      exact absurd (hc.symm.trans hc') (by decide)
    | cons e text =>
      obtain ⟨hc, htail⟩ := cons.inj hts
      have htail' := (cons.inj hus).2
      obtain rfl := Token.inside.inj hc
      rw [all_cons, Bool.and_eq_true] at htext
      rw [mem_cons, not_or] at hline
      rw [step_constant htext.1 (Ne.symm hline.1)]
      exact .inr ⟨rfl, text, ts', us', htext.2, hline.2, htail, htail', h⟩

theorem Beside.after (cs : List Char) (h : Beside m (scan m cs ++ ts) (scan m cs ++ us)) :
    Beside (modeAfter m cs) ts us := by
  induction cs generalizing m with
  | nil => exact h
  | cons c cs ih =>
    rw [scan_cons, append_assoc, append_assoc] at h
    exact ih h.step

/-- Where something else is said of the two, an argument of such a call ends. -/
theorem Beside.of_inside (hcd : c ≠ d) (h : Beside m (.inside c :: ts) (.inside d :: us)) :
    m = .literal .string ∧ c = '\\' ∧ ∃ ts', ts = .inside 'n' :: .inside '"' :: ts' ∧
      ArgsApart ts' us := by
  rcases h with h | ⟨hm, text, ts', us', htext, -, hts, hus, h⟩
  · exact absurd h.of_inside.1 hcd
  · cases text with
    | nil =>
      obtain ⟨hc, hts⟩ := cons.inj hts
      obtain ⟨-, hus⟩ := cons.inj hus
      exact ⟨hm, Token.inside.inj hc, ts', hts, hus ▸ h⟩
    | cons e text =>
      have hc := Token.inside.inj (cons.inj hts).1
      have hd := Token.inside.inj (cons.inj hus).1
      exact absurd (hc.trans hd.symm) hcd

theorem not_beside_names (hm : m.kind ≠ .code) (cs ds : List Char) :
    ¬ Beside m (scan m ('p' :: 'r' :: cs)) (scan m ('p' :: 'u' :: ds)) := by
  intro h
  have hsettled : m.settled.kind ≠ .code := m.settled_kind ▸ hm
  have hr := (step_inner hsettled (show isInner 'r' = true by decide)).1
  have hu := (step_inner hsettled (show isInner 'u' = true by decide)).1
  rw [scan_cons m 'p', scan_cons m 'p'] at h
  have hlater := h.step
  rw [(step_inner hm (show isInner 'p' = true by decide)).2, scan_cons _ 'r', scan_cons _ 'u',
    hr, hu] at hlater
  obtain ⟨-, hc, -⟩ := hlater.of_inside (by decide)
  exact absurd hc (by decide)

theorem modeAfter_ne_string (hm : m.kind ≠ .stringLiteral) (hcs : '"' ∉ cs) :
    (modeAfter m cs).kind ≠ .stringLiteral := by
  induction cs generalizing m with
  | nil => exact hm
  | cons c cs ih =>
    rw [mem_cons, not_or] at hcs
    refine ih ?_ hcs.2
    have hc := Ne.symm hcs.1
    cases m with
    | literal kind | shielded kind => cases kind <;> grind [step, kind, LiteralKind.segment]
    | _ => grind [step, stepCode, kind, LiteralKind.segment]

/-- A constant text that goes on behind a newline has left its literal. -/
theorem modeAfter_broken (htext : text.all isConstantChar = true) (hline : '\n' ∈ text) :
    (modeAfter (.literal .string) text).kind ≠ .stringLiteral := by
  induction text with
  | nil => exact absurd hline not_mem_nil
  | cons c text ih =>
    rw [all_cons, Bool.and_eq_true] at htext
    by_cases hc : c = '\n'
    · subst hc
      refine modeAfter_ne_string (m := .code) (by decide) fun hquote => ?_
      have := all_eq_true.1 htext.2 _ hquote
      cases this
    · rw [modeAfter_cons, step_constant htext.1 hc]
      exact ih htext.2 (mem_of_ne_of_mem (Ne.symm hc) hline)

/-- A constant print is found and becomes a call of `puts`. -/
theorem constantPrintPattern_printCall {before : Option Char} (hbefore : before.any isWord = false)
    (htext : text.all isConstantChar = true) (behind : List Char) :
    constantPrintPattern before (printCall text ++ behind) = some (putsCall text, behind) := by
  have hconst := all_eq_true.1 htext
  have hstart : wordStart? "printf(\"" before (printCall text ++ behind) =
      some (text ++ '\\' :: 'n' :: '"' :: ')' :: ';' :: behind) := by
    simp [wordStart?, after?, hbefore, printCall, printStart]
  have htake : (text ++ '\\' :: 'n' :: '"' :: ')' :: ';' :: behind).takeWhile isConstantChar =
      text := by
    rw [takeWhile_append_of_pos hconst]
    simp [isConstantChar]
  have hdrop : (text ++ '\\' :: 'n' :: '"' :: ')' :: ';' :: behind).dropWhile isConstantChar =
      '\\' :: 'n' :: '"' :: ')' :: ';' :: behind := by
    rw [dropWhile_append_of_pos hconst]
    simp [isConstantChar]
  have hend : after? ['\\', 'n', '"', ')', ';'] ('\\' :: 'n' :: '"' :: ')' :: ';' :: behind) =
      some behind := by
    simp [after?]
  simp only [constantPrintPattern, hstart, htake, hdrop, hend, bind_eq_bind,
    bind_some, Option.pure_def, putsCall, putsStart, String.reduceToList, append_assoc]

theorem printCall_inj {text : List Char} (htext : text.all isConstantChar = true)
    (htext' : text'.all isConstantChar = true)
    (h : printCall text ++ behind = printCall text' ++ behind') :
    text = text' ∧ behind = behind' := by
  have hread := constantPrintPattern_printCall (show none.any isWord = false from rfl) htext behind
  rw [h, constantPrintPattern_printCall rfl htext' behind', some.injEq, Prod.mk.injEq,
    putsCall, putsCall, append_cancel_left_eq, append_cancel_right_eq] at hread
  exact ⟨hread.1.symm, hread.2.symm⟩

/-- No constant print begins inside the text of another. -/
theorem printCall_not_in_text {text inner left : List Char} (htext : text.all isConstantChar = true)
    (hinner : text ++ ['\\', 'n', '"', ')', ';'] = inner ++ 'p' :: left)
    (hcall : printCall text' ++ behind' = 'p' :: left ++ behind) : False := by
  rcases append_eq_append_iff.1 hinner with ⟨late, -, hlate⟩ | ⟨tail, rfl, htail⟩
  · have hmem : 'p' ∈ ['\\', 'n', '"', ')', ';'] := hlate ▸ by simp
    exact absurd hmem (by decide)
  · -- in the text, which holds none of the quotes of a call
    have hquote : '"' ∉ tail := fun hmem => by
      have := all_eq_true.1 htext _ (mem_append_right inner hmem)
      cases this
    simp only [htail, printCall, append_assoc] at hcall
    rcases append_eq_append_iff.1 hcall with ⟨rest, rfl, -⟩ | ⟨rest, hrest, hend⟩
    · exact hquote (by simp [printStart])
    · cases rest with
      | nil =>
        rw [append_nil] at hrest
        exact hquote (hrest ▸ by decide)
      | cons e rest =>
        obtain rfl : '\\' = e := (cons.inj hend).1
        have hmem : '\\' ∈ printStart := hrest ▸ by simp
        exact absurd hmem (by decide)

/-- Two constant prints do not overlap. -/
theorem printCall_apart {text more : List Char} (hmore : more ≠ [])
    (htext : text.all isConstantChar = true)
    (h : printCall text ++ behind = more ++ (printCall text' ++ behind')) :
    ∃ past, more = printCall text ++ past ∧ behind = past ++ (printCall text' ++ behind') := by
  rcases append_eq_append_iff.1 h with ⟨past, hpast, hbehind⟩ | ⟨left, hleft, hcall⟩
  · exact ⟨past, hpast, hbehind⟩
  · cases left with
    | nil => exact ⟨[], by simpa using hleft.symm, by simpa using hcall.symm⟩
    | cons d left =>
      -- the other call begins at `d`, with its first letter
      obtain rfl : 'p' = d := (cons.inj hcall).1
      rw [printCall] at hleft
      rcases append_eq_append_iff.1 hleft with ⟨inner, rfl, hinner⟩ | ⟨start, hstart, hrest⟩
      · exact (printCall_not_in_text htext hinner hcall).elim
      · cases start with
        | nil =>
          have hinner : text ++ ['\\', 'n', '"', ')', ';'] = [] ++ 'p' :: left := hrest.symm
          exact (printCall_not_in_text htext hinner hcall).elim
        | cons e start =>
          -- in the name, whose first letter stands nowhere else in it
          obtain rfl : 'p' = e := (cons.inj hrest).1
          obtain ⟨f, more, rfl⟩ := exists_cons_of_ne_nil hmore
          have hname : 'p' ∈ printStart.tail := by
            rw [hstart]
            simp
          exact absurd hname (by decide)

section EachCall

variable {p : List Char → List Char → List Char → Prop}

theorem eachCall_nil (front : List Char) : EachCall p front [] := by
  intro more text behind hcs
  have hcall := (append_eq_nil_iff.1 (append_eq_nil_iff.1 hcs.symm).2).1
  cases hcall

theorem eachCall_keep {rest : List Char}
    (hkeep : constantPrintPattern front.getLast? (c :: rest) = none) :
    EachCall p front (c :: rest) ↔ EachCall p (front ++ [c]) rest := by
  refine ⟨fun h : EachCall p front ([c] ++ rest) => h.append, ?_⟩
  intro h more text behind hcs hbefore htext
  cases more with
  | nil =>
    rw [append_nil] at hbefore
    rw [hcs, nil_append, constantPrintPattern_printCall hbefore htext] at hkeep
    cases hkeep
  | cons d more =>
    obtain ⟨rfl, hrest⟩ := cons.inj hcs
    have happend : front ++ c :: more = front ++ [c] ++ more := by simp
    rw [happend] at hbefore ⊢
    exact h more text behind hrest hbefore htext

theorem eachCall_call {text : List Char} (htext : text.all isConstantChar = true)
    (hbefore : front.getLast?.any isWord = false) :
    EachCall p front (printCall text ++ behind) ↔
      p front text behind ∧ EachCall p (front ++ printCall text) behind := by
  constructor
  · intro h
    have hhere := h [] text behind rfl (by rwa [append_nil]) htext
    rw [append_nil] at hhere
    exact ⟨hhere, h.append⟩
  · rintro ⟨hhere, hlater⟩ more text' behind' hcs hbefore' htext'
    by_cases hmore : more = []
    · subst hmore
      obtain ⟨rfl, rfl⟩ := printCall_inj htext htext' hcs
      rwa [append_nil]
    · obtain ⟨past, rfl, hbehind⟩ := printCall_apart hmore htext hcs
      rw [← append_assoc] at hbefore' ⊢
      exact hlater past text' behind' hbehind hbefore' htext'

end EachCall

/-- In a mark every character is seen, a newline behind a line comment apart. -/
theorem Mode.emit_mark (hm : m.kind ≠ .code) (hc : c ≠ '\n') :
    m.emit c = [.inside c] := by
  cases m with
  | code => exact absurd rfl hm
  | slash => exact absurd rfl hm
  | line => simp [emit, hc]
  | _ => rfl

/-- What a call in code must be for the two texts to be told apart by their arguments only. -/
theorem Beside.of_call (hm : m.kind = .code) {text : List Char}
    (htext : text.all isConstantChar = true)
    (h : Beside m (scan m (printCall text ++ behind)) (scan m (putsCall text ++ out))) :
    ('\n' ∉ text ∨ (modeAfter m (printStart ++ text)).kind = .code) ∧
      Beside (modeAfter m (printCall text)) (scan (modeAfter m (printCall text)) behind)
        (scan (modeAfter m (printCall text)) out) := by
  have hmode := (scan_printStart hm text).2
  rw [hmode]
  by_cases hend : (modeAfter (.literal .string) text).kind = .code
  · obtain ⟨hsame, hsame'⟩ := scan_brokenCall hm hend
    rw [scan_append, scan_append, hsame, hsame'] at h
    exact ⟨.inr hend, h.after (printCall text)⟩
  · -- both are told apart right behind the text
    have hold : scan m (printCall text ++ behind) = scan m (printStart ++ text) ++
        scan (modeAfter (.literal .string) text) ('\\' :: 'n' :: '"' :: ')' :: ';' :: behind) := by
      rw [← hmode, ← scan_append]
      simp [printCall]
    have hnew : scan m (putsCall text ++ out) = scan m (printStart ++ text) ++
        scan (modeAfter (.literal .string) text) ('"' :: ')' :: ';' :: out) := by
      rw [(scan_printStart hm text).1, ← (scan_putsStart hm text).1, ← (scan_putsStart hm text).2,
        ← scan_append]
      simp [putsCall]
    rw [hold, hnew] at h
    have hseen := h.after (printStart ++ text)
    rw [hmode, scan_cons _ '\\', scan_cons _ '"', emit_mark hend (by decide),
      emit_mark hend (by decide)] at hseen
    obtain ⟨hstring, -, said, hsaid, hapart⟩ := hseen.of_inside (by decide)
    have hline : '\n' ∉ text := by
      intro hbroken
      exact modeAfter_broken htext hbroken (by rw [hstring]; rfl)
    rw [hstring] at hsaid hapart
    obtain rfl : scan .code behind = said := (cons.inj (cons.inj hsaid).2).2
    rw [(scan_printCall htext hline m hm).2]
    exact ⟨.inl hline, .inl hapart⟩

/-- Where no mark changes but arguments of such calls, the calls stand in code. -/
theorem printsFrom_of_beside (cs : List Char)
    (h : Beside .code (scan .code cs) (scan .code (replaceAll constantPrintPattern cs))) :
    PrintsFrom [] cs := by
  have hwalk := replaceAll_induct constantPrintPattern_reads
    (motive := fun front cs out =>
      Beside (modeAfter .code front) (scan (modeAfter .code front) cs)
        (scan (modeAfter .code front) out) → PrintsFrom front cs)
  refine hwalk (fun front _ => (printsFrom_iff front []).2 (eachCall_nil front)) ?_ ?_ cs h
  · intro front c rest out hkeep ih hbeside
    have hlater := Beside.step (m := modeAfter .code front) (c := c) hbeside
    rw [printsFrom_iff, eachCall_keep hkeep]
    refine ih ?_
    rwa [modeAfter_append]
  · intro front piece behind new out _ hmatch ih hbeside
    obtain ⟨text, hbefore, htext, hread, rfl⟩ := constantPrintPattern_eq_some hmatch
    obtain rfl := append_cancel_right hread
    by_cases hm : (modeAfter .code front).kind = .code
    · obtain ⟨hends, hlater⟩ := hbeside.of_call hm htext
      rw [← modeAfter_append] at hends hlater
      rw [printsFrom_iff, eachCall_call htext hbefore]
      exact ⟨⟨hm, hends⟩, ih hlater⟩
    · exact absurd hbeside (not_beside_names hm _ _)

/-- The rule for constant prints changes no mark but the arguments of calls that it rewrites if and
only if, where it applies, every constant print stands in code. -/
theorem putsInstead_preferPuts_iff (cs : List Char) :
    PutsInstead cs (preferPuts cs) ↔
      (occurs "#include <stdio.h>".toList cs = true → PrintsInCode cs) := by
  rw [preferPuts]
  split
  · rename_i hstdio
    constructor
    · intro h _
      exact (printsInCode_iff cs).2 (printsFrom_of_beside cs (.inl (.of_putsInstead h)))
    · exact fun h => putsInstead_replaceAll (h hstdio)
  · rename_i hstdio
    exact iff_of_true (.of_marks rfl) fun h => absurd h hstdio

end CodeAssist.Offline
