import CodeAssist.Proofs.Offline.Rewriting
import CodeAssist.Proofs.Text.Searching
import CodeAssist.Proofs.Text.Watching
import Mathlib.Data.List.Induction

/-!
Layout of a stretch of code.

Keywords have a blank before their bracket, commas one behind them, and braces stand one blank
behind the bracket of their line. Four patterns find where this is not so, and a small machine that
reads the code once sees what a pattern does (`Watches`). With the machines the rules can be
followed through each other: a later rule never brings about what an earlier one looked for, for its
pieces and their replacements take the machine from the same state to the same state.

A rule may leave work for itself. Keywords and braces leave none. Of two commas right before
something visible the second is left as it was, since the pattern reads the character behind a comma
with it (`DoubledComma`). So code is laid out by the rules if and only if no commas are doubled in
it (`isLaid_layOutStretch_iff`).
-/

namespace CodeAssist.Offline

open Text List Option Watch

variable {first d c : Char} {cs right : List Char} {before : Option Char}

/-! ## 1. What the patterns look for -/

theorem keywordPattern_isSome :
    (keywordPattern before cs).isSome = true ↔
      before.any isWord = false ∧ ∃ w ∈ spacedKeywords, ∃ rest, cs = w.toList ++ '(' :: rest := by
  constructor
  · intro h
    obtain ⟨⟨new, behind⟩, hmatch⟩ := isSome_iff_exists.1 h
    obtain ⟨w, hw, hbefore, rfl, -⟩ := keywordPattern_eq_some hmatch
    exact ⟨hbefore, w, hw, behind, by simp⟩
  · rintro ⟨hbefore, w, hw, rest, rfl⟩
    refine findSome?_isSome_iff.2 ⟨w, hw, ?_⟩
    simp [wordStart?, hbefore, after?_append, afterChar?]

theorem commaPattern_isSome :
    (commaPattern before cs).isSome = true ↔
      ∃ c rest, cs = ',' :: c :: rest ∧ isBlank c = false := by
  constructor
  · intro h
    obtain ⟨⟨new, behind⟩, hmatch⟩ := isSome_iff_exists.1 h
    obtain ⟨c, hc, rfl, -⟩ := commaPattern_eq_some hmatch
    exact ⟨c, behind, rfl, hc⟩
  · rintro ⟨c, rest, rfl, hc⟩
    simp [commaPattern, afterChar?, hc]

theorem braceTightPattern_isSome :
    (braceTightPattern before cs).isSome = true ↔
      ∃ c rest, cs = ')' :: c :: rest ∧ (c == '{') = true := by
  constructor
  · intro h
    obtain ⟨⟨new, behind⟩, hmatch⟩ := isSome_iff_exists.1 h
    obtain ⟨rfl, -⟩ := braceTightPattern_eq_some hmatch
    exact ⟨'{', behind, rfl, rfl⟩
  · rintro ⟨c, rest, rfl, hc⟩
    obtain rfl := beq_iff_eq.1 hc
    simp [braceTightPattern, after?]

/-- What the pattern for braces below looks for. -/
theorem braceBelowPattern_isSome :
    (braceBelowPattern before cs).isSome = true ↔
      ∃ right left rest, right.all isSpaceOrTab = true ∧ left.all isSpaceOrTab = true ∧
        cs = ')' :: (right ++ '\n' :: (left ++ '{' :: rest)) := by
  constructor
  · intro h
    obtain ⟨⟨new, behind⟩, hmatch⟩ := isSome_iff_exists.1 h
    obtain ⟨right, left, hright, hleft, rfl, -⟩ := braceBelowPattern_eq_some hmatch
    exact ⟨right, left, behind, hright, hleft, by simp⟩
  · rintro ⟨right, left, rest, hright, hleft, rfl⟩
    have hline : (right ++ '\n' :: (left ++ '{' :: rest)).dropWhile isSpaceOrTab =
        '\n' :: (left ++ '{' :: rest) := by
      rw [dropWhile_append_of_pos (all_eq_true.1 hright)]
      rfl
    have hopen : (left ++ '{' :: rest).dropWhile isSpaceOrTab = '{' :: rest := by
      rw [dropWhile_append_of_pos (all_eq_true.1 hleft)]
      rfl
    simp [braceBelowPattern, afterChar?, hline, hopen]

/-! ## 2. Watches for them -/

/-- A watch that refuses what the pattern matches. -/
def Watches (w : Watch σ) (start : σ) (p : Pattern (List Char)) : Prop :=
  ∀ cs, isMatch p cs = false ↔ w.passes start cs = true

theorem watches_of_iff {w : Watch σ} {start : σ} {p : Pattern (List Char)}
    (h : ∀ cs, isMatch p cs = true ↔ w.passes start cs = false) : Watches w start p := by
  intro cs
  rw [← Bool.not_eq_true, h, Bool.not_eq_false]

/-- Refuses one character right behind another. -/
def pairWatch (first : Char) (second : Char → Bool) : Watch Bool where
  step := fun _ c => c == first
  allows := fun behind c => !(behind && second c)

theorem pairWatch_after (first : Char) (second : Char → Bool) (cs : List Char) :
    (pairWatch first second).after false cs = (cs.getLast? == some first) := by
  rcases eq_nil_or_concat cs with rfl | ⟨cs, c, rfl⟩
  · rfl
  · simp [after_append, pairWatch]

theorem pairWatch_watches {p : Pattern (List Char)} (hp : p.Reads) {second : Char → Bool}
    (h : ∀ before cs, (p before cs).isSome = true ↔
      ∃ c rest, cs = first :: c :: rest ∧ second c = true) :
    Watches (pairWatch first second) false p := by
  refine watches_of_iff fun cs => ?_
  rw [isMatch_iff hp, passes_eq_false_iff]
  constructor
  · rintro ⟨front, rest, rfl, hmatch⟩
    obtain ⟨c, rest, rfl, hc⟩ := (h _ _).1 hmatch
    refine ⟨front ++ [first], c, rest, by simp, ?_⟩
    rw [pairWatch_after]
    simp [pairWatch, hc]
  · rintro ⟨left, c, right, rfl, hc⟩
    rw [pairWatch_after] at hc
    simp only [pairWatch, Bool.not_eq_false', Bool.and_eq_true, beq_iff_eq] at hc
    obtain ⟨front, rfl⟩ := getLast?_eq_some_iff.1 hc.1
    exact ⟨front, first :: c :: right, by simp, (h _ _).2 ⟨c, right, rfl, hc.2⟩⟩

/-- Refuses a comma right before something visible. -/
def commaWatch : Watch Bool :=
  pairWatch ',' fun c => !isBlank c

theorem commaWatch_watches : Watches commaWatch false commaPattern := by
  refine pairWatch_watches commaPattern_keepsLayout.reads fun before cs => ?_
  rw [commaPattern_isSome]
  simp

/-- How far a text is from a closing bracket. -/
inductive Closing where
  | away
  /-- On its line, behind spaces and tabs. -/
  | beside
  /-- On the next line, behind spaces and tabs. -/
  | below
  deriving DecidableEq

def Closing.step : Closing → Char → Closing
  | .away, c => if c == ')' then .beside else .away
  | .beside, c =>
    if c == ')' || isSpaceOrTab c then .beside else if c == '\n' then .below else .away
  | .below, c => if c == ')' then .beside else if isSpaceOrTab c then .below else .away

/-- Refuses a brace on the line below a bracket. -/
def belowWatch : Watch Closing where
  step := Closing.step
  allows := fun s c => !(s == .below && c == '{')

theorem belowWatch_spaces (h : cs.all isSpaceOrTab = true) (s : Closing) :
    belowWatch.after s cs = s ∧ belowWatch.passes s cs = true := by
  refine idle fun c hc => ?_
  cases s <;> rcases eq_of_mem_spaces h hc with rfl | rfl <;> exact ⟨rfl, rfl⟩

theorem belowWatch_close (front : List Char) (hright : right.all isSpaceOrTab = true) :
    belowWatch.after .away (front ++ ')' :: right) = .beside := by
  have hclose : ∀ s, belowWatch.step s ')' = .beside := by
    intro s
    cases s <;> rfl
  rw [after_append, after_cons, hclose, (belowWatch_spaces hright _).1]

/-- What the machine for braces below has read when it is beside or below a bracket. -/
theorem belowWatch_after (cs : List Char) :
    (belowWatch.after .away cs = .beside →
      ∃ front right, right.all isSpaceOrTab = true ∧ cs = front ++ ')' :: right) ∧
    (belowWatch.after .away cs = .below →
      ∃ front right left, right.all isSpaceOrTab = true ∧ left.all isSpaceOrTab = true ∧
        cs = front ++ ')' :: (right ++ '\n' :: left)) := by
  induction cs using reverseRecOn with
  | nil => exact ⟨nofun, nofun⟩
  | append_singleton cs c ih =>
    rw [after_append]
    by_cases hclose : c = ')'
    · subst hclose
      have hstep := belowWatch_close cs all_nil
      rw [after_append] at hstep
      rw [hstep]
      exact ⟨fun _ => ⟨cs, [], rfl, rfl⟩, nofun⟩
    · rw [after_cons, after_nil]
      cases hstate : belowWatch.after .away cs with
      | away => simp [belowWatch, Closing.step, hclose]
      | beside =>
        obtain ⟨front, right, hright, rfl⟩ := ih.1 hstate
        by_cases hspace : isSpaceOrTab c = true
        · refine ⟨fun _ => ⟨front, right ++ [c], ?_, by simp⟩, ?_⟩
          · rw [all_append, hright, all_cons, hspace]
            rfl
          · simp [belowWatch, Closing.step, hspace]
        · by_cases hline : c = '\n'
          · subst hline
            exact ⟨nofun, fun _ => ⟨front, right, [], hright, rfl, by simp⟩⟩
          · simp [belowWatch, Closing.step, hclose, hspace, hline]
      | below =>
        obtain ⟨front, right, left, hright, hleft, rfl⟩ := ih.2 hstate
        by_cases hspace : isSpaceOrTab c = true
        · refine ⟨?_, fun _ => ⟨front, right, left ++ [c], hright, ?_, by simp⟩⟩
          · simp [belowWatch, Closing.step, hclose, hspace]
          · rw [all_append, hleft, all_cons, hspace]
            rfl
        · simp [belowWatch, Closing.step, hclose, hspace]

theorem belowWatch_watches : Watches belowWatch .away braceBelowPattern := by
  refine watches_of_iff fun cs => ?_
  rw [isMatch_iff braceBelowPattern_keepsLayout.reads, passes_eq_false_iff]
  constructor
  · rintro ⟨front, rest, rfl, hmatch⟩
    obtain ⟨right, left, rest, hright, hleft, rfl⟩ := braceBelowPattern_isSome.1 hmatch
    refine ⟨front ++ ')' :: (right ++ '\n' :: left), '{', rest, by simp, ?_⟩
    have hbeside := belowWatch_close front hright
    rw [append_cons, ← append_assoc, ← append_cons, after_append, hbeside,
      after_cons]
    rw [show belowWatch.step .beside '\n' = .below from rfl, (belowWatch_spaces hleft _).1]
    rfl
  · rintro ⟨left, c, rest, rfl, hc⟩
    simp only [belowWatch, Bool.not_eq_false', Bool.and_eq_true, beq_iff_eq] at hc
    obtain ⟨front, right, left, hright, hleft, rfl⟩ := (belowWatch_after _).2 hc.1
    refine ⟨front, ')' :: (right ++ '\n' :: (left ++ '{' :: rest)), by simp [hc.2], ?_⟩
    exact braceBelowPattern_isSome.2 ⟨right, left, rest, hright, hleft, rfl⟩

/-- Refuses a bracket right behind one of the keywords. It stands in the word it read last. -/
def keywordWatch : Watch (List Char) where
  step := fun word c => if isWord c then word ++ [c] else []
  allows := fun word c => !(c == '(' && spacedKeywords.any (·.toList == word))

theorem keywordWatch_word (h : cs.all isWord = true) (word : List Char) :
    keywordWatch.after word cs = word ++ cs := by
  induction cs generalizing word with
  | nil => simp
  | cons c cs ih =>
    rw [all_cons, Bool.and_eq_true] at h
    rw [after_cons, ih h.2]
    simp [keywordWatch, h.1]

theorem keywordWatch_boundary {front : List Char} (h : front.getLast?.any isWord = false) :
    keywordWatch.after [] front = [] := by
  rcases eq_nil_or_concat front with rfl | ⟨front, c, rfl⟩
  · rfl
  · rw [concat_eq_append, getLast?_append] at h
    rw [concat_eq_append, after_append]
    simp_all [keywordWatch]

theorem keywordWatch_after (cs : List Char) : ∃ front,
    cs = front ++ keywordWatch.after [] cs ∧ front.getLast?.any isWord = false := by
  induction cs using reverseRecOn with
  | nil => exact ⟨[], rfl, rfl⟩
  | append_singleton cs c ih =>
    rw [after_append]
    by_cases hc : isWord c = true
    · obtain ⟨front, hcs, hfront⟩ := ih
      refine ⟨front, ?_, hfront⟩
      simp only [after_cons, after_nil, keywordWatch, hc, if_true]
      rw [← append_assoc]
      exact congrArg (· ++ [c]) hcs
    · exact ⟨cs ++ [c], by simp [keywordWatch, hc], by simp [hc]⟩

/-- The machine for keywords sees what the pattern sees. -/
theorem keywordWatch_watches : Watches keywordWatch [] keywordPattern := by
  refine watches_of_iff fun cs => ?_
  rw [isMatch_iff keywordPattern_keepsLayout.reads, passes_eq_false_iff]
  constructor
  · rintro ⟨front, rest, rfl, hmatch⟩
    obtain ⟨hfront, w, hw, rest, rfl⟩ := keywordPattern_isSome.1 hmatch
    refine ⟨front ++ w.toList, '(', rest, by simp, ?_⟩
    have hword : ∀ w ∈ spacedKeywords, w.toList.all isWord = true := by decide
    rw [after_append, keywordWatch_boundary hfront, keywordWatch_word (hword w hw)]
    simpa [keywordWatch] using ⟨w, hw, rfl⟩
  · rintro ⟨left, c, rest, rfl, hc⟩
    simp only [keywordWatch, Bool.not_eq_false', Bool.and_eq_true, beq_iff_eq,
      List.any_eq_true] at hc
    obtain ⟨rfl, w, hw, hword⟩ := hc
    obtain ⟨front, hleft, hfront⟩ := keywordWatch_after left
    refine ⟨front, w.toList ++ '(' :: rest, ?_, ?_⟩
    · rw [← append_assoc, hword]
      exact congrArg (· ++ '(' :: rest) hleft
    · exact keywordPattern_isSome.2 ⟨hfront, w, hw, rest, rfl⟩

/-! ## 3. A rule leaves no match of its own pattern -/

theorem replaceFrom_inWord (hd : isWord d = true) {out : List Char}
    (h : replaceFrom keywordPattern 0 (some d) cs = c :: out) :
    ∃ rest, cs = c :: rest ∧ replaceFrom keywordPattern 0 (some c) rest = out := by
  refine replaceFrom_eq_cons h fun new behind _ hmatch => ?_
  obtain ⟨w, -, hbefore, -⟩ := keywordPattern_eq_some hmatch
  rw [any_some, hd] at hbefore
  cases hbefore

theorem replaceFrom_word (hd : isWord d = true) {word behind : List Char}
    (hword : word.all isWord = true)
    (h : replaceFrom keywordPattern 0 (some d) cs = word ++ '(' :: behind) :
    ∃ rest, cs = word ++ '(' :: rest := by
  induction word generalizing d cs with
  | nil =>
    obtain ⟨rest, rfl, -⟩ := replaceFrom_inWord hd h
    exact ⟨rest, rfl⟩
  | cons c word ih =>
    rw [all_cons, Bool.and_eq_true] at hword
    obtain ⟨rest, rfl, hrest⟩ := replaceFrom_inWord hd h
    obtain ⟨more, rfl⟩ := ih hword.1 hword.2 hrest
    exact ⟨more, rfl⟩

/-- One pass over the keywords leaves none to space. -/
theorem isMatch_keyword (cs : List Char) :
    isMatch keywordPattern (replaceAll keywordPattern cs) = false := by
  have hwords : ∀ w ∈ spacedKeywords, w.toList.all isWord = true ∧ w.toList ≠ [] := by decide
  refine isMatch_replaceAll keywordPattern_keepsLayout.reads ?_ ?_ ?_ cs
  · intro before piece behind new h
    obtain ⟨w, -, -, hpiece, rfl⟩ := keywordPattern_eq_some h
    rw [append_cancel_right hpiece]
    simp
  · intro before c rest hnone
    rw [← not_isSome_iff_eq_none] at hnone ⊢
    intro h
    obtain ⟨hbefore, w, hw, behind, hcs⟩ := keywordPattern_isSome.1 h
    obtain ⟨hword, hne⟩ := hwords w hw
    obtain ⟨d, word, hd⟩ := exists_cons_of_ne_nil hne
    rw [hd, cons_append] at hcs
    rw [hd, all_cons, Bool.and_eq_true] at hword
    obtain ⟨rfl, hout⟩ := cons.inj hcs
    obtain ⟨more, rfl⟩ := replaceFrom_word hword.1 hword.2 hout
    exact hnone (keywordPattern_isSome.2 ⟨hbefore, w, hw, more, by rw [hd, cons_append]⟩)
  · intro before cs new behind h left right out hnew hright
    obtain ⟨w, hw, -, -, rfl⟩ := keywordPattern_eq_some h
    obtain ⟨hword, hne⟩ := hwords w hw
    rw [← not_isSome_iff_eq_none]
    intro hmatch
    obtain ⟨hbefore, w', hw', rest, hcs⟩ := keywordPattern_isSome.1 hmatch
    obtain ⟨hword', hne'⟩ := hwords w' hw'
    obtain ⟨d, word, hd⟩ := exists_cons_of_ne_nil hne'
    obtain ⟨e, right, rfl⟩ := exists_cons_of_ne_nil hright
    have hfirst : isWord e = true := by
      rw [hd] at hcs hword'
      rw [(cons.inj hcs).1]
      exact (Bool.and_eq_true_iff.1 hword').1
    rcases append_eq_append_iff.1 hnew with ⟨past, -, hpast⟩ | ⟨tail, hleft, htail⟩
    · -- behind the word: a space or a bracket, which begins none
      have he : e ∈ [' ', '('] := hpast ▸ by simp
      revert hfirst
      rcases mem_cons.1 he with rfl | he
      · decide
      · rw [mem_singleton.1 he]
        decide
    · rcases eq_nil_or_concat left with rfl | ⟨left, z, rfl⟩
      · -- at the word, which the space ends
        rw [nil_append] at hleft hnew
        rw [← hnew, append_assoc] at hcs
        have hends := (stretch_unique hword hword' (by decide) (by decide) hcs).2.1
        exact absurd hends (by decide)
      · -- within the word
        have hz : isWord z = true := all_eq_true.1 hword z (by simp [hleft])
        rw [concat_eq_append, getLast?_append] at hbefore
        simp [hz] at hbefore

/-- Where a brace was moved up, only the bracket could begin a match. -/
theorem brace_not_begun {left : List Char} (h : [')', ' ', '{'] = left ++ right)
    (hright : right.head? = some ')') : left = [] ∧ right = [')', ' ', '{'] := by
  match left, h with
  | [], h => exact ⟨rfl, h.symm⟩
  | [a], h =>
    obtain ⟨-, rfl⟩ := cons.inj h
    cases hright
  | [a, b], h =>
    obtain ⟨-, rfl⟩ := cons.inj (cons.inj h).2
    cases hright
  | a :: b :: c :: left, h =>
    have hnil := (cons.inj (cons.inj (cons.inj h).2).2).2
    rw [(append_eq_nil_iff.1 hnil.symm).2] at hright
    cases hright

/-- One pass leaves no brace tight behind its bracket. -/
theorem isMatch_braceTight (cs : List Char) :
    isMatch braceTightPattern (replaceAll braceTightPattern cs) = false := by
  refine isMatch_replaceAll braceTightPattern_keepsLayout.reads ?_ ?_ ?_ cs
  · intro before piece behind new h
    obtain ⟨hpiece, rfl⟩ := braceTightPattern_eq_some h
    rw [append_cancel_right hpiece]
    exact ⟨by simp, rfl⟩
  · intro before c rest hnone
    rw [← not_isSome_iff_eq_none] at hnone ⊢
    intro h
    obtain ⟨d, behind, hcs, hd⟩ := braceTightPattern_isSome.1 h
    obtain ⟨rfl, hout⟩ := cons.inj hcs
    obtain rfl := beq_iff_eq.1 hd
    obtain ⟨more, rfl, -⟩ := replaceFrom_eq_cons hout fun new behind _ hmatch => by
      obtain ⟨-, rfl⟩ := braceTightPattern_eq_some hmatch
      exact fun hsame => absurd (cons.inj hsame).1 (by decide)
    exact hnone (braceTightPattern_isSome.2 ⟨'{', more, rfl, rfl⟩)
  · intro before cs new behind h left right out hnew hright
    obtain ⟨-, rfl⟩ := braceTightPattern_eq_some h
    rw [← not_isSome_iff_eq_none]
    intro hmatch
    obtain ⟨d, rest, hcs, hd⟩ := braceTightPattern_isSome.1 hmatch
    obtain ⟨e, right, rfl⟩ := exists_cons_of_ne_nil hright
    obtain ⟨rfl, hout⟩ := cons.inj hcs
    obtain ⟨-, hbrace⟩ := brace_not_begun hnew rfl
    obtain ⟨-, rfl⟩ := cons.inj hbrace
    obtain ⟨rfl, -⟩ := cons.inj hout
    cases hd

/-- One pass leaves no brace below the bracket of its line. -/
theorem isMatch_braceBelow (cs : List Char) :
    isMatch braceBelowPattern (replaceAll braceBelowPattern cs) = false := by
  refine isMatch_replaceAll braceBelowPattern_keepsLayout.reads ?_ ?_ ?_ cs
  · intro before piece behind new h
    obtain ⟨right, left, -, -, hpiece, rfl⟩ := braceBelowPattern_eq_some h
    rw [append_cancel_right hpiece]
    refine ⟨by simp, ?_⟩
    rw [← cons_append, append_cons, ← append_assoc, getLast?_concat]
    rfl
  · intro before c rest hnone
    rw [← not_isSome_iff_eq_none] at hnone ⊢
    intro h
    obtain ⟨right, left, behind, hright, hleft, hcs⟩ := braceBelowPattern_isSome.1 h
    obtain ⟨rfl, hout⟩ := cons.inj hcs
    have hclose : ∀ {gap : List Char}, gap.all isSpaceOrTab = true → ')' ∉ gap :=
      fun h hmem => by cases all_eq_true.1 h _ hmem
    have hxs : ')' ∉ right ++ '\n' :: (left ++ ['{']) := by
      simp [hclose hright, hclose hleft]
    have hout' : replaceFrom braceBelowPattern 0 (some ')') rest =
        (right ++ '\n' :: (left ++ ['{'])) ++ behind := by simpa using hout
    obtain ⟨more, rfl, -⟩ := replaceFrom_eq_append (fun before cs new behind hmatch => by
      obtain ⟨-, -, -, -, -, rfl⟩ := braceBelowPattern_eq_some hmatch
      exact ⟨_, rfl⟩) hxs hout'
    exact hnone (braceBelowPattern_isSome.2 ⟨right, left, more, hright, hleft, by simp⟩)
  · intro before cs new behind h left right out hnew hright
    obtain ⟨-, -, -, -, -, rfl⟩ := braceBelowPattern_eq_some h
    rw [← not_isSome_iff_eq_none]
    intro hmatch
    obtain ⟨gap, gap', rest, hgap, -, hcs⟩ := braceBelowPattern_isSome.1 hmatch
    obtain ⟨e, right, rfl⟩ := exists_cons_of_ne_nil hright
    obtain ⟨rfl, hout⟩ := cons.inj hcs
    obtain ⟨-, hbrace⟩ := brace_not_begun hnew rfl
    obtain ⟨-, rfl⟩ := cons.inj hbrace
    have hspace : [' '] ++ '{' :: out = gap ++ '\n' :: (gap' ++ '{' :: rest) := hout
    exact absurd (stretch_unique (by decide) hgap (by decide) (by decide) hspace).2.1 (by decide)

/-! ## 4. A rule leaves what the rules before it saw -/

theorem keywordWatch_comma (cs : List Char) :
    keywordWatch.Alike cs (replaceAll commaPattern cs) := by
  refine commaPattern_related keywordWatch.alike_partByPart (fun c _ => ?_) cs
  have hcomma : isWord ',' = false := by decide
  have hspace : isWord ' ' = false := by decide
  constructor <;> intro word <;> simp [keywordWatch, hcomma, hspace]

theorem keywordWatch_idle (h : isWord c = false ∧ c ≠ '(') :
    keywordWatch.step [] c = [] ∧ keywordWatch.allows [] c = true := by
  simp [keywordWatch, h]

theorem keywordWatch_brace (h : ∀ c ∈ cs, isWord c = false ∧ c ≠ '(') :
    keywordWatch.Alike (')' :: cs) [')', ' ', '{'] := by
  have hclose : isWord ')' = false := by decide
  have hbrace : ∀ c ∈ [' ', '{'], isWord c = false ∧ c ≠ '(' :=
    forall_mem_cons.2 ⟨by decide, forall_mem_singleton.2 (by decide)⟩
  refine alike_of_idle (fun word => ?_) (fun c hc => keywordWatch_idle (h c hc))
    fun c hc => keywordWatch_idle (hbrace c hc)
  simp [keywordWatch, hclose]

theorem keywordWatch_braceBelow (cs : List Char) :
    keywordWatch.Alike cs (replaceAll braceBelowPattern cs) := by
  refine braceBelowPattern_related keywordWatch.alike_partByPart
    (fun right left hright hleft => keywordWatch_brace fun c hc => ?_) cs
  have hspaces : ∀ {gap : List Char}, gap.all isSpaceOrTab = true → c ∈ gap →
      isWord c = false ∧ c ≠ '(' := by
    intro gap hgap hc
    rcases eq_of_mem_spaces hgap hc with rfl | rfl <;> decide
  simp only [mem_cons, mem_append, not_mem_nil, or_false] at hc
  rcases hc with hc | rfl | hc | rfl
  · exact hspaces hright hc
  · decide
  · exact hspaces hleft hc
  · decide

theorem keywordWatch_braceTight (cs : List Char) :
    keywordWatch.Alike cs (replaceAll braceTightPattern cs) :=
  braceTightPattern_related keywordWatch.alike_partByPart
    (keywordWatch_brace (forall_mem_singleton.2 (by decide))) cs

theorem pairWatch_alike {second : Char → Bool} {xs ys : List Char} (hxs : first ∉ c :: xs)
    (hys : first ∉ c :: ys) :
    (pairWatch first second).Alike (c :: xs) (c :: ys) := by
  have hne : ∀ {cs : List Char}, first ∉ cs → ∀ d ∈ cs,
      (pairWatch first second).step false d = false := by
    intro cs hcs d hd
    exact beq_eq_false_iff_ne.2 fun hfirst => hcs (hfirst ▸ hd)
  exact alike_of_idle (fun _ => hne hxs c mem_cons_self)
    (fun d hd => ⟨hne hxs d (mem_cons_of_mem c hd), rfl⟩)
    fun d hd => ⟨hne hys d (mem_cons_of_mem c hd), rfl⟩

theorem commaWatch_braceBelow (cs : List Char) :
    commaWatch.Alike cs (replaceAll braceBelowPattern cs) := by
  refine braceBelowPattern_related commaWatch.alike_partByPart
    (fun right left hright hleft => ?_) cs
  have hcomma : ∀ {gap : List Char}, gap.all isSpaceOrTab = true → ',' ∉ gap :=
    fun h hmem => by cases all_eq_true.1 h _ hmem
  exact pairWatch_alike (by simp [hcomma hright, hcomma hleft]) (by decide)

theorem commaWatch_braceTight (cs : List Char) :
    commaWatch.Alike cs (replaceAll braceTightPattern cs) :=
  braceTightPattern_related commaWatch.alike_partByPart (pairWatch_alike (by decide) (by decide)) cs

theorem belowWatch_braceTight (cs : List Char) :
    belowWatch.Alike cs (replaceAll braceTightPattern cs) := by
  refine braceTightPattern_related belowWatch.alike_partByPart ?_ cs
  constructor <;> intro s <;> cases s <;> rfl

/-! ## 5. Commas -/

/-- Two commas right before something visible. The rule for commas takes them for a comma and the
character behind it. -/
def DoubledComma (cs : List Char) : Prop :=
  ∃ front c rest, cs = front ++ ',' :: ',' :: c :: rest ∧ isBlank c = false

/-- Counts the commas right before a character, and refuses something visible behind two. -/
def doubleWatch : Watch Nat where
  step := fun n c => if c == ',' then n + 1 else 0
  allows := fun n c => decide (n < 2) || isBlank c

/-- The machine for doubled commas counts the commas at the end. -/
theorem doubleWatch_after (cs : List Char) :
    2 ≤ doubleWatch.after 0 cs ↔ ∃ front, cs = front ++ [',', ','] := by
  constructor
  · intro h
    rcases eq_nil_or_concat cs with rfl | ⟨cs, c, rfl⟩
    · exact absurd h (by decide)
    · rw [concat_eq_append, after_append] at h
      have hc : c = ',' := by
        refine Decidable.byContradiction fun hc => ?_
        simp [doubleWatch, hc] at h
      subst hc
      rcases eq_nil_or_concat cs with rfl | ⟨cs, d, rfl⟩
      · exact absurd h (by decide)
      · rw [concat_eq_append, after_append] at h
        have hd : d = ',' := by
          refine Decidable.byContradiction fun hd => ?_
          simp [doubleWatch, hd] at h
        exact ⟨cs, by simp [hd]⟩
  · rintro ⟨front, rfl⟩
    rw [after_append]
    show 2 ≤ doubleWatch.after 0 front + 1 + 1
    omega

theorem doubleWatch_iff (cs : List Char) :
    doubleWatch.passes 0 cs = true ↔ ¬ DoubledComma cs := by
  have hallows : ∀ n c, doubleWatch.allows n c = false ↔ 2 ≤ n ∧ isBlank c = false := by
    simp [doubleWatch, Nat.lt_iff_add_one_le]
  rw [← Bool.not_eq_false, passes_eq_false_iff]
  refine not_congr ⟨?_, ?_⟩
  · rintro ⟨left, c, rest, rfl, hc⟩
    obtain ⟨htwo, hvisible⟩ := (hallows _ _).1 hc
    obtain ⟨front, rfl⟩ := (doubleWatch_after left).1 htwo
    exact ⟨front, c, rest, by simp, hvisible⟩
  · rintro ⟨front, c, rest, rfl, hc⟩
    have htwo := (doubleWatch_after (front ++ [',', ','])).2 ⟨front, rfl⟩
    exact ⟨front ++ [',', ','], c, rest, by simp, (hallows _ _).2 ⟨htwo, hc⟩⟩

theorem doubleWatch_keyword (cs : List Char) :
    doubleWatch.Alike cs (replaceAll keywordPattern cs) := by
  refine keywordPattern_related doubleWatch.alike_partByPart (fun w hw => ?_) cs
  have hwords : ∀ w ∈ spacedKeywords, w.toList ≠ [] ∧ ',' ∉ w.toList := by decide
  obtain ⟨hne, hcomma⟩ := hwords w hw
  obtain ⟨c, word, hword⟩ := exists_cons_of_ne_nil hne
  rw [hword, mem_cons, not_or] at hcomma
  have hidle : ∀ {cs : List Char}, ',' ∉ cs → ∀ d ∈ cs,
      doubleWatch.step 0 d = 0 ∧ doubleWatch.allows 0 d = true := by
    intro cs hcs d hd
    have hne : d ≠ ',' := fun h => hcs (h ▸ hd)
    exact ⟨by simp [doubleWatch, hne], rfl⟩
  rw [hword]
  refine alike_of_idle (fun n => ?_) (hidle (by simp [hcomma.2])) (hidle (by simp [hcomma.2]))
  simp [doubleWatch, Ne.symm hcomma.1]

/-- Where the two watches stand on their way over a text whose commas are spaced: away from commas,
behind two of them, or behind one that was kept, for a blank follows. -/
inductive OnGuard : Bool → Nat → List Char → Prop where
  | away {cs : List Char} : OnGuard false 0 cs
  | pair {n : Nat} {cs : List Char} (h : 2 ≤ n) : OnGuard true n cs
  | kept {cs : List Char} (h : cs.head?.all isBlank = true) : OnGuard true 1 cs

theorem doubleWatch_refuses {n : Nat} (h : 2 ≤ n) (cs : List Char) :
    doubleWatch.passes n (',' :: cs) = false := by
  have hallows : doubleWatch.allows n ',' = false := by
    simpa [doubleWatch] using ⟨h, by decide⟩
  rw [passes_cons, hallows, Bool.false_and]

/-- The rule for commas leaves a match if and only if two commas stood together. -/
theorem commaWatch_comma (cs : List Char) :
    commaWatch.passes false (replaceAll commaPattern cs) = doubleWatch.passes 0 cs := by
  have hcomma : ∀ {cs : List Char}, ¬ (',' :: cs).head?.all isBlank = true :=
    show ¬ isBlank ',' = true by decide
  have hwalk := replaceAll_induct commaPattern_keepsLayout.reads (motive := fun _ cs out =>
    ∀ guard n, OnGuard guard n cs → commaWatch.passes guard out = doubleWatch.passes n cs)
  refine hwalk (fun _ _ _ _ => rfl) ?_ ?_ cs false 0 .away
  · intro front c rest out hkeep ih guard n hguard
    by_cases hc : c = ','
    · subst hc
      cases hguard with
      | away =>
        refine ih true 1 (.kept ?_)
        cases rest with
        | nil => rfl
        | cons d rest =>
          refine Decidable.byContradiction fun hd => ?_
          rw [← not_isSome_iff_eq_none] at hkeep
          exact hkeep (commaPattern_isSome.2 ⟨d, rest, rfl, Bool.eq_false_iff.2 hd⟩)
      | pair hn =>
        rw [doubleWatch_refuses hn]
        rfl
      | kept hblank => exact absurd hblank hcomma
    · have hallows : commaWatch.allows guard c = doubleWatch.allows n c := by
        cases hguard with
        | away => rfl
        | pair hn =>
          have hlt : decide (n < 2) = false := decide_eq_false (Nat.not_lt.2 hn)
          simp only [commaWatch, pairWatch, doubleWatch, hlt, Bool.true_and, Bool.not_not,
            Bool.false_or]
        | kept hblank =>
          simp [commaWatch, pairWatch, doubleWatch, show isBlank c = true from hblank]
      have hstep : commaWatch.step guard c = false := by simp [commaWatch, pairWatch, hc]
      have hstep' : doubleWatch.step n c = 0 := by simp [doubleWatch, hc]
      rw [passes_cons, passes_cons, hallows, hstep, hstep', ih false 0 .away]
  · intro front piece behind new out _ hmatch ih guard n hguard
    obtain ⟨d, hd, hpiece, rfl⟩ := commaPattern_eq_some hmatch
    obtain rfl := append_cancel_right hpiece
    cases hguard with
    | away =>
      by_cases hcomma : d = ','
      · rw [hcomma]
        exact ih true 2 (.pair (Nat.le_refl 2))
      · have hstep : commaWatch.step false d = false := by simp [commaWatch, pairWatch, hcomma]
        have hstep' : doubleWatch.step 1 d = 0 := by simp [doubleWatch, hcomma]
        have hrest := ih false 0 .away
        rw [← hstep, ← hstep'] at hrest
        exact hrest
    | pair hn => exact (doubleWatch_refuses hn (d :: behind)).symm
    | kept hblank => exact absurd hblank hcomma

/-! ## 6. Layout of a stretch of code -/

/-- Code in which no pattern for layout matches. -/
def IsLaid (cs : List Char) : Prop :=
  isMatch keywordPattern cs = false ∧ isMatch commaPattern cs = false ∧
    isMatch braceBelowPattern cs = false ∧ isMatch braceTightPattern cs = false

instance (cs : List Char) : Decidable (IsLaid cs) :=
  inferInstanceAs (Decidable (_ ∧ _ ∧ _ ∧ _))

/-- The rules for layout, on a stretch of code. -/
def layOutStretch (text : List Char) : List Char :=
  replaceAll braceTightPattern (replaceAll braceBelowPattern
    (replaceAll commaPattern (replaceAll keywordPattern text)))

/-- The rules leave work to do if and only if two commas stood together. -/
theorem isLaid_layOutStretch_iff (text : List Char) :
    IsLaid (layOutStretch text) ↔ ¬ DoubledComma text := by
  have hkeyword : isMatch keywordPattern (layOutStretch text) = false := by
    rw [keywordWatch_watches, layOutStretch, (keywordWatch_braceTight _).passes,
      (keywordWatch_braceBelow _).passes, (keywordWatch_comma _).passes, ← keywordWatch_watches]
    exact isMatch_keyword text
  have hcomma : isMatch commaPattern (layOutStretch text) = false ↔ ¬ DoubledComma text := by
    rw [commaWatch_watches, layOutStretch, (commaWatch_braceTight _).passes,
      (commaWatch_braceBelow _).passes, commaWatch_comma, (doubleWatch_keyword _).passes,
      doubleWatch_iff]
  have hbelow : isMatch braceBelowPattern (layOutStretch text) = false := by
    rw [belowWatch_watches, layOutStretch, (belowWatch_braceTight _).passes, ← belowWatch_watches]
    exact isMatch_braceBelow _
  exact ⟨fun h => hcomma.1 h.2.1,
    fun h => ⟨hkeyword, hcomma.2 h, hbelow, isMatch_braceTight _⟩⟩

end CodeAssist.Offline
