import CodeAssist.Facts.Scan
import CodeAssist.Memory.Search
import CodeAssist.Proofs.Prompt.Window
import CodeAssist.Proofs.Text.Finding
import CodeAssist.Proofs.Text.Lines

/-!
Where the facts of a text stand.

Matches are numbered by the newlines before them, while the rest of the program numbers the lines
of a text, whose ends may have carriage returns. Both come to the same for a match that begins with
something that has neither: its line is there, and holds what it begins with.
-/

namespace CodeAssist.Text

open List

/-! ## 1. Matches -/

section Matches

variable {p : Pattern α}

/-- A match begins somewhere, on the line that the newlines before it give. -/
theorem mem_matchesFrom {cs : List Char} {skip : Nat} {before : Option Char} {line : Nat}
    {e : Nat × α} (h : e ∈ matchesFrom p skip before line cs) :
    ∃ front rest, cs = front ++ rest ∧ e.1 = line + newlines front ∧
      ∃ before behind, p before rest = some (e.2, behind) := by
  induction cs generalizing skip before line with
  | nil => cases h
  | cons c rest ih =>
    -- a match further on has this character before it
    have hlater : ∀ {skip before}, e ∈ matchesFrom p skip before
        (if c == '\n' then line + 1 else line) rest →
        ∃ front rest', c :: rest = front ++ rest' ∧ e.1 = line + newlines front ∧
          ∃ before behind, p before rest' = some (e.2, behind) := by
      intro skip before hmem
      obtain ⟨front, rest', rfl, hline, hmatch⟩ := ih hmem
      refine ⟨c :: front, rest', rfl, ?_, hmatch⟩
      rw [hline, newlines, newlines, count_cons]
      split <;> omega
    cases skip with
    | succ k =>
      rw [matchesFrom] at h
      exact hlater h
    | zero =>
      rw [matchesFrom] at h
      split at h
      · rename_i a behind hmatch
        rcases mem_cons.1 h with rfl | h
        · exact ⟨[], c :: rest, rfl, rfl, before, behind, hmatch⟩
        · exact hlater h
      · exact hlater h

theorem mem_matchesOf {cs : List Char} {e : Nat × α} (h : e ∈ matchesOf p cs) :
    ∃ front rest, cs = front ++ rest ∧ e.1 = newlines front + 1 ∧
      ∃ before behind, p before rest = some (e.2, behind) := by
  obtain ⟨front, rest, hcs, hline, hmatch⟩ := mem_matchesFrom h
  exact ⟨front, rest, hcs, hline.trans (Nat.add_comm _ _), hmatch⟩

/-- Matches come in the order of their lines. -/
theorem matchesFrom_ascending (cs : List Char) (skip : Nat) (before : Option Char) (line : Nat) :
    (matchesFrom p skip before line cs).Pairwise fun a b => a.1 ≤ b.1 := by
  induction cs generalizing skip before line with
  | nil => exact .nil
  | cons c rest ih =>
    cases skip with
    | succ k =>
      rw [matchesFrom]
      exact ih ..
    | zero =>
      rw [matchesFrom]
      split
      · refine pairwise_cons.2 ⟨fun e he => ?_, ih ..⟩
        obtain ⟨front, -, -, hline, -⟩ := mem_matchesFrom he
        rw [hline]
        dsimp only
        split <;> omega
      · exact ih ..

theorem matchesOf_ascending (p : Pattern α) (cs : List Char) :
    (matchesOf p cs).Pairwise fun a b => a.1 ≤ b.1 :=
  matchesFrom_ascending cs 0 none 1

end Matches

end CodeAssist.Text

namespace CodeAssist.Facts

open Text List Option

variable {cs word rest type name : List Char} {pair : List Char × List Char} {n line : Nat}
  {before : Option Char} {content : String}

/-! ## 2. Patterns -/

theorem word?_eq_some (h : word? cs = some (word, rest)) :
    cs = word ++ rest ∧ word ≠ [] ∧ ∀ c ∈ word, isWord c = true := by
  rw [word?] at h
  split at h
  · cases h
  · rename_i hempty
    cases h
    exact ⟨takeWhile_append_dropWhile.symm, fun hnil => hempty (isEmpty_iff.2 hnil),
      fun c hc => all_eq_true.1 all_takeWhile c hc⟩

theorem wordPair_eq_some (h : wordPair before cs = some ((type, name), rest)) :
    (∃ behind, cs = type ++ behind) ∧ type ≠ [] ∧ name ≠ [] ∧
      (∀ c ∈ type, isWord c = true) ∧ ∀ c ∈ name, isWord c = true := by
  rw [wordPair] at h
  split at h
  · cases h
  · simp only [bind_eq_bind, bind_eq_some_iff, Option.pure_def] at h
    obtain ⟨⟨first, behind⟩, hfirst, gap, -, ⟨second, rest'⟩, hsecond, heq⟩ := h
    cases heq
    obtain ⟨rfl, htype, htypeWord⟩ := word?_eq_some hfirst
    obtain ⟨-, hname, hnameWord⟩ := word?_eq_some hsecond
    exact ⟨⟨behind, rfl⟩, htype, hname, htypeWord, hnameWord⟩

theorem functionPattern_pair (h : functionPattern before cs = some (pair, rest)) :
    ∃ rest', wordPair before cs = some (pair, rest') := by
  simp only [functionPattern, bind_eq_bind, bind_eq_some_iff, Option.pure_def] at h
  obtain ⟨⟨pair', rest'⟩, hpair, _, -, _, -, _, -, heq⟩ := h
  cases heq
  exact ⟨rest', hpair⟩

theorem variablePattern_pair (h : variablePattern before cs = some (pair, rest)) :
    ∃ rest', wordPair before cs = some (pair, rest') := by
  simp only [variablePattern, bind_eq_bind, bind_eq_some_iff] at h
  obtain ⟨⟨pair', rest'⟩, hpair, heq⟩ := h
  refine ⟨rest', ?_⟩
  split at heq
  · split at heq
    · cases heq
      exact hpair
    · cases heq
  · cases heq

theorem includePattern_begins {header : List Char}
    (h : includePattern before cs = some (header, rest)) :
    ∃ behind, cs = "#include".toList ++ behind := by
  simp only [includePattern, bind_eq_bind, bind_eq_some_iff] at h
  obtain ⟨behind, hbehind, -⟩ := h
  exact ⟨behind, after?_eq_some hbehind⟩

/-! ## 3. The main result -/

/-- A line of a text, by its number counted from one. -/
structure IsLine (content : String) (n : Nat) (line : String) : Prop where
  first : 1 ≤ n
  last : n ≤ (linesOf content).length
  line : (linesOf content)[n - 1]? = some line

/-- A word that can be a type or a name. -/
structure IsTerm (word : String) : Prop where
  nonempty : word ≠ ""
  letters : ∀ c ∈ word.toList, isWord c = true
  free : word ∉ controlWords

/-- What is asked of a declaration in a text: its type and its name are terms, the name does not
start with a digit, and its line is one of the text and holds the type. -/
structure IsPlaced (content : String) (type name : String) (n : Nat) : Prop where
  typeTerm : IsTerm type
  nameTerm : IsTerm name
  noDigit : ∀ c ∈ name.toList.head?, isAsciiDigit c = false
  shown : ∃ line, IsLine content n line ∧ type.toList <:+: line.toList

theorem isLine_of_getElem? {line : String} (h : (linesOf content)[n]? = some line) :
    IsLine content (n + 1) line :=
  ⟨Nat.succ_pos n, (List.getElem?_eq_some_iff.1 h).1, h⟩

theorem exists_isLine {front : List Char} (hcontent : content.toList = front ++ (word ++ rest))
    (hword : word ≠ []) (hplain : ∀ c ∈ word, c ≠ '\n' ∧ c ≠ '\r') :
    ∃ line, IsLine content (newlines front + 1) line ∧ word <:+: line.toList := by
  obtain ⟨line, hline, hpart⟩ := exists_line_of_newlines hword hplain front rest
  refine ⟨String.ofList line, isLine_of_getElem? ?_, by rwa [String.toList_ofList]⟩
  rw [linesOf, hcontent, getElem?_map, hline]
  rfl

theorem plain_of_isWord (h : ∀ c ∈ word, isWord c = true) :
    ∀ c ∈ word, c ≠ '\n' ∧ c ≠ '\r' := by
  refine fun c hc => ⟨?_, ?_⟩ <;> rintro rfl <;> exact absurd (h _ hc) (by decide)

theorem ofList_ne_empty (h : cs ≠ []) : String.ofList cs ≠ "" := by
  intro heq
  rw [← String.toList_inj, String.toList_ofList] at heq
  exact h heq

/-- A match that begins with a pair of words declares something where it stands. -/
theorem isPlaced_of_match {p : Pattern (List Char × List Char)}
    (hp : ∀ {before cs pair rest}, p before cs = some (pair, rest) →
      ∃ rest', wordPair before cs = some (pair, rest'))
    (hmatch : (line, type, name) ∈ matchesOf p content.toList)
    (hpair : isIdentifierPair (String.ofList type) (String.ofList name) = true) :
    IsPlaced content (String.ofList type) (String.ofList name) line := by
  obtain ⟨front, rest, hcontent, rfl, before, behind, hfound⟩ := mem_matchesOf hmatch
  obtain ⟨rest', hwords⟩ := hp hfound
  obtain ⟨⟨behind', rfl⟩, htype, hname, htypeWord, hnameWord⟩ := wordPair_eq_some hwords
  simp only [isIdentifierPair, Bool.and_eq_true, Bool.not_eq_true', contains_eq_mem,
    decide_eq_false_iff_not] at hpair
  obtain ⟨⟨htypeFree, hnameFree⟩, hdigit⟩ := hpair
  obtain ⟨shown, hline, hpart⟩ := exists_isLine hcontent htype (plain_of_isWord htypeWord)
  refine ⟨⟨ofList_ne_empty htype, by rwa [String.toList_ofList], htypeFree⟩,
    ⟨ofList_ne_empty hname, by rwa [String.toList_ofList], hnameFree⟩, ?_,
    shown, hline, by rwa [String.toList_ofList]⟩
  intro c hc
  rw [mem_def] at hc
  rw [hc] at hdigit
  simpa using hdigit

theorem functionOf_eq_some {f : FunctionFact} (h : functionOf line type name = some f) :
    isIdentifierPair (String.ofList type) (String.ofList name) = true ∧
      f = ⟨String.ofList type, String.ofList name, line⟩ := by
  obtain ⟨hpair, heq⟩ := ite_none_right_eq_some.1 h
  exact ⟨hpair, (some.inj heq).symm⟩

theorem variableOf_eq_some {v : VariableFact} (h : variableOf line type name = some v) :
    isIdentifierPair (String.ofList type) (String.ofList name) = true ∧
      v = ⟨String.ofList type, String.ofList name, line⟩ := by
  obtain ⟨hpair, heq⟩ := ite_none_right_eq_some.1 h
  exact ⟨hpair, (some.inj heq).symm⟩

/-- The functions, variables and includes of a text stand in ascending lines. -/
theorem facts_ascending (content : String) :
    ((ofText content).functions.Pairwise fun a b => a.line ≤ b.line) ∧
    ((ofText content).vars.Pairwise fun a b => a.line ≤ b.line) ∧
    ((ofText content).includes.Pairwise fun a b => a.line ≤ b.line) := by
  refine ⟨?_, ?_, ?_⟩
  · refine pairwise_filterMap.2 ((matchesOf_ascending ..).imp fun hle f hf g hg => ?_)
    rw [(functionOf_eq_some hf).2, (functionOf_eq_some hg).2]
    exact hle
  · refine pairwise_filterMap.2 ((matchesOf_ascending ..).imp fun hle f hf g hg => ?_)
    rw [(variableOf_eq_some hf).2, (variableOf_eq_some hg).2]
    exact hle
  · exact pairwise_map.2 ((matchesOf_ascending ..).imp fun hle => hle)

theorem isLine_of_searchFile {needle : List Char} {path : String} {f : SourceFile} {text : String}
    (h : .file path n text ∈ Memory.searchFile needle path f) :
    ∃ line, IsLine f.content n line ∧ text = trim line := by
  obtain ⟨⟨line, index⟩, hmem, hhit⟩ := mem_filterMap.1 h
  obtain ⟨-, heq⟩ := ite_none_right_eq_some.1 hhit
  cases heq
  exact ⟨line, isLine_of_getElem? (mk_mem_zipIdx_iff_getElem?.1 hmem), rfl⟩

theorem isLine_of_window {config : Prompt.Config} {cursor : Cursor} {view : View} {file : OpenFile}
    (hfile : view.openFile = some file) {nearby : List Prompt.NumberedLine}
    (hwindow : Prompt.window config cursor view = .ok nearby) {text : List Char}
    (h : (n, text) ∈ nearby) : IsLine file.content n (String.ofList text) := by
  rw [Prompt.window_eq config cursor hfile] at hwindow
  split at hwindow
  · cases hwindow
    obtain ⟨⟨line, index⟩, hmem, heq⟩ := mem_map.1 (mem_filter.1 h).1
    cases heq
    refine isLine_of_getElem? ?_
    rw [linesOf, getElem?_map, mk_mem_zipIdx_iff_getElem?.1 hmem]
    rfl
  · cases hwindow

/-- Each function and variable of a text has a type and a name that are words and no control words,
the name without a leading digit; its line is one of the text and holds the type. The line of an
include holds `#include`. In each of the three lists the lines ascend. Searches and prompts number
the lines of the text in the same way. -/
theorem facts_well_placed (content : String) :
    (∀ f ∈ (ofText content).functions, IsPlaced content f.returnType f.name f.line) ∧
    (∀ v ∈ (ofText content).vars, IsPlaced content v.type v.name v.line) ∧
    (∀ i ∈ (ofText content).includes,
      ∃ line, IsLine content i.line line ∧ "#include".toList <:+: line.toList) ∧
    ((ofText content).functions.Pairwise fun a b => a.line ≤ b.line) ∧
    ((ofText content).vars.Pairwise fun a b => a.line ≤ b.line) ∧
    ((ofText content).includes.Pairwise fun a b => a.line ≤ b.line) ∧
    (∀ (needle : List Char) (path : String) (f : SourceFile) (n : Nat) (text : String),
      f.content = content → .file path n text ∈ Memory.searchFile needle path f →
      ∃ line, IsLine content n line ∧ text = trim line) ∧
    (∀ (config : Prompt.Config) (cursor : Cursor) (view : View) (file : OpenFile)
      (nearby : List Prompt.NumberedLine) (n : Nat) (text : List Char),
      view.openFile = some file → file.content = content →
      Prompt.window config cursor view = .ok nearby → (n, text) ∈ nearby →
      IsLine content n (String.ofList text)) := by
  obtain ⟨hfunctions, hvars, hincludes⟩ := facts_ascending content
  refine ⟨fun f hf => ?_, fun v hv => ?_, fun i hi => ?_, hfunctions, hvars, hincludes, ?_, ?_⟩
  · obtain ⟨⟨line, type, name⟩, hmatch, hfact⟩ := List.mem_filterMap.1 hf
    obtain ⟨hpair, rfl⟩ := functionOf_eq_some hfact
    exact isPlaced_of_match functionPattern_pair hmatch hpair
  · obtain ⟨⟨line, type, name⟩, hmatch, hfact⟩ := List.mem_filterMap.1 hv
    obtain ⟨hpair, rfl⟩ := variableOf_eq_some hfact
    exact isPlaced_of_match variablePattern_pair hmatch hpair
  · obtain ⟨⟨line, header⟩, hmatch, rfl⟩ := List.mem_map.1 hi
    obtain ⟨front, rest, hcontent, hline, before, behind, hfound⟩ := mem_matchesOf hmatch
    obtain ⟨behind', rfl⟩ := includePattern_begins hfound
    obtain rfl : line = newlines front + 1 := hline
    exact exists_isLine hcontent (by simp) (by simp)
  · rintro needle path f n text rfl hhit
    exact isLine_of_searchFile hhit
  · rintro config cursor view file nearby n text hfile rfl hwindow hshown
    exact isLine_of_window hfile hwindow hshown

/-- Carriage returns at line ends, one that stands alone, a match over several lines, control words
and a digit. -/
def oddSource : String :=
  "#include <a.h>\r\nint\r\n  x;\rwhile y;\n\nint 2;\nκ f(int\na)\n\x7b return x; \x7d"

theorem facts_well_placed_odd :
    ofText oddSource = ⟨[⟨"κ", "f", 6⟩], [⟨"int", "x", 2⟩], [⟨"a.h", 1⟩]⟩ ∧
    IsPlaced oddSource "int" "x" 2 ∧ IsPlaced oddSource "κ" "f" 6 ∧
    (∃ line, IsLine oddSource 1 line ∧ "#include".toList <:+: line.toList) ∧
    ∃ line, IsLine oddSource 2 line ∧ "int" = trim line := by
  have hfacts : ofText oddSource = ⟨[⟨"κ", "f", 6⟩], [⟨"int", "x", 2⟩], [⟨"a.h", 1⟩]⟩ := by
    decide +kernel
  obtain ⟨hfunctions, hvars, hincludes, -, -, -, hsearch, -⟩ := facts_well_placed oddSource
  rw [hfacts] at hfunctions hvars hincludes
  refine ⟨hfacts, hvars _ List.mem_cons_self, hfunctions _ List.mem_cons_self,
    hincludes _ List.mem_cons_self, ?_⟩
  exact hsearch ['i', 'n', 't'] "a.c" ⟨"a.c", oddSource, 0, .epoch, .empty⟩ 2 "int" rfl
    (by decide +kernel)

end CodeAssist.Facts
