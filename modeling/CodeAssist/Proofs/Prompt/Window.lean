import CodeAssist.Prompt.Build
import Mathlib.Data.Nat.Dist

/-!
The lines around the cursor.

A prompt is meant to show the lines whose distance to the cursor is at most the configured number.
The first of them is found by a subtraction that stops at zero, the last one by a plain addition of
64-bit words. Where the sum is a word, the window is the one that is meant; where it is none, there
is neither a window nor a prompt (`window_within_iff`, `build_eq_error_iff`).
-/

namespace CodeAssist.Prompt

open Text List

/-! ## 1. The window -/

/-- The lines of a text with their numbers. -/
def numberedLines (content : String) : List NumberedLine :=
  (lines content.toList).zipIdx.map fun entry => (entry.2 + 1, entry.1)

/-- The lines of a text that are at most `distance` away from the line `middle`. -/
def linesWithin (content : String) (middle distance : Nat) : List NumberedLine :=
  (numberedLines content).filter fun l => Nat.dist l.1 middle ≤ distance

/-- The line that a window is around. Line zero counts as the first. -/
def middleLine (cursor : Cursor) : Nat :=
  max cursor.line.toNat 1

theorem toNat_max (a b : UInt64) : (max a b).toNat = max a.toNat b.toNat := by
  rw [show max a b = if a ≤ b then b else a from rfl]
  split
  · rename_i h
    rw [Nat.max_eq_right (UInt64.le_iff_toNat_le.1 h)]
  · rename_i h
    rw [Nat.max_eq_left (Nat.le_of_lt (Nat.lt_of_not_le (mt UInt64.le_iff_toNat_le.2 h)))]

theorem pos_of_mem_numberedLines {content : String} {l : NumberedLine}
    (h : l ∈ numberedLines content) : 1 ≤ l.1 := by
  obtain ⟨entry, -, rfl⟩ := mem_map.1 h
  exact Nat.le_add_left ..

/-- With the right bounds the lines are those within the distance. -/
theorem filter_bounds (content : String) (middle distance : Nat) :
    ((numberedLines content).filter fun l =>
      decide (max (middle - distance) 1 ≤ l.1) && decide (l.1 ≤ middle + distance)) =
      linesWithin content middle distance := by
  refine filter_congr fun l hl => ?_
  have hpos := pos_of_mem_numberedLines hl
  rw [Bool.eq_iff_iff, Bool.and_eq_true, decide_eq_true_iff, decide_eq_true_iff, decide_eq_true_iff,
    Nat.dist]
  omega

theorem window_of_closed {view : View} (hfile : view.openFile = none) (config : Config)
    (cursor : Cursor) : window config cursor view = .ok [] := by
  rw [window, hfile]

/-- The window of an open file: the lines within the distance, or a panic if the sum that says where
they end is no word. -/
theorem window_eq (config : Config) (cursor : Cursor) {view : View} {file : OpenFile}
    (hfile : view.openFile = some file) :
    window config cursor view =
      if middleLine cursor + config.windowLines.toNat < 2 ^ 64 then
        .ok (linesWithin file.content (middleLine cursor) config.windowLines.toNat)
      else .error .overflow := by
  have hmiddle : (max cursor.line 1).toNat = middleLine cursor := toNat_max cursor.line 1
  rw [window, hfile]
  dsimp only
  rw [checkedAdd, hmiddle, show UInt64.size = 2 ^ 64 from rfl]
  split
  · rename_i hsum
    rw [← filter_bounds]
    change Except.ok _ = Except.ok _
    rw [UInt64.toNat_add, hmiddle, Nat.mod_eq_of_lt hsum]
    rfl
  · rfl

/-! ## 2. Prompts that are not built -/

/-- There is a file to show lines of, and the sum that says where they end is no word. -/
def Overflows (config : Config) (request : Request) (view : View) : Prop :=
  view.openFile.isSome ∧ 2 ^ 64 ≤ middleLine (cursorOf request view) + config.windowLines.toNat

instance (config : Config) (request : Request) (view : View) :
    Decidable (Overflows config request view) :=
  inferInstanceAs (Decidable (_ ∧ _))

theorem overflows_congr {config : Config} {request : Request} {view view' : View}
    (hfile : view'.openFile = view.openFile) (hediting : view'.editing = view.editing) :
    Overflows config request view' ↔ Overflows config request view := by
  have hcursor : cursorOf request view' = cursorOf request view := by
    cases request <;> simp only [cursorOf, hediting]
  rw [Overflows, Overflows, hfile, hcursor]

/-- Without lines around the cursor there is nothing to add. -/
theorem not_overflows_of_narrow {config : Config} (h : config.windowLines = 0) (request : Request)
    (view : View) : ¬ Overflows config request view := by
  rintro ⟨-, hsum⟩
  have hline := (cursorOf request view).line.toNat_lt
  rw [h, middleLine] at hsum
  simp only [UInt64.toNat_zero] at hsum
  omega

theorem window_eq_error_iff {config : Config} {request : Request} {view : View} :
    window config (cursorOf request view) view = .error .overflow ↔
      Overflows config request view := by
  rw [Overflows]
  cases hfile : view.openFile with
  | none => simp [window_of_closed hfile]
  | some file =>
    rw [window_eq config _ hfile]
    split <;> simp <;> omega

theorem build_eq_error_iff {config : Config} {request : Request} {view : View} :
    build config request view = .error .overflow ↔ Overflows config request view := by
  rw [← window_eq_error_iff, build]
  cases window config (cursorOf request view) view <;> simp [Except.map]

theorem build_eq_ok_iff {config : Config} {request : Request} {view : View} {prompt : Prompt} :
    build config request view = .ok prompt ↔ ∃ nearby,
      window config (cursorOf request view) view = .ok nearby ∧
        promptOf config request view nearby = prompt := by
  rw [build]
  cases window config (cursorOf request view) view <;> simp [Except.map]

/-- A prompt is built unless the sum overflows. -/
theorem exists_build {config : Config} {request : Request} {view : View}
    (h : ¬ Overflows config request view) : ∃ prompt, build config request view = .ok prompt := by
  cases hbuild : build config request view with
  | ok prompt => exact ⟨prompt, rfl⟩
  | error panic =>
    cases panic
    exact absurd (build_eq_error_iff.1 hbuild) h

/-! ## 3. The main statement -/

/-- Where the cursor line and the number of lines add up to a 64-bit word, and only there, the
window is made of the lines within that distance of the cursor. Elsewhere finding it panics. -/
theorem window_within_iff (config : Config) (cursor : Cursor) {view : View} {file : OpenFile}
    (hfile : view.openFile = some file) :
    (window config cursor view =
        .ok (linesWithin file.content (middleLine cursor) config.windowLines.toNat) ↔
      middleLine cursor + config.windowLines.toNat < 2 ^ 64) ∧
    (window config cursor view = .error .overflow ↔
      2 ^ 64 ≤ middleLine cursor + config.windowLines.toNat) := by
  rw [window_eq config cursor hfile]
  split
  · rename_i hsum
    exact ⟨iff_of_true rfl hsum, iff_of_false nofun (Nat.not_le.2 hsum)⟩
  · rename_i hsum
    exact ⟨iff_of_false nofun hsum, iff_of_true rfl (Nat.not_lt.1 hsum)⟩

def twoLineView : View :=
  { (default : View) with openFile := some ⟨"a.c", "int a;\nint b;\n", default⟩ }

/-- As many lines around the cursor as can be asked for. -/
def widestConfig : Config :=
  ⟨"C", 0xffffffffffffffff, 6000⟩

theorem window_within_iff_two_lines :
    twoLineView.openFile = some ⟨"a.c", "int a;\nint b;\n", default⟩ ∧
    window ⟨"C", 1, 6000⟩ ⟨2, 1⟩ twoLineView = .ok (linesWithin "int a;\nint b;\n" 2 1) ∧
    window ⟨"C", 1, 6000⟩ ⟨0xffffffffffffffff, 1⟩ twoLineView = .error .overflow := by
  have hfile : twoLineView.openFile = some ⟨"a.c", "int a;\nint b;\n", default⟩ := rfl
  exact ⟨hfile, (window_within_iff ⟨"C", 1, 6000⟩ ⟨2, 1⟩ hfile).1.2 (by decide),
    (window_within_iff ⟨"C", 1, 6000⟩ ⟨0xffffffffffffffff, 1⟩ hfile).2.2 (by decide)⟩

/-- The widest window around the first line: both lines are near, and there is no window. -/
theorem widest_window_overflows :
    window widestConfig ⟨1, 1⟩ twoLineView = .error .overflow ∧
    build widestConfig (.completion ⟨1, 1⟩ "") twoLineView = .error .overflow ∧
    linesWithin "int a;\nint b;\n" 1 widestConfig.windowLines.toNat =
      [(1, "int a;".toList), (2, "int b;".toList)] :=
  ⟨rfl, rfl, by decide +kernel⟩

end CodeAssist.Prompt
