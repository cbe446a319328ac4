import CodeAssist.Proofs.Store.Runs
import CodeAssist.Proofs.Table

/-!
Memories apart from their moments.

What an operation does to a memory depends on the time at which it is done in no other way than
through the moments that it writes down (`Operation.effect_untimed`).
-/

namespace CodeAssist

open List Option Memory Store.Update

/-! ## 1. Forgetting moments -/

def Project.untimed (p : Project) : Project :=
  { p with createdAt := default, lastModified := default }

def SourceFile.untimed (f : SourceFile) : SourceFile :=
  { f with lastModified := default }

def Event.untimed (e : Event) : Event :=
  { e with moment := default }

def Exchange.untimed (e : Exchange) : Exchange :=
  { e with moment := default }

def Memory.untimed (m : Memory) : Memory :=
  { m with
    project := m.project.untimed
    files := m.files.map SourceFile.untimed
    events := m.events.map Event.untimed
    exchanges := m.exchanges.map Exchange.untimed }

theorem latest_map (f : α → β) (n : Nat) (xs : List α) :
    (latest n xs).map f = latest n (xs.map f) := by
  rw [latest, latest, map_drop, length_map]

theorem putFiles_untimed (files : Table SourceFile) (new : List SourceFile) :
    (putFiles files new).map SourceFile.untimed =
      putFiles (files.map SourceFile.untimed) (new.map SourceFile.untimed) := by
  rw [putFiles, putFiles, Table.map_sorted, Table.map_putAll, List.map_map, List.map_map]
  rfl

/-! ## 2. Changes -/

namespace Memory

theorem logEvent_untimed (m : Memory) (e : Event) :
    (m.logEvent e).untimed = m.untimed.logEvent e.untimed := by
  simp only [logEvent, untimed, latest_map, map_append, map_singleton]

theorem logExchange_untimed (m : Memory) (e : Exchange) :
    (m.logExchange e).untimed = m.untimed.logExchange e.untimed := by
  simp only [logExchange, untimed, latest_map, map_append, map_singleton]

theorem touch_untimed (m : Memory) (now : Moment) : (m.touch now).untimed = m.untimed :=
  rfl

theorem putFile_untimed (m : Memory) (f : SourceFile) (now : Moment) :
    (m.putFile f now).untimed = m.untimed.putFile f.untimed default := by
  rw [putFile, putFile, logEvent_untimed]
  simp only [untimed, putFiles_untimed]
  rfl

theorem patch_untimed (m : Memory) (p : EditPatch) (now : Moment) :
    (m.patch p now).untimed = m.untimed.patch p default := by
  simp only [patch]
  split
  · rename_i hsame
    rw [if_pos (show (p.apply m.untimed.editing).currentFile = m.untimed.editing.currentFile
      from hsame)]
    rfl
  · rename_i hother
    rw [logEvent_untimed, if_neg (show ¬ (p.apply m.untimed.editing).currentFile =
      m.untimed.editing.currentFile from hother)]
    rfl

theorem clear_untimed (m : Memory) (now : Moment) :
    (m.clear now).untimed = m.untimed.clear default := by
  simp only [clear, untimed, Table.map, length_map, map_singleton, Event.untimed,
    map_nil]
  rfl

end Memory

def CheckedImport.untimed (c : CheckedImport) : CheckedImport :=
  { c with
    files := c.files.map SourceFile.untimed
    events := c.events.map Event.untimed
    exchanges := c.exchanges.map Exchange.untimed }

theorem Memory.merge_untimed (m : Memory) (c : CheckedImport) (now : Moment) :
    (m.merge c now).untimed = m.untimed.merge c.untimed default := by
  simp only [merge, logEvent_untimed]
  simp only [untimed, CheckedImport.untimed, putFiles_untimed, latest_map,
    map_append, length_map, Event.untimed]

theorem map_eq_map_cases {x y : Except ε α} {f : α → β} (h : x.map f = y.map f) :
    (∃ e, x = .error e ∧ y = .error e) ∨ ∃ a b, x = .ok a ∧ y = .ok b ∧ f a = f b := by
  cases x with
  | error e =>
    cases y with
    | error e' =>
      cases h
      exact .inl ⟨e, rfl, rfl⟩
    | ok b => cases h
  | ok a =>
    cases y with
    | error e' => cases h
    | ok b => exact .inr ⟨a, b, rfl, rfl, Except.ok.inj h⟩

theorem checkFiles_untimed (root : List String) (now now' : Moment) :
    ∀ files : List (String × ImportedFile),
      (checkFiles root now files).map (·.map SourceFile.untimed) =
        (checkFiles root now' files).map (·.map SourceFile.untimed)
  | [] => rfl
  | (text, f) :: rest => by
    have ih := checkFiles_untimed root now now' rest
    rw [checkFiles, checkFiles]
    split
    · rfl
    split
    · rfl
    rcases map_eq_map_cases ih with ⟨e, h, h'⟩ | ⟨files, files', h, h', hsame⟩
    · rw [h, h']
      rfl
    · rw [h, h']
      exact congrArg (fun fs => Except.ok (_ :: fs)) hsame

theorem CheckedImport.ofJson_untimed (j : Json) (root : List String) (now now' : Moment) :
    (ofJson j root now).map CheckedImport.untimed =
      (ofJson j root now').map CheckedImport.untimed := by
  rw [ofJson, ofJson]
  split
  · split
    · rename_i document _
      rw [ImportDocument.check, ImportDocument.check]
      split
      · rfl
      · have hfiles := checkFiles_untimed root now now' document.files.entries
        rcases map_eq_map_cases hfiles with ⟨e, h, h'⟩ | ⟨files, files', h, h', hsame⟩
        · rw [h, h']
        · rw [h, h']
          exact congrArg (fun fs => Except.ok (CheckedImport.mk fs _ _ _)) hsame
    · rfl
  · rfl

/-! ## 3. Operations -/

theorem document_effect_untimed {m m' : Memory} (h : m.untimed = m'.untimed) (root : List String)
    (j : Json) (now now' : Moment) :
    ((document root j now).effect now m).map untimed =
      ((document root j now').effect now' m').map untimed := by
  rw [document, document]
  rcases map_eq_map_cases (CheckedImport.ofJson_untimed j root now now') with
    ⟨e, hc, hc'⟩ | ⟨c, c', hc, hc', hsame⟩
  · rw [hc, hc']
    rfl
  · rw [hc, hc']
    simp only [effect, map_some, touch_untimed, merge_untimed, h,
      hsame]

/-- An operation at another time does the same, apart from moments. -/
theorem Operation.effect_untimed {m m' : Memory} (h : m.untimed = m'.untimed)
    (root : List String) (now now' : Moment) (op : Operation) :
    (op.effect root now m).map Memory.untimed = (op.effect root now' m').map Memory.untimed := by
  cases op with
  | file path content =>
    simp only [effect, Store.Update.file]
    split
    · rfl
    · simp only [Store.Update.effect, map_some, Memory.touch_untimed,
        Memory.putFile_untimed, h]
      rfl
  | editing p =>
    have hediting : m.untimed.editing = m'.untimed.editing := congrArg Memory.editing h
    change m.editing = m'.editing at hediting
    simp only [effect, Store.Update.editing, hediting]
    split
    · simp only [Store.Update.effect, map_some, Memory.touch_untimed, Memory.patch_untimed,
        h]
    · rfl
  | event kind details =>
    simp only [effect, Store.Update.event, Store.Update.effect, map_some,
      Memory.touch_untimed, Memory.logEvent_untimed, h]
    rfl
  | exchange action prompt response metadata =>
    simp only [effect, Store.Update.exchange, Store.Update.effect, map_some,
      Memory.touch_untimed, Memory.logExchange_untimed, h]
    rfl
  | clear =>
    simp only [effect, Store.Update.clearing, Store.Update.effect, map_some,
      Memory.touch_untimed, Memory.clear_untimed, h]
  | document json => exact document_effect_untimed h root json now now'
  | documentText text =>
    simp only [effect, Store.Update.documentText]
    split
    · exact document_effect_untimed h root _ now now'
    · rfl
  | flush => rfl

end CodeAssist
