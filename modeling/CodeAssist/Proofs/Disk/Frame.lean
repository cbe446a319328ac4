import CodeAssist.Disk.Basic

/-!
What the operations of a disk leave as it was.

Everything here is about the entries of one directory. An operation at one entry says what it finds
and leaves there, and no other entry of the directory changes. An operation below one entry changes
nothing below the others.
-/

namespace CodeAssist

open List

variable {more rest : List String} {f : Option Node → Except Fault (Option Node)}
  {other text target : String}

theorem exists_of_bind_ok {x : Except ε α} {f : α → Except ε β} {b : β}
    (h : (x >>= f) = .ok b) : ∃ a, x = .ok a ∧ f a = .ok b := by
  cases x with
  | error e => cases h
  | ok a => exact ⟨a, rfl, h⟩

namespace Node

/-! ## 1. Entries of a directory -/

theorem child?_filter_ne {name : String} (h : other ≠ name) (entries : List (String × Node)) :
    child? other (entries.filter (·.1 != name)) = child? other entries := by
  induction entries with
  | nil => rfl
  | cons e rest ih =>
    obtain ⟨n, node⟩ := e
    by_cases hn : n = name
    · have hother : (n == other) = false := by
        rw [hn]
        exact beq_false_of_ne (Ne.symm h)
      simp only [filter_cons, hn, bne_self_eq_false, Bool.false_eq_true, if_false, ih]
      rw [child?, ← hn, hother]
      rfl
    · simp only [filter_cons, bne_iff_ne.2 hn, if_true, child?, ih]

theorem child?_filter_self (name : String) (entries : List (String × Node)) :
    child? name (entries.filter (·.1 != name)) = none := by
  induction entries with
  | nil => rfl
  | cons e rest ih =>
    obtain ⟨n, node⟩ := e
    by_cases hn : n = name
    · simp only [filter_cons, hn, bne_self_eq_false, Bool.false_eq_true, if_false, ih]
    · simp only [filter_cons, bne_iff_ne.2 hn, if_true, child?, ih,
        beq_false_of_ne hn, Bool.false_eq_true, if_false]

theorem child?_setChild_self (name : String) (node : Option Node)
    (entries : List (String × Node)) : child? name (setChild name node entries) = node := by
  induction entries with
  | nil => cases node <;> simp [setChild, child?]
  | cons e rest ih =>
    obtain ⟨n, old⟩ := e
    rw [setChild]
    split
    · cases node with
      | none => exact child?_filter_self name rest
      | some new => simp [child?]
    · rename_i hn
      rw [child?, if_neg hn, ih]

theorem child?_setChild_ne {name : String} (h : other ≠ name) (node : Option Node)
    (entries : List (String × Node)) :
    child? other (setChild name node entries) = child? other entries := by
  have hne : (name == other) = false := beq_false_of_ne (Ne.symm h)
  induction entries with
  | nil => cases node <;> simp [setChild, child?, hne]
  | cons e rest ih =>
    obtain ⟨n, old⟩ := e
    rw [setChild]
    split
    · rename_i hn
      obtain rfl := beq_iff_eq.1 hn
      cases node with
      | none | some new => simp [child?, hne, child?_filter_ne h]
    · rw [child?, child?, ih]

/-! ## 2. Trees -/

/-- What is found where there may be nothing. -/
def found : Option Node → Except Fault Node
  | some node => .ok node
  | none => .error .notFound

theorem find_singleton (name : String) (entries : List (String × Node)) :
    find [name] (directory entries) = found (child? name entries) := by
  rw [find]
  cases child? name entries <;> rfl

/-- A change at an entry of a directory: what it finds and leaves there, and that the other entries
stay. -/
theorem change_find {name : String} :
    ∀ {path : List String} {node : Node} {changed : Option Node},
      change f (path ++ [name]) (some node) = .ok changed →
      ∃ old new top, f old = .ok new ∧ changed = some top ∧
        node.find (path ++ [name]) = found old ∧ top.find (path ++ [name]) = found new ∧
        ∀ other, other ≠ name → top.find (path ++ [other]) = node.find (path ++ [other])
  | [], file _, _, h => by cases h
  | _ :: _, file _, _, h => by cases h
  | [], directory entries, changed, h => by
    obtain ⟨new, hnew, h⟩ := exists_of_bind_ok h
    cases h
    refine ⟨child? name entries, new, _, hnew, rfl, find_singleton .., ?_, fun other hother => ?_⟩
    · rw [nil_append, find_singleton, child?_setChild_self]
    · rw [nil_append, find_singleton, find_singleton, child?_setChild_ne hother]
  | step :: path, directory entries, changed, h => by
    obtain ⟨below, hbelow, h⟩ := exists_of_bind_ok h
    cases h
    cases hchild : child? step entries with
    | none =>
      rw [hchild] at hbelow
      cases path <;> cases hbelow
    | some sub =>
      rw [hchild] at hbelow
      obtain ⟨old, new, top, hf, rfl, hold, hnew, hothers⟩ := change_find hbelow
      refine ⟨old, new, _, hf, rfl, ?_, ?_, fun other hother => ?_⟩
      · rw [cons_append, find, hchild]
        exact hold
      · rw [cons_append, find, child?_setChild_self]
        exact hnew
      · rw [cons_append, find, find, child?_setChild_self, hchild]
        exact hothers other hother

/-- A change below one entry of a directory leaves the others as they are, with all that is below
them. -/
theorem change_beside {name : String} (hne : other ≠ name) :
    ∀ {base : List String} {node : Node} {changed : Option Node},
      change f (base ++ name :: more) (some node) = .ok changed →
      ∃ top, changed = some top ∧
        top.find (base ++ other :: rest) = node.find (base ++ other :: rest)
  | [], file _, _, h => by cases h
  | _ :: _, file _, _, h => by cases h
  | [], directory entries, changed, h => by
    obtain ⟨new, hnew, h⟩ := exists_of_bind_ok h
    cases h
    refine ⟨_, rfl, ?_⟩
    rw [nil_append, find, find, child?_setChild_ne hne]
  | step :: base, directory entries, changed, h => by
    obtain ⟨below, hbelow, h⟩ := exists_of_bind_ok h
    cases h
    cases hchild : child? step entries with
    | none =>
      rw [hchild] at hbelow
      cases base <;> cases hbelow
    | some sub =>
      rw [hchild] at hbelow
      obtain ⟨top, rfl, hsame⟩ := change_beside hne hbelow
      refine ⟨_, rfl, ?_⟩
      rw [cons_append, find, find, child?_setChild_self, hchild]
      exact hsame

/-- Making the directories of a path changes nothing beside it, and nothing below it: nothing at an
entry of one of them that the path does not go through. -/
theorem makeDirectories_none {name : String} (hmore : more.head? ≠ some name) :
    ∀ {base : List String} {made : Node}, makeDirectories (base ++ more) none = .ok made →
      made.find (base ++ name :: rest) = .error .notFound
  | [], made, h => by
    cases more with
    | nil =>
      cases h
      rfl
    | cons step more =>
      have hne : step ≠ name := fun heq => hmore (congrArg some heq)
      obtain ⟨below, hbelow, h⟩ := exists_of_bind_ok h
      cases h
      rw [nil_append, find, child?, if_neg (by simpa using hne), child?]
  | step :: base, made, h => by
    obtain ⟨below, hbelow, h⟩ := exists_of_bind_ok h
    cases h
    rw [cons_append, find, child?, if_pos (beq_self_eq_true step)]
    exact makeDirectories_none hmore hbelow

theorem makeDirectories_find {name : String} (hmore : more.head? ≠ some name) :
    ∀ {base : List String} {node made : Node},
      makeDirectories (base ++ more) (some node) = .ok made →
      made.find (base ++ name :: rest) = node.find (base ++ name :: rest)
  | [], file _, _, h => by cases more <;> cases h
  | _ :: _, file _, _, h => by cases h
  | [], directory entries, _, h => by
    cases more with
    | nil =>
      cases h
      rfl
    | cons step more =>
      have hne : name ≠ step := fun heq => hmore (congrArg some heq.symm)
      obtain ⟨below, hbelow, h⟩ := exists_of_bind_ok h
      cases h
      rw [nil_append, find, find, child?_setChild_ne hne]
  | step :: base, directory entries, made, h => by
    obtain ⟨below, hbelow, h⟩ := exists_of_bind_ok h
    cases h
    rw [cons_append, find, find, child?_setChild_self]
    cases hchild : child? step entries with
    | none =>
      rw [hchild] at hbelow
      exact makeDirectories_none hmore hbelow
    | some sub =>
      rw [hchild] at hbelow
      exact makeDirectories_find hmore hbelow

/-- Where something stands below a path, its directories are there. -/
theorem exists_makeDirectories {name : String} {found : Node} :
    ∀ {path : List String} {node : Node}, node.find (path ++ name :: rest) = .ok found →
      ∃ made, makeDirectories path (some node) = .ok made
  | [], file _, h => by cases h
  | _ :: _, file _, h => by cases h
  | [], directory entries, _ => ⟨directory entries, rfl⟩
  | step :: path, directory entries, h => by
    rw [cons_append, find] at h
    cases hchild : child? step entries with
    | none =>
      rw [hchild] at h
      cases h
    | some sub =>
      rw [hchild] at h
      obtain ⟨made, hmade⟩ := exists_makeDirectories h
      rw [makeDirectories, hchild, hmade]
      exact ⟨_, rfl⟩

end Node

/-! ## 3. Disks -/

namespace Disk

variable {d d' : Disk} {path : List String} {name : String}

theorem makeDirectories_beside (hmore : more.head? ≠ some name)
    (h : d.makeDirectories (path ++ more) = .ok d') (rest : List String) :
    d'.find (path ++ name :: rest) = d.find (path ++ name :: rest) := by
  obtain ⟨top, htop, h⟩ := exists_of_bind_ok h
  cases h
  exact Node.makeDirectories_find hmore htop

theorem makeDirectories_find (h : d.makeDirectories path = .ok d') (name : String)
    (rest : List String) : d'.find (path ++ name :: rest) = d.find (path ++ name :: rest) := by
  have hnone : ([] : List String).head? ≠ some name := by simp
  rw [← append_nil path] at h
  exact makeDirectories_beside hnone h rest

theorem exists_makeDirectories {found : Node} (h : d.find (path ++ name :: rest) = .ok found) :
    ∃ d', d.makeDirectories path = .ok d' := by
  obtain ⟨made, hmade⟩ := Node.exists_makeDirectories h
  rw [makeDirectories, hmade]
  exact ⟨_, rfl⟩

theorem change_find (h : d.change (path ++ [name]) f = .ok d') :
    ∃ old new, f old = .ok new ∧ d.find (path ++ [name]) = Node.found old ∧
      d'.find (path ++ [name]) = Node.found new ∧
      ∀ other, other ≠ name → d'.find (path ++ [other]) = d.find (path ++ [other]) := by
  obtain ⟨changed, hchanged, h⟩ := exists_of_bind_ok h
  cases h
  obtain ⟨old, new, top, hf, rfl, hold, hnew, hothers⟩ := Node.change_find hchanged
  exact ⟨old, new, hf, hold, hnew, hothers⟩

theorem change_file_find (h : (d.change (path ++ [name]) fun
      | some (.directory _) => .error .isADirectory
      | _ => .ok (some (.file text))) = .ok d') :
    d'.find (path ++ [name]) = .ok (.file text) ∧
      ∀ other, other ≠ name → d'.find (path ++ [other]) = d.find (path ++ [other]) := by
  obtain ⟨old, new, hf, -, hnew, hothers⟩ := change_find h
  refine ⟨?_, hothers⟩
  split at hf
  · cases hf
  · cases hf
    exact hnew

theorem write_find (h : d.write (path ++ [name]) text = .ok d') :
    d'.find (path ++ [name]) = .ok (.file text) ∧
      ∀ other, other ≠ name → d'.find (path ++ [other]) = d.find (path ++ [other]) := by
  rw [write] at h
  split at h
  · cases h
  · exact change_file_find h

/-- A change below one entry of a directory changes nothing below the others. -/
theorem change_beside (hne : other ≠ name) (h : d.change (path ++ name :: more) f = .ok d')
    (rest : List String) : d'.find (path ++ other :: rest) = d.find (path ++ other :: rest) := by
  obtain ⟨changed, hchanged, h⟩ := exists_of_bind_ok h
  cases h
  obtain ⟨top, rfl, hsame⟩ := Node.change_beside hne hchanged
  exact hsame

theorem write_beside (hne : other ≠ name) (h : d.write (path ++ name :: more) text = .ok d')
    (rest : List String) :
    d'.find (path ++ other :: rest) = d.find (path ++ other :: rest) := by
  rw [write] at h
  split at h
  · cases h
  · exact change_beside hne h rest

theorem rename_beside (hname : other ≠ name) (htarget : other ≠ target)
    (h : d.rename (path ++ [name]) (path ++ [target]) = .ok d') (rest : List String) :
    d'.find (path ++ other :: rest) = d.find (path ++ other :: rest) := by
  rw [rename] at h
  split at h
  · cases h
  obtain ⟨text, -, h⟩ := exists_of_bind_ok h
  obtain ⟨moved, hmoved, h⟩ := exists_of_bind_ok h
  rw [change_beside hname h, change_beside htarget hmoved]

theorem find_of_read (h : d.read path = .ok text) :
    d.find path = .ok (.file text) := by
  rw [read] at h
  split at h <;> cases h
  assumption

theorem read_of_find (h : d.find path = .ok (.file text)) :
    d.read path = .ok text := by
  rw [read, h]

theorem read_congr (h : d'.find path = d.find path) : d'.read path = d.read path := by
  rw [read, read, h]

theorem rename_find (hne : name ≠ target)
    (h : d.rename (path ++ [name]) (path ++ [target]) = .ok d') :
    ∃ text, d.read (path ++ [name]) = .ok text ∧ d'.find (path ++ [target]) = .ok (.file text) ∧
      d'.find (path ++ [name]) = .error .notFound ∧
      ∀ other, other ≠ name → other ≠ target →
        d'.find (path ++ [other]) = d.find (path ++ [other]) := by
  rw [rename] at h
  split at h
  · cases h
  obtain ⟨text, htext, h⟩ := exists_of_bind_ok h
  obtain ⟨moved, hmoved, h⟩ := exists_of_bind_ok h
  obtain ⟨htarget, hothers⟩ := change_file_find hmoved
  obtain ⟨old, new, hf, -, hgone, hrest⟩ := change_find h
  cases hf
  refine ⟨text, htext, ?_, hgone, fun other hsource hother => ?_⟩
  · rw [hrest target (Ne.symm hne), htarget]
  · rw [hrest other hsource, hothers other hother]

end Disk

end CodeAssist
