import CodeAssist.Proofs.Store.Writing

/-!
Runs of a store.

A store is opened and then takes turns. Each turn does one operation on the disk that it finds
there. The disk may have changed since the last turn, as long as the two documents of the store
have not: paths may have been sealed or opened, so that each write of a turn may fail or not.
-/

namespace CodeAssist

/-! ## 1. Operations -/

/-- An operation on a store. -/
inductive Operation where
  | file (path content : String)
  | editing (patch : EditPatch)
  | event (kind : EventKind) (details : Json)
  | exchange (action : Action) (prompt response : String) (metadata : Table Json)
  | clear
  | document (json : Json)
  | documentText (text : String)
  | flush

/-- The memory after an update, if the update changes it. -/
def Store.Update.effect (u : Store.Update ε α) (now : Moment) (m : Memory) : Option Memory :=
  match u with
  | .idle _ => none
  | .change f _ _ => some ((f m).touch now)

theorem Memory.patch_frame (m : Memory) (p : EditPatch) (now : Moment) :
    (m.patch p now).files = m.files ∧ (m.patch p now).editing = p.apply m.editing := by
  simp only [patch]
  split <;> exact ⟨rfl, rfl⟩

open Store in
/-- The memory after an operation, if the operation changes it. -/
def Operation.effect (root : List String) (now : Moment) (m : Memory) :
    Operation → Option Memory
  | file path content => (Update.file root path content now).effect now m
  | editing p => (Update.editing m.editing p now).effect now m
  | event kind details => (Update.event kind details now).effect now m
  | exchange action prompt response metadata =>
    (Update.exchange action prompt response metadata now).effect now m
  | clear => (Update.clearing now).effect now m
  | document json => (Update.document root json now).effect now m
  | documentText text => (Update.documentText root text now).effect now m
  | flush => none

namespace Store

/-- Does an operation. What it answers is left out. -/
def perform (s : Store) (op : Operation) (now : Moment) : Store :=
  match op with
  | .file path content => (s.updateFile path content now).2
  | .editing p => (s.updateEditing p now).2
  | .event kind details => (s.addEvent kind details now).2
  | .exchange action prompt response metadata =>
    (s.addExchange action prompt response metadata now).2
  | .clear => (s.clear now).2
  | .document json => (s.importJson json now).2
  | .documentText text => (s.importText text now).2
  | .flush => s.flush.2

/-- The store that an operation writes, if it writes: one with a changed memory, or for `flush` a
dirty one as it is. -/
def toWrite? (s : Store) (op : Operation) (now : Moment) : Option Store :=
  match op with
  | .flush => if s.dirty then some s else none
  | op => (op.effect s.root now s.memory).map fun memory => { s with memory }

theorem toWrite?_some {s w : Store} {op : Operation} {now : Moment}
    (h : s.toWrite? op now = some w) :
    (op.effect s.root now s.memory = none ∧ w = s) ∨
      ∃ memory, op.effect s.root now s.memory = some memory ∧ w = { s with memory } := by
  unfold toWrite? at h
  split at h
  · split at h
    · cases h
      exact .inl ⟨rfl, rfl⟩
    · cases h
  · obtain ⟨memory, heffect, rfl⟩ := Option.map_eq_some_iff.1 h
    exact .inr ⟨memory, heffect, rfl⟩

theorem effect_of_toWrite?_none {s : Store} {op : Operation} {now : Moment}
    (h : s.toWrite? op now = none) : op.effect s.root now s.memory = none := by
  unfold toWrite? at h
  split at h
  · rfl
  · exact Option.map_eq_none_iff.1 h

/-- The store after it was written, or as it was. -/
def written (s : Store) (w : Option Store) : Store :=
  (w.map fun w => w.persist.2).getD s

theorem update_eq (s : Store) (u : Update ε α) (now : Moment) :
    (s.update u now).2 =
      s.written ((u.effect now s.memory).map fun memory => { s with memory }) := by
  cases u with
  | idle answer => rfl
  | change change answer failure =>
    rw [update]
    cases h : (s.changed now change).persist with
    | mk result after =>
      have hafter : after = ({ s with memory := (change s.memory).touch now } : Store).persist.2 :=
        (congrArg Prod.snd h).symm
      cases result <;> exact hafter

/-- An operation writes the store that it has to write, and does nothing else. -/
theorem perform_eq (s : Store) (op : Operation) (now : Moment) :
    s.perform op now = s.written (s.toWrite? op now) := by
  cases op with
  | flush =>
    rw [perform, flush, toWrite?]
    split <;> rfl
  | file path content | editing p | event kind details | exchange action prompt response metadata
  | clear | document json | documentText text => exact s.update_eq _ now

/-- A store after some operations. How their writes went is left open. -/
inductive Follows (s : Store) : Store → Prop
  | same {disk : Disk} {dirty : Bool} : Follows s { s with disk, dirty }
  | step {t : Store} {op : Operation} {now : Moment} {memory : Memory} {disk : Disk} {dirty : Bool}
      (h : Follows s t) (heffect : op.effect t.root now t.memory = some memory) :
      Follows s { t with memory, disk, dirty }

theorem Follows.refl (s : Store) : s.Follows s :=
  .same

theorem Follows.trans {s t u : Store} (h : s.Follows t) (h' : t.Follows u) : s.Follows u := by
  induction h' with
  | same =>
    cases h with
    | same => exact .same
    | @step t _ _ _ _ _ h heffect => exact .step (t := t) h heffect
  | step _ heffect ih => exact .step ih heffect

/-! ## 2. Opening -/

def blank (root : List String) (now : Moment) (disk : Disk) : Store :=
  { root, memory := .fresh root now, dirty := true, disk }

/-- What opening finds: a memory, if there is one that it understands, and the disk as it leaves
it. -/
def located (disk : Disk) (root : List String) (asked : String) :
    Except OpenError (Option Memory × Disk) :=
  match disk.makeDirectories root with
  | .error e => .error (.unavailable asked e)
  | .ok disk =>
    match disk.makeDirectories (directoryOf root) with
    | .error e => .error (.unavailable (Path.textOf (directoryOf root)) e)
    | .ok disk => load disk root

theorem openAt_eq (disk : Disk) (root : List String) (asked : String) (now : Moment) :
    openAt disk root asked now = (located disk root asked).map fun
      | (some memory, disk) => { root, memory, dirty := false, disk }
      | (none, disk) => (blank root now disk).persist.2 := by
  rw [openAt, located]
  cases disk.makeDirectories root with
  | error e => rfl
  | ok disk =>
    dsimp only
    cases disk.makeDirectories (directoryOf root) with
    | error e => rfl
    | ok disk =>
      dsimp only
      cases load disk root with
      | error e => rfl
      | ok found =>
        obtain ⟨memory, disk⟩ := found
        cases memory <;> rfl

/-! ## 3. Runs -/

/-- Two disks that hold the same documents of a project. -/
structure Undisturbed (root : List String) (d d' : Disk) : Prop where
  memory : d'.find (documentOf root memoryDocument) = d.find (documentOf root memoryDocument)
  index : d'.find (documentOf root indexDocument) = d.find (documentOf root indexDocument)

end Store

/-- An operation, the time at which it is done, and the disk that it finds. -/
structure Turn where
  op : Operation
  now : Moment
  disk : Disk

namespace Store

def facing (s : Store) (t : Turn) : Store :=
  { s with disk := t.disk }

/-- The store that a turn writes, if it writes. -/
def attempt? (s : Store) (t : Turn) : Option Store :=
  (s.facing t).toWrite? t.op t.now

def turn (s : Store) (t : Turn) : Store :=
  (s.facing t).perform t.op t.now

theorem turn_eq (s : Store) (t : Turn) : s.turn t = (s.facing t).written (s.attempt? t) :=
  perform_eq ..

variable (disk : Disk) (root : List String) (asked : String) (now : Moment)

/-- A run from the opening of a project on a disk: its turns, the memories that the store has had,
the results of its attempts to write, and the store as it is now. -/
inductive Runs : List Turn → List Memory → List (Except StoreError Unit) → Store → Prop where
  | found {memory : Memory} {d : Disk} (h : located disk root asked = .ok (some memory, d)) :
    Runs [] [memory] [] { root, memory, dirty := false, disk := d }
  | blank {d : Disk} (h : located disk root asked = .ok (none, d)) :
    Runs [] [.fresh root now] [(blank root now d).persist.1] (blank root now d).persist.2
  | turn {turns : List Turn} {memories : List Memory} {attempts : List (Except StoreError Unit)}
    {s : Store} (h : Runs turns memories attempts s) (t : Turn)
    (hquiet : Undisturbed root s.disk t.disk) :
    Runs (turns ++ [t]) (memories ++ [(s.turn t).memory])
      (attempts ++ ((s.attempt? t).map fun w => w.persist.1).toList) (s.turn t)

/-- A moment of a run, also in the middle of a write: the memories that the store has had, and the
disk. -/
inductive Moments : List Memory → Disk → Prop where
  | opening {d d' : Disk} (h : located disk root asked = .ok (none, d))
    (hwrite : Persisting (Store.blank root now d) d') : Moments [.fresh root now] d'
  | resting {turns : List Turn} {memories : List Memory}
    {attempts : List (Except StoreError Unit)} {s : Store}
    (h : Runs disk root asked now turns memories attempts s) : Moments memories s.disk
  | writing {turns : List Turn} {memories : List Memory}
    {attempts : List (Except StoreError Unit)} {s w : Store} {d : Disk}
    (h : Runs disk root asked now turns memories attempts s) (t : Turn)
    (hquiet : Undisturbed root s.disk t.disk) (hattempt : s.attempt? t = some w)
    (hwrite : Persisting w d) : Moments (memories ++ [w.memory]) d

/-- Every opened store has a run, and a run without turns is an opened store. -/
theorem runs_nil_iff (s : Store) :
    (∃ memories attempts, Runs disk root asked now [] memories attempts s) ↔
      openAt disk root asked now = .ok s := by
  rw [openAt_eq]
  constructor
  · rintro ⟨memories, attempts, h⟩
    generalize hturns : ([] : List Turn) = turns at h
    cases h with
    | found h =>
      rw [h]
      rfl
    | blank h =>
      rw [h]
      rfl
    | turn => simp at hturns
  · intro h
    cases hlocated : located disk root asked with
    | error e =>
      rw [hlocated] at h
      cases h
    | ok found =>
      rw [hlocated] at h
      obtain ⟨memory, d⟩ := found
      cases memory with
      | some memory =>
        cases h
        exact ⟨_, _, .found hlocated⟩
      | none =>
        cases h
        exact ⟨_, _, .blank hlocated⟩

end Store

end CodeAssist
