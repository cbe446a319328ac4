import CodeAssist.Proofs.Session.Alone
import CodeAssist.Session.Build

/-!
What the editing state says after the toolchain was used.

A use of the toolchain says first that it began, then it logs what came of it, and last it says how
it ended. Each of these is written at once, and the first two end the use if their write fails, with
the editing state as it is then: the toolchain is still said to be at work. In all other cases the
editing state says how the use ended (`toolchain_use_settles_iff`).
-/

namespace CodeAssist

open Course

variable {state done : BuildState} {before : Editing} {kind : EventKind}
  {value : Except StoreError Editing} {now : Moment}

def Editing.Busy (e : Editing) : Prop :=
  e.build = .compiling ∨ e.build = .running

namespace Session

variable {s t : Session} {writes : List (Except StoreError Unit)}

def editing (s : Session) : Editing :=
  s.store.memory.editing

/-! ## 1. Updates -/

/-- A patch is made in any case. It is written once if it changes anything. -/
theorem updateEditing_reaches {p : EditPatch} (h : (updateEditing p now s).Reaches writes value t) :
    t.editing = p.apply s.editing ∧
      ((p.apply s.editing = s.editing ∧ writes = [] ∧ value = .ok s.editing) ∨
        (p.apply s.editing ≠ s.editing ∧ ∃ result, writes = [result] ∧
          value = answerOf (p.apply s.editing) id result)) := by
  by_cases hsame : p.apply s.editing = s.editing
  · have hidle : Store.Update.editing s.editing p now = .idle (.ok s.editing) := by
      simp [Store.Update.editing, EditPatch.changes, hsame]
    obtain ⟨hwrites, hvalue, rfl⟩ := update_idle_reaches hidle h
    exact ⟨hsame.symm, .inl ⟨hsame, hwrites, hvalue⟩⟩
  · have hchange : Store.Update.editing s.editing p now =
        .change (·.patch p now) (·.editing) id := by
      simp [Store.Update.editing, EditPatch.changes, hsame]
    obtain ⟨result, disk, dirty, hwrites, hvalue, rfl⟩ := update_change_reaches hchange h
    have hediting : ((s.store.memory.patch p now).touch now).editing = p.apply s.editing :=
      (s.store.memory.patch_frame p now).2
    refine ⟨hediting, .inr ⟨hsame, result, hwrites, ?_⟩⟩
    rw [hvalue]
    exact congrArg (answerOf · id result) hediting

theorem addEvent_reaches {details : Json} {value : Except StoreError Unit}
    (h : (addEvent kind details now s).Reaches writes value t) :
    t.editing = s.editing ∧ writes = [value] := by
  have hchange : Store.Update.event kind details now =
      .change (·.logEvent ⟨kind, details, now⟩) (fun _ => ()) id := rfl
  obtain ⟨result, disk, dirty, rfl, rfl, rfl⟩ := update_change_reaches hchange h
  refine ⟨by simp [editing, Store.changed, Memory.touch, Memory.logEvent], ?_⟩
  cases result <;> rfl

/-- What came of a use of the toolchain is logged. If that is written, the editing state says how
the use ended. -/
theorem logBuild_reaches {details : Json} {p : EditPatch} {value : Except StoreError Unit}
    (h : (logBuild kind details p now s).Reaches writes value t) :
    (∃ e, writes = [.error e] ∧ value = .error e ∧ t.editing = s.editing) ∨
      ∃ rest, writes = .ok () :: rest ∧ t.editing = p.apply s.editing := by
  unfold logBuild at h
  obtain ⟨before, after, logged, u, hlog, hrest, rfl⟩ := reaches_bind.1 h
  obtain ⟨hediting, rfl⟩ := addEvent_reaches hlog
  cases logged with
  | error e =>
    simp only [reaches_pure] at hrest
    obtain ⟨rfl, rfl, rfl⟩ := hrest
    exact .inl ⟨e, rfl, rfl, hediting⟩
  | ok =>
    obtain ⟨before, after, patched, v, hpatch, hend, rfl⟩ := reaches_bind.1 hrest
    obtain ⟨hpatched, -⟩ := updateEditing_reaches hpatch
    simp only [reaches_pure] at hend
    obtain ⟨-, -, rfl⟩ := hend
    exact .inr ⟨_, rfl, by rw [hpatched, hediting]⟩

/-! ## 2. Uses -/

/-- The writes before the toolchain is used, when they succeed. None is needed if the toolchain is
already said to be at work. -/
def opening (state : BuildState) (before : Editing) : List (Except StoreError Unit) :=
  if before.build = state then [] else [.ok ()]

/-- The editing state while the toolchain is used. -/
def during (state : BuildState) (before : Editing) : Editing :=
  { before with build := state }

/-- All that a use of the toolchain can come to: the results of its writes, its answer, and the
editing state it leaves. -/
inductive UseEnds (state : BuildState) (before : Editing) (said : Except ToolchainError α)
    (patch : α → EditPatch) :
    List (Except StoreError Unit) → Except BuildError α → Editing → Prop
  /-- It could not be written that it began. -/
  | halted {e : StoreError} (hnew : before.build ≠ state) :
      UseEnds state before said patch [.error e] (.error (.store e)) (during state before)
  /-- The toolchain itself failed. -/
  | broken {error : ToolchainError} {rest : List (Except StoreError Unit)}
      (hsaid : said = .error error) :
      UseEnds state before said patch (opening state before ++ rest) (.error (.toolchain error))
        ((failedPatch error.message).apply (during state before))
  /-- What came of it could not be written. -/
  | unlogged {output : α} {e : StoreError} (hsaid : said = .ok output) :
      UseEnds state before said patch (opening state before ++ [.error e]) (.error (.store e))
        (during state before)
  /-- What came of it was written. -/
  | logged {output : α} {rest : List (Except StoreError Unit)} {value : Except BuildError α}
      (hsaid : said = .ok output) :
      UseEnds state before said patch (opening state before ++ .ok () :: rest) value
        ((patch output).apply (during state before))

theorem during_eq_iff :
    during state before = before ↔ before.build = state := by
  unfold during
  constructor
  · intro hsame
    rw [← hsame]
  · rintro rfl
    rfl

/-- It is said in any case that a use began. The writes are those of the opening, unless they
fail. -/
theorem beginning_reaches
    (h : (updateEditing { build := some state } now s).Reaches writes value t) :
    t.editing = during state s.editing ∧
      ((∃ e, value = .ok e ∧ writes = opening state s.editing) ∨
        ∃ e, value = .error e ∧ writes = [.error e] ∧ s.editing.build ≠ state) := by
  obtain ⟨hediting, hwritten⟩ := updateEditing_reaches h
  have hduring : ({ build := some state } : EditPatch).apply s.editing = during state s.editing :=
    rfl
  rw [hduring] at hediting hwritten
  refine ⟨hediting, ?_⟩
  rcases hwritten with ⟨hsame, rfl, rfl⟩ | ⟨hnew, result, rfl, rfl⟩
  · exact .inl ⟨_, rfl, by rw [opening, if_pos (during_eq_iff.1 hsame)]⟩
  · have hstate : s.editing.build ≠ state := fun hbuild => hnew (during_eq_iff.2 hbuild)
    cases result with
    | ok => exact .inl ⟨_, rfl, by rw [opening, if_neg hstate]⟩
    | error e => exact .inr ⟨e, rfl, rfl, hstate⟩

/-- How a use of the toolchain may end, whatever its writes do. -/
theorem useToolchain_reaches {use : Session → Except ToolchainError α × Session}
    {details : α → Json} {patch : α → EditPatch} {value : Except BuildError α}
    {said : Except ToolchainError α}
    (huse : ∀ store, (use { s with store }).1 = said ∧ (use { s with store }).2.store = store)
    (h : (useToolchain state use (fun output => logBuild kind (details output) (patch output) now)
      now s).Reaches writes value t) :
    UseEnds state s.editing said patch writes value t.editing := by
  unfold useToolchain at h
  obtain ⟨before, after, begun, u, hbegin, hrest, rfl⟩ := reaches_bind.1 h
  obtain ⟨store, rfl⟩ := update_beside hbegin
  obtain ⟨hediting, ⟨e, rfl, rfl⟩ | ⟨e, rfl, rfl, hnew⟩⟩ := beginning_reaches hbegin
  · obtain ⟨none, after, result, v, hact, hrest, rfl⟩ := reaches_bind.1 hrest
    simp only [reaches_act] at hact
    obtain ⟨rfl, rfl, rfl⟩ := hact
    obtain ⟨hsaid, hstore⟩ := huse store
    have hkept : ((use { s with store }).2).editing = during state s.editing := by
      rw [editing, hstore]
      exact hediting
    rw [hsaid] at hrest
    cases said with
    | error error =>
      obtain ⟨failed, after, patched, w, hpatch, hend, rfl⟩ := reaches_bind.1 hrest
      obtain ⟨hpatched, -⟩ := updateEditing_reaches hpatch
      simp only [reaches_pure] at hend
      obtain ⟨-, rfl, rfl⟩ := hend
      rw [hpatched, hkept]
      exact .broken rfl
    | ok output =>
      obtain ⟨logging, after, logged, w, hlog, hend, rfl⟩ := reaches_bind.1 hrest
      rcases logBuild_reaches hlog with ⟨e, rfl, rfl, hstays⟩ | ⟨rest, rfl, hsays⟩
      · simp only [reaches_pure] at hend
        obtain ⟨rfl, rfl, rfl⟩ := hend
        rw [hstays, hkept]
        exact .unlogged rfl
      · -- The last write may fail, but the editing state is what it is.
        have hafter : t = w := by
          cases logged <;> simp only [reaches_pure] at hend <;> exact hend.2.2
        rw [hafter, hsays, hkept]
        exact .logged rfl
  · simp only [reaches_pure] at hrest
    obtain ⟨rfl, rfl, rfl⟩ := hrest
    rw [hediting]
    exact .halted hnew

/-! ## 3. The main statement -/

/-- The error that compiling came to: that of a toolchain that failed, or of the compiler. -/
def compileError? : Except ToolchainError CompileOutput → Option String
  | .error e => some e.message
  | .ok o => if o.success then none else some o.stderr

/-- The error that running came to: that of a toolchain that failed, or of the program. -/
def runError? : Except ToolchainError RunOutput → Option String
  | .error e => some e.message
  | .ok o => if o.success then none else some o.error

/-- A use of the toolchain was cut short: the write that says that it began has failed, or, when the
toolchain gave an output, the write of that. -/
def CutShort (state : BuildState) (before : Editing) (said : Except ToolchainError α)
    (writes : List (Except StoreError Unit)) : Prop :=
  (before.build ≠ state ∧ ∃ e, writes[0]? = some (.error e)) ∨
    ∃ output e, said = .ok output ∧ writes[(opening state before).length]? = some (.error e)

/-- The editing state says how a use of the toolchain ended: with an error, or as it ends without
one. -/
def SettledAs (error? : Option String) (done : BuildState) (e : Editing) : Prop :=
  match error? with
  | some text => e.build = .failed ∧ e.lastError = some text
  | none => e.build = done ∧ e.lastError = none

theorem SettledAs.not_busy {error? : Option String} {e : Editing}
    (hdone : done = .succeeded ∨ done = .idle) (h : SettledAs error? done e) : ¬ e.Busy := by
  unfold SettledAs at h
  unfold Editing.Busy
  cases error? with
  | some text => simp [h.1]
  | none => rcases hdone with rfl | rfl <;> simp [h.1]

/-- The writes of an opening that succeeded do not cut a use short. -/
theorem opening_getElem? (hnew : before.build ≠ state) (rest : List (Except StoreError Unit)) :
    (opening state before ++ rest)[0]? = some (.ok ()) := by
  simp [opening, hnew]

/-- A use of the toolchain that was not cut short settles the editing state. -/
theorem UseEnds.settled {after : Editing} {said : Except ToolchainError α} {patch : α → EditPatch}
    {value : Except BuildError α} {error? : Except ToolchainError α → Option String}
    (hstate : state = .compiling ∨ state = .running) (hdone : done = .succeeded ∨ done = .idle)
    (hbroken : ∀ e, error? (.error e) = some e.message)
    (hpatch : ∀ output, patch output = match error? (.ok output) with
      | some text => failedPatch text
      | none => succeededPatch done) (h : UseEnds state before said patch writes value after) :
    (after.Busy ↔ CutShort state before said writes) ∧
      (after.Busy → ∃ e, value = .error (.store e)) ∧
      (¬ after.Busy → SettledAs (error? said) done after) := by
  -- A use is cut short and leaves the toolchain busy, or it is not and settles.
  have hends : (after.Busy ∧ CutShort state before said writes ∧ ∃ e, value = .error (.store e)) ∨
      (SettledAs (error? said) done after ∧ ¬ CutShort state before said writes) := by
    cases h with
    | halted hnew => exact .inl ⟨hstate, .inl ⟨hnew, _, rfl⟩, _, rfl⟩
    | @broken error rest hsaid =>
      refine .inr ⟨?_, ?_⟩
      · rw [hsaid, hbroken]
        exact ⟨rfl, rfl⟩
      · rintro (⟨hnew, e, hfirst⟩ | ⟨output, e, hok, -⟩)
        · rw [opening_getElem? hnew] at hfirst
          cases hfirst
        · simp [hsaid] at hok
    | @unlogged output e hsaid => exact .inl ⟨hstate, .inr ⟨output, e, hsaid, by simp⟩, e, rfl⟩
    | @logged output rest _ hsaid =>
      refine .inr ⟨?_, ?_⟩
      · rw [hsaid, hpatch]
        cases error? (.ok output) with
        | some text => exact ⟨rfl, rfl⟩
        | none => exact ⟨rfl, rfl⟩
      · rintro (⟨hnew, e, hfirst⟩ | ⟨output, e, -, hlog⟩)
        · rw [opening_getElem? hnew] at hfirst
          cases hfirst
        · simp at hlog
  rcases hends with ⟨hbusy, hcut, hvalue⟩ | ⟨hsettled, hwhole⟩
  · exact ⟨⟨fun _ => hcut, fun _ => hbusy⟩, fun _ => hvalue, fun hfree => absurd hbusy hfree⟩
  · have hfree := hsettled.not_busy hdone
    exact ⟨⟨fun hbusy => absurd hbusy hfree, fun hcut => absurd hcut hwhole⟩,
      fun hbusy => absurd hbusy hfree, fun _ => hsettled⟩

/-- Alone, compiling and running end with the toolchain still said to be at work exactly when they
were cut short by a failed write, which they answer with. Else the editing state says how they
ended, with the error that the toolchain came to. -/
theorem toolchain_use_settles_iff (s t : Session) (source : String) (now : Moment)
    (writes : List (Except StoreError Unit)) :
    (∀ value, (compile source now s).Reaches writes value t →
      let said := s.toolchain.compile s.compiles source
      (t.editing.Busy ↔ CutShort .compiling s.editing said writes) ∧
      (t.editing.Busy → ∃ e, value = .error (.store e)) ∧
      (¬ t.editing.Busy → SettledAs (compileError? said) .succeeded t.editing)) ∧
    (∀ value, (run source now s).Reaches writes value t →
      let said := s.toolchain.run s.runs source
      (t.editing.Busy ↔ CutShort .running s.editing said writes) ∧
      (t.editing.Busy → ∃ e, value = .error (.store e)) ∧
      (¬ t.editing.Busy → SettledAs (runError? said) .idle t.editing)) := by
  constructor
  · intro value h
    have hends : UseEnds .compiling s.editing (s.toolchain.compile s.compiles source)
        (fun o => if o.success then succeededPatch .succeeded else failedPatch o.stderr)
        writes value t.editing :=
      useToolchain_reaches (fun store => ⟨rfl, rfl⟩) h
    refine hends.settled (.inl rfl) (.inl rfl) (fun e => rfl) fun output => ?_
    cases hsuccess : output.success <;> simp [compileError?, hsuccess]
  · intro value h
    have hends : UseEnds .running s.editing (s.toolchain.run s.runs source)
        (fun o => if o.success then succeededPatch .idle else failedPatch o.error)
        writes value t.editing :=
      useToolchain_reaches (fun store => ⟨rfl, rfl⟩) h
    refine hends.settled (.inr rfl) (.inr rfl) (fun e => rfl) fun output => ?_
    cases hsuccess : output.success <;> simp [runError?, hsuccess]

/-- A session in a state of the build, on a disk, whose toolchain reports a failure. -/
def failingBuild (build : BuildState) (disk : Disk) : Session :=
  let fresh := Memory.fresh [] .epoch
  .start ⟨[], { fresh with editing := { fresh.editing with build } }, false, disk⟩ []
    (.scripted [.ok ⟨false, "", "boom"⟩] [.ok ⟨false, "", "boom"⟩]) .standard {}
    fun _ => "1"

/-- A run of whose three writes the last fails answers with that, and the editing state says how the
program failed. A compilation that is cut short leaves the toolchain at work. -/
theorem toolchain_use_settles_iff_unwritten :
    let e := StoreError.write [memoryDirectory] .notADirectory
    (∃ t, (run "" .epoch (failingBuild .idle .empty)).Reaches
        [.ok (), .ok (), .error e] (.error (.store e)) t ∧
      SettledAs (some "boom") .idle t.editing) ∧
    (∃ t, (compile "" .epoch (failingBuild .compiling brokenDisk)).Reaches
        [.error e] (.error (.store e)) t ∧
      t.editing.Busy) := by
  intro e
  constructor
  · have hreaches : ∃ t, (run "" .epoch (failingBuild .idle .empty)).Reaches
        [.ok (), .ok (), .error e] (.error (.store e)) t :=
      ⟨_, .turn (.write .empty (.turn (.write .empty (.turn (.write brokenDisk .ended)))))⟩
    obtain ⟨t, h⟩ := hreaches
    obtain ⟨hbusy, -, hsettled⟩ := (toolchain_use_settles_iff _ t _ _ _).2 _ h
    refine ⟨t, h, hsettled fun hstuck => ?_⟩
    rcases hbusy.1 hstuck with ⟨-, e, hfirst⟩ | ⟨output, e, -, hlog⟩
    · cases hfirst
    · cases hlog
  · have hreaches : ∃ t, (compile "" .epoch (failingBuild .compiling brokenDisk)).Reaches
        [.error e] (.error (.store e)) t :=
      ⟨_, .turn (.write brokenDisk .ended)⟩
    obtain ⟨t, h⟩ := hreaches
    obtain ⟨hbusy, -, -⟩ := (toolchain_use_settles_iff _ t _ _ _).1 _ h
    exact ⟨t, h, hbusy.2 (.inr ⟨_, e, rfl, rfl⟩)⟩

/-- A compilation that failed and whose log could not be written is still said to go on. -/
theorem compile_left_busy :
    let s := failingBuild .compiling brokenDisk
    let t := ((compile "" .epoch).run s).2
    s.toolchain.compile s.compiles "" = .ok ⟨false, "", "boom"⟩ ∧
      t.editing.build = .compiling ∧ t.editing.lastError = none := by
  exact ⟨rfl, rfl, rfl⟩

end Session

end CodeAssist
