import CodeAssist.Proofs.Session.Course
import CodeAssist.Proofs.Store.Persistence

/-!
Courses alone, with writes that may fail.

With nothing else going on, what a course comes to depends on the session and on its writes. Each
write finds a disk of its own, so it may fail or not, whatever the others do. `Pause.Reaches` keeps
the results of the writes beside what the course comes to.
-/

namespace CodeAssist

/-! ## 1. Ways to the end -/

/-- The session after its store was written to a disk, and how that went. -/
def Session.writeTo (s : Session) (disk : Disk) : Except StoreError Unit × Session :=
  { s with store := { s.store with disk } }.onStore (·.persist)

/-- A disk that takes nothing: a file stands where its directories would. -/
def brokenDisk : Disk :=
  ⟨.file "", []⟩

namespace Pause

/-- Alone, an operation gets from a pause to its end, with some results of its writes. -/
inductive Reaches : Pause α → List (Except StoreError Unit) → α → Session → Prop
  | ended {value : α} {s : Session} : Reaches (.ended value s) [] value s
  | turn {s t : Session} {next : Session → Pause α} {writes : List (Except StoreError Unit)}
      {value : α} (h : Reaches (next s) writes value t) : Reaches (.turn s next) writes value t
  | write {s t : Session} {next : Except StoreError Unit → Session → Pause α}
      {writes : List (Except StoreError Unit)} {value : α} (disk : Disk)
      (h : Reaches (next (s.writeTo disk).1 (s.writeTo disk).2) writes value t) :
      Reaches (.write s next) ((s.writeTo disk).1 :: writes) value t
  | wait {wakeAt : Nat} {ticket : Option Ticket} {s t : Session} {next : Session → Pause α}
      {writes : List (Except StoreError Unit)} {value : α}
      (h : Reaches (next { s with clock := max s.clock wakeAt }) writes value t) :
      Reaches (.wait wakeAt ticket s next) writes value t

theorem finish_reaches (p : Pause α) : ∃ writes, p.Reaches writes p.finish.1 p.finish.2 := by
  induction p with
  | ended value s => exact ⟨[], .ended⟩
  | turn s next ih =>
    obtain ⟨writes, h⟩ := ih s
    exact ⟨writes, .turn h⟩
  | write s next ih =>
    obtain ⟨writes, h⟩ := ih _ _
    exact ⟨_, .write s.store.disk h⟩
  | wait wakeAt ticket s next ih =>
    obtain ⟨writes, h⟩ := ih _
    exact ⟨writes, .wait h⟩

/-- What holds however an operation ends holds of its end alone. -/
theorem Ends.reaches {P : α → Session → Prop} {p : Pause α} (h : p.Ends P)
    {writes : List (Except StoreError Unit)} {value : α} {t : Session}
    (hreaches : p.Reaches writes value t) : P value t := by
  induction hreaches with
  | ended => cases h with | ended h => exact h
  | turn _ ih => cases h with | turn h => exact ih (h _)
  | write disk _ ih => cases h with | write h => exact ih (h _ _)
  | wait _ ih => cases h with | wait h => exact ih (h _)

/-- The writes of an operation that goes on with another are those of both. -/
theorem reaches_andThen {p : Pause α} {k : α → Session → Pause β}
    {writes : List (Except StoreError Unit)} {value : β} {t : Session} :
    (p.andThen k).Reaches writes value t ↔ ∃ before after middle u,
      p.Reaches before middle u ∧ (k middle u).Reaches after value t ∧
        writes = before ++ after := by
  constructor
  · intro h
    induction p generalizing writes with
    | ended middle u => exact ⟨[], writes, middle, u, .ended, h, rfl⟩
    | turn s next ih =>
      cases h with
      | turn h =>
        obtain ⟨before, after, middle, u, hfirst, hsecond, rfl⟩ := ih s h
        exact ⟨before, after, middle, u, .turn hfirst, hsecond, rfl⟩
    | write s next ih =>
      cases h with
      | write disk h =>
        obtain ⟨before, after, middle, u, hfirst, hsecond, rfl⟩ := ih _ _ h
        exact ⟨_ :: before, after, middle, u, .write disk hfirst, hsecond, rfl⟩
    | wait wakeAt ticket s next ih =>
      cases h with
      | wait h =>
        obtain ⟨before, after, middle, u, hfirst, hsecond, rfl⟩ := ih _ h
        exact ⟨before, after, middle, u, .wait hfirst, hsecond, rfl⟩
  · rintro ⟨before, after, middle, u, hfirst, hsecond, rfl⟩
    induction hfirst with
    | ended => exact hsecond
    | turn _ ih => exact .turn (ih hsecond)
    | write disk _ ih => exact .write disk (ih hsecond)
    | wait _ ih => exact .wait (ih hsecond)

end Pause

namespace Course

variable {s t : Session} {writes : List (Except StoreError Unit)}

/-- Going through a course with nothing else going on is one way to its end. -/
theorem run_reaches (c : Course α) (s : Session) :
    ∃ writes, (c s).Reaches writes (c.run s).1 (c.run s).2 :=
  (c s).finish_reaches

/-! ## 2. Steps -/

theorem reaches_ended {value result : α} :
    (Pause.ended result t).Reaches writes value s ↔ writes = [] ∧ value = result ∧ s = t := by
  constructor
  · intro h
    cases h
    exact ⟨rfl, rfl, rfl⟩
  · rintro ⟨rfl, rfl, rfl⟩
    exact .ended

@[simp] theorem reaches_pure {value result : α} :
    ((pure result : Course α) s).Reaches writes value t ↔
      writes = [] ∧ value = result ∧ t = s :=
  reaches_ended

@[simp] theorem reaches_act {f : Session → α × Session} {value : α} :
    (act f s).Reaches writes value t ↔ writes = [] ∧ value = (f s).1 ∧ t = (f s).2 :=
  reaches_ended

@[simp] theorem reaches_get {value : Session} :
    ((get : Course Session) s).Reaches writes value t ↔ writes = [] ∧ value = s ∧ t = s :=
  reaches_ended

@[simp] theorem reaches_modify {f : Session → Session} {value : Unit} :
    ((modify f : Course Unit) s).Reaches writes value t ↔
      writes = [] ∧ value = () ∧ t = f s :=
  reaches_ended

theorem reaches_bind {c : Course α} {k : α → Course β} {value : β} :
    ((c >>= k) s).Reaches writes value t ↔ ∃ before after middle u,
      (c s).Reaches before middle u ∧ (k middle u).Reaches after value t ∧
        writes = before ++ after :=
  Pause.reaches_andThen

theorem reaches_map {f : α → β} {c : Course α} {value : β} :
    ((f <$> c) s).Reaches writes value t ↔
      ∃ result, (c s).Reaches writes result t ∧ value = f result := by
  change ((c >>= fun result => pure (f result)) s).Reaches writes value t ↔ _
  rw [reaches_bind]
  constructor
  · rintro ⟨before, after, result, u, hc, hend, rfl⟩
    obtain ⟨rfl, rfl, rfl⟩ := reaches_pure.1 hend
    exact ⟨result, by rwa [List.append_nil], rfl⟩
  · rintro ⟨result, hc, rfl⟩
    exact ⟨writes, [], result, t, hc, .ended, (List.append_nil _).symm⟩

theorem reaches_rest {ms : Nat} {ticket : Option Ticket} {value : Unit} :
    (rest ms ticket s).Reaches writes value t ↔
      writes = [] ∧ value = () ∧ t = { s with clock := s.clock + ms } := by
  unfold rest
  split
  · rename_i hms
    simp [hms, reaches_ended]
  · constructor
    · intro h
      cases h with
      | wait h => simpa [reaches_ended] using h
    · rintro ⟨rfl, rfl, rfl⟩
      refine .wait ?_
      simp [reaches_ended]

end Course

/-! ## 3. Updates -/

/-- Writing changes the disk and the mark of a failed write, and nothing else. -/
theorem Session.writeTo_eq (s : Session) (disk : Disk) :
    ∃ d dirty, (s.writeTo disk).2 = { s with store := { s.store with disk := d, dirty } } := by
  rcases Store.persist_cases { s.store with disk } with ⟨e, d, hpersist, -⟩ | ⟨d, hpersist, -, -⟩
  · exact ⟨d, true, by simp [writeTo, onStore, hpersist]⟩
  · exact ⟨d, false, by simp [writeTo, onStore, hpersist]⟩

/-- After a write an operation goes on with its result. The disk and the mark of a failed write may
have changed, and nothing else. -/
theorem Pause.write_reaches {s t : Session} {next : Except StoreError Unit → Session → Pause α}
    {writes : List (Except StoreError Unit)} {value : α}
    (h : (Pause.write s next).Reaches writes value t) :
    ∃ result rest disk dirty, writes = result :: rest ∧
      (next result { s with store := { s.store with disk, dirty } }).Reaches rest value t := by
  cases h with
  | write disk h =>
    obtain ⟨d, dirty, hafter⟩ := s.writeTo_eq disk
    rw [hafter] at h
    exact ⟨_, _, d, dirty, rfl, h⟩

namespace Course

/-- The answer to an update when its write has ended. -/
def answerOf (answer : α) (failure : StoreError → ε) : Except StoreError Unit → Except ε α
  | .ok () => .ok answer
  | .error e => .error (failure e)

variable {s t : Session} {writes : List (Except StoreError Unit)}

theorem update_idle_reaches {u : Store → Store.Update ε α} {now : Moment}
    {answer value : Except ε α} (hu : u s.store = .idle answer)
    (h : (update u now s).Reaches writes value t) : writes = [] ∧ value = answer ∧ t = s := by
  simp only [update, hu] at h
  exact reaches_ended.1 h

/-- An update that changes the memory does so in any case. It is written once, and it is answered by
how that went. -/
theorem update_change_reaches {u : Store → Store.Update ε α} {now : Moment} {value : Except ε α}
    {change : Memory → Memory} {answer : Memory → α} {failure : StoreError → ε}
    (hu : u s.store = .change change answer failure)
    (h : (update u now s).Reaches writes value t) :
    ∃ result disk dirty, writes = [result] ∧
      value = answerOf (answer (s.store.changed now change).memory) failure result ∧
      t = { s with store := { s.store.changed now change with disk, dirty } } := by
  simp only [update, hu] at h
  cases h with
  | turn h =>
    obtain ⟨result, rest, disk, dirty, hwrites, hrest⟩ := Pause.write_reaches h
    refine ⟨result, disk, dirty, ?_⟩
    cases result with
    | ok | error e =>
      obtain ⟨rfl, hvalue, hafter⟩ := reaches_ended.1 hrest
      exact ⟨hwrites, hvalue, hafter⟩

theorem update_beside {u : Store → Store.Update ε α} {now : Moment} {value : Except ε α}
    (h : (update u now s).Reaches writes value t) : ∃ store, t = { s with store } := by
  cases hu : u s.store with
  | idle answer => exact ⟨s.store, (update_idle_reaches hu h).2.2⟩
  | change change answer failure =>
    obtain ⟨result, disk, dirty, -, -, hafter⟩ := update_change_reaches hu h
    exact ⟨_, hafter⟩

theorem flush_reaches {value : Except StoreError Unit} (h : (flush s).Reaches writes value t) :
    ∃ disk dirty, t = { s with store := { s.store with disk, dirty } } := by
  unfold flush at h
  cases h with
  | turn h =>
    by_cases hdirty : s.store.dirty = true
    · simp only [if_pos hdirty] at h
      obtain ⟨result, rest, disk, dirty, -, hrest⟩ := Pause.write_reaches h
      exact ⟨disk, dirty, (reaches_ended.1 hrest).2.2⟩
    · simp only [if_neg hdirty] at h
      exact ⟨s.store.disk, s.store.dirty, (reaches_ended.1 h).2.2⟩

end Course

end CodeAssist
