import CodeAssist.Proofs.Store.Merging

/-!
The bounded logs against logs that forget nothing.

Beside a run of a store stands what its operations entered, one `Entries` for each turn. Each
operation cuts the logs in its own way, some of them after many entries at once, and no cut is seen
in the end: the logs of the store are the newest of all that was entered since they were last
emptied.
-/

namespace CodeAssist

open List

/-! ## 1. Cutting -/

/-- The last entries of a log, so many or all. -/
structure Newest (n : Nat) (log entries : List α) : Prop where
  suffix : entries <:+ log
  length_eq : entries.length = min n log.length

theorem latest_newest (n : Nat) (log : List α) : Newest n log (latest n log) := by
  refine ⟨drop_suffix .., ?_⟩
  rw [latest, length_drop]
  omega

theorem Newest.eq {n : Nat} {log entries : List α} (h : Newest n log entries) :
    entries = latest n log := by
  have hlatest := latest_newest n log
  have hlength : entries.length = (latest n log).length :=
    h.length_eq.trans hlatest.length_eq.symm
  have hwithin := suffix_of_suffix_length_le h.suffix hlatest.suffix (Nat.le_of_eq hlength)
  exact hwithin.eq_of_length hlength

/-- What an earlier cut took away, a later one would have taken too. -/
theorem latest_append_latest (n : Nat) (log more : List α) :
    latest n (latest n log ++ more) = latest n (log ++ more) := by
  have hlog := latest_newest n log
  have hcut := latest_newest n (latest n log ++ more)
  have hwithin : latest n log ++ more <:+ log ++ more := by
    obtain ⟨older, holder⟩ := hlog.suffix
    refine ⟨older, ?_⟩
    rw [← append_assoc, holder]
  refine Newest.eq ⟨hcut.suffix.trans hwithin, ?_⟩
  rw [hcut.length_eq, length_append, length_append, hlog.length_eq]
  omega

/-! ## 2. Entries -/

/-- What an operation enters in the two logs. -/
structure Entries where
  /-- Whether the logs are emptied before. -/
  empties : Bool := false
  events : List Event := []
  exchanges : List Exchange := []

/-- What a document enters: nothing if it is refused, and otherwise what it says, and that it was
merged. -/
inductive ImportDocument.Enters (root : List String) (now : Moment) (json : Json) : Entries → Prop
  | refused (hnone : ∀ d : ImportDocument, ¬ d.Passes root json) : Enters root now json {}
  | merged {d : ImportDocument} (hpasses : d.Passes root json)
    (htold : json.canonical = json → d.Told json) :
    Enters root now json { events := d.events ++ [d.event now], exchanges := d.exchanges }

/-- What an operation enters when it finds a memory. One that is refused enters nothing, and so
does a patch that leaves the same file open. -/
inductive Operation.Enters (root : List String) (now : Moment) (m : Memory) :
    Operation → Entries → Prop
  | nowhere {path content : String} (hkey : fileKey root path = "") :
    Enters root now m (.file path content) {}
  | file {path content : String} (hkey : fileKey root path ≠ "") :
    Enters root now m (.file path content)
      { events :=
          [{ kind := .fileUpdate
             details := .object [("bytes", .ofNat content.utf8ByteSize),
               ("path", .text (fileKey root path))]
             moment := now }] }
  | staying {p : EditPatch}
    (hsame : p.currentFile.getD m.editing.currentFile = m.editing.currentFile) :
    Enters root now m (.editing p) {}
  | editing {p : EditPatch}
    (hother : p.currentFile.getD m.editing.currentFile ≠ m.editing.currentFile) :
    Enters root now m (.editing p)
      { events :=
          [{ kind := .contextChange
             details := .object [("from", Json.ofOption .text m.editing.currentFile),
               ("to", Json.ofOption .text (p.currentFile.getD m.editing.currentFile))]
             moment := now }] }
  | event (kind : EventKind) (details : Json) :
    Enters root now m (.event kind details) { events := [⟨kind, details, now⟩] }
  | exchange (action : Action) (prompt response : String) (metadata : Table Json) :
    Enters root now m (.exchange action prompt response metadata)
      { exchanges := [⟨action, prompt, response, metadata, now⟩] }
  | clear :
    Enters root now m .clear
      { empties := true
        events :=
          [{ kind := .cleared
             details := .object [("files_removed", .ofNat m.files.entries.length)]
             moment := now }] }
  | document {json : Json} {e : Entries} (h : ImportDocument.Enters root now json e) :
    Enters root now m (.document json) e
  | unread {text : String} (hread : Json.read text = none) :
    Enters root now m (.documentText text) {}
  | documentText {text : String} {json : Json} {e : Entries} (hread : Json.read text = some json)
    (h : ImportDocument.Enters root now json e) : Enters root now m (.documentText text) e
  | flush : Enters root now m .flush {}

theorem ImportDocument.exists_enters (root : List String) (now : Moment) (json : Json) :
    ∃ e, ImportDocument.Enters root now json e := by
  cases hchecked : CheckedImport.ofJson json root now with
  | error r =>
    refine ⟨_, .refused fun d hpasses => ?_⟩
    cases hchecked.symm.trans (ofJson_eq_ok_iff.2 ⟨d, hpasses, rfl⟩)
  | ok c =>
    obtain ⟨d, hpasses, -⟩ := ofJson_eq_ok_iff.1 hchecked
    exact ⟨_, .merged hpasses fun hj => ImportDocument.told hj hpasses.object hpasses.read⟩

/-- Every operation enters something, if only nothing. -/
theorem Operation.exists_enters (root : List String) (now : Moment) (m : Memory)
    (op : Operation) : ∃ e, op.Enters root now m e := by
  cases op with
  | file path content =>
    by_cases hkey : fileKey root path = ""
    · exact ⟨_, .nowhere hkey⟩
    · exact ⟨_, .file hkey⟩
  | editing p =>
    by_cases hsame : p.currentFile.getD m.editing.currentFile = m.editing.currentFile
    · exact ⟨_, .staying hsame⟩
    · exact ⟨_, .editing hsame⟩
  | event kind details => exact ⟨_, .event kind details⟩
  | exchange action prompt response metadata =>
    exact ⟨_, .exchange action prompt response metadata⟩
  | clear => exact ⟨_, .clear⟩
  | document json =>
    obtain ⟨e, he⟩ := ImportDocument.exists_enters root now json
    exact ⟨e, .document he⟩
  | documentText text =>
    cases hread : Json.read text with
    | none => exact ⟨_, .unread hread⟩
    | some json =>
      obtain ⟨e, he⟩ := ImportDocument.exists_enters root now json
      exact ⟨e, .documentText hread he⟩
  | flush => exact ⟨_, .flush⟩

/-- A memory whose logs are those of another one with some entries behind, cut to their limits. -/
structure Memory.LogsAfter (m m' : Memory) (e : Entries) : Prop where
  events : m'.events = latest eventLimit ((if e.empties then [] else m.events) ++ e.events)
  exchanges : m'.exchanges =
    latest exchangeLimit ((if e.empties then [] else m.exchanges) ++ e.exchanges)

/-- A memory whose logs are within their limits. -/
structure Memory.Within (m : Memory) : Prop where
  events : m.events.length ≤ eventLimit
  exchanges : m.exchanges.length ≤ exchangeLimit

namespace Memory

variable {m m' : Memory}

theorem logsAfter_of_append {events : List Event} {exchanges : List Exchange}
    (hevents : m'.events = latest eventLimit (m.events ++ events))
    (hexchanges : m'.exchanges = latest exchangeLimit (m.exchanges ++ exchanges)) :
    m.LogsAfter m' { events, exchanges } := by
  refine ⟨?_, ?_⟩
  · simpa using hevents
  · simpa using hexchanges

theorem Within.events_eq (h : m.Within) : m.events = latest eventLimit (m.events ++ []) := by
  rw [append_nil, latest_of_length_le h.events]

theorem Within.exchanges_eq (h : m.Within) :
    m.exchanges = latest exchangeLimit (m.exchanges ++ []) := by
  rw [append_nil, latest_of_length_le h.exchanges]

theorem Within.logsAfter_nothing (h : m.Within) (hevents : m'.events = m.events)
    (hexchanges : m'.exchanges = m.exchanges) : m.LogsAfter m' {} :=
  logsAfter_of_append (hevents.trans h.events_eq) (hexchanges.trans h.exchanges_eq)

theorem Within.logsAfter_logEvent (h : m.Within) (hevents : m'.events = m.events)
    (hexchanges : m'.exchanges = m.exchanges) (e : Event) :
    m.LogsAfter (m'.logEvent e) { events := [e] } := by
  have hkept : (m'.logEvent e).exchanges = m.exchanges := by rw [logEvent, hexchanges]
  refine logsAfter_of_append ?_ (hkept.trans h.exchanges_eq)
  rw [logEvent, hevents]

theorem Within.logsAfter_logExchange (h : m.Within) (e : Exchange) :
    m.LogsAfter (m.logExchange e) { exchanges := [e] } := by
  have hkept : (m.logExchange e).events = m.events := by rw [logExchange]
  refine logsAfter_of_append (hkept.trans h.events_eq) ?_
  rw [logExchange]

theorem logsAfter_clear (m : Memory) (now : Moment) :
    m.LogsAfter (m.clear now)
      { empties := true
        events :=
          [{ kind := .cleared
             details := .object [("files_removed", .ofNat m.files.entries.length)]
             moment := now }] } := by
  have hone : 1 ≤ eventLimit := by decide
  refine ⟨?_, ?_⟩
  · simp [clear, latest_of_length_le, hone]
  · simp [clear, latest]

/-- A patch enters something if it opens another file, and only then. -/
theorem Within.logsAfter_patch (h : m.Within) {p : EditPatch} {root : List String} {now : Moment}
    {e : Entries} (he : (Operation.editing p).Enters root now m e) :
    m.LogsAfter (m.patch p now) e := by
  have hfile : (p.apply m.editing).currentFile = p.currentFile.getD m.editing.currentFile := rfl
  cases he with
  | staying hsame =>
    simp only [patch, hfile, if_pos hsame]
    exact h.logsAfter_nothing rfl rfl
  | editing hother =>
    simp only [patch, hfile, if_neg hother]
    exact h.logsAfter_logEvent (by rfl) (by rfl) _

theorem Within.logsAfter_putFile (h : m.Within) (f : SourceFile) (now : Moment) :
    m.LogsAfter (m.putFile f now)
      { events :=
          [{ kind := .fileUpdate
             details := .object [("bytes", .ofNat f.size), ("path", .text f.path)]
             moment := now }] } := by
  rw [putFile]
  exact h.logsAfter_logEvent (by rfl) (by rfl) _

/-- The events are cut once, with the event of the merge already behind those of the document. -/
theorem logsAfter_merge (m : Memory) (d : ImportDocument) (root : List String) (now : Moment) :
    m.LogsAfter (m.merge (d.kept root now) now)
      { events := d.events ++ [d.event now], exchanges := d.exchanges } := by
  refine logsAfter_of_append ?_ ?_
  · rw [merge, logEvent, ← append_assoc, ImportDocument.event, ImportDocument.kept, length_map]
  · rw [merge, logEvent, ImportDocument.kept]

theorem LogsAfter.touch {e : Entries} (h : m.LogsAfter m' e) (now : Moment) :
    m.LogsAfter (m'.touch now) e :=
  ⟨h.events, h.exchanges⟩

end Memory

theorem document_effect_logs {m : Memory} (h : m.Within) {root : List String} {now : Moment}
    {json : Json} {e : Entries} (he : ImportDocument.Enters root now json e) :
    m.LogsAfter (((Store.Update.document root json now).effect now m).getD m) e := by
  rw [Store.Update.document]
  cases he with
  | refused hnone =>
    cases hchecked : CheckedImport.ofJson json root now with
    | error r => exact h.logsAfter_nothing rfl rfl
    | ok c =>
      obtain ⟨d, hpasses, -⟩ := ofJson_eq_ok_iff.1 hchecked
      exact absurd hpasses (hnone d)
  | @merged d hpasses _ =>
    rw [ofJson_eq_ok_iff.2 ⟨d, hpasses, rfl⟩]
    exact (m.logsAfter_merge d root now).touch now

theorem EditPatch.currentFile_of_not_changes {p : EditPatch} {e : Editing}
    (h : ¬ p.changes e = true) : p.currentFile.getD e.currentFile = e.currentFile := by
  have hsame : p.apply e = e := by simpa [changes] using h
  exact congrArg Editing.currentFile hsame

/-- What an operation does to the logs of the memory that it finds. -/
theorem Operation.Enters.logsAfter {m : Memory} (h : m.Within) {root : List String} {now : Moment}
    {op : Operation} {e : Entries} (he : op.Enters root now m e) :
    m.LogsAfter ((op.effect root now m).getD m) e := by
  cases op with
  | file path content =>
    simp only [effect, Store.Update.file, String.isEmpty_iff]
    cases he with
    | nowhere hkey =>
      rw [if_pos hkey]
      exact h.logsAfter_nothing rfl rfl
    | file hkey =>
      rw [if_neg hkey]
      exact (h.logsAfter_putFile _ now).touch now
  | editing p =>
    simp only [effect, Store.Update.editing]
    split
    · exact (h.logsAfter_patch he).touch now
    · rename_i hunchanged
      -- a patch that changes nothing leaves the same file open
      have hsame := EditPatch.currentFile_of_not_changes hunchanged
      cases he with
      | staying _ => exact h.logsAfter_nothing rfl rfl
      | editing hother => exact absurd hsame hother
  | event kind details =>
    cases he
    exact (h.logsAfter_logEvent (by rfl) (by rfl) _).touch now
  | exchange action prompt response metadata =>
    cases he
    exact (h.logsAfter_logExchange _).touch now
  | clear =>
    cases he
    exact (m.logsAfter_clear now).touch now
  | document json =>
    cases he with
    | document he => exact document_effect_logs h he
  | documentText text =>
    simp only [effect, Store.Update.documentText]
    cases he with
    | unread hread =>
      rw [hread]
      exact h.logsAfter_nothing rfl rfl
    | documentText hread he =>
      rw [hread]
      exact document_effect_logs h he
  | flush =>
    cases he
    exact h.logsAfter_nothing rfl rfl

/-! ## 3. Runs -/

/-- What the turns of a run enter, each on the memory that it finds. -/
inductive Store.Enters : Store → List Turn → List Entries → Prop
  | nil (s : Store) : Enters s [] []
  | cons {s : Store} {t : Turn} {e : Entries} {turns : List Turn} {later : List Entries}
    (h : t.op.Enters s.root t.now s.memory e) (hrest : Enters (s.turn t) turns later) :
    Enters s (t :: turns) (e :: later)

theorem Store.exists_enters (s : Store) (turns : List Turn) :
    ∃ entered, s.Enters turns entered := by
  induction turns generalizing s with
  | nil => exact ⟨[], .nil s⟩
  | cons t turns ih =>
    obtain ⟨e, he⟩ := t.op.exists_enters s.root t.now s.memory
    obtain ⟨later, hlater⟩ := ih (s.turn t)
    exact ⟨e :: later, .cons he hlater⟩

/-- The entries from the last emptying on, or all of them. -/
def sinceEmptied : List Entries → List Entries
  | [] => []
  | e :: later => if later.any (·.empties) then sinceEmptied later else e :: later

theorem sinceEmptied_concat (done : List Entries) (e : Entries) :
    sinceEmptied (done ++ [e]) = if e.empties then [e] else sinceEmptied done ++ [e] := by
  induction done with
  | nil => simp [sinceEmptied]
  | cons first later ih =>
    rw [cons_append, sinceEmptied, sinceEmptied, any_append, ih]
    cases hempties : e.empties <;> cases hlater : later.any (·.empties) <;>
      simp [hempties]

/-- A log that forgets nothing but what was emptied: all entries of one kind, in their order. -/
def fullLog (kind : Entries → List α) (done : List Entries) : List α :=
  (sinceEmptied done).flatMap kind

theorem fullLog_concat (kind : Entries → List α) (done : List Entries) (e : Entries) :
    fullLog kind (done ++ [e]) = (if e.empties then [] else fullLog kind done) ++ kind e := by
  rw [fullLog, fullLog, sinceEmptied_concat]
  cases e.empties <;> simp

theorem fullLog_append (kind : Entries → List α) (done : List Entries) {later : List Entries}
    (hkept : ∀ e ∈ later, e.empties = false) :
    fullLog kind (done ++ later) = fullLog kind done ++ later.flatMap kind := by
  induction later generalizing done with
  | nil => simp
  | cons e later ih =>
    rw [← singleton_append, ← append_assoc, ih _ fun e he => hkept e (mem_cons_of_mem _ he),
      fullLog_concat, hkept e mem_cons_self]
    simp

variable {done : List Entries}

/-- A memory whose logs are the newest of what was entered. -/
structure Memory.Bounds (m : Memory) (done : List Entries) : Prop where
  events : m.events = latest eventLimit (fullLog Entries.events done)
  exchanges : m.exchanges = latest exchangeLimit (fullLog Entries.exchanges done)

theorem Memory.Bounds.within {m : Memory} (h : m.Bounds done) : m.Within := by
  refine ⟨?_, ?_⟩
  · rw [h.events]
    exact length_latest_le ..
  · rw [h.exchanges]
    exact length_latest_le ..

theorem latest_fullLog_concat {n : Nat} {kind : Entries → List α} {log : List α}
    (h : log = latest n (fullLog kind done)) (e : Entries) :
    latest n ((if e.empties then [] else log) ++ kind e) =
      latest n (fullLog kind (done ++ [e])) := by
  rw [fullLog_concat]
  cases e.empties with
  | true => rfl
  | false =>
    rw [h]
    exact latest_append_latest ..

/-- One turn: its entries come behind those of the turns before. -/
theorem Store.bounds_turn {s : Store} (h : s.memory.Bounds done) {t : Turn} {e : Entries}
    (he : t.op.Enters s.root t.now s.memory e) : (s.turn t).memory.Bounds (done ++ [e]) := by
  have hlogs := he.logsAfter h.within
  rw [← turn_memory] at hlogs
  exact ⟨hlogs.events.trans (latest_fullLog_concat h.events _),
    hlogs.exchanges.trans (latest_fullLog_concat h.exchanges _)⟩

theorem Store.Enters.bounds {s : Store} {turns : List Turn} {entered : List Entries}
    (hentered : s.Enters turns entered) (h : s.memory.Bounds done) :
    (turns.foldl Store.turn s).memory.Bounds (done ++ entered) := by
  induction hentered generalizing done with
  | nil s => simpa using h
  | cons he _ ih =>
    have hrest := ih (bounds_turn h he)
    rw [append_assoc, singleton_append] at hrest
    exact hrest

/-! ## 4. The main statement -/

/-- After any turns of a new store, whichever writes failed, its events are the newest thousand of
all events entered since it was last cleared, and its exchanges the newest five hundred. What is
asked for of either log is the end of it, whatever the number. -/
theorem Store.logs_newest_entered {root : List String} {start : Moment} {s : Store}
    (hnew : IsNew root start s) (turns : List Turn) :
    let after := turns.foldl Store.turn s
    (∃ entered, s.Enters turns entered) ∧
    (∀ entered, s.Enters turns entered →
      Newest 1000 (fullLog Entries.events entered) after.memory.events ∧
      Newest 500 (fullLog Entries.exchanges entered) after.memory.exchanges) ∧
    ∀ n, Newest n after.memory.events (after.recentEvents n) ∧
      Newest n after.memory.exchanges (after.recentExchanges n) := by
  intro after
  have hempty : s.memory.Bounds [] := by
    rw [hnew.memory.2]
    exact ⟨rfl, rfl⟩
  refine ⟨s.exists_enters turns, fun entered hentered => ?_,
    fun n => ⟨latest_newest .., latest_newest ..⟩⟩
  have hbounds : after.memory.Bounds entered := hentered.bounds hempty
  refine ⟨?_, ?_⟩
  · rw [hbounds.events]
    exact latest_newest ..
  · rw [hbounds.exchanges]
    exact latest_newest ..

namespace Store

def newcomerTurn (op : Operation) : Turn :=
  { op, now := someday, disk := newcomer.disk }

/-- An event that has a number for its details. -/
def numbered (i : Nat) : Event :=
  ⟨.execution, .ofNat i, someday⟩

def numberedTurn (i : Nat) : Turn :=
  newcomerTurn (.event .execution (.ofNat i))

/-- An exchange that has a number for its prompt. -/
def asked (i : Nat) : Exchange :=
  ⟨.review, toString i, "", .empty, someday⟩

/-- A document with an event and an exchange. -/
def told : ImportDocument :=
  ⟨none, .empty, none, [numbered 1], [asked 1]⟩

def telling : Json :=
  .object [("history", .array [(numbered 1).toJson]),
    ("interactions", .array [(asked 1).toJson])]

theorem told_passes (root : List String) : told.Passes root telling where
  object := rfl
  read := rfl
  schema version h := by cases h
  admitted e he := by cases he

/-- An event, a clear, a file that is stored and opened, an exchange and the document. -/
def mixedTurns : List Turn :=
  numberedTurn 0 :: [.clear, .file "a.c" "", .editing { currentFile := some (some "a.c") },
    .exchange .review "0" "" .empty, .document telling].map newcomerTurn

/-- What they enter. -/
def mixedEntries : List Entries :=
  [{ events := [numbered 0] },
    { empties := true
      events := [⟨.cleared, .object [("files_removed", .ofNat 0)], someday⟩] },
    { events := [⟨.fileUpdate, .object [("bytes", .ofNat 0), ("path", .text "a.c")], someday⟩] },
    { events := [⟨.contextChange, .object [("from", .null), ("to", .text "a.c")], someday⟩] },
    { exchanges := [asked 0] },
    { events := [numbered 1, told.event someday], exchanges := [asked 1] }]

theorem enters_mixed : newcomer.Enters mixedTurns mixedEntries := by
  let cleared := (newcomer.turn (numberedTurn 0)).turn (newcomerTurn .clear)
  let filed := cleared.turn (newcomerTurn (.file "a.c" ""))
  have hroot : cleared.root = ["p"] := by
    rw [turn_root, turn_root]
    exact persist_root _
  have hkey : fileKey cleared.root "a.c" = "a.c" := by
    rw [hroot]
    decide +kernel
  have hfile := @Operation.Enters.file cleared.root someday cleared.memory "a.c" ""
    (by rw [hkey]; decide)
  rw [hkey] at hfile
  have hclosed : filed.memory.editing.currentFile = none := by decide +kernel
  have hopened := @Operation.Enters.editing filed.root someday filed.memory
    { currentFile := some (some "a.c") } (by rw [hclosed]; decide)
  rw [hclosed] at hopened
  refine .cons (.event ..) (.cons .clear (.cons hfile (.cons hopened (.cons (.exchange ..)
    (.cons (.document (.merged (told_passes _) fun hj => ?_)) (.nil _))))))
  exact ImportDocument.told hj rfl rfl

theorem enters_numbered (s : Store) (numbers : List Nat) :
    s.Enters (numbers.map numberedTurn) (numbers.map fun i => { events := [numbered i] }) := by
  induction numbers generalizing s with
  | nil => exact .nil s
  | cons i rest ih => exact .cons (.event ..) (ih _)

theorem Enters.append {s : Store} {turns later : List Turn} {entered entries : List Entries}
    (h : s.Enters turns entered) (hlater : (turns.foldl Store.turn s).Enters later entries) :
    s.Enters (turns ++ later) (entered ++ entries) := by
  induction h with
  | nil s => exact hlater
  | cons he _ ih => exact .cons he (ih hlater)

/-- After those turns and as many events as make a thousand entries and one, the entry of the clear
is the one that is cut. -/
theorem logs_newest_entered_thousand :
    IsNew ["p"] someday newcomer ∧
      let after := (mixedTurns ++ (List.range 996).map numberedTurn).foldl Store.turn newcomer
      after.memory.events = [
          ⟨.fileUpdate, .object [("bytes", .ofNat 0), ("path", .text "a.c")], someday⟩,
          ⟨.contextChange, .object [("from", .null), ("to", .text "a.c")], someday⟩,
          numbered 1, told.event someday] ++ (List.range 996).map numbered ∧
        after.memory.exchanges = [asked 0, asked 1] := by
  refine ⟨isNew_newcomer, ?_⟩
  obtain ⟨-, hlogs, -⟩ := logs_newest_entered isNew_newcomer
    (mixedTurns ++ (List.range 996).map numberedTurn)
  obtain ⟨hevents, hexchanges⟩ := hlogs _ (enters_mixed.append (enters_numbered _ _))
  have hkept : ∀ e ∈ (List.range 996).map fun i => ({ events := [numbered i] } : Entries),
      e.empties = false := by
    simp
  dsimp only
  rw [hevents.eq, hexchanges.eq, fullLog_append _ _ hkept, fullLog_append _ _ hkept, flatMap_map,
    flatMap_map, ← map_eq_flatMap]
  refine ⟨?_, ?_⟩
  · have hlength : ((List.range 996).map numbered).length = 996 := by
      rw [length_map, length_range]
    -- The numbered events stand as a variable, so that the cut is found without a look at them.
    generalize (List.range 996).map numbered = later at hlength
    rw [latest, length_append, hlength]
    rfl
  · rw [flatMap_eq_nil_iff.mpr fun _ _ => rfl, append_nil]
    rfl

end Store

end CodeAssist
