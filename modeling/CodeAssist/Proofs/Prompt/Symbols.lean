import CodeAssist.Proofs.Prompt.Window
import CodeAssist.Proofs.Text.Finding
import Mathlib.Data.List.Perm.Basic

/-!
The symbols of a project in its prompts.

Signatures are listed for people and models, names for the offline provider. Each of the two lists
goes through the index in its own way, the one by entries and the other by facts; both ways have the
entry of the open file first and the others in their order (`factsOpenFirst_eq`). A signature is
listed for every function; a name is listed where it comes first (`firsts_eq`).
-/

namespace CodeAssist.View

open List Prompt Text

/-! ## 1. The order of the index -/

theorem find?_key (t : Table α) (key : String) :
    t.entries.find? (·.1 == key) = (t.lookup key).map fun v => (key, v) := by
  rw [Table.lookup]
  induction t.entries with
  | nil => rfl
  | cons e rest ih =>
    obtain ⟨k, v⟩ := e
    rw [find?_cons, lookup_cons, BEq.comm (a := key)]
    cases hkey : k == key with
    | true => rw [beq_iff_eq.1 hkey]; rfl
    | false => exact ih

/-- Of distinct keys, one is that of the entry that is looked up. -/
theorem filter_key (t : Table α) (key : String) :
    t.entries.filter (·.1 == key) = ((t.lookup key).map fun v => (key, v)).toList := by
  obtain ⟨entries, hdistinct⟩ := t
  change entries.filter (·.1 == key) = ((entries.lookup key).map fun v => (key, v)).toList
  induction entries with
  | nil => rfl
  | cons e rest ih =>
    obtain ⟨k, v⟩ := e
    obtain ⟨hk, hrest⟩ := nodup_cons.1 hdistinct
    by_cases hkey : k = key
    · subst hkey
      have hnone : rest.filter (·.1 == k) = [] := by
        refine filter_eq_nil_iff.2 fun e he hek => hk ?_
        exact mem_map.2 ⟨e, he, beq_iff_eq.1 hek⟩
      simp [hnone]
    · have hother : (key == k) = false := beq_false_of_ne (Ne.symm hkey)
      simp [hkey, lookup_cons, hother, ih hrest]

/-- An order of all entries of an index: own ones and then others, each in the order of the index,
and an entry is an own one if it is that of the open file. -/
structure Ordered (v : View) (own others : List (String × Facts)) : Prop where
  all : (own ++ others).Perm v.index.entries
  own_order : own.Sublist v.index.entries
  others_order : others.Sublist v.index.entries
  own_path : ∀ e ∈ own, v.openFile.map (·.path) = some e.1
  others_path : ∀ e ∈ others, v.openFile.map (·.path) ≠ some e.1

/-- What the index says about the open file. -/
def openFacts? (v : View) : Option (String × Facts) := do
  let f ← v.openFile
  let facts ← v.index.lookup f.path
  return (f.path, facts)

/-- The entries of files that are not open. -/
def otherEntries (v : View) : List (String × Facts) :=
  v.index.entries.filter fun e => some e.1 != v.openFile.map (·.path)

theorem openFacts?_eq_some {v : View} {e : String × Facts} (h : v.openFacts? = some e) :
    v.openFile.map (·.path) = some e.1 ∧ v.index.entries.find? (·.1 == e.1) = some e := by
  rw [openFacts?] at h
  cases hopen : v.openFile with
  | none => simp [hopen] at h
  | some f =>
    rw [hopen, Option.bind_eq_bind, Option.bind_some, Option.bind_eq_bind] at h
    obtain ⟨facts, hfacts, he⟩ := Option.bind_eq_some_iff.1 h
    cases he
    exact ⟨rfl, by rw [find?_key, hfacts]; rfl⟩

theorem signedEntries_eq (v : View) : signedEntries v = v.openFacts?.toList ++ v.otherEntries := by
  rw [signedEntries, otherEntries, openFacts?]
  cases v.openFile with
  | none => rfl
  | some f =>
    dsimp only [Option.map_some, Option.bind_some]
    rw [find?_key]
    cases hfound : v.index.lookup f.path <;> simp [hfound]

/-- The two ways through the index agree. -/
theorem factsOpenFirst_eq (v : View) : v.factsOpenFirst = (signedEntries v).map (·.2) := by
  rw [factsOpenFirst, signedEntries_eq, map_append, otherEntries, openFacts?]
  cases v.openFile with
  | none => rfl
  | some f => cases hfound : v.index.lookup f.path <;> simp [hfound]

theorem ordered_entries (v : View) : v.Ordered v.openFacts?.toList v.otherEntries := by
  refine ⟨?_, ?_, filter_sublist, fun e he => ?_, fun e he hsame => ?_⟩
  · rw [openFacts?, otherEntries]
    cases v.openFile with
    | none => exact .of_eq (filter_eq_self.2 fun e _ => rfl)
    | some f =>
      have hown := filter_key v.index f.path
      have hperm := filter_append_perm (fun e : String × Facts => e.1 == f.path) v.index.entries
      rw [hown] at hperm
      cases hfound : v.index.lookup f.path <;> simpa [hfound, bne] using hperm
  · cases hown : v.openFacts? with
    | none => exact nil_sublist _
    | some e => exact singleton_sublist.2 (mem_of_find?_eq_some (openFacts?_eq_some hown).2)
  · exact (openFacts?_eq_some (Option.mem_toList.1 he)).1
  · simpa [hsame] using (mem_filter.1 he).2

/-! ## 2. The main statement -/

/-- The signatures of a prompt and the names that a completion is given go through the index in one
order, with the entry of the open file first. Every function has its signature, and of the names of
functions, and of variables, each is given once, where it comes first. -/
theorem symbols_follow_index (v : View) (config : Prompt.Config) :
    ∃ own others, v.Ordered own others ∧ own = v.openFacts?.toList ∧
      (∀ request nearby, (Prompt.sections config request v nearby).signatures =
        (own ++ others).flatMap fun e =>
          e.2.functions.map fun f => (Prompt.signature e.1 f).toList) ∧
      ∀ cursor selection,
        if Prompt.Overflows config (.completion cursor selection) v then
          Prompt.build config (.completion cursor selection) v = .error .overflow
        else ∃ prompt scene,
          Prompt.build config (.completion cursor selection) v = .ok prompt ∧
          prompt.subject = .completion scene ∧
          scene.knownFunctions.Nodup ∧
          scene.knownFunctions =
            ((own ++ others).flatMap fun e => e.2.functions.map (·.name)).eraseDups ∧
          scene.knownVariables.Nodup ∧
          scene.knownVariables =
            ((own ++ others).flatMap fun e => e.2.vars.map (·.name)).eraseDups := by
  refine ⟨_, _, v.ordered_entries, rfl, fun request nearby => ?_, fun cursor selection => ?_⟩
  · simp [Prompt.sections, Prompt.signatures, signedEntries_eq, List.map_flatMap,
      Function.comp_def]
  · split
    · rename_i hoverflows
      exact Prompt.build_eq_error_iff.2 hoverflows
    · rename_i hfits
      obtain ⟨prompt, hprompt⟩ := Prompt.exists_build hfits
      obtain ⟨nearby, -, rfl⟩ := Prompt.build_eq_ok_iff.1 hprompt
      refine ⟨_, _, hprompt, rfl, (firsts_nodup _ _).1, ?_, (firsts_nodup _ _).1, ?_⟩
      · simp [knownFunctions, firsts_eq, factsOpenFirst_eq, signedEntries_eq, flatMap_map]
      · simp [knownVariables, firsts_eq, factsOpenFirst_eq, signedEntries_eq, flatMap_map]

end CodeAssist.View
