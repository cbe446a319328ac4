import CodeAssist.Command.Sources
import Mathlib.Data.List.Perm.Basic

/-!
Which files are collected below a directory.

The walk keeps directories waiting and takes the last one first; what it finds is what a recursion
over the tree finds, in another order (`gather_perm`). So a file is found once for each way to it,
and the sorted paths do not show in which order directories were listed.
-/

namespace CodeAssist.Command

open List Option String

variable {names : List String} {entries : Listing}

/-! ## 1. Names -/

theorem exists_stem {name ext : String} (h : extension? name = some ext) :
    ∃ stem, stem ≠ "" ∧ name = stem ++ "." ++ ext := by
  have hdot := head?_dropWhile_not (· != '.') name.toList.reverse
  have hsplit := takeWhile_append_dropWhile (p := (· != '.')) (l := name.toList.reverse)
  rw [extension?, ite_none_right_eq_some] at h
  generalize name.toList.reverse.takeWhile (· != '.') = tail at h hsplit
  generalize name.toList.reverse.dropWhile (· != '.') = rest at hsplit hdot
  have hname : name.toList = rest.reverse ++ tail.reverse := by
    rw [← reverse_append, hsplit, reverse_reverse]
  obtain ⟨hlength, h⟩ := h
  rcases rest with _ | ⟨dot, _ | ⟨c, rest⟩⟩
  · simp only [hname, reverse_nil, nil_append] at hlength
    omega
  · simp [hname] at hlength
  · obtain rfl : dot = '.' := by simpa using hdot
    refine ⟨ofList (c :: rest).reverse, fun hempty => ?_, toList_inj.1 ?_⟩
    · simpa using congrArg String.toList hempty
    · simp [hname, ← some.inj h]

theorem extension?_append {stem ext : String} (hstem : stem ≠ "")
    (hext : ∀ c ∈ ext.toList.reverse, (c != '.') = true) :
    extension? (stem ++ "." ++ ext) = some ext := by
  have htail : ((stem ++ "." ++ ext).toList.reverse.takeWhile (· != '.')).reverse = ext.toList := by
    simp [takeWhile_append_of_pos hext]
  have hpos : 0 < stem.toList.length := length_pos_iff.2 fun h => hstem (toList_inj.1 h)
  rw [extension?, htail, if_pos, ofList_toList]
  simp only [toList_append, List.length_append]
  change _ < _ + 1 + _
  omega

theorem isSourceName_iff (name : String) : isSourceName name = true ↔
    ∃ stem ext, stem ≠ "" ∧ (ext = "c" ∨ ext = "h") ∧ name = stem ++ "." ++ ext := by
  constructor
  · intro h
    cases hext : extension? name with
    | none => simp [isSourceName, hext] at h
    | some ext =>
      obtain ⟨stem, hstem, hname⟩ := exists_stem hext
      exact ⟨stem, ext, hstem, by simpa [isSourceName, hext, sourceExtensions] using h, hname⟩
  · rintro ⟨stem, ext, hstem, hext, rfl⟩
    rw [isSourceName, extension?_append hstem (by rcases hext with rfl | rfl <;> simp)]
    simpa [sourceExtensions] using hext

/-! ## 2. The walk and the tree -/

mutual

/-- The source files below an entry. -/
def sourcesOf (name : String) : Tree → List (List String)
  | .file => if isSourceName name then [[name]] else []
  | .directory entries =>
    if isHidden name then [] else (sourcesAmong entries).map (name :: ·)
  | .other => []

def sourcesAmong : Listing → List (List String)
  | [] => []
  | (name, tree) :: rest => sourcesOf name tree ++ sourcesAmong rest

end

theorem sourcesAmong_eq (entries : Listing) :
    sourcesAmong entries = entries.flatMap fun e => sourcesOf e.1 e.2 := by
  induction entries with
  | nil => rfl
  | cons e rest ih => rw [sourcesAmong, ih, flatMap_cons]

/-- The source files below the directories that wait. -/
def sourcesWaiting (waiting : List (List String × Listing)) : List (List String) :=
  waiting.flatMap fun w => (sourcesAmong w.2).map (w.1 ++ ·)

theorem gather_perm (path : List String) (entries : Listing)
    (waiting : List (List String × Listing)) (found : List (List String)) :
    (gather path entries waiting found).Perm
      (found ++ ((sourcesAmong entries).map (path ++ ·) ++ sourcesWaiting waiting)) := by
  fun_induction gather path entries waiting found with
  | case1 => simp [sourcesAmong, sourcesWaiting]
  | case2 _ found path entries waiting ih => simpa [sourcesAmong, sourcesWaiting] using ih
  | case3 path waiting found name inner rest hhidden ih =>
    simpa [sourcesAmong, sourcesOf, hhidden] using ih
  | case4 path waiting found name inner rest hhidden ih =>
    -- what is below the directory moves from the front to those that wait
    refine ih.trans (.append_left _ ?_)
    simpa [sourcesAmong, sourcesOf, hhidden, sourcesWaiting, Function.comp_def] using
      perm_append_comm_assoc ..
  | case5 path waiting found name rest hsource ih | case6 path waiting found name rest hsource ih =>
    simpa [sourcesAmong, sourcesOf, hsource] using ih
  | case7 path waiting found name rest ih => simpa [sourcesAmong, sourcesOf] using ih

/-! ## 3. Which files -/

/-- A path leads to a source file, through directories that are not hidden. -/
inductive Offers : Listing → List String → Prop where
  | file {entries : Listing} {stem ext : String} : stem ≠ "" → ext = "c" ∨ ext = "h" →
      (stem ++ "." ++ ext, .file) ∈ entries → Offers entries [stem ++ "." ++ ext]
  | inside {entries inner : Listing} {name : String} {names : List String} :
      name.toList.head? ≠ some '.' → (name, .directory inner) ∈ entries → Offers inner names →
      Offers entries (name :: names)

theorem Offers.mem (h : Offers entries names) :
    names ∈ sourcesAmong entries := by
  induction h with
  | file hstem hext he =>
    have hsource := (isSourceName_iff _).2 ⟨_, _, hstem, hext, rfl⟩
    exact sourcesAmong_eq _ ▸ mem_flatMap.2 ⟨_, he, by simp [sourcesOf, hsource]⟩
  | inside hname he _ ih =>
    exact sourcesAmong_eq _ ▸ mem_flatMap.2 ⟨_, he, by simp [sourcesOf, isHidden, hname, ih]⟩

theorem mem_sourcesOf {name : String} {tree : Tree} (h : names ∈ sourcesOf name tree) :
    (tree = .file ∧ isSourceName name = true ∧ names = [name]) ∨
      ∃ inner more, tree = .directory inner ∧ isHidden name = false ∧ more ∈ sourcesAmong inner ∧
        names = name :: more := by
  cases tree with
  | file => exact .inl ⟨rfl, by simpa [sourcesOf] using h⟩
  | directory inner =>
    obtain ⟨hhidden, more, hmore, rfl⟩ :
        isHidden name = false ∧ ∃ more, more ∈ sourcesAmong inner ∧ name :: more = names := by
      simpa [sourcesOf] using h
    exact .inr ⟨inner, more, rfl, hhidden, hmore, rfl⟩
  | other => simp [sourcesOf] at h

theorem offers_of_mem {entries : Listing} {names : List String} (h : names ∈ sourcesAmong entries) :
    Offers entries names := by
  rw [sourcesAmong_eq, mem_flatMap] at h
  obtain ⟨⟨name, _⟩, he, h⟩ := h
  obtain ⟨rfl, hsource, rfl⟩ | ⟨inner, more, rfl, hhidden, hmore, rfl⟩ := mem_sourcesOf h
  · obtain ⟨stem, ext, hstem, hext, rfl⟩ := (isSourceName_iff name).1 hsource
    exact .file hstem hext he
  · exact .inside (by simpa [isHidden] using hhidden) he (offers_of_mem hmore)
termination_by names.length

/-! ## 4. Each file once -/

/-- No directory lists a name twice. -/
inductive Proper : Listing → Prop where
  | intro {entries : Listing} : (entries.map (·.1)).Nodup →
      (∀ name inner, (name, .directory inner) ∈ entries → Proper inner) → Proper entries

/-- No source comes twice where no name does. -/
theorem nodup_sourcesAmong (h : Proper entries) :
    (sourcesAmong entries).Nodup := by
  induction h with
  | intro hnames _ ih =>
    rw [sourcesAmong_eq, Nodup, pairwise_flatMap]
    constructor
    · rintro ⟨name, tree⟩ he
      cases tree with
      | file => rw [sourcesOf]; split <;> simp
      | directory inner =>
        rw [sourcesOf]
        split
        · exact .nil
        · exact pairwise_map.2 ((ih name inner he).imp fun hne heq => hne (cons.inj heq).2)
      | other => exact .nil
    · refine (pairwise_map.1 hnames).imp fun hne x hx y hy heq => hne ?_
      obtain ⟨-, -, rfl⟩ | ⟨_, _, -, -, -, rfl⟩ := mem_sourcesOf hx <;>
        obtain ⟨-, -, rfl⟩ | ⟨_, _, -, -, -, rfl⟩ := mem_sourcesOf hy <;> exact (cons.inj heq).1

/-! ## 5. Order -/

theorem pathLe_iff {a b : List String} : pathLe a b = true ↔ ¬ b < a := by
  induction a generalizing b with
  | nil => simp [pathLe]
  | cons x a ih =>
    cases b with
    | nil => simp [pathLe]
    | cons y b =>
      by_cases hxy : x = y
      · simp [pathLe, hxy, ih]
      · have hlt : x < y ↔ ¬ y < x := ⟨fun h h' => String.lt_irrefl _ (String.lt_trans h h'),
          fun h => Std.lt_of_le_of_ne (String.not_lt.1 h) hxy⟩
        simp [pathLe, hxy, Ne.symm hxy, cons_lt_cons_iff, hlt]

theorem sorted_paths (found : List (List String)) :
    (found.mergeSort pathLe).Pairwise fun a b => ¬ b < a := by
  refine (pairwise_mergeSort (fun a b c => ?_) (fun a b => ?_) found).imp pathLe_iff.1
  · simp only [pathLe_iff]
    exact List.le_trans
  · simp only [Bool.or_eq_true, pathLe_iff]
    exact List.le_total a b

theorem mergeSort_eq_of_perm {found found' : List (List String)} (h : found.Perm found') :
    found.mergeSort pathLe = found'.mergeSort pathLe :=
  ((mergeSort_perm found _).trans (h.trans (mergeSort_perm found' _).symm)).eq_of_pairwise
    (fun _ _ _ _ hab hba => List.le_antisymm hab hba) (sorted_paths found) (sorted_paths found')

/-- The same tree, with the entries of its directories in any other order. -/
inductive Relisted : Listing → Listing → Prop where
  | order {entries others : Listing} : entries.Perm others → Relisted entries others
  | within {front back inner others : Listing} (name : String) : Relisted inner others →
      Relisted (front ++ (name, .directory inner) :: back)
        (front ++ (name, .directory others) :: back)
  | trans {entries between others : Listing} :
      Relisted entries between → Relisted between others → Relisted entries others

theorem Relisted.perm {others : Listing} (h : Relisted entries others) :
    (sourcesAmong entries).Perm (sourcesAmong others) := by
  induction h with
  | order h => simpa only [sourcesAmong_eq] using h.flatMap_right _
  | @within front back inner others name _ ih =>
    simp only [sourcesAmong_eq, flatMap_append, flatMap_cons, sourcesOf] at ih ⊢
    refine .append_left _ (.append_right _ ?_)
    split
    · exact .nil
    · exact ih.map _
  | trans _ _ ih₁ ih₂ => exact ih₁.trans ih₂

/-! ## 6. Collecting -/

theorem collectSources_eq (entries : Listing) :
    collectSources (.directory entries) = .ok ((sourcesAmong entries).mergeSort pathLe) := by
  have hperm := gather_perm [] entries [] []
  rw [collectSources, mergeSort_eq_of_perm hperm]
  simp [sourcesWaiting]

/-- Every directory gives its source files: those with a name that ends in `.c` or `.h` after at
least one character, to which a path leads through directories that are not hidden. They come in
the order of their paths, each once, however the directories are listed. -/
theorem sources_whatever_listed (entries : Listing) :
    ∃ found, collectSources (.directory entries) = .ok found ∧
      (∀ names, names ∈ found ↔ Offers entries names) ∧
      (Proper entries → found.Pairwise (· < ·) ∧ found.Nodup) ∧
      ∀ others, Relisted entries others → collectSources (.directory others) = .ok found := by
  refine ⟨_, collectSources_eq entries, fun names => ?_, fun hproper => ?_, fun others h => ?_⟩
  · rw [(mergeSort_perm _ _).mem_iff]
    exact ⟨offers_of_mem, Offers.mem⟩
  · have hnodup := (mergeSort_perm _ pathLe).nodup_iff.2 (nodup_sourcesAmong hproper)
    refine ⟨(sorted_paths _).imp₂ (fun a b hle hne => ?_) hnodup, hnodup⟩
    exact Classical.byContradiction fun hlt => hne (List.le_antisymm hle hlt)
  · rw [collectSources_eq, mergeSort_eq_of_perm h.perm]

def sampleListing : Listing :=
  [("z.h", .file), (".git", .directory [("x.c", .file)]), (".c", .file), ("m.c", .other),
    ("src", .directory [("notes", .file), ("m.c", .file), (".a.c", .file)])]

theorem sources_whatever_listed_sample : Proper sampleListing ∧
    ∃ found, found = [["src", ".a.c"], ["src", "m.c"], ["z.h"]] ∧ found.Pairwise (· < ·) ∧
      collectSources (.directory sampleListing.reverse) = .ok found := by
  have hproper : Proper sampleListing := by
    refine .intro (by decide) fun name inner he => ?_
    obtain ⟨-, rfl⟩ | ⟨-, rfl⟩ : (name = ".git" ∧ inner = [("x.c", .file)]) ∨
        (name = "src" ∧ inner = [("notes", .file), ("m.c", .file), (".a.c", .file)]) := by
      simpa [sampleListing] using he
    all_goals exact .intro (by decide) fun name inner he => by simp at he
  have hperm : (sourcesAmong sampleListing).Perm [["src", ".a.c"], ["src", "m.c"], ["z.h"]] := by
    decide
  obtain ⟨found, hok, -, hsorted, hrelisted⟩ := sources_whatever_listed sampleListing
  rw [collectSources_eq, mergeSort_eq_of_perm hperm, mergeSort_of_pairwise (by decide)] at hok
  exact ⟨hproper, found, (Except.ok.inj hok).symm, (hsorted hproper).1,
    hrelisted _ (.order (reverse_perm _).symm)⟩

end CodeAssist.Command
