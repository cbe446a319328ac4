import CodeAssist.Memory.Key

/-!
Keys of files as paths.

A key is read as a path when a document is merged in. It names itself again exactly when none of
the pieces between its slashes is empty or made of one or two dots. Keys have no backslashes, but a
backslash in a path becomes a slash of its key, so a key may have such pieces.
-/

namespace CodeAssist

open Text
open List hiding splitAt

/-! ## 1. Pieces -/

theorem splitAt_eq_splitOn (sep : Char) (cs : List Char) : splitAt sep cs = cs.splitOn sep := by
  induction cs with
  | nil => rfl
  | cons c rest ih =>
    rw [splitAt, splitOn_cons_eq_if_modifyHead, ih]
    split
    · rfl
    · cases h : rest.splitOn sep with
      | nil => exact absurd h (splitOn_ne_nil sep rest)
      | cons piece more => rfl

theorem mem_of_mem_splitAt {sep : Char} {cs piece : List Char} (h : piece ∈ splitAt sep cs) :
    ∀ c ∈ piece, c ∈ cs ∧ c ≠ sep := by
  induction cs generalizing piece with
  | nil =>
    obtain rfl := mem_singleton.1 h
    exact forall_mem_nil _
  | cons d rest ih =>
    have hlater : ∀ {piece}, piece ∈ splitAt sep rest → ∀ c ∈ piece, c ∈ d :: rest ∧ c ≠ sep :=
      fun hpiece c hc => ⟨mem_cons_of_mem _ (ih hpiece c hc).1, (ih hpiece c hc).2⟩
    rw [splitAt] at h
    split at h
    · rcases mem_cons.1 h with rfl | h
      · exact forall_mem_nil _
      · exact hlater h
    · rename_i hd
      have hfirst : d ∈ d :: rest ∧ d ≠ sep :=
        ⟨mem_cons_self, fun heq => hd (beq_iff_eq.2 heq)⟩
      split at h
      · obtain rfl := mem_singleton.1 h
        intro c hc
        obtain rfl := mem_singleton.1 hc
        exact hfirst
      · rename_i piece' more hsplit
        rw [hsplit] at hlater
        rcases mem_cons.1 h with rfl | h
        · intro c hc
          rcases mem_cons.1 hc with rfl | hc
          · exact hfirst
          · exact hlater mem_cons_self c hc
        · exact hlater (mem_cons_of_mem _ h)

/-- The pieces of a text between its slashes. -/
def pieces (text : String) : List String :=
  (splitAt '/' text.toList).map String.ofList

theorem mem_of_mem_pieces {text piece : String} (h : piece ∈ pieces text) :
    ∀ c ∈ piece.toList, c ∈ text.toList ∧ c ≠ '/' := by
  obtain ⟨cs, hcs, rfl⟩ := mem_map.1 h
  rw [String.toList_ofList]
  exact mem_of_mem_splitAt hcs

theorem intercalate_pieces (text : String) : "/".intercalate (pieces text) = text := by
  rw [← String.toList_inj, String.toList_intercalate, pieces, map_map, splitAt_eq_splitOn]
  have hid : String.toList ∘ String.ofList = id := funext fun cs => String.toList_ofList
  rw [hid, map_id]
  exact intercalate_splitOn '/'

theorem pieces_intercalate {names : List String} (hne : names ≠ [])
    (h : ∀ name ∈ names, '/' ∉ name.toList) : pieces ("/".intercalate names) = names := by
  have hsplit : (['/'].intercalate (names.map String.toList)).splitOn '/' =
      names.map String.toList := by
    refine splitOn_intercalate '/' (fun cs hcs => ?_) fun hnil => ?_
    · obtain ⟨name, hname, rfl⟩ := mem_map.1 hcs
      exact h name hname
    · exact hne (map_eq_nil_iff.1 hnil)
  have hid : String.ofList ∘ String.toList = id := funext fun s => String.ofList_toList
  rw [pieces, splitAt_eq_splitOn, String.toList_intercalate]
  change ((['/'].intercalate (names.map String.toList)).splitOn '/').map String.ofList = names
  rw [hsplit, map_map, hid, map_id]

theorem empty_mem_pieces {text : String} (h : text.toList.head? = some '/') :
    "" ∈ pieces text := by
  rw [pieces]
  cases hcs : text.toList with
  | nil =>
    rw [hcs] at h
    cases h
  | cons c rest =>
    rw [hcs] at h
    cases h
    exact mem_cons_self

/-! ## 2. Keys -/

theorem slashed_plain (name : String) : '\\' ∉ (slashed name).toList := by
  rw [slashed, String.toList_map, mem_map]
  rintro ⟨c, -, hc⟩
  split at hc
  · cases hc
  · rename_i hne
    exact hne (beq_iff_eq.2 hc)

theorem slashed_eq_self {name : String} (h : '\\' ∉ name.toList) : slashed name = name := by
  have hsame : ∀ c ∈ name.toList, (if c == '\\' then '/' else c) = id c := by
    intro c hc
    have hother : c ≠ '\\' := fun heq => h (heq ▸ hc)
    rw [if_neg fun heq => hother (beq_iff_eq.1 heq)]
    rfl
  rw [← String.toList_inj, slashed, String.toList_map, map_congr_left hsame, map_id]

theorem intercalate_plain {names : List String} (h : ∀ name ∈ names, '\\' ∉ name.toList) :
    '\\' ∉ ("/".intercalate names).toList := by
  induction names with
  | nil => simp
  | cons name rest ih =>
    have hname := h name mem_cons_self
    cases rest with
    | nil => rwa [String.intercalate_singleton]
    | cons next more =>
      have hrest := ih fun n hn => h n (mem_cons_of_mem _ hn)
      rw [String.intercalate_cons_cons, String.toList_append, String.toList_append,
        mem_append, mem_append, not_or, not_or]
      exact ⟨⟨hname, by decide⟩, hrest⟩

theorem fileKey_plain (root : List String) (text : String) :
    '\\' ∉ (fileKey root text).toList := by
  refine intercalate_plain fun name hname => ?_
  obtain ⟨part, -, rfl⟩ := mem_map.1 hname
  exact slashed_plain part

/-- A key none of whose pieces is empty or made of one or two dots. -/
def CleanKey (key : String) : Prop :=
  ∀ piece ∈ pieces key, piece ∉ ["", ".", ".."]

instance (key : String) : Decidable (CleanKey key) :=
  inferInstanceAs (Decidable (∀ piece ∈ pieces key, piece ∉ ["", ".", ".."]))

section Key

variable {root : List String} {key name : String}

theorem slash_notMem_of_mem_parts (h : name ∈ (Path.ofText key).parts) : '/' ∉ name.toList :=
  fun hmem => (mem_of_mem_pieces (mem_filter.1 h).1 _ hmem).2 rfl

theorem proper_of_mem_parts (h : name ∈ (Path.ofText key).parts) (hup : name ≠ Path.parent) :
    name ∉ ["", ".", ".."] := by
  have hproper := (mem_filter.1 h).2
  rw [Bool.and_eq_true, bne_iff_ne, bne_iff_ne] at hproper
  simp only [mem_cons, not_mem_nil, or_false, not_or]
  exact ⟨hproper.1, hproper.2, hup⟩

theorem goesUp_eq_false {p : Path} : p.goesUp = false ↔ ∀ name ∈ p.parts, name ≠ Path.parent := by
  rw [Path.goesUp, ← Bool.not_eq_true, contains_iff_mem]
  exact ⟨fun h name hname heq => h (heq ▸ hname), fun h hmem => h _ hmem rfl⟩

/-- The key of a path that is a key itself is made of those of its names that do not go up. -/
theorem fileKey_relative (hrelative : (Path.ofText key).absolute = false)
    (hplain : '\\' ∉ key.toList) :
    fileKey root key = "/".intercalate ((Path.ofText key).parts.filter (· != Path.parent)) := by
  rw [fileKey, belowRoot, hrelative]
  have hsame : ∀ name ∈ (Path.ofText key).parts.filter (· != Path.parent),
      slashed name = id name := by
    intro name hname
    have hpiece := (mem_filter.1 (mem_filter.1 hname).1).1
    exact slashed_eq_self fun hmem => hplain (mem_of_mem_pieces hpiece _ hmem).1
  change "/".intercalate (((Path.ofText key).parts.filter (· != Path.parent)).map slashed) = _
  rw [map_congr_left hsame, map_id]

theorem CleanKey.parts (h : CleanKey key) : (Path.ofText key).parts = pieces key := by
  refine filter_eq_self.2 fun piece hpiece => ?_
  have hclean := h piece hpiece
  simp only [mem_cons, not_mem_nil, or_false, not_or] at hclean
  simp [hclean.1, hclean.2.1]

/-- A key is clean exactly when it is the key of a path that neither starts at the top nor goes
up. -/
theorem clean_iff (hne : key ≠ "") (hplain : '\\' ∉ key.toList) :
    CleanKey key ↔ (Path.ofText key).absolute = false ∧ (Path.ofText key).goesUp = false ∧
      fileKey root key = key := by
  constructor
  · intro h
    have hparent : ∀ piece ∈ pieces key, piece ≠ Path.parent := by
      rintro piece hpiece rfl
      exact h _ hpiece (by decide)
    have hrelative : (Path.ofText key).absolute = false := by
      refine beq_false_of_ne fun hhead => ?_
      exact h _ (empty_mem_pieces hhead) (by decide)
    refine ⟨hrelative, ?_, ?_⟩
    · rw [goesUp_eq_false, h.parts]
      exact hparent
    · rw [fileKey_relative hrelative hplain, h.parts,
        filter_eq_self.2 fun piece hpiece => bne_iff_ne.2 (hparent piece hpiece),
        intercalate_pieces]
  · rintro ⟨hrelative, hup, hsame⟩
    have hparent := goesUp_eq_false.1 hup
    rw [fileKey_relative hrelative hplain,
      filter_eq_self.2 fun name hname => bne_iff_ne.2 (hparent name hname)] at hsame
    -- The names join to the key, so they are its pieces.
    have hnames : (Path.ofText key).parts ≠ [] := by
      intro hnil
      rw [hnil, String.intercalate_nil] at hsame
      exact hne hsame.symm
    have hpieces := pieces_intercalate hnames fun _ => slash_notMem_of_mem_parts
    rw [hsame] at hpieces
    intro piece hpiece
    rw [hpieces] at hpiece
    exact proper_of_mem_parts hpiece (hparent piece hpiece)

/-- The key of a path that is a key itself is clean, if there is one. -/
theorem fileKey_clean (hrelative : (Path.ofText key).absolute = false)
    (hplain : '\\' ∉ key.toList) (hne : fileKey root key ≠ "") : CleanKey (fileKey root key) := by
  rw [fileKey_relative hrelative hplain] at hne ⊢
  have hnames : (Path.ofText key).parts.filter (· != Path.parent) ≠ [] := by
    intro hnil
    rw [hnil, String.intercalate_nil] at hne
    exact hne rfl
  intro piece hpiece
  rw [pieces_intercalate hnames fun _ hname =>
    slash_notMem_of_mem_parts (mem_filter.1 hname).1] at hpiece
  obtain ⟨hpart, hup⟩ := mem_filter.1 hpiece
  exact proper_of_mem_parts hpart (bne_iff_ne.1 hup)

end Key

end CodeAssist
