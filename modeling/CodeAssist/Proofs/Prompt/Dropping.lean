import CodeAssist.Proofs.Prompt.Window
import Mathlib.Data.Nat.Dist
import Mathlib.Logic.Relation

/-!
What a prompt loses when it is too long.

One item goes at a time: `Drop` says which one. Making the sections fit is a run of drops, each
from sections that are too long, and it ends with sections that fit or with bare ones
(`fit_run`). So what such a run keeps is shown for one drop and carried along the run.
-/

namespace CodeAssist.Prompt

open List String

variable {ls : List NumberedLine} {middle l d more : Nat}

/-! ## 1. Lines by distance -/

/-- Whether the line `l` is nearer to the line `middle` than the line `d`. Of two lines at the same
distance, the line above is the farther one. -/
def Nearer (middle l d : Nat) : Prop :=
  Nat.dist l middle < Nat.dist d middle ∨ Nat.dist l middle = Nat.dist d middle ∧ d < l

theorem Nearer.asymm (h : Nearer middle l d) : ¬ Nearer middle d l := by
  unfold Nearer at *
  omega

namespace Sections

/-- Farness orders lines by their distance from the cursor, where line zero counts as the first. -/
theorem nearer_of_farness {cursorLine : Nat} (hl : 1 ≤ l) (hd : 1 ≤ d) (hne : l ≠ d)
    (h : farness cursorLine l ≤ farness cursorLine d) : Nearer (max cursorLine 1) l d := by
  unfold farness at h
  unfold Nearer Nat.dist
  split at h <;> split at h <;> omega

/-- One step in the search for the farthest line. -/
def farther (cursorLine : Nat) (best : Nat × Nat) (entry : NumberedLine × Nat) : Nat × Nat :=
  if best.1 ≤ farness cursorLine entry.1.1 then (farness cursorLine entry.1.1, entry.2) else best

theorem farthest_eq (cursorLine : Nat) (ls : List NumberedLine) :
    farthest cursorLine ls = (ls.zipIdx.foldl (farther cursorLine) (0, 0)).2 :=
  rfl

/-- The search ends with the best it began with, or with a line that no line is farther than. -/
theorem foldl_farther (cursorLine : Nat) (ls : List NumberedLine) (k : Nat) (best : Nat × Nat) :
    ((ls.zipIdx k).foldl (farther cursorLine) best = best ∧
      ∀ l ∈ ls, farness cursorLine l.1 < best.1) ∨
    ∃ above l below, ls = above ++ l :: below ∧
      (ls.zipIdx k).foldl (farther cursorLine) best =
        (farness cursorLine l.1, k + above.length) ∧
      best.1 ≤ farness cursorLine l.1 ∧
      ∀ a ∈ ls, farness cursorLine a.1 ≤ farness cursorLine l.1 := by
  induction ls generalizing k best with
  | nil => exact .inl ⟨rfl, forall_mem_nil _⟩
  | cons first rest ih =>
    rw [zipIdx_cons, foldl_cons, farther]
    dsimp only
    split
    · rename_i hfarther
      refine .inr ?_
      rcases ih (k + 1) (farness cursorLine first.1, k) with ⟨hsame, hrest⟩ |
        ⟨above, l, below, rfl, hfound, hbest, hrest⟩
      · refine ⟨[], first, rest, rfl, hsame, hfarther, ?_⟩
        exact forall_mem_cons.2 ⟨Nat.le_refl _, fun a ha => Nat.le_of_lt (hrest a ha)⟩
      · refine ⟨first :: above, l, below, rfl, ?_, Nat.le_trans hfarther hbest,
          forall_mem_cons.2 ⟨hbest, hrest⟩⟩
        rw [hfound, length_cons]
        congr 1
        omega
    · rename_i hnearer
      have hfirst : farness cursorLine first.1 < best.1 := Nat.lt_of_not_le hnearer
      rcases ih (k + 1) best with ⟨hsame, hrest⟩ | ⟨above, l, below, rfl, hfound, hbest, hrest⟩
      · exact .inl ⟨hsame, forall_mem_cons.2 ⟨hfirst, hrest⟩⟩
      · refine .inr ⟨first :: above, l, below, rfl, ?_, hbest, forall_mem_cons.2
          ⟨Nat.le_trans (Nat.le_of_lt hfirst) hbest, hrest⟩⟩
        rw [hfound, length_cons]
        congr 1
        omega

/-- Lines with ascending numbers, counted from one. -/
structure Numbered (ls : List NumberedLine) : Prop where
  ascending : ls.Pairwise fun a b => a.1 < b.1
  positive : ∀ l ∈ ls, 1 ≤ l.1

theorem Numbered.sublist {ls' : List NumberedLine} (h : Numbered ls) (hsub : ls'.Sublist ls) :
    Numbered ls' :=
  ⟨h.ascending.sublist hsub, fun l hl => h.positive l (hsub.subset hl)⟩

/-- The line that goes is farther from the cursor than all that stay. -/
theorem eraseIdx_farthest (cursorLine : Nat) (h : Numbered ls) (hne : ls ≠ []) :
    ∃ above l below, ls = above ++ l :: below ∧
      ls.eraseIdx (farthest cursorLine ls) = above ++ below ∧
      ∀ k ∈ above ++ below, Nearer (max cursorLine 1) k.1 l.1 := by
  rcases foldl_farther cursorLine ls 0 (0, 0) with ⟨-, hnone⟩ |
    ⟨above, l, below, rfl, hfound, -, hfarthest⟩
  · obtain ⟨l, hl⟩ := exists_mem_of_ne_nil ls hne
    exact absurd (hnone l hl) (Nat.not_lt_zero _)
  · refine ⟨above, l, below, rfl, ?_, fun k hk => ?_⟩
    · rw [farthest_eq, hfound, Nat.zero_add, eraseIdx_append_of_length_le (Nat.le_refl _),
        Nat.sub_self, eraseIdx_cons_zero]
    · have hmem : k ∈ above ++ l :: below := by
        rcases mem_append.1 hk with hk | hk
        · exact mem_append_left _ hk
        · exact mem_append_right _ (mem_cons_of_mem _ hk)
      -- no two lines have the same number
      have hother : k.1 ≠ l.1 := by
        obtain ⟨-, hbelow, habove⟩ := pairwise_append.1 h.ascending
        rcases mem_append.1 hk with hk | hk
        · exact Nat.ne_of_lt (habove k hk l mem_cons_self)
        · exact Nat.ne_of_gt ((pairwise_cons.1 hbelow).1 k hk)
      exact nearer_of_farness (h.positive k hmem)
        (h.positive l (mem_append_right _ mem_cons_self)) hother (hfarthest k hmem)

/-! ## 2. Drops -/

theorem length_eq (s : Sections) : s.length = s.render.length := by
  simp only [length, render, List.length_append]

/-- Sections without any optional one. -/
structure Bare (s : Sections) : Prop where
  exchanges : s.exchanges = []
  signatures : s.signatures = []
  nearby : s.nearby = []

/-- One item goes: the oldest exchange; when there is none, the last signature; when there is none
either, the farthest line. -/
inductive Drop : Sections → Sections → Prop where
  | exchange {s : Sections} {oldest : List Char} {rest : List (List Char)}
    (h : s.exchanges = oldest :: rest) : Drop s { s with exchanges := rest }
  | signature {s : Sections} {before : List (List Char)} {last : List Char}
    (hexchanges : s.exchanges = []) (h : s.signatures = before ++ [last]) :
    Drop s { s with signatures := before }
  | line {s : Sections} {above below : List NumberedLine} {l : NumberedLine}
    (hexchanges : s.exchanges = []) (hsignatures : s.signatures = [])
    (h : s.nearby = above ++ l :: below)
    (hfarthest : ∀ k ∈ above ++ below, Nearer (max s.cursorLine 1) k.1 l.1) :
    Drop s { s with nearby := above ++ below }

variable {s t : Sections} {budget : Nat}

def items (s : Sections) : Nat :=
  s.exchanges.length + s.signatures.length + s.nearby.length

theorem Drop.items_lt (h : Drop s t) : t.items < s.items := by
  cases h with
  | exchange h => simp [items, h]
  | signature _ h => simp [items, h]
  | line _ _ h => simp [items, h]

theorem Drop.numbered (h : Drop s t) (hs : Numbered s.nearby) : Numbered t.nearby := by
  cases h with
  | exchange => exact hs
  | signature => exact hs
  | line _ _ h =>
    refine hs.sublist ?_
    rw [h]
    exact Sublist.append_left (sublist_cons_self _ _) _

theorem exists_drop (hs : Numbered s.nearby) (hbare : ¬ s.Bare) : ∃ t, Drop s t := by
  cases hexchanges : s.exchanges with
  | cons oldest rest => exact ⟨_, .exchange hexchanges⟩
  | nil =>
    rcases eq_nil_or_concat s.signatures with hsignatures | ⟨before, last, hsignatures⟩
    · have hne : s.nearby ≠ [] := fun hnearby => hbare ⟨hexchanges, hsignatures, hnearby⟩
      obtain ⟨above, l, below, hsplit, -, hfarthest⟩ := eraseIdx_farthest s.cursorLine hs hne
      exact ⟨_, .line hexchanges hsignatures hsplit hfarthest⟩
    · rw [concat_eq_append] at hsignatures
      exact ⟨_, .signature hexchanges hsignatures⟩

theorem fits_iff : s.fits budget = true ↔ s.length ≤ budget :=
  decide_eq_true_iff

theorem fitExchanges_of_fits {es : List (List Char)}
    (h : ({ s with exchanges := es } : Sections).length ≤ budget) :
    s.fitExchanges budget es = es := by
  cases es with
  | nil => rfl
  | cons e rest => rw [fitExchanges, if_pos (fits_iff.2 h)]

theorem fitSignatures_of_fits {ss : List (List Char)}
    (h : ({ s with signatures := ss.reverse } : Sections).length ≤ budget) :
    s.fitSignatures budget ss = ss.reverse := by
  cases ss with
  | nil => rfl
  | cons last before => rw [fitSignatures, if_pos (fits_iff.2 h)]

theorem fitNearby_of_fits (n : Nat) (h : ({ s with nearby := ls } : Sections).length ≤ budget) :
    s.fitNearby budget n ls = ls := by
  cases n with
  | zero => rfl
  | succ n => rw [fitNearby, if_pos (fits_iff.2 h)]

theorem fit_of_fits (h : s.length ≤ budget) : s.fit budget = s := by
  have hexchanges : s.fitExchanges budget s.exchanges = s.exchanges := fitExchanges_of_fits h
  have hsignatures : s.fitSignatures budget s.signatures.reverse = s.signatures := by
    rw [fitSignatures_of_fits (by rwa [reverse_reverse]), reverse_reverse]
  have hnearby : s.fitNearby budget s.nearby.length s.nearby = s.nearby := fitNearby_of_fits _ h
  simp only [fit, hexchanges, hsignatures, hnearby]

theorem fit_of_bare (h : s.Bare) : s.fit budget = s := by
  obtain ⟨header, body, nearby, nearbyPath, cursorLine, signatures, exchanges⟩ := s
  obtain ⟨rfl, rfl, rfl⟩ := h
  rfl

theorem fitExchanges_with (es es' : List (List Char)) :
    ({ s with exchanges := es' } : Sections).fitExchanges budget es =
      s.fitExchanges budget es := by
  induction es with
  | nil => rfl
  | cons e rest ih => rw [fitExchanges, fitExchanges, ih]

theorem fitSignatures_with (ss ss' : List (List Char)) :
    ({ s with signatures := ss' } : Sections).fitSignatures budget ss =
      s.fitSignatures budget ss := by
  induction ss with
  | nil => rfl
  | cons last before ih => rw [fitSignatures, fitSignatures, ih]

theorem fitNearby_with (n : Nat) (ls ls' : List NumberedLine) :
    ({ s with nearby := ls' } : Sections).fitNearby budget n ls = s.fitNearby budget n ls := by
  induction n generalizing ls with
  | zero => rfl
  | succ n ih => rw [fitNearby, fitNearby, ih]

/-- There is one farthest line. -/
theorem farthest_unique {above above' below below' : List NumberedLine} {l l' : NumberedLine}
    (hsplit : above ++ l :: below = above' ++ l' :: below')
    (h : ∀ k ∈ above ++ below, Nearer middle k.1 l.1)
    (h' : ∀ k ∈ above' ++ below', Nearer middle k.1 l'.1) :
    above ++ below = above' ++ below' := by
  -- if one of the lines stands above the other, each is nearer than the other
  rcases append_eq_append_iff.1 hsplit with ⟨_ | ⟨x, between⟩, rfl, heq⟩ |
    ⟨_ | ⟨x, between⟩, rfl, heq⟩
  · cases heq
    rw [append_nil]
  · cases heq
    have hnear := h' l (by simp)
    exact absurd (h l' (by simp)) hnear.asymm
  · cases heq
    rw [append_nil]
  · cases heq
    have hnear := h l' (by simp)
    exact absurd (h' l (by simp)) hnear.asymm

theorem not_fits (h : budget < s.length) : ¬ s.fits budget = true :=
  fun hfits => Nat.not_le.2 h (fits_iff.1 hfits)

/-- Fitting what is too long goes on from what a drop leaves. -/
theorem fit_of_drop (hs : Numbered s.nearby) (hlong : budget < s.length) (h : Drop s t) :
    s.fit budget = t.fit budget := by
  obtain ⟨header, body, nearby, nearbyPath, cursorLine, signatures, exchanges⟩ := s
  cases h with
  | exchange h =>
    obtain rfl := h
    simp only [fit, fitExchanges, if_neg (not_fits hlong)]
    rw [← fitExchanges_with]
  | @signature before last hexchanges h =>
    obtain rfl := hexchanges
    obtain rfl := h
    have hlast : (before ++ [last]).reverse = last :: before.reverse := reverse_concat ..
    have hback : (last :: before.reverse).reverse = before ++ [last] := by
      rw [← hlast, reverse_reverse]
    simp only [fit, fitExchanges, hlast, fitSignatures, hback, if_neg (not_fits hlong)]
    rw [← fitSignatures_with]
  | @line above below l hexchanges hsignatures h hfarthest =>
    obtain rfl := hexchanges
    obtain rfl := hsignatures
    obtain rfl := h
    obtain ⟨above', l', below', hsplit, herase, hfarthest'⟩ :=
      eraseIdx_farthest cursorLine hs (by simp)
    rw [← farthest_unique hsplit hfarthest hfarthest'] at herase
    have hlength : (above ++ l :: below).length = (above ++ below).length + 1 := by
      simp only [List.length_append, length_cons]
      omega
    simp only [fit, fitExchanges, fitSignatures, reverse_nil, hlength, fitNearby,
      if_neg (not_fits hlong), herase]
    rw [← fitNearby_with]

/-! ## 3. Runs -/

/-- A drop from sections that are too long. -/
def Shortens (budget : Nat) (s t : Sections) : Prop :=
  budget < s.length ∧ Drop s t

/-- Sections are made to fit by drops from too long ones, until they fit or there is nothing more to
drop. -/
theorem fit_run {s : Sections} (budget : Nat) (hs : Numbered s.nearby) :
    Relation.ReflTransGen (Shortens budget) s (s.fit budget) ∧
      ((s.fit budget).length ≤ budget ∨ (s.fit budget).Bare) := by
  by_cases hfits : s.length ≤ budget
  · rw [fit_of_fits hfits]
    exact ⟨.refl, .inl hfits⟩
  by_cases hbare : s.Bare
  · rw [fit_of_bare hbare]
    exact ⟨.refl, .inr hbare⟩
  obtain ⟨t, hdrop⟩ := exists_drop hs hbare
  have hlong := Nat.lt_of_not_le hfits
  obtain ⟨hrun, hend⟩ := fit_run budget (hdrop.numbered hs)
  rw [fit_of_drop hs hlong hdrop]
  exact ⟨.head ⟨hlong, hdrop⟩ hrun, hend⟩
termination_by s.items
decreasing_by exact hdrop.items_lt

/-- What sections keep of the full ones while items go. -/
structure Shortened (full s : Sections) : Prop where
  header : s.header = full.header
  body : s.body = full.body
  cursorLine : s.cursorLine = full.cursorLine
  exchanges : s.exchanges <:+ full.exchanges
  signatures : s.signatures <+: full.signatures
  nearby : s.nearby.Sublist full.nearby
  nearest : ∀ l ∈ s.nearby, ∀ d ∈ full.nearby, d ∉ s.nearby →
    Nearer (max full.cursorLine 1) l.1 d.1
  signatures_after : s.signatures ≠ full.signatures → s.exchanges = []
  nearby_after : s.nearby ≠ full.nearby → s.exchanges = [] ∧ s.signatures = []

theorem Shortened.refl (s : Sections) : Shortened s s :=
  ⟨rfl, rfl, rfl, suffix_refl _, prefix_refl _, Sublist.refl _,
    fun _ _ _ hd hnot => absurd hd hnot, fun h => absurd rfl h, fun h => absurd rfl h⟩

/-- Sections that were shortened in order are so after one more drop. -/
theorem Shortened.drop {full : Sections} (h : Shortened full s) (hdrop : Drop s t) :
    Shortened full t := by
  cases hdrop with
  | exchange hsplit =>
    have hsome : s.exchanges ≠ [] := by simp [hsplit]
    refine ⟨h.header, h.body, h.cursorLine, ?_, h.signatures, h.nearby, h.nearest,
      fun hother => absurd (h.signatures_after hother) hsome,
      fun hother => absurd (h.nearby_after hother).1 hsome⟩
    have hsuffix := h.exchanges
    rw [hsplit] at hsuffix
    exact (suffix_cons _ _).trans hsuffix
  | signature hexchanges hsplit =>
    have hsome : s.signatures ≠ [] := by simp [hsplit]
    refine ⟨h.header, h.body, h.cursorLine, h.exchanges, ?_, h.nearby, h.nearest,
      fun _ => hexchanges, fun hother => absurd (h.nearby_after hother).2 hsome⟩
    have hprefix := h.signatures
    rw [hsplit] at hprefix
    exact (prefix_append _ _).trans hprefix
  | @line above below l hexchanges hsignatures hsplit hfarthest =>
    have hsub : (above ++ below).Sublist s.nearby := by
      rw [hsplit]
      exact Sublist.append_left (sublist_cons_self _ _) _
    refine ⟨h.header, h.body, h.cursorLine, h.exchanges, h.signatures, hsub.trans h.nearby, ?_,
      fun _ => hexchanges, fun _ => ⟨hexchanges, hsignatures⟩⟩
    intro k hk d hd hgone
    by_cases hold : d ∈ s.nearby
    · -- it went just now
      have hlast : d = l := by
        rw [hsplit] at hold
        simp only [mem_append, mem_cons, not_or] at hold hgone
        tauto
      rw [hlast, ← h.cursorLine]
      exact hfarthest k hk
    · exact h.nearest k (hsub.subset hk) d hd hold

theorem Shortened.of_run (h : Relation.ReflTransGen (Shortens budget) s t) : Shortened s t := by
  induction h with
  | refl => exact Shortened.refl s
  | tail _ hstep ih => exact ih.drop hstep.2

/-- Making sections fit into less after they were made to fit is making them fit into less. -/
theorem fit_fit (hs : Numbered s.nearby) (hmore : budget ≤ more) :
    (s.fit more).fit budget = s.fit budget := by
  have hrun : ∀ t, Relation.ReflTransGen (Shortens more) s t →
      Numbered t.nearby ∧ t.fit budget = s.fit budget := by
    intro t ht
    induction ht with
    | refl => exact ⟨hs, rfl⟩
    | tail _ hstep ih =>
      obtain ⟨hlong, hdrop⟩ := hstep
      obtain ⟨hnumbered, hsame⟩ := ih
      refine ⟨hdrop.numbered hnumbered, ?_⟩
      rw [← fit_of_drop hnumbered (Nat.lt_of_le_of_lt hmore hlong) hdrop, hsame]
  exact (hrun _ (fit_run more hs).1).2

/-- Sections that are made to fit into less keep a part of what they keep with more. -/
theorem shortened_fit_fit (hs : Numbered s.nearby) (hmore : budget ≤ more) :
    Shortened (s.fit more) (s.fit budget) := by
  have hsub := (Shortened.of_run (fit_run more hs).1).nearby
  have hrun := (fit_run budget (hs.sublist hsub)).1
  rw [fit_fit hs hmore] at hrun
  exact Shortened.of_run hrun

theorem renderWithin_of_fits (h : s.length ≤ budget) : s.renderWithin budget = s.render := by
  rw [renderWithin, Nat.sub_eq_zero_of_le h]
  rfl

end Sections

/-! ## 4. The main statement -/

theorem numbered_numberedLines (content : String) : Sections.Numbered (numberedLines content) := by
  refine ⟨pairwise_iff_getElem.2 fun i j hi hj hij => ?_, fun l => pos_of_mem_numberedLines⟩
  simp only [numberedLines, getElem_map, getElem_zipIdx]
  omega

theorem window_numbered {config : Config} {cursor : Cursor} {view : View}
    {nearby : List NumberedLine} (h : window config cursor view = .ok nearby) :
    Sections.Numbered nearby := by
  cases hfile : view.openFile with
  | none =>
    rw [window_of_closed hfile] at h
    cases h
    exact ⟨.nil, forall_mem_nil _⟩
  | some file =>
    rw [window_eq config cursor hfile] at h
    split at h
    · cases h
      exact (numbered_numberedLines file.content).sublist filter_sublist
    · cases h

theorem promptOf_user (config : Config) (request : Request) (view : View)
    (nearby : List NumberedLine) :
    (promptOf config request view nearby).user.toList =
      ((sections config request view nearby).fit (budget config request.action)).renderWithin
        (budget config request.action) :=
  toList_ofList

/-- A prompt is built unless the sum that ends its window overflows. It keeps the newest exchanges,
the first signatures and the nearest lines. A signature goes only when no exchange is left, a line
only when no signature is left, and the text is cut only when nothing optional is left. With the
item that went last the text would be too long, and with a larger budget no section keeps less. -/
theorem build_drops_in_order (config : Config) (request : Request) (view : View) :
    (build config request view = .error .overflow ↔ Overflows config request view) ∧
    ∀ nearby, window config (cursorOf request view) view = .ok nearby →
      let full := sections config request view nearby
      let left := budget config request.action
      let kept := full.fit left
      ∃ prompt, build config request view = .ok prompt ∧
      kept.exchanges <:+ full.exchanges ∧
      kept.signatures <+: full.signatures ∧
      kept.nearby.Sublist full.nearby ∧
      (∀ l ∈ kept.nearby, ∀ d ∈ full.nearby, d ∉ kept.nearby →
        Nearer (max (cursorOf request view).line.toNat 1) l.1 d.1) ∧
      (kept.signatures ≠ full.signatures → kept.exchanges = []) ∧
      (kept.nearby ≠ full.nearby → kept.exchanges = [] ∧ kept.signatures = []) ∧
      (prompt.user.toList ≠ kept.render → kept.Bare) ∧
      (kept = full ∨ ∃ before, Relation.ReflTransGen (Sections.Shortens left) full before ∧
        Sections.Drop before kept ∧ left < before.render.length) ∧
      ∀ budgetChars, config.budgetChars ≤ budgetChars →
        let ampler : Config := { config with budgetChars }
        let more := (sections ampler request view nearby).fit (budget ampler request.action)
        window ampler (cursorOf request view) view = .ok nearby ∧
        kept.exchanges <:+ more.exchanges ∧ kept.signatures <+: more.signatures ∧
          kept.nearby.Sublist more.nearby := by
  refine ⟨build_eq_error_iff, fun nearby hwindow => ?_⟩
  intro full left kept
  have hnumbered : Sections.Numbered full.nearby := window_numbered hwindow
  obtain ⟨hrun, hend⟩ := Sections.fit_run left hnumbered
  have hshort := Sections.Shortened.of_run hrun
  refine ⟨_, build_eq_ok_iff.2 ⟨nearby, hwindow, rfl⟩, hshort.exchanges, hshort.signatures,
    hshort.nearby, hshort.nearest, hshort.signatures_after, hshort.nearby_after, fun hcut => ?_, ?_,
    fun budgetChars hle => ?_⟩
  · rcases hend with hfits | hbare
    · have huser := promptOf_user config request view nearby
      exact absurd (huser.trans (Sections.renderWithin_of_fits hfits)) hcut
    · exact hbare
  · rcases Relation.ReflTransGen.cases_tail hrun with hsame | ⟨before, hbefore, hlong, hdrop⟩
    · exact .inl hsame
    · exact .inr ⟨before, hbefore, hdrop, Sections.length_eq before ▸ hlong⟩
  · intro ampler more
    have hmore : left ≤ budget ampler request.action := Nat.sub_le_sub_right hle _
    have hpart := Sections.shortened_fit_fit hnumbered hmore
    exact ⟨hwindow, hpart.exchanges, hpart.signatures, hpart.nearby⟩

theorem length_append_eq {s t : String} {m n : Nat} (hs : s.length = m) (ht : t.length = n) :
    (s ++ t).length = m + n := by
  rw [String.length_append, hs, ht]

theorem length_instructions_completion :
    (instructions .completion "C").length = 10 + 1 + 50 + 82 + 47 + 80 + 37 := by
  unfold instructions
  refine length_append_eq (length_append_eq (length_append_eq (length_append_eq (length_append_eq
    (length_append_eq ?_ ?_) ?_) ?_) ?_) ?_) ?_
  all_goals exact length_ofList

/-- A file of five lines, with an exchange and a signature beside it. -/
def fiveLines : View :=
  { (default : View) with
    openFile := some ⟨"a.c", "1\n2\n3\n4\n5", default⟩
    recentExchanges := [default]
    index := Table.empty.put "a.c" ⟨[default], [], []⟩ }

/-- Its lines. -/
def allFive : List NumberedLine :=
  [(1, ['1']), (2, ['2']), (3, ['3']), (4, ['4']), (5, ['5'])]

/-- Two of the five lines fit: the cursor line and, of its two neighbours, the one below. -/
theorem build_drops_in_order_five :
    let config : Config := ⟨"C", 2, 459⟩
    let request : Request := .completion ⟨3, 1⟩ ""
    let full := sections config request fiveLines allFive
    let kept := full.fit (budget config .completion)
    (∃ prompt, build config request fiveLines = .ok prompt) ∧
      kept.nearby.map (·.1) = [3, 4] ∧ kept.exchanges = [] ∧ kept.signatures = [] ∧
      (∀ l ∈ kept.nearby, ∀ d ∈ full.nearby, d ∉ kept.nearby → Nearer 3 l.1 d.1) ∧
      kept.nearby.Sublist ((sections ⟨"C", 2, 462⟩ request fiveLines allFive).fit
        (budget ⟨"C", 2, 462⟩ .completion)).nearby := by
  intro config request full kept
  have hwindow : window config ⟨3, 1⟩ fiveLines = .ok allFive := by rfl
  have hbudget : budget config .completion = 152 := by
    change (459 : UInt64).toNat - (instructions .completion "C").length = 152
    rw [length_instructions_completion]
    rfl
  have hlines : (full.fit 152).nearby.map (·.1) = [3, 4] := by decide +kernel
  rw [← hbudget] at hlines
  obtain ⟨prompt, hbuild, -, -, -, hnearest, -, hafter, -, -, hmore⟩ :=
    (build_drops_in_order config request fiveLines).2 allFive hwindow
  have hdropped : kept.nearby ≠ full.nearby := by
    intro hsame
    rw [hsame] at hlines
    cases hlines
  exact ⟨⟨prompt, hbuild⟩, hlines, (hafter hdropped).1, (hafter hdropped).2, hnearest,
    (hmore 462 (by decide)).2.2.2⟩

end CodeAssist.Prompt
