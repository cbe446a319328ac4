import CodeAssist.Reply.Fence

/-!
Which lines of a reply are code and which are prose.

The code of a reply is read block by block, its prose line by line; the two readers share no state.
What they have in common is a number: how many fences stand above a line. Where it is even the line
is prose or opens a block, and where it is odd the line is in a block or closes it
(`fences_divide_lines`).
-/

namespace CodeAssist.Reply

open Text List Option

variable {ls : List (List Char)} {i j : Nat}

/-! ## 1. Places -/

/-- The items at the places for which `p` holds, in order. -/
def itemsAt (p : Nat → Bool) : List α → List α
  | [] => []
  | a :: rest =>
    if p 0 then a :: itemsAt (fun i => p (i + 1)) rest else itemsAt (fun i => p (i + 1)) rest

def fenceAt (ls : List (List Char)) (i : Nat) : Bool :=
  ls[i]?.any isFence

def fencesAbove (ls : List (List Char)) (i : Nat) : Nat :=
  (ls.take i).countP isFence

/-- A fence opens a block if an even number of fences stands above it: the first one, the third and
so on. -/
def opensBlock (ls : List (List Char)) (i : Nat) : Bool :=
  fenceAt ls i && fencesAbove ls i % 2 == 0

/-- A line that is no fence, below the fence at `i` that opens a block and with no other fence
between the two. -/
def inBlock (ls : List (List Char)) (i j : Nat) : Bool :=
  opensBlock ls i && ls[j]?.any (!isFence ·) && fencesAbove ls j == fencesAbove ls i + 1

/-- A line that is no fence, with an even number of fences above it. -/
def inProse (ls : List (List Char)) (j : Nat) : Bool :=
  ls[j]?.any (!isFence ·) && fencesAbove ls j % 2 == 0

/-- Whether the line is a fence whose tag is the language, apart from the case of ASCII letters. -/
def hasTag (language : List Char) (ls : List (List Char)) (i : Nat) : Bool :=
  (ls[i]?.bind fenceTag?).any fun tag => (strip tag).map asciiLower == language.map asciiLower

/-- The fence whose block is the code: of those that open a block the first one with the tag, or
else the first one. -/
def Chosen (language : List Char) (ls : List (List Char)) (i : Nat) : Prop :=
  opensBlock ls i = true ∧
    ((hasTag language ls i = true ∧
        ∀ k < i, opensBlock ls k = true → hasTag language ls k = false) ∨
      ((∀ k, opensBlock ls k = true → hasTag language ls k = false) ∧
        ∀ k < i, opensBlock ls k = false))

@[simp] theorem fencesAbove_zero (ls : List (List Char)) : fencesAbove ls 0 = 0 := rfl

theorem fencesAbove_cons (line : List Char) (rest : List (List Char)) (i : Nat) :
    fencesAbove (line :: rest) (i + 1) = (if isFence line then 1 else 0) + fencesAbove rest i := by
  rw [fencesAbove, take_succ_cons, countP_cons, Nat.add_comm]
  rfl

theorem fencesAbove_succ (ls : List (List Char)) (i : Nat) :
    fencesAbove ls (i + 1) = fencesAbove ls i + if fenceAt ls i then 1 else 0 := by
  rw [fencesAbove, take_add_one, countP_append]
  cases h : ls[i]? with
  | none => simp [fencesAbove, fenceAt, h]
  | some line => cases hline : isFence line <;> simp [fencesAbove, fenceAt, h, hline]

/-! ## 2. Readers -/

theorem proseLines_eq (n : Nat) (ls : List (List Char)) :
    proseLines (n % 2 == 1) ls =
      itemsAt (fun j => ls[j]?.any (!isFence ·) && (n + fencesAbove ls j) % 2 == 0) ls := by
  induction ls generalizing n with
  | nil => rfl
  | cons line rest ih =>
    cases hline : isFence line with
    | true =>
      have hflip : (!(n % 2 == 1)) = ((n + 1) % 2 == 1) := by
        rcases Nat.mod_two_eq_zero_or_one n with h | h <;> simp [Nat.add_mod, h]
      simp [proseLines, itemsAt, hline, fencesAbove_cons, hflip, ih, ← Nat.add_assoc]
    | false =>
      rcases Nat.mod_two_eq_zero_or_one n with h | h <;>
        simpa [proseLines, itemsAt, hline, fencesAbove_cons, h] using ih n

def blockBelow (ls : List (List Char)) (i : Nat) : Block where
  tag := (strip ((ls[i]?.bind fenceTag?).getD [])).map asciiLower
  body := (ls.drop (i + 1)).takeWhile (!isFence ·)

/-- The places of the fences that open a block, in lines that come below `n` fences. -/
def openings (n : Nat) (ls : List (List Char)) : List Nat :=
  (range ls.length).filter fun i => fenceAt ls i && (n + fencesAbove ls i) % 2 == 0

theorem openings_cons (n : Nat) (line : List Char) (rest : List (List Char)) :
    openings n (line :: rest) =
      (if isFence line && n % 2 == 0 then [0] else []) ++
        (openings (n + if isFence line then 1 else 0) rest).map (· + 1) := by
  rw [openings, length_cons, range_succ_eq_map, filter_cons, List.filter_map]
  cases hline : isFence line <;>
    simp [openings, fenceAt, fencesAbove_cons, hline, Function.comp_def, ← Nat.add_assoc]
  split <;> rfl

/-- The reader of blocks is inside one exactly where the number of fences above is odd. -/
theorem blocks_places (n : Nat) (ls : List (List Char)) :
    (n % 2 = 0 → blocksOutside ls = (openings n ls).map (blockBelow ls)) ∧
    (n % 2 = 1 → ∀ tag body, blocksInside tag body ls =
      ⟨tag, body.reverse ++ ls.takeWhile (!isFence ·)⟩ :: (openings n ls).map (blockBelow ls)) := by
  induction ls generalizing n with
  | nil => exact ⟨fun _ => rfl, fun _ tag body => by simp [blocksInside, openings]⟩
  | cons line rest ih =>
    have hbelow : blockBelow (line :: rest) ∘ (· + 1) = blockBelow rest := rfl
    obtain ⟨hsame, hsame'⟩ := ih n
    obtain ⟨hnext, hnext'⟩ := ih (n + 1)
    refine ⟨fun hn => ?_, fun hn tag body => ?_⟩
    · cases htag : fenceTag? line with
      | none =>
        have hline : isFence line = false := by rw [isFence, htag]; rfl
        simp [blocksOutside, htag, openings_cons, hline, hsame hn, hbelow]
      | some tag =>
        have hline : isFence line = true := by rw [isFence, htag]; rfl
        simp [blocksOutside, htag, openings_cons, hline, hn, hnext' (by omega), hbelow, blockBelow]
    · cases hline : isFence line with
      | false => simp [blocksInside, openings_cons, hline, hsame' hn, hbelow]
      | true => simp [blocksInside, openings_cons, hline, hn, hnext (by omega), hbelow]

theorem itemsAt_eq_nil {p : Nat → Bool} (h : ∀ i, p i = false) (xs : List α) :
    itemsAt p xs = [] := by
  induction xs generalizing p with
  | nil => rfl
  | cons a rest ih => rw [itemsAt, h, if_neg (by decide), ih fun i => h (i + 1)]

theorem itemsAt_unfenced (ls : List (List Char)) :
    itemsAt (fun j => ls[j]?.any (!isFence ·) && fencesAbove ls j == 0) ls =
      ls.takeWhile (!isFence ·) := by
  induction ls with
  | nil => rfl
  | cons line rest ih =>
    cases hline : isFence line with
    | false => simpa [itemsAt, fencesAbove_cons, hline] using ih
    | true => simp [itemsAt, fencesAbove_cons, hline, itemsAt_eq_nil]

/-- The lines of a block are those from its fence to the next one. -/
theorem itemsAt_inBlock (h : fenceAt ls i = true) :
    itemsAt (fun j => ls[j]?.any (!isFence ·) && fencesAbove ls j == fencesAbove ls i + 1) ls =
      (ls.drop (i + 1)).takeWhile (!isFence ·) := by
  induction ls generalizing i with
  | nil => rfl
  | cons line rest ih =>
    cases i with
    | zero =>
      have hline : isFence line = true := h
      simpa [itemsAt, fencesAbove_cons, hline, Nat.add_comm 1] using itemsAt_unfenced rest
    | succ i =>
      have hcancel : ∀ a b c : Nat, (a + b == a + c) = (b == c) := fun a b c => by
        rw [Bool.eq_iff_iff, beq_iff_eq, beq_iff_eq, Nat.add_left_cancel_iff]
      simpa [itemsAt, fencesAbove_cons, Nat.add_assoc, hcancel] using ih (i := i) h

/-- The places of the first choice: the least one with both properties, or else the least one with
the first of them. -/
theorem find?_or_eq_some_iff {p q : Nat → Bool} {n : Nat} (hp : ∀ i, p i = true → i < n) (i : Nat) :
    ((range n).find? fun i => p i && q i).or ((range n).find? p) = some i ↔
      p i = true ∧ ((q i = true ∧ ∀ k < i, p k = true → q k = false) ∨
        ((∀ k, p k = true → q k = false) ∧ ∀ k < i, p k = false)) := by
  have hnone : (range n).find? (fun i => p i && q i) = none ↔
      ∀ k, p k = true → q k = false := by
    simp only [find?_eq_none, mem_range]
    refine forall_congr' fun k => ⟨fun h hk => ?_, fun h hk => ?_⟩
    · simpa [hk] using h (hp k hk)
    · cases hpk : p k <;> simp [hpk, h]
  rw [or_eq_some_iff, hnone, find?_range_eq_some, find?_range_eq_some]
  constructor
  · rintro (⟨hboth, -, hleast⟩ | ⟨hall, hi, -, hleast⟩)
    · obtain ⟨hpi, hqi⟩ := Bool.and_eq_true_iff.1 hboth
      refine ⟨hpi, .inl ⟨hqi, fun k hk hpk => ?_⟩⟩
      simpa [hpk] using hleast k hk
    · exact ⟨hi, .inr ⟨hall, fun k hk => by simpa using hleast k hk⟩⟩
  · rintro ⟨hpi, ⟨hqi, hleast⟩ | ⟨hall, hleast⟩⟩
    · refine .inl ⟨by rw [hpi, hqi]; rfl, mem_range.2 (hp i hpi), fun k hk => ?_⟩
      cases hpk : p k <;> simp [hpk, hleast k hk]
    · exact .inr ⟨hall, hpi, mem_range.2 (hp i hpi), fun k hk => by rw [hleast k hk]; rfl⟩

theorem opensBlock_lt (h : opensBlock ls i = true) :
    i < ls.length := by
  obtain ⟨line, hline, -⟩ := (any_eq_true _ _).1 (Bool.and_eq_true_iff.1 h).1
  exact (List.getElem?_eq_some_iff.1 hline).1

theorem hasTag_eq (h : opensBlock ls i = true) (language : List Char) :
    hasTag language ls i = ((blockBelow ls i).tag == language.map asciiLower) := by
  obtain ⟨line, hline, hfence⟩ := (any_eq_true _ _).1 (Bool.and_eq_true_iff.1 h).1
  obtain ⟨tag, htag⟩ := isSome_iff_exists.1 hfence
  simp [hasTag, blockBelow, hline, htag]

theorem openings_zero (ls : List (List Char)) :
    openings 0 ls = (range ls.length).filter (opensBlock ls) := by
  simp only [openings, Nat.zero_add]
  rfl

theorem chooseBlock_eq_some_iff (language : List Char) (ls : List (List Char)) (b : Block) :
    chooseBlock language (blocksOutside ls) = some b ↔
      ∃ i, Chosen language ls i ∧ blockBelow ls i = b := by
  have htagged : (fun i => opensBlock ls i && (blockBelow ls i).tag == language.map asciiLower) =
      fun i => opensBlock ls i && hasTag language ls i := by
    funext i
    cases h : opensBlock ls i with
    | false => rfl
    | true => rw [hasTag_eq h]
  rw [chooseBlock, (blocks_places 0 ls).1 rfl, openings_zero, find?_map, find?_filter,
    head?_map, head?_filter, ← map_or, map_eq_some_iff]
  simp only [Function.comp_apply, Bool.decide_and, Bool.decide_eq_true, htagged]
  exact exists_congr fun i => and_congr_left fun _ =>
    find?_or_eq_some_iff (fun _ => opensBlock_lt) i

/-! ## 3. Sides -/

theorem exists_fence {m : Nat} (h : m < fencesAbove ls j) :
    ∃ i < j, fenceAt ls i = true ∧ fencesAbove ls i = m := by
  induction j with
  | zero => exact absurd h (Nat.not_lt_zero m)
  | succ j ih =>
    by_cases hm : m < fencesAbove ls j
    · obtain ⟨i, hi, hfence⟩ := ih hm
      exact ⟨i, Nat.lt_succ_of_lt hi, hfence⟩
    · rw [fencesAbove_succ] at h
      cases hj : fenceAt ls j with
      | false => simp [hj, hm] at h
      | true =>
        rw [hj, if_pos rfl] at h
        exact ⟨j, Nat.lt_succ_self j, hj, by omega⟩

theorem fencesAbove_lt (h : fenceAt ls i = true) (hij : i < j) :
    fencesAbove ls i < fencesAbove ls j := by
  induction j with
  | zero => exact absurd hij (Nat.not_lt_zero i)
  | succ j ih =>
    rw [fencesAbove_succ]
    rcases Nat.lt_succ_iff_lt_or_eq.1 hij with hlt | rfl
    · exact Nat.lt_of_lt_of_le (ih hlt) (Nat.le_add_right _ _)
    · rw [h, if_pos rfl]
      exact Nat.lt_succ_self _

/-- A line of a block has an odd number of fences above it, so it is no prose. -/
theorem inProse_of_inBlock (h : inBlock ls i j = true) :
    inProse ls j = false := by
  simp only [inBlock, opensBlock, Bool.and_eq_true, beq_iff_eq] at h
  have hodd : fencesAbove ls j % 2 ≠ 0 := by omega
  simp [inProse, hodd]

theorem inBlock_unique {i' : Nat} (h : inBlock ls i j = true) (h' : inBlock ls i' j = true) :
    i' = i := by
  simp only [inBlock, opensBlock, Bool.and_eq_true, beq_iff_eq] at h h'
  rcases Nat.lt_trichotomy i i' with hlt | rfl | hlt
  · have := fencesAbove_lt h.1.1.1 hlt
    omega
  · rfl
  · have := fencesAbove_lt h'.1.1.1 hlt
    omega

theorem inProse_or_inBlock {line : List Char} (hline : ls[j]? = some line)
    (hfence : isFence line = false) :
    inProse ls j = true ∨ ∃ i, inBlock ls i j = true := by
  rcases Nat.mod_two_eq_zero_or_one (fencesAbove ls j) with heven | hodd
  · exact .inl (by simp [inProse, hline, hfence, heven])
  · -- the last fence above it opens the block
    obtain ⟨i, -, hi, hcount⟩ :=
      exists_fence (show fencesAbove ls j - 1 < fencesAbove ls j by omega)
    refine .inr ⟨i, ?_⟩
    have heven : fencesAbove ls i % 2 = 0 := by omega
    have hnext : fencesAbove ls j = fencesAbove ls i + 1 := by omega
    simp [inBlock, opensBlock, hi, hline, hfence, heven, hnext]

/-- A block is chosen as soon as there is a fence, since the first one opens a block. -/
theorem isSome_chooseBlock_iff (language : List Char) (ls : List (List Char)) :
    (chooseBlock language (blocksOutside ls)).isSome = true ↔ ∃ line ∈ ls, isFence line = true := by
  have hchoice : ∀ bs, (chooseBlock language bs).isSome = true ↔ bs ≠ [] := by
    intro bs
    cases bs <;> simp [chooseBlock]
  rw [hchoice, (blocks_places 0 ls).1 rfl, openings_zero, ne_eq, map_eq_nil_iff,
    filter_eq_nil_iff]
  constructor
  · intro h
    obtain ⟨i, -, hi⟩ : ∃ i, i ∈ range ls.length ∧ opensBlock ls i = true := by
      simpa using h
    obtain ⟨line, hline, hfence⟩ := (any_eq_true _ _).1 (Bool.and_eq_true_iff.1 hi).1
    exact ⟨line, mem_of_getElem? hline, hfence⟩
  · intro hfence hnone
    have hcount : 0 < fencesAbove ls ls.length := by
      rwa [fencesAbove, take_length, countP_pos_iff]
    obtain ⟨i, hi, hat, habove⟩ := exists_fence hcount
    exact hnone i (mem_range.2 hi) (by simp [opensBlock, hat, habove])

/-! ## 4. The main statement -/

/-- The prose of a reply is made of the lines with an even number of fences above them, and its code
of the lines from the chosen fence to the next one; there is code if and only if there is a fence.
No line is on both sides, and each line that is no fence is prose or belongs to exactly one block.
-/
theorem fences_divide_lines (text language : String) :
    (prose text).toList = strip (joinWith ['\n']
      (itemsAt (inProse (lines text.toList)) (lines text.toList))) ∧
    ((codeBlock text language).isSome = true ↔ ∃ line ∈ lines text.toList, isFence line = true) ∧
    (∀ code, codeBlock text language = some code ↔
      ∃ i, Chosen language.toList (lines text.toList) i ∧ code.toList = joinWith ['\n']
        (itemsAt (inBlock (lines text.toList) i) (lines text.toList))) ∧
    (∀ i j, ¬(inProse (lines text.toList) j = true ∧ inBlock (lines text.toList) i j = true)) ∧
    (∀ j line, (lines text.toList)[j]? = some line → isFence line = false →
      inProse (lines text.toList) j = true ∨
      ∃ i, inBlock (lines text.toList) i j = true ∧
        ∀ i', inBlock (lines text.toList) i' j = true → i' = i) := by
  generalize hls : lines text.toList = ls
  have hbody : ∀ i, Chosen language.toList ls i →
      itemsAt (inBlock ls i) ls = (blockBelow ls i).body := by
    intro i hi
    have hplaces : inBlock ls i = fun j => ls[j]?.any (!isFence ·) &&
        fencesAbove ls j == fencesAbove ls i + 1 := by
      funext j
      rw [inBlock, hi.1, Bool.true_and]
    rw [blockBelow, hplaces, itemsAt_inBlock (Bool.and_eq_true_iff.1 hi.1).1]
  have hcode : ∀ code, codeBlock text language = some code ↔
      ∃ i, Chosen language.toList ls i ∧
        code.toList = joinWith ['\n'] (itemsAt (inBlock ls i) ls) := by
    intro code
    rw [codeBlock, blocks, hls, Option.map_eq_some_iff]
    constructor
    · rintro ⟨b, hb, rfl⟩
      obtain ⟨i, hi, rfl⟩ := (chooseBlock_eq_some_iff _ _ _).1 hb
      exact ⟨i, hi, by rw [hbody i hi, String.toList_ofList]⟩
    · rintro ⟨i, hi, hjoin⟩
      refine ⟨_, (chooseBlock_eq_some_iff _ _ _).2 ⟨i, hi, rfl⟩, ?_⟩
      rw [← hbody i hi, ← hjoin, String.ofList_toList]
  refine ⟨?_, ?_, hcode, fun i j h => ?_, fun j line hline hfence => ?_⟩
  · have hprose := proseLines_eq 0 ls
    simp only [Nat.zero_add] at hprose
    rw [prose, String.toList_ofList, hls]
    exact congrArg _ (congrArg _ hprose)
  · rw [codeBlock, blocks, hls, Option.isSome_map, isSome_chooseBlock_iff]
  · exact absurd (inProse_of_inBlock h.2) (by rw [h.1]; decide)
  · refine (inProse_or_inBlock hline hfence).imp_right ?_
    rintro ⟨i, hi⟩
    exact ⟨i, hi, fun i' hi' => inBlock_unique hi hi'⟩

/-- Two fences that follow each other, an indented one, a tag in upper case, and a block that is not
closed. -/
def unclosedReply : String :=
  "Here:\n ```text\nnot code\n```\n```C \nint x;\n```\nand\n```\nend"

theorem fences_divide_lines_unclosed :
    codeBlock unclosedReply "c" = some "int x;" ∧ prose unclosedReply = "Here:\nand" ∧
    inProse (lines unclosedReply.toList) 7 = true ∧
    ∃ i, inBlock (lines unclosedReply.toList) i 9 = true ∧
      ∀ i', inBlock (lines unclosedReply.toList) i' 9 = true → i' = i := by
  obtain ⟨hprose, -, hcode, -, hsides⟩ := fences_divide_lines unclosedReply "c"
  have hlast : (lines unclosedReply.toList)[9]? = some "end".toList := by decide +kernel
  refine ⟨(hcode _).2 ⟨4, ⟨by decide +kernel, .inl ⟨by decide +kernel, by decide +kernel⟩⟩,
    by decide +kernel⟩, String.toList_injective (hprose.trans (by decide +kernel)),
    by decide +kernel, ?_⟩
  exact (hsides 9 _ hlast (by decide)).resolve_left (by decide +kernel)

end CodeAssist.Reply
