import CodeAssist.Proofs.Text.Bytes

/-!
Reading bytes as text.

The bytes of a character are read as that character, and a beginning of them as one replacement
(`decodeLossy_take`). Other bytes are read in runs of at most three, one replacement for each. A
replacement has three bytes, so what is read may be longer than the bytes were (`Reads.length`).
-/

namespace CodeAssist.Text

open List String

variable {more : List UInt8} {a b : UInt8}

/-! ## 1. Bytes of a character -/

theorem lengthOf?_eq_some_iff (a : UInt8) (n : Nat) : lengthOf? a = some n ↔
    n = 1 ∧ a.toNat < 0x80 ∨ n = 2 ∧ 0xc2 ≤ a.toNat ∧ a.toNat ≤ 0xdf ∨
      n = 3 ∧ 0xe0 ≤ a.toNat ∧ a.toNat ≤ 0xef ∨ n = 4 ∧ 0xf0 ≤ a.toNat ∧ a.toNat ≤ 0xf4 := by
  simp only [lengthOf?, Bool.and_eq_true, decide_eq_true_eq, UInt8.lt_iff_toNat_lt,
    UInt8.le_iff_toNat_le, UInt8.reduceToNat]
  grind

theorem isContinuation_iff (b : UInt8) :
    isContinuation b = true ↔ 0x80 ≤ b.toNat ∧ b.toNat ≤ 0xbf := by
  simp [isContinuation, UInt8.le_iff_toNat_le]

theorem isSecond_iff (a b : UInt8) : isSecond a b = true ↔
    0x80 ≤ b.toNat ∧ b.toNat ≤ 0xbf ∧ (a.toNat = 0xe0 → 0xa0 ≤ b.toNat) ∧
      (a.toNat = 0xed → b.toNat ≤ 0x9f) ∧ (a.toNat = 0xf0 → 0x90 ≤ b.toNat) ∧
      (a.toNat = 0xf4 → b.toNat ≤ 0x8f) := by
  simp only [isSecond, isContinuation, beq_iff_eq, ← UInt8.toNat_inj, UInt8.le_iff_toNat_le,
    UInt8.reduceToNat]
  grind

theorem toNat_val_ofNat {n : Nat} (h : n.isValidChar) : (Char.ofNat n).val.toNat = n := by
  rw [Char.ofNat, dif_pos h]
  rfl

theorem encode_one (ha : lengthOf? a = some 1) :
    utf8EncodeChar (Char.ofNat a.toNat) = [a] := by
  simp [lengthOf?_eq_some_iff] at ha
  rw [utf8EncodeChar, toNat_val_ofNat (by left; omega), if_pos (by omega), UInt8.ofNat_toNat]

theorem encode_two (ha : lengthOf? a = some 2) (hb : isSecond a b = true) :
    utf8EncodeChar (Char.ofNat (payload 5 a * 0x40 + payload 6 b)) = [a, b] := by
  simp [lengthOf?_eq_some_iff] at ha
  obtain ⟨hlow, hhigh, -⟩ := (isSecond_iff a b).1 hb
  generalize hv : payload 5 a * 0x40 + payload 6 b = v
  change a.toNat % 32 * 64 + b.toNat % 64 = v at hv
  have h₁ : v / 64 % 32 + 192 = a.toNat := by omega
  have h₂ : v % 64 + 128 = b.toNat := by omega
  rw [utf8EncodeChar, toNat_val_ofNat (by left; omega), if_neg (by omega), if_pos (by omega), h₁,
    h₂]
  simp only [UInt8.ofNat_toNat]

theorem encode_three {c : UInt8} (ha : lengthOf? a = some 3) (hb : isSecond a b = true)
    (hc : isContinuation c = true) :
    utf8EncodeChar
      (Char.ofNat (payload 4 a * 0x1000 + payload 6 b * 0x40 + payload 6 c)) = [a, b, c] := by
  simp [lengthOf?_eq_some_iff] at ha
  obtain ⟨hlow, hhigh, he0, hed, -⟩ := (isSecond_iff a b).1 hb
  rw [isContinuation_iff] at hc
  generalize hv : payload 4 a * 0x1000 + payload 6 b * 0x40 + payload 6 c = v
  change a.toNat % 16 * 4096 + b.toNat % 64 * 64 + c.toNat % 64 = v at hv
  have h₁ : v / 4096 % 16 + 224 = a.toNat := by omega
  have h₂ : v / 64 % 64 + 128 = b.toNat := by omega
  have h₃ : v % 64 + 128 = c.toNat := by omega
  rw [utf8EncodeChar, toNat_val_ofNat (by simp only [Nat.isValidChar]; omega),
    if_neg (by omega), if_neg (by omega), if_pos (by omega), h₁, h₂, h₃]
  simp only [UInt8.ofNat_toNat]

theorem encode_four {c d : UInt8} (ha : lengthOf? a = some 4) (hb : isSecond a b = true)
    (hc : isContinuation c = true) (hd : isContinuation d = true) :
    utf8EncodeChar (Char.ofNat (payload 3 a * 0x40000 + payload 6 b * 0x1000 +
      payload 6 c * 0x40 + payload 6 d)) = [a, b, c, d] := by
  simp [lengthOf?_eq_some_iff] at ha
  obtain ⟨hlow, hhigh, -, -, hf0, hf4⟩ := (isSecond_iff a b).1 hb
  rw [isContinuation_iff] at hc hd
  generalize hv :
    payload 3 a * 0x40000 + payload 6 b * 0x1000 + payload 6 c * 0x40 + payload 6 d = v
  change a.toNat % 8 * 262144 + b.toNat % 64 * 4096 + c.toNat % 64 * 64 + d.toNat % 64 = v at hv
  have h₁ : v / 262144 % 8 + 240 = a.toNat := by omega
  have h₂ : v / 4096 % 64 + 128 = b.toNat := by omega
  have h₃ : v / 64 % 64 + 128 = c.toNat := by omega
  have h₄ : v % 64 + 128 = d.toNat := by omega
  rw [utf8EncodeChar, toNat_val_ofNat (by simp only [Nat.isValidChar]; omega),
    if_neg (by omega), if_neg (by omega), if_neg (by omega), h₁, h₂, h₃, h₄]
  simp only [UInt8.ofNat_toNat]

/-- Bytes that may follow a first byte. -/
def Follow (a : UInt8) (more : List UInt8) : Prop :=
  (∀ b, more.head? = some b → isSecond a b = true) ∧ ∀ b ∈ more.tail, isContinuation b = true

theorem follow_encoded {c : Char} (h : utf8EncodeChar c = a :: more) :
    lengthOf? a = some (more.length + 1) ∧ Follow a more := by
  have hvalid : c.val.toNat < 0xd800 ∨ 0xdfff < c.val.toNat ∧ c.val.toNat < 0x110000 := c.valid
  have hfits (n : Nat) : (UInt8.ofNat n).toNat = n % 256 := UInt8.toNat_ofNat'
  unfold utf8EncodeChar at h
  generalize c.val.toNat = v at h hvalid
  dsimp only at h
  -- one case for each number of bytes
  repeat' split at h
  all_goals
    obtain ⟨rfl, rfl⟩ := cons.inj h
    simp [lengthOf?_eq_some_iff, Follow, isSecond_iff, isContinuation_iff, hfits]
    omega

theorem firstChar_whole (ha : lengthOf? a = some (more.length + 1)) (h : Follow a more)
    (rest : List UInt8) :
    ∃ c, utf8EncodeChar c = a :: more ∧ firstChar a (more ++ rest) = (c, more.length) := by
  obtain ⟨hsecond, hall⟩ := h
  have hlength : more.length + 1 ≤ 4 := by
    have := (lengthOf?_eq_some_iff _ _).1 ha
    omega
  rcases more with _ | ⟨b, _ | ⟨c, _ | ⟨d, _ | _⟩⟩⟩
  · exact ⟨_, encode_one ha, by simp [firstChar, ha]⟩
  · exact ⟨_, encode_two ha (hsecond b rfl), by simp [firstChar, ha, hsecond b rfl]⟩
  · have hc := hall c (by simp)
    exact ⟨_, encode_three ha (hsecond b rfl) hc, by simp [firstChar, ha, hsecond b rfl, hc]⟩
  · have hc := hall c (by simp)
    have hd := hall d (by simp)
    exact ⟨_, encode_four ha (hsecond b rfl) hc hd, by simp [firstChar, ha, hsecond b rfl, hc, hd]⟩
  · simp only [length_cons] at hlength
    omega

theorem firstChar_part {n : Nat} (ha : lengthOf? a = some n) (hn : more.length + 1 < n)
    (h : Follow a more) :
    firstChar a more = (replacement, more.length) := by
  obtain ⟨hsecond, hall⟩ := h
  have hlength := (lengthOf?_eq_some_iff _ _).1 ha
  rcases more with _ | ⟨b, _ | ⟨c, _ | _⟩⟩
  · grind [firstChar]
  · grind [firstChar]
  · grind [firstChar]
  · simp at hn
    omega

theorem firstChar_cases (a : UInt8) (rest : List UInt8) :
    (∃ more back, rest = more ++ back ∧ lengthOf? a = some (more.length + 1) ∧ Follow a more) ∨
    (firstChar a rest).1 = replacement ∧ (firstChar a rest).2 ≤ 2 ∧
      (firstChar a rest).2 ≤ rest.length := by
  fun_cases firstChar a rest with
  | case2 => exact .inl ⟨[], rest, rfl, ‹_›, by simp [Follow]⟩
  | case5 n _ h b back hb hn => exact .inl ⟨[b], back, rfl, by simp_all, by simp_all [Follow]⟩
  | case8 n _ h b hb _ c back hc hn =>
    exact .inl ⟨[b, c], back, rfl, by simp_all, by simp_all [Follow]⟩
  | case11 n hone h b hb htwo c hc hthree d back hd =>
    have hn := (lengthOf?_eq_some_iff a n).1 h
    obtain rfl : n = 4 := by
      simp only [beq_iff_eq] at htwo hthree
      have : n ≠ 1 := hone
      omega
    exact .inl ⟨[b, c, d], back, rfl, h, by simp_all [Follow]⟩
  | case1 | case3 | case4 | case6 | case7 | case9 | case10 => exact .inr (by simp)

theorem eq_of_encoded {c d : Char} {xs ys : List UInt8}
    (h : utf8EncodeChar c ++ xs = utf8EncodeChar d ++ ys) : c = d := by
  refine Char.le_antisymm (Char.not_lt.1 fun hlt => ?_) (Char.not_lt.1 fun hlt => ?_)
  · exact absurd (h ▸ utf8EncodeChar_lt hlt ys xs) (List.lt_irrefl _)
  · exact absurd (h ▸ utf8EncodeChar_lt hlt xs ys) (List.lt_irrefl _)

/-! ## 2. Texts -/

theorem decodeFrom_eq (skip : Nat) (bytes : List UInt8) :
    decodeFrom skip bytes = decodeLossy (bytes.drop skip) := by
  induction bytes generalizing skip with
  | nil => cases skip <;> rfl
  | cons b bytes ih =>
    cases skip with
    | zero => rfl
    | succ skip => exact ih skip

theorem decodeLossy_cons (a : UInt8) (rest : List UInt8) :
    decodeLossy (a :: rest) =
      (firstChar a rest).1 :: decodeLossy (rest.drop (firstChar a rest).2) := by
  rw [← decodeFrom_eq]
  rfl

theorem decodeLossy_encoded (c : Char) (rest : List UInt8) :
    decodeLossy (utf8EncodeChar c ++ rest) = c :: decodeLossy rest := by
  obtain ⟨a, more, hbytes⟩ := exists_cons_of_ne_nil (@utf8EncodeChar_ne_nil c)
  obtain ⟨ha, hmore⟩ := follow_encoded hbytes
  obtain ⟨d, hd, hfirst⟩ := firstChar_whole ha hmore rest
  obtain rfl : c = d := eq_of_encoded (congrArg (· ++ []) (hbytes.trans hd.symm))
  rw [hbytes, cons_append, decodeLossy_cons, hfirst, drop_left]

theorem decodeLossy_part {c : Char} {cut : Nat} (hpos : 0 < cut) (hcut : cut < c.utf8Size) :
    decodeLossy ((utf8EncodeChar c).take cut) = [replacement] := by
  obtain ⟨a, more, hbytes⟩ := exists_cons_of_ne_nil (@utf8EncodeChar_ne_nil c)
  obtain ⟨ha, hsecond, hall⟩ := follow_encoded hbytes
  rw [← length_utf8EncodeChar, hbytes, length_cons] at hcut
  obtain ⟨cut, rfl⟩ := Nat.exists_eq_add_one.2 hpos
  have hpart : Follow a (more.take cut) := by
    cases cut <;> cases more <;> simp_all [Follow]
    exact fun b hb => hall b (mem_of_mem_take hb)
  rw [hbytes, take_succ_cons, decodeLossy_cons, firstChar_part ha (by simp; omega) hpart,
    drop_length]
  rfl

/-- What is read of the first bytes of a text: all of it, or the characters before some place and,
if a character is cut there, a replacement. -/
theorem decodeLossy_take (text : List Char) (n : Nat) :
    (text.flatMap utf8EncodeChar).length ≤ n ∧
      decodeLossy ((text.flatMap utf8EncodeChar).take n) = text ∨
    ∃ front c back cut, text = front ++ c :: back ∧
      n = (front.flatMap utf8EncodeChar).length + cut ∧ cut < c.utf8Size ∧
      decodeLossy ((text.flatMap utf8EncodeChar).take n) =
        front ++ if cut = 0 then [] else [replacement] := by
  induction text generalizing n with
  | nil => exact .inl ⟨Nat.zero_le n, by simp [decodeLossy, decodeFrom]⟩
  | cons c text ih =>
    rw [flatMap_cons]
    have hsize := length_utf8EncodeChar c
    by_cases hn : n < c.utf8Size
    · refine .inr ⟨[], c, text, n, rfl, (Nat.zero_add n).symm, hn, ?_⟩
      rw [take_append_of_le_length (by omega), nil_append]
      split
      · rename_i hzero
        rw [hzero]
        rfl
      · exact decodeLossy_part (by omega) hn
    · obtain ⟨n, rfl⟩ := Nat.exists_eq_add_of_le (Nat.le_of_not_lt hn)
      rw [← hsize, take_length_add_append, decodeLossy_encoded, List.length_append]
      rcases ih n with ⟨hle, htext⟩ | ⟨front, d, back, cut, rfl, rfl, hcut, htext⟩
      · exact .inl ⟨Nat.add_le_add_left hle _, by rw [htext]⟩
      · refine .inr ⟨c :: front, d, back, cut, rfl, ?_, hcut, by rw [htext]; rfl⟩
        rw [flatMap_cons, List.length_append, Nat.add_assoc]

/-! ## 3. Bytes of all kinds -/

/-- How bytes are read: characters from their bytes, and runs of bytes where no character begins
as replacements. `lack` is by how much these are longer than the runs. -/
inductive Reads : List UInt8 → List Char → Nat → Prop where
  | done : Reads [] [] 0
  | whole {rest : List UInt8} {text : List Char} {lack : Nat} (c : Char) : Reads rest text lack →
      Reads (utf8EncodeChar c ++ rest) (c :: text) lack
  | broken {run rest : List UInt8} {text : List Char} {lack : Nat} :
      run ≠ [] → run.length ≤ 3 → (∀ c, ¬ utf8EncodeChar c <+: run ++ rest) →
      Reads rest text lack → Reads (run ++ rest) (replacement :: text) (3 - run.length + lack)

theorem Reads.length {bytes : List UInt8} {text : List Char} {lack : Nat}
    (h : Reads bytes text lack) :
    (text.flatMap utf8EncodeChar).length = bytes.length + lack := by
  induction h with
  | done => rfl
  | whole c _ ih => simp [ih, Nat.add_assoc]
  | broken _ hrun _ _ ih =>
    have hthree : (utf8EncodeChar replacement).length = 3 := by decide
    rw [flatMap_cons, List.length_append, hthree, ih, List.length_append]
    omega

/-- Decoding reads the bytes as it is specified. -/
theorem reads_decodeLossy (bytes : List UInt8) : ∃ lack, Reads bytes (decodeLossy bytes) lack := by
  induction hlength : bytes.length using Nat.strongRecOn generalizing bytes with
  | ind length ih =>
    cases bytes with
    | nil => exact ⟨0, .done⟩
    | cons a rest =>
      by_cases hwhole : ∃ more back, rest = more ++ back ∧
          lengthOf? a = some (more.length + 1) ∧ Follow a more
      · obtain ⟨more, back, rfl, ha, hmore⟩ := hwhole
        obtain ⟨c, hc, -⟩ := firstChar_whole ha hmore back
        rw [← cons_append, ← hc] at hlength ⊢
        rw [List.length_append] at hlength
        have hpos := c.utf8Size_pos
        obtain ⟨lack, hback⟩ := ih back.length (by simp at hlength; omega) back rfl
        exact ⟨lack, decodeLossy_encoded c back ▸ .whole c hback⟩
      · obtain ⟨hchar, hshort, hrun⟩ := (firstChar_cases a rest).resolve_left hwhole
        generalize hk : (firstChar a rest).2 = k at hshort hrun
        obtain ⟨lack, hback⟩ := ih (rest.drop k).length (by simp at hlength ⊢; omega) _ rfl
        have hrest : a :: rest.take k ++ rest.drop k = a :: rest := by simp
        have hnone : ∀ c, ¬ utf8EncodeChar c <+: a :: rest.take k ++ rest.drop k := by
          rw [hrest]
          rintro c ⟨back, hc⟩
          obtain ⟨b, more, hbytes⟩ := exists_cons_of_ne_nil (@utf8EncodeChar_ne_nil c)
          rw [hbytes] at hc
          obtain ⟨rfl, rfl⟩ := cons.inj hc
          exact hwhole ⟨more, back, rfl, follow_encoded hbytes⟩
        have hreads := Reads.broken (cons_ne_nil a _) (by simp; omega) hnone hback
        rw [hrest] at hreads
        exact ⟨_, by rw [decodeLossy_cons, hchar, hk]; exact hreads⟩

end CodeAssist.Text
