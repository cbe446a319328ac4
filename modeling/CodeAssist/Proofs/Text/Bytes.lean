import CodeAssist.Text.Bytes

/-!
The bytes of texts keep their order: texts compare by their bytes as they do by their characters
(`encode_lt_encode`).
-/

namespace CodeAssist.Text

open List String

/-! ## 1. Bytes of a text -/

theorem toList_loop (bs : ByteArray) (i : Nat) (done : List UInt8) :
    ByteArray.toList.loop bs i done = done.reverse ++ bs.data.toList.drop i := by
  fun_induction ByteArray.toList.loop bs i done with
  | case1 i done h ih =>
    have hlength : i < bs.data.toList.length := h
    have hget : bs.get! i = bs.data.toList.get ⟨i, hlength⟩ := by
      change bs.data[i]! = _
      rw [getElem!_pos bs.data i h]
      rfl
    rw [ih, hget, reverse_cons, List.append_assoc, singleton_append,
      drop_eq_getElem_cons hlength]
    rfl
  | case2 i done h =>
    rw [drop_of_length_le (Nat.not_lt.1 h), append_nil]

theorem encode_eq_data (s : String) : encode s = s.toByteArray.data.toList := by
  rw [encode, ByteArray.toList, toList_loop]
  rfl

theorem length_encode (s : String) : (encode s).length = s.utf8ByteSize := by
  rw [encode_eq_data]
  rfl

theorem encode_eq (s : String) : encode s = s.toList.flatMap utf8EncodeChar := by
  rw [encode_eq_data, ← utf8Encode_toList, utf8Encode, toList_data_toByteArray]

/-! ## 2. Order -/

theorem ofNat_lt {m n : Nat} (hm : m < 256) (hn : n < 256) :
    UInt8.ofNat m < UInt8.ofNat n ↔ m < n := by
  rw [UInt8.lt_iff_toNat_lt, UInt8.toNat_ofNat', UInt8.toNat_ofNat', Nat.mod_eq_of_lt hm,
    Nat.mod_eq_of_lt hn]

theorem ofNat_inj {m n : Nat} (hm : m < 256) (hn : n < 256) :
    UInt8.ofNat m = UInt8.ofNat n ↔ m = n := by
  rw [← UInt8.toNat_inj, UInt8.toNat_ofNat', UInt8.toNat_ofNat', Nat.mod_eq_of_lt hm,
    Nat.mod_eq_of_lt hn]

theorem append_lt_append {l m : List UInt8} (hlength : l.length = m.length) (h : l < m)
    (cs ds : List UInt8) : l ++ cs < m ++ ds := by
  induction l generalizing m with
  | nil =>
    cases m with
    | nil => exact absurd h (List.lt_irrefl _)
    | cons => cases hlength
  | cons a l ih =>
    cases m with
    | nil => cases hlength
    | cons b m =>
      rw [cons_append, cons_append, cons_lt_cons_iff]
      rcases cons_lt_cons_iff.1 h with hlt | ⟨heq, hrest⟩
      · exact .inl hlt
      · exact .inr ⟨heq, ih (Nat.succ.inj hlength) hrest⟩

theorem first_lt_first {m n : Nat} (hm : m < 256) (hn : n < 256) (h : m < n)
    (cs ds : List UInt8) : UInt8.ofNat m :: cs < UInt8.ofNat n :: ds :=
  cons_lt_cons_iff.2 (.inl ((ofNat_lt hm hn).2 h))

theorem digits_of (n : Nat) :
    n = 262144 * (n / 262144) + 4096 * (n / 4096 % 64) + 64 * (n / 64 % 64) + n % 64 := by
  have h₁ : n / 64 / 64 = n / 4096 := Nat.div_div_eq_div_mul ..
  have h₂ : n / 4096 / 64 = n / 262144 := Nat.div_div_eq_div_mul ..
  omega

/-- The smaller of two numbers has the smaller digit where they first differ, in base 64. -/
theorem digits_lt {v w : Nat} (h : v < w) :
    v / 262144 < w / 262144 ∨ v / 262144 = w / 262144 ∧
      (v / 4096 % 64 < w / 4096 % 64 ∨ v / 4096 % 64 = w / 4096 % 64 ∧
        (v / 64 % 64 < w / 64 % 64 ∨ v / 64 % 64 = w / 64 % 64 ∧ v % 64 < w % 64)) := by
  have hbounds (n : Nat) : n % 64 < 64 := Nat.mod_lt _ (by decide)
  have := digits_of v
  have := digits_of w
  have := hbounds v
  have := hbounds (v / 64)
  have := hbounds (v / 4096)
  have := hbounds w
  have := hbounds (w / 64)
  have := hbounds (w / 4096)
  generalize v / 262144 = a, v / 4096 % 64 = b, v / 64 % 64 = c, v % 64 = d at *
  generalize w / 262144 = a', w / 4096 % 64 = b', w / 64 % 64 = c', w % 64 = d' at *
  omega

/-- The bytes of a smaller character are smaller, whatever follows. -/
theorem utf8EncodeChar_lt {c d : Char} (h : c < d) (cs ds : List UInt8) :
    utf8EncodeChar c ++ cs < utf8EncodeChar d ++ ds := by
  have hlt : c.val.toNat < d.val.toNat := h
  have hd : d.val.toNat < 0x110000 := by
    rcases d.valid with hd | hd <;> omega
  unfold utf8EncodeChar
  dsimp only
  generalize c.val.toNat = v at *
  generalize d.val.toNat = w at *
  -- Characters of the same length differ in some digit, others already in their first byte.
  split
  · split
    · refine append_lt_append (by rfl) ?_ cs ds
      exact first_lt_first (by omega) (by omega) hlt _ _
    · split
      · exact first_lt_first (by omega) (by omega) (by omega) _ _
      · split <;> exact first_lt_first (by omega) (by omega) (by omega) _ _
  · split
    · split
      · omega
      · split
        · refine append_lt_append (by rfl) ?_ cs ds
          simp (disch := omega) only [cons_lt_cons_iff, ofNat_lt, ofNat_inj,
            List.lt_irrefl, and_false, or_false]
          omega
        · split <;> exact first_lt_first (by omega) (by omega) (by omega) _ _
    · split
      · split
        · omega
        · split
          · omega
          · split
            · refine append_lt_append (by rfl) ?_ cs ds
              simp (disch := omega) only [cons_lt_cons_iff, ofNat_lt, ofNat_inj,
                List.lt_irrefl, and_false, or_false]
              omega
            · exact first_lt_first (by omega) (by omega) (by omega) _ _
      · split
        · omega
        · split
          · omega
          · split
            · omega
            · refine append_lt_append (by rfl) ?_ cs ds
              simp (disch := omega) only [cons_lt_cons_iff, ofNat_lt, ofNat_inj,
                List.lt_irrefl, and_false, or_false]
              rw [Nat.mod_eq_of_lt (by omega : v / 262144 < 8),
                Nat.mod_eq_of_lt (by omega : w / 262144 < 8)]
              simpa only [Nat.add_lt_add_iff_right, Nat.add_right_cancel_iff] using digits_lt hlt

/-- Texts are in the order of their bytes. -/
theorem encode_lt_encode {s t : String} (h : s < t) : encode s < encode t := by
  have hchars : s.toList < t.toList := h
  rw [encode_eq, encode_eq]
  generalize s.toList = cs at hchars
  generalize t.toList = ds at hchars
  induction hchars with
  | @nil d ds =>
    rw [flatMap_nil, flatMap_cons]
    cases hbytes : utf8EncodeChar d with
    | nil =>
      have hlength := length_utf8EncodeChar d
      rw [hbytes, length_nil] at hlength
      exact absurd d.utf8Size_pos (by omega)
    | cons b bs => exact nil_lt_cons ..
  | rel hlt =>
    rw [flatMap_cons, flatMap_cons]
    exact utf8EncodeChar_lt hlt _ _
  | cons _ ih =>
    rw [flatMap_cons, flatMap_cons]
    exact append_left_lt ih

end CodeAssist.Text
