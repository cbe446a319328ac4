import CodeAssist.Proofs.Text.Decoding
import CodeAssist.Toolchain.Process

/-!
How much is kept of what a program says, and of the workspace it ran in.

The bytes are cut first and read afterwards. Each replacement for bytes that encode nothing has
three bytes, so the text may be longer than the limit, and it may end with a character that the
program never said. Of the workspace nothing is kept.
-/

namespace CodeAssist

open Text List String

/-- Whatever is done in a workspace, in the end the work root is as it was. -/
theorem ProcessToolchain.inWorkspace_keeps (t : ProcessToolchain) (source : String)
    (work : String → Workspace → Except ToolchainError α) (root : WorkRoot)
    (hnew : ∀ place, t.workspace = .ok place → ∀ entry ∈ root, entry.1 ≠ place) :
    (t.inWorkspace source work root).2 = root := by
  rw [inWorkspace, prepare]
  cases hplace : t.workspace with
  | error reason => rfl
  | ok place =>
    change (_ :: root).filter (·.1 != place) = root
    rw [filter_cons_of_neg (by simp), filter_eq_self]
    exact fun entry hentry => by simpa using hnew place hplace entry hentry

theorem utf8ByteSize_truncate (bytes : List UInt8) (maxBytes : Nat) :
    (truncate bytes maxBytes).utf8ByteSize =
      ((decodeLossy (bytes.take maxBytes)).flatMap utf8EncodeChar).length := by
  rw [← length_encode, encode_eq, truncate, toList_ofList]

/-- The text of a program's first bytes is within the limit if and only if the replacements in it
leave room for themselves. If all that the program said is a text, and longer than the limit, what
is kept are the characters that end within the limit, and a replacement for a character that is
cut. Then the limit holds unless one or two bytes of a character are left, and what is kept begins
the text if and only if no character is cut, or that character is a replacement itself. -/
theorem output_capped_iff (bytes : List UInt8) (maxBytes : Nat) :
    (∃ lack, Reads (bytes.take maxBytes) (truncate bytes maxBytes).toList lack ∧
      ((truncate bytes maxBytes).utf8ByteSize ≤ maxBytes ↔
        (bytes.take maxBytes).length + lack ≤ maxBytes)) ∧
    ∀ s, bytes = encode s →
      s.utf8ByteSize ≤ maxBytes ∧ truncate bytes maxBytes = s ∨
      ∃ front c back cut, s.toList = front ++ c :: back ∧
        maxBytes = (ofList front).utf8ByteSize + cut ∧ cut < c.utf8Size ∧
        (truncate bytes maxBytes).toList = front ++ (if cut = 0 then [] else [replacement]) ∧
        ((truncate bytes maxBytes).utf8ByteSize ≤ maxBytes ↔ cut = 0 ∨ cut = 3) ∧
        ((truncate bytes maxBytes).toList <+: s.toList ↔ cut = 0 ∨ c = replacement) := by
  have htext : (truncate bytes maxBytes).toList = decodeLossy (bytes.take maxBytes) :=
    toList_ofList
  rw [utf8ByteSize_truncate, htext]
  refine ⟨?_, ?_⟩
  · obtain ⟨lack, hreads⟩ := reads_decodeLossy (bytes.take maxBytes)
    exact ⟨lack, hreads, by rw [hreads.length]⟩
  · rintro s rfl
    rw [truncate, encode_eq]
    rcases decodeLossy_take s.toList maxBytes with
      ⟨hfits, hread⟩ | ⟨front, c, back, cut, hs, hmax, hcut, hread⟩
    · rw [← encode_eq, length_encode] at hfits
      exact .inl ⟨hfits, by rw [hread, ofList_toList]⟩
    · refine .inr ⟨front, c, back, cut, hs, ?_, hcut, hread, ?_, ?_⟩
      · rw [← length_encode, encode_eq, toList_ofList, hmax]
      · have hfour := c.utf8Size_le_four
        rw [hread, hmax]
        by_cases hzero : cut = 0
        · simp [hzero]
        · have hthree : (utf8EncodeChar replacement).length = 3 := by decide
          rw [if_neg hzero, flatMap_append, flatMap_singleton, List.length_append, hthree]
          omega
      · rw [hread, hs, prefix_append_right_inj]
        by_cases hzero : cut = 0
        · simp [hzero]
        · simp [hzero, cons_prefix_cons, eq_comm]

theorem output_capped_iff_cut :
    ∃ front c back cut, "héllo".toList = front ++ c :: back ∧
      2 = (ofList front).utf8ByteSize + cut ∧ cut < c.utf8Size ∧
      (truncate (encode "héllo") 2).toList = front ++ if cut = 0 then [] else [replacement] := by
  obtain ⟨front, c, back, cut, hs, hmax, hcut, htext, -⟩ :=
    ((output_capped_iff (encode "héllo") 2).2 "héllo" rfl).resolve_left (by decide +kernel)
  exact ⟨front, c, back, cut, hs, hmax, hcut, htext⟩

/-- Two bytes of output are kept as four, and these are not the beginning of it. -/
theorem cut_output_grows : ¬ ((truncate (encode "héllo") 2).utf8ByteSize ≤ 2) ∧
    ¬ (truncate (encode "héllo") 2).toList <+: "héllo".toList := by
  decide +kernel

end CodeAssist
