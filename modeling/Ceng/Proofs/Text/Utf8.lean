import Ceng.Text.Latin1

/-!
# UTF-8 read as Latin-1

An ASCII character is its own byte in UTF-8. Any other character is spelled by bytes
above the ASCII range only, so that no byte of it is taken for another character.
-/
namespace Ceng
namespace Utf8

/-- The UTF-8 bytes of a text. -/
def encode (text : List Char) : Bytes := (String.ofList text).toUTF8.data.toList

theorem encode_eq_flatMap (text : List Char) :
    encode text = text.flatMap String.utf8EncodeChar := by
  rw [encode, String.toUTF8_eq_toByteArray, String.toByteArray_ofList]
  exact List.toList_data_toByteArray

/-- An ASCII character is one byte, which is read back as that character. -/
theorem decode_encodeChar {c : Char} (h : c.toNat < 128) :
    Latin1.decode (String.utf8EncodeChar c) = [c] := by
  have hval : c.val ≤ 127 := UInt32.le_iff_toNat_le.2 (Nat.le_of_lt_succ h)
  have hmod : c.toNat % 256 = c.toNat := Nat.mod_eq_of_lt (by omega)
  rw [String.utf8EncodeChar_eq_singleton (Char.utf8Size_eq_one_iff.2 hval)]
  refine congrArg (fun d => [d]) (Char.ext (UInt32.toNat_inj.1 ?_))
  exact hmod

theorem le_toNat_ofNat {lead width : Nat} (hlead : 128 ≤ lead) (hwidth : 0 < width)
    (hbyte : lead + width ≤ 256) (n : Nat) : 128 ≤ (UInt8.ofNat (n % width + lead)).toNat := by
  have hlt : n % width < width := Nat.mod_lt n hwidth
  have hmod : (n % width + lead) % 256 = n % width + lead := Nat.mod_eq_of_lt (by omega)
  rw [UInt8.toNat_ofNat', hmod]
  omega

/-- The bytes of any other character are above the ASCII range. -/
theorem le_of_mem_encodeChar {c : Char} (h : 128 ≤ c.toNat) {b : UInt8}
    (hb : b ∈ String.utf8EncodeChar c) : 128 ≤ b.toNat := by
  have hne : ¬ c.val.toNat ≤ 127 := Nat.not_le.2 h
  have hnext (n : Nat) : 128 ≤ (UInt8.ofNat (n % 64 + 128)).toNat :=
    le_toNat_ofNat (by decide) (by decide) (by decide) n
  simp only [String.utf8EncodeChar, if_neg hne] at hb
  -- Two, three or four bytes, of which only the first has a mark of its own.
  split at hb
  · simp only [List.mem_cons, List.not_mem_nil, or_false] at hb
    rcases hb with rfl | rfl
    · exact le_toNat_ofNat (by decide) (by decide) (by decide) _
    · exact hnext _
  · split at hb
    · simp only [List.mem_cons, List.not_mem_nil, or_false] at hb
      rcases hb with rfl | rfl | rfl
      · exact le_toNat_ofNat (by decide) (by decide) (by decide) _
      all_goals exact hnext _
    · simp only [List.mem_cons, List.not_mem_nil, or_false] at hb
      rcases hb with rfl | rfl | rfl | rfl
      · exact le_toNat_ofNat (by decide) (by decide) (by decide) _
      all_goals exact hnext _

theorem encodeChar_ne_nil (c : Char) : String.utf8EncodeChar c ≠ [] := by
  have hlen := String.length_utf8EncodeChar c
  have hpos := c.utf8Size_pos
  exact List.ne_nil_of_length_pos (by omega)

end Utf8
end Ceng
