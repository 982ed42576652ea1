import Ceng.Text.CodePoint

/-!
# Latin-1

The first 256 characters stand for the 256 bytes, one for one. Every byte
sequence can be decoded; text can be encoded if it has no other character.
-/
namespace Ceng

abbrev Bytes := List UInt8

namespace Latin1

def decode (bytes : Bytes) : List Char := bytes.map Char.ofUInt8

def isEncodable (c : Char) : Bool := c.toNat < 256

/-- The first run of characters that have no byte, and the position of its
first character in the whole text. -/
structure EncodeError where
  start : Nat
  characters : List Char
deriving DecidableEq, Repr

/-- Where the first run of characters without a byte stands. -/
def firstError (text : List Char) : EncodeError :=
  ⟨(text.takeWhile isEncodable).length,
    (text.dropWhile isEncodable).takeWhile (!isEncodable ·)⟩

/-- The bytes of a text, or the first run of characters without a byte. -/
def encode (text : List Char) : Except EncodeError Bytes :=
  if text.all isEncodable then .ok (text.map Char.toUInt8) else .error (firstError text)

namespace EncodeError

/-- The position after the run. -/
def stop (e : EncodeError) : Nat := e.start + e.characters.length

def message (e : EncodeError) : String :=
  "'latin-1' codec can't encode " ++
    (match e.characters with
    | [c] => "character '" ++ String.ofList (Text.escapeCodePoint c) ++ "' in position " ++
        e.start.repr
    | _ => "characters in position " ++ e.start.repr ++ "-" ++ (e.stop - 1).repr) ++
    ": ordinal not in range(256)"

end EncodeError

theorem isEncodable_ofUInt8 (b : UInt8) : isEncodable (Char.ofUInt8 b) = true := by
  have hb : (Char.ofUInt8 b).toNat = b.toNat := rfl
  simpa [isEncodable, hb] using b.toNat_lt

theorem toUInt8_ofUInt8 (b : UInt8) : (Char.ofUInt8 b).toUInt8 = b := by
  change b.toUInt32.toUInt8 = b
  simp

theorem isEncodable_of_mem_decode {bytes : Bytes} {c : Char} (h : c ∈ decode bytes) :
    isEncodable c = true := by
  obtain ⟨b, _, rfl⟩ := List.mem_map.1 h
  exact isEncodable_ofUInt8 b

theorem ofUInt8_toUInt8 {c : Char} (h : isEncodable c = true) : Char.ofUInt8 c.toUInt8 = c := by
  have hc : c.val.toNat < 256 := of_decide_eq_true h
  refine Char.ext (UInt32.toNat_inj.1 ?_)
  change c.val.toUInt8.toUInt32.toNat = c.val.toNat
  rw [UInt8.toNat_toUInt32, UInt32.toNat_toUInt8, Nat.mod_eq_of_lt hc]

theorem encode_eq_ok_iff {text : List Char} {bytes : Bytes} :
    encode text = .ok bytes ↔ text.all isEncodable = true ∧ bytes = text.map Char.toUInt8 := by
  unfold encode
  by_cases h : text.all isEncodable = true
  · rw [if_pos h, Except.ok.injEq, eq_comm]
    exact (and_iff_right h).symm
  · rw [if_neg h]
    constructor
    · intro he
      cases he
    · intro ha
      exact absurd ha.1 h

/-- Text that can be encoded is got back from its bytes. -/
theorem decode_of_encode_eq_ok {text : List Char} {bytes : Bytes} (h : encode text = .ok bytes) :
    decode bytes = text := by
  obtain ⟨hall, rfl⟩ := encode_eq_ok_iff.1 h
  unfold decode
  rw [List.map_map]
  refine (List.map_congr_left fun c hc => ?_).trans (List.map_id text)
  exact ofUInt8_toUInt8 (List.all_eq_true.1 hall c hc)

/-- Decoded bytes are encoded again as the same bytes. -/
theorem encode_decode (bytes : Bytes) : encode (decode bytes) = .ok bytes := by
  have h : (decode bytes).all isEncodable = true :=
    List.all_eq_true.2 fun _ hc => isEncodable_of_mem_decode hc
  simp only [encode, h, if_true]
  simp [decode, Function.comp_def, toUInt8_ofUInt8]

end Latin1
end Ceng
