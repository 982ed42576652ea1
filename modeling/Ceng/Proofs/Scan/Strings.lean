import Ceng.Proofs.Files.DumpFile

/-!
# Payloads of string constants

A string constant in a source stands in the dump of it with the bytes that it has between
its quotes, whatever they are. What a reader of the dump can make of them is a question of
its own.
-/
namespace Ceng

/-- Pieces read off the front of a source are all of the source that they make up. -/
theorem Reads.of_textOf {source rest : List Char} {pieces : List Piece}
    (h : Reads source pieces rest) : Reads (textOf pieces) pieces [] := by
  induction h with
  | stop rest => exact .stop []
  | @piece p pieces source after rest hw he hs hr ih =>
    have hend : p.EndsBefore (textOf pieces) := by
      rw [hr.source_eq] at he
      cases ht : textOf pieces with
      | nil => exact p.endsBefore_nil
      | cons c text =>
        rw [ht] at he
        exact he
    exact .piece hw hend rfl ih

/-- Around a string constant the source is cut into two sources, which give the tokens
before and after it. -/
theorem exists_source_of_string {source text : List Char} {front back : List Token}
    (h : scan source = .ok (front ++ ⟨.stringConstant, text⟩ :: back)) :
    ∃ before after, source = before ++ '"' :: (text ++ '"' :: after) ∧ '"' ∉ text ∧
      scan before = .ok front ∧ scan after = .ok back := by
  obtain ⟨pieces, hr, ht⟩ := reads_of_scan_eq_ok h
  obtain ⟨ps, qs, rfl, rfl, hqs⟩ := List.filterMap_eq_append_iff.1 ht
  obtain ⟨gap, p, rest, rfl, hgap, hp, rfl⟩ := List.filterMap_eq_cons_iff.1 hqs
  have hstring : p = .string text := by
    cases p with
    | string body => cases hp; rfl
    | word text => simp only [Piece.token?] at hp; split at hp <;> cases hp
    | bracket b => cases b <;> cases hp
    | _ => cases hp
  subst hstring
  rw [← List.append_assoc] at hr
  obtain ⟨middle, hfront, hback⟩ := reads_append_iff.1 hr
  cases hback with
  | @piece _ _ _ after _ hw _ hs hrest =>
    refine ⟨textOf (ps ++ gap), after, ?_, hw, ?_, hrest.scan_eq_ok⟩
    · rw [hfront.source_eq, hs]
      simp [Piece.text]
    · rw [hfront.of_textOf.scan_eq_ok, tokensOf_append]
      have hnone : tokensOf gap = [] := List.filterMap_eq_nil_iff.2 hgap
      rw [hnone, List.append_nil]
      rfl

/-! ## In the dump -/

/-- What a dump has before the line that follows these tokens. -/
def dumpBefore (tokens : List Token) : List Char := tokens.flatMap fun t => t.line ++ ['\n']

theorem dump_append_cons (front : List Token) (t : Token) (back : List Token) :
    dump (front ++ t :: back) =
      dumpBefore front ++ t.lead ++ (t.text ++ '\x7d' :: dumpAfter back) := by
  induction front with
  | nil =>
    rw [List.nil_append, dump_cons, t.line_eq]
    simp [dumpBefore]
  | cons u front ih =>
    have hafter : dumpAfter (front ++ t :: back) = '\n' :: dump (front ++ t :: back) := by
      cases front <;> rfl
    rw [List.cons_append, dump_cons, hafter, ih]
    simp [dumpBefore]

/-- The payload stands between two quotes of the source and in the line of its token in the
file, with these tokens before and after it in both. -/
structure StringKept (source file : Bytes) (front : List Token) (payload : Bytes)
    (back : List Token) : Prop where
  source : ∃ before after, source = before ++ 34 :: (payload ++ 34 :: after) ∧
    34 ∉ payload ∧ scan (Latin1.decode before) = .ok front ∧
    scan (Latin1.decode after) = .ok back
  file : ∃ before after, file = before ++ (payload ++ 125 :: after) ∧
    Latin1.encode (dumpBefore front ++
      Token.lead ⟨.stringConstant, Latin1.decode payload⟩) = .ok before ∧
    Latin1.encode (dumpAfter back) = .ok after

namespace Latin1

theorem eq_toUInt8_of_ofUInt8_eq {b : UInt8} {c : Char} (h : Char.ofUInt8 b = c) :
    b = c.toUInt8 := by
  rw [← h, toUInt8_ofUInt8]

theorem map_toUInt8_decode (bytes : Bytes) : (decode bytes).map Char.toUInt8 = bytes := by
  simp [decode, Function.comp_def, toUInt8_ofUInt8]

/-- Where a text is cut, its bytes are cut as well. -/
theorem exists_encode_of_append {text more : List Char} {bytes : Bytes}
    (h : encode (text ++ more) = .ok bytes) :
    ∃ front back, bytes = front ++ back ∧ encode text = .ok front ∧ encode more = .ok back := by
  obtain ⟨hall, rfl⟩ := encode_eq_ok_iff.1 h
  rw [List.all_append, Bool.and_eq_true] at hall
  exact ⟨_, _, List.map_append, encode_eq_ok_iff.2 ⟨hall.1, rfl⟩,
    encode_eq_ok_iff.2 ⟨hall.2, rfl⟩⟩

end Latin1

theorem exists_stringKept {source file : Bytes} {front back : List Token} {text : List Char}
    (h : scan (Latin1.decode source) = .ok (front ++ ⟨.stringConstant, text⟩ :: back))
    (hfile : Latin1.encode (dump (front ++ ⟨.stringConstant, text⟩ :: back)) = .ok file) :
    ∃ payload, Latin1.decode payload = text ∧ StringKept source file front payload back := by
  obtain ⟨before, after, hs, hquote, hfront, hback⟩ := exists_source_of_string h
  obtain ⟨a, atQuote, rfl, rfl, htail⟩ := List.map_eq_append_iff.1 hs
  obtain ⟨q, inside, rfl, hq, hinside⟩ := List.map_eq_cons_iff.1 htail
  obtain ⟨payload, atEnd, rfl, rfl, hend⟩ := List.map_eq_append_iff.1 hinside
  obtain ⟨q', b, rfl, hq', rfl⟩ := List.map_eq_cons_iff.1 hend
  obtain rfl : q = 34 := Latin1.eq_toUInt8_of_ofUInt8_eq hq
  obtain rfl : q' = 34 := Latin1.eq_toUInt8_of_ofUInt8_eq hq'
  refine ⟨payload, rfl, ⟨a, b, rfl, fun hm => hquote ?_, hfront, hback⟩, ?_⟩
  · exact List.mem_map.2 ⟨34, hm, rfl⟩
  · rw [dump_append_cons] at hfile
    obtain ⟨lines, rest, rfl, hlines, hrest⟩ := Latin1.exists_encode_of_append hfile
    obtain ⟨middle, behind, rfl, hmiddle, hbehind⟩ := Latin1.exists_encode_of_append hrest
    obtain rfl : middle = payload := by
      rw [(Latin1.encode_eq_ok_iff.1 hmiddle).2]
      exact Latin1.map_toUInt8_decode payload
    obtain ⟨brace, after, rfl, hbrace, hafter⟩ := @Latin1.exists_encode_of_append ['\x7d'] _ _ hbehind
    obtain rfl : brace = [125] := (Latin1.encode_eq_ok_iff.1 hbrace).2
    exact ⟨lines, after, rfl, hlines, hafter⟩

end Ceng
