/-!
# Blank characters

The blanks of Unicode together with the four separator controls of ASCII, and text
without those around it.
-/
namespace Ceng.Text

/-- The code points of blanks, as closed ranges in ascending order. -/
def blanks : List (Nat × Nat) :=
  [(0x9, 0xd), (0x1c, 0x20), (0x85, 0x85), (0xa0, 0xa0), (0x1680, 0x1680), (0x2000, 0x200a),
    (0x2028, 0x2029), (0x202f, 0x202f), (0x205f, 0x205f), (0x3000, 0x3000)]

def isBlank (c : Char) : Bool :=
  blanks.any fun (low, high) => low ≤ c.toNat && c.toNat ≤ high

/-- No blank is a letter, so none has another lower case. -/
theorem toLower_of_isBlank {c : Char} (h : isBlank c = true) : c.toLower = c := by
  have hc : ¬ (65 ≤ c.toNat ∧ c.toNat ≤ 90) := by
    simp only [isBlank, blanks, List.any_cons, List.any_nil, Bool.or_false, Bool.or_eq_true,
      Bool.and_eq_true, decide_eq_true_eq] at h
    omega
  unfold Char.toLower
  exact dif_neg hc

/-- Text without the blanks at its two ends. -/
def trim (text : List Char) : List Char :=
  ((text.dropWhile isBlank).reverse.dropWhile isBlank).reverse

/-- The text is this word with nothing but blanks around it. -/
def Padded (text word : List Char) : Prop :=
  ∃ front back, text = front ++ (word ++ back) ∧ front.all isBlank = true ∧
    back.all isBlank = true

theorem padded_trim (text : List Char) : Padded text (trim text) := by
  refine ⟨text.takeWhile isBlank, ((text.dropWhile isBlank).reverse.takeWhile isBlank).reverse, ?_,
    List.all_takeWhile, ?_⟩
  · rw [trim, ← List.reverse_append, List.takeWhile_append_dropWhile, List.reverse_reverse,
      List.takeWhile_append_dropWhile]
  · rw [List.all_reverse, List.all_takeWhile]

/-- Trimming takes all padding from a word that has no blanks of its own. -/
theorem Padded.trim_eq {text word : List Char} (h : Padded text word)
    (hword : ∀ c ∈ word, isBlank c = false) : trim text = word := by
  have hdrop {pad rest : List Char} (hpad : pad.all isBlank = true) :
      (pad ++ rest).dropWhile isBlank = rest.dropWhile isBlank :=
    List.dropWhile_append_of_pos (List.all_eq_true.1 hpad)
  have hkeep {c : Char} {rest : List Char} (hc : c ∈ word) :
      (c :: rest).dropWhile isBlank = c :: rest :=
    List.dropWhile_cons_of_neg (Bool.eq_false_iff.1 (hword c hc))
  obtain ⟨front, back, rfl, hfront, hback⟩ := h
  have hback' : back.reverse.all isBlank = true := List.all_reverse.trans hback
  rw [trim, hdrop hfront]
  cases word with
  | nil =>
    rw [List.nil_append, ← List.append_nil back, hdrop hback]
    rfl
  | cons c rest =>
    rw [List.cons_append, hkeep List.mem_cons_self, ← List.cons_append, List.reverse_append,
      hdrop hback']
    -- The word ends in a character of its own, so no more than the padding goes at that end.
    cases hends : (c :: rest).reverse with
    | nil => simp at hends
    | cons d rest' =>
      have hd : d ∈ c :: rest := List.mem_reverse.1 (hends ▸ List.mem_cons_self)
      rw [hkeep hd, ← hends, List.reverse_reverse]

end Ceng.Text
