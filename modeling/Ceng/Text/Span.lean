/-!
# Taking texts apart

A text splits into a given front and what follows it, or into the longest run of
characters with a property and the rest. The lemmas say which splits those are.
-/
namespace Ceng

theorem isPrefixOf?_append (front rest : List Char) :
    front.isPrefixOf? (front ++ rest) = some rest := by
  induction front with
  | nil => cases rest <;> rfl
  | cons c front ih =>
    change (if c == c then front.isPrefixOf? (front ++ rest) else none) = some rest
    rw [if_pos (beq_self_eq_true c), ih]

theorem isPrefixOf?_eq_some_iff {front text rest : List Char} :
    front.isPrefixOf? text = some rest ↔ text = front ++ rest := by
  refine ⟨fun h => ?_, fun h => h ▸ isPrefixOf?_append front rest⟩
  induction front generalizing text with
  | nil => cases text <;> exact Option.some.inj h
  | cons c front ih =>
    cases text with
    | nil => cases h
    | cons d text =>
      change (if c == d then front.isPrefixOf? text else none) = some rest at h
      split at h
      · next hc => simp [eq_of_beq hc, ih h]
      · cases h

theorem takeWhile_append_stop {p : Char → Bool} {text rest : List Char}
    (ht : ∀ c ∈ text, p c = true) (hr : ∀ c ∈ rest.head?, p c = false) :
    (text ++ rest).takeWhile p = text := by
  rw [List.takeWhile_append_of_pos ht]
  cases rest with
  | nil => simp
  | cons c r => simp [hr c (by simp)]

theorem dropWhile_append_stop {p : Char → Bool} {text rest : List Char}
    (ht : ∀ c ∈ text, p c = true) (hr : ∀ c ∈ rest.head?, p c = false) :
    (text ++ rest).dropWhile p = rest := by
  rw [List.dropWhile_append_of_pos ht]
  cases rest with
  | nil => simp
  | cons c r => simp [hr c (by simp)]

theorem mem_takeWhile_pos {p : Char → Bool} {text : List Char} {c : Char}
    (h : c ∈ text.takeWhile p) : p c = true :=
  List.all_eq_true.1 List.all_takeWhile c h

theorem head?_dropWhile_neg {p : Char → Bool} {text : List Char} {c : Char}
    (h : c ∈ (text.dropWhile p).head?) : p c = false := by
  have hd := List.head?_dropWhile_not p text
  rw [Option.mem_def.1 h] at hd
  simpa using hd

end Ceng
