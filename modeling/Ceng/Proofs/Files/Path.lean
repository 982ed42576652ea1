import Ceng.Files.Path
import Mathlib.Data.String.Basic

/-!
# Names in a path

A text is cut at its slashes, and what is between them are the names. So a text without a
slash is one name.
-/
namespace Ceng.Path

open String

/-- The text is cut behind `l`, no slash is in `m`, and `r` has still to be read. -/
theorem splitOnAux_slash (l m r : List Char) (cut : List String) :
    splitOnAux (ofList (l ++ m ++ r)) "/" ⟨utf8Len l⟩ ⟨utf8Len l + utf8Len m⟩ 0 cut =
      cut.reverse ++ (List.splitOnPPrepend (· == '/') r m.reverse).map ofList := by
  have hend (l m r : List Char) :
      Pos.Raw.atEnd (ofList (l ++ m ++ r)) ⟨utf8Len l + utf8Len m⟩ = true ↔ r = [] := by
    rw [← utf8Len_append]
    exact atEnd_of_valid (l ++ m) r
  induction r generalizing l m cut with
  | nil =>
    unfold splitOnAux
    rw [if_pos ((hend l m []).2 rfl), extract_of_valid l m []]
    simp
  | cons c r ih =>
    have hget : Pos.Raw.get (ofList (l ++ m ++ c :: r)) ⟨utf8Len l + utf8Len m⟩ = c := by
      rw [← utf8Len_append]
      exact get_of_valid (l ++ m) (c :: r)
    have hnext : Pos.Raw.next (ofList (l ++ m ++ c :: r)) ⟨utf8Len l + utf8Len m⟩ =
        ⟨utf8Len l + utf8Len m + c.utf8Size⟩ := by
      rw [← utf8Len_append]
      exact next_of_valid (l ++ m) c r
    have hslash : Pos.Raw.get "/" 0 = '/' := by decide
    unfold splitOnAux
    rw [if_neg fun he => List.cons_ne_nil c r ((hend l m _).1 he), hget, hslash]
    by_cases hc : c = '/'
    · subst hc
      have hstep := ih (l ++ m ++ ['/']) [] (ofList m :: cut)
      have hsplit : ofList (l ++ m ++ ['/'] ++ [] ++ r) = ofList (l ++ m ++ '/' :: r) := by simp
      have hlength : utf8Len (l ++ m ++ ['/']) = utf8Len l + utf8Len m + 1 := by
        rw [utf8Len_append, utf8Len_append]
        rfl
      have hnil : utf8Len ([] : List Char) = 0 := rfl
      rw [hsplit, hlength, hnil, Nat.add_zero] at hstep
      rw [if_pos (by decide), if_pos (by decide), hnext,
        List.splitOnPPrepend_cons_pos (by decide)]
      have hcut : Pos.Raw.extract (ofList (l ++ m ++ '/' :: r)) ⟨utf8Len l⟩
          ⟨utf8Len l + utf8Len m⟩ = ofList m := extract_of_valid l m ('/' :: r)
      refine (congrArg (splitOnAux _ "/" _ _ 0 <| · :: cut) hcut).trans (hstep.trans ?_)
      simp
    · have hstep := ih l (m ++ [c]) cut
      have hsplit : ofList (l ++ (m ++ [c]) ++ r) = ofList (l ++ m ++ c :: r) := by simp
      have hlength : utf8Len l + utf8Len (m ++ [c]) = utf8Len l + utf8Len m + c.utf8Size := by
        rw [utf8Len_append, Nat.add_assoc]
        simp
      rw [hsplit, hlength, List.reverse_append] at hstep
      rw [if_neg (by simpa using hc), List.splitOnPPrepend_cons_neg (by simpa using hc)]
      exact (congrArg (splitOnAux _ "/" _ · 0 cut) hnext).trans hstep

/-- The names between the slashes of a text. -/
theorem splitOn_slash (text : String) :
    text.splitOn "/" = (text.toList.splitOnP (· == '/')).map ofList := by
  have h := splitOnAux_slash [] [] text.toList []
  rw [List.nil_append, List.nil_append, ofList_toList] at h
  exact h

/-- A text without a slash that does not stand for a directory is one name. -/
theorem ofText_of_not_mem {text : String} (hslash : '/' ∉ text.toList) (hempty : text ≠ "")
    (hdot : text ≠ ".") : ofText text = ⟨.current, [text]⟩ := by
  have hne (c : Char) (hc : c ∈ text.toList) : (c == '/') = false := by
    refine beq_eq_false_iff_ne.2 fun he => hslash ?_
    rwa [he] at hc
  have hstart : Start.ofText text = .current := by
    unfold Start.ofText
    cases htext : text.toList with
    | nil => rfl
    | cons c rest =>
      rw [List.takeWhile_cons_of_neg]
      rw [hne c (by rw [htext]; exact List.mem_cons_self)]
      exact Bool.false_ne_true
  have hnames : text.splitOn "/" = [text] := by
    rw [splitOn_slash, List.splitOnP_eq_singleton hne, List.map_singleton, ofList_toList]
  rw [ofText, hstart, hnames]
  simp [hempty, hdot]

end Ceng.Path
