import Ceng.Files.DumpFile
import Ceng.Files.Source
import Ceng.Proofs.Scan.Dump

/-!
# Writing dump files

A file that can be opened for writing is no directory, so it is on the way to no other
file, and to write it leaves the way to it as it was. Dumps of scanned bytes can always be
encoded: once their file is open, nothing goes wrong. Permissions are not in the model, and
so not among the causes of failure.
-/
namespace Ceng

/-! ## Ways through a tree -/

/-- Why a tree refuses a path. -/
def FileError.Cause.ofTree : List FileError.Cause :=
  [.notFound, .notDirectory, .isDirectory, .nameTooLong]

namespace Tree

variable {t : Tree} {l l' : Location} {p : Path} {cause : FileError.Cause}

theorem directory_of_enter {name : String} (h : t.enter l name = .ok l') :
    t.node? l = some .directory := by
  unfold enter at h
  split at h
  · cases h
  · cases h
  · assumption

theorem cause_of_enter {name : String} (h : t.enter l name = .error cause) :
    cause ∈ FileError.Cause.ofTree := by
  unfold enter at h
  split at h
  · cases h; decide
  · cases h; decide
  · split at h
    · cases h
    · split at h <;> cases h
      decide

theorem cause_of_foldlM_enter {names : List String} (h : names.foldlM t.enter l = .error cause) :
    cause ∈ FileError.Cause.ofTree := by
  induction names generalizing l with
  | nil => cases h
  | cons name names ih =>
    rw [List.foldlM_cons] at h
    cases hn : t.enter l name with
    | error e =>
      rw [hn] at h
      cases h
      exact cause_of_enter hn
    | ok next =>
      rw [hn] at h
      exact ih h

theorem cause_of_locate (h : t.locate p = .error cause) : cause ∈ FileError.Cause.ofTree := by
  unfold locate at h
  split at h
  · cases h; decide
  · exact cause_of_foldlM_enter h

theorem openForWriting_eq_ok_iff :
    t.openForWriting p = .ok l ↔ t.locate p = .ok l ∧ t.node? l ≠ some .directory := by
  unfold openForWriting
  cases hp : t.locate p with
  | error e => simp
  | ok m =>
    by_cases hm : t.node? m = some .directory
    · simp only [if_pos hm, reduceCtorEq, false_iff, Except.ok.injEq, not_and, not_not]
      rintro rfl
      exact hm
    · simp only [if_neg hm, Except.ok.injEq]
      exact ⟨fun h => ⟨h, h ▸ hm⟩, And.left⟩

theorem cause_of_openForWriting (h : t.openForWriting p = .error cause) :
    cause ∈ FileError.Cause.ofTree := by
  unfold openForWriting at h
  split at h
  · next hp => cases h; exact cause_of_locate hp
  · split at h <;> cases h
    decide

/-- The root is a directory, so no file is written there. -/
theorem ne_nil_of_openForWriting (h : t.openForWriting p = .ok l) : l ≠ [] := by
  rintro rfl
  exact (openForWriting_eq_ok_iff.1 h).2 rfl

/-! A way leads through directories alone. -/

theorem foldlM_enter_set {names : List String} {start : Location} {node : Node}
    (hl : t.node? l ≠ some .directory) (h : names.foldlM t.enter start = .ok l') :
    names.foldlM (t.set l node).enter start = .ok l' := by
  induction names generalizing start with
  | nil => exact h
  | cons name names ih =>
    rw [List.foldlM_cons] at h
    cases hn : t.enter start name with
    | error e => rw [hn] at h; cases h
    | ok next =>
      have hdir := directory_of_enter hn
      have hne : start ≠ l := fun he => hl (he ▸ hdir)
      have hset : (t.set l node).enter start name = .ok next := by
        rw [← hn, enter, enter, node?_set_of_ne t hne]
      rw [hn] at h
      rw [List.foldlM_cons, hset]
      exact ih h

/-- A path leads to the same location after a file has been written anywhere. -/
theorem locate_set {node : Node} (hl : t.node? l ≠ some .directory) (h : t.locate p = .ok l') :
    (t.set l node).locate p = .ok l' := by
  unfold locate at h ⊢
  split at h
  · cases h
  · next hlong =>
    rw [if_neg hlong]
    exact foldlM_enter_set hl h

theorem read_eq_ok_iff {content : Bytes} :
    t.read p = .ok content ↔ ∃ l, t.locate p = .ok l ∧ t.node? l = some (.file content) := by
  unfold read
  cases t.locate p with
  | error cause => simp
  | ok l =>
    simp only [Except.ok.injEq, exists_eq_left']
    cases t.node? l with
    | none => simp
    | some node => cases node <;> simp

/-- What is loaded is what the path leads to. -/
theorem load_eq_ok_iff {content : Bytes} :
    t.load p = .ok content ↔ ∃ l, t.locate p = .ok l ∧ t.node? l = some (.file content) := by
  rw [← read_eq_ok_iff, load]
  cases t.read p <;> simp [Except.mapError]

/-- The file that was written is found on the same way, with its new content. -/
theorem read_set_of_openForWriting (h : t.openForWriting p = .ok l) (content : Bytes) :
    (t.set l (.file content)).read p = .ok content := by
  obtain ⟨hp, hl⟩ := openForWriting_eq_ok_iff.1 h
  exact read_eq_ok_iff.2 ⟨l, locate_set hl hp, node?_set_self t (ne_nil_of_openForWriting h) _⟩

end Tree

/-! ## Dumps as bytes -/

theorem Token.isEncodable_of_mem_lead {t : Token} {c : Char} (h : c ∈ t.lead) :
    Latin1.isEncodable c = true := by
  have hstart : lineStart.all Latin1.isEncodable = true := by decide
  have hlabel : t.kind.label.toList.all Latin1.isEncodable = true := by cases t.kind <;> decide
  have hmark : valueMark.all Latin1.isEncodable = true := by decide
  rcases mem_lead h with hc | hc | hc
  · exact List.all_eq_true.1 hstart c hc
  · exact List.all_eq_true.1 hlabel c hc
  · exact List.all_eq_true.1 hmark c hc

/-- A dump can be encoded if and only if the texts of its tokens can. -/
theorem all_isEncodable_dump_iff (tokens : List Token) :
    (dump tokens).all Latin1.isEncodable = true ↔
      ∀ t ∈ tokens, ∀ c ∈ t.text, Latin1.isEncodable c = true := by
  induction tokens with
  | nil => simp
  | cons t rest ih =>
    have hline : t.line.all Latin1.isEncodable = t.text.all Latin1.isEncodable := by
      have hlead : t.lead.all Latin1.isEncodable = true :=
        List.all_eq_true.2 fun _ => Token.isEncodable_of_mem_lead
      rw [t.line_eq, List.all_append, List.all_append, hlead, Bool.true_and]
      exact Bool.and_true _
    have hafter : (dumpAfter rest).all Latin1.isEncodable = (dump rest).all Latin1.isEncodable := by
      cases rest with
      | nil => rfl
      | cons u rest => rfl
    rw [dump_cons, List.all_append, hline, hafter, Bool.and_eq_true, ih, List.all_eq_true,
      List.forall_mem_cons]

theorem Latin1.isEncodable_iff {c : Char} : isEncodable c = true ↔ c.toNat ≤ 0xff := by
  rw [isEncodable, decide_eq_true_iff]
  omega

/-- A dump has bytes if the texts of its tokens hold no character above U+00FF, and else
there is an error. -/
theorem encode_dump_eq_error_iff (tokens : List Token) :
    (∃ e, Latin1.encode (dump tokens) = .error e) ↔
      ∃ t ∈ tokens, ∃ c ∈ t.text, 0xff < c.toNat := by
  have hall : (dump tokens).all Latin1.isEncodable = true ↔
      ¬ ∃ t ∈ tokens, ∃ c ∈ t.text, 0xff < c.toNat := by
    rw [all_isEncodable_dump_iff]
    simp only [Latin1.isEncodable_iff, not_exists, not_and, Nat.not_lt]
  unfold Latin1.encode
  by_cases h : (dump tokens).all Latin1.isEncodable = true
  · rw [if_pos h]
    constructor
    · rintro ⟨e, he⟩
      cases he
    · intro hm
      exact absurd hm (hall.1 h)
  · rw [if_neg h]
    exact ⟨fun _ => of_not_not fun hm => h (hall.2 hm), fun _ => ⟨_, rfl⟩⟩

theorem Piece.mem_text_of_mem_token {p : Piece} {t : Token} (h : p.token? = some t) {c : Char}
    (hc : c ∈ t.text) : c ∈ p.text := by
  cases p with
  | string body =>
    cases h
    exact List.mem_cons_of_mem _ (List.mem_append_left _ hc)
  | statementEnd => cases h; cases hc
  | blockComment | lineComment | newline | skipped => cases h
  | _ => cases h; exact hc

/-- Tokens are made of characters of their source. -/
theorem mem_source_of_scan {source : List Char} {tokens : List Token}
    (h : scan source = .ok tokens) {t : Token} (ht : t ∈ tokens) {c : Char} (hc : c ∈ t.text) :
    c ∈ source := by
  obtain ⟨pieces, hr, rfl⟩ := reads_of_scan_eq_ok h
  obtain ⟨p, hp, hpt⟩ := List.mem_filterMap.1 ht
  rw [hr.source_eq, List.append_nil]
  exact List.mem_flatMap.2 ⟨p, hp, p.mem_text_of_mem_token hpt hc⟩

/-- The dump of scanned bytes can be encoded. -/
theorem encode_dump_of_scan {source : Bytes} {tokens : List Token}
    (h : scan (Latin1.decode source) = .ok tokens) :
    Latin1.encode (dump tokens) = .ok ((dump tokens).map Char.toUInt8) := by
  refine Latin1.encode_eq_ok_iff.2 ⟨?_, rfl⟩
  exact (all_isEncodable_dump_iff tokens).2 fun t ht c hc =>
    Latin1.isEncodable_of_mem_decode (mem_source_of_scan h ht hc)

/-! ## Writing -/

namespace Tree

variable {t : Tree} {l : Location} {p : Path}

theorem writeDump_of_error {cause : FileError.Cause} (h : t.openForWriting p = .error cause)
    (tokens : List Token) : t.writeDump p tokens = (.error (.cannotOpen ⟨cause, p⟩), t) := by
  simp only [writeDump, h]

theorem writeDump_of_scan {source : Bytes} {tokens : List Token}
    (h : t.openForWriting p = .ok l) (hs : scan (Latin1.decode source) = .ok tokens) :
    t.writeDump p tokens =
      (.ok tokens.length, t.set l (.file ((dump tokens).map Char.toUInt8))) := by
  simp only [writeDump, h, encode_dump_of_scan hs]

end Tree

end Ceng
