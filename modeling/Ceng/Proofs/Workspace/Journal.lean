import Ceng.Proofs.Files.DumpFile
import Ceng.Workspace.Journal

/-!
# What calls in sequence leave behind

The tree after a sequence of calls is the first tree with the files of the journal written
to it, and the stream is the first stream with what was printed after it. A path that leads
to a file goes on leading there, since no call touches a directory. So what a later call
reads is the last dump that was written to that file. Files that other processes change
in between are not considered.
-/
namespace Ceng

/-! ## Trees and journals -/

theorem lastContent?_cons (l k : Location) (content : Bytes) (rest : List (Location × Bytes)) :
    lastContent? ((k, content) :: rest) l =
      (lastContent? rest l).or (if l = k then some content else none) := by
  unfold lastContent?
  rw [List.reverse_cons, List.lookup_append, List.lookup_cons]
  by_cases h : l = k
  · rw [if_pos h, beq_iff_eq.2 h]
  · rw [if_neg h, beq_eq_false_iff_ne.2 h]
    rfl

theorem lastContent?_eq_none {entries : List (Location × Bytes)} {l : Location}
    (h : ∀ entry ∈ entries, entry.1 ≠ l) : lastContent? entries l = none := by
  induction entries with
  | nil => rfl
  | cons entry rest ih =>
    obtain ⟨hne, hrest⟩ := List.forall_mem_cons.1 h
    rw [lastContent?_cons, ih hrest, if_neg (Ne.symm hne)]
    rfl

/-- A file that was written has its last content, and anything else is as it was. -/
theorem Tree.node?_setFiles {entries : List (Location × Bytes)}
    (h : ∀ entry ∈ entries, entry.1 ≠ []) (t : Tree) (l : Location) :
    (t.setFiles entries).node? l = ((lastContent? entries l).map Node.file).or (t.node? l) := by
  induction entries generalizing t with
  | nil => rfl
  | cons entry rest ih =>
    obtain ⟨k, content⟩ := entry
    obtain ⟨hk, hrest⟩ := List.forall_mem_cons.1 h
    change ((t.set k (.file content)).setFiles rest).node? l = _
    rw [ih hrest, lastContent?_cons]
    cases lastContent? rest l with
    | some last => rfl
    | none =>
      by_cases hl : l = k
      · rw [if_pos hl, hl, node?_set_self t hk]
        rfl
      · rw [if_neg hl, node?_set_of_ne t hl]
        rfl

namespace Workspace

/-! ## One call -/

/-- The ways in which a call ends, each with its reply and the workspace that is left. -/
inductive Ends (w : Workspace) : Call → Reply → Workspace → Prop
  | loaded {p : Path} {content : Bytes} : w.tree.load p = .ok content →
      Ends w (.load p) (.bytes content) w
  | scanned {p : Path} {content : Bytes} {tokens : List Token} : w.tree.load p = .ok content →
      scan (Latin1.decode content) = .ok tokens → Ends w (.scanFile p) (.tokens tokens) w
  | unreadable {call : Call} {p : Path} {e : LoadError} : call = .load p ∨ call = .scanFile p →
      w.tree.load p = .error e → Ends w call (.failed (.unreadable e)) w
  | malformedFile {p : Path} {content : Bytes} {e : LexicalError} : w.tree.load p = .ok content →
      scan (Latin1.decode content) = .error e → Ends w (.scanFile p) (.failed (.malformed e)) w
  | malformedInput {call : Call} {input : TokenInput} {e : LexicalError} :
      (∃ p, call = .write p input) ∨ call = .print input → input.tokens = .error e →
      Ends w call (.failed (.malformed e)) w
  | printed {input : TokenInput} {tokens : List Token} : input.tokens = .ok tokens →
      Ends w (.print input) (.count tokens.length)
        { w with stream := w.stream ++ DumpStream.block tokens }
  | unopened {p : Path} {input : TokenInput} {tokens : List Token} {cause : FileError.Cause} :
      input.tokens = .ok tokens → w.tree.openForWriting p = .error cause →
      Ends w (.write p input) (.failed (.unwritten (.cannotOpen ⟨cause, p⟩))) w
  | unencoded {p : Path} {input : TokenInput} {tokens : List Token} {l : Location}
      {e : Latin1.EncodeError} : input.tokens = .ok tokens → w.tree.openForWriting p = .ok l →
      Latin1.encode (dump tokens) = .error e →
      Ends w (.write p input) (.failed (.unwritten (.cannotEncode e)))
        { w with tree := w.tree.set l (.file []) }
  | written {p : Path} {input : TokenInput} {tokens : List Token} {l : Location}
      {bytes : Bytes} : input.tokens = .ok tokens → w.tree.openForWriting p = .ok l →
      Latin1.encode (dump tokens) = .ok bytes →
      Ends w (.write p input) (.count tokens.length)
        { w with tree := w.tree.set l (.file bytes) }

theorem perform_ends (w : Workspace) (call : Call) :
    w.Ends call (w.perform call).1 (w.perform call).2 := by
  cases call with
  | load p =>
    cases hp : w.tree.load p with
    | error e =>
      simp only [perform, hp]
      exact .unreadable (.inl rfl) hp
    | ok content =>
      simp only [perform, hp]
      exact .loaded hp
  | scanFile p =>
    cases hp : w.tree.load p with
    | error e =>
      simp only [perform, hp]
      exact .unreadable (.inr rfl) hp
    | ok content =>
      cases hs : scan (Latin1.decode content) with
      | error e =>
        simp only [perform, hp, hs]
        exact .malformedFile hp hs
      | ok tokens =>
        simp only [perform, hp, hs]
        exact .scanned hp hs
  | write p input =>
    cases ht : input.tokens with
    | error e =>
      simp only [perform, ht]
      exact .malformedInput (.inl ⟨p, rfl⟩) ht
    | ok tokens =>
      cases ho : w.tree.openForWriting p with
      | error cause =>
        simp only [perform, ht, Tree.writeDump, ho]
        exact .unopened ht ho
      | ok l =>
        cases he : Latin1.encode (dump tokens) with
        | error e =>
          simp only [perform, ht, Tree.writeDump, ho, he]
          exact .unencoded ht ho he
        | ok bytes =>
          simp only [perform, ht, Tree.writeDump, ho, he]
          exact .written ht ho he
  | print input =>
    cases ht : input.tokens with
    | error e =>
      simp only [perform, ht]
      exact .malformedInput (.inr rfl) ht
    | ok tokens =>
      simp only [perform, ht]
      exact .printed ht

namespace Ends

variable {w next : Workspace} {call : Call} {reply : Reply}

/-- The file that is written is the one that the journal names. -/
theorem tree_eq (h : w.Ends call reply next) :
    next.tree = w.tree.setFiles (w.fileWritten? call).toList := by
  cases h with
  | loaded | scanned | malformedFile | printed => rfl
  | unreadable hc => rcases hc with rfl | rfl <;> rfl
  | malformedInput hc ht =>
    rcases hc with ⟨p, rfl⟩ | rfl
    · simp only [fileWritten?, ht]
      rfl
    · rfl
  | unopened ht ho =>
    simp only [fileWritten?, ht, ho]
    rfl
  | unencoded ht ho he =>
    simp only [fileWritten?, ht, ho, he]
    rfl
  | written ht ho he =>
    simp only [fileWritten?, ht, ho, he]
    rfl

theorem stream_eq (h : w.Ends call reply next) : next.stream = w.stream ++ textPrinted call := by
  cases h with
  | loaded | scanned | malformedFile | unopened | unencoded | written =>
    exact (List.append_nil _).symm
  | unreadable hc => rcases hc with rfl | rfl <;> exact (List.append_nil _).symm
  | malformedInput hc ht =>
    rcases hc with ⟨p, rfl⟩ | rfl
    · exact (List.append_nil _).symm
    · simp only [textPrinted, ht, List.append_nil]
  | printed ht => simp only [textPrinted, ht]

/-- A failure leaves everything as it was, unless a file was opened for text that has no
bytes. -/
theorem eq_of_failed {e : CallError} (h : w.Ends call (.failed e) next)
    (he : ∀ e', e ≠ .unwritten (.cannotEncode e')) : next = w := by
  cases h with
  | unreadable | malformedFile | malformedInput | unopened => rfl
  | unencoded => exact absurd rfl (he _)

/-- A file is loaded as it is, and nothing is loaded but files. -/
theorem of_load {p : Path} (h : w.Ends (.load p) reply next) :
    next = w ∧ ((∃ l content, w.tree.locate p = .ok l ∧
        w.tree.node? l = some (.file content) ∧ reply = .bytes content) ∨
      (¬ ∃ l content, w.tree.locate p = .ok l ∧ w.tree.node? l = some (.file content)) ∧
        ∃ e, reply = .failed (.unreadable e)) := by
  cases h with
  | loaded hp =>
    obtain ⟨l, hl, hn⟩ := Tree.load_eq_ok_iff.1 hp
    exact ⟨rfl, .inl ⟨l, _, hl, hn, rfl⟩⟩
  | unreadable hc hp =>
    obtain hc | hc := hc
    · cases hc
      refine ⟨rfl, .inr ⟨?_, _, rfl⟩⟩
      rintro ⟨l, content, hl⟩
      rw [Tree.load_eq_ok_iff.2 ⟨l, hl⟩] at hp
      cases hp
    · cases hc
  | malformedInput hc =>
    obtain ⟨_, hc⟩ | hc := hc <;> cases hc

/-- A file that can be opened is written, or left empty if the dump has no bytes. -/
theorem of_write {p : Path} {input : TokenInput} {tokens : List Token} {l : Location}
    (h : w.Ends (.write p input) reply next) (ht : input.tokens = .ok tokens)
    (ho : w.tree.openForWriting p = .ok l) :
    ∃ bytes, next = { w with tree := w.tree.set l (.file bytes) } ∧
      (Latin1.encode (dump tokens) = .ok bytes ∧ reply = .count tokens.length ∨
        ∃ e, Latin1.encode (dump tokens) = .error e ∧
          reply = .failed (.unwritten (.cannotEncode e)) ∧ bytes = []) := by
  cases h with
  | unreadable hc => obtain hc | hc := hc <;> cases hc
  | malformedInput hc he =>
    obtain ⟨_, hc⟩ | hc := hc
    · cases hc
      rw [ht] at he
      cases he
    · cases hc
  | unopened _ hu =>
    rw [ho] at hu
    cases hu
  | unencoded ht' ho' he =>
    obtain rfl := Except.ok.inj (ht.symm.trans ht')
    obtain rfl := Except.ok.inj (ho.symm.trans ho')
    exact ⟨[], rfl, .inr ⟨_, he, rfl, rfl⟩⟩
  | written ht' ho' he =>
    obtain rfl := Except.ok.inj (ht.symm.trans ht')
    obtain rfl := Except.ok.inj (ho.symm.trans ho')
    exact ⟨_, rfl, .inl ⟨he, rfl⟩⟩

end Ends

theorem fileWritten?_eq_none {w : Workspace} {call : Call}
    (h : ∀ p input, call ≠ .write p input) : w.fileWritten? call = none := by
  cases call with
  | write p input => exact absurd rfl (h p input)
  | load | scanFile | print => rfl

/-- A call writes only where a file can be opened, so never to a directory. -/
theorem not_directory_of_fileWritten? {w : Workspace} {call : Call} {l : Location}
    {content : Bytes} (h : w.fileWritten? call = some (l, content)) :
    l ≠ [] ∧ w.tree.node? l ≠ some .directory := by
  cases call with
  | write p input =>
    cases ht : input.tokens with
    | error e =>
      simp only [fileWritten?, ht] at h
      cases h
    | ok tokens =>
      cases ho : w.tree.openForWriting p with
      | error cause =>
        simp only [fileWritten?, ht, ho] at h
        cases h
      | ok k =>
        simp only [fileWritten?, ht, ho] at h
        obtain ⟨rfl, -⟩ := Prod.mk.inj (Option.some.inj h)
        exact ⟨Tree.ne_nil_of_openForWriting ho, (Tree.openForWriting_eq_ok_iff.1 ho).2⟩
  | load | scanFile | print => cases h

/-- No call changes where a path leads. -/
theorem locate_perform {w : Workspace} {p : Path} {l : Location}
    (h : w.tree.locate p = .ok l) (call : Call) : (w.perform call).2.tree.locate p = .ok l := by
  rw [(w.perform_ends call).tree_eq]
  cases hc : w.fileWritten? call with
  | none => exact h
  | some entry => exact Tree.locate_set (not_directory_of_fileWritten? hc).2 h

/-! ## Calls in sequence -/

theorem performAll_cons (w : Workspace) (call : Call) (rest : List Call) :
    w.performAll (call :: rest) =
      ((w.perform call).1 :: ((w.perform call).2.performAll rest).1,
        ((w.perform call).2.performAll rest).2) := rfl

theorem performAll_append (w : Workspace) (before after : List Call) :
    w.performAll (before ++ after) =
      ((w.performAll before).1 ++ ((w.performAll before).2.performAll after).1,
        ((w.performAll before).2.performAll after).2) := by
  induction before generalizing w with
  | nil => rfl
  | cons call rest ih =>
    rw [List.cons_append, performAll_cons, ih]
    rfl

theorem length_performAll (w : Workspace) (calls : List Call) :
    (w.performAll calls).1.length = calls.length := by
  induction calls generalizing w with
  | nil => rfl
  | cons call rest ih => exact congrArg (· + 1) (ih _)

/-- Each call is answered from the workspace that the calls before it have left, and
leaves its own to the calls after it. -/
theorem performAll_of_perform {w next : Workspace} {before : List Call} {call : Call}
    {reply : Reply} (h : (w.performAll before).2.perform call = (reply, next))
    (after : List Call) :
    (w.performAll (before ++ call :: after)).1[before.length]? = some reply ∧
      (w.performAll (before ++ call :: after)).2 = (next.performAll after).2 := by
  rw [performAll_append, performAll_cons, h]
  refine ⟨?_, rfl⟩
  rw [← w.length_performAll before, List.getElem?_append_right (Nat.le_refl _), Nat.sub_self]
  rfl

theorem ne_nil_of_mem_journal {w : Workspace} {calls : List Call} :
    ∀ entry ∈ w.journal calls, entry.1 ≠ [] := by
  induction calls generalizing w with
  | nil => intro entry h; cases h
  | cons call rest ih =>
    intro entry h
    rcases List.mem_append.1 h with hw | hrest
    · exact (not_directory_of_fileWritten? (Option.mem_toList.1 hw)).1
    · exact ih entry hrest

/-- The tree after the calls is the one before them with the journal written to it. -/
theorem tree_performAll (w : Workspace) (calls : List Call) :
    (w.performAll calls).2.tree = w.tree.setFiles (w.journal calls) := by
  induction calls generalizing w with
  | nil => rfl
  | cons call rest ih =>
    rw [performAll_cons, ih, (w.perform_ends call).tree_eq, journal]
    exact (List.foldl_append ..).symm

theorem node?_performAll (w : Workspace) (calls : List Call) (l : Location) :
    (w.performAll calls).2.tree.node? l =
      ((lastContent? (w.journal calls) l).map Node.file).or (w.tree.node? l) := by
  rw [tree_performAll, Tree.node?_setFiles ne_nil_of_mem_journal]

theorem stream_performAll (w : Workspace) (calls : List Call) :
    (w.performAll calls).2.stream = w.stream ++ calls.flatMap textPrinted := by
  induction calls generalizing w with
  | nil => exact (List.append_nil _).symm
  | cons call rest ih =>
    rw [performAll_cons, ih, (w.perform_ends call).stream_eq, List.flatMap_cons, List.append_assoc]

/-- Calls that print some tokens after others are writes of these chunks to one stream. -/
theorem performAll_print (w : Workspace) (chunks : List (List Token)) :
    w.performAll (chunks.map fun chunk => .print (.given chunk)) =
      ((DumpStream.writeAll w.stream chunks).2.map .count,
        { w with stream := (DumpStream.writeAll w.stream chunks).1 }) := by
  induction chunks generalizing w with
  | nil => rfl
  | cons chunk rest ih =>
    rw [List.map_cons, performAll_cons, ih]
    rfl

theorem locate_performAll {w : Workspace} {p : Path} {l : Location}
    (h : w.tree.locate p = .ok l) (calls : List Call) :
    (w.performAll calls).2.tree.locate p = .ok l := by
  induction calls generalizing w with
  | nil => exact h
  | cons call rest ih => exact ih (locate_perform h call)

/-- What was written to a file is loaded from it as long as no call writes there again. -/
theorem perform_load_performAll {w : Workspace} {p : Path} {l : Location} {content : Bytes}
    {calls : List Call} (hp : w.tree.locate p = .ok l)
    (hl : w.tree.node? l = some (.file content)) (h : ∀ entry ∈ w.journal calls, entry.1 ≠ l) :
    ((w.performAll calls).2.perform (.load p)).1 = .bytes content := by
  have hnode : (w.performAll calls).2.tree.node? l = some (.file content) := by
    rw [node?_performAll, lastContent?_eq_none h, hl]
    rfl
  simp only [perform, Tree.load_eq_ok_iff.2 ⟨l, locate_performAll hp calls, hnode⟩]

/-- Loading gives what the file holds, which is what was last written to it, and changes
nothing; no failure changes anything but that of a dump without bytes, which leaves its
file empty; a dump with bytes is read back as it was written, until the file is written
again. -/
theorem performAll_effects {w state next : Workspace} {before : List Call} {call : Call}
    {reply : Reply} (hstate : (w.performAll before).2 = state)
    (hcall : state.perform call = (reply, next)) :
    (∀ after, (w.performAll (before ++ call :: after)).1[before.length]? = some reply ∧
      (w.performAll (before ++ call :: after)).2 = (next.performAll after).2) ∧
    (∀ l, state.tree.node? l =
      ((lastContent? (w.journal before) l).map Node.file).or (w.tree.node? l)) ∧
    (∀ p, call = .load p → next = state ∧
      ((∃ l content, state.tree.locate p = .ok l ∧
          state.tree.node? l = some (.file content) ∧ reply = .bytes content) ∨
        (¬ ∃ l content, state.tree.locate p = .ok l ∧
          state.tree.node? l = some (.file content)) ∧ ∃ e, reply = .failed (.unreadable e))) ∧
    (∀ e, reply = .failed e → (∀ e', e ≠ .unwritten (.cannotEncode e')) → next = state) ∧
    ((∀ p input, call ≠ .write p input) → next.tree = state.tree) ∧
    (∀ p input tokens l, call = .write p input → input.tokens = .ok tokens →
      state.tree.openForWriting p = .ok l →
      (∀ l' ≠ l, next.tree.node? l' = state.tree.node? l') ∧ next.stream = state.stream ∧
      ∃ bytes,
        ((¬ ∃ t ∈ tokens, ∃ c ∈ t.text, 0xff < c.toNat) ∧ reply = .count tokens.length ∧
            Latin1.encode (dump tokens) = .ok bytes ∨
          (∃ t ∈ tokens, ∃ c ∈ t.text, 0xff < c.toNat) ∧
            (∃ e, reply = .failed (.unwritten (.cannotEncode e))) ∧ bytes = []) ∧
        ∀ later, (∀ entry ∈ next.journal later, entry.1 ≠ l) →
          ((next.performAll later).2.perform (.load p)).1 = .bytes bytes) ∧
    state.stream = w.stream ++ before.flatMap textPrinted ∧
    next.stream = state.stream ++ textPrinted call := by
  subst hstate
  have hends := (w.performAll before).2.perform_ends call
  rw [hcall] at hends
  refine ⟨performAll_of_perform hcall, w.node?_performAll before, ?_, ?_, ?_, ?_,
    w.stream_performAll before, hends.stream_eq⟩
  · rintro p rfl
    exact hends.of_load
  · rintro e rfl he
    exact hends.eq_of_failed he
  · intro hc
    rw [hends.tree_eq, fileWritten?_eq_none hc]
    rfl
  · rintro p input tokens l rfl ht ho
    obtain ⟨bytes, rfl, hresult⟩ := hends.of_write ht ho
    refine ⟨fun l' hne => Tree.node?_set_of_ne _ hne _, rfl, bytes, ?_, ?_⟩
    · rcases hresult with ⟨he, hr⟩ | ⟨e, he, hr, hb⟩
      · refine .inl ⟨fun hm => ?_, hr, he⟩
        obtain ⟨e', he'⟩ := (encode_dump_eq_error_iff tokens).2 hm
        rw [he] at he'
        cases he'
      · exact .inr ⟨(encode_dump_eq_error_iff tokens).1 ⟨e, he⟩, ⟨e, hr⟩, hb⟩
    · intro later hlater
      obtain ⟨hp, hdir⟩ := Tree.openForWriting_eq_ok_iff.1 ho
      exact perform_load_performAll (Tree.locate_set hdir hp)
        (Tree.node?_set_self _ (Tree.ne_nil_of_openForWriting ho) _) hlater

/-- A dump with an accent is read back as one byte for each character. A dump with a
character beyond them empties the file, and it stays empty while it is only read. -/
theorem performAll_accent_then_ideograph :
    ((performAll ⟨⟨[(["p"], .file [34])], []⟩, []⟩
      [.write ⟨.current, ["p"]⟩ (.given [⟨.stringConstant, ['é']⟩])]).2.perform
        (.load ⟨.current, ["p"]⟩)).1 =
      .bytes ("Token\x7bType: StringConstant, Value: é\x7d".toList.map Char.toUInt8) ∧
    (∃ e, (performAll ⟨⟨[(["p"], .file [34])], []⟩, []⟩
      [.write ⟨.current, ["p"]⟩ (.given [⟨.stringConstant, ['é']⟩]),
        .write ⟨.current, ["p"]⟩ (.given [⟨.stringConstant, ['é', '字']⟩])]).1[1]? =
      some (.failed (.unwritten (.cannotEncode e)))) ∧
    ((performAll ⟨⟨[(["p"], .file [34])], []⟩, []⟩
      [.write ⟨.current, ["p"]⟩ (.given [⟨.stringConstant, ['é']⟩]),
        .write ⟨.current, ["p"]⟩ (.given [⟨.stringConstant, ['é', '字']⟩]),
        .scanFile ⟨.current, ["p"]⟩]).2.perform (.load ⟨.current, ["p"]⟩)).1 = .bytes [] := by
  obtain ⟨-, -, -, -, -, hfirst, -⟩ := @performAll_effects ⟨⟨[(["p"], .file [34])], []⟩, []⟩ _ _
    [] (.write ⟨.current, ["p"]⟩ (.given [⟨.stringConstant, ['é']⟩])) _ rfl rfl
  obtain ⟨hreply, -, -, -, -, hsecond, -⟩ :=
    @performAll_effects ⟨⟨[(["p"], .file [34])], []⟩, []⟩ _ _
      [.write ⟨.current, ["p"]⟩ (.given [⟨.stringConstant, ['é']⟩])]
      (.write ⟨.current, ["p"]⟩ (.given [⟨.stringConstant, ['é', '字']⟩])) _ rfl rfl
  have hideograph : ∃ t ∈ [(⟨.stringConstant, ['é', '字']⟩ : Token)],
      ∃ c ∈ t.text, 0xff < c.toNat :=
    ⟨_, List.mem_singleton_self _, '字', by decide, by decide⟩
  have haccent : ¬ ∃ t ∈ [(⟨.stringConstant, ['é']⟩ : Token)], ∃ c ∈ t.text, 0xff < c.toNat := by
    rintro ⟨t, ht, c, hc, hlt⟩
    obtain rfl := List.mem_singleton.1 ht
    obtain rfl := List.mem_singleton.1 hc
    exact absurd hlt (by decide)
  obtain ⟨-, -, bytes, hbytes, hload⟩ := hfirst _ _ _ ["p"] rfl rfl rfl
  obtain ⟨-, -, empty, hempty, hlater⟩ := hsecond _ _ _ ["p"] rfl rfl rfl
  obtain ⟨-, -, hencode⟩ | ⟨hm, -⟩ := hbytes
  · obtain ⟨hm, -⟩ | ⟨-, ⟨e, he⟩, rfl⟩ := hempty
    · exact absurd hideograph hm
    · refine ⟨?_, ⟨e, ?_⟩, ?_⟩
      · have hdump : Latin1.encode (dump [⟨.stringConstant, ['é']⟩]) =
            .ok ("Token\x7bType: StringConstant, Value: é\x7d".toList.map Char.toUInt8) := by
          decide
        rw [Except.ok.inj (hdump.symm.trans hencode)]
        exact hload [] (by decide)
      · rw [← he]
        exact (hreply []).1
      · exact hlater [.scanFile ⟨.current, ["p"]⟩] (by decide)
  · exact absurd hm haccent

end Workspace
end Ceng
