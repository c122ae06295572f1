import Trpi.Session.Jsonl.Storage

/-!
# The log of a session file

A format-4 file is a header line and one line for each transaction. `Log` says
which header and state its lines stand for. Opening a file reads the log of its
complete lines, whatever an unterminated tail holds, and a commit extends the
log of the file it appends to by one line.
-/

namespace Trpi.Session.Jsonl

open Library InMemoryStorageState List Except
open Library.Utf8 (encode decode newlineByte)

variable {N : Type} [JsonNumber N] [Add N] [Zero N] {writes : List (JsonlCommittedWrite N)}
  {number : Nat} {next : JsonlState N}

theorem replayLines_append (number : Nat) (s : JsonlState N) (first second : List (List Char)) :
    replayLines number s (first ++ second) =
      match replayLines number s first with
      | .error reason => .error reason
      | .ok next => replayLines (number + first.length) next second := by
  induction first generalizing number s with
  | nil => rfl
  | cons line rest ih =>
    rw [cons_append, replayLines, replayLines]
    cases replayLine s line with
    | error cause => rfl
    | ok next =>
      simp only [ih, length_cons]
      rw [Nat.add_right_comm, Nat.add_assoc number]

section

omit [JsonNumber N]

theorem replayCommitted_ok_iff (s next : JsonlState N) (writes : List (JsonlCommittedWrite N)) :
    replayCommitted s writes = .ok next ↔
      s.validateCommitted writes = .ok () ∧
        ∃ stats, s.applyValidated writes = (next, .ok stats) := by
  unfold replayCommitted
  split
  · next reason refused => simp [refused]
  · next accepted =>
    split
    · next reached reason applied => simp [applied]
    · next reached stats applied => simp [accepted, applied]

theorem replayCommitted_one_iff (s next : JsonlState N) (write : JsonlCommittedWrite N) :
    replayCommitted s [write] = .ok next ↔ s.Admits write ∧ s.applyWrite write = .ok next := by
  rw [replayCommitted_ok_iff]
  cases applied : s.applyWrite write with
  | error reason => simp [applyValidated, applied]
  | ok reached =>
    rw [validateCommitted_cons_iff applied]
    simp [applyValidated, applied, validateCommitted_nil]

theorem replayCommitted_invariant {s : JsonlState N} (inv : StoreInvariant s)
    (replayed : replayCommitted s writes = .ok next) : StoreInvariant next := by
  obtain ⟨valid, stats, applied⟩ := (replayCommitted_ok_iff s next writes).mp replayed
  have kept := applyValidated_invariant inv valid
  rwa [applied] at kept

end

theorem replayLines_invariant {s : JsonlState N} {lines : List (List Char)} (inv : StoreInvariant s)
    (replayed : replayLines number s lines = .ok next) : StoreInvariant next := by
  induction lines generalizing number s with
  | nil => rwa [← ok.inj replayed]
  | cons line rest ih =>
    rw [replayLines] at replayed
    cases first : replayLine s line with
    | error cause => simp [first] at replayed
    | ok reached =>
      rw [first] at replayed
      refine ih ?_ replayed
      unfold replayLine at first
      split at first
      · cases first
      · exact replayCommitted_invariant inv first

omit [JsonNumber N] [Add N] [Zero N] in
theorem advanceTo_ok_iff (replayed s : JsonlState N) (mark : Option Nat) :
    advanceTo replayed mark = .ok s ↔
      (∀ n ∈ mark, 1 ≤ n) ∧ s = replayed.withNextSeq (max replayed.nextSeq (mark.getD 0)) := by
  cases mark with
  | none => simp [advanceTo, withNextSeq_self, eq_comm]
  | some n =>
    simp only [advanceTo, advanceNextSeq, Option.mem_some_iff, forall_eq', Option.getD_some]
    by_cases small : n < 1
    · rw [if_pos small]
      simp only [reduceCtorEq, false_iff, not_and]
      omega
    · rw [if_neg small]
      simp only [ok.injEq, withNextSeq, eq_comm]
      simp only [show 1 ≤ n by omega, true_and]

/-- The header line and transaction lines that stand for a header and a state. -/
structure Log (dateParse : String → Option Int) (lines : List (List Char))
    (header : JsonlStorageHeader) (s : JsonlState N) : Prop where
  single : ∀ line ∈ lines, '\n' ∉ line
  headed : ∃ first ∈ lines.head?, first ≠ [] ∧
    parseJsonlSessionHeader N dateParse first = .ok (.v4 header)
  version : header.storageVersion = jsonlStorageVersion
  replays : ∃ replayed, replayLines 2 .initial (lines.drop 1) = .ok replayed ∧
    advanceTo replayed header.nextSeq = .ok s

variable {dateParse : String → Option Int} {lines : List (List Char)} {header : JsonlStorageHeader}
  {s : JsonlState N} {transactions : List (List (JsonlCommittedWrite N))} {tail : List UInt8}

theorem Log.nonempty (log : Log dateParse lines header s) : lines ≠ [] := by
  obtain ⟨first, isFirst, -⟩ := log.headed
  rintro rfl
  cases isFirst

theorem Log.invariant (log : Log dateParse lines header s) : StoreInvariant s := by
  obtain ⟨replayed, ran, advanced⟩ := log.replays
  obtain ⟨-, rfl⟩ := (advanceTo_ok_iff _ _ _).mp advanced
  exact withNextSeq_invariant (replayLines_invariant initial_invariant ran) (Nat.le_max_left _ _)

theorem splitCompleteLines_cut {lines : List (List Char)} (single : ∀ line ∈ lines, '\n' ∉ line)
    (nonempty : lines ≠ []) (unterminated : newlineByte ∉ tail) :
    splitCompleteLines (decode (lineBytes lines ++ tail)) = (lines, decide (tail ≠ [])) := by
  rw [splitCompleteLines, splitLines_decode_cut single unterminated, lineBytes,
    Utf8.decode_encode_append, getLast?_append]
  by_cases whole : tail = []
  · subst whole
    simp [getLast?_joinLines nonempty]
  · obtain ⟨last, isLast⟩ := Option.ne_none_iff_exists'.mp
      (mt getLast?_eq_none_iff.mp (Utf8.decode_ne_nil whole))
    have torn : last ≠ '\n' := fun same =>
      unterminated (Utf8.newline_of_decode (same ▸ mem_of_getLast? isLast))
    simp [isLast, torn, whole]

theorem Log.open_cut (log : Log dateParse lines header s) (unterminated : newlineByte ∉ tail) :
    openStorage dateParse (lineBytes lines ++ tail) =
      .ok (some { header := header, file := lineBytes lines, state := s }) := by
  obtain ⟨first, isFirst, filled, parsed⟩ := log.headed
  obtain ⟨replayed, ran, advanced⟩ := log.replays
  obtain ⟨rest, rfl⟩ : ∃ rest, lines = first :: rest := by
    cases lines with
    | nil => cases isFirst
    | cons line rest => exact ⟨rest, by rw [Option.mem_some_iff.mp isFirst]⟩
  have whole : (if decide (tail ≠ []) = true then lineBytes (first :: rest)
      else lineBytes (first :: rest) ++ tail) = lineBytes (first :: rest) := by
    by_cases empty : tail = [] <;> simp [empty]
  rw [openStorage, readJsonlHeader, splitLines_decode_cut log.single unterminated]
  simp only [if_neg filled, parsed, Except.mapError, openV4,
    splitCompleteLines_cut log.single log.nonempty unterminated, log.version, ne_eq,
    not_true_eq_false, if_false, ran, advanced, whole, Except.map]

theorem Log.open_file (log : Log dateParse lines header s) :
    openStorage dateParse (lineBytes lines) =
      .ok (some { header := header, file := lineBytes lines, state := s }) := by
  have noTail : newlineByte ∉ ([] : List UInt8) := not_mem_nil
  have opened := log.open_cut noTail
  rwa [append_nil] at opened

theorem log_of_open {storage : V4Storage N} (single : ∀ line ∈ lines, '\n' ∉ line)
    (opened : openStorage dateParse (lineBytes lines) = .ok (some storage)) :
    Log dateParse lines storage.header storage.state ∧ storage.file = lineBytes lines := by
  have noTail : newlineByte ∉ ([] : List UInt8) := not_mem_nil
  have text := splitLines_decode_cut single noTail
  rw [append_nil] at text
  rw [openStorage, readJsonlHeader, text] at opened
  cases lines with
  | nil => cases opened
  | cons first rest =>
    have split := splitCompleteLines_cut single (cons_ne_nil first rest) noTail
    rw [append_nil] at split
    by_cases filled : first = []
    · simp [filled] at opened
    · simp only [if_neg filled] at opened
      cases parsed : parseJsonlSessionHeader N dateParse first with
      | error reason => simp [parsed, Except.mapError] at opened
      | ok parsedHeader =>
        cases parsedHeader with
        | legacyV3 legacy => simp [parsed, Except.mapError] at opened
        | v4 header =>
          simp only [parsed, Except.mapError, openV4, split, ne_eq, not_true_eq_false,
            decide_false, Bool.false_eq_true, if_false, drop_succ_cons, drop_zero] at opened
          by_cases version : header.storageVersion = jsonlStorageVersion
          · rw [if_neg (not_not.mpr version)] at opened
            cases ran : replayLines 2 (.initial : JsonlState N) rest with
            | error reason => simp [ran, Except.map] at opened
            | ok replayed =>
              rw [ran] at opened
              cases advanced : advanceTo replayed header.nextSeq with
              | error reason => simp [advanced, Except.map] at opened
              | ok s =>
                simp only [advanced, Except.map, ok.injEq, Option.some.injEq] at opened
                subst opened
                exact ⟨⟨single, ⟨first, rfl, filled, parsed⟩, version, replayed, ran, advanced⟩, rfl⟩
          · rw [if_pos version] at opened
            simp [Except.map] at opened

omit [JsonNumber N] [Add N] [Zero N] in
theorem commitWrites_positive (s : JsonlState N) (positive : 1 ≤ s.nextSeq)
    (writes : List (JsonlWrite N)) (now : Nat) :
    ∀ write ∈ commitWrites writes s.nextSeq now, 1 ≤ write.seq := by
  intro write mem
  have listed : write.seq ∈ (commitWrites writes s.nextSeq now).map CommittedWrite.seq :=
    mem_map_of_mem mem
  rw [commitWrites_seqs, mem_range'_1] at listed
  omega

theorem Log.append (log : Log dateParse lines header s) (nonempty : writes ≠ [])
    (positive : ∀ write ∈ writes, 1 ≤ write.seq) (valid : s.validateCommitted writes = .ok ())
    {stats : SessionStats N} (applied : s.applyValidated writes = (next, .ok stats)) :
    Log dateParse (lines ++ [serializeJsonlTransaction writes]) header next := by
  obtain ⟨first, isFirst, filled, parsed⟩ := log.headed
  obtain ⟨replayed, ran, advanced⟩ := log.replays
  obtain ⟨mark, rfl⟩ := (advanceTo_ok_iff _ _ _).mp advanced
  have further := applyValidated_nextSeq_le valid
  rw [applied, withNextSeq_nextSeq] at further
  have below := validateCommitted_lower (Nat.le_max_left _ _) valid
  have alike := applyValidated_withNextSeq nonempty applied
  have line : replayLine replayed (serializeJsonlTransaction writes) = .ok next := by
    rw [replayLine, parseJsonlTransaction_serialize positive]
    exact (replayCommitted_ok_iff replayed next writes).mpr ⟨below, stats, alike⟩
  refine ⟨?_, ⟨first, ?_, filled, parsed⟩, log.version, next, ?_, ?_⟩
  · intro other mem
    rcases mem_append.mp mem with earlier | last
    · exact log.single other earlier
    · rw [mem_singleton.mp last]
      exact serializeJsonlTransaction_single writes
  · rw [head?_append_of_ne_nil _ log.nonempty]
    exact isFirst
  · have inside : 1 ≤ lines.length := length_pos_of_ne_nil log.nonempty
    rw [drop_append_of_le_length inside, replayLines_append, ran]
    simp [replayLines, line]
  · refine (advanceTo_ok_iff _ _ _).mpr ⟨mark, ?_⟩
    simp only at further
    rw [Nat.max_eq_left (by omega), withNextSeq_self]

theorem replayLines_serialize {s last : JsonlState N} (positive : 1 ≤ s.nextSeq)
    (ran : run replayCommitted s transactions = .ok last) :
    replayLines number s (transactions.map serializeJsonlTransaction) = .ok last := by
  induction transactions generalizing number s with
  | nil => exact congrArg ok (ok.inj ran)
  | cons writes rest ih =>
    obtain ⟨next, replayed, ran⟩ := run_cons_eq_ok.mp ran
    obtain ⟨valid, stats, applied⟩ := (replayCommitted_ok_iff s next writes).mp replayed
    have further := applyValidated_nextSeq_le valid
    have seqs := (validateCommittedWrites_seqs valid).1
    have line : replayLine s (serializeJsonlTransaction writes) = .ok next := by
      rw [replayLine, parseJsonlTransaction_serialize fun write mem =>
        Nat.le_trans positive (seqs write mem)]
      exact replayed
    rw [applied] at further
    rw [map_cons, replayLines, line]
    exact ih (Nat.le_trans positive further) ran

/-- The lines `publishJsonl` writes. -/
def publishedLines (header : JsonlStorageHeader)
    (transactions : List (List (JsonlCommittedWrite N))) : List (List Char) :=
  headerLine N header :: transactions.map serializeJsonlTransaction

theorem published_log (valid : header.Valid) (version : header.storageVersion = jsonlStorageVersion)
    {replayed : JsonlState N} (ran : run replayCommitted .initial transactions = .ok replayed)
    (advanced : advanceTo replayed header.nextSeq = .ok s) :
    Log dateParse (publishedLines header transactions) header s where
  single line mem := by
    rcases mem_cons.mp mem with rfl | mem
    · exact headerLine_single header
    · obtain ⟨writes, -, rfl⟩ := mem_map.mp mem
      exact serializeJsonlTransaction_single writes
  headed := ⟨headerLine N header, rfl, headerLine_ne_nil header,
    parseJsonlSessionHeader_headerLine dateParse valid⟩
  version := version
  replays := ⟨replayed, replayLines_serialize (Nat.le_refl 1) ran, advanced⟩

end Trpi.Session.Jsonl
