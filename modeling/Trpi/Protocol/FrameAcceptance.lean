import Trpi.Protocol.FrameDecoding

/-!
# What the frame decoder accepts

The streams of frames within the limit are delivered as their payloads, and no others are.
-/

namespace Trpi.Protocol

open Library FrameDecoder List

variable {limit : Nat}

/-- The bytes of the frame that is not complete. -/
def Scan.bytes : Scan → Bytes
  | .header held => held
  | .payload expected held => frameHeader expected ++ held

/-- What is not complete could be the start of a frame within the limit. -/
def Scan.Sound (limit : Nat) : Scan → Prop
  | .header held => held.length < frameHeaderLength
  | .payload expected held => held.length < expected ∧ expected ≤ limit

/-- The frames of payloads that fit. -/
def framed (payloads : List Bytes) : Bytes :=
  payloads.flatMap fun payload => frameHeader payload.length ++ payload

theorem frameHeader_frameLength {header : Bytes} (full : header.length = frameHeaderLength) :
    frameHeader (frameLength header) = header := by
  obtain ⟨a, b, c, d, rfl⟩ := length_eq_four.mp full
  have byte : ∀ {n : Nat} {x : UInt8}, n % 256 = x.toNat → UInt8.ofNat n = x := fun same =>
    UInt8.toNat_inj.mp ((UInt8.toNat_ofNat' ..).trans same)
  have a_ := a.toNat_lt
  have b_ := b.toNat_lt
  have c_ := c.toNat_lt
  have d_ := d.toNat_lt
  simp only [frameLength, frameHeader, getD_cons_zero, getD_cons_succ, Nat.shiftRight_eq_div_pow,
    cons.injEq, and_true]
  refine ⟨byte ?_, byte ?_, byte ?_, byte ?_⟩ <;> omega

theorem scanByte_sound {s next : Scan} {byte : UInt8} {payloads : List Bytes}
    (sound : s.Sound limit) (scanned : scanByte limit s byte = .ok (next, payloads)) :
    next.Sound limit ∧ s.bytes ++ [byte] = framed payloads ++ next.bytes ∧
      ∀ payload ∈ payloads, payload.length ≤ limit := by
  cases s with
  | header held =>
    rw [scanByte] at scanned
    split_ifs at scanned with short
    · cases scanned
      exact ⟨by simpa [Scan.Sound] using short, rfl, fun _ => nofun⟩
    · have full : (held ++ [byte]).length = frameHeaderLength := by
        have below : held.length < frameHeaderLength := sound
        rw [length_append, length_singleton]
        omega
      have header := frameHeader_frameLength full
      unfold startFrame at scanned
      dsimp only at scanned
      split_ifs at scanned with long none_
      · cases scanned
        refine ⟨Nat.zero_lt_succ 3, ?_, by simp⟩
        rw [Scan.bytes, ← header, none_]
        rfl
      · cases scanned
        refine ⟨⟨Nat.pos_of_ne_zero none_, Nat.le_of_not_lt long⟩, ?_, fun _ => nofun⟩
        change held ++ [byte] = [] ++ (frameHeader _ ++ [])
        rw [header, nil_append, append_nil]
  | payload expected held =>
    obtain ⟨pending, fits⟩ := sound
    rw [scanByte] at scanned
    split_ifs at scanned with short
    · cases scanned
      refine ⟨⟨by simpa using short, fits⟩, ?_, fun _ => nofun⟩
      exact append_assoc ..
    · cases scanned
      have full : (held ++ [byte]).length = expected := by
        rw [length_append, length_singleton]
        omega
      refine ⟨Nat.zero_lt_succ 3, ?_, by simpa [full] using fits⟩
      simp [framed, Scan.bytes, full]

theorem transduce_sound {s next : Scan} {bytes : Bytes} {payloads : List Bytes}
    (sound : s.Sound limit) (scanned : transduce (scanByte limit) s bytes = .ok (next, payloads)) :
    s.bytes ++ bytes = framed payloads ++ next.bytes ∧
      ∀ payload ∈ payloads, payload.length ≤ limit := by
  induction bytes generalizing s payloads with
  | nil =>
    cases scanned
    exact ⟨append_nil _, fun _ => nofun⟩
  | cons byte rest ih =>
    cases stepped : scanByte limit s byte with
    | error reason =>
      rw [transduce_cons_error stepped] at scanned
      cases scanned
    | ok reached =>
      obtain ⟨middle, first⟩ := reached
      rw [transduce_cons_ok stepped] at scanned
      cases tail : transduce (scanByte limit) middle rest with
      | error reason =>
        rw [tail] at scanned
        cases scanned
      | ok last =>
        rw [tail] at scanned
        cases scanned
        obtain ⟨opened, head, fit⟩ := scanByte_sound sound stepped
        obtain ⟨others, fits⟩ := ih opened tail
        constructor
        · rw [framed, flatMap_append, append_cons, head, append_assoc, others, ← append_assoc]
          rfl
        · exact fun payload mem => (mem_append.mp mem).elim (fit payload) (fits payload)

/-- The decoder accepts what is framed within its limit, in any chunks, and nothing else. -/
theorem framed_iff {maxFrameLength : Option Int} {d : FrameDecoder}
    (created : create maxFrameLength = .ok d) (chunks payloads : List Bytes) :
    d.Delivers chunks payloads ↔
      (∀ payload ∈ payloads, payload.length ≤ d.maxFrameLength) ∧
        ∃ frames, payloads.mapM encodeFrame = .ok frames ∧ chunks.flatten = frames.flatten := by
  obtain ⟨ready, atStart, bounded⟩ := create_ready created
  have pushed := pushes_transduces ready chunks
  have start : (Scan.header []).Sound d.maxFrameLength := Nat.zero_lt_succ 3
  rw [atStart] at pushed
  constructor
  · rintro ⟨⟨delivered, results, same⟩, ended⟩
    cases stream : transduce (scanByte d.maxFrameLength) (.header []) chunks.flatten with
    | error reason =>
      rw [stream] at pushed
      obtain ⟨cause, mem⟩ := pushed
      rw [results] at mem
      simp at mem
    | ok done =>
      rw [stream] at pushed
      obtain ⟨⟨others, again, flat⟩, reached⟩ := pushed
      have delivers : others = delivered :=
        map_injective_iff.mpr (fun _ _ => Except.ok.inj) (again.symm.trans results)
      rw [delivers, same] at flat
      have complete := reached.scan.symm.trans ((end_ok_iff reached.ready).mp ended)
      rw [show done = (.header [], payloads) from Prod.ext complete flat.symm] at stream
      obtain ⟨bytes, fits⟩ := transduce_sound start stream
      obtain ⟨frames, encoded, scanned⟩ := scan_encodeFrames bounded fits
      exact ⟨fits, frames, encoded, bytes.trans (transduce_sound start scanned).1.symm⟩
  · rintro ⟨fits, frames, encoded, cut⟩
    obtain ⟨others, again, scanned⟩ := scan_encodeFrames bounded fits
    cases encoded.symm.trans again
    rw [cut, scanned] at pushed
    exact ⟨pushed.1, (end_ok_iff pushed.2.ready).mpr pushed.2.scan⟩

theorem framed_iff_default :
    ∃ d, create none = .ok d ∧ d.Delivers [[0, 0], [0, 1, 7]] [[7]] := by
  obtain ⟨d, created⟩ : ∃ d, create none = .ok d := ⟨_, rfl⟩
  refine ⟨d, created, (framed_iff created _ _).mpr ⟨?_, _, rfl, rfl⟩⟩
  cases created
  decide

end Trpi.Protocol
