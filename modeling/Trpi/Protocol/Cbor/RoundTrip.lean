import Trpi.Protocol.Cbor.Encoder
import Trpi.Protocol.Cbor.Decoder

/-!
# CBOR round trip

What the encoder appends for a value is read back as that value whatever bytes
follow. The induction is on the levels the depth limit leaves, which the two
sides count alike: a map key takes a level in the decoder only, but its value
takes the same level in both.
-/

namespace Trpi.Protocol.Cbor

open Library CborWriter Binary64 List

variable {majorType info v : Nat} {rest : Bytes} {writer written : CborWriter}

theorem head_or (small : info < 32) : majorType <<< 5 ||| info = majorType * 32 + info := by
  rw [← Nat.shiftLeft_add_eq_or_of_lt (i := 5) small, Nat.shiftLeft_eq]

theorem head_majorType (small : info < 32) : (majorType * 32 + info) >>> 5 = majorType := by
  rw [Nat.shiftRight_eq_div_pow]
  omega

theorem head_info (small : info < 32) : (majorType * 32 + info) &&& 0x1f = info := by
  have mask := Nat.and_two_pow_sub_one_eq_mod (majorType * 32 + info) 5
  rw [show 0x1f = 2 ^ 5 - 1 from rfl, mask]
  omega

theorem uint16Value_uint16Bytes (fits : v ≤ 0xffff) : uint16Value (uint16Bytes v) = v := by
  simp only [uint16Value, uint16Bytes, getD_cons_zero, getD_cons_succ,
    UInt8.toNat_ofNat', Nat.shiftRight_eq_div_pow]
  omega

theorem uint32Value_uint32Bytes (fits : v ≤ maxUint32) : uint32Value (uint32Bytes v) = v := by
  simp only [maxUint32] at fits
  simp only [uint32Value, uint32Bytes, getD_cons_zero, getD_cons_succ,
    UInt8.toNat_ofNat', Nat.shiftRight_eq_div_pow]
  omega

theorem readBytes_append {field : Bytes} {length : Nat} (size : field.length = length) :
    readBytes length (field ++ rest) = .ok (field, rest) := by
  have enough : ¬ (field ++ rest).length < length := by
    rw [length_append]
    omega
  rw [readBytes, if_neg enough, take_left' size, drop_left' size]

theorem readUint16_append (fits : v ≤ 0xffff) :
    readUint16 (uint16Bytes v ++ rest) = .ok (v, rest) := by
  have field : readBytes 2 (uint16Bytes v ++ rest) = .ok (uint16Bytes v, rest) :=
    readBytes_append rfl
  rw [readUint16, field]
  exact congrArg (fun n => Except.ok (n, rest)) (uint16Value_uint16Bytes fits)

theorem readUint32_append (fits : v ≤ maxUint32) :
    readUint32 (uint32Bytes v ++ rest) = .ok (v, rest) := by
  have field : readBytes 4 (uint32Bytes v ++ rest) = .ok (uint32Bytes v, rest) :=
    readBytes_append rfl
  rw [readUint32, field]
  exact congrArg (fun n => Except.ok (n, rest)) (uint32Value_uint32Bytes fits)

theorem readUint64_append {high low : Nat} (small : high ≤ 0x1fffff) (fits : low ≤ maxUint32) :
    readUint64 (uint32Bytes high ++ uint32Bytes low ++ rest) =
      .ok (high * uint32Base + low, rest) := by
  have high_fits : high ≤ maxUint32 := by
    unfold maxUint32
    omega
  have first : readUint32 (uint32Bytes high ++ (uint32Bytes low ++ rest)) =
      .ok (high, uint32Bytes low ++ rest) := readUint32_append high_fits
  have second : readUint32 (uint32Bytes low ++ rest) = .ok (low, rest) := readUint32_append fits
  have inRange : ¬ 0x1fffff < high := by omega
  rw [readUint64, append_assoc, first, ok_bind]
  simp only
  rw [second, ok_bind]
  exact if_neg inRange

theorem readArgument_24 (bytes : Bytes) : readArgument 24 bytes = readByte bytes := rfl

theorem readArgument_25 (bytes : Bytes) : readArgument 25 bytes = readUint16 bytes := rfl

theorem readArgument_26 (bytes : Bytes) : readArgument 26 bytes = readUint32 bytes := rfl

theorem readArgument_27 (bytes : Bytes) : readArgument 27 bytes = readUint64 bytes := rfl

theorem writeArgument_appends {value : Nat} (sound : writer.Sound) (safe : value ≤ maxSafeInteger)
    (ok : writeArgument writer majorType value = .ok written) :
    ∃ info field, Appends writer written ([UInt8.ofNat (majorType * 32 + info)] ++ field) ∧
      info < 31 ∧ ∀ rest, readArgument info (field ++ rest) = .ok (value, rest) := by
  have head : ∀ info middle, info < 32 →
      writer.writeByte (majorType <<< 5 ||| info) = .ok middle →
        Appends writer middle [UInt8.ofNat (majorType * 32 + info)] := by
    intro info middle small byte
    rw [head_or small] at byte
    exact write_appends sound byte
  unfold writeArgument at ok
  simp only at ok
  split at ok
  · rename_i tiny
    exact ⟨value, [], head value written (by omega) ok, by omega, fun rest => if_pos tiny⟩
  split at ok
  · obtain ⟨middle, first, ok⟩ := bind_eq_ok ok
    have opened := head 24 middle (by omega) first
    have field : Appends middle written [UInt8.ofNat value] := write_appends opened.sound ok
    have same : (UInt8.ofNat value).toNat = value := by
      rw [UInt8.toNat_ofNat']
      omega
    refine ⟨24, [UInt8.ofNat value], opened.trans field, by omega, fun rest => ?_⟩
    rw [readArgument_24, singleton_append, readByte, same]
  split at ok
  · obtain ⟨middle, first, ok⟩ := bind_eq_ok ok
    have opened := head 25 middle (by omega) first
    have field : Appends middle written (uint16Bytes value) := write_appends opened.sound ok
    refine ⟨25, uint16Bytes value, opened.trans field, by omega, fun rest => ?_⟩
    rw [readArgument_25, readUint16_append (by assumption)]
  split at ok
  · obtain ⟨middle, first, ok⟩ := bind_eq_ok ok
    have opened := head 26 middle (by omega) first
    have field : Appends middle written (uint32Bytes value) := write_appends opened.sound ok
    refine ⟨26, uint32Bytes value, opened.trans field, by omega, fun rest => ?_⟩
    rw [readArgument_26, readUint32_append (by assumption)]
  · obtain ⟨middle, first, ok⟩ := bind_eq_ok ok
    have opened := head 27 middle (by omega) first
    refine ⟨27, _, opened.trans (writeUint64_appends opened.sound ok), by omega, fun rest => ?_⟩
    simp only [maxSafeInteger] at safe
    have high : value / uint32Base ≤ 0x1fffff := by
      unfold uint32Base
      omega
    have low : value - value / uint32Base * uint32Base ≤ maxUint32 := by
      unfold uint32Base maxUint32
      omega
    have whole : value / uint32Base * uint32Base + (value - value / uint32Base * uint32Base) =
        value := by
      unfold uint32Base
      omega
    rw [readArgument_27]
    apply (readUint64_append high low).trans
    rw [whole]

theorem readItem_head {opts : ResolvedCborOptions} {levels : Nat} (major : majorType < 8)
    (small : info < 32) :
    readItem opts (levels + 1) ([UInt8.ofNat (majorType * 32 + info)] ++ rest) =
      readMajor opts (readItem opts levels) majorType info rest := by
  have initial : (UInt8.ofNat (majorType * 32 + info)).toNat = majorType * 32 + info := by
    rw [UInt8.toNat_ofNat']
    omega
  have first : readByte ([UInt8.ofNat (majorType * 32 + info)] ++ rest) =
      .ok (majorType * 32 + info, rest) := by
    rw [singleton_append, readByte, initial]
  rw [readItem, first, ok_bind]
  simp only
  rw [head_majorType small, head_info small]

theorem readItem_contents {opts : ResolvedCborOptions} {levels : Nat} {field contents : Bytes}
    (major : majorType < 8) (small : info < 31) :
    readItem opts (levels + 1)
        ([UInt8.ofNat (majorType * 32 + info)] ++ field ++ contents ++ rest) =
      readMajor opts (readItem opts levels) majorType info (field ++ (contents ++ rest)) := by
  rw [append_assoc, append_assoc, readItem_head major (by omega)]

theorem readLength_ok {length limit : Nat} {kind : String} {bytes : Bytes} (definite : info < 31)
    (within : length ≤ limit) (argument : readArgument info bytes = .ok (length, rest)) :
    readLength info kind limit bytes = .ok (length, rest) := by
  rw [readLength, if_neg (by omega), argument, ok_bind]
  exact if_neg (by omega)

/-- What a value appends, and that it is read back whatever follows. -/
structure ReadsBack (opts : ResolvedCborOptions) (levels : Nat) (before after : CborWriter)
    (bytes : Bytes) (item : Item) : Prop where
  appends : Appends before after bytes
  reads : ∀ rest, readItem opts levels (bytes ++ rest) = .ok (item, rest)

theorem encodeText_readsBack {opts : ResolvedCborOptions} {text : JsString}
    (bounded : opts.maxByteLength ≤ maxUint32) (sound : writer.Sound)
    (ok : encodeText writer text opts = .ok written) (levels : Nat) :
    ∃ bytes, ReadsBack opts (levels + 1) writer written bytes (.string text) := by
  unfold encodeText at ok
  simp only at ok
  split at ok
  · cases ok
  split at ok
  · cases ok
  rename_i within decoded
  have within : (Utf16.textEncode text).length ≤ opts.maxByteLength := by omega
  have decoded : Utf16.textDecode (Utf16.textEncode text) = some text := not_not.mp decoded
  obtain ⟨middle, length, ok⟩ := bind_eq_ok ok
  have safe : (Utf16.textEncode text).length ≤ maxSafeInteger :=
    (within.trans bounded).trans (by decide)
  obtain ⟨info, field, head, small, argument⟩ := writeArgument_appends sound safe length
  have content : Appends middle written (Utf16.textEncode text) := write_appends head.sound ok
  refine ⟨_, head.trans content, fun rest => ?_⟩
  rw [readItem_contents (by omega) small, readMajor, readLength_ok small within (argument _),
    ok_bind]
  simp only
  rw [readBytes_append rfl, ok_bind]
  simp only [decoded]
  rfl

theorem readSimple_float {v : Binary64} (finite : v.isFinite = true)
    (allowed : ¬ (v.isInteger = true ∧ v.isSafeInteger = false)) (rest : Bytes) :
    readSimple 27 (v.toBytes ++ rest) = .ok (.number v, rest) := by
  have field : readBytes 8 (v.toBytes ++ rest) = .ok (v.toBytes, rest) :=
    readBytes_append (length_toBytes v)
  have finite' : ¬ v.isFinite = false := by
    rw [finite]
    decide
  rw [readSimple, field, ok_bind]
  simp only [ofBytes_toBytes]
  rw [if_neg finite', if_neg allowed]
  rfl

theorem encodeNumber_readsBack {opts : ResolvedCborOptions} {v : Binary64}
    (sound : writer.Sound) (ok : encodeNumber writer v = .ok written) (levels : Nat) :
    ∃ bytes, ReadsBack opts (levels + 1) writer written bytes (.number v) := by
  unfold encodeNumber at ok
  split at ok
  · cases ok
  rename_i finite
  rw [Bool.not_eq_false] at finite
  split at ok
  · rename_i integer
    split at ok
    · cases ok
    rename_i safe
    rw [Bool.not_eq_false] at safe
    have back := ofInt_toInt safe integer.2
    have small : v.toInt.natAbs ≤ maxSafeInteger := by
      rw [natAbs_toInt]
      exact (isSafeInteger_iff.mp safe).2
    split at ok
    · rename_i nonneg
      obtain ⟨info, field, head, short, argument⟩ :=
        writeArgument_appends sound (by omega) ok
      refine ⟨_, head, fun rest => ?_⟩
      rw [append_assoc, readItem_head (by omega) (by omega), readMajor, argument, ok_bind]
      simp only [Int.toNat_of_nonneg nonneg, back]
      rfl
    · rename_i negative
      obtain ⟨info, field, head, short, argument⟩ :=
        writeArgument_appends sound (by omega) ok
      refine ⟨_, head, fun rest => ?_⟩
      have value_eq : (-1 : Int) - ((-1 - v.toInt).toNat : Nat) = v.toInt := by omega
      rw [append_assoc, readItem_head (by omega) (by omega), readMajor, argument, ok_bind]
      simp only [value_eq, back]
      rw [if_neg (Nat.not_lt.mpr small)]
      rfl
  · rename_i notInteger
    have stored : Appends writer written (0xfb :: v.toBytes) := by
      apply write_appends sound
      rw [length_cons, length_toBytes]
      exact ok
    have allowed : ¬ (v.isInteger = true ∧ v.isSafeInteger = false) := by
      rintro ⟨integer, unsafe_⟩
      have zero : v = negativeZero := by
        by_contra other
        exact notInteger ⟨integer, other⟩
      rw [zero] at unsafe_
      exact absurd unsafe_ (by decide +kernel)
    refine ⟨_, stored, fun rest => ?_⟩
    have head : readItem opts (levels + 1)
        ([UInt8.ofNat (7 * 32 + 27)] ++ (v.toBytes ++ rest)) =
          readMajor opts (readItem opts levels) 7 27 (v.toBytes ++ rest) :=
      readItem_head (by omega) (by omega)
    exact head.trans (readSimple_float finite allowed rest)

/-- Encoding at these levels writes what the decoder reads as the same value. -/
def Agrees (heap : Heap) (opts : ResolvedCborOptions) (levels : Nat)
    (encode : Value → CborWriter → Except Failure CborWriter) : Prop :=
  ∀ value writer written, writer.Sound → encode value writer = .ok written →
    ∃ bytes item, ReadsBack opts levels writer written bytes item ∧ SameValue heap value item

variable {heap : Heap} {opts : ResolvedCborOptions} {levels : Nat}
  {encode : Value → CborWriter → Except Failure CborWriter} {entries : List (JsString × Value)}
  {ancestors : List Ref}

theorem encodeElements_readsBack (agrees : Agrees heap opts levels encode)
    {elements : List (Option Value)} (sound : writer.Sound)
    (ok : encodeElements encode elements writer = .ok written) :
    ∃ bytes items, Appends writer written bytes ∧ SameElements heap elements items ∧
      ∀ rest, readElements (readItem opts levels) elements.length (bytes ++ rest) =
        .ok (items, rest) := by
  induction elements generalizing writer with
  | nil =>
    cases ok
    exact ⟨[], [], sound.appends_nil, .nil, fun rest => rfl⟩
  | cons element elements ih =>
    cases element with
    | none => cases ok
    | some v =>
      have ok : (do let writer ← encode v writer
                    encodeElements encode elements writer) = Except.ok written := by
        cases v <;> first | exact ok | cases ok
      obtain ⟨middle, first, ok⟩ := bind_eq_ok ok
      obtain ⟨headBytes, item, head, same⟩ := agrees v writer middle sound first
      obtain ⟨tailBytes, items, tail, sameTail, reads⟩ := ih head.appends.sound ok
      refine ⟨headBytes ++ tailBytes, item :: items, head.appends.trans tail,
        .cons same sameTail, fun rest => ?_⟩
      rw [append_assoc, length_cons, readElements, head.reads, ok_bind]
      simp only
      rw [reads, ok_bind]
      rfl

theorem encodeValue_pos {v : Value}
    (ok : encodeValue heap opts levels ancestors v writer = .ok written) :
    ∃ below, levels = below + 1 := by
  cases levels with
  | zero => cases ok
  | succ below => exact ⟨below, rfl⟩

theorem encodeEntries_readsBack
    (bounded : opts.maxByteLength ≤ maxUint32)
    (agrees : Agrees heap opts levels (encodeValue heap opts levels ancestors))
    {keys : List JsString} (sound : writer.Sound)
    (nodup : (entries.map Prod.fst).Nodup) (fresh : ∀ e ∈ entries, e.1 ∉ keys)
    (ok : encodeEntries opts (encodeValue heap opts levels ancestors) entries writer =
      .ok written) :
    ∃ bytes items, Appends writer written bytes ∧ SameEntries heap entries items ∧
      ∀ rest, readEntries (readItem opts levels) entries.length keys (bytes ++ rest) =
        .ok (items, rest) := by
  induction entries generalizing writer keys with
  | nil =>
    cases ok
    exact ⟨[], [], sound.appends_nil, .nil, fun rest => rfl⟩
  | cons e entries ih =>
    obtain ⟨key, v⟩ := e
    obtain ⟨keyed, first, ok⟩ := bind_eq_ok ok
    obtain ⟨middle, second, ok⟩ := bind_eq_ok ok
    obtain ⟨below, rfl⟩ := encodeValue_pos second
    obtain ⟨keyBytes, text⟩ := encodeText_readsBack bounded sound first below
    obtain ⟨valueBytes, item, head, same⟩ := agrees v keyed middle text.appends.sound second
    rw [map_cons, nodup_cons] at nodup
    have later : ∀ e ∈ entries, e.1 ∉ keys ++ [key] := by
      intro e mem
      rw [mem_append, mem_singleton, not_or]
      exact ⟨fresh e (mem_cons_of_mem _ mem),
        fun repeated => nodup.1 (mem_map.mpr ⟨e, mem, repeated⟩)⟩
    obtain ⟨tailBytes, items, tail, sameTail, reads⟩ :=
      ih head.appends.sound nodup.2 later ok
    refine ⟨keyBytes ++ (valueBytes ++ tailBytes), (key, item) :: items,
      text.appends.trans (head.appends.trans tail), .cons key same sameTail, fun rest => ?_⟩
    have unseen : key ∉ keys := fresh (key, v) mem_cons_self
    rw [append_assoc, append_assoc, length_cons, readEntries, text.reads, ok_bind]
    simp only
    rw [if_neg unseen, head.reads, ok_bind]
    simp only
    rw [reads, ok_bind]
    rfl

theorem sameEntries_of_defined {items : List (JsString × Item)}
    (same : SameEntries heap (entries.filter fun e => e.2 ≠ .undefined) items) :
    SameEntries heap entries items := by
  induction entries generalizing items with
  | nil => exact same
  | cons e entries ih =>
    obtain ⟨key, v⟩ := e
    by_cases missing : v = .undefined
    · subst missing
      rw [filter_cons_of_neg (by simp)] at same
      exact .undefined key (ih same)
    · rw [filter_cons_of_pos (by simpa using missing)] at same
      cases same with
      | undefined _ _ => exact absurd rfl missing
      | cons _ head tail => exact .cons key head (ih tail)

theorem definedEntries_nodup (members : Members) :
    ((definedEntries members).map Prod.fst).Nodup :=
  members.nodup.sublist (filter_sublist.map Prod.fst)

theorem encodeValue_agrees (bounded : opts.maxByteLength ≤ maxUint32)
    (c : opts.maxContainerLength ≤ maxUint32) (levels : Nat) (ancestors : List Ref) :
    Agrees heap opts levels (encodeValue heap opts levels ancestors) := by
  induction levels generalizing ancestors with
  | zero =>
    intro v writer written sound ok
    cases ok
  | succ levels ih =>
    intro v writer written sound ok
    have uint32_safe : maxUint32 ≤ maxSafeInteger := by decide
    cases v with
    | undefined => cases ok
    | unsupported typeName => cases ok
    | null =>
      exact ⟨[0xf6], .null, ⟨write_appends sound ok, fun rest => rfl⟩, .null⟩
    | boolean flag =>
      cases flag with
      | false => exact ⟨[0xf4], .boolean false, ⟨write_appends sound ok, fun rest => rfl⟩, .boolean _⟩
      | true => exact ⟨[0xf5], .boolean true, ⟨write_appends sound ok, fun rest => rfl⟩, .boolean _⟩
    | number number =>
      obtain ⟨bytes, back⟩ := encodeNumber_readsBack sound ok levels
      exact ⟨bytes, .number number, back, .number number⟩
    | string text =>
      obtain ⟨bytes, back⟩ := encodeText_readsBack bounded sound ok levels
      exact ⟨bytes, .string text, back, .string text⟩
    | object ref =>
      rw [encodeValue] at ok
      split at ok
      · rename_i contents stored
        split at ok
        · cases ok
        rename_i within
        obtain ⟨middle, head, ok⟩ := bind_eq_ok ok
        obtain ⟨info, field, opened, small, argument⟩ :=
          writeArgument_appends sound (by omega) head
        have body : Appends middle written contents := write_appends opened.sound ok
        refine ⟨_, .bytes contents, ⟨opened.trans body, fun rest => ?_⟩, .bytes stored⟩
        rw [readItem_contents (by omega) small, readMajor,
          readLength_ok small (by omega) (argument _), ok_bind]
        simp only
        rw [readBytes_append rfl, ok_bind]
        rfl
      · rename_i elements stored
        split at ok
        · cases ok
        split at ok
        · cases ok
        rename_i within
        obtain ⟨middle, head, ok⟩ := bind_eq_ok ok
        obtain ⟨info, field, opened, small, argument⟩ :=
          writeArgument_appends sound (by omega) head
        obtain ⟨bytes, items, body, same, reads⟩ :=
          encodeElements_readsBack (ih (ref :: ancestors)) opened.sound ok
        refine ⟨_, .array items, ⟨opened.trans body, fun rest => ?_⟩, .array stored same⟩
        rw [readItem_contents (by omega) small, readMajor,
          readLength_ok small (by omega) (argument _), ok_bind]
        simp only
        rw [reads, ok_bind]
        rfl
      · rename_i enumerableSymbol members stored
        split at ok
        · cases ok
        split at ok
        · cases ok
        split at ok
        · cases ok
        rename_i within
        obtain ⟨middle, head, ok⟩ := bind_eq_ok ok
        obtain ⟨info, field, opened, small, argument⟩ :=
          writeArgument_appends sound (by omega) head
        obtain ⟨bytes, items, body, same, reads⟩ :=
          encodeEntries_readsBack bounded (ih (ref :: ancestors)) opened.sound
            (definedEntries_nodup members) (fun _ _ => not_mem_nil) ok
        refine ⟨_, .object items, ⟨opened.trans body, fun rest => ?_⟩,
          .object stored (sameEntries_of_defined same)⟩
        rw [readItem_contents (by omega) small, readMajor,
          readLength_ok small (by omega) (argument _), ok_bind]
        simp only
        rw [reads, ok_bind]
        rfl
      · cases ok

/-- Whatever the encoder accepts, the decoder reads back under the same options. -/
theorem decodeCbor_encodeCbor {heap : Heap} {v : Value} {opts : CborOptions} {bytes : Bytes}
    (encoded : encodeCbor heap v opts = .ok bytes) :
    ∃ item, decodeCbor bytes opts = .ok item ∧ SameValue heap v item := by
  obtain ⟨resolved, limits, encoded⟩ := bind_eq_ok encoded
  obtain ⟨written, ok, finished⟩ := bind_eq_ok encoded
  cases finished
  obtain ⟨bounded, c, -⟩ := resolveOptions_le limits
  obtain ⟨bytes, item, back, same⟩ := encodeValue_agrees bounded c _ _ _ _ _
    (create_sound resolved.maxByteLength) ok
  have all : written.finish = bytes := back.appends.finish_eq
  have short : ¬ resolved.maxByteLength < written.finish.length := by
    have limit := back.appends.sound.offset_le_max
    rw [back.appends.max_eq] at limit
    rw [CborWriter.finish, List.length_take]
    exact Nat.not_lt.mpr ((Nat.min_le_left _ _).trans limit)
  have read : readItem resolved (resolved.maxDepth + 1) written.finish = .ok (item, []) := by
    rw [all, ← back.reads [], List.append_nil]
  refine ⟨item, ?_, same⟩
  rw [decodeCbor, limits, ok_bind, if_neg short, read]
  rfl

def sampleHeap : Heap
  | 0 => .plain false
    { entries := [([0x6b], .object 1), ([0x75], .undefined)]
      nodup := by decide }
  | 1 => .array [some (.number (Binary64.ofInt (-1))), some .null]
  | _ => .other

theorem decodeCbor_encodeCbor_sample :
    ∃ item, decodeCbor [0xa1, 0x61, 0x6b, 0x82, 0x20, 0xf6] .none = .ok item ∧
      SameValue sampleHeap (.object 0) item :=
  decodeCbor_encodeCbor (by decide +kernel)

end Trpi.Protocol.Cbor
