import Trpi.Protocol.Cbor.Canonical

/-!
# Encoding what was decoded

A value that holds an item within the limits is encoded in as many bytes as the item's size, where
the byte limit leaves room for them.
-/

namespace Trpi.Protocol.Cbor

open Library CborWriter List

namespace CborWriter

def HasRoom (writer : CborWriter) (bytes : Nat) : Prop :=
  writer.offset + bytes ≤ writer.maxByteLength

structure Wrote (before after : CborWriter) (bytes : Nat) : Prop where
  sound : after.Sound
  max_eq : after.maxByteLength = before.maxByteLength
  offset_eq : after.offset = before.offset + bytes

variable {writer : CborWriter} {m n : Nat} {bytes : Bytes}

theorem Sound.finish_length (sound : writer.Sound) : writer.finish.length = writer.offset := by
  rw [finish, length_take]
  exact Nat.min_eq_left sound.offset_le

theorem Appends.wrote {before after : CborWriter} (sound : before.Sound)
    (appends : Appends before after bytes) : Wrote before after bytes.length := by
  refine ⟨appends.sound, appends.max_eq, ?_⟩
  rw [← appends.sound.finish_length, appends.finish_eq, length_append, sound.finish_length]

theorem Wrote.trans {first second third : CborWriter} (head : Wrote first second m)
    (tail : Wrote second third n) : Wrote first third (m + n) := by
  refine ⟨tail.sound, tail.max_eq.trans head.max_eq, ?_⟩
  rw [tail.offset_eq, head.offset_eq, Nat.add_assoc]

theorem Wrote.room {before after : CborWriter} (wrote : Wrote before after m)
    (room : before.HasRoom (m + n)) : after.HasRoom n := by
  rw [HasRoom, wrote.offset_eq, wrote.max_eq, Nat.add_assoc]
  exact room

theorem HasRoom.le (room : writer.HasRoom n) (less : m ≤ n) : writer.HasRoom m :=
  Nat.le_trans (Nat.add_le_add_left less _) room

theorem ensureCapacity_succeeds {bytes : Nat} (room : writer.HasRoom bytes) :
    ∃ grown, writer.ensureCapacity bytes = .ok grown := by
  have fits : writer.offset + bytes ≤ writer.maxByteLength := room
  rw [ensureCapacity, dif_pos fits]
  split
  · exact ⟨_, rfl⟩
  · exact ⟨_, rfl⟩

theorem write_succeeds (sound : writer.Sound) (room : writer.HasRoom bytes.length) :
    ∃ written, (do let grown ← writer.ensureCapacity bytes.length
                   return grown.store bytes) = Except.ok written ∧
      Wrote writer written bytes.length := by
  obtain ⟨grown, reserved⟩ := ensureCapacity_succeeds room
  have ok : (do let grown ← writer.ensureCapacity bytes.length
                return grown.store bytes) = Except.ok (grown.store bytes) := by
    rw [reserved]
    rfl
  exact ⟨_, ok, (write_appends sound ok).wrote sound⟩

theorem writeByte_succeeds {v : Nat} (sound : writer.Sound) (room : writer.HasRoom 1) :
    ∃ written, writer.writeByte v = .ok written ∧ Wrote writer written 1 :=
  @write_succeeds writer [UInt8.ofNat v] sound room

theorem writeUint32_succeeds {v : Nat} (sound : writer.Sound) (room : writer.HasRoom 4) :
    ∃ written, writer.writeUint32 v = .ok written ∧ Wrote writer written 4 :=
  @write_succeeds writer (uint32Bytes v) sound room

theorem bind_succeeds {first : Except Failure CborWriter}
    {next : CborWriter → Except Failure CborWriter} (room : writer.HasRoom (m + n))
    (head : ∃ middle, first = .ok middle ∧ Wrote writer middle m)
    (tail : ∀ middle, middle.Sound → middle.maxByteLength = writer.maxByteLength →
      middle.HasRoom n → ∃ written, next middle = .ok written ∧ Wrote middle written n) :
    ∃ written, (first >>= next) = .ok written ∧ Wrote writer written (m + n) := by
  obtain ⟨middle, rfl, wrote⟩ := head
  obtain ⟨written, ok, more⟩ := tail middle wrote.sound wrote.max_eq (wrote.room room)
  exact ⟨written, ok, wrote.trans more⟩

end CborWriter

variable {writer : CborWriter} {item : Item} {entries : List (JsString × Item)}

theorem writeArgument_succeeds {majorType v : Nat} (sound : writer.Sound)
    (room : writer.HasRoom (argumentSize v)) :
    ∃ written, writeArgument writer majorType v = .ok written ∧
      Wrote writer written (argumentSize v) := by
  revert room
  unfold argumentSize writeArgument
  dsimp only
  split
  · exact fun room => writeByte_succeeds sound room
  split
  · exact fun room => bind_succeeds room (writeByte_succeeds sound (room.le (by decide)))
      fun middle sound _ room => writeByte_succeeds sound room
  split
  · exact fun room => bind_succeeds room (writeByte_succeeds sound (room.le (by decide)))
      fun middle sound _ room => @write_succeeds middle (uint16Bytes v) sound room
  split
  · exact fun room => bind_succeeds room (writeByte_succeeds sound (room.le (by decide)))
      fun middle sound _ room => writeUint32_succeeds sound room
  · exact fun room => bind_succeeds room (writeByte_succeeds sound (room.le (by decide)))
      fun middle sound _ room => bind_succeeds room
        (writeUint32_succeeds sound (room.le (by decide)))
        fun middle sound _ room => writeUint32_succeeds sound room

variable {heap : Heap} {opts : ResolvedCborOptions}

theorem writeContents_succeeds {majorType : Nat} {contents : Bytes} (sound : writer.Sound)
    (room : writer.HasRoom (contentsSize contents)) :
    ∃ written, (do let middle ← writeArgument writer majorType contents.length
                   middle.writeBytes contents) = Except.ok written ∧
      Wrote writer written (contentsSize contents) :=
  bind_succeeds room
    (writeArgument_succeeds sound (room.le (Nat.le_add_right _ _)))
    fun _ sound _ room => write_succeeds sound room

theorem encodeText_succeeds {text : JsString} (within : TextWithin opts text)
    (sound : writer.Sound) (room : writer.HasRoom (contentsSize (Utf16.textEncode text))) :
    ∃ written, encodeText writer text opts = .ok written ∧
      Wrote writer written (contentsSize (Utf16.textEncode text)) := by
  rw [encodeText, if_neg (Nat.not_lt.mpr within.2), if_neg (not_not.mpr within.1)]
  exact writeContents_succeeds sound room

theorem encodeNumber_succeeds {number : Binary64} (finite : number.isFinite = true)
    (safe : number.isInteger = true → number.isSafeInteger = true) (sound : writer.Sound)
    (room : writer.HasRoom (numberSize number)) :
    ∃ written, encodeNumber writer number = .ok written ∧
      Wrote writer written (numberSize number) := by
  have notInfinite : ¬number.isFinite = false := by
    rw [finite]
    exact Bool.noConfusion
  rw [encodeNumber, if_neg notInfinite]
  by_cases integer : number.isInteger = true ∧ number ≠ Binary64.negativeZero
  · have notUnsafe : ¬number.isSafeInteger = false := by
      rw [safe integer.1]
      exact Bool.noConfusion
    rw [numberSize, if_pos integer] at room ⊢
    rw [if_pos integer, if_neg notUnsafe]
    by_cases positive : 0 ≤ number.toInt
    · rw [if_pos positive] at room ⊢
      rw [if_pos positive]
      exact writeArgument_succeeds sound room
    · rw [if_neg positive] at room ⊢
      rw [if_neg positive]
      exact writeArgument_succeeds sound room
  · rw [numberSize, if_neg integer] at room ⊢
    rw [if_neg integer, writeFloat64]
    have nine : (0xfb :: number.toBytes).length = 9 := by
      rw [length_cons, Binary64.length_toBytes]
    rw [← nine] at room ⊢
    exact write_succeeds sound room

/-- Encoding a value of the item writes as many bytes as its size. -/
def Encodes (heap : Heap) (encode : Value → CborWriter → Except Failure CborWriter)
    (item : Item) : Prop :=
  ∀ value writer, Holds heap value item → writer.Sound → writer.HasRoom item.size →
    ∃ written, encode value writer = .ok written ∧ Wrote writer written item.size

variable {encode : Value → CborWriter → Except Failure CborWriter} {elements : List (Option Value)}
  {ancestors : List Ref} {items : List Item}

theorem encodeElements_cons {v : Value} (defined : v ≠ .undefined) :
    encodeElements encode (some v :: elements) writer =
      (do let middle ← encode v writer
          encodeElements encode elements middle) := by
  cases v with
  | undefined => exact absurd rfl defined
  | null => rfl
  | boolean flag => rfl
  | number number => rfl
  | string text => rfl
  | object ref => rfl
  | unsupported typeName => rfl

theorem Holds.defined {v : Value} (holds : Holds heap v item) : v ≠ .undefined := by
  rintro rfl
  cases holds

theorem encodeElements_succeeds (each : ∀ item ∈ items, Encodes heap encode item)
    (holds : HoldsElements heap elements items) (sound : writer.Sound)
    (room : writer.HasRoom (itemsSize items)) :
    ∃ written, encodeElements encode elements writer = .ok written ∧
      Wrote writer written (itemsSize items) := by
  induction items generalizing elements writer with
  | nil =>
    cases holds
    exact ⟨writer, rfl, sound, rfl, rfl⟩
  | cons item items ih =>
    cases holds with
    | cons head tail =>
      rw [encodeElements_cons head.defined]
      rw [itemsSize] at room ⊢
      exact bind_succeeds room
        (each item mem_cons_self _ writer head sound (room.le (Nat.le_add_right _ _)))
        fun _ sound _ room =>
          ih (fun item mem => each item (mem_cons_of_mem _ mem)) tail sound room

theorem encodeEntries_succeeds {members : List (JsString × Value)}
    (each : ∀ e ∈ entries, TextWithin opts e.1 ∧ Encodes heap encode e.2)
    (holds : HoldsEntries heap members entries) (sound : writer.Sound)
    (room : writer.HasRoom (entriesSize entries)) :
    ∃ written, encodeEntries opts encode members writer = .ok written ∧
      Wrote writer written (entriesSize entries) := by
  induction entries generalizing members writer with
  | nil =>
    cases holds
    exact ⟨writer, rfl, sound, rfl, rfl⟩
  | cons e entries ih =>
    cases holds with
    | @cons key v item _ _ head tail =>
      obtain ⟨text, encodes⟩ := each (key, item) mem_cons_self
      rw [entriesSize, Nat.add_assoc] at room ⊢
      exact bind_succeeds room
        (encodeText_succeeds text sound (room.le (Nat.le_add_right _ _)))
        fun _ sound _ room => bind_succeeds room
          (encodes v _ head sound (room.le (Nat.le_add_right _ _)))
          fun _ sound _ room =>
            ih (fun e mem => each e (mem_cons_of_mem _ mem)) tail sound room

theorem HoldsEntries.definedEntries_eq {members : Members}
    (holds : HoldsEntries heap members.entries entries) :
    definedEntries members = members.entries := by
  refine filter_eq_self.mpr ?_
  generalize members.entries = listed at holds
  induction entries generalizing listed with
  | nil =>
    cases holds
    intro e absurd
    cases absurd
  | cons e entries ih =>
    cases holds with
    | cons key head tail =>
      intro e mem
      rcases mem_cons.mp mem with rfl | mem
      · exact decide_eq_true head.defined
      · exact ih _ tail e mem

/-- The objects around an item hold larger ones. -/
def Outside (heap : Heap) (ancestors : List Ref) (size : Nat) : Prop :=
  ∀ ref ∈ ancestors, ∀ item, Holds heap (.object ref) item → size < item.size

theorem Outside.not_mem {ref : Ref} (outside : Outside heap ancestors item.size)
    (holds : Holds heap (.object ref) item) :
    ref ∉ ancestors :=
  fun inside => Nat.lt_irrefl _ (outside ref inside item holds)

theorem Outside.cons {ref : Ref} {size : Nat} (outside : Outside heap ancestors item.size)
    (holds : Holds heap (.object ref) item)
    (smaller : size < item.size) : Outside heap (ref :: ancestors) size := by
  intro other inside outer held
  rcases mem_cons.mp inside with rfl | inside
  · rw [oneItem item _ outer holds held.sameValue]
    exact smaller
  · exact Nat.lt_trans smaller (outside other inside outer held)

theorem size_le_itemsSize (mem : item ∈ items) : item.size ≤ itemsSize items := by
  induction items with
  | nil => cases mem
  | cons first items ih =>
    rw [itemsSize]
    rcases mem_cons.mp mem with rfl | mem
    · exact Nat.le_add_right _ _
    · exact Nat.le_trans (ih mem) (Nat.le_add_left _ _)

theorem size_le_entriesSize {entry : JsString × Item} (mem : entry ∈ entries) :
    entry.2.size ≤ entriesSize entries := by
  induction entries with
  | nil => cases mem
  | cons first entries ih =>
    rw [entriesSize]
    rcases mem_cons.mp mem with rfl | mem
    · omega
    · exact Nat.le_trans (ih mem) (Nat.le_add_left _ _)

/-- A value within the limits is encoded, and in the size of its item. -/
theorem encodeValue_succeeds (heap : Heap) (opts : ResolvedCborOptions) (levels : Nat)
    (ancestors : List Ref) (item : Item) (within : WithinLimits opts levels item)
    (outside : Outside heap ancestors item.size) :
    Encodes heap (encodeValue heap opts levels ancestors) item := by
  induction levels generalizing ancestors item with
  | zero => cases within
  | succ levels ih =>
    intro v writer holds sound room
    cases holds with
    | null => exact writeByte_succeeds sound room
    | boolean flag => exact writeByte_succeeds sound room
    | number number => exact encodeNumber_succeeds within.1 within.2 sound room
    | string text => exact encodeText_succeeds within sound room
    | bytes stored =>
      rw [encodeValue, stored]
      dsimp only
      rw [if_neg (Nat.not_lt.mpr within)]
      exact writeContents_succeeds sound room
    | @array ref elements items stored same =>
      have held : Holds heap (.object ref) (.array items) := .array stored same
      rw [encodeValue, stored]
      dsimp only
      rw [if_neg (outside.not_mem held), same.length_eq, if_neg (Nat.not_lt.mpr within.1)]
      rw [Item.size] at room ⊢
      refine bind_succeeds room (writeArgument_succeeds sound (room.le (Nat.le_add_right _ _))) ?_
      intro middle sound _ room
      refine encodeElements_succeeds ?_ same sound room
      intro item mem
      refine ih (ref :: ancestors) item (within.2 item mem) (outside.cons held ?_)
      have positive := argumentSize_pos items.length
      have part := size_le_itemsSize mem
      rw [Item.size]
      omega
    | @object ref members entries stored same =>
      have held : Holds heap (.object ref) (.object entries) := .object stored same
      have count : members.entries.length = entries.length := by
        rw [← length_map Prod.fst, same.keys_eq, length_map]
      rw [encodeValue, stored]
      dsimp only
      rw [if_neg (outside.not_mem held), if_neg Bool.false_ne_true, same.definedEntries_eq, count,
        if_neg (Nat.not_lt.mpr within.1)]
      rw [Item.size] at room ⊢
      refine bind_succeeds room (writeArgument_succeeds sound (room.le (Nat.le_add_right _ _))) ?_
      intro middle sound _ room
      refine encodeEntries_succeeds ?_ same sound room
      intro e mem
      obtain ⟨text, below⟩ := within.2.2 e mem
      refine ⟨text, ih (ref :: ancestors) e.2 below (outside.cons held ?_)⟩
      have positive := argumentSize_pos entries.length
      have part := size_le_entriesSize mem
      rw [Item.size]
      omega

/-- What was decoded is encoded under the same options, in no more bytes, and read back as the same
value. -/
theorem encodeCbor_decodeCbor (bytes : Bytes) (opts : CborOptions) (item : Item)
    (decoded : decodeCbor bytes opts = .ok item) :
    (∃ heap v, Holds heap v item.host) ∧
      ∀ heap v, Holds heap v item.host →
        ∃ encoded, encodeCbor heap v opts = .ok encoded ∧
          encoded.length ≤ bytes.length ∧
          ∃ again, decodeCbor encoded opts = .ok again ∧ again.host = item.host ∧
            SameValue heap v again := by
  obtain ⟨resolved, limits, decoded⟩ := bind_eq_ok decoded
  split at decoded
  · cases decoded
  rename_i short
  obtain ⟨⟨v, rest⟩, read, decoded⟩ := bind_eq_ok decoded
  dsimp only at decoded
  split at decoded
  · cases decoded
  rename_i all
  cases decoded
  obtain ⟨within, size⟩ := readItem_takes resolved _ bytes item rest read
  refine ⟨exists_holds within.host, ?_⟩
  intro heap v holds
  have room : (CborWriter.create resolved.maxByteLength).HasRoom item.host.size := by
    rw [HasRoom, size_host]
    change 0 + item.size ≤ resolved.maxByteLength
    omega
  have outside : Outside heap [] item.host.size := by
    intro ref absurd
    cases absurd
  obtain ⟨written, encodes, wrote⟩ := encodeValue_succeeds heap resolved _ [] item.host within.host
    outside v (CborWriter.create resolved.maxByteLength) holds (create_sound _) room
  have encoded : encodeCbor heap v opts = .ok written.finish := by
    rw [encodeCbor, limits, ok_bind, encodes]
    rfl
  refine ⟨written.finish, encoded, ?_, ?_⟩
  · rw [wrote.sound.finish_length, wrote.offset_eq, size_host]
    change 0 + item.size ≤ bytes.length
    omega
  · obtain ⟨again, read, same⟩ := decodeCbor_encodeCbor encoded
    refine ⟨again, read, ?_, same⟩
    rw [oneItem item.host v again holds same, host_host]

/-- A map of two entries, the second key an array index, with numbers in longer forms. -/
def longForms : Bytes :=
  [0xb8, 0x02, 0x61, 0x62, 0x18, 0x01, 0x61, 0x31, 0xfb, 0x3f, 0xf0, 0, 0, 0, 0, 0, 0]

theorem encodeCbor_decodeCbor_sample : ∃ item, decodeCbor longForms .none = .ok item ∧
    (∃ heap v, Holds heap v item.host) ∧
      ∀ heap v, Holds heap v item.host →
        ∃ encoded, encodeCbor heap v .none = .ok encoded ∧
          encoded.length ≤ longForms.length ∧
          ∃ again, decodeCbor encoded .none = .ok again ∧ again.host = item.host ∧
            SameValue heap v again := by
  have succeeds : (decodeCbor longForms .none).toOption.isSome = true := by decide +kernel
  cases ran : decodeCbor longForms .none with
  | error failure =>
    rw [ran] at succeeds
    cases succeeds
  | ok item => exact ⟨item, rfl, encodeCbor_decodeCbor longForms .none item ran⟩

end Trpi.Protocol.Cbor
