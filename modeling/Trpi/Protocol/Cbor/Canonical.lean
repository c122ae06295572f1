import Trpi.Protocol.Cbor.HostObjects

/-!
# CBOR canonicalisation

The size of an item is the length of its shortest encoding. What the decoder reads is within the
limits and takes at least that many bytes; the encoder writes exactly that many.
-/

namespace Trpi.Protocol.Cbor

open Library CborWriter Binary64 List

def argumentSize (value : Nat) : Nat :=
  if value < 24 then 1 else if value ≤ 0xff then 2 else if value ≤ 0xffff then 3
  else if value ≤ maxUint32 then 5 else 9

theorem argumentSize_pos (v : Nat) : 0 < argumentSize v := by
  unfold argumentSize
  repeat' split
  all_goals decide

def numberSize (number : Binary64) : Nat :=
  if number.isInteger = true ∧ number ≠ Binary64.negativeZero then
    if 0 ≤ number.toInt then argumentSize number.toInt.toNat
    else argumentSize (-1 - number.toInt).toNat
  else 9

theorem argumentSize_le (v : Nat) : argumentSize v ≤ 9 := by
  unfold argumentSize
  repeat' split
  all_goals decide

theorem numberSize_le (number : Binary64) : numberSize number ≤ 9 := by
  unfold numberSize
  split
  · split
    · exact argumentSize_le _
    · exact argumentSize_le _
  · exact Nat.le_refl 9

def contentsSize (contents : Bytes) : Nat := argumentSize contents.length + contents.length

mutual

def Item.size : Item → Nat
  | .null => 1
  | .boolean _ => 1
  | .number number => numberSize number
  | .string text => contentsSize (Utf16.textEncode text)
  | .bytes contents => contentsSize contents
  | .array items => argumentSize items.length + itemsSize items
  | .object entries => argumentSize entries.length + entriesSize entries

def itemsSize : List Item → Nat
  | [] => 0
  | item :: items => item.size + itemsSize items

def entriesSize : List (JsString × Item) → Nat
  | [] => 0
  | (key, item) :: entries =>
    contentsSize (Utf16.textEncode key) + item.size + entriesSize entries

end

theorem itemsSize_eq (items : List Item) : itemsSize items = (items.map Item.size).sum := by
  induction items with
  | nil => rfl
  | cons item items ih => rw [itemsSize, ih, map_cons, sum_cons]

theorem entriesSize_eq (entries : List (JsString × Item)) :
    entriesSize entries =
      (entries.map fun e => contentsSize (Utf16.textEncode e.1) + e.2.size).sum := by
  induction entries with
  | nil => rfl
  | cons e entries ih => rw [entriesSize, ih, map_cons, sum_cons]

theorem size_host (item : Item) : item.host.size = item.size := by
  induction item using Item.induction with
  | null => rfl
  | boolean flag => rfl
  | number number => rfl
  | string text => rfl
  | bytes contents => rfl
  | array items ih =>
    rw [host_array, Item.size, Item.size, length_map, itemsSize_eq, itemsSize_eq, map_map]
    congr 2
    exact map_congr_left ih
  | object entries ih =>
    have permuted := ownPropertyOrder_perm entries
    rw [host_object, Item.size, Item.size, length_map, permuted.length_eq, entriesSize_eq,
      entriesSize_eq, map_map]
    congr 1
    rw [← (permuted.map fun e =>
      contentsSize (Utf16.textEncode e.1) + e.2.size).sum_nat]
    congr 1
    refine map_congr_left ?_
    intro e mem
    exact congrArg (contentsSize (Utf16.textEncode e.1) + ·) (ih e (permuted.subset mem))

variable {bytes rest : Bytes} {length info v : Nat}

theorem readByte_ok (ok : readByte bytes = .ok (v, rest)) :
    v ≤ 0xff ∧ bytes.length = rest.length + 1 := by
  cases bytes with
  | nil => cases ok
  | cons byte bytes =>
    cases ok
    exact ⟨by have := byte.toNat_lt; omega, rfl⟩

theorem readBytes_ok {field : Bytes} (ok : readBytes length bytes = .ok (field, rest)) :
    field.length = length ∧ bytes.length = rest.length + length := by
  rw [readBytes] at ok
  split at ok
  · cases ok
  · cases ok
    rw [length_take, length_drop]
    omega

theorem readUint16_ok (ok : readUint16 bytes = .ok (v, rest)) :
    v ≤ 0xffff ∧ bytes.length = rest.length + 2 := by
  obtain ⟨⟨field, left⟩, taken, ok⟩ := bind_eq_ok ok
  cases ok
  refine ⟨?_, (readBytes_ok taken).2⟩
  have first := (field.getD 0 0).toNat_lt
  have second := (field.getD 1 0).toNat_lt
  simp only [uint16Value]
  omega

theorem readUint32_ok (ok : readUint32 bytes = .ok (v, rest)) :
    v ≤ maxUint32 ∧ bytes.length = rest.length + 4 := by
  obtain ⟨⟨field, left⟩, taken, ok⟩ := bind_eq_ok ok
  cases ok
  refine ⟨?_, (readBytes_ok taken).2⟩
  have first := (field.getD 0 0).toNat_lt
  have second := (field.getD 1 0).toNat_lt
  have third := (field.getD 2 0).toNat_lt
  have fourth := (field.getD 3 0).toNat_lt
  simp only [uint32Value, maxUint32]
  omega

theorem readUint64_ok (ok : readUint64 bytes = .ok (v, rest)) :
    v ≤ maxSafeInteger ∧ bytes.length = rest.length + 8 := by
  obtain ⟨⟨high, middle⟩, first, ok⟩ := bind_eq_ok ok
  obtain ⟨⟨low, left⟩, second, ok⟩ := bind_eq_ok ok
  dsimp only at first second ok
  split at ok
  · cases ok
  · cases ok
    have before := (readUint32_ok first).2
    have after := readUint32_ok second
    simp only [maxSafeInteger, uint32Base, maxUint32] at after ⊢
    omega

/-- An argument takes at least the bytes that its shortest form takes. -/
theorem readArgument_ok (ok : readArgument info bytes = .ok (v, rest)) :
    v ≤ maxSafeInteger ∧ argumentSize v + rest.length ≤ bytes.length + 1 := by
  unfold readArgument at ok
  split at ok
  · rename_i tiny
    cases ok
    rw [argumentSize, if_pos tiny, maxSafeInteger]
    omega
  split at ok
  · obtain ⟨small, taken⟩ := readByte_ok ok
    refine ⟨Nat.le_trans small (by decide), ?_⟩
    unfold argumentSize
    repeat' split
    all_goals omega
  · obtain ⟨small, taken⟩ := readUint16_ok ok
    refine ⟨Nat.le_trans small (by decide), ?_⟩
    unfold argumentSize
    repeat' split
    all_goals omega
  · obtain ⟨small, taken⟩ := readUint32_ok ok
    refine ⟨Nat.le_trans small (by decide), ?_⟩
    unfold argumentSize
    repeat' split
    all_goals omega
  · obtain ⟨small, taken⟩ := readUint64_ok ok
    refine ⟨small, ?_⟩
    unfold argumentSize
    repeat' split
    all_goals omega
  · cases ok
  · cases ok

theorem readLength_fits {limit : Nat} {kind : String}
    (ok : readLength info kind limit bytes = .ok (length, rest)) :
    length ≤ limit ∧ argumentSize length + rest.length ≤ bytes.length + 1 := by
  unfold readLength at ok
  split at ok
  · cases ok
  · obtain ⟨⟨v, left⟩, argument, ok⟩ := bind_eq_ok ok
    dsimp only at ok
    split at ok
    · cases ok
    · rename_i within
      cases ok
      exact ⟨Nat.le_of_not_lt within, (readArgument_ok argument).2⟩

/-- The item is within the limits, and no larger than the bytes it was read from. -/
structure Takes (opts : ResolvedCborOptions) (levels : Nat) (bytes rest : Bytes) (item : Item) :
    Prop where
  within : WithinLimits opts levels item
  size : item.size + rest.length ≤ bytes.length

def ReadTakes (opts : ResolvedCborOptions) (levels : Nat) : Prop :=
  ∀ bytes item rest, readItem opts levels bytes = .ok (item, rest) →
    Takes opts levels bytes rest item

variable {opts : ResolvedCborOptions} {levels : Nat} {item : Item}

theorem text_of_decoded {contents : Bytes} {text : JsString}
    (decoded : Utf16.textDecode contents = some text) : Utf16.textEncode text = contents := by
  rw [Utf16.textDecode] at decoded
  split at decoded
  · rename_i wellFormed
    cases decoded
    rw [Utf16.textEncode, Utf16.scalars_units]
    exact wellFormed
  · cases decoded

theorem readElements_takes (each : ReadTakes opts levels) {items : List Item}
    (ok : readElements (readItem opts levels) length bytes = .ok (items, rest)) :
    items.length = length ∧ (∀ item ∈ items, WithinLimits opts levels item) ∧
      itemsSize items + rest.length ≤ bytes.length := by
  induction length generalizing bytes items with
  | zero =>
    cases ok
    refine ⟨rfl, ?_, Nat.le_of_eq (Nat.zero_add _)⟩
    intro item absurd
    cases absurd
  | succ length ih =>
    obtain ⟨⟨item, middle⟩, first, ok⟩ := bind_eq_ok ok
    obtain ⟨⟨later, left⟩, second, ok⟩ := bind_eq_ok ok
    cases ok
    obtain ⟨within, size⟩ := each bytes item middle first
    obtain ⟨count, all, sizes⟩ := ih second
    refine ⟨congrArg (· + 1) count, ?_, ?_⟩
    · intro other mem
      rcases mem_cons.mp mem with rfl | mem
      · exact within
      · exact all other mem
    · rw [itemsSize]
      omega

theorem readEntries_takes (each : ReadTakes opts levels) {keys : List JsString}
    {entries : List (JsString × Item)}
    (ok : readEntries (readItem opts levels) length keys bytes = .ok (entries, rest)) :
    entries.length = length ∧ (entries.map Prod.fst).Nodup ∧
      (∀ e ∈ entries, e.1 ∉ keys) ∧
      (∀ e ∈ entries, TextWithin opts e.1 ∧ WithinLimits opts levels e.2) ∧
      entriesSize entries + rest.length ≤ bytes.length := by
  induction length generalizing keys bytes entries with
  | zero =>
    cases ok
    refine ⟨rfl, nodup_nil, ?_, ?_, Nat.le_of_eq (Nat.zero_add _)⟩
    · intro e absurd
      cases absurd
    · intro e absurd
      cases absurd
  | succ length ih =>
    obtain ⟨⟨keyItem, afterKey⟩, first, ok⟩ := bind_eq_ok ok
    have keyTakes := each bytes keyItem afterKey first
    dsimp only at ok
    split at ok
    · rename_i key
      split at ok
      · cases ok
      rename_i fresh
      obtain ⟨⟨item, middle⟩, second, ok⟩ := bind_eq_ok ok
      obtain ⟨⟨later, left⟩, third, ok⟩ := bind_eq_ok ok
      cases ok
      obtain ⟨within, size⟩ := each afterKey item middle second
      obtain ⟨count, distinct, unseen, all, sizes⟩ := ih third
      have text : TextWithin opts key := by
        cases levels with
        | zero => cases within
        | succ levels => exact keyTakes.within
      refine ⟨congrArg (· + 1) count, ?_, ?_, ?_, ?_⟩
      · refine nodup_cons.mpr ⟨?_, distinct⟩
        intro again
        obtain ⟨e, mem, same⟩ := mem_map.mp again
        exact unseen e mem (same ▸ mem_append_right _ (mem_singleton.mpr rfl))
      · intro e mem
        rcases mem_cons.mp mem with rfl | mem
        · exact fresh
        · exact fun old => unseen e mem (mem_append_left _ old)
      · intro e mem
        rcases mem_cons.mp mem with rfl | mem
        · exact ⟨text, within⟩
        · exact all e mem
      · have keySize := keyTakes.size
        rw [Item.size] at keySize
        rw [entriesSize]
        dsimp only at sizes ⊢
        omega
    · cases ok

theorem readSimple_takes (ok : readSimple info bytes = .ok (item, rest)) :
    WithinLimits opts (levels + 1) item ∧ item.size + rest.length ≤ bytes.length + 1 := by
  unfold readSimple at ok
  split at ok
  · cases ok
    exact ⟨trivial, by rw [Item.size]; omega⟩
  · cases ok
    exact ⟨trivial, by rw [Item.size]; omega⟩
  · cases ok
    exact ⟨trivial, by rw [Item.size]; omega⟩
  · obtain ⟨⟨field, left⟩, taken, ok⟩ := bind_eq_ok ok
    have length := (readBytes_ok taken).2
    dsimp only at ok length
    split at ok
    · cases ok
    rename_i finite
    split at ok
    · cases ok
    rename_i allowed
    cases ok
    rw [Bool.not_eq_false] at finite
    refine ⟨⟨finite, ?_⟩, ?_⟩
    · intro integer
      by_contra large
      exact allowed ⟨integer, Bool.not_eq_true _ ▸ large⟩
    · have small := numberSize_le (ofBytes field)
      rw [Item.size]
      omega
  · cases ok
  · cases ok

theorem size_ofInt {v : Int} (safe : v.natAbs ≤ maxSafeInteger) :
    numberSize (ofInt v) =
      if 0 ≤ v then argumentSize v.toNat else argumentSize (-1 - v).toNat := by
  obtain ⟨same, isSafe, notNegativeZero⟩ := toInt_ofInt safe
  rw [numberSize, if_pos ⟨(isSafeInteger_iff.mp isSafe).1, notNegativeZero⟩, same]

theorem within_ofInt {v : Int} (safe : v.natAbs ≤ maxSafeInteger) :
    WithinLimits opts (levels + 1) (.number (ofInt v)) := by
  have isSafe := (toInt_ofInt safe).2.1
  have integer := (isSafeInteger_iff.mp isSafe).1
  rw [isInteger, Bool.and_eq_true] at integer
  exact ⟨integer.1, fun _ => isSafe⟩

theorem readMajor_takes (each : ReadTakes opts levels) {majorType : Nat}
    (ok : readMajor opts (readItem opts levels) majorType info bytes = .ok (item, rest)) :
    WithinLimits opts (levels + 1) item ∧ item.size + rest.length ≤ bytes.length + 1 := by
  unfold readMajor at ok
  split at ok
  · obtain ⟨⟨v, left⟩, argument, ok⟩ := bind_eq_ok ok
    cases ok
    obtain ⟨safe, size⟩ := readArgument_ok argument
    have small : (v : Int).natAbs ≤ maxSafeInteger := safe
    refine ⟨within_ofInt small, ?_⟩
    rw [Item.size, size_ofInt small, if_pos (Int.natCast_nonneg v)]
    exact size
  · obtain ⟨⟨argument, left⟩, taken, ok⟩ := bind_eq_ok ok
    dsimp only at ok
    split at ok
    · cases ok
    · rename_i safe
      cases ok
      have size := (readArgument_ok taken).2
      refine ⟨within_ofInt (Nat.le_of_not_lt safe), ?_⟩
      rw [Item.size, size_ofInt (Nat.le_of_not_lt safe), if_neg (by omega),
        show (-1 - (-1 - (argument : Int))).toNat = argument by omega]
      exact size
  · obtain ⟨⟨length, left⟩, measured, ok⟩ := bind_eq_ok ok
    obtain ⟨⟨contents, remaining⟩, taken, ok⟩ := bind_eq_ok ok
    cases ok
    obtain ⟨within, size⟩ := readLength_fits measured
    obtain ⟨count, consumed⟩ := readBytes_ok taken
    refine ⟨?_, ?_⟩
    · change contents.length ≤ opts.maxByteLength
      omega
    · rw [Item.size, contentsSize, count]
      omega
  · obtain ⟨⟨length, left⟩, measured, ok⟩ := bind_eq_ok ok
    obtain ⟨⟨contents, remaining⟩, taken, ok⟩ := bind_eq_ok ok
    obtain ⟨within, size⟩ := readLength_fits measured
    obtain ⟨count, consumed⟩ := readBytes_ok taken
    dsimp only at ok taken count consumed
    split at ok
    · rename_i text decoded
      cases ok
      have same := text_of_decoded decoded
      refine ⟨⟨?_, ?_⟩, ?_⟩
      · rw [same]
        exact decoded
      · rw [same, count]
        exact within
      · rw [Item.size, same, contentsSize, count]
        omega
    · cases ok
  · obtain ⟨⟨length, left⟩, measured, ok⟩ := bind_eq_ok ok
    obtain ⟨⟨items, remaining⟩, taken, ok⟩ := bind_eq_ok ok
    cases ok
    obtain ⟨within, size⟩ := readLength_fits measured
    obtain ⟨count, all, sizes⟩ := readElements_takes each taken
    refine ⟨⟨count ▸ within, all⟩, ?_⟩
    rw [Item.size, count]
    omega
  · obtain ⟨⟨length, left⟩, measured, ok⟩ := bind_eq_ok ok
    obtain ⟨⟨entries, remaining⟩, taken, ok⟩ := bind_eq_ok ok
    cases ok
    obtain ⟨within, size⟩ := readLength_fits measured
    obtain ⟨count, distinct, -, all, sizes⟩ := readEntries_takes each taken
    refine ⟨⟨count ▸ within, distinct, all⟩, ?_⟩
    rw [Item.size, count]
    omega
  · cases ok
  · exact readSimple_takes ok
  · cases ok

theorem readItem_takes (opts : ResolvedCborOptions) (levels : Nat) : ReadTakes opts levels := by
  induction levels with
  | zero =>
    intro bytes item rest ok
    cases ok
  | succ levels ih =>
    intro bytes item rest ok
    obtain ⟨⟨initial, left⟩, first, ok⟩ := bind_eq_ok ok
    obtain ⟨within, size⟩ := readMajor_takes ih ok
    have taken := (readByte_ok first).2
    exact ⟨within, by omega⟩

end Trpi.Protocol.Cbor
