import Mathlib.Data.List.Basic

/-!
# UTF-8 text in byte files

Encoding is the core encoder. Decoding is the lossy decoder of the encoding
standard, one byte at a time: ill-formed input never fails, each maximal
ill-formed part becomes a replacement character. Encoded text decodes to
itself whatever bytes follow it, and a line feed is decoded from its own byte
only, so cutting a file inside a character cannot create or remove a line end.
A leading byte order mark is not treated specially.
-/

namespace Trpi.Library.Utf8

open List

def encode (text : List Char) : List UInt8 := text.flatMap String.utf8EncodeChar

@[simp] theorem encode_nil : encode [] = [] := rfl

theorem encode_cons (c : Char) (text : List Char) :
    encode (c :: text) = String.utf8EncodeChar c ++ encode text := rfl

@[simp] theorem encode_append (first second : List Char) :
    encode (first ++ second) = encode first ++ encode second := flatMap_append

/-- Bytes still needed, the code point so far and the range of the next byte. -/
structure Decoder where
  needed : Nat
  codePoint : Nat
  lower : Nat
  upper : Nat
  deriving DecidableEq

def Decoder.ready : Decoder where
  needed := 0
  codePoint := 0
  lower := 0x80
  upper := 0xBF

def replacement : Char := Char.ofNat 0xFFFD

def firstByte (byte : Nat) : Decoder × List Char :=
  if byte < 0x80 then (.ready, [Char.ofNat byte])
  else if 0xC2 ≤ byte ∧ byte < 0xE0 then
    ({ needed := 1, codePoint := byte - 0xC0, lower := 0x80, upper := 0xBF }, [])
  else if 0xE0 ≤ byte ∧ byte < 0xF0 then
    ({ needed := 2, codePoint := byte - 0xE0
       lower := if byte = 0xE0 then 0xA0 else 0x80
       upper := if byte = 0xED then 0x9F else 0xBF }, [])
  else if 0xF0 ≤ byte ∧ byte < 0xF5 then
    ({ needed := 3, codePoint := byte - 0xF0
       lower := if byte = 0xF0 then 0x90 else 0x80
       upper := if byte = 0xF4 then 0x8F else 0xBF }, [])
  else (.ready, [replacement])

/-- Feed one byte; an unexpected byte ends the current sequence and starts anew. -/
def Decoder.feed (d : Decoder) (byte : Nat) : Decoder × List Char :=
  if d.needed = 0 then firstByte byte
  else if byte < d.lower ∨ d.upper < byte then
    ((firstByte byte).1, replacement :: (firstByte byte).2)
  else if d.needed = 1 then
    (.ready, [Char.ofNat (d.codePoint * 64 + (byte - 0x80))])
  else
    ({ needed := d.needed - 1, codePoint := d.codePoint * 64 + (byte - 0x80)
       lower := 0x80, upper := 0xBF }, [])

def Decoder.decode : Decoder → List UInt8 → List Char
  | d, [] => if d.needed = 0 then [] else [replacement]
  | d, byte :: rest => (d.feed byte.toNat).2 ++ (d.feed byte.toNat).1.decode rest

def decode (bytes : List UInt8) : List Char := Decoder.ready.decode bytes

@[simp] theorem decode_nil : decode [] = [] := rfl

variable {n byte : Nat} {bytes : List UInt8} {d : Decoder}

private theorem byte_toNat (small : n < 256) : (UInt8.ofNat n).toNat = n := by
  rw [UInt8.toNat_ofNat']
  omega

private theorem valid_toNat (c : Char) :
    c.toNat < 0xD800 ∨ (0xDFFF < c.toNat ∧ c.toNat < 0x110000) := c.valid

theorem feed_ready (byte : Nat) : Decoder.ready.feed byte = firstByte byte := rfl

theorem feed_more {needed codePoint lower upper p : Nat} (above : lower ≤ byte)
    (below : byte ≤ upper) (extended : codePoint * 64 + (byte - 0x80) = p) :
    (Decoder.mk (needed + 2) codePoint lower upper).feed byte =
      (⟨needed + 1, p, 0x80, 0xBF⟩, []) := by
  have inside : ¬ (byte < lower ∨ upper < byte) := by omega
  simp [Decoder.feed, inside, extended]

theorem feed_last {codePoint lower upper p : Nat} (above : lower ≤ byte) (below : byte ≤ upper)
    (extended : codePoint * 64 + (byte - 0x80) = p) :
    (Decoder.mk 1 codePoint lower upper).feed byte = (.ready, [Char.ofNat p]) := by
  have inside : ¬ (byte < lower ∨ upper < byte) := by omega
  simp [Decoder.feed, inside, extended]

theorem firstByte_two (above : 0xC2 ≤ byte) (below : byte < 0xE0) :
    firstByte byte = (⟨1, byte - 0xC0, 0x80, 0xBF⟩, []) := by
  have plain : ¬ byte < 0x80 := by omega
  simp [firstByte, plain, above, below]

theorem firstByte_three (above : 0xE0 ≤ byte) (below : byte < 0xF0) :
    firstByte byte = (⟨2, byte - 0xE0, if byte = 0xE0 then 0xA0 else 0x80,
      if byte = 0xED then 0x9F else 0xBF⟩, []) := by
  have plain : ¬ byte < 0x80 := by omega
  have short : ¬ byte < 0xE0 := by omega
  simp [firstByte, plain, short, above, below]

theorem firstByte_four (above : 0xF0 ≤ byte) (below : byte < 0xF5) :
    firstByte byte = (⟨3, byte - 0xF0, if byte = 0xF0 then 0x90 else 0x80,
      if byte = 0xF4 then 0x8F else 0xBF⟩, []) := by
  have plain : ¬ byte < 0x80 := by omega
  have short : ¬ byte < 0xE0 := by omega
  have middle : ¬ byte < 0xF0 := by omega
  simp [firstByte, plain, short, middle, above, below]

theorem decode_byte (d : Decoder) (small : n < 256) (rest : List UInt8) :
    d.decode (UInt8.ofNat n :: rest) = (d.feed n).2 ++ (d.feed n).1.decode rest := by
  rw [Decoder.decode, byte_toNat small]

section

variable (n : Nat) (rest : List UInt8)

theorem decode_two (low : 0x80 ≤ n) (high : n < 0x800) :
    decode (UInt8.ofNat (n / 64 % 32 + 0xC0) :: UInt8.ofNat (n % 64 + 0x80) :: rest) =
      Char.ofNat n :: decode rest := by
  rw [decode, decode_byte _ (by omega), decode_byte _ (by omega), feed_ready,
    firstByte_two (by omega) (by omega), feed_last (p := n) (by omega) (by omega) (by omega)]
  rfl

theorem decode_three (low : 0x800 ≤ n) (high : n < 0x10000)
    (scalar : n < 0xD800 ∨ 0xDFFF < n) :
    decode (UInt8.ofNat (n / 4096 % 16 + 0xE0) :: UInt8.ofNat (n / 64 % 64 + 0x80) ::
      UInt8.ofNat (n % 64 + 0x80) :: rest) = Char.ofNat n :: decode rest := by
  rw [decode, decode_byte _ (by omega), decode_byte _ (by omega), decode_byte _ (by omega),
    feed_ready, firstByte_three (by omega) (by omega),
    feed_more (p := n / 64) (by split <;> omega) (by split <;> omega) (by omega),
    feed_last (p := n) (by omega) (by omega) (by omega)]
  rfl

theorem decode_four (low : 0x10000 ≤ n) (high : n < 0x110000) :
    decode (UInt8.ofNat (n / 262144 % 8 + 0xF0) :: UInt8.ofNat (n / 4096 % 64 + 0x80) ::
      UInt8.ofNat (n / 64 % 64 + 0x80) :: UInt8.ofNat (n % 64 + 0x80) :: rest) =
      Char.ofNat n :: decode rest := by
  rw [decode, decode_byte _ (by omega), decode_byte _ (by omega), decode_byte _ (by omega),
    decode_byte _ (by omega), feed_ready, firstByte_four (by omega) (by omega),
    feed_more (p := n / 4096) (by split <;> omega) (by split <;> omega) (by omega),
    feed_more (p := n / 64) (by omega) (by omega) (by omega),
    feed_last (p := n) (by omega) (by omega) (by omega)]
  rfl

theorem decode_one (small : n < 0x80) :
    decode (UInt8.ofNat n :: rest) = Char.ofNat n :: decode rest := by
  simp [decode, Decoder.decode, byte_toNat (show n < 256 by omega), Decoder.feed, Decoder.ready,
    firstByte, small]

end

theorem decode_utf8EncodeChar (c : Char) (rest : List UInt8) :
    decode (String.utf8EncodeChar c ++ rest) = c :: decode rest := by
  have same : Char.ofNat c.toNat = c := Char.ofNat_toNat c
  have scalar := valid_toNat c
  unfold String.utf8EncodeChar
  change decode ((if c.toNat ≤ 0x7f then _ else if c.toNat ≤ 0x7ff then _ else
    if c.toNat ≤ 0xffff then _ else _) ++ rest) = _
  split
  · exact (decode_one c.toNat rest (by omega)).trans (by rw [same])
  split
  · exact (decode_two c.toNat rest (by omega) (by omega)).trans (by rw [same])
  split
  · exact (decode_three c.toNat rest (by omega) (by omega) (by omega)).trans (by rw [same])
  · exact (decode_four c.toNat rest (by omega) (by omega)).trans (by rw [same])

theorem decode_encode_append (text : List Char) (rest : List UInt8) :
    decode (encode text ++ rest) = text ++ decode rest := by
  induction text with
  | nil => rfl
  | cons c text ih =>
    rw [encode_cons, append_assoc, decode_utf8EncodeChar, ih]
    rfl

@[simp] theorem decode_encode (text : List Char) : decode (encode text) = text := by
  have decoded := decode_encode_append text []
  simpa [decode, Decoder.decode, Decoder.ready] using decoded

def newlineByte : UInt8 := 10

private theorem newlineByte_eq (small : n < 256) (same : newlineByte = UInt8.ofNat n) : n = 10 := by
  have v := congrArg UInt8.toNat same
  rw [byte_toNat small] at v
  exact v.symm

private theorem newlineByte_notMem {bytes : List Nat}
    (high : ∀ byte ∈ bytes, 0x80 ≤ byte ∧ byte < 256) : newlineByte ∉ bytes.map UInt8.ofNat := by
  intro mem
  obtain ⟨byte, inside, same⟩ := mem_map.mp mem
  have bounds := high byte inside
  have code := newlineByte_eq bounds.2 same.symm
  omega

/-- The line feed byte occurs in the encoding of the line feed alone. -/
theorem newline_of_utf8EncodeChar {c : Char} (mem : newlineByte ∈ String.utf8EncodeChar c) :
    c = '\n' := by
  have same : Char.ofNat c.toNat = c := Char.ofNat_toNat c
  unfold String.utf8EncodeChar at mem
  change newlineByte ∈ (if c.toNat ≤ 0x7f then [UInt8.ofNat c.toNat] else if c.toNat ≤ 0x7ff then
    [c.toNat / 64 % 32 + 0xC0, c.toNat % 64 + 0x80].map UInt8.ofNat else if c.toNat ≤ 0xffff then
    [c.toNat / 4096 % 16 + 0xE0, c.toNat / 64 % 64 + 0x80, c.toNat % 64 + 0x80].map UInt8.ofNat
    else [c.toNat / 262144 % 8 + 0xF0, c.toNat / 4096 % 64 + 0x80, c.toNat / 64 % 64 + 0x80,
      c.toNat % 64 + 0x80].map UInt8.ofNat) at mem
  split at mem
  · have code := newlineByte_eq (by omega) (mem_singleton.mp mem)
    rw [← same, code]
  split at mem
  · exact absurd mem (newlineByte_notMem (by simp; omega))
  split at mem
  · exact absurd mem (newlineByte_notMem (by simp; omega))
  · exact absurd mem (newlineByte_notMem (by simp; omega))

theorem newlineByte_mem_encode {text : List Char} (mem : newlineByte ∈ encode text) :
    '\n' ∈ text := by
  obtain ⟨c, inside, byte⟩ := mem_flatMap.mp mem
  exact newline_of_utf8EncodeChar byte ▸ inside

theorem encode_newline : encode ['\n'] = [newlineByte] := rfl

private theorem toNat_ofNat (valid : n.isValidChar) : (Char.ofNat n).toNat = n := by
  rw [Char.ofNat, dif_pos valid]
  rfl

theorem ofNat_newline (same : Char.ofNat n = '\n') : n = 10 := by
  by_cases valid : n.isValidChar
  · rw [← toNat_ofNat valid, same]
    rfl
  · rw [Char.ofNat, dif_neg valid] at same
    exact absurd same (by decide)

theorem newline_of_firstByte (mem : '\n' ∈ (firstByte byte).2) : byte = 10 := by
  unfold firstByte at mem
  split at mem
  · exact ofNat_newline (mem_singleton.mp mem).symm
  split at mem
  · cases mem
  split at mem
  · cases mem
  split at mem
  · cases mem
  · exact absurd (mem_singleton.mp mem) (by decide)

/-- The pending sequence cannot complete to a character below `0x80`. -/
def Decoder.Multibyte (d : Decoder) : Prop :=
  ∀ byte, d.lower ≤ byte → byte ≤ d.upper →
    (d.needed = 1 → 0x80 ≤ d.codePoint * 64 + (byte - 0x80)) ∧
    (2 ≤ d.needed → 2 ≤ d.codePoint * 64 + (byte - 0x80)) ∧ 0x80 ≤ byte

theorem ready_multibyte : Decoder.ready.Multibyte := by
  intro byte above below
  simp only [Decoder.ready] at above below ⊢
  omega

theorem firstByte_multibyte (byte : Nat) : (firstByte byte).1.Multibyte := by
  unfold firstByte
  split
  · exact ready_multibyte
  split
  · intro next above below
    simp only at above below ⊢
    omega
  split
  · intro next above below
    simp only at above below ⊢
    split at above <;> omega
  split
  · intro next above below
    simp only at above below ⊢
    split at above <;> omega
  · exact ready_multibyte

theorem feed_multibyte (multibyte : d.Multibyte) (byte : Nat) :
    (d.feed byte).1.Multibyte ∧ ('\n' ∈ (d.feed byte).2 → byte = 10) := by
  unfold Decoder.feed
  split
  · exact ⟨firstByte_multibyte byte, newline_of_firstByte⟩
  split
  · refine ⟨firstByte_multibyte byte, fun mem => ?_⟩
    rcases mem_cons.mp mem with bad | here
    · exact absurd bad (by decide)
    · exact newline_of_firstByte here
  next needed inside =>
  obtain ⟨last, more, -⟩ := multibyte byte (by omega) (by omega)
  split
  · next one =>
    refine ⟨ready_multibyte, fun mem => ?_⟩
    have code := ofNat_newline (mem_singleton.mp mem).symm
    have high := last one
    omega
  · next several =>
    refine ⟨?_, by simp⟩
    intro next above below
    have high := more (by omega)
    simp only at above below ⊢
    omega

theorem newline_of_decodeFrom (multibyte : d.Multibyte)
    (mem : '\n' ∈ d.decode bytes) : newlineByte ∈ bytes := by
  induction bytes generalizing d with
  | nil =>
    rw [Decoder.decode] at mem
    split at mem
    · cases mem
    · exact absurd (mem_singleton.mp mem) (by decide)
  | cons byte rest ih =>
    obtain ⟨kept, newline⟩ := feed_multibyte multibyte byte.toNat
    rw [Decoder.decode] at mem
    rcases mem_append.mp mem with here | later
    · have code : byte = newlineByte := UInt8.toNat_inj.mp (newline here)
      exact code ▸ mem_cons_self
    · exact mem_cons_of_mem _ (ih kept later)

theorem newline_of_decode (mem : '\n' ∈ decode bytes) :
    newlineByte ∈ bytes :=
  newline_of_decodeFrom ready_multibyte mem

theorem firstByte_progress (byte : Nat) :
    (firstByte byte).2 ≠ [] ∨ (firstByte byte).1.needed ≠ 0 := by
  unfold firstByte
  repeat' split
  all_goals simp

theorem feed_progress (d : Decoder) (byte : Nat) :
    (d.feed byte).2 ≠ [] ∨ (d.feed byte).1.needed ≠ 0 := by
  unfold Decoder.feed
  split
  · exact firstByte_progress byte
  split
  · simp
  split
  · simp
  · next pending _ last =>
    right
    simp only
    omega

theorem decodeFrom_ne_nil (d : Decoder) (bytes : List UInt8)
    (pending : d.needed ≠ 0 ∨ bytes ≠ []) : d.decode bytes ≠ [] := by
  induction bytes generalizing d with
  | nil =>
    have incomplete : d.needed ≠ 0 := by simpa using pending
    simp [Decoder.decode, incomplete]
  | cons byte rest ih =>
    rw [Decoder.decode]
    rcases feed_progress d byte.toNat with written | incomplete
    · exact append_ne_nil_of_left_ne_nil written _
    · exact append_ne_nil_of_right_ne_nil _ (ih _ (.inl incomplete))

theorem decode_ne_nil (nonempty : bytes ≠ []) : decode bytes ≠ [] :=
  decodeFrom_ne_nil _ bytes (.inr nonempty)

end Trpi.Library.Utf8

/-!
## The host's text decoder

Lossy decoding of UTF-8 that arrives in pieces. A leading byte order mark is not part of
the text; a decoder that has been flushed begins anew.
-/

namespace Trpi.Library

def byteOrderMark : Char := Char.ofNat 0xFEFF

/-- Leave out a byte order mark that nothing was decoded before. -/
def skipMark : Bool → List Char → List Char
  | false, c :: rest => if c = byteOrderMark then rest else c :: rest
  | _, text => text

/-- `decode(bytes)` of a decoder that holds nothing. -/
def decodeText (bytes : List UInt8) : List Char := skipMark false (Utf8.decode bytes)

theorem decodeText_encode {text : List Char} (unmarked : text.head? ≠ some byteOrderMark) :
    decodeText (Utf8.encode text) = text := by
  rw [decodeText, Utf8.decode_encode]
  cases text with
  | nil => rfl
  | cons c rest =>
    rw [skipMark, if_neg]
    exact fun same => unmarked (congrArg some same)

theorem decodeText_encode_cases (text : List Char) :
    decodeText (Utf8.encode text) = text ∨
      text = byteOrderMark :: decodeText (Utf8.encode text) := by
  by_cases marked : text.head? = some byteOrderMark
  · cases text with
    | nil => cases marked
    | cons c rest =>
      have same : c = byteOrderMark := Option.some.inj marked
      rw [decodeText, Utf8.decode_encode, skipMark, if_pos same, same]
      exact .inr rfl
  · exact .inl (decodeText_encode marked)

structure TextDecoder where
  pending : Utf8.Decoder
  markSeen : Bool

def TextDecoder.new : TextDecoder := { pending := .ready, markSeen := false }

def Utf8.Decoder.feedAll : Utf8.Decoder → List UInt8 → Utf8.Decoder × List Char
  | d, [] => (d, [])
  | d, byte :: rest =>
    let fed := d.feed byte.toNat
    ((feedAll fed.1 rest).1, fed.2 ++ (feedAll fed.1 rest).2)

theorem Utf8.Decoder.feedAll_append (d : Utf8.Decoder) (first second : List UInt8) :
    d.feedAll (first ++ second) = (((d.feedAll first).1.feedAll second).1,
      (d.feedAll first).2 ++ ((d.feedAll first).1.feedAll second).2) := by
  induction first generalizing d with
  | nil => rfl
  | cons byte rest ih => simp [feedAll, ih]

theorem Utf8.Decoder.decode_eq (d : Utf8.Decoder) (bytes : List UInt8) :
    d.decode bytes = (d.feedAll bytes).2 ++ (d.feedAll bytes).1.decode [] := by
  induction bytes generalizing d with
  | nil => rfl
  | cons byte rest ih =>
    rw [feedAll, List.append_assoc, ← ih]
    rfl

/-- `decode(bytes, { stream: true })`. -/
def TextDecoder.stream (d : TextDecoder) (bytes : List UInt8) : TextDecoder × List Char :=
  let fed := d.pending.feedAll bytes
  ({ pending := fed.1, markSeen := d.markSeen || fed.2 != [] }, skipMark d.markSeen fed.2)

/-- `decode()`: what an incomplete character becomes. The decoder is then as new. -/
def TextDecoder.flush (d : TextDecoder) : List Char :=
  skipMark d.markSeen (d.pending.decode [])

end Trpi.Library
