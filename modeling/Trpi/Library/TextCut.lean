import Trpi.Library.Utf16

/-!
# Cutting encoded text

An encoded character is one byte that begins it and at most three continuation bytes, so
a cut anywhere in encoded text is at most three bytes away from the next character and
from the one it falls into. A string of UTF-16 units that is well-formed is cut at a
character by the same cut.
-/

namespace Trpi.Library

open List

namespace Utf8

def isContinuation (byte : UInt8) : Bool := byte &&& 0xC0 = 0x80

/-- Step back from a continuation byte to the one that begins its character. -/
def backUp (bytes : List UInt8) : Nat → Nat
  | 0 => 0
  | n + 1 => if bytes[n + 1]?.any isContinuation then backUp bytes n else n + 1

set_option maxRecDepth 4000 in
theorem isContinuation_ofNat : ∀ n < 256,
    isContinuation (UInt8.ofNat n) = decide (0x80 ≤ n ∧ n < 0xC0) := by
  decide

/-- A byte that begins a character, and its continuation bytes. -/
structure Shape (bytes : List UInt8) (first : UInt8) (tail : List UInt8) : Prop where
  same : bytes = first :: tail
  begins : isContinuation first = false
  continues : ∀ byte ∈ tail, isContinuation byte = true
  short : tail.length ≤ 3

variable {n : Nat}

private theorem begins_of (small : n < 256) (outside : n < 0x80 ∨ 0xC0 ≤ n) :
    isContinuation (UInt8.ofNat n) = false := by
  rw [isContinuation_ofNat n small]
  simp
  omega

private theorem continues_of (inside : 0x80 ≤ n ∧ n < 0xC0) :
    isContinuation (UInt8.ofNat n) = true := by
  rw [isContinuation_ofNat n (by omega)]
  simpa using inside

theorem utf8EncodeChar_shape (c : Char) :
    ∃ first tail, Shape (String.utf8EncodeChar c) first tail := by
  have scalar : c.val.toNat < 0x110000 := by
    rcases c.valid with low | high
    · exact Nat.lt_trans low (by decide)
    · exact high.2
  unfold String.utf8EncodeChar
  dsimp only
  split
  · exact ⟨_, [], rfl, begins_of (by omega) (by omega), by simp, by simp⟩
  split
  · refine ⟨_, [_], rfl, begins_of (by omega) (by omega), ?_, by simp⟩
    intro byte mem
    rw [mem_singleton] at mem
    subst mem
    exact continues_of (by omega)
  split
  · refine ⟨_, [_, _], rfl, begins_of (by omega) (by omega), ?_, by simp⟩
    intro byte mem
    simp only [mem_cons, not_mem_nil, or_false] at mem
    rcases mem with rfl | rfl
    · exact continues_of (by omega)
    · exact continues_of (by omega)
  · refine ⟨_, [_, _, _], rfl, begins_of (by omega) (by omega), ?_, by simp⟩
    intro byte mem
    simp only [mem_cons, not_mem_nil, or_false] at mem
    rcases mem with rfl | rfl | rfl
    · exact continues_of (by omega)
    · exact continues_of (by omega)
    · exact continues_of (by omega)

theorem head_encode (text : List Char) : (encode text).head?.any isContinuation = false := by
  cases text with
  | nil => rfl
  | cons c rest =>
    obtain ⟨first, tail, shape⟩ := utf8EncodeChar_shape c
    rw [encode_cons, shape.same]
    exact shape.begins

theorem dropWhile_encode (text : List Char) :
    (encode text).dropWhile isContinuation = encode text := by
  have head := head_encode text
  cases bytes : encode text with
  | nil => rfl
  | cons byte rest =>
    rw [bytes] at head
    exact dropWhile_cons_of_neg (by simpa using head)

theorem drop_cut (text : List Char) (inside : n ≤ (encode text).length) :
    ∃ front back, text = front ++ back ∧
      ((encode text).drop n).dropWhile isContinuation = encode back ∧
      n ≤ (encode front).length ∧ (encode front).length ≤ n + 3 := by
  induction text generalizing n with
  | nil =>
    have none_ : n = 0 := Nat.le_zero.mp inside
    exact ⟨[], [], rfl, by simp, by simp [none_], by simp⟩
  | cons c rest ih =>
    obtain ⟨first, tail, shape⟩ := utf8EncodeChar_shape c
    have width : (String.utf8EncodeChar c).length = tail.length + 1 := by rw [shape.same]; rfl
    have short := shape.short
    rw [encode_cons, length_append] at inside
    cases n with
    | zero =>
      refine ⟨[], c :: rest, rfl, ?_, Nat.le_refl _, Nat.zero_le _⟩
      rw [drop_zero, dropWhile_encode]
    | succ n =>
      by_cases early : n + 1 ≤ (String.utf8EncodeChar c).length
      · refine ⟨[c], rest, rfl, ?_, ?_, ?_⟩
        · have inTail : ∀ byte ∈ tail.drop n, isContinuation byte = true :=
            fun byte mem => shape.continues byte (mem_of_mem_drop mem)
          rw [encode_cons, drop_append_of_le_length early, shape.same, drop_succ_cons,
            dropWhile_append_of_pos inTail, dropWhile_encode]
        · simpa [encode] using early
        · simp only [encode, flatMap_cons, flatMap_nil, append_nil]
          omega
      · obtain ⟨more, same⟩ := Nat.exists_eq_add_of_le (Nat.le_of_not_le early)
        obtain ⟨front, back, split, dropped, atLeast, atMost⟩ := @ih more (by omega)
        refine ⟨c :: front, back, by rw [split]; rfl, ?_, ?_, ?_⟩
        · rw [encode_cons, same, drop_append, drop_of_length_le (Nat.le_add_right _ _),
            nil_append, Nat.add_sub_cancel_left, dropped]
        · rw [encode_cons, length_append]
          omega
        · rw [encode_cons, length_append]
          omega

theorem backUp_append (front : List UInt8) {back : List UInt8}
    (begins : back.head?.any isContinuation = false) (n : Nat) :
    backUp (front ++ back) (front.length + n) = front.length + backUp back n := by
  induction n with
  | zero =>
    rw [Nat.add_zero, backUp, Nat.add_zero]
    cases size : front.length with
    | zero => rfl
    | succ k =>
      rw [backUp, if_neg]
      rw [getElem?_append_right (by omega), size, Nat.sub_self, ← head?_eq_getElem?]
      simp [begins]
  | succ n ih =>
    rw [← Nat.add_assoc, backUp, backUp]
    have at_ : (front ++ back)[front.length + n + 1]? = back[n + 1]? := by
      rw [getElem?_append_right (by omega), show front.length + n + 1 - front.length = n + 1 by omega]
    rw [at_]
    split
    · exact ih
    · rfl

theorem backUp_tail {first : UInt8} {tail rest : List UInt8}
    (continues : ∀ byte ∈ tail, isContinuation byte = true) (inside : n ≤ tail.length) :
    backUp (first :: tail ++ rest) n = 0 := by
  induction n with
  | zero => rfl
  | succ n ih =>
    have at_ : (first :: tail ++ rest)[n + 1]? = some tail[n] := by
      rw [cons_append, getElem?_cons_succ, getElem?_append_left (by omega),
        getElem?_eq_getElem (by omega)]
    rw [backUp, at_, if_pos]
    · exact ih (by omega)
    · exact continues _ (getElem_mem _)

theorem take_cut (text : List Char) (inside : n ≤ (encode text).length) :
    ∃ front back, text = front ++ back ∧
      (encode text).take (backUp (encode text) n) = encode front ∧
      (encode front).length ≤ n ∧ n ≤ (encode front).length + 3 := by
  induction text generalizing n with
  | nil =>
    have none_ : n = 0 := Nat.le_zero.mp inside
    exact ⟨[], [], rfl, by simp, by simp, by simp [none_]⟩
  | cons c rest ih =>
    obtain ⟨first, tail, shape⟩ := utf8EncodeChar_shape c
    have width : (String.utf8EncodeChar c).length = tail.length + 1 := by rw [shape.same]; rfl
    have short := shape.short
    rw [encode_cons, length_append] at inside
    by_cases early : n ≤ tail.length
    · refine ⟨[], c :: rest, rfl, ?_, by simp, by simp; omega⟩
      rw [encode_cons, shape.same, backUp_tail shape.continues early]
      rfl
    · obtain ⟨more, same⟩ := Nat.exists_eq_add_of_le
        (show (String.utf8EncodeChar c).length ≤ n by omega)
      obtain ⟨front, back, split, taken, atMost, atLeast⟩ := @ih more (by omega)
      refine ⟨c :: front, back, by rw [split]; rfl, ?_, ?_, ?_⟩
      · rw [encode_cons, same, backUp_append _ (head_encode rest), take_length_add_append, taken,
          encode_cons]
      · rw [encode_cons, length_append]
        omega
      · rw [encode_cons, length_append]
        omega

end Utf8

end Trpi.Library
