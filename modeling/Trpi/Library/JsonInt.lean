import Mathlib.Algebra.Order.Ring.Int
import Trpi.Library.Json

/-!
# Integers as JSON numbers

Decimal integers without exponent or fraction: the part of the number grammar
that counters, sequences and timestamps use. Other number texts are refused.
-/

namespace Trpi.Library

namespace JsonInt

def print : Int → List Char
  | .ofNat n => Nat.toDigits 10 n
  | .negSucc n => '-' :: Nat.toDigits 10 (n + 1)

def readDigits (text : List Char) : Option Nat :=
  if text ≠ [] ∧ text.all Char.isDigit then some (Nat.ofDigitChars 10 text 0) else none

def read : List Char → Option Int
  | [] => none
  | c :: rest =>
    if c = '-' then (readDigits rest).map fun n => -(n : Int)
    else (readDigits (c :: rest)).map Int.ofNat

theorem digits_isDigit {n : Nat} {c : Char} (mem : c ∈ Nat.toDigits 10 n) : c.isDigit = true :=
  Nat.isDigit_of_mem_toDigits (by decide) (by decide) mem

theorem readDigits_toDigits (n : Nat) : readDigits (Nat.toDigits 10 n) = some n := by
  have digits : (Nat.toDigits 10 n).all Char.isDigit = true :=
    List.all_eq_true.mpr fun _ mem => digits_isDigit mem
  simp [readDigits, digits, Nat.toDigits_ne_nil, Nat.ofDigitChars_toDigits]

theorem read_print (n : Int) : read (print n) = some n := by
  cases n with
  | ofNat n =>
    have digits := readDigits_toDigits n
    cases printed : Nat.toDigits 10 n with
    | nil => exact absurd printed Nat.toDigits_ne_nil
    | cons c rest =>
      have digit : c.isDigit = true := digits_isDigit (n := n) (by simp [printed])
      have unsigned : c ≠ '-' := by
        rintro rfl
        exact absurd digit (by decide)
      rw [printed] at digits
      simp [print, printed, read, unsigned, digits]
  | negSucc n => simp [print, read, readDigits_toDigits, Int.negSucc_eq]

theorem print_head (n : Int) : ∃ c rest, print n = c :: rest ∧ (c.isDigit ∨ c = '-') := by
  cases n with
  | ofNat n =>
    cases printed : Nat.toDigits 10 n with
    | nil => exact absurd printed Nat.toDigits_ne_nil
    | cons c rest => exact ⟨c, rest, printed, .inl (digits_isDigit (n := n) (by simp [printed]))⟩
  | negSucc n => exact ⟨'-', Nat.toDigits 10 (n + 1), rfl, .inr rfl⟩

theorem print_chars (n : Int) (c : Char) (mem : c ∈ print n) : isNumberChar c = true := by
  cases n with
  | ofNat n => simp [isNumberChar, digits_isDigit mem]
  | negSucc n =>
    rcases List.mem_cons.mp mem with rfl | digit
    · rfl
    · simp [isNumberChar, digits_isDigit digit]

end JsonInt

instance : JsonNumber Int where
  print := JsonInt.print
  read := JsonInt.read
  ofNat := Int.ofNat
  toNat? n := if 0 ≤ n then some n.toNat else none
  print_head := JsonInt.print_head
  print_chars := JsonInt.print_chars
  read_print := JsonInt.read_print
  toNat?_ofNat n := by simp

end Trpi.Library
