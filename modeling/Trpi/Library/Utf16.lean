import Trpi.Library.Utf8

/-!
# Strings of UTF-16 code units

A host string is any sequence of 16-bit units. Encoding it as UTF-8 reads it as
scalar values first, each lone surrogate as the replacement character, and the
strict decoder refuses ill-formed bytes. Only well-formed strings survive the
trip.
-/

namespace Trpi.Library.Utf16

open List

abbrev Units := List UInt16

instance : LawfulBEq Units := inferInstance

def isLead (unit : UInt16) : Bool := 0xD800 ≤ unit.toNat && unit.toNat < 0xDC00

def isTrail (unit : UInt16) : Bool := 0xDC00 ≤ unit.toNat && unit.toNat < 0xE000

def pair (lead trail : UInt16) : Char :=
  Char.ofNat (0x10000 + (lead.toNat - 0xD800) * 0x400 + (trail.toNat - 0xDC00))

/-- The scalar value of a unit on its own. -/
def single (unit : UInt16) : Char :=
  if isLead unit || isTrail unit then Utf8.replacement else Char.ofNat unit.toNat

def scalars : Units → List Char
  | [] => []
  | [unit] => [single unit]
  | unit :: next :: rest =>
    if isLead unit && isTrail next then pair unit next :: scalars rest
    else single unit :: scalars (next :: rest)

def unitsOf (c : Char) : Units :=
  if c.toNat < 0x10000 then [UInt16.ofNat c.toNat]
  else [UInt16.ofNat (0xD800 + (c.toNat - 0x10000) / 0x400),
    UInt16.ofNat (0xDC00 + (c.toNat - 0x10000) % 0x400)]

def units (text : List Char) : Units := text.flatMap unitsOf

/-- `TextEncoder.encode`. -/
def textEncode (text : Units) : List UInt8 := Utf8.encode (scalars text)

/-- `TextDecoder.decode` in fatal mode, a byte order mark kept: well-formed bytes
are those that encode what they decode to. -/
def textDecode (bytes : List UInt8) : Option Units :=
  if Utf8.encode (Utf8.decode bytes) = bytes then some (units (Utf8.decode bytes)) else none

@[simp] theorem units_append (first second : List Char) :
    units (first ++ second) = units first ++ units second := flatMap_append

theorem units_cons (c : Char) (rest : List Char) : units (c :: rest) = unitsOf c ++ units rest := rfl

/-- No surrogate pair stands across the seam. -/
def Seam (front back : Units) : Prop :=
  front.getLast?.any isLead = true → back.head?.any isTrail = false

theorem scalars_pair {lead trail : UInt16} (paired : isLead lead = true ∧ isTrail trail = true)
    (rest : Units) : scalars (lead :: trail :: rest) = pair lead trail :: scalars rest := by
  simp [scalars, paired]

theorem scalars_single {unit : UInt16} {rest : Units} (seam : Seam [unit] rest) :
    scalars (unit :: rest) = single unit :: scalars rest := by
  cases rest with
  | nil => rfl
  | cons next rest =>
    have apart : ¬ (isLead unit && isTrail next) = true := by
      intro both
      obtain ⟨lead, trail⟩ := Bool.and_eq_true_iff.mp both
      exact absurd trail (by simpa using seam lead)
    rw [scalars, if_neg apart]

/-- Induction over a string as it is read, a surrogate pair at once. -/
@[elab_as_elim]
theorem pairs_induction {motive : Units → Prop} (nil : motive [])
    (last : ∀ unit, motive [unit])
    (paired : ∀ unit next rest, (isLead unit && isTrail next) = true → motive rest →
      motive (unit :: next :: rest))
    (alone : ∀ unit next rest, ¬ (isLead unit && isTrail next) = true → motive (next :: rest) →
      motive (unit :: next :: rest)) (text : Units) : motive text := by
  induction text using scalars.induct with
  | case1 => exact nil
  | case2 unit => exact last unit
  | case3 unit next rest both ih => exact paired unit next rest both ih
  | case4 unit next rest apart ih => exact alone unit next rest apart ih

theorem scalars_append {front back : Units} (seam : Seam front back) :
    scalars (front ++ back) = scalars front ++ scalars back := by
  induction front using pairs_induction with
  | nil => rfl
  | last unit => exact scalars_single seam
  | paired unit next rest paired ih =>
    have both := Bool.and_eq_true_iff.mp paired
    have inner : Seam rest back := by
      cases rest with
      | nil => exact nofun
      | cons => exact seam
    rw [cons_append, cons_append, scalars_pair both, scalars_pair both, ih inner]
    rfl
  | alone unit next rest apart ih =>
    rw [cons_append, cons_append, scalars, if_neg apart, scalars, if_neg apart]
    exact congrArg _ (ih seam)

private theorem toNat_pair_or (c : Char) :
    c.toNat < 0xD800 ∨ (0xDFFF < c.toNat ∧ c.toNat < 0x110000) := c.valid

private theorem unit_toNat {n : Nat} (small : n < 0x10000) : (UInt16.ofNat n).toNat = n := by
  rw [UInt16.toNat_ofNat']
  exact Nat.mod_eq_of_lt small

theorem scalars_unitsOf (c : Char) : scalars (unitsOf c) = [c] := by
  have same : Char.ofNat c.toNat = c := Char.ofNat_toNat c
  have scalar := toNat_pair_or c
  unfold unitsOf
  split
  · next small =>
    have plain : (isLead (UInt16.ofNat c.toNat) || isTrail (UInt16.ofNat c.toNat)) = false := by
      simp only [isLead, isTrail, unit_toNat small, Bool.or_eq_false_iff, Bool.and_eq_false_iff,
        decide_eq_false_iff_not]
      omega
    rw [scalars, single, plain, if_neg Bool.false_ne_true, unit_toNat small, same]
  · next large =>
    obtain ⟨high, highEq⟩ : ∃ n, n = (c.toNat - 0x10000) / 0x400 := ⟨_, rfl⟩
    obtain ⟨low, lowEq⟩ : ∃ n, n = (c.toNat - 0x10000) % 0x400 := ⟨_, rfl⟩
    have lead := unit_toNat (show 0xD800 + high < 0x10000 by omega)
    have trail := unit_toNat (show 0xDC00 + low < 0x10000 by omega)
    have joined : 0x10000 + (0xD800 + high - 0xD800) * 0x400 + (0xDC00 + low - 0xDC00) = c.toNat := by
      omega
    rw [← highEq, ← lowEq, scalars_pair]
    · rw [pair, lead, trail, joined, same]
      rfl
    · simp only [isLead, isTrail, lead, trail, Bool.and_eq_true, decide_eq_true_eq]
      omega

private theorem isTrail_ofNat {n : Nat} (small : n < 0x10000) (outside : n < 0xDC00 ∨ 0xE000 ≤ n) :
    isTrail (UInt16.ofNat n) = false := by
  rw [isTrail, unit_toNat small, Bool.and_eq_false_iff, decide_eq_false_iff_not,
    decide_eq_false_iff_not]
  omega

/-- Well-formed strings do not begin inside a surrogate pair. -/
theorem head_units (text : List Char) : (units text).head?.any isTrail = false := by
  cases text with
  | nil => rfl
  | cons c rest =>
    have scalar := toNat_pair_or c
    rw [units_cons, unitsOf]
    split
    · rw [singleton_append, head?_cons, Option.any_some]
      exact isTrail_ofNat (by omega) (by omega)
    · rw [cons_append, head?_cons, Option.any_some]
      exact isTrail_ofNat (by omega) (by omega)

theorem seam_units (front : Units) (text : List Char) : Seam front (units text) :=
  fun _ => head_units text

@[simp] theorem scalars_units (text : List Char) : scalars (units text) = text := by
  induction text with
  | nil => rfl
  | cons c rest ih =>
    rw [units_cons, scalars_append (seam_units _ rest), scalars_unitsOf, ih]
    rfl

end Trpi.Library.Utf16
