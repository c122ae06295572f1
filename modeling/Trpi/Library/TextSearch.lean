import Mathlib.Data.List.Basic
import Mathlib.Data.List.Infix

/-!
# Searching and splicing text

A text is a list of any units. Searching is for the first of the positions where
the needle occurs; overlapping occurrences are different positions. A list of
regions that lie behind one another is replaced all at once, and splicing them from
the last to the first comes to the same.
-/

namespace Trpi.Library

open List

variable {α : Type}

section

variable [DecidableEq α]

def occursAt (needle text : List α) (position : Nat) : Bool :=
  needle.isPrefixOf (text.drop position)

def positions (needle text : List α) : List Nat :=
  (List.range (text.length + 1)).filter (occursAt needle text)

def indexOf (needle text : List α) : Option Nat := (positions needle text).head?

def splitFrom (separator : List α) : Nat → List α → List α → List (List α)
  | _, piece, [] => [piece]
  | skip + 1, piece, _ :: rest => splitFrom separator skip piece rest
  | 0, piece, unit :: rest =>
    if separator.isPrefixOf (unit :: rest) then
      piece :: splitFrom separator (separator.length - 1) [] rest
    else splitFrom separator 0 (piece ++ [unit]) rest

/-- The pieces between the occurrences found from the left, none overlapping the one
before; the empty separator stands between any two units. -/
def split (separator text : List α) : List (List α) :=
  if separator = [] then text.map fun unit => [unit] else splitFrom separator 0 [] text

variable {needle text part : List α} {position : Nat}

theorem mem_positions :
    position ∈ positions needle text ↔ position ≤ text.length ∧ needle <+: text.drop position := by
  rw [positions, mem_filter, mem_range, Nat.lt_succ_iff, occursAt, isPrefixOf_iff_prefix]

theorem mem_positions_of_indexOf (found : indexOf needle text = some position) :
    position ∈ positions needle text :=
  mem_of_head? found

theorem indexOf_eq_some (inside : position ≤ text.length) (occurs : needle <+: text.drop position)
    (first : ∀ earlier < position, ¬ needle <+: text.drop earlier) :
    indexOf needle text = some position := by
  rw [indexOf, positions, head?_filter, find?_range_eq_some]
  refine ⟨ isPrefixOf_iff_prefix.mpr occurs, mem_range.mpr (Nat.lt_succ_of_le inside), ?_⟩
  intro earlier before
  rw [Bool.not_eq_true', Bool.eq_false_iff]
  exact fun found => first earlier before ( isPrefixOf_iff_prefix.mp found)

theorem indexOf_eq_none (absent : ∀ position, ¬ needle <+: text.drop position) :
    indexOf needle text = none := by
  rw [indexOf, head?_eq_none_iff, eq_nil_iff_forall_not_mem]
  intro position mem
  exact absent position (mem_positions.mp mem).2

theorem take_of_mem_positions (mem : position ∈ positions needle text) :
    (text.drop position).take needle.length = needle ∧ position + needle.length ≤ text.length := by
  obtain ⟨inside, occurs⟩ := mem_positions.mp mem
  refine ⟨(prefix_iff_eq_take.mp occurs).symm, ?_⟩
  have shorter := occurs.length_le
  rw [length_drop] at shorter
  omega

theorem splitFrom_last {separator : α} (plain : separator ∉ part)
    (piece : List α) : splitFrom [separator] 0 piece part = [piece ++ part] := by
  induction part generalizing piece with
  | nil => simp [splitFrom]
  | cons unit rest ih =>
    obtain ⟨head, tail⟩ := not_or.mp (mem_cons.not.mp plain)
    have other : ([separator].isPrefixOf (unit :: rest)) = false := by
      simp [isPrefixOf, head]
    rw [splitFrom, other, if_neg Bool.false_ne_true, ih tail, append_assoc, singleton_append]

theorem splitFrom_part {separator : α} (plain : separator ∉ part) (piece rest : List α) :
    splitFrom [separator] 0 piece (part ++ separator :: rest) =
      (piece ++ part) :: splitFrom [separator] 0 [] rest := by
  induction part generalizing piece with
  | nil => simp [splitFrom, isPrefixOf]
  | cons unit part ih =>
    obtain ⟨head, tail⟩ := not_or.mp (mem_cons.not.mp plain)
    have other : ([separator].isPrefixOf (unit :: (part ++ separator :: rest))) = false := by
      simp [isPrefixOf, head]
    rw [cons_append, splitFrom, other, if_neg Bool.false_ne_true, ih tail, append_assoc,
      singleton_append]

/-- The parts of a text that the separator ends, and what is behind the last separator. -/
structure Parts (separator : α) (text : List α) (parts : List (List α)) (last : List α) : Prop where
  same : text = parts.flatMap (· ++ [separator]) ++ last
  plain : ∀ part ∈ parts, separator ∉ part
  plainLast : separator ∉ last

theorem exists_parts (separator : α) (text : List α) :
    ∃ parts last, Parts separator text parts last := by
  induction text with
  | nil => exact ⟨[], [], rfl, by simp, by simp⟩
  | cons unit rest ih =>
    obtain ⟨parts, last, same, plain, plainLast⟩ := ih
    by_cases ends : unit = separator
    · refine ⟨[] :: parts, last, by simp [same, ends], ?_, plainLast⟩
      intro part mem
      rcases mem_cons.mp mem with rfl | later
      · exact not_mem_nil
      · exact plain part later
    · have other : separator ≠ unit := Ne.symm ends
      cases parts with
      | nil => exact ⟨[], unit :: last, by simp [same], by simp, by simp [other, plainLast]⟩
      | cons first parts =>
        refine ⟨(unit :: first) :: parts, last, by simp [same], ?_, plainLast⟩
        intro part mem
        rcases mem_cons.mp mem with rfl | later
        · simp [other, plain first mem_cons_self]
        · exact plain part (mem_cons_of_mem _ later)

variable {separator : α} {text first last : List α} {parts : List (List α)}

omit [DecidableEq α] in
theorem Parts.of_cons (parted : Parts separator text (first :: parts) last) :
    separator ∉ first ∧
      ∃ rest, text = first ++ separator :: rest ∧ Parts separator rest parts last := by
  refine ⟨parted.plain first mem_cons_self, parts.flatMap (· ++ [separator]) ++ last, ?_, rfl,
    fun part mem => parted.plain part (mem_cons_of_mem _ mem), parted.plainLast⟩
  simpa using parted.same

omit [DecidableEq α] in
theorem Parts.nil (parted : Parts separator text [] last) : text = last := by
  simpa using parted.same

section

variable (parted : Parts separator text parts last)

include parted

theorem Parts.split : split [separator] text = parts ++ [last] := by
  rw [Library.split, if_neg (cons_ne_nil _ _)]
  induction parts generalizing text with
  | nil =>
    have plain : separator ∉ text := parted.nil ▸ parted.plainLast
    rw [splitFrom_last plain, parted.nil]
    rfl
  | cons first parts ih =>
    obtain ⟨plain, rest, rfl, later⟩ := parted.of_cons
    rw [splitFrom_part plain, ih later]
    rfl

theorem Parts.count : text.count separator = parts.length := by
  induction parts generalizing text with
  | nil => rw [parted.nil, count_eq_zero_of_not_mem parted.plainLast, length_nil]
  | cons first parts ih =>
    obtain ⟨plain, rest, rfl, later⟩ := parted.of_cons
    rw [count_append, count_cons_self, ih later, count_eq_zero_of_not_mem plain,
      length_cons, Nat.zero_add]

theorem Parts.takeWhile :
    (text.reverse.takeWhile fun unit => unit != separator).reverse = last := by
  have kept : ∀ unit ∈ last.reverse, (unit != separator) = true := by
    intro unit mem
    rw [bne_iff_ne]
    rintro rfl
    exact parted.plainLast (mem_reverse.mp mem)
  rw [parted.same, reverse_append, takeWhile_append_of_pos kept, reverse_append, reverse_reverse]
  cases reversed : (parts.flatMap (· ++ [separator])).reverse with
  | nil => rfl
  | cons unit rest =>
    have ends : unit = separator := by
      rcases eq_nil_or_concat parts with rfl | ⟨front, part, rfl⟩
      · cases reversed
      · simp at reversed
        exact reversed.1.symm
    rw [takeWhile_cons_of_neg (by simp [ends])]
    rfl

omit [DecidableEq α] in
theorem Parts.getLast? (nonempty : text ≠ []) : text.getLast? = some separator ↔ last = [] := by
  rcases eq_nil_or_concat last with rfl | ⟨front, unit, rfl⟩
  · refine ⟨fun _ => rfl, fun _ => ?_⟩
    rcases eq_nil_or_concat parts with rfl | ⟨front, part, rfl⟩
    · exact absurd parted.nil nonempty
    · rw [parted.same]
      simp
  · have other : unit ≠ separator := by
      rintro rfl
      exact parted.plainLast (by simp)
    rw [parted.same]
    simp [other]

omit [DecidableEq α] in
theorem Parts.append {more : List α} {others : List (List α)} {final : List α} (then_ : Parts separator more others final) :
    Parts separator (text ++ more) (parts ++ (others.modifyHead (last ++ ·)))
      (if others = [] then last ++ final else final) := by
  cases others with
  | nil =>
    rw [if_pos rfl]
    refine ⟨?_, by simpa using parted.plain, ?_⟩
    · rw [parted.same, then_.nil]
      simp
    · rw [mem_append, not_or]
      exact ⟨parted.plainLast, then_.plainLast⟩
  | cons first others =>
    rw [if_neg (cons_ne_nil _ _)]
    refine ⟨?_, ?_, then_.plainLast⟩
    · rw [parted.same, then_.same]
      simp
    · intro part mem
      rcases mem_append.mp mem with early | late
      · exact parted.plain part early
      · rcases mem_cons.mp late with rfl | late
        · rw [mem_append, not_or]
          exact ⟨parted.plainLast, then_.plain first mem_cons_self⟩
        · exact then_.plain part (mem_cons_of_mem _ late)

end

end

structure Region (α : Type) where
  start : Nat
  length : Nat
  text : List α

def Region.stop (region : Region α) : Nat := region.start + region.length

def Region.splice (region : Region α) (content : List α) : List α :=
  content.take region.start ++ region.text ++ content.drop region.stop

/-- The regions lie behind one another from `position` on. -/
def Ordered (size : Nat) : Nat → List (Region α) → Prop
  | position, [] => position ≤ size
  | position, region :: rest => position ≤ region.start ∧ Ordered size region.stop rest

/-- A kept text and the region behind it, before and after. -/
structure Piece (α : Type) where
  kept : List α
  old : List α
  new : List α

def Piece.before (piece : Piece α) : List α := piece.kept ++ piece.old

def Piece.after (piece : Piece α) : List α := piece.kept ++ piece.new

/-- `result` is `content` with the regions of the pieces replaced at once. -/
structure Rewrites (content result : List α) (pieces : List (Piece α)) (last : List α) : Prop where
  before : content = pieces.flatMap Piece.before ++ last
  after : result = pieces.flatMap Piece.after ++ last

def piecesFrom (content : List α) : Nat → List (Region α) → List (Piece α)
  | _, [] => []
  | position, region :: rest =>
    { kept := (content.drop position).take (region.start - position)
      old := (content.drop region.start).take region.length
      new := region.text } :: piecesFrom content region.stop rest

def lastStop : Nat → List (Region α) → Nat
  | position, [] => position
  | _, region :: rest => lastStop region.stop rest

variable {position : Nat} {regions : List (Region α)} {content : List α}

theorem Ordered.le {size : Nat} (ordered : Ordered size position regions) : position ≤ size := by
  induction regions generalizing position with
  | nil => exact ordered
  | cons region rest ih =>
    have later := ih ordered.2
    have first := ordered.1
    unfold Region.stop at later
    omega

theorem piecesFrom_before (ordered : Ordered content.length position regions) :
    content.drop position = (piecesFrom content position regions).flatMap Piece.before ++
      content.drop (lastStop position regions) := by
  induction regions generalizing position with
  | nil => rfl
  | cons region rest ih =>
    obtain ⟨first, later⟩ := ordered
    have kept : content.drop position =
        (content.drop position).take (region.start - position) ++ content.drop region.start := by
      have cut := take_append_drop (region.start - position) (content.drop position)
      rw [drop_drop, show position + (region.start - position) = region.start by omega] at cut
      exact cut.symm
    have old : content.drop region.start =
        (content.drop region.start).take region.length ++ content.drop region.stop := by
      have cut := take_append_drop region.length (content.drop region.start)
      rw [drop_drop] at cut
      exact cut.symm
    simp only [piecesFrom, flatMap_cons, Piece.before, lastStop, append_assoc]
    rw [← ih later, ← old]
    exact kept

theorem foldr_splice (ordered : Ordered content.length position regions) :
    regions.foldr Region.splice content = content.take position ++
      ((piecesFrom content position regions).flatMap Piece.after ++
        content.drop (lastStop position regions)) := by
  induction regions generalizing position with
  | nil => exact (take_append_drop position content).symm
  | cons region rest ih =>
    obtain ⟨first, later⟩ := ordered
    have within := later.le
    have stop : region.start ≤ region.stop := Nat.le_add_right ..
    have length : (content.take region.stop).length = region.stop := by
      rw [length_take, Nat.min_eq_left within]
    have head : content.take region.start =
        content.take position ++ (content.drop position).take (region.start - position) := by
      rw [← take_add, show position + (region.start - position) = region.start by omega]
    rw [foldr_cons, ih later, Region.splice, take_append_of_le_length (by rw [length]; exact stop),
      take_take, Nat.min_eq_left stop, drop_append_of_le_length (by rw [length]),
      drop_of_length_le (by rw [length]), nil_append, head]
    simp only [piecesFrom, flatMap_cons, Piece.after, lastStop, append_assoc]

theorem rewrites_splice (ordered : Ordered content.length 0 regions) :
    Rewrites content (regions.foldr Region.splice content) (piecesFrom content 0 regions)
      (content.drop (lastStop 0 regions)) where
  before := piecesFrom_before ordered
  after := foldr_splice ordered

end Trpi.Library
