import Trpi.Tui.StdinBuffer

/-!
# Units of terminal input

What a terminal sends: characters, escape sequences by family, bracketed pastes.
Every sequence is framed: no proper prefix of it is complete, it is complete itself,
and a paste start marker can begin only where a paste begins.
-/

namespace Trpi.Tui

open Library List
open Library.Utf16 (Units)

inductive OscEnd where
  | bel | st

def OscEnd.units : OscEnd → Units
  | .bel => [Tui.bel]
  | .st => stringTerminator

inductive InputUnit where
  | char (unit : UInt16)
  | csi (parameters : Units) (final : UInt16)
  | mouseSgr (button column row : Units) (final : UInt16)
  | mouseX10 (button column row : UInt16)
  | ss3 (key : UInt16)
  | osc (content : Units) (terminator : OscEnd)
  | dcs (content : Units)
  | apc (content : Units)
  | metaKey (key : UInt16)
  | paste (content : Units)

def isParameterByte (unit : UInt16) : Bool := 0x30 ≤ unit && unit ≤ 0x3F

namespace InputUnit

def units : InputUnit → Units
  | .char unit => [unit]
  | .csi parameters final => esc :: ascii '[' :: (parameters ++ [final])
  | .mouseSgr button column row final =>
    esc :: ascii '[' :: (ascii '<' ::
      (button ++ ascii ';' :: (column ++ ascii ';' :: row)) ++ [final])
  | .mouseX10 button column row => [esc, ascii '[', ascii 'M', button, column, row]
  | .ss3 key => [esc, ascii 'O', key]
  | .osc content terminator => esc :: ascii ']' :: (content ++ terminator.units)
  | .dcs content => esc :: ascii 'P' :: (content ++ stringTerminator)
  | .apc content => esc :: ascii '_' :: (content ++ stringTerminator)
  | .metaKey key => [esc, key]
  | .paste content => bracketedPasteStart ++ (content ++ bracketedPasteEnd)

/-- The families are apart: a CSI sequence that begins with `<` is a mouse report, `ESC [ M`
begins an X10 report, `ESC [ 200 ~` a paste. -/
def WellFormed : InputUnit → Prop
  | .char unit => unit ≠ esc
  | .csi parameters final =>
    (∀ unit ∈ parameters, isParameterByte unit = true) ∧ isFinalByte final = true ∧
      parameters.head? ≠ some (ascii '<') ∧ (parameters = [] → final ≠ ascii 'M') ∧
      ¬ (parameters = text "200" ∧ final = ascii '~')
  | .mouseSgr button column row final =>
    isDigits button = true ∧ isDigits column = true ∧ isDigits row = true ∧
      (final = ascii 'M' ∨ final = ascii 'm')
  | .mouseX10 button column row => button ≠ esc ∧ column ≠ esc ∧ row ≠ esc
  | .ss3 key => key ≠ esc
  | .osc content _ => esc ∉ content ∧ bel ∉ content
  | .dcs content => esc ∉ content
  | .apc content => esc ∉ content
  | .metaKey key => key ≠ esc ∧ key ∉ introducers
  | .paste content => ¬ bracketedPasteEnd <:+: content

def isPaste : InputUnit → Bool
  | .paste _ => true
  | _ => false

end InputUnit

/-- No proper prefix is complete, the whole is, and no paste start marker begins in it. -/
structure Framed (bytes : Units) : Prop where
  starts : bytes.head? = some esc
  partials : ∀ n, 0 < n → n < bytes.length → isCompleteSequence (bytes.take n) = .incomplete
  complete : isCompleteSequence bytes = .complete
  single : bytes ≠ [esc, esc]
  unmarked : ∀ position < bytes.length, ∀ rest,
    ¬ bracketedPasteStart <+: bytes.drop position ++ rest

theorem isCompleteSequence_csi (payload : Units) (other : payload.head? ≠ some (ascii 'M')) :
    isCompleteSequence (esc :: ascii '[' :: payload) = isCompleteCsiSequence payload := by
  simp [isCompleteSequence, other]

theorem incomplete_of_no_final {payload : Units}
    (parameters : ∀ unit ∈ payload, isFinalByte unit = false) :
    isCompleteSequence (esc :: ascii '[' :: payload) = .incomplete := by
  have other : payload.head? ≠ some (ascii 'M') := by
    intro head
    have final := parameters _ (mem_of_head? head)
    exact absurd final (by decide)
  rw [isCompleteSequence_csi payload other, isCompleteCsiSequence]
  cases last : payload.getLast? with
  | none => rfl
  | some unit =>
    have final := parameters _ (mem_of_getLast? last)
    simp [final]

variable {introducer final unit key : UInt16} {body content parameters : Units}

theorem partials_of_introduced {rest : Units}
    (later : ∀ n < rest.length,
      isCompleteSequence (esc :: introducer :: rest.take n) = .incomplete) :
    ∀ n, 0 < n → n < (esc :: introducer :: rest).length →
      isCompleteSequence ((esc :: introducer :: rest).take n) = .incomplete := by
  intro n positive inside
  cases n with
  | zero => omega
  | succ n =>
    cases n with
    | zero => rfl
    | succ n =>
      simp only [length_cons] at inside
      exact later n (by omega)

/-- No marker begins behind the first unit of a sequence whose only other `ESC` is that
of its terminator. -/
theorem unmarked_of_body {bytes terminator : Units} (shape : bytes = esc :: (body ++ terminator))
    (plain : esc ∉ body) (ends : terminator = [] ∨ terminator = stringTerminator)
    (front : ∀ rest, ¬ bracketedPasteStart <+: bytes ++ rest) :
    ∀ position < bytes.length, ∀ rest, ¬ bracketedPasteStart <+: bytes.drop position ++ rest := by
  intro position inside rest marker
  cases position with
  | zero => exact front rest marker
  | succ position =>
    subst shape
    rw [drop_succ_cons] at marker
    rw [length_cons] at inside
    have starts : ((body ++ terminator).drop position ++ rest).head? = some esc := by
      obtain ⟨more, same⟩ := marker
      rw [← same]
      rfl
    by_cases early : position < body.length
    · rw [drop_append_of_le_length (Nat.le_of_lt early), append_assoc,
        drop_eq_getElem_cons early] at starts
      rw [cons_append, head?_cons, Option.some.injEq] at starts
      exact plain (starts ▸ getElem_mem early)
    · rcases ends with rfl | rfl
      · simp only [append_nil] at inside
        omega
      · have late : position = body.length + (position - body.length) := by omega
        rw [late, drop_append, drop_of_length_le (by omega), nil_append] at marker
        have two : stringTerminator.length = 2 := rfl
        simp only [length_append, two] at inside
        have cases : position - body.length = 0 ∨ position - body.length = 1 := by omega
        rw [show body.length + (position - body.length) - body.length =
          position - body.length by omega] at marker
        rcases cases with at0 | at1
        · rw [at0] at marker
          obtain ⟨more, same⟩ := marker
          have second := congrArg (fun units => units[1]?) same
          exact absurd second (by simp [bracketedPasteStart, text, stringTerminator, ascii])
        · rw [at1] at marker
          obtain ⟨more, same⟩ := marker
          have second := congrArg (fun units => units[0]?) same
          exact absurd second (by simp [bracketedPasteStart, text, stringTerminator, ascii])

theorem not_final_of_parameter (parameter : isParameterByte unit = true) :
    isFinalByte unit = false := by
  simp only [isParameterByte, isFinalByte, Bool.and_eq_true, Bool.and_eq_false_iff,
    decide_eq_true_eq, decide_eq_false_iff_not, UInt16.le_iff_toNat_le] at parameter ⊢
  have bounds : (0x3F : UInt16).toNat = 63 ∧ (0x40 : UInt16).toNat = 64 := by decide
  omega

theorem not_final_of_digit (digit : isDigit unit = true) : isFinalByte unit = false := by
  simp only [isDigit, isFinalByte, Bool.and_eq_true, Bool.and_eq_false_iff,
    decide_eq_true_eq, decide_eq_false_iff_not, UInt16.le_iff_toNat_le] at digit ⊢
  have bounds : (ascii '9').toNat = 57 ∧ (0x40 : UInt16).toNat = 64 := by decide
  omega

theorem finals_inj {others rest : Units} {other : UInt16}
    (plain : ∀ unit ∈ parameters, isFinalByte unit = false) (ends : isFinalByte final = true)
    (plainOthers : ∀ unit ∈ others, isFinalByte unit = false) (endsOther : isFinalByte other = true)
    (marker : others ++ [other] <+: parameters ++ final :: rest) :
    parameters = others ∧ final = other := by
  induction others generalizing parameters with
  | nil =>
    cases parameters with
    | nil =>
      obtain ⟨more, same⟩ := marker
      exact ⟨rfl, (cons.inj same).1.symm⟩
    | cons unit parameters =>
      obtain ⟨more, same⟩ := marker
      have first : other = unit := (cons.inj same).1
      rw [first, plain unit mem_cons_self] at endsOther
      cases endsOther
  | cons unit others ih =>
    cases parameters with
    | nil =>
      obtain ⟨more, same⟩ := marker
      have first : unit = final := (cons.inj same).1
      rw [← first, plainOthers unit mem_cons_self] at ends
      cases ends
    | cons parameter parameters =>
      obtain ⟨first, marker⟩ := cons_prefix_cons.mp marker
      have later := ih (fun unit mem => plain unit (.tail _ mem))
        (fun unit mem => plainOthers unit (.tail _ mem)) marker
      rw [first, later.1]
      exact ⟨rfl, later.2⟩

theorem take_append_singleton {n : Nat} (inside : n < (body ++ [final]).length) :
    (body ++ [final]).take n = body.take n := by
  rw [length_append, length_singleton] at inside
  exact take_append_of_le_length (by omega)

theorem marker_shape : bracketedPasteStart = esc :: ascii '[' :: (text "200" ++ [ascii '~']) := by
  decide

theorem framed_csi (plain : ∀ unit ∈ body, isFinalByte unit = false)
    (ends : isFinalByte final = true) (ordinary : ∀ unit ∈ body ++ [final], unit ≠ esc)
    (complete : isCompleteSequence (esc :: ascii '[' :: (body ++ [final])) = .complete)
    (other : ¬ (body = text "200" ∧ final = ascii '~')) :
    Framed (esc :: ascii '[' :: (body ++ [final])) where
  starts := rfl
  partials := by
    apply partials_of_introduced
    intro n inside
    rw [take_append_singleton inside]
    exact incomplete_of_no_final fun unit mem => plain unit (mem_of_mem_take mem)
  complete := complete
  single := by
    intro same
    exact absurd (cons.inj (cons.inj same).2).1 (by decide)
  unmarked := by
    apply unmarked_of_body (show _ = esc :: ((ascii '[' :: (body ++ [final])) ++ []) by simp)
    · intro mem
      rcases mem_cons.mp mem with same | mem
      · exact absurd same (by decide)
      · exact ordinary esc mem rfl
    · exact .inl rfl
    · intro rest marker
      rw [marker_shape, cons_append, cons_append, append_assoc] at marker
      have fields := (cons_prefix_cons.mp (cons_prefix_cons.mp marker).2).2
      have digits : ∀ unit ∈ text "200", isFinalByte unit = false := by
        intro unit mem
        apply not_final_of_digit
        exact all_eq_true.mp (show (text "200").all isDigit = true from rfl) unit mem
      exact other (finals_inj plain ends digits (by decide) fields)

theorem not_terminated {part tail : Units} (plain : esc ∉ part) (ordinary : introducer ≠ esc)
    (other : introducer ≠ ascii '\\') (cut : tail = [] ∨ tail = [esc]) :
    stringTerminator.isSuffixOf (esc :: introducer :: (part ++ tail)) = false := by
  rw [Bool.eq_false_iff]
  intro terminated
  obtain ⟨front, same⟩ := isSuffixOf_iff_suffix.mp terminated
  rcases cut with rfl | rfl
  · cases front with
    | nil => exact other (cons.inj (cons.inj same).2).1.symm
    | cons unit front =>
      have mem : esc ∈ introducer :: (part ++ []) := by
        rw [← (cons.inj same).2]
        simp [stringTerminator]
      rw [append_nil, mem_cons] at mem
      rcases mem with same | mem
      · exact ordinary same.symm
      · exact plain mem
  · have last := congrArg getLast? same
    rw [show esc :: introducer :: (part ++ [esc]) = (esc :: introducer :: part) ++ [esc] from rfl,
      getLast?_concat, show front ++ stringTerminator = front ++ [esc] ++ [ascii '\\'] by
        rw [append_assoc]; rfl, getLast?_concat] at last
    exact absurd last (by decide)

theorem take_terminated {n : Nat} (inside : n < (content ++ stringTerminator).length) :
    ∃ tail, (tail = [] ∨ tail = [esc]) ∧
      (content ++ stringTerminator).take n = content.take n ++ tail := by
  have two : stringTerminator.length = 2 := rfl
  rw [length_append, two] at inside
  by_cases early : n ≤ content.length
  · refine ⟨[], .inl rfl, ?_⟩
    rw [take_append_of_le_length early, append_nil]
  · refine ⟨[esc], .inr rfl, ?_⟩
    rw [take_append, show n - content.length = 1 by omega]
    rfl

theorem isSuffixOf_bel {data : Units} (silent : bel ∉ data) : [bel].isSuffixOf data = false := by
  rw [Bool.eq_false_iff]
  intro ends
  exact silent ((isSuffixOf_iff_suffix.mp ends).subset mem_cons_self)

theorem not_marker
    (other : introducer ≠ ascii '[') (more rest : Units) :
    ¬ bracketedPasteStart <+: (esc :: introducer :: more) ++ rest := by
  intro marker
  rw [marker_shape] at marker
  exact other (cons_prefix_cons.mp (cons_prefix_cons.mp marker).2).1.symm

theorem isCompleteSequence_osc (rest : Units) :
    isCompleteSequence (esc :: ascii ']' :: rest) =
      isCompleteOscSequence (esc :: ascii ']' :: rest) := rfl

theorem isCompleteSequence_dcs (rest : Units) :
    isCompleteSequence (esc :: ascii 'P' :: rest) =
      isCompleteDcsSequence (esc :: ascii 'P' :: rest) := rfl

theorem isCompleteSequence_apc (rest : Units) :
    isCompleteSequence (esc :: ascii '_' :: rest) =
      isCompleteApcSequence (esc :: ascii '_' :: rest) := rfl

theorem framed_string (plain : esc ∉ content)
    (isString : introducer = ascii 'P' ∨ introducer = ascii '_' ∨
      (introducer = ascii ']' ∧ bel ∉ content) ) :
    Framed (esc :: introducer :: (content ++ stringTerminator)) := by
  have apart : introducer ≠ esc ∧ introducer ≠ ascii '\\' ∧ introducer ≠ ascii '[' := by
    rcases isString with rfl | rfl | ⟨rfl, _⟩ <;> decide
  constructor
  · rfl
  · apply partials_of_introduced
    intro n inside
    obtain ⟨tail, cut, same⟩ := take_terminated inside
    have part : esc ∉ content.take n := fun mem => plain (mem_of_mem_take mem)
    have open_ := not_terminated part apart.1 apart.2.1 cut
    rw [same]
    rcases isString with rfl | rfl | ⟨rfl, silent⟩
    · rw [isCompleteSequence_dcs, isCompleteDcsSequence, open_, if_neg Bool.false_ne_true]
    · rw [isCompleteSequence_apc, isCompleteApcSequence, open_, if_neg Bool.false_ne_true]
    · have quiet : bel ∉ esc :: ascii ']' :: (content.take n ++ tail) := by
        intro mem
        rcases mem_cons.mp mem with same | mem
        · exact absurd same (by decide)
        rcases mem_cons.mp mem with same | mem
        · exact absurd same (by decide)
        rcases mem_append.mp mem with mem | mem
        · exact silent (mem_of_mem_take mem)
        · rcases cut with rfl | rfl
          · cases mem
          · exact absurd (mem_singleton.mp mem) (by decide)
      rw [isCompleteSequence_osc, isCompleteOscSequence, open_, isSuffixOf_bel quiet, Bool.or_false,
        if_neg Bool.false_ne_true]
  · have closed : stringTerminator.isSuffixOf (esc :: introducer :: (content ++ stringTerminator)) :=
      isSuffixOf_iff_suffix.mpr ⟨esc :: introducer :: content, rfl⟩
    rcases isString with rfl | rfl | ⟨rfl, _⟩
    · rw [isCompleteSequence_dcs, isCompleteDcsSequence, if_pos closed]
    · rw [isCompleteSequence_apc, isCompleteApcSequence, if_pos closed]
    · rw [isCompleteSequence_osc, isCompleteOscSequence, closed, Bool.true_or, if_pos rfl]
  · intro same
    exact apart.1 (cons.inj (cons.inj same).2).1
  · apply unmarked_of_body (show _ = esc :: ((introducer :: content) ++ stringTerminator) from rfl)
    · intro mem
      rcases mem_cons.mp mem with same | mem
      · exact apart.1 same.symm
      · exact plain mem
    · exact .inr rfl
    · exact not_marker apart.2.2 _

theorem framed_bel (plain : esc ∉ content) (silent : bel ∉ content) :
    Framed (esc :: ascii ']' :: (content ++ [bel])) where
  starts := rfl
  partials := by
    apply partials_of_introduced
    intro n inside
    rw [length_append, length_singleton] at inside
    rw [take_append_of_le_length (by omega)]
    have part : esc ∉ content.take n := fun mem => plain (mem_of_mem_take mem)
    have open_ : stringTerminator.isSuffixOf (esc :: ascii ']' :: (content.take n ++ [])) = false :=
      not_terminated part (by decide) (by decide) (.inl rfl)
    rw [append_nil] at open_
    have quiet : bel ∉ esc :: ascii ']' :: content.take n := by
      intro mem
      rcases mem_cons.mp mem with same | mem
      · exact absurd same (by decide)
      rcases mem_cons.mp mem with same | mem
      · exact absurd same (by decide)
      exact silent (mem_of_mem_take mem)
    rw [isCompleteSequence_osc, isCompleteOscSequence, open_, isSuffixOf_bel quiet, Bool.or_false,
      if_neg Bool.false_ne_true]
  complete := by
    have closed : [bel].isSuffixOf (esc :: ascii ']' :: (content ++ [bel])) :=
      isSuffixOf_iff_suffix.mpr ⟨esc :: ascii ']' :: content, rfl⟩
    rw [isCompleteSequence_osc, isCompleteOscSequence, closed, Bool.or_true, if_pos rfl]
  single := by
    intro same
    exact absurd (cons.inj (cons.inj same).2).1 (by decide)
  unmarked := by
    apply unmarked_of_body (show _ = esc :: ((ascii ']' :: (content ++ [bel])) ++ []) by simp)
    · intro mem
      rcases mem_cons.mp mem with same | mem
      · exact absurd same (by decide)
      rcases mem_append.mp mem with mem | mem
      · exact plain mem
      · exact absurd (mem_singleton.mp mem) (by decide)
    · exact .inl rfl
    · exact not_marker (by decide) _

theorem framed_mouseX10 {button column row : UInt16} (first : button ≠ esc) (second : column ≠ esc)
    (third : row ≠ esc) : Framed [esc, ascii '[', ascii 'M', button, column, row] where
  starts := rfl
  partials := by
    apply partials_of_introduced
    intro n inside
    have cases : n = 0 ∨ n = 1 ∨ n = 2 ∨ n = 3 := by
      simp only [length_cons, length_nil] at inside
      omega
    rcases cases with rfl | rfl | rfl | rfl <;> rfl
  complete := rfl
  single := by
    intro same
    cases same
  unmarked := by
    apply unmarked_of_body
      (show _ = esc :: ([ascii '[', ascii 'M', button, column, row] ++ []) from rfl)
    · simp only [mem_cons, not_mem_nil, or_false, not_or]
      exact ⟨by decide, by decide, first.symm, second.symm, third.symm⟩
    · exact .inl rfl
    · intro rest marker
      rw [marker_shape] at marker
      have fields := (cons_prefix_cons.mp (cons_prefix_cons.mp marker).2).2
      exact absurd (cons_prefix_cons.mp fields).1 (by decide)

theorem framed_ss3 (plain : key ≠ esc) : Framed [esc, ascii 'O', key] where
  starts := rfl
  partials := by
    apply partials_of_introduced
    intro n inside
    have only : n = 0 := by
      simp only [length_cons, length_nil] at inside
      omega
    subst only
    rfl
  complete := rfl
  single := by
    intro same
    cases same
  unmarked := by
    apply unmarked_of_body (show _ = esc :: ([ascii 'O', key] ++ []) from rfl)
    · simp only [mem_cons, not_mem_nil, or_false, not_or]
      exact ⟨by decide, plain.symm⟩
    · exact .inl rfl
    · exact not_marker (by decide) _

theorem framed_metaKey (plain : key ≠ esc) (ordinary : key ∉ introducers) : Framed [esc, key] where
  starts := rfl
  partials := by
    apply partials_of_introduced
    intro n inside
    cases inside
  complete := by
    simp only [introducers, text, mem_map, not_exists, not_and] at ordinary
    have other (c : Char) (mem : c ∈ "[]OP_".toList) : key ≠ ascii c :=
      fun same => ordinary c mem same.symm
    simp [isCompleteSequence, other '[' (by decide), other ']' (by decide), other 'P' (by decide),
      other '_' (by decide), other 'O' (by decide)]
  single := by
    intro same
    exact plain (cons.inj (cons.inj same).2).1
  unmarked := by
    apply unmarked_of_body (show _ = esc :: ([key] ++ []) from rfl)
    · simp only [mem_cons, not_mem_nil, or_false]
      exact plain.symm
    · exact .inl rfl
    · apply not_marker
      rintro rfl
      exact ordinary (by decide)

section

variable {button column row : Units} (isButton : isDigits button = true)
  (isColumn : isDigits column = true) (isRow : isDigits row = true)
  (isFinal : final = ascii 'M' ∨ final = ascii 'm')

include isButton isColumn isRow isFinal

theorem isMouseReport_fields :
    isMouseReport (ascii '<' :: (button ++ ascii ';' :: (column ++ ascii ';' :: row)) ++ [final]) =
      true := by
  have plain (part : Units) (digits : isDigits part = true) : ascii ';' ∉ part := by
    intro mem
    rw [isDigits, Bool.and_eq_true, all_eq_true] at digits
    exact absurd (digits.2 _ mem) (by decide)
  have parts : split [ascii ';'] (button ++ ascii ';' :: (column ++ ascii ';' :: row)) =
      [button, column, row] := by
    rw [split, if_neg (cons_ne_nil _ _), splitFrom_part (plain _ isButton),
      splitFrom_part (plain _ isColumn), splitFrom_last (plain _ isRow)]
    rfl
  have last : (final = ascii 'M' ∨ final = ascii 'm') := isFinal
  rw [isMouseReport, dropLast_concat, drop_succ_cons, drop_zero, parts, getLast?_concat]
  simp [isButton, isColumn, isRow, last]

theorem framed_mouseSgr : Framed (InputUnit.mouseSgr button column row final).units := by
  have digit (part : Units) (digits : isDigits part = true) : ∀ unit ∈ part, isDigit unit = true := by
    rw [isDigits, Bool.and_eq_true, all_eq_true] at digits
    exact digits.2
  have body : ∀ unit ∈ ascii '<' :: (button ++ ascii ';' :: (column ++ ascii ';' :: row)),
      unit = ascii '<' ∨ unit = ascii ';' ∨ isDigit unit = true := by
    intro unit mem
    simp only [mem_cons, mem_append] at mem
    rcases mem with same | mem | same | mem | same | mem
    · exact .inl same
    · exact .inr (.inr (digit _ isButton _ mem))
    · exact .inr (.inl same)
    · exact .inr (.inr (digit _ isColumn _ mem))
    · exact .inr (.inl same)
    · exact .inr (.inr (digit _ isRow _ mem))
  have ends : isFinalByte final = true := by
    rcases isFinal with rfl | rfl <;> decide
  apply framed_csi
  · intro unit mem
    rcases body unit mem with rfl | rfl | digits
    · decide
    · decide
    · exact not_final_of_digit digits
  · exact ends
  · intro unit mem same
    subst same
    rcases mem_append.mp mem with mem | mem
    · rcases body esc mem with same | same | digits
      · exact absurd same (by decide)
      · exact absurd same (by decide)
      · exact absurd digits (by decide)
    · rw [mem_singleton] at mem
      rw [← mem] at ends
      exact absurd ends (by decide)
  · rw [isCompleteSequence_csi _ (by simp [ascii]), isCompleteCsiSequence, getLast?_concat]
    simp only [ends, if_true]
    rw [isMouseReport_fields isButton isColumn isRow isFinal]
    rfl
  · rintro ⟨same, _⟩
    exact absurd (cons.inj same).1 (by decide)

end

theorem framed_csi_of_wellFormed (wellFormed : (InputUnit.csi parameters final).WellFormed) :
    Framed (InputUnit.csi parameters final).units := by
  obtain ⟨isParameters, ends, notMouse, notX10, notPaste⟩ := wellFormed
  apply framed_csi
  · exact fun unit mem => not_final_of_parameter (isParameters unit mem)
  · exact ends
  · intro unit mem same
    subst same
    rcases mem_append.mp mem with mem | mem
    · exact absurd (isParameters _ mem) (by decide)
    · rw [mem_singleton] at mem
      rw [← mem] at ends
      exact absurd ends (by decide)
  · have head : (parameters ++ [final]).head? ≠ some (ascii 'M') ∧
        (parameters ++ [final]).head? ≠ some (ascii '<') := by
      cases parameters with
      | nil =>
        refine ⟨fun same => notX10 rfl (Option.some.inj same), ?_⟩
        intro same
        rw [Option.some.inj same] at ends
        exact absurd ends (by decide)
      | cons unit rest =>
        refine ⟨?_, notMouse⟩
        intro same
        have parameter := isParameters unit mem_cons_self
        rw [Option.some.inj same] at parameter
        exact absurd parameter (by decide)
    rw [isCompleteSequence_csi _ head.1, isCompleteCsiSequence, getLast?_concat]
    simp only [ends, if_true, if_neg head.2]
  · exact notPaste

theorem framed_of_wellFormed {unit : InputUnit} (wellFormed : unit.WellFormed)
    (sequence : ∀ c, unit ≠ .char c) (notPaste : unit.isPaste = false) : Framed unit.units := by
  cases unit with
  | char c => exact absurd rfl (sequence c)
  | csi parameters final => exact framed_csi_of_wellFormed wellFormed
  | mouseSgr button column row final =>
    obtain ⟨isButton, isColumn, isRow, isFinal⟩ := wellFormed
    exact framed_mouseSgr isButton isColumn isRow isFinal
  | mouseX10 button column row =>
    obtain ⟨first, second, third⟩ := wellFormed
    exact framed_mouseX10 first second third
  | ss3 key => exact framed_ss3 wellFormed
  | osc content terminator =>
    obtain ⟨plain, silent⟩ := wellFormed
    cases terminator with
    | bel => exact framed_bel plain silent
    | st => exact framed_string plain (.inr (.inr ⟨rfl, silent⟩))
  | dcs content => exact framed_string wellFormed (.inl rfl)
  | apc content => exact framed_string wellFormed (.inr (.inl rfl))
  | metaKey key => exact framed_metaKey wellFormed.1 wellFormed.2
  | paste content => cases notPaste

end Trpi.Tui
