import Trpi.Tools.EditMatching

/-!
# Edit tool

agent/src/harness/tools/edit.ts, `execute`. The host's answers and the looks at the
abort signal are parameters; resolving the path and the queue of the file are left
out, and so is the diff that is only displayed.
-/

namespace Trpi.Tools

open Library List
open Library.Utf16 (Units)

inductive FileKind where
  | file | directory | symlink
  deriving DecidableEq

inductive FileErrorCode where
  | aborted | not_found | permission_denied | not_directory | is_directory | invalid
  | not_supported | unknown

def FileErrorCode.code : FileErrorCode → String
  | .aborted => "aborted"
  | .not_found => "not_found"
  | .permission_denied => "permission_denied"
  | .not_directory => "not_directory"
  | .is_directory => "is_directory"
  | .invalid => "invalid"
  | .not_supported => "not_supported"
  | .unknown => "unknown"

/-- What the environment answers; `aborted` is the signal at each look at it. -/
structure EditHost where
  fileInfo : Except FileErrorCode FileKind
  readTextFile : Except FileErrorCode Units
  writeFile : Units → Except FileErrorCode Unit
  aborted : Fin 4 → Bool

inductive EditToolError where
  | noEdits
  | aborted
  | access (code : FileErrorCode)
  | notFile
  | fault (reason : EditFault)

def EditToolError.message (path : String) : EditToolError → String
  | .noEdits => "Edit tool input is invalid. edits must contain at least one replacement."
  | .aborted => "Operation aborted"
  | .access code => "Could not edit file: " ++ path ++ ". Error code: " ++ code.code ++ "."
  | .notFile => "Could not edit file: " ++ path ++ ". Path is not a file."
  | .fault reason => reason.message path

def editedText (nfkc : Units → Units) (original : Units) (edits : List Edit) :
    Except EditFault Units := do
  let content := (stripBom original).text
  let applied ← applyEditsToNormalizedContent nfkc (normalizeToLF content) edits
  .ok ((stripBom original).bom ++ restoreLineEndings applied.newContent (detectLineEnding content))

/-- `execute` up to the write. -/
def prepareWrite (nfkc : Units → Units) (host : EditHost) (edits : List Edit) :
    Except EditToolError Units := do
  if edits = [] then throw .noEdits
  else if host.aborted 0 then throw .aborted
  else
    let kind ← host.fileInfo.mapError .access
    if kind ≠ .file ∧ kind ≠ .symlink then throw .notFile
    else
      let original ← host.readTextFile.mapError .access
      if host.aborted 1 then throw .aborted
      else
        let final ← (editedText nfkc original edits).mapError .fault
        if host.aborted 2 then throw .aborted else .ok final

/-- What a call leaves in the file, if it wrote, and what it answers. -/
structure EditOutcome where
  written : Option Units
  reply : Except EditToolError String

def execute (nfkc : Units → Units) (host : EditHost) (path : String) (edits : List Edit) :
    EditOutcome :=
  match prepareWrite nfkc host edits with
  | .error reason => { written := none, reply := .error reason }
  | .ok final =>
    match host.writeFile final with
    | .error code => { written := none, reply := .error (.access code) }
    | .ok () =>
      { written := some final
        reply :=
          if host.aborted 3 then .error .aborted
          else .ok ("Successfully replaced " ++ toString edits.length ++ " block(s) in " ++ path ++
            ".") }

variable {nfkc : Units → Units} {host : EditHost} {edits : List Edit} {file : Units}

theorem prepareWrite_ok (prepared : prepareWrite nfkc host edits = .ok file) :
    ∃ original, host.readTextFile = .ok original ∧ editedText nfkc original edits = .ok file := by
  unfold prepareWrite at prepared
  split at prepared
  · cases prepared
  split at prepared
  · cases prepared
  obtain ⟨kind, _, prepared⟩ := bind_eq_ok prepared
  split at prepared
  · cases prepared
  obtain ⟨original, read, prepared⟩ := bind_eq_ok prepared
  split at prepared
  · cases prepared
  obtain ⟨final, edited, prepared⟩ := bind_eq_ok prepared
  split at prepared
  · cases prepared
  cases prepared
  exact ⟨original, mapError_eq_ok read, mapError_eq_ok edited⟩

/-- A call that wrote had read the file and wrote the edited text. -/
theorem execute_written {path : String}
    (written : (execute nfkc host path edits).written = some file) :
    ∃ original, host.readTextFile = .ok original ∧ editedText nfkc original edits = .ok file := by
  unfold execute at written
  split at written
  · cases written
  · rename_i final prepared
    split at written
    · cases written
    · cases written
      exact prepareWrite_ok prepared

theorem execute_success {path m : String} (success : (execute nfkc host path edits).reply = .ok m) :
    ∃ file, (execute nfkc host path edits).written = some file := by
  unfold execute at success ⊢
  split at success
  · cases success
  · rename_i final prepared
    split at success
    · cases success
    · exact ⟨final, rfl⟩

/-!
## What an edit keeps

A text is normalized token by token: a CRLF, a lone unit. A cut of the normalized
text therefore comes from a cut of the text, and what an edit keeps is the text
outside the regions with its line endings turned into the one the file was found
to have. A text whose endings are all of that kind is kept as it is.
-/

def plainEnding (unit : UInt16) : UInt16 := if unit = cr then lf else unit

theorem normalizeToLF_crlf (rest : Units) :
    normalizeToLF (cr :: lf :: rest) = lf :: normalizeToLF rest := rfl

variable {unit : UInt16} {text first second original file rest last : Units} {ending : LineEnding}
  {pieces : List (Piece UInt16)} {edits : List Edit}

theorem normalizeToLF_cons (single : ¬ (unit = cr ∧ rest.head? = some lf)) :
    normalizeToLF (unit :: rest) = plainEnding unit :: normalizeToLF rest := by
  cases rest with
  | nil => rfl
  | cons next rest =>
    rw [head?_cons, Option.some.injEq] at single
    rw [normalizeToLF, replaceCrLf, if_neg single]
    rfl

theorem cr_not_mem_normalizeToLF (text : Units) : cr ∉ normalizeToLF text := by
  intro mem
  obtain ⟨unit, _, isCr⟩ := mem_map.mp mem
  split at isCr
  · exact absurd isCr (by decide)
  · rename_i other
    exact other isCr

theorem normalizeToLF_of_no_cr (plain : cr ∉ text) : normalizeToLF text = text := by
  induction text with
  | nil => rfl
  | cons unit rest ih =>
    obtain ⟨head, tail⟩ := not_or.mp (mem_cons.not.mp plain)
    have other : ¬ unit = cr := fun same => head same.symm
    rw [normalizeToLF_cons fun pair => other pair.1, ih tail, plainEnding, if_neg other]

@[simp] theorem normalizeToLF_idem (text : Units) :
    normalizeToLF (normalizeToLF text) = normalizeToLF text :=
  normalizeToLF_of_no_cr (cr_not_mem_normalizeToLF text)

/-- A line ending of any kind leaves a line feed. -/
theorem lf_mem_normalizeToLF (mem : cr ∈ text) : lf ∈ normalizeToLF text := by
  induction text with
  | nil => cases mem
  | cons unit rest ih =>
    by_cases pair : unit = cr ∧ rest.head? = some lf
    · obtain ⟨rfl, head⟩ := pair
      obtain ⟨rest, rfl⟩ := head?_eq_some_iff.mp head
      rw [normalizeToLF_crlf]
      exact mem_cons_self
    · rw [normalizeToLF_cons pair]
      rcases mem_cons.mp mem with rfl | mem
      · exact mem_cons_self
      · exact .tail _ (ih mem)

/-- The cut does not go through a CRLF. -/
def CleanCut (first second : Units) : Prop := ¬ (first.getLast? = some cr ∧ second.head? = some lf)

theorem CleanCut.cons (clean : CleanCut first second)
    (single : first = [] → ¬ (unit = cr ∧ second.head? = some lf)) :
    CleanCut (unit :: first) second := by
  rintro ⟨last, head⟩
  cases first with
  | nil => exact single rfl ⟨Option.some.inj last, head⟩
  | cons next first =>
    rw [getLast?_cons_cons] at last
    exact clean ⟨last, head⟩

theorem cut_of_normalizeToLF (cut : normalizeToLF text = first ++ second) :
    ∃ left right, text = left ++ right ∧ CleanCut left right ∧
      normalizeToLF left = first ∧ normalizeToLF right = second := by
  induction first generalizing text with
  | nil =>
    refine ⟨[], text, rfl, ?_, rfl, cut⟩
    rintro ⟨last, _⟩
    cases last
  | cons unit first ih =>
    cases text with
    | nil => cases cut
    | cons head rest =>
      by_cases pair : head = cr ∧ rest.head? = some lf
      · obtain ⟨rfl, isLf⟩ := pair
        obtain ⟨rest, rfl⟩ := head?_eq_some_iff.mp isLf
        rw [normalizeToLF_crlf] at cut
        obtain ⟨rfl, tail⟩ := cons.inj cut
        obtain ⟨left, right, rfl, clean, isFirst, isSecond⟩ := ih tail
        refine ⟨cr :: lf :: left, right, rfl, ?_, congrArg (lf :: ·) isFirst, isSecond⟩
        apply CleanCut.cons
        · apply clean.cons
          rintro _ ⟨same, _⟩
          exact absurd same (by decide)
        · intro empty
          cases empty
      · rw [normalizeToLF_cons pair] at cut
        obtain ⟨rfl, tail⟩ := cons.inj cut
        obtain ⟨left, right, rfl, clean, isFirst, isSecond⟩ := ih tail
        have single : ¬ (head = cr ∧ left.head? = some lf) := by
          rintro ⟨isCr, isLf⟩
          obtain ⟨left, rfl⟩ := head?_eq_some_iff.mp isLf
          exact pair ⟨isCr, rfl⟩
        refine ⟨head :: left, right, rfl, clean.cons ?_, ?_, isSecond⟩
        · rintro rfl
          exact pair
        · rw [normalizeToLF_cons single, isFirst]

def onlyCrLf : Units → Bool
  | [] => true
  | [unit] => unit ≠ cr && unit ≠ lf
  | unit :: next :: rest =>
    if unit = cr ∧ next = lf then onlyCrLf rest
    else unit ≠ cr && unit ≠ lf && onlyCrLf (next :: rest)

/-- All line endings are of this kind. -/
def Uniform (text : Units) : LineEnding → Prop
  | .crlf => onlyCrLf text = true
  | .lf => cr ∉ text

theorem onlyCrLf_crlf (rest : Units) : onlyCrLf (cr :: lf :: rest) = onlyCrLf rest := rfl

theorem onlyCrLf_cons (single : ¬ (unit = cr ∧ rest.head? = some lf)) :
    onlyCrLf (unit :: rest) = (unit ≠ cr && unit ≠ lf && onlyCrLf rest) := by
  cases rest with
  | nil => simp [onlyCrLf]
  | cons next rest =>
    rw [head?_cons, Option.some.injEq] at single
    rw [onlyCrLf, if_neg single]

theorem onlyCrLf_of_cut (clean : CleanCut first second)
    (uniform : onlyCrLf (first ++ second) = true) :
    onlyCrLf first = true ∧ onlyCrLf second = true := by
  induction first using onlyCrLf.induct with
  | case1 => exact ⟨rfl, uniform⟩
  | case2 unit =>
    have single : ¬ (unit = cr ∧ second.head? = some lf) :=
      fun pair => clean ⟨congrArg some pair.1, pair.2⟩
    rw [singleton_append, onlyCrLf_cons single, Bool.and_eq_true] at uniform
    exact uniform
  | case3 unit next rest pair ih =>
    obtain ⟨rfl, rfl⟩ := pair
    rw [cons_append, cons_append, onlyCrLf_crlf] at uniform
    rw [onlyCrLf_crlf]
    refine ih ?_ uniform
    rintro ⟨last, head⟩
    cases rest with
    | nil => cases last
    | cons unit rest =>
      exact clean ⟨by rw [getLast?_cons_cons, getLast?_cons_cons, last], head⟩
  | case4 unit next rest pair ih =>
    have single (tail : Units) : ¬ (unit = cr ∧ (next :: tail).head? = some lf) := by
      rw [head?_cons, Option.some.injEq]
      exact pair
    rw [cons_append, cons_append, onlyCrLf_cons (single _), Bool.and_eq_true] at uniform
    rw [onlyCrLf_cons (single _), Bool.and_eq_true]
    have later := ih (fun both => clean ⟨by rw [getLast?_cons_cons, both.1], both.2⟩) uniform.2
    exact ⟨⟨uniform.1, later.1⟩, later.2⟩

theorem Uniform.of_cut (clean : CleanCut first second)
    (uniform : Uniform (first ++ second) ending) :
    Uniform first ending ∧ Uniform second ending := by
  cases ending with
  | crlf => exact onlyCrLf_of_cut clean uniform
  | lf => exact not_or.mp (mem_append.not.mp uniform)

def convertEndings (ending : LineEnding) (text : Units) : Units :=
  restoreLineEndings (normalizeToLF text) ending

theorem restoreLineEndings_append (first second : Units) (ending : LineEnding) :
    restoreLineEndings (first ++ second) ending =
      restoreLineEndings first ending ++ restoreLineEndings second ending := by
  cases ending with
  | crlf => exact flatMap_append
  | lf => rfl

theorem restoreLineEndings_flatMap (pieces : List (Piece UInt16)) (ending : LineEnding) :
    restoreLineEndings (pieces.flatMap Piece.after) ending =
      pieces.flatMap fun piece =>
        restoreLineEndings piece.kept ending ++ restoreLineEndings piece.new ending := by
  induction pieces with
  | nil => cases ending <;> rfl
  | cons piece rest ih =>
    rw [flatMap_cons, flatMap_cons, restoreLineEndings_append, ih, Piece.after,
      restoreLineEndings_append]

theorem convertEndings_crlf (uniform : onlyCrLf text = true) : convertEndings .crlf text = text := by
  induction text using onlyCrLf.induct with
  | case1 => rfl
  | case2 unit =>
    simp only [onlyCrLf, ne_eq, decide_not, Bool.and_eq_true, Bool.not_eq_eq_eq_not, Bool.not_true,
      decide_eq_false_iff_not] at uniform
    simp [convertEndings, normalizeToLF, replaceCrLf, restoreLineEndings, uniform]
  | case3 unit next rest pair ih =>
    obtain ⟨rfl, rfl⟩ := pair
    rw [onlyCrLf_crlf] at uniform
    have later := ih uniform
    rw [convertEndings, restoreLineEndings] at later
    rw [convertEndings, normalizeToLF_crlf, restoreLineEndings, flatMap_cons, if_pos rfl, later]
    rfl
  | case4 unit next rest pair ih =>
    have single : ¬ (unit = cr ∧ (next :: rest).head? = some lf) := by
      rw [head?_cons, Option.some.injEq]
      exact pair
    rw [onlyCrLf_cons single, Bool.and_eq_true, Bool.and_eq_true, decide_eq_true_eq,
      decide_eq_true_eq] at uniform
    obtain ⟨⟨notCr, notLf⟩, uniform⟩ := uniform
    have later := ih uniform
    rw [convertEndings, restoreLineEndings] at later
    rw [convertEndings, normalizeToLF_cons single, plainEnding, if_neg notCr, restoreLineEndings,
      flatMap_cons, if_neg notLf, later]
    rfl

theorem Uniform.convertEndings (uniform : Uniform text ending) :
    convertEndings ending text = text := by
  cases ending with
  | crlf => exact convertEndings_crlf uniform
  | lf => exact normalizeToLF_of_no_cr uniform

theorem pieces_of_normalizeToLF (ending : LineEnding)
    (cut : normalizeToLF text = pieces.flatMap Piece.before ++ last) :
    ∃ (originals : List (Piece UInt16)) (rest : Units),
      text = originals.flatMap Piece.before ++ rest ∧
      originals.map (fun piece => (⟨normalizeToLF piece.kept, normalizeToLF piece.old, piece.new⟩ :
        Piece UInt16)) = pieces ∧ normalizeToLF rest = last ∧
      (Uniform text ending → (∀ piece ∈ originals, Uniform piece.kept ending) ∧
        Uniform rest ending) := by
  induction pieces generalizing text with
  | nil => exact ⟨[], text, rfl, rfl, cut, fun uniform => ⟨by simp, uniform⟩⟩
  | cons piece pieces ih =>
    rw [flatMap_cons, Piece.before, append_assoc, append_assoc] at cut
    obtain ⟨kept, behind, rfl, cleanKept, isKept, cut⟩ := cut_of_normalizeToLF cut
    obtain ⟨old, behind, rfl, cleanOld, isOld, cut⟩ := cut_of_normalizeToLF cut
    obtain ⟨originals, rest, rfl, same, isLast, uniform⟩ := ih cut
    refine ⟨⟨kept, old, piece.new⟩ :: originals, rest, ?_, ?_, isLast, ?_⟩
    · simp [Piece.before]
    · rw [map_cons, same, isKept, isOld]
    · intro all
      have outer := all.of_cut cleanKept
      have inner := uniform (outer.2.of_cut cleanOld).2
      simp only [forall_mem_cons]
      exact ⟨⟨outer.1, inner.1⟩, inner.2⟩

/-- The file is the original outside the regions of the edits. -/
def Preserves (original file : Units) (edits : List Edit) : Prop :=
  ∃ (pieces : List (Piece UInt16)) (last : Units), Rewrites original file pieces last ∧
    (pieces.map fun piece => (⟨piece.old, piece.new⟩ : Edit).normalize).Perm
      (edits.map Edit.normalize)

/-- The file is the original with the regions of the edits replaced and its line
endings turned into the one detected for it, behind the same byte order mark. -/
def PreservesConverted (original file : Units) (edits : List Edit) : Prop :=
  ∃ (pieces : List (Piece UInt16)) (last : Units),
    original = (stripBom original).bom ++ (pieces.flatMap Piece.before ++ last) ∧
    file = (stripBom original).bom ++ (pieces.flatMap (fun piece =>
      convertEndings (detectLineEnding (stripBom original).text) piece.kept ++
        convertEndings (detectLineEnding (stripBom original).text) piece.new) ++
      convertEndings (detectLineEnding (stripBom original).text) last) ∧
    (pieces.map fun piece => (⟨piece.old, piece.new⟩ : Edit).normalize).Perm
      (edits.map Edit.normalize)

theorem bom_append_text (original : Units) :
    (stripBom original).bom ++ (stripBom original).text = original := by
  unfold stripBom
  split
  · rename_i marked
    obtain ⟨text, rfl⟩ := isPrefixOf_iff_prefix.mp marked
    rfl
  · rfl

theorem Preserves.prepend {front : Units} (preserves : Preserves original file edits) :
    Preserves (front ++ original) (front ++ file) edits := by
  obtain ⟨pieces, last, rewrites, perm⟩ := preserves
  cases pieces with
  | nil =>
    refine ⟨[], front ++ last, ?_, perm⟩
    constructor
    · exact congrArg (front ++ ·) rewrites.before
    · exact congrArg (front ++ ·) rewrites.after
  | cons piece pieces =>
    refine ⟨⟨front ++ piece.kept, piece.old, piece.new⟩ :: pieces, last, ?_, perm⟩
    constructor
    · rw [rewrites.before]
      simp [Piece.before]
    · rw [rewrites.after]
      simp [Piece.after]

theorem normalizeToLF_restoreLineEndings (plain : cr ∉ text) (ending : LineEnding) :
    normalizeToLF (restoreLineEndings text ending) = text := by
  cases ending with
  | lf => exact normalizeToLF_of_no_cr plain
  | crlf =>
    induction text with
    | nil => rfl
    | cons unit rest ih =>
      obtain ⟨head, tail⟩ := not_or.mp (mem_cons.not.mp plain)
      have other : ¬ unit = cr := fun same => head same.symm
      have later := ih tail
      rw [restoreLineEndings] at later
      rw [restoreLineEndings, flatMap_cons]
      by_cases ending : unit = lf
      · rw [if_pos ending, ending, cons_append, singleton_append, normalizeToLF_crlf, later]
      · rw [if_neg ending, singleton_append, normalizeToLF_cons fun pair => other pair.1, later,
          plainEnding, if_neg other]

/-- The pieces of an edit with what is written for each. -/
def Piece.converted (ending : LineEnding) (piece : Piece UInt16) : Piece UInt16 :=
  { piece with new := convertEndings ending piece.new }

theorem converted_flatMap (uniform : ∀ piece ∈ pieces, Uniform piece.kept ending) :
    pieces.flatMap (fun piece =>
      convertEndings ending piece.kept ++ convertEndings ending piece.new) =
      (pieces.map (Piece.converted ending)).flatMap Piece.after := by
  induction pieces with
  | nil => rfl
  | cons piece rest ih =>
    obtain ⟨head, tail⟩ := forall_mem_cons.mp uniform
    rw [flatMap_cons, map_cons, flatMap_cons, ih tail, head.convertEndings]
    rfl

theorem preserves_of_uniform
    (before : original = text ++ (pieces.flatMap Piece.before ++ last))
    (after : file = text ++ (pieces.flatMap (fun piece =>
      convertEndings ending piece.kept ++ convertEndings ending piece.new) ++
      convertEndings ending last))
    (perm : (pieces.map fun piece => (⟨piece.old, piece.new⟩ : Edit).normalize).Perm
      (edits.map Edit.normalize))
    (kept : ∀ piece ∈ pieces, Uniform piece.kept ending) (rest : Uniform last ending) :
    Preserves original file edits := by
  rw [before, after, converted_flatMap kept, rest.convertEndings]
  apply Preserves.prepend
  refine ⟨pieces.map (Piece.converted ending), last, ?_, ?_⟩
  · constructor
    · rw [flatMap_map]
      rfl
    · rfl
  · rw [map_map]
    refine .trans (.of_eq ?_) perm
    apply map_congr_left
    intro piece _
    have restored := normalizeToLF_restoreLineEndings (cr_not_mem_normalizeToLF piece.new) ending
    exact congrArg (fun new => (⟨normalizeToLF piece.old, new⟩ : Edit)) restored

theorem editedText_preserves {nfkc : Units → Units}
    (exact : Exact (normalizeToLF (stripBom original).text) (edits.map Edit.normalize))
    (edited : editedText nfkc original edits = .ok file) :
    PreservesConverted original file edits ∧
      (Uniform (stripBom original).text (detectLineEnding (stripBom original).text) →
        Preserves original file edits) := by
  obtain ⟨applied, appliedOk, edited⟩ := bind_eq_ok edited
  obtain ⟨accepts, rfl⟩ := (applyEdits_exact_iff exact).mp appliedOk
  obtain ⟨normalized, last, rewrites, perm⟩ := accepts.simultaneous exact
  obtain ⟨pieces, rest, text, rfl, rfl, uniform⟩ := pieces_of_normalizeToLF
    (detectLineEnding (stripBom original).text) rewrites.before
  have before : original = (stripBom original).bom ++ (pieces.flatMap Piece.before ++ rest) := by
    rw [← text, bom_append_text]
  have new : ∀ piece ∈ pieces, normalizeToLF piece.new = piece.new := by
    intro piece mem
    have isEdit := perm.mem_iff.mp (mem_map_of_mem (mem_map_of_mem mem))
    obtain ⟨edit, _, same⟩ := mem_map.mp isEdit
    have isNew : normalizeToLF edit.newText = piece.new := congrArg Edit.newText same
    rw [← isNew, normalizeToLF_idem]
  have regions : (pieces.map fun piece => (⟨piece.old, piece.new⟩ : Edit).normalize).Perm
      (edits.map Edit.normalize) := by
    rw [map_map] at perm
    refine .trans (.of_eq ?_) perm
    apply map_congr_left
    intro piece mem
    exact congrArg (fun text => (⟨normalizeToLF piece.old, text⟩ : Edit)) (new piece mem)
  have after := (Except.ok.inj edited).symm
  rw [rewrites.after, restoreLineEndings_append, restoreLineEndings_flatMap, flatMap_map] at after
  have written : pieces.flatMap (fun piece =>
      restoreLineEndings (normalizeToLF piece.kept) (detectLineEnding (stripBom original).text) ++
        restoreLineEndings piece.new (detectLineEnding (stripBom original).text)) =
      pieces.flatMap fun piece =>
        convertEndings (detectLineEnding (stripBom original).text) piece.kept ++
          convertEndings (detectLineEnding (stripBom original).text) piece.new := by
    apply flatMap_congr
    intro piece mem
    rw [convertEndings, convertEndings, new piece mem]
  rw [written] at after
  refine ⟨⟨pieces, rest, before, after, regions⟩, ?_⟩
  intro all
  obtain ⟨kept, last⟩ := uniform all
  exact preserves_of_uniform before after regions kept last

/-- A successful call keeps the file outside the edited regions up to the kind of its
line endings, and keeps them too where they are all of the detected kind. -/
theorem execute_preserves {nfkc : Units → Units} {host : EditHost} {path m : String}
    {edits : List Edit} {original : Units} (read : host.readTextFile = .ok original)
    (exact : Exact (normalizeToLF (stripBom original).text) (edits.map Edit.normalize))
    (success : (execute nfkc host path edits).reply = .ok m) :
    ∃ file, (execute nfkc host path edits).written = some file ∧
      PreservesConverted original file edits ∧
      (Uniform (stripBom original).text (detectLineEnding (stripBom original).text) →
        Preserves original file edits) := by
  obtain ⟨file, written⟩ := execute_success success
  obtain ⟨_, sameRead, edited⟩ := execute_written written
  cases read.symm.trans sameRead
  exact ⟨file, written, editedText_preserves exact edited⟩

def sampleHost (text : Units) : EditHost where
  fileInfo := .ok .file
  readTextFile := .ok text
  writeFile _ := .ok ()
  aborted _ := false

theorem execute_preserves_sample :
    ∃ file, (execute id (sampleHost [0xFEFF, 97, 13, 10, 98, 13, 10]) "f"
        [⟨[98], [99, 10, 100]⟩]).written = some file ∧
      PreservesConverted [0xFEFF, 97, 13, 10, 98, 13, 10] file [⟨[98], [99, 10, 100]⟩] ∧
      (Uniform (stripBom [0xFEFF, 97, 13, 10, 98, 13, 10]).text
          (detectLineEnding (stripBom [0xFEFF, 97, 13, 10, 98, 13, 10]).text) →
        Preserves [0xFEFF, 97, 13, 10, 98, 13, 10] file [⟨[98], [99, 10, 100]⟩]) :=
  execute_preserves rfl (by decide)
    (rfl : (execute id (sampleHost [0xFEFF, 97, 13, 10, 98, 13, 10]) "f"
      [⟨[98], [99, 10, 100]⟩]).reply = .ok "Successfully replaced 1 block(s) in f.")

/-- A text with a CRLF and a later lone line feed, edited in neither, loses the latter. -/
theorem mixed_endings_converted :
    ∃ original edits file, Exact (normalizeToLF (stripBom original).text) (edits.map Edit.normalize) ∧
      (execute id (sampleHost original) "f" edits).written = some file ∧
      ¬ Preserves original file edits := by
  refine ⟨[97, 13, 10, 98, 10, 99], [⟨[99], [100]⟩], [97, 13, 10, 98, 13, 10, 100], by decide, rfl, ?_⟩
  rintro ⟨pieces, last, rewrites, perm⟩
  obtain ⟨piece, rfl, same⟩ := List.map_eq_singleton_iff.mp (List.perm_singleton.mp perm)
  have old : cr ∉ piece.old := by
    intro mem
    have left := lf_mem_normalizeToLF mem
    rw [show normalizeToLF piece.old = [99] from congrArg Edit.oldText same] at left
    exact absurd left (by decide)
  have new : cr ∉ piece.new := by
    intro mem
    have left := lf_mem_normalizeToLF mem
    rw [show normalizeToLF piece.new = [100] from congrArg Edit.newText same] at left
    exact absurd left (by decide)
  have before := congrArg (List.count cr) rewrites.before
  have after := congrArg (List.count cr) rewrites.after
  simp only [List.flatMap_cons, List.flatMap_nil, List.append_nil, Piece.before, Piece.after,
    List.count_append, List.count_eq_zero.mpr old, List.count_eq_zero.mpr new] at before after
  have counts : List.count cr [97, 13, 10, 98, 10, 99] = 1 ∧
      List.count cr [97, 13, 10, 98, 13, 10, 100] = 2 := by decide
  omega

end Trpi.Tools
