import Trpi.CodingAgent.SessionFile
import Trpi.Library.JsonInt

/-!
# Headers of session files

A session file is read in blocks, of which a read may return less than was asked for. Loading
reads the file to its end; discovery reads until it has the first line that is JSON, and gives up
at a limit. Where that line ends within the limit, the two agree.
-/

namespace Trpi.CodingAgent

open Library List
open Library.Utf8 (decode Decoder newlineByte)

variable {N : Type} [JsonNumber N]

def SESSION_READ_BUFFER_SIZE : Nat := 1024 * 1024

def SESSION_HEADER_READ_BUFFER_SIZE : Nat := 4096

def MAX_SESSION_HEADER_SCAN_BYTES : Nat := 1024 * 1024

/-- What the reads of a file return one after the other, and what they leave unread. At a position,
`asked` is the length of the buffer, and a read there returns at most `short` bytes and one; it
returns none at the end of the file only. -/
def readBlocks (asked short : Nat → Nat) (position : Nat) (bytes : List UInt8) :
    List (List UInt8) × List UInt8 :=
  let count := min (asked position) (short position + 1)
  if count = 0 ∨ bytes = [] then ([], bytes)
  else
    let later := readBlocks asked short (position + (bytes.take count).length) (bytes.drop count)
    (bytes.take count :: later.1, later.2)
termination_by bytes.length
decreasing_by
  rename_i goes
  have more := length_pos_iff.mpr fun empty => goes (.inr empty)
  rw [length_drop]
  omega

variable {asked short : Nat → Nat} {position : Nat} {bytes : List UInt8}

theorem readBlocks_flatten (asked short : Nat → Nat) (position : Nat) (bytes : List UInt8) :
    (readBlocks asked short position bytes).1.flatten ++
      (readBlocks asked short position bytes).2 = bytes := by
  induction position, bytes using readBlocks.induct asked short with
  | case1 position bytes count stops =>
    rw [readBlocks, if_pos stops]
    rfl
  | case2 position bytes count goes ih =>
    rw [readBlocks, if_neg goes, flatten_cons, append_assoc, ih, take_append_drop]

theorem readBlocks_stops (asked short : Nat → Nat) (position : Nat) (bytes : List UInt8) :
    (readBlocks asked short position bytes).2 = [] ∨
      asked (position + (readBlocks asked short position bytes).1.flatten.length) = 0 := by
  induction position, bytes using readBlocks.induct asked short with
  | case1 position bytes count stops =>
    rw [readBlocks, if_pos stops]
    refine stops.symm.imp_right fun none => ?_
    change min _ _ = 0 at none
    change asked position = 0
    omega
  | case2 position bytes count goes ih =>
    rw [readBlocks, if_neg goes, flatten_cons, length_append, ← Nat.add_assoc]
    exact ih

def readEntries : Decoder → List Char → List (FileEntry N) → List (List UInt8) →
    List (FileEntry N) × List Char
  | decoder, pending, entries, [] =>
    let pending := pending ++ decoder.decode []
    (entries ++ (parseSessionEntryLine pending).toList, pending)
  | decoder, pending, entries, block :: rest =>
    let fed := decoder.feedAll block
    let lines := splitLines (pending ++ fed.2)
    readEntries fed.1 lines.2 (entries ++ lines.1.filterMap parseSessionEntryLine) rest

/-- `loadEntriesFromFile`, block by block. -/
def loadEntriesFromBlocks (N : Type) [JsonNumber N] (short : Nat → Nat) (bytes : List UInt8) :
    List (FileEntry N) × List UInt8 :=
  let blocks := (readBlocks (fun _ => SESSION_READ_BUFFER_SIZE) short 0 bytes).1
  let read := readEntries (N := N) .ready [] [] blocks
  match read.1 with
  | [] => ([], bytes)
  | header :: _ =>
    if isHeader header then (read.1, if read.2 = [] then bytes else bytes ++ [newlineByte])
    else ([], bytes)

theorem readEntries_eq (decoder : Decoder) {pending : List Char} (single : '\n' ∉ pending)
    (entries : List (FileEntry N)) (blocks : List (List UInt8)) :
    let fed := decoder.feedAll blocks.flatten
    let lines := splitLines (pending ++ fed.2)
    let last := lines.2 ++ fed.1.decode []
    readEntries decoder pending entries blocks = (entries ++
      (lines.1.filterMap parseSessionEntryLine ++ (parseSessionEntryLine last).toList), last) := by
  induction blocks generalizing decoder pending entries with
  | nil =>
    simp [readEntries, Decoder.feedAll, splitLines_tail single]
  | cons block rest ih =>
    simp only [flatten_cons, Decoder.feedAll_append, ← append_assoc]
    rw [readEntries, splitLines_append (pending ++ (decoder.feedAll block).2)]
    simp only [ih _ (splitLines_rest _), filterMap_append, append_assoc]

/-- What is left of the last character is no line feed. -/
theorem flush_single (decoder : Decoder) : '\n' ∉ decoder.decode [] := by
  rw [Decoder.decode]
  split
  · exact not_mem_nil
  · decide

/-- The lines of a file, from the text that its blocks have given. -/
theorem splitLines_decode (bytes : List UInt8) :
    splitLines (decode bytes) = ((splitLines (Decoder.ready.feedAll bytes).2).1,
      (splitLines (Decoder.ready.feedAll bytes).2).2 ++
        (Decoder.ready.feedAll bytes).1.decode []) := by
  have last : '\n' ∉ (splitLines (Decoder.ready.feedAll bytes).2).2 ++
      (Decoder.ready.feedAll bytes).1.decode [] := by
    rw [mem_append, not_or]
    exact ⟨splitLines_rest _, flush_single _⟩
  rw [decode, Decoder.decode_eq, splitLines_append, splitLines_tail last, append_nil]

theorem loadEntriesFromBlocks_eq (short : Nat → Nat) (bytes : List UInt8) :
    loadEntriesFromBlocks N short bytes = loadEntriesFromFile bytes := by
  have all := readBlocks_flatten (fun _ => SESSION_READ_BUFFER_SIZE) short 0 bytes
  rcases readBlocks_stops (fun _ => SESSION_READ_BUFFER_SIZE) short 0 bytes with whole | none
  · rw [whole, append_nil] at all
    rw [loadEntriesFromBlocks, loadEntriesFromFile, readEntries_eq _ not_mem_nil, all,
      splitLines_decode, filterMap_append]
    simp only [nil_append, filterMap_cons, filterMap_nil]
    cases parseSessionEntryLine (N := N) ((splitLines (Decoder.ready.feedAll bytes).2).2 ++
      (Decoder.ready.feedAll bytes).1.decode []) with
    | none => rfl
    | some entry => rfl
  · cases none

/-- `none` to go on scanning, which a blank line is for as well: it is not JSON. -/
def parseSessionHeaderCandidate (line : List Char) : Option (Option (FileEntry N)) :=
  match parseSessionEntryLine line with
  | none => none
  | some entry => some (if isHeader entry then some entry else none)

/-- The lines that end in a chunk, the first begun in `line`: what is found, or the line begun. -/
def scanLines (line tail : List Char) : List (List Char) → Option (FileEntry N) ⊕ List Char
  | [] => .inr (line ++ tail)
  | first :: rest =>
    match parseSessionHeaderCandidate (line ++ first) with
    | some header => .inl header
    | none => scanLines [] tail rest

def scanBlocks : Decoder → List Char → List (List UInt8) → Option (FileEntry N) ⊕ List Char
  | decoder, line, [] => .inr (line ++ decoder.decode [])
  | decoder, line, block :: rest =>
    let fed := decoder.feedAll block
    match scanLines line (splitLines fed.2).2 (splitLines fed.2).1 with
    | .inl header => .inl header
    | .inr line => scanBlocks fed.1 line rest

def readSessionHeader (N : Type) [JsonNumber N] (short : Nat → Nat) (filePath : String)
    (bytes : List UInt8) : Except String (Option (FileEntry N)) :=
  let read := readBlocks (fun scannedBytes => min SESSION_HEADER_READ_BUFFER_SIZE
    (MAX_SESSION_HEADER_SCAN_BYTES - scannedBytes)) short 0 bytes
  match scanBlocks (N := N) .ready [] read.1 with
  | .inl header => .ok header
  | .inr line =>
    if read.2 = [] then .ok (parseSessionHeaderCandidate line).join
    else .error s!"Session header exceeds {MAX_SESSION_HEADER_SCAN_BYTES}-byte scan limit: {filePath}"

variable {line : List Char}

theorem splitLines_prepend (single : '\n' ∉ line) (text : List Char) :
    splitLines (line ++ text) = match splitLines text with
      | ([], tail) => ([], line ++ tail)
      | (first :: rest, tail) => ((line ++ first) :: rest, tail) := by
  induction line with
  | nil =>
    rw [nil_append]
    cases splitLines text with
    | mk lines tail => cases lines <;> rfl
  | cons c line ih =>
    rw [mem_cons, not_or] at single
    rw [cons_append, splitLines, if_neg (Ne.symm single.1), ih single.2]
    cases splitLines text with
    | mk lines tail => cases lines <;> rfl

theorem scanLines_cons (line first tail : List Char) (rest : List (List Char)) :
    scanLines (N := N) line tail (first :: rest) =
      (((line ++ first) :: rest).findSome? parseSessionHeaderCandidate).elim (.inr tail) .inl := by
  induction rest generalizing line first with
  | nil =>
    rw [scanLines, findSome?_cons]
    cases parseSessionHeaderCandidate (N := N) (line ++ first) <;> rfl
  | cons next rest ih =>
    rw [scanLines, findSome?_cons]
    cases parseSessionHeaderCandidate (N := N) (line ++ first) with
    | none => exact ih [] next
    | some header => rfl

theorem scanLines_eq (single : '\n' ∉ line) (text : List Char) :
    scanLines (N := N) line (splitLines text).2 (splitLines text).1 =
      ((splitLines (line ++ text)).1.findSome? parseSessionHeaderCandidate).elim
        (.inr (splitLines (line ++ text)).2) .inl := by
  rw [splitLines_prepend single]
  cases splitLines text with
  | mk lines tail =>
    cases lines with
    | nil => rfl
    | cons first rest => exact scanLines_cons line first tail rest

theorem scanBlocks_eq (decoder : Decoder) (single : '\n' ∉ line) (blocks : List (List UInt8)) :
    let fed := decoder.feedAll blocks.flatten
    let lines := splitLines (line ++ fed.2)
    scanBlocks (N := N) decoder line blocks =
      (lines.1.findSome? parseSessionHeaderCandidate).elim
        (.inr (lines.2 ++ fed.1.decode [])) .inl := by
  induction blocks generalizing decoder line with
  | nil => simp [scanBlocks, Decoder.feedAll, splitLines_tail single]
  | cons block rest ih =>
    simp only [flatten_cons, Decoder.feedAll_append, ← append_assoc]
    rw [scanBlocks, scanLines_eq single, splitLines_append (line ++ (decoder.feedAll block).2)]
    simp only [findSome?_append]
    cases (splitLines (line ++ (decoder.feedAll block).2)).1.findSome?
        (parseSessionHeaderCandidate (N := N)) with
    | none => exact ih _ (splitLines_rest _)
    | some header => rfl

theorem head?_loadEntriesFromFile (bytes : List UInt8) :
    (loadEntriesFromFile (N := N) bytes).1.head? =
      ((((splitLines (decode bytes)).1 ++ [(splitLines (decode bytes)).2]).findSome?
        parseSessionHeaderCandidate).join) := by
  rw [loadEntriesFromFile]
  generalize (splitLines (decode bytes)).1 ++ [(splitLines (decode bytes)).2] = lines
  have first : (lines.findSome? (parseSessionHeaderCandidate (N := N))) =
      (lines.filterMap parseSessionEntryLine).head?.map fun entry =>
        if isHeader entry then some entry else none := by
    induction lines with
    | nil => rfl
    | cons line rest ih =>
      rw [findSome?_cons, parseSessionHeaderCandidate, filterMap_cons]
      cases parseSessionEntryLine (N := N) line with
      | none => exact ih
      | some entry => rfl
  rw [first]
  cases lines.filterMap (parseSessionEntryLine (N := N)) with
  | nil => rfl
  | cons header rest => by_cases valid : isHeader header = true <;> simp [valid]

/-- The first line that is JSON ends, with its line feed or with the file, within the limit. -/
def EndsWithinLimit (N : Type) [JsonNumber N] (bytes : List UInt8) : Prop :=
  bytes.length ≤ MAX_SESSION_HEADER_SCAN_BYTES ∨
    ∃ line ∈ (splitLines (decode (bytes.take MAX_SESSION_HEADER_SCAN_BYTES))).1,
      (parseSessionEntryLine (N := N) line).isSome

/-- Discovery finds the header that loading finds, however the reads of both are cut. -/
theorem readSessionHeader_agrees (short : Nat → Nat) (shortLoad : Nat → Nat) (filePath : String)
    (bytes : List UInt8) (ends : EndsWithinLimit N bytes) :
    readSessionHeader N short filePath bytes =
      .ok (loadEntriesFromBlocks N shortLoad bytes).1.head? := by
  rw [loadEntriesFromBlocks_eq, head?_loadEntriesFromFile, readSessionHeader]
  have all := readBlocks_flatten (fun scannedBytes => min SESSION_HEADER_READ_BUFFER_SIZE
    (MAX_SESSION_HEADER_SCAN_BYTES - scannedBytes)) short 0 bytes
  have stops := readBlocks_stops (fun scannedBytes => min SESSION_HEADER_READ_BUFFER_SIZE
    (MAX_SESSION_HEADER_SCAN_BYTES - scannedBytes)) short 0 bytes
  generalize readBlocks _ short 0 bytes = read at all stops ⊢
  have scanned := scanBlocks_eq (N := N) .ready not_mem_nil read.1
  simp only [nil_append] at scanned
  rw [scanned]
  by_cases whole : read.2 = []
  · rw [whole, append_nil] at all
    rw [all, splitLines_decode bytes, findSome?_append]
    cases (splitLines (Decoder.ready.feedAll bytes).2).1.findSome?
        (parseSessionHeaderCandidate (N := N)) with
    | none =>
      simp only [whole, findSome?_cons, findSome?_nil, Option.elim_none, Option.none_or, if_true]
      generalize parseSessionHeaderCandidate (N := N) _ = found
      cases found <;> rfl
    | some header => rfl
  · have limit := stops.resolve_left whole
    have more := length_pos_iff.mpr whole
    have total := congrArg length all
    simp only [length_append, SESSION_HEADER_READ_BUFFER_SIZE, Nat.zero_add] at limit total
    rcases ends with short | ⟨line, mem, isEntry⟩
    · omega
    -- The scanned part holds the line, and the file goes on with the same lines.
    have grown := splitLines_decode_append (bytes.take MAX_SESSION_HEADER_SCAN_BYTES)
      (read.1.flatten.drop MAX_SESSION_HEADER_SCAN_BYTES)
    rw [← all, take_append_of_le_length (by omega)] at mem grown
    rw [take_append_drop, splitLines_decode read.1.flatten] at grown
    have found : ((splitLines (Decoder.ready.feedAll read.1.flatten).2).1.findSome?
        (parseSessionHeaderCandidate (N := N))).isSome := by
      rw [findSome?_isSome_iff]
      refine ⟨line, grown.subset mem, ?_⟩
      rw [parseSessionHeaderCandidate]
      cases parsed : parseSessionEntryLine (N := N) line with
      | none =>
        rw [parsed] at isEntry
        cases isEntry
      | some entry => rfl
    obtain ⟨header, first⟩ := Option.isSome_iff_exists.mp found
    have lines := splitLines_decode_append read.1.flatten read.2
    rw [all, splitLines_decode read.1.flatten] at lines
    rw [first, findSome?_append, lines.findSome?_eq_some first]
    rfl

def headerFile : List UInt8 :=
  Utf8.encode ['{', '"', 't', 'y', 'p', 'e', '"', ':', '"', 's', 'e', 's', 's', 'i', 'o', 'n', '"',
    ',', '"', 'i', 'd', '"', ':', '"', 'a', '"', '}', '\n']

/-- Discovery that reads a byte at a time, and loading. -/
theorem readSessionHeader_agrees_sample :
    readSessionHeader Int (fun _ => 0) "session.jsonl" headerFile =
      .ok (loadEntriesFromBlocks Int (fun position => position) headerFile).1.head? :=
  readSessionHeader_agrees _ _ _ _ (.inl (by decide))

end Trpi.CodingAgent
