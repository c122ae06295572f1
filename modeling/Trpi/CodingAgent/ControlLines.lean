import Trpi.Library.JsonInt
import Trpi.Library.JsonRoundTrip
import Trpi.Library.Lines
import Trpi.Library.Runs

/-!
# Control lines

The coordinator and its peers exchange JSON messages, one on a line. The encoder bounds a line, the
readers bound what they hold before they take the lines out of it: a chunk that ends one line and
brings others can be refused though each of its lines is within the bound.
-/

namespace Trpi.CodingAgent

open Library List Json

variable {N : Type}

def MAX_CONTROL_LINE_BYTES : Nat := 128 * 1024 * 1024

def byteLength (text : List Char) : Nat := (Utf8.encode text).length

def encodeControlLine [JsonNumber N] (message : Json N) : Except String (List Char) :=
  let line := Json.stringifyChars message ++ ['\n']
  if MAX_CONTROL_LINE_BYTES < byteLength line then .error "Internal control message is too large"
  else .ok line

structure LineReader (N : Type) where
  buffered : List Char
  handed : List (Json N)
  destroyed : Option String

def LineReader.new : LineReader N := { buffered := [], handed := [], destroyed := none }

/-- What a reader makes of a line: a message, or the error it destroys the socket with. -/
abbrev LineParser (N : Type) := List Char → Except String (Json N)

def handLines (parse : LineParser N) : List (List Char) → List (Json N) × Option String
  | [] => ([], none)
  | line :: rest =>
    match parse line with
    | .error error => ([], some error)
    | .ok message => (message :: (handLines parse rest).1, (handLines parse rest).2)

/-- A chunk of data; a destroyed socket gets none. -/
def LineReader.receive (parse : LineParser N) (reader : LineReader N) (chunk : List Char) :
    LineReader N :=
  if reader.destroyed.isSome then reader
  else
    let buffered := reader.buffered ++ chunk
    if MAX_CONTROL_LINE_BYTES < byteLength buffered then
      { reader with buffered := buffered, destroyed := some "Coordinator message is too large" }
    else
      let lines := splitLines buffered
      let taken := handLines parse lines.1
      { buffered := lines.2, handed := reader.handed ++ taken.1, destroyed := taken.2 }

def jsonLine [JsonNumber N] (line : List Char) : Except String (Json N) :=
  match Json.parseChars line with
  | none => .error "Coordinator sent invalid JSON"
  | some message => .ok message

/-- `typeof message?.type === "string"`. -/
def hasType (message : Json N) : Bool := ((message.get? "type").bind Json.string?).isSome

/-- `syntaxError` is the text of the error that the JSON parser throws. -/
def routedLine [JsonNumber N] (syntaxError : List Char → String) (line : List Char) :
    Except String (Json N) :=
  match Json.parseChars line with
  | none => .error (syntaxError line)
  | some message =>
    if hasType message then .ok message else .error "Coordinator message must have a type"

def attachJsonLineReader [JsonNumber N] (chunks : List (List Char)) : LineReader N :=
  chunks.foldl (LineReader.receive jsonLine) .new

def attachRoutedLineReader [JsonNumber N] (syntaxError : List Char → String)
    (chunks : List (List Char)) : LineReader N :=
  chunks.foldl (LineReader.receive (routedLine syntaxError)) .new

/-- Each chunk is within the limit together with what stands before it on its line. -/
def ChunksFit : List Char → List (List Char) → Prop
  | _, [] => True
  | pending, chunk :: rest =>
    byteLength (pending ++ chunk) ≤ MAX_CONTROL_LINE_BYTES ∧
      ChunksFit (splitLines (pending ++ chunk)).2 rest

/-- A line that is within the limit with its line feed. -/
def Short (line : List Char) : Prop := byteLength line < MAX_CONTROL_LINE_BYTES

instance (line : List Char) : Decidable (Short line) := inferInstanceAs (Decidable (_ < _))

theorem byteLength_append (first second : List Char) :
    byteLength (first ++ second) = byteLength first + byteLength second := by
  simp [byteLength]

theorem joinLines_splitLines (text : List Char) :
    joinLines (splitLines text).1 ++ (splitLines text).2 = text := by
  induction text with
  | nil => rfl
  | cons c rest ih =>
    rw [splitLines]
    split
    · rename_i newline
      rw [joinLines_cons, nil_append, newline, cons_append, ih]
    · cases shape : splitLines rest with
      | mk lines tail =>
        rw [shape] at ih
        cases lines with
        | nil => simpa using ih
        | cons line lines => simpa [joinLines_cons] using ih

theorem byteLength_of_mem {line : List Char} {lines : List (List Char)} (mem : line ∈ lines) :
    byteLength line < byteLength (joinLines lines) := by
  induction lines with
  | nil => cases mem
  | cons other lines ih =>
    have newline : byteLength ('\n' :: joinLines lines) = 1 + byteLength (joinLines lines) :=
      byteLength_append ['\n'] _
    rw [joinLines_cons, byteLength_append, newline]
    rcases mem_cons.mp mem with rfl | later
    · omega
    · have shorter := ih later
      omega

theorem short_of_fit {pending : List Char} {chunks : List (List Char)}
    (single : '\n' ∉ pending) (small : byteLength pending ≤ MAX_CONTROL_LINE_BYTES)
    (fit : ChunksFit pending chunks) :
    (∀ line ∈ (splitLines (pending ++ chunks.flatten)).1, Short line) ∧
      byteLength (splitLines (pending ++ chunks.flatten)).2 ≤ MAX_CONTROL_LINE_BYTES := by
  induction chunks generalizing pending with
  | nil =>
    rw [flatten_nil, append_nil, splitLines_tail single]
    exact ⟨forall_mem_nil _, small⟩
  | cons chunk rest ih =>
    have whole := congrArg byteLength (joinLines_splitLines (pending ++ chunk))
    rw [byteLength_append] at whole
    have inside := fit.1
    obtain ⟨later, last⟩ := ih (splitLines_rest _) (by omega) fit.2
    rw [flatten_cons, ← append_assoc, splitLines_append]
    refine ⟨fun line mem => ?_, last⟩
    rcases mem_append.mp mem with here | there
    · have shorter := byteLength_of_mem here
      rw [Short]
      omega
    · exact later line there

variable {parse : LineParser N} {reader : LineReader N} {chunks : List (List Char)}

theorem foldl_destroyed (destroyed : reader.destroyed.isSome = true) :
    chunks.foldl (LineReader.receive parse) reader = reader := by
  induction chunks with
  | nil => rfl
  | cons chunk rest ih => rw [foldl_cons, LineReader.receive, if_pos destroyed, ih]

theorem handLines_ok {lines : List (List Char)}
    (good : ∀ line ∈ lines, ∃ message, parse line = .ok message) :
    handLines parse lines = (lines.filterMap fun line => (parse line).toOption, none) := by
  induction lines with
  | nil => rfl
  | cons line rest ih =>
    obtain ⟨⟨message, parsed⟩, later⟩ := forall_mem_cons.mp good
    simp [handLines, parsed, ih later, Except.toOption]

theorem handLines_front (lines : List (List Char)) :
    (handLines parse lines).1 <+: lines.filterMap (fun line => (parse line).toOption) ∧
      ((handLines parse lines).2 = none →
        (handLines parse lines).1 = lines.filterMap fun line => (parse line).toOption) := by
  induction lines with
  | nil => exact ⟨prefix_rfl, fun _ => rfl⟩
  | cons line rest ih =>
    rw [handLines]
    cases parsed : parse line with
    | error error => exact ⟨List.nil_prefix, by rintro ⟨⟩⟩
    | ok message => simpa [filterMap_cons, parsed, Except.toOption] using ih

theorem foldl_fit (alive : reader.destroyed = none) (single : '\n' ∉ reader.buffered)
    (fit : ChunksFit reader.buffered chunks)
    (good : ∀ line ∈ (splitLines (reader.buffered ++ chunks.flatten)).1,
      ∃ message, parse line = .ok message) :
    chunks.foldl (LineReader.receive parse) reader =
      { buffered := (splitLines (reader.buffered ++ chunks.flatten)).2
        handed := reader.handed ++ (splitLines (reader.buffered ++ chunks.flatten)).1.filterMap
          fun line => (parse line).toOption
        destroyed := none } := by
  induction chunks generalizing reader with
  | nil =>
    rw [flatten_nil, append_nil, splitLines_tail single]
    simp [← alive]
  | cons chunk rest ih =>
    rw [flatten_cons, ← append_assoc, splitLines_append] at good ⊢
    obtain ⟨here, later⟩ := forall_mem_append.mp good
    have received : reader.receive parse chunk =
        { buffered := (splitLines (reader.buffered ++ chunk)).2
          handed := reader.handed ++ (splitLines (reader.buffered ++ chunk)).1.filterMap
            fun line => (parse line).toOption
          destroyed := none } := by
      simp [LineReader.receive, alive, Nat.not_lt.mpr fit.1, handLines_ok here]
    rw [foldl_cons, received, ih rfl (splitLines_rest _) fit.2 later, filterMap_append,
      append_assoc]

theorem fit_of_alive (alive : (chunks.foldl (LineReader.receive parse) reader).destroyed = none) :
    ChunksFit reader.buffered chunks := by
  induction chunks generalizing reader with
  | nil => trivial
  | cons chunk rest ih =>
    rw [foldl_cons, LineReader.receive] at alive
    by_cases before : reader.destroyed.isSome = true
    · rw [if_pos before, foldl_destroyed before] at alive
      simp [alive] at before
    rw [if_neg before] at alive
    by_cases large : MAX_CONTROL_LINE_BYTES < byteLength (reader.buffered ++ chunk)
    · rw [if_pos large, foldl_destroyed rfl] at alive
      cases alive
    · rw [if_neg large] at alive
      exact ⟨Nat.not_lt.mp large, ih alive⟩

/-- Only messages of lines in front of the first one that is too long are handed on. -/
theorem foldl_handed (single : '\n' ∉ reader.buffered)
    (small : byteLength reader.buffered ≤ MAX_CONTROL_LINE_BYTES) :
    ∃ taken, (chunks.foldl (LineReader.receive parse) reader).handed = reader.handed ++ taken ∧
      taken <+: ((splitLines (reader.buffered ++ chunks.flatten)).1.takeWhile Short).filterMap
        fun line => (parse line).toOption := by
  induction chunks generalizing reader with
  | nil => exact ⟨[], (append_nil _).symm, nil_prefix⟩
  | cons chunk rest ih =>
    rw [foldl_cons, flatten_cons, ← append_assoc, splitLines_append]
    by_cases before : reader.destroyed.isSome = true
    · rw [LineReader.receive, if_pos before, foldl_destroyed before]
      exact ⟨[], (append_nil _).symm, nil_prefix⟩
    by_cases large : MAX_CONTROL_LINE_BYTES < byteLength (reader.buffered ++ chunk)
    · rw [LineReader.receive, if_neg before, if_pos large, foldl_destroyed rfl]
      exact ⟨[], (append_nil _).symm, nil_prefix⟩
    have fit : ChunksFit reader.buffered [chunk] := ⟨Nat.not_lt.mp large, trivial⟩
    have shorts := short_of_fit single small fit
    rw [flatten_cons, flatten_nil, append_nil] at shorts
    rw [takeWhile_append_of_pos (by simpa using shorts.1), filterMap_append, LineReader.receive,
      if_neg before, if_neg large]
    dsimp only
    obtain ⟨some_, all⟩ := @handLines_front _ parse (splitLines (reader.buffered ++ chunk)).1
    cases ended : (handLines parse (splitLines (reader.buffered ++ chunk)).1).2 with
    | some error =>
      rw [foldl_destroyed rfl]
      exact ⟨_, rfl, some_.trans (prefix_append _ _)⟩
    | none =>
      obtain ⟨taken, same, first⟩ := @ih
        ⟨_, reader.handed ++ (handLines parse (splitLines (reader.buffered ++ chunk)).1).1, none⟩
        (splitLines_rest (reader.buffered ++ chunk)) shorts.2
      rw [same, append_assoc, all ended]
      exact ⟨_, rfl, (prefix_append_right_inj _).mpr first⟩

/-- Every message is handed on, and the socket is not destroyed. -/
structure Lossless (read : LineReader N) (messages : List (Json N)) : Prop where
  handed : read.handed = messages
  alive : read.destroyed = none

/-- The socket is destroyed, and nothing from the first line on that is too long is handed on. -/
structure Refuses (parse : LineParser N) (read : LineReader N) (text : List Char) : Prop where
  destroyed : read.destroyed.isSome
  handed : read.handed <+: ((splitLines text).1.takeWhile Short).filterMap
    fun line => (parse line).toOption

def TooLong (text : List Char) : Prop :=
  (∃ line ∈ (splitLines text).1, ¬Short line) ∨
    MAX_CONTROL_LINE_BYTES < byteLength (splitLines text).2

theorem refuses (parse : LineParser N) (long : TooLong chunks.flatten) :
    Refuses parse (chunks.foldl (LineReader.receive parse) .new) chunks.flatten := by
  constructor
  · by_contra alive
    rw [Option.not_isSome_iff_eq_none] at alive
    have shorts := short_of_fit not_mem_nil (Nat.zero_le _) (fit_of_alive alive)
    rcases long with ⟨line, mem, long⟩ | long
    · exact long (shorts.1 line mem)
    · exact Nat.not_lt.mpr shorts.2 long
  · obtain ⟨taken, same, first⟩ := @foldl_handed N parse .new chunks not_mem_nil (Nat.zero_le _)
    rw [same]
    exact first

variable [JsonNumber N] {messages : List (Json N)}

theorem lossless_iff (reads : ∀ m ∈ messages, parse (stringifyChars m) = .ok m)
    (whole : chunks.flatten = joinLines (messages.map stringifyChars)) :
    Lossless (chunks.foldl (LineReader.receive parse) .new) messages ↔ ChunksFit [] chunks := by
  constructor
  · exact fun lossless => fit_of_alive lossless.alive
  · intro fit
    have single : ∀ line ∈ messages.map stringifyChars, '\n' ∉ line := by
      intro line mem
      obtain ⟨m, -, rfl⟩ := mem_map.mp mem
      exact stringifyChars_no_newline m
    have lines := splitLines_joinLines single not_mem_nil
    rw [append_nil, ← whole] at lines
    have read := @foldl_fit _ parse .new _ rfl not_mem_nil fit (by
      intro line mem
      change line ∈ (splitLines chunks.flatten).1 at mem
      rw [lines] at mem
      obtain ⟨m, inside, rfl⟩ := mem_map.mp mem
      exact ⟨m, reads m inside⟩)
    have all : (messages.map stringifyChars).filterMap (fun line => (parse line).toOption) =
        messages := by
      rw [filterMap_map, filterMap_congr (g := some) fun m mem => by
        simp [reads m mem, Except.toOption], filterMap_some]
    rw [read]
    refine ⟨?_, rfl⟩
    change [] ++ (splitLines chunks.flatten).1.filterMap _ = messages
    rw [lines, nil_append, all]

theorem encoded_lines {lines : List (List Char)}
    (encoded : messages.mapM encodeControlLine = .ok lines) :
    lines.flatten = joinLines (messages.map stringifyChars) := by
  induction messages generalizing lines with
  | nil => cases encoded; rfl
  | cons m rest ih =>
    rw [mapM_cons] at encoded
    obtain ⟨line, first, encoded⟩ := bind_eq_ok encoded
    obtain ⟨later, others, encoded⟩ := bind_eq_ok encoded
    cases encoded
    rw [encodeControlLine] at first
    split at first
    · cases first
    · cases first
      simp [joinLines_cons, ih others]

/-- Messages arrive just where each chunk fits behind what is pending; what is too long never. -/
theorem lineReaders_lossless (syntaxError : List Char → String) (messages : List (Json N))
    (typed : ∀ m ∈ messages, hasType m = true) (lines : List (List Char))
    (encoded : messages.mapM encodeControlLine = .ok lines) (chunks : List (List Char))
    (whole : chunks.flatten = lines.flatten) :
    (Lossless (attachJsonLineReader chunks) messages ↔ ChunksFit [] chunks) ∧
    (Lossless (attachRoutedLineReader syntaxError chunks) messages ↔ ChunksFit [] chunks) ∧
    ∀ pieces : List (List Char), TooLong pieces.flatten →
      Refuses (N := N) jsonLine (attachJsonLineReader pieces) pieces.flatten ∧
      Refuses (N := N) (routedLine syntaxError) (attachRoutedLineReader syntaxError pieces)
        pieces.flatten := by
  have joined := whole.trans (encoded_lines encoded)
  refine ⟨lossless_iff (fun m _ => ?_) joined, lossless_iff (fun m mem => ?_) joined,
    fun pieces long => ⟨refuses _ long, refuses _ long⟩⟩
  · rw [jsonLine, parseChars_stringifyChars]
  · rw [routedLine, parseChars_stringifyChars]
    exact if_pos (typed m mem)

def typeMessage (n : Nat) : Json Int := .obj [("type", .str (String.ofList (replicate n 'a')))]

theorem byteLength_replicate (n : Nat) : byteLength (replicate n 'a') = n := by
  induction n with
  | zero => rfl
  | succ n ih =>
    have one : byteLength ('a' :: replicate n 'a') = 1 + byteLength (replicate n 'a') :=
      byteLength_append ['a'] _
    rw [replicate_succ, one, ih, Nat.add_comm]

theorem byteLength_typeMessage (n : Nat) :
    byteLength (stringifyChars (typeMessage n)) = n + 11 := by
  have escaped : (replicate n 'a').flatMap escapeChar = replicate n 'a' := by
    induction n with
    | zero => rfl
    | succ n ih => rw [replicate_succ, flatMap_cons, ih]; rfl
  have printed : stringifyChars (typeMessage n) =
      '{' :: "\"type\":\"".toList ++ replicate n 'a' ++ ['"', '}'] := by
    simp [typeMessage, Json.stringifyChars, Json.stringifyMember, Json.stringifyMembers,
      Json.quoteChars, escaped]
    rfl
  rw [printed, byteLength_append, byteLength_append, byteLength_replicate, Nat.add_comm _ n]
  rfl

theorem encodeControlLine_typeMessage {n : Nat} (small : n + 12 ≤ MAX_CONTROL_LINE_BYTES) :
    encodeControlLine (typeMessage n) = .ok (Json.stringifyChars (typeMessage n) ++ ['\n']) := by
  have long : byteLength ['\n'] = 1 := rfl
  rw [encodeControlLine, byteLength_append, byteLength_typeMessage, long, if_neg (by omega)]

theorem lineReaders_lossless_typeMessage :
    Lossless (attachJsonLineReader [Json.stringifyChars (typeMessage 1), ['\n']])
      [typeMessage 1] := by
  have typed : ∀ m ∈ [typeMessage 1], hasType m = true :=
    fun m mem => by rw [mem_singleton.mp mem]; rfl
  have encoded : [typeMessage 1].mapM encodeControlLine =
      .ok [Json.stringifyChars (typeMessage 1) ++ ['\n']] := by
    rw [mapM_cons, encodeControlLine_typeMessage (by decide)]
    rfl
  have fit : ChunksFit [] [Json.stringifyChars (typeMessage 1), ['\n']] :=
    ⟨by decide, by decide, trivial⟩
  have whole : [Json.stringifyChars (typeMessage 1), ['\n']].flatten =
      [Json.stringifyChars (typeMessage 1) ++ ['\n']].flatten := rfl
  exact (lineReaders_lossless (fun _ => "") _ typed _ encoded _ whole).1.mpr fit

def endAndLine (n : Nat) : List (List Char) :=
  [Json.stringifyChars (typeMessage n), '\n' :: (Json.stringifyChars (typeMessage 1) ++ ['\n'])]

theorem endAndLine_refused {parse : LineParser Int} {n : Nat} {messages : List (Json Int)}
    (large : MAX_CONTROL_LINE_BYTES ≤ n + 12) :
    ¬Lossless ((endAndLine n).foldl (LineReader.receive parse) .new) messages := by
  intro lossless
  have fit := (fit_of_alive lossless.alive).2.1
  have second : byteLength ('\n' :: (Json.stringifyChars (typeMessage 1) ++ ['\n'])) = 14 := by
    decide
  change byteLength ((splitLines (Json.stringifyChars (typeMessage n))).2 ++ _) ≤ _ at fit
  rw [splitLines_tail (Json.stringifyChars_no_newline _), byteLength_append,
    byteLength_typeMessage, second] at fit
  omega

theorem lineReaders_refuse_endAndLine :
    ∃ messages : List (Json Int), (∀ m ∈ messages, hasType m = true) ∧
      (∃ lines, messages.mapM encodeControlLine = .ok lines ∧
        (endAndLine (MAX_CONTROL_LINE_BYTES - 12)).flatten = lines.flatten) ∧
      ¬Lossless (attachJsonLineReader (endAndLine (MAX_CONTROL_LINE_BYTES - 12))) messages ∧
      ¬Lossless (attachRoutedLineReader (fun _ => "")
        (endAndLine (MAX_CONTROL_LINE_BYTES - 12))) messages := by
  generalize within : MAX_CONTROL_LINE_BYTES - 12 = n
  have limit : MAX_CONTROL_LINE_BYTES = 134217728 := rfl
  have large : MAX_CONTROL_LINE_BYTES ≤ n + 12 := by omega
  refine ⟨[typeMessage n, typeMessage 1], ?_, ?_, endAndLine_refused large,
    endAndLine_refused large⟩
  · intro m mem
    rcases mem_pair.mp mem with rfl | rfl <;> rfl
  · have encoded := encodeControlLine_typeMessage (n := n) (by omega)
    have other := encodeControlLine_typeMessage (n := 1) (by omega)
    refine ⟨_, by rw [mapM_cons, encoded, mapM_cons, other]; rfl, ?_⟩
    simp [endAndLine]

end Trpi.CodingAgent
