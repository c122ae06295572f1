import Trpi.Protocol.Framing

/-!
# Frame decoding does not depend on the chunks

The decoder refines a machine that reads the stream one byte at a time: it
collects a header, then a payload, and knows nothing of chunks and blocks.
-/

namespace Trpi.Protocol

open Library FrameDecoder List

inductive Scan where
  | header (held : Bytes)
  | payload (expected : Nat) (held : Bytes)

/-- What follows a complete header. -/
def startFrame (limit : Nat) (header : Bytes) : Except FrameError (Scan × List Bytes) :=
  let length := FrameDecoder.frameLength header
  if limit < length then .error (.frameTooLong length limit)
  else if length = 0 then .ok (.header [], [[]])
  else .ok (.payload length [], [])

def scanByte (limit : Nat) : Scan → UInt8 → Except FrameError (Scan × List Bytes)
  | .header held, byte =>
    if held.length + 1 < frameHeaderLength then .ok (.header (held ++ [byte]), [])
    else startFrame limit (held ++ [byte])
  | .payload expected held, byte =>
    if held.length + 1 < expected then .ok (.payload expected (held ++ [byte]), [])
    else .ok (.header [], [held ++ [byte]])

variable {limit : Nat}

variable {bytes : Bytes} {expected : Nat}

theorem scan_header_short {held : Bytes} (short : held.length + bytes.length < frameHeaderLength) :
    transduce (scanByte limit) (.header held) bytes = .ok (.header (held ++ bytes), []) :=
  transduce_collect (fun _ _ fits => if_pos fits) short

theorem scan_header_full {held : Bytes} (pending : held.length < frameHeaderLength)
    (full : held.length + bytes.length = frameHeaderLength) :
    transduce (scanByte limit) (.header held) bytes = startFrame limit (held ++ bytes) :=
  transduce_collect_full (startFrame limit) (fun _ _ fits => if_pos fits)
    (fun held byte fits => if_neg (by omega)) pending full

theorem scan_payload_short {held : Bytes} (short : held.length + bytes.length < expected) :
    transduce (scanByte limit) (.payload expected held) bytes =
      .ok (.payload expected (held ++ bytes), []) :=
  transduce_collect (fun _ _ fits => if_pos fits) short

theorem scan_payload_full {held : Bytes} (pending : held.length < expected)
    (full : held.length + bytes.length = expected) :
    transduce (scanByte limit) (.payload expected held) bytes =
      .ok (.header [], [held ++ bytes]) :=
  transduce_collect_full (fun bytes => .ok (Scan.header [], [bytes])) (fun _ _ fits => if_pos fits)
    (fun held byte fits => if_neg (by omega)) pending full

namespace FrameDecoder

def held (d : FrameDecoder) : Bytes :=
  (d.payloadBlocks ++ d.currentPayloadBlock.toList).flatMap PayloadBlock.filled

/-- A payload in progress: full blocks, then one that ends within the payload. -/
structure Pending (d : FrameDecoder) (expected : Nat) : Prop where
  full : ∀ block ∈ d.payloadBlocks, block.filled.length = block.byteLength
  current : ∀ block ∈ d.currentPayloadBlock, block.filled.length ≤ block.byteLength ∧
    d.payloadLength + (block.byteLength - block.filled.length) ≤ expected
  length : d.payloadLength = d.held.length

/-- The invariant between two pushes of an open decoder. -/
structure Ready (d : FrameDecoder) : Prop where
  isOpen : d.state = .open
  header : d.header.length < frameHeaderLength
  pending : ∀ expected, d.expectedPayloadLength = some expected →
    d.header = [] ∧ d.Pending expected ∧ d.payloadLength < expected

/-- The state of the byte machine a decoder stands for. -/
def scan (d : FrameDecoder) : Scan :=
  match d.expectedPayloadLength with
  | none => .header d.header
  | some expected => .payload expected d.held

/-- A block with room for at least one byte of the payload. -/
structure Room (d : FrameDecoder) (expected : Nat) (blocks : List PayloadBlock)
    (block : PayloadBlock) : Prop where
  full : ∀ earlier ∈ blocks, earlier.filled.length = earlier.byteLength
  held : (blocks ++ [block]).flatMap PayloadBlock.filled = d.held
  room : block.filled.length < block.byteLength
  fits : d.payloadLength + (block.byteLength - block.filled.length) ≤ expected

variable {d : FrameDecoder} {expected limit : Nat} {maxFrameLength : Option Int}
  {blocks : List PayloadBlock} {block : PayloadBlock} {chunk : Bytes}

theorem Pending.openBlock (pending : d.Pending expected) (below : d.payloadLength < expected) :
    d.Room expected (d.openBlock expected).1 (d.openBlock expected).2 := by
  have positive : 0 < min payloadBlockSize (expected - d.payloadLength) := by
    rw [Nat.lt_min]
    exact ⟨by decide, by omega⟩
  unfold FrameDecoder.openBlock
  cases current : d.currentPayloadBlock with
  | none =>
    refine ⟨pending.full, ?_, positive, ?_⟩
    · simp [held, current]
    · simp only [length_nil]
      omega
  | some block =>
    obtain ⟨bounded, fits⟩ := pending.current block current
    by_cases isFull : block.filled.length = block.byteLength
    · simp only [if_pos isFull]
      refine ⟨?_, ?_, positive, ?_⟩
      · intro earlier mem
        rcases mem_append.mp mem with mem | mem
        · exact pending.full earlier mem
        · rw [mem_singleton.mp mem, isFull]
      · simp [held, current]
      · simp only [length_nil]
        omega
    · simp only [if_neg isFull]
      exact ⟨pending.full, by simp [held, current], by omega, fits⟩

/-- The decoder after one round of the inner loop. -/
def stored (d : FrameDecoder) (blocks : List PayloadBlock) (block : PayloadBlock)
    (bytes : Bytes) : FrameDecoder :=
  { d with
    payloadBlocks := blocks
    currentPayloadBlock := some { block with filled := block.filled ++ bytes }
    payloadLength := d.payloadLength + bytes.length }

theorem Room.stored_held (opened : d.Room expected blocks block) (bytes : Bytes) :
    (d.stored blocks block bytes).held = d.held ++ bytes := by
  have split : (d.stored blocks block bytes).held =
      (blocks ++ [block]).flatMap PayloadBlock.filled ++ bytes := by
    simp [FrameDecoder.held, stored]
  rw [split, opened.held]

theorem Room.stored_pending (opened : d.Room expected blocks block) (pending : d.Pending expected)
    {bytes : Bytes} (fits : bytes.length ≤ block.byteLength - block.filled.length) :
    (d.stored blocks block bytes).Pending expected where
  full := opened.full
  current := by
    rintro _ ⟨⟩
    have room := opened.room
    have bounded := opened.fits
    simp only [stored, length_append]
    constructor <;> omega
  length := by
    rw [opened.stored_held, length_append, ← pending.length]
    rfl

structure Filled (d filled : FrameDecoder) (expected : Nat) (chunk : Bytes) : Prop where
  pending : filled.Pending expected
  held : filled.held = d.held ++ chunk.take (expected - d.payloadLength)
  header : filled.header = d.header
  maxFrameLength : filled.maxFrameLength = d.maxFrameLength
  expected : filled.expectedPayloadLength = d.expectedPayloadLength
  state : filled.state = d.state

theorem fillPayload_filled {fuel : Nat} (enough : chunk.length ≤ fuel)
    (pending : d.Pending expected) (below : d.payloadLength ≤ expected) :
    (fillPayload fuel d expected chunk).2 = chunk.drop (expected - d.payloadLength) ∧
      Filled d (fillPayload fuel d expected chunk).1 expected chunk := by
  induction fuel generalizing d chunk with
  | zero =>
    have empty : chunk = [] := length_eq_zero_iff.mp (by omega)
    subst empty
    exact ⟨by simp [fillPayload], pending, by simp [fillPayload], rfl, rfl, rfl, rfl⟩
  | succ fuel ih =>
    rw [fillPayload]
    split
    next stop =>
      have nothing : chunk.take (expected - d.payloadLength) = [] ∧
          chunk.drop (expected - d.payloadLength) = chunk := by
        rcases stop with rfl | atEnd
        · simp
        · rw [Nat.sub_eq_zero_of_le atEnd]
          simp
      exact ⟨nothing.2.symm, pending, by rw [nothing.1, append_nil], rfl, rfl, rfl, rfl⟩
    next more =>
      rw [not_or, Nat.not_le] at more
      have nonempty : 0 < chunk.length := length_pos_iff.mpr more.1
      have opened := pending.openBlock more.2
      generalize d.openBlock expected = target at opened ⊢
      obtain ⟨blocks, block⟩ := target
      dsimp only at opened ⊢
      have room := opened.room
      have fits := opened.fits
      generalize taking : min (block.byteLength - block.filled.length) chunk.length = taken
      have length : (chunk.take taken).length = taken := by
        rw [length_take]
        omega
      have next : ({ d with
          payloadBlocks := blocks
          currentPayloadBlock := some { block with filled := block.filled ++ chunk.take taken }
          payloadLength := d.payloadLength + taken } : FrameDecoder) =
          d.stored blocks block (chunk.take taken) := by
        rw [stored, length]
      rw [next]
      have shorter : (chunk.drop taken).length ≤ fuel := by
        rw [length_drop]
        omega
      have inBlock : (chunk.take taken).length ≤ block.byteLength - block.filled.length := by omega
      obtain ⟨rest, filled⟩ := ih shorter (opened.stored_pending pending inBlock)
        (by simp only [stored]; omega)
      have left : expected - d.payloadLength =
          taken + (expected - (d.stored blocks block (chunk.take taken)).payloadLength) := by
        simp only [stored]
        omega
      refine ⟨by rw [rest, left, drop_drop], filled.pending, ?_, filled.header,
        filled.maxFrameLength, filled.expected, filled.state⟩
      rw [filled.held, opened.stored_held, left, take_add, append_assoc]

theorem joinBlocks_eq (blocks : List PayloadBlock) :
    joinBlocks blocks = blocks.flatMap PayloadBlock.bytes := by
  unfold joinBlocks
  split <;> simp

theorem Pending.joinBlocks (pending : d.Pending expected) (complete : d.payloadLength = expected) :
    joinBlocks (d.payloadBlocks ++ d.currentPayloadBlock.toList) = d.held := by
  have allFull : ∀ block ∈ d.payloadBlocks ++ d.currentPayloadBlock.toList,
      block.bytes = block.filled := by
    intro block mem
    have isFull : block.filled.length = block.byteLength := by
      rcases mem_append.mp mem with mem | mem
      · exact pending.full block mem
      · obtain ⟨bounded, fits⟩ := pending.current block (Option.mem_toList.mp mem)
        omega
    rw [PayloadBlock.bytes, isFull, Nat.sub_self, replicate_zero, append_nil]
  rw [joinBlocks_eq, held, flatMap_def, flatMap_def, map_congr_left allFull]

/-- An open decoder after a step that left it between frames or within one. -/
structure Reaches (d next : FrameDecoder) (state : Scan) : Prop where
  ready : next.Ready
  scan : next.scan = state
  maxFrameLength : next.maxFrameLength = d.maxFrameLength

theorem readPayload_transduces (chunk : Bytes) (isOpen : d.state = .open)
    (header : d.header = []) (awaited : d.expectedPayloadLength = some expected)
    (pending : d.Pending expected) (below : d.payloadLength < expected) :
    ∃ next complete s, d.readPayload expected chunk =
        (next, chunk.drop (expected - d.payloadLength), complete) ∧
      transduce (scanByte d.maxFrameLength) d.scan
        (chunk.take (expected - d.payloadLength)) = .ok (s, complete) ∧ Reaches d next s := by
  obtain ⟨rest, filled⟩ := fillPayload_filled (Nat.le_refl chunk.length) pending (Nat.le_of_lt below)
  have scan : d.scan = .payload expected d.held := by rw [scan, awaited]
  have length := pending.length
  unfold readPayload
  generalize fillPayload chunk.length d expected chunk = result at rest filled ⊢
  obtain ⟨next, left⟩ := result
  dsimp only at rest filled ⊢
  subst rest
  have grown := congrArg List.length filled.held
  rw [← filled.pending.length, List.length_append, ← length] at grown
  by_cases complete : next.payloadLength = expected
  · rw [if_pos complete]
    refine ⟨_, _, .header [], rfl, ?_, ?_⟩
    · rw [scan, filled.pending.joinBlocks complete, filled.held]
      exact scan_payload_full (by omega) (by omega)
    · refine ⟨⟨filled.state.trans isOpen, ?_, nofun⟩, ?_, filled.maxFrameLength⟩
      · rw [filled.header, header]
        decide
      · simp only [FrameDecoder.scan, filled.header, header]
  · rw [if_neg complete]
    have awaitedNext := filled.expected.trans awaited
    have short : next.payloadLength < expected := by
      rw [List.length_take] at grown
      omega
    refine ⟨_, _, .payload expected next.held, rfl, ?_, ?_⟩
    · rw [scan, filled.held]
      exact scan_payload_short (by omega)
    · refine ⟨⟨filled.state.trans isOpen, ?_, ?_⟩, ?_, filled.maxFrameLength⟩
      · rw [filled.header, header]
        decide
      · intro other same
        rw [awaitedNext] at same
        cases same
        exact ⟨filled.header.trans header, filled.pending, short⟩
      · rw [FrameDecoder.scan, awaitedNext]

/-- The outcome of pushing a chunk, against the byte machine. -/
def Pushes (d : FrameDecoder) (frames : List Bytes) (chunk : Bytes)
    (outcome : FrameDecoder × Except FrameError (List Bytes)) : Prop :=
  match transduce (scanByte d.maxFrameLength) d.scan chunk with
  | .error reason => outcome.1.state = .failed ∧ outcome.2 = .error reason
  | .ok (s, complete) =>
    outcome.2 = .ok (frames ++ complete) ∧ Reaches d outcome.1 s

theorem Pushes.nil (ready : d.Ready) (frames : List Bytes) :
    Pushes d frames [] (d, .ok frames) :=
  ⟨by rw [append_nil], ready, rfl, rfl⟩

theorem Pushes.after {next : FrameDecoder} {s : Scan} {frames complete : List Bytes}
    {first rest : Bytes} {outcome : FrameDecoder × Except FrameError (List Bytes)}
    (step : transduce (scanByte d.maxFrameLength) d.scan first = .ok (s, complete))
    (reached : Reaches d next s) (later : Pushes next (frames ++ complete) rest outcome) :
    Pushes d frames (first ++ rest) outcome := by
  unfold Pushes at later ⊢
  rw [transduce_append_ok step]
  rw [reached.scan, reached.maxFrameLength] at later
  cases tail : transduce (scanByte d.maxFrameLength) s rest with
  | error reason =>
    rw [tail] at later
    exact later
  | ok done =>
    rw [tail] at later
    obtain ⟨ended, arrives⟩ := later
    refine ⟨by rw [ended, append_assoc], arrives.ready, arrives.scan, ?_⟩
    rw [arrives.maxFrameLength, reached.maxFrameLength]

theorem Ready.keepHeader (ready : d.Ready) (idle : d.expectedPayloadLength = none)
    {header : Bytes} (short : header.length < frameHeaderLength) :
    Reaches d { d with header := header } (.header header) where
  ready := ⟨ready.isOpen, short, by simp [idle]⟩
  scan := by simp [scan, idle]
  maxFrameLength := rfl

/-- The decoder once the length of the next payload is known. -/
def awaiting (d : FrameDecoder) (length : Nat) : FrameDecoder :=
  { d with
    header := []
    expectedPayloadLength := some length
    payloadBlocks := []
    currentPayloadBlock := none
    payloadLength := 0 }

theorem awaiting_pending (d : FrameDecoder) (length : Nat) :
    (d.awaiting length).Pending length :=
  ⟨by simp [awaiting], by simp [awaiting], rfl⟩

theorem pushLoop_pushes {fuel : Nat} (enough : chunk.length ≤ fuel) (ready : d.Ready)
    (frames : List Bytes) : Pushes d frames chunk (pushLoop fuel d chunk frames) := by
  induction fuel generalizing d chunk frames with
  | zero =>
    have empty : chunk = [] := length_eq_zero_iff.mp (by omega)
    subst empty
    exact .nil ready frames
  | succ fuel ih =>
    rw [pushLoop]
    split
    next empty =>
      subst empty
      exact .nil ready frames
    next nonempty =>
      have positive : 0 < chunk.length := length_pos_iff.mpr nonempty
      split
      next expected awaited =>
        obtain ⟨header, pending, below⟩ := ready.pending expected awaited
        obtain ⟨next, complete, s, read, step, reached⟩ :=
          readPayload_transduces chunk ready.isOpen header awaited pending below
        rw [read]
        have shorter : (chunk.drop (expected - d.payloadLength)).length ≤ fuel := by
          rw [length_drop]
          omega
        have later := Pushes.after step reached (ih shorter reached.ready (frames ++ complete))
        rwa [take_append_drop] at later
      next idle =>
        have scan : d.scan = .header d.header := by rw [scan, idle]
        have pending := ready.header
        generalize taking : min (frameHeaderLength - d.header.length) chunk.length = taken
        have length : (chunk.take taken).length = taken := by
          rw [length_take]
          omega
        have shorter : (chunk.drop taken).length ≤ fuel := by
          rw [length_drop]
          omega
        nth_rewrite 1 [← take_append_drop taken chunk]
        dsimp only
        split
        next short =>
          rw [length_append] at short
          have step : transduce (scanByte d.maxFrameLength) d.scan (chunk.take taken) =
              .ok (.header (d.header ++ chunk.take taken), []) := by
            rw [scan]
            exact scan_header_short short
          have reached := ready.keepHeader idle (by rwa [length_append])
          refine Pushes.after step reached ?_
          rw [append_nil]
          exact ih shorter reached.ready frames
        next full =>
          rw [length_append] at full
          have step : transduce (scanByte d.maxFrameLength) d.scan (chunk.take taken) =
              startFrame d.maxFrameLength (d.header ++ chunk.take taken) := by
            rw [scan]
            exact scan_header_full pending (by omega)
          generalize d.header ++ chunk.take taken = header at step ⊢
          unfold startFrame at step
          split
          next tooLong =>
            rw [if_pos tooLong] at step
            unfold Pushes
            rw [transduce_append_error step]
            exact ⟨rfl, rfl⟩
          next fits =>
            rw [if_neg fits] at step
            split
            next empty =>
              rw [if_pos empty] at step
              have reached := ready.keepHeader idle (show ([] : Bytes).length < frameHeaderLength by decide)
              exact Pushes.after step reached (ih shorter reached.ready (frames ++ [[]]))
            next nonzero =>
              rw [if_neg nonzero] at step
              have below := Nat.pos_of_ne_zero nonzero
              have pending := awaiting_pending d (frameLength header)
              have reached : Reaches d (d.awaiting (frameLength header))
                  (.payload (frameLength header) []) := by
                refine ⟨⟨ready.isOpen, (by decide : ([] : Bytes).length < frameHeaderLength), ?_⟩, rfl,
                  rfl⟩
                rintro _ ⟨⟩
                exact ⟨rfl, pending, below⟩
              obtain ⟨next, complete, s, read, fill, arrived⟩ :=
                readPayload_transduces (chunk.drop taken) reached.ready.isOpen rfl rfl pending below
              have none : (d.awaiting (frameLength header)).payloadLength = 0 := rfl
              rw [none, Nat.sub_zero] at read fill
              unfold awaiting at read
              rw [read]
              have left : ((chunk.drop taken).drop (frameLength header)).length ≤ fuel := by
                rw [length_drop]
                omega
              have later := Pushes.after fill arrived (ih left arrived.ready (frames ++ complete))
              rw [take_append_drop] at later
              exact Pushes.after step reached (by rwa [append_nil])

theorem push_pushes (ready : d.Ready) (chunk : Bytes) : Pushes d [] chunk (d.push chunk) := by
  rw [push, ready.isOpen]
  exact pushLoop_pushes (Nat.le_refl _) ready []

/-- Some push throws, or `end` does. -/
def Fails (d : FrameDecoder) (chunks : List Bytes) : Prop :=
  (∃ reason, .error reason ∈ (d.pushes chunks).2) ∨
    ∃ reason, (d.pushes chunks).1.end.2 = .error reason

/-- Every push and `end` succeed, and the pushes deliver the frames. -/
def Delivers (d : FrameDecoder) (chunks frames : List Bytes) : Prop :=
  (∃ delivered : List (List Bytes),
    (d.pushes chunks).2 = delivered.map .ok ∧ delivered.flatten = frames) ∧
    (d.pushes chunks).1.end.2 = .ok ()

theorem pushes_transduces (ready : d.Ready) (chunks : List Bytes) :
    match transduce (scanByte d.maxFrameLength) d.scan chunks.flatten with
    | .error _ => ∃ reason, .error reason ∈ (d.pushes chunks).2
    | .ok (s, frames) => (∃ delivered : List (List Bytes),
        (d.pushes chunks).2 = delivered.map .ok ∧ delivered.flatten = frames) ∧ Reaches d (d.pushes chunks).1 s := by
  induction chunks generalizing d with
  | nil => exact ⟨⟨[], rfl, rfl⟩, ready, rfl, rfl⟩
  | cons chunk rest ih =>
    have pushed := push_pushes ready chunk
    unfold Pushes at pushed
    rw [flatten_cons]
    simp only [pushes]
    cases first : transduce (scanByte d.maxFrameLength) d.scan chunk with
    | error reason =>
      rw [first] at pushed
      rw [transduce_append_error first]
      exact ⟨reason, by rw [pushed.2]; exact mem_cons_self⟩
    | ok done =>
      rw [first] at pushed
      obtain ⟨result, reached⟩ := pushed
      have others := ih reached.ready
      rw [reached.scan, reached.maxFrameLength] at others
      rw [transduce_append_ok first, result]
      cases tail : transduce (scanByte d.maxFrameLength) done.1 rest.flatten with
      | error reason =>
        rw [tail] at others
        obtain ⟨cause, mem⟩ := others
        exact ⟨cause, mem_cons_of_mem _ mem⟩
      | ok last =>
        rw [tail] at others
        obtain ⟨⟨delivered, results, flat⟩, arrives⟩ := others
        refine ⟨⟨done.2 :: delivered, ?_, by rw [flatten_cons, flat]⟩, arrives.ready,
          arrives.scan, arrives.maxFrameLength.trans reached.maxFrameLength⟩
        rw [results]
        rfl

theorem end_ok_iff (ready : d.Ready) : d.end.2 = .ok () ↔ d.scan = .header [] := by
  unfold FrameDecoder.end FrameDecoder.scan
  rw [ready.isOpen]
  cases expected : d.expectedPayloadLength with
  | none => by_cases empty : d.header = [] <;> simp [empty]
  | some length => simp

theorem fails_iff (ready : d.Ready) (chunks : List Bytes) :
    d.Fails chunks ↔ ∀ frames,
      transduce (scanByte d.maxFrameLength) d.scan chunks.flatten ≠
        .ok (.header [], frames) := by
  have pushed := pushes_transduces ready chunks
  unfold Fails
  cases stream : transduce (scanByte d.maxFrameLength) d.scan chunks.flatten with
  | error reason =>
    rw [stream] at pushed
    exact ⟨fun _ _ => nofun, fun _ => .inl pushed⟩
  | ok done =>
    rw [stream] at pushed
    obtain ⟨⟨delivered, results, flat⟩, reached⟩ := pushed
    have noError : ¬ ∃ reason, .error reason ∈ (d.pushes chunks).2 := by
      rw [results]
      simp
    have ends := end_ok_iff reached.ready
    rw [reached.scan] at ends
    constructor
    · rintro (failed | ⟨reason, failed⟩)
      · exact absurd failed noError
      · rintro frames ⟨⟩
        rw [ends.mpr rfl] at failed
        cases failed
    · intro truncated
      right
      cases ended : (d.pushes chunks).1.end.2 with
      | error reason => exact ⟨reason, rfl⟩
      | ok v =>
        exact absurd (by rw [← ends.mp ended]) (truncated done.2)

theorem frameLength_frameHeader {length : Nat} (fits : length ≤ maxUint32) :
    frameLength (frameHeader length) = length := by
  unfold maxUint32 at fits
  simp only [frameLength, frameHeader, getD_cons_zero, getD_cons_succ,
    UInt8.toNat_ofNat', Nat.shiftRight_eq_div_pow]
  omega

theorem scan_encodeFrame (bounded : limit ≤ maxUint32) {payload : Bytes}
    (fits : payload.length ≤ limit) :
    ∃ frame, encodeFrame payload = .ok frame ∧
      transduce (scanByte limit) (.header []) frame = .ok (.header [], [payload]) := by
  have encodable : ¬ maxUint32 < payload.length := by omega
  refine ⟨frameHeader payload.length ++ payload, by rw [encodeFrame, if_neg encodable], ?_⟩
  have started : transduce (scanByte limit) (.header []) (frameHeader payload.length) =
      startFrame limit (frameHeader payload.length) := scan_header_full (by decide) rfl
  have accepted : ¬ limit < payload.length := by omega
  simp only [startFrame, frameLength_frameHeader (Nat.le_trans fits bounded), if_neg accepted] at started
  by_cases empty : payload.length = 0
  · rw [if_pos empty] at started
    have nothing : payload = [] := eq_nil_of_length_eq_zero empty
    rw [nothing] at started ⊢
    rw [append_nil]
    exact started
  · rw [if_neg empty] at started
    rw [transduce_append_ok started, scan_payload_full (Nat.pos_of_ne_zero empty) (Nat.zero_add _)]
    rfl

theorem resolveMaxFrameLength_le
    (resolved : resolveMaxFrameLength maxFrameLength = .ok limit) : limit ≤ maxUint32 := by
  unfold resolveMaxFrameLength at resolved
  dsimp only at resolved
  split at resolved
  · cases resolved
  next inRange =>
    cases resolved
    omega

theorem create_ready (created : create maxFrameLength = .ok d) :
    d.Ready ∧ d.scan = .header [] ∧ d.maxFrameLength ≤ maxUint32 := by
  unfold create at created
  cases resolved : resolveMaxFrameLength maxFrameLength with
  | error reason =>
    rw [resolved] at created
    cases created
  | ok limit =>
    rw [resolved] at created
    cases created
    exact ⟨⟨rfl, Nat.zero_lt_succ 3, nofun⟩, rfl, resolveMaxFrameLength_le resolved⟩

theorem scan_encodeFrames (bounded : limit ≤ maxUint32) {payloads : List Bytes}
    (fits : ∀ payload ∈ payloads, payload.length ≤ limit) :
    ∃ frames, payloads.mapM encodeFrame = .ok frames ∧
      transduce (scanByte limit) (.header []) frames.flatten = .ok (.header [], payloads) := by
  induction payloads with
  | nil => exact ⟨[], rfl, rfl⟩
  | cons payload rest ih =>
    obtain ⟨frame, encoded, scanned⟩ := scan_encodeFrame bounded (fits payload mem_cons_self)
    obtain ⟨frames, others, rescanned⟩ := ih fun other mem =>
      fits other (mem_cons_of_mem _ mem)
    refine ⟨frame :: frames, ?_, ?_⟩
    · simp only [mapM_cons, encoded, others]
      rfl
    · rw [flatten_cons, transduce_append_ok scanned, rescanned]
      rfl

/-- Any cut of the framed payloads delivers them, and whether a stream is refused
does not depend on its cut. -/
theorem frames_chunk_independent {maxFrameLength : Option Int} {d : FrameDecoder}
    (created : create maxFrameLength = .ok d) :
    (∀ payloads : List Bytes, (∀ payload ∈ payloads, payload.length ≤ d.maxFrameLength) →
      ∃ frames, payloads.mapM encodeFrame = .ok frames ∧
        ∀ chunks : List Bytes, chunks.flatten = frames.flatten →
          d.Delivers chunks payloads) ∧
    ∀ chunks others : List Bytes, chunks.flatten = others.flatten →
      (d.Fails chunks ↔ d.Fails others) := by
  obtain ⟨ready, atStart, bounded⟩ := create_ready created
  constructor
  · intro payloads fits
    obtain ⟨frames, encoded, scanned⟩ := scan_encodeFrames bounded fits
    refine ⟨frames, encoded, fun chunks cut => ?_⟩
    have pushed := pushes_transduces ready chunks
    rw [atStart, cut, scanned] at pushed
    exact ⟨pushed.1, (end_ok_iff pushed.2.ready).mpr pushed.2.scan⟩
  · intro chunks others cut
    rw [fails_iff ready, fails_iff ready, cut]

theorem frames_chunk_independent_default :
    ∃ d, create none = .ok d ∧
      d.Delivers [[0, 0], [0, 2, 7], [], [9, 0, 0, 0, 0]] [[7, 9], []] ∧
      (d.Fails [[0], [0, 0, 1]] ↔ d.Fails [[0, 0, 0, 1]]) := by
  obtain ⟨d, created⟩ : ∃ d, create none = .ok d := ⟨_, rfl⟩
  obtain ⟨delivers, fails⟩ := frames_chunk_independent created
  have limit : d.maxFrameLength = defaultMaxFrameLength := by
    cases created
    rfl
  obtain ⟨frames, encoded, delivered⟩ := delivers [[7, 9], []] (by simp [limit, defaultMaxFrameLength])
  refine ⟨d, created, delivered _ ?_, fails _ _ rfl⟩
  cases encoded
  rfl

end FrameDecoder

end Trpi.Protocol
