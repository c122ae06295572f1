import Trpi.Harness.AdaptivePublisher
import Trpi.Harness.ShellUpdates
import Trpi.Library.Machine

/-!
# Publication of a capture

The capture calls its consumer in the middle of a push or of a change of the spill path, and
the consumer may call the capture again, return or throw. What is left to do of the calls
that are under way is a stack; the capture can be called when it is empty or when a consumer
is on its top. The timer goes off between calls only. What was published is recorded with the
snapshot it was made from.
-/

namespace Trpi.Harness

open Library
open Library.Utf16 (Units units)

def OUTPUT_MIN_EMIT_INTERVAL_MS : Nat := 100

def OUTPUT_TARGET_BYTES_PER_SECOND : Nat := 102400

/-- A consumer that is running, or what a call does when the consumer has returned. -/
inductive CaptureFrame where
  | consumer
  | append (text : Units)
  | flush
  deriving DecidableEq

structure PublishedCapture where
  capture : OutputCapture
  spillPath : Option String
  publisher : AdaptivePublisher SpilledOutputView
  stack : List CaptureFrame
  log : List (ShellOutputUpdate × SpilledOutputView)

/-- The publisher of a capture; the measure of an update only sets how long the next waits. -/
def publisherOptions (measure : ShellOutputUpdate → Nat) :
    AdaptivePublisherOptions SpilledOutputView ShellOutputUpdate where
  update previous current := some (updateFrom previous current)
  measure := measure
  minIntervalMs := OUTPUT_MIN_EMIT_INTERVAL_MS
  targetBytesPerSecond := OUTPUT_TARGET_BYTES_PER_SECOND

namespace PublishedCapture

def new (capture : OutputCapture) : PublishedCapture where
  capture := capture
  spillPath := none
  publisher := .new
  stack := []
  log := []

def snapshot (s : PublishedCapture) : SpilledOutputView :=
  { s.capture.snapshot with spillPath := s.spillPath }

def callable (s : PublishedCapture) : Bool :=
  match s.stack with
  | [] => true
  | frame :: _ => frame = .consumer

/-- What a call of the publisher leaves, and the consumer it calls. -/
def publish (s : PublishedCapture)
    (result : AdaptivePublisher SpilledOutputView × Option ShellOutputUpdate) :
    PublishedCapture :=
  match result.2 with
  | none => { s with publisher := result.1 }
  | some update =>
    { s with
      publisher := result.1
      stack := .consumer :: s.stack
      log := s.log ++ [(update, s.snapshot)] }

section

variable (measure : ShellOutputUpdate → Nat)

def markDirty (s : PublishedCapture) (clock : ClockReadings) : PublishedCapture :=
  s.publish (s.publisher.markDirty (publisherOptions measure) clock s.snapshot)

/-- The publisher's flush with `force`. -/
def forcedFlush (s : PublishedCapture) (now : Int) : PublishedCapture :=
  s.publish (s.publisher.flush (publisherOptions measure) now true s.snapshot)

def appendText (s : PublishedCapture) (text : Units) (clock : ClockReadings) :
    PublishedCapture :=
  if text = [] then s
  else markDirty measure { s with capture := s.capture.appendText text } clock

/-- The decoder's `decode()`, appended. -/
def flushDecoder (s : PublishedCapture) (clock : ClockReadings) : PublishedCapture :=
  appendText measure { s with capture := { s.capture with decoder := .new } }
    (units s.capture.decoder.flush) clock

def push (s : PublishedCapture) (chunk : Chunk) (clock : ClockReadings) :
    PublishedCapture :=
  if s.capture.disposed then s
  else
    match chunk with
    | .text chunk =>
      flushDecoder measure { s with stack := .append chunk :: s.stack } clock
    | .bytes chunk =>
      appendText measure
        { s with
          capture :=
            { s.capture with decoder := (s.capture.decoder.stream chunk).1 } }
        (units (s.capture.decoder.stream chunk).2) clock

def finish (s : PublishedCapture) (clock : ClockReadings) : PublishedCapture :=
  if s.capture.disposed then s else flushDecoder measure s clock

def setSpillPath (s : PublishedCapture) (path : String) (clock : ClockReadings) :
    PublishedCapture :=
  if s.capture.disposed ∨ s.spillPath = some path then s
  else
    markDirty measure { s with spillPath := some path, stack := .flush :: s.stack } clock

def flush (s : PublishedCapture) (now : Int) : PublishedCapture :=
  if s.capture.disposed then s else forcedFlush measure s now

def dispose (s : PublishedCapture) : PublishedCapture :=
  { s with publisher := s.publisher.dispose, capture := s.capture.dispose }

def resume (s : PublishedCapture) (clock : ClockReadings) : Option PublishedCapture :=
  match s.stack with
  | .append text :: rest => some (appendText measure { s with stack := rest } text clock)
  | .flush :: rest => some (flush measure { s with stack := rest } clock.flushed)
  | _ => none

/-- The timer goes off; nothing else is running then. -/
def fire (s : PublishedCapture) (now : Int) : Option PublishedCapture :=
  if s.stack = [] then
    (s.publisher.fire (publisherOptions measure) now s.snapshot).map s.publish
  else none

end

end PublishedCapture

inductive CaptureEvent where
  | push (chunk : Chunk) (clock : ClockReadings)
  | finish (clock : ClockReadings)
  | setSpillPath (path : String) (clock : ClockReadings)
  | flush (now : Int)
  | dispose
  | resume (clock : ClockReadings)
  | fire (now : Int)
  | returns
  | throws

namespace PublishedCapture

/-- A consumer that throws takes the calls under way with it, up to the next consumer. -/
def step (measure : ShellOutputUpdate → Nat) (s : PublishedCapture) :
    CaptureEvent → Option PublishedCapture
  | .push chunk clock => if s.callable then some (s.push measure chunk clock) else none
  | .finish clock => if s.callable then some (s.finish measure clock) else none
  | .setSpillPath path clock =>
    if s.callable then some (s.setSpillPath measure path clock) else none
  | .flush now => if s.callable then some (s.flush measure now) else none
  | .dispose => if s.callable then some s.dispose else none
  | .resume clock => s.resume measure clock
  | .fire now => s.fire measure now
  | .returns =>
    match s.stack with
    | .consumer :: rest => some { s with stack := rest }
    | _ => none
  | .throws =>
    match s.stack with
    | .consumer :: rest => some { s with stack := rest.dropWhile (· ≠ .consumer) }
    | _ => none

end PublishedCapture

def capturePublication (measure : ShellOutputUpdate → Nat) (limits : Option ShellOutputLimits) :
    Machine PublishedCapture CaptureEvent where
  start s := ∃ capture, OutputCapture.create limits = .ok capture ∧ s = .new capture
  step := PublishedCapture.step measure

end Trpi.Harness
