import StackMachine.Output.Sink

/-!
# Writers and outputs

A writer stands between a program and one sink.  Devices get a writer that collects
bytes in a block and passes full blocks on; its first failure is final.  An output is
one writer, or several that all receive the same text.
-/

namespace StackMachine

/-- The size of the block that a buffering writer fills. -/
def blockSize : Nat := 4096

/-- A block of bytes on its way to a sink. -/
structure BlockBuffer where
  sink : Nat
  pending : Bytes := []
  /-- The failure after which nothing is passed on any more. -/
  fault : Option WriteFault := none
  deriving DecidableEq, Repr

/-- What a write reports: the number of bytes taken, and a failure. -/
structure Written where
  count : Nat
  fault : Option WriteFault := none
  deriving DecidableEq, Repr

namespace BlockBuffer

/-- Passes a nonempty block on as a whole.  After a failure the bytes that were not taken stay. -/
def send (buffer : BlockBuffer) (block : Bytes) (sinks : Sinks) : BlockBuffer × Sinks :=
  let response := sinks.respond buffer.sink block.length
  let sinks := sinks.write buffer.sink block
  match response.fault with
  | some fault =>
      ({ buffer with pending := block.drop response.taken, fault := some fault }, sinks)
  | none =>
      if response.taken < block.length then
        ({ buffer with pending := block.drop response.taken, fault := some .shortWrite }, sinks)
      else ({ buffer with pending := [] }, sinks)

/-- Passes on what is pending. -/
def flush (buffer : BlockBuffer) (sinks : Sinks) : Option WriteFault × BlockBuffer × Sinks :=
  match buffer.fault with
  | some fault => (some fault, buffer, sinks)
  | none =>
      if buffer.pending.isEmpty then (none, buffer, sinks)
      else
        let (buffer, sinks) := buffer.send buffer.pending sinks
        (buffer.fault, buffer, sinks)

/-- The free part of the block. -/
def room (buffer : BlockBuffer) : Nat := blockSize - buffer.pending.length

/-- Takes a text block by block: what does not fit fills the block, which is then passed on.
`count` bytes have been taken already. -/
def writeText (count : Nat) (bytes : Bytes) (buffer : BlockBuffer) (sinks : Sinks) :
    Written × BlockBuffer × Sinks :=
  match buffer.fault with
  | some fault => (⟨count, some fault⟩, buffer, sinks)
  | none =>
      if bytes.length ≤ buffer.room then
        (⟨count + bytes.length, none⟩, { buffer with pending := buffer.pending ++ bytes }, sinks)
      else
        let filled := bytes.take buffer.room
        let (sent, sinks) := buffer.send (buffer.pending ++ filled) sinks
        match sent.fault with
        | some fault => (⟨count + filled.length, some fault⟩, sent, sinks)
        | none =>
            writeText (count + filled.length) (bytes.drop buffer.room)
              { sent with pending := [] } sinks
termination_by bytes.length + buffer.pending.length
decreasing_by
  simp only [List.length_drop, List.length_nil, room, blockSize]
  omega

/-- Takes bytes that do not go through the block if it is empty and too small for them: they are
passed on directly, again and again until the rest fits.  `count` bytes have been taken already. -/
def writeBytes (count : Nat) (bytes : Bytes) (buffer : BlockBuffer) (sinks : Sinks) :
    Written × BlockBuffer × Sinks :=
  match buffer.fault with
  | some fault => (⟨count, some fault⟩, buffer, sinks)
  | none =>
      if _fits : bytes.length ≤ buffer.room then
        (⟨count + bytes.length, none⟩, { buffer with pending := buffer.pending ++ bytes }, sinks)
      else if _direct : buffer.pending.isEmpty then
        let response := sinks.respond buffer.sink bytes.length
        let sinks := sinks.write buffer.sink bytes
        match _accepted : response.fault with
        | some fault =>
            (⟨count + response.taken, some fault⟩, { buffer with fault := some fault }, sinks)
        | none =>
            writeBytes (count + response.taken) (bytes.drop response.taken) buffer sinks
      else
        let filled := bytes.take buffer.room
        let (sent, sinks) := buffer.send (buffer.pending ++ filled) sinks
        match sent.fault with
        | some fault => (⟨count + filled.length, some fault⟩, sent, sinks)
        | none =>
            writeBytes (count + filled.length) (bytes.drop buffer.room)
              { sent with pending := [] } sinks
termination_by bytes.length + buffer.pending.length
decreasing_by
  · have taken := Sinks.length_le_taken_of_accepted _accepted
    have empty : buffer.pending = [] := by simpa using _direct
    simp only [room, blockSize, empty, List.length_nil] at _fits ⊢
    simp only [List.length_drop]
    omega
  · have filled : buffer.pending ≠ [] := by simpa using _direct
    have := List.length_pos_iff.mpr filled
    simp only [List.length_drop, List.length_nil, room, blockSize]
    omega

end BlockBuffer

/-- A writer to one sink. -/
inductive Writer where
  | discard
  /-- Writes through to memory; flushing does nothing. -/
  | direct (sink : Nat)
  /-- Writes through and lets the sink flush. -/
  | flushing (sink : Nat)
  | buffered (buffer : BlockBuffer)
  deriving DecidableEq, Repr

namespace Writer

/-- The writer that suits a sink. -/
def ofSink (sinks : Sinks) (sink : Nat) : Writer :=
  match (sinks[sink]?).map Sink.kind with
  | some .memory => .direct sink
  | some .flushing => .flushing sink
  | some .device => .buffered { sink }
  | some .discard => .discard
  | none => .discard

/-- Writes straight to a sink. -/
def writeThrough (sink : Nat) (bytes : Bytes) (sinks : Sinks) : Written × Sinks :=
  let response := sinks.respond sink bytes.length
  (⟨response.taken, response.fault⟩, sinks.write sink bytes)

/-- Writes a text to a writer that stands alone. -/
def writeText (writer : Writer) (bytes : Bytes) (sinks : Sinks) : Written × Writer × Sinks :=
  match writer with
  | .discard => (⟨bytes.length, none⟩, .discard, sinks)
  | .direct sink =>
      let (written, sinks) := writeThrough sink bytes sinks
      (written, .direct sink, sinks)
  | .flushing sink =>
      let (written, sinks) := writeThrough sink bytes sinks
      (written, .flushing sink, sinks)
  | .buffered buffer =>
      let (written, buffer, sinks) := buffer.writeText 0 bytes sinks
      (written, .buffered buffer, sinks)

/-- Writes bytes to a writer that is one of several. -/
def writeBytes (writer : Writer) (bytes : Bytes) (sinks : Sinks) : Written × Writer × Sinks :=
  match writer with
  | .buffered buffer =>
      let (written, buffer, sinks) := buffer.writeBytes 0 bytes sinks
      (written, .buffered buffer, sinks)
  | other => other.writeText bytes sinks

/-- Makes sure that the sink has everything. -/
def flush (writer : Writer) (sinks : Sinks) : Option WriteFault × Writer × Sinks :=
  match writer with
  | .discard => (none, .discard, sinks)
  | .direct sink => (none, .direct sink, sinks)
  | .flushing sink =>
      let (fault, sinks) := sinks.flush sink
      (fault, .flushing sink, sinks)
  | .buffered buffer =>
      let (fault, buffer, sinks) := buffer.flush sinks
      (fault, .buffered buffer, sinks)

end Writer

/-- Where a program's text goes: to one writer or to several. -/
inductive Route where
  | single (writer : Writer)
  | tee (writers : List Writer)
  deriving DecidableEq, Repr

namespace Route

/-- The writers of a route, in order. -/
def writers : Route → List Writer
  | .single writer => [writer]
  | .tee writers => writers

/-- Several routes as one; routes that are missing are left out. -/
def combine (routes : List (Option Route)) : Option Route :=
  match routes.flatMap fun route => (route.map writers).getD [] with
  | [] => none
  | [writer] => some (.single writer)
  | writers => some (.tee writers)

/-- Writes to all writers in turn, up to the first that fails or takes fewer bytes than given. -/
def writeAll (bytes : Bytes) : List Writer → Sinks → Written × List Writer × Sinks
  | [], sinks => (⟨bytes.length, none⟩, [], sinks)
  | writer :: rest, sinks =>
      let (written, writer, sinks) := writer.writeBytes bytes sinks
      match written.fault with
      | some fault => (⟨written.count, some fault⟩, writer :: rest, sinks)
      | none =>
          if written.count = bytes.length then
            let (written, rest, sinks) := writeAll bytes rest sinks
            (written, writer :: rest, sinks)
          else (⟨written.count, some .shortWrite⟩, writer :: rest, sinks)

/-- Flushes all writers; the first failure is reported. -/
def flushAll : List Writer → Sinks → Option WriteFault × List Writer × Sinks
  | [], sinks => (none, [], sinks)
  | writer :: rest, sinks =>
      let (fault, writer, sinks) := writer.flush sinks
      let (laterFault, rest, sinks) := flushAll rest sinks
      (fault.or laterFault, writer :: rest, sinks)

/-- Writes a text. -/
def write (route : Route) (bytes : Bytes) (sinks : Sinks) : Written × Route × Sinks :=
  match route with
  | .single writer =>
      let (written, writer, sinks) := writer.writeText bytes sinks
      (written, .single writer, sinks)
  | .tee writers =>
      let (written, writers, sinks) := writeAll bytes writers sinks
      (written, .tee writers, sinks)

/-- Flushes the route. -/
def flush (route : Route) (sinks : Sinks) : Option WriteFault × Route × Sinks :=
  match route with
  | .single writer =>
      let (fault, writer, sinks) := writer.flush sinks
      (fault, .single writer, sinks)
  | .tee writers =>
      let (fault, writers, sinks) := flushAll writers sinks
      (fault, .tee writers, sinks)

end Route

/-- A route together with the sinks it leads to. -/
structure Output where
  route : Route := .single .discard
  sinks : Sinks := #[]
  deriving DecidableEq, Repr

namespace Output

/-- Writes a text; the number of bytes taken is reported. -/
def write (output : Output) (text : String) : Written × Output :=
  let (written, route, sinks) := output.route.write (Utf8.encode text) output.sinks
  (written, ⟨route, sinks⟩)

/-- Flushes everything. -/
def flush (output : Output) : Option WriteFault × Output :=
  let (fault, route, sinks) := output.route.flush output.sinks
  (fault, ⟨route, sinks⟩)

/-- Leads the text to a sink instead, after a flush of the former route whose failure is ignored. -/
def redirect (output : Output) (sink : Nat) : Output :=
  let flushed := output.flush.2
  { flushed with route := .single (.ofSink flushed.sinks sink) }

/-- Leads the text to a sink as well. -/
def addTee (output : Output) (sink : Nat) : Output :=
  { output with
    route := (Route.combine [some output.route,
      some (.single (.ofSink output.sinks sink))]).getD output.route }

end Output

end StackMachine
