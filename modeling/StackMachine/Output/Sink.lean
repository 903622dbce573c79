import StackMachine.Text.Utf8

/-!
# Sinks

A sink is where output ends up.  An in-memory sink takes everything.  A device may
fail once it is full, take one byte less than it is given without saying so, or fail
to flush; what it has received and how often it was called stays visible.
-/

namespace StackMachine

/-- Why a write or a flush failed. -/
inductive WriteFault where
  /-- The sink reported a failure. -/
  | refused
  /-- The sink took fewer bytes than it was given and reported nothing. -/
  | shortWrite
  deriving DecidableEq, Repr

/-- The wording of a fault. -/
def WriteFault.message : WriteFault → String
  | .refused => "sink failed"
  | .shortWrite => "short write"

/-- How a sink is to be written to. -/
inductive SinkKind where
  /-- Takes everything at once; flushing is not needed. -/
  | memory
  /-- Drops everything. -/
  | discard
  /-- Best written in large blocks; cannot be flushed itself. -/
  | device
  /-- Takes writes as they come and is told when to flush. -/
  | flushing
  deriving DecidableEq, Repr

/-- A sink and what has happened to it. -/
structure Sink where
  kind : SinkKind := .memory
  /-- The number of bytes after which a device fails. -/
  capacity : Option Nat := none
  /-- A device leaves out the last byte of every write. -/
  short : Bool := false
  /-- Flushing a device fails. -/
  flushFails : Bool := false
  /-- The bytes received. -/
  received : Array UInt8 := #[]
  /-- The length of each write, in order. -/
  writes : Array Nat := #[]
  /-- The number of flushes. -/
  flushes : Nat := 0
  deriving DecidableEq, Repr

/-- What a sink answers to a write: how many bytes it takes, and a failure if it reports one. -/
structure Response where
  taken : Nat
  fault : Option WriteFault := none
  deriving DecidableEq, Repr

namespace Sink

/-- The answer to a write of `length` bytes.  A write over the capacity takes what fits. -/
def respond (sink : Sink) (length : Nat) : Response :=
  match sink.kind with
  | .memory | .discard => ⟨length, none⟩
  | .device | .flushing =>
      if sink.capacity.any (· < sink.received.size + length) then
        ⟨min length (sink.capacity.getD 0 - sink.received.size), some .refused⟩
      else if sink.short then ⟨length - 1, none⟩
      else ⟨length, none⟩

/-- The sink after a write of which it takes `taken` bytes. -/
def record (bytes : Bytes) (taken : Nat) (sink : Sink) : Sink :=
  match sink.kind with
  | .discard => sink
  | _ =>
      { sink with
        received := sink.received ++ bytes.take taken
        writes := sink.writes.push bytes.length }

/-- The sink after a flush. -/
def recordFlush (sink : Sink) : Sink := { sink with flushes := sink.flushes + 1 }

/-- A write that is not refused leaves out at most one byte. -/
theorem length_le_taken_of_accepted {sink : Sink} {length : Nat}
    (h : (sink.respond length).fault = none) : length ≤ (sink.respond length).taken + 1 := by
  unfold respond at h ⊢
  split
  · simp
  · simp
  all_goals
    split
    · simp_all
    · split <;> (dsimp only; omega)

end Sink

/-- The sinks of a machine, by number. -/
abbrev Sinks := Array Sink

namespace Sinks

/-- The answer of a sink to a write; a sink that does not exist takes everything. -/
def respond (sinks : Sinks) (sink length : Nat) : Response :=
  match sinks[sink]? with
  | some s => s.respond length
  | none => ⟨length, none⟩

/-- The sinks after a write to one of them. -/
def write (sinks : Sinks) (sink : Nat) (bytes : Bytes) : Sinks :=
  sinks.modify sink (Sink.record bytes (respond sinks sink bytes.length).taken)

/-- Flushes a sink that knows how to. -/
def flush (sinks : Sinks) (sink : Nat) : Option WriteFault × Sinks :=
  (if (sinks[sink]?).any (·.flushFails) then some .refused else none,
    sinks.modify sink Sink.recordFlush)

theorem length_le_taken_of_accepted {sinks : Sinks} {sink length : Nat}
    (h : (respond sinks sink length).fault = none) :
    length ≤ (respond sinks sink length).taken + 1 := by
  unfold respond at h ⊢
  split
  · next s found =>
      simp only [found] at h
      exact Sink.length_le_taken_of_accepted h
  · simp

end Sinks

end StackMachine
