import LoxLang.Diagnostic

/-!
# Sinks

A sink takes text as bytes, all of them or a limited number in total. A write
that does not fit keeps the bytes that do and fails.
-/

namespace LoxLang

set_option autoImplicit false

/-- What has been written, the bytes that still fit if there is a limit, and
whether flushing works. -/
structure Sink where
  written : ByteArray
  room : Option Nat
  flushes : Bool

namespace Sink

/-- An empty sink with a limit on its bytes, if one is given. -/
def withRoom (room : Option Nat) (flushes : Bool) : Sink := ⟨ByteArray.empty, room, flushes⟩

/-- An empty sink without a limit. -/
def unlimited : Sink := withRoom none true

/-- Whether all of a text fits. -/
def fits (sink : Sink) (text : String) : Bool :=
  match sink.room with
  | none => true
  | some room => text.utf8ByteSize ≤ room

/-- Writes a text, or as much of it as fits. -/
def write (sink : Sink) (text : String) : Sink :=
  let bytes := text.toUTF8
  match sink.room with
  | none => { sink with written := sink.written ++ bytes }
  | some room => { sink with
      written := sink.written ++ bytes.extract 0 room
      room := some (room - bytes.size) }

/-- A sink without a limit takes every text whole. -/
theorem write_of_unlimited {sink : Sink} (free : sink.room = none) (text : String) :
    sink.write text = { sink with written := sink.written ++ text.toUTF8 } := by
  simp only [write, free]

end Sink

end LoxLang
