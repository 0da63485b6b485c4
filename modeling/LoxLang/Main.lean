import LoxLang.CommandLine
import Std.Time.DateTime.Timestamp

/-!
# The program

The outer layer: arguments, files, the standard streams and the clock. All
decisions are made by `Request`, `Command` and `Prompt`.
-/

set_option autoImplicit false

namespace LoxLang

/-- A clock that shows the present time in seconds, to the millisecond. -/
def presentClock : IO (Nat → Float) := do
  let now ← Std.Time.Timestamp.now
  let seconds := Float.ofInt now.toMillisecondsSinceUnixEpoch.val / 1000
  return fun _ => seconds

/-- Writes bytes to a stream. -/
def writeBytes (stream : IO.FS.Stream) (bytes : ByteArray) : IO Unit := do
  stream.write bytes
  stream.flush

/-- Writes an outcome and gives its exit code. -/
def finish (outcome : Option Outcome) : IO UInt32 := do
  match outcome with
  | none => return 1
  | some outcome =>
    writeBytes (← IO.getStdout) outcome.output
    writeBytes (← IO.getStderr) outcome.errors
    return UInt32.ofNat outcome.exitCode

/-- The bytes of a file, or nothing if it cannot be read. -/
def readFile? (name : String) : IO (Option (List UInt8)) := do
  try
    let bytes ← IO.FS.readBinFile name
    return some bytes.toList
  catch _ => return none

/-- Reads bytes up to and including a line end; the latest byte is first in
`before`. -/
partial def readLine (stream : IO.FS.Stream) (before : List UInt8) : IO (List UInt8) := do
  let bytes ← stream.read 1
  match bytes.toList with
  | [] => return before.reverse
  | byte :: _ =>
    if byte == 10 then return (byte :: before).reverse else readLine stream (byte :: before)

/-- Asks for a line, runs it and writes what it adds to the outputs, until the
input ends. -/
partial def promptLoop (session : Session) : IO UInt32 := do
  let output ← IO.getStdout
  let errors ← IO.getStderr
  writeBytes output Prompt.text.toUTF8
  let line ← readLine (← IO.getStdin) []
  if line.isEmpty then
    writeBytes output "\n".toUTF8
    return 0
  match Text.Utf8.decode line with
  | .error _ =>
    writeBytes errors Prompt.notText.toUTF8
    return 1
  | .ok source =>
    match Prompt.runLine ampleFuel (session.withClock (← presentClock)) source with
    | none => return 1
    | some next =>
      let added (earlier later : Sink) : ByteArray :=
        later.written.extract earlier.written.size later.written.size
      writeBytes output (added session.machine.output next.machine.output)
      writeBytes errors (added session.errors next.errors)
      promptLoop next

end LoxLang

open LoxLang

/-- The command line. -/
def main (arguments : List String) : IO UInt32 := do
  let clock ← presentClock
  match Request.ofArguments? arguments with
  | some (.onFile command name) =>
    finish (command.onFile ampleFuel clock name (← readFile? name))
  | some .prompt => promptLoop (Session.start Sink.unlimited Sink.unlimited clock)
  | none =>
    let usage :=
      "usage: [--log] [--log-file FILE] [tokenize [--json] | parse | evaluate | run] FILE | repl\n"
    writeBytes (← IO.getStderr) usage.toUTF8
    return 2
