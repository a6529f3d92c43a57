import Prepaid.CommandLine
import Std.Time.DateTime.Timestamp

/-!
# The program

Everything that comes from outside meets here: the arguments, the bytes of the
command file, the clock and the random bits of new identifiers. What they amount
to is decided by `Prepaid.CommandLine.run`; its output is printed and its exit
code handed back.
-/

namespace Prepaid.CommandLine

/-- The bytes of a file, if it can be read. -/
def readTable? (path : String) : IO (Option (List UInt8)) := do
  try
    return some (← IO.FS.readBinFile path).toList
  catch _ =>
    return none

/-- A new identifier. -/
def drawUuid : IO Uuid := do
  return .ofRandom (← IO.getRandomBytes 16).toList

/-- What the clock shows. -/
def readClock : IO Instant := do
  let nanos := (← Std.Time.Timestamp.now).toNanosecondsSinceUnixEpoch
  return (Instant.ofNanos? nanos.val).getD .epoch

/-- A stamp for a call. -/
def drawStamp : IO Stamp := do
  return {
    now := ← readClock
    wallet := ⟨← drawUuid⟩
    entry := ⟨← drawUuid⟩
    session := ← drawUuid
    secret := ← drawUuid
    payment := ← drawUuid }

/-- Answers a request, with a stamp for each row of the command file. -/
def answer : Request → IO Result
  | .help => return .help
  | .version => return .version "canteen-ledger"
  | .invalid => return .invalid
  | .run options => do
    let table ← match options.input with
      | some path => readTable? path
      | none => pure none
    let spare ← drawStamp
    let stamps ← (Command.ofTable (table.getD [])).toArray.mapM fun _ => drawStamp
    return run options table fun index => stamps.getD index spare

end Prepaid.CommandLine

/-- Runs the program. -/
def main (arguments : List String) : IO UInt32 := do
  let result ← Prepaid.CommandLine.answer (.ofArguments arguments)
  IO.print result.output
  return result.exitCode.toUInt32
