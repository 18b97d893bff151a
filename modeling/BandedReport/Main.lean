import Std.Time.Zoned
import BandedReport.Command.Run

/-!
# The program

Reads the named files and the clock, and prints the answer to the arguments.
-/

open BandedReport BandedReport.Command

/-- The content of a file, if it can be read. -/
def contentOf (path : String) : IO FileContent := do
  try return some (← IO.FS.readBinFile path)
  catch _ => return none

/-- A time of day as the calendar of the library has it. -/
def dateTimeOf? (t : Std.Time.PlainDateTime) : Option DateTime :=
  DateTime.ofFields? t.year.toInt t.month.val.toNat t.day.val.toNat t.hour.val.toNat
    t.minute.val.toNat t.second.val.toNat t.nanosecond.val.toNat

/-- The date and time on the clock, if it can be read. -/
def wallClock : IO (Option DateTime) := do
  try return dateTimeOf? (← Std.Time.PlainDateTime.now)
  catch _ => return none

/-- Answer the arguments. -/
def main (args : List String) : IO UInt32 := do
  let contents ← (namedFiles args).mapM fun path => return (path, ← contentOf path)
  let files : Files := fun path => (contents.lookup path).join
  match ← wallClock with
  | none =>
    IO.eprintln "Error: the clock cannot be read"
    return 1
  | some now =>
    let answer := respond args files now
    IO.print answer.printed
    IO.eprint answer.reported
    return answer.code.toUInt32
