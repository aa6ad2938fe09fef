import PulseDaq.Files.System
import PulseDaq.Report
import PulseDaq.Run.Declaration
import PulseDaq.Text.Utf8

/-!
# Run records

After a run its record is written next to the run file, under a name made of the name of the run
file and the time, and never over a file that is there.
-/

namespace PulseDaq

namespace Timestamp

/-- The day and time in a run's identity. -/
def runId (t : Timestamp) : String :=
  yearText t.date.year ++ padded 2 t.date.month ++ padded 2 t.date.day ++ "-"
    ++ padded 2 t.hour ++ padded 2 t.minute ++ padded 2 t.second

/-- The day and time in the name of a file. -/
def fileText (t : Timestamp) : String :=
  yearText t.date.year ++ "-" ++ padded 2 t.date.month ++ "-" ++ padded 2 t.date.day ++ "_"
    ++ padded 2 t.hour ++ "-" ++ padded 2 t.minute ++ "-" ++ padded 2 t.second

/-- The same with milliseconds. -/
def preciseFileText (t : Timestamp) : String :=
  t.fileText ++ "." ++ padded 3 (t.nanosecond / 1000000)

end Timestamp

namespace Run

/-- The record of a run: its declaration with the start, the length in milliseconds and the
digitizers with their totals. -/
def record (r : Run) (started : Timestamp) (milliseconds : UInt64)
    (digitizers : List DigitizerSettings) : Run :=
  { r with timestamp := some started, duration := some milliseconds, digitizers }

/-- Where a record made at the time `text` goes. What stands behind the last dot of that name is
its extension, and gives way to that of JSON. -/
def recordPath (runFile text : String) : String :=
  let stem := ((Path.fileName? runFile).map Path.stem).getD "run"
  Path.withFileName runFile (Path.withExtension (stem ++ "_" ++ text) "json")

/-- Write a record next to its run file. Answers where it has been written. -/
def writeRecord (runFile : String) (r : Run) (now : Timestamp) :
    EStateM Report FileSystem String := fun fs =>
  let bytes := Utf8.encode r.toJson.pretty
  let path := recordPath runFile now.fileText
  let precise := recordPath runFile now.preciseFileText
  match FileSystem.createNew path bytes fs with
  | .ok _ fs => .ok path fs
  | .error _ fs =>
    match FileSystem.createNew precise bytes fs with
    | .ok _ fs => .ok precise fs
    | .error e fs =>
      .error [.text "saving more than one run record per millisecond", .text e.message] fs

end Run

end PulseDaq
