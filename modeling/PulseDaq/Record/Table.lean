import PulseDaq.Record.Event

/-!
# Tables of events

Events as lines of tab-separated columns: channel, time and charge, then for extended events the
baseline, then for waveforms the trigger, the three intervals and the samples.

* `Event.columns`: the columns of an event.
* `Table.render`: the lines of a table, up to the first one that does not fit it.
-/

namespace PulseDaq

namespace Interval

/-- Both bounds joined by a dash; a dash alone if the marker was never seen. -/
def text (i : Interval) : String :=
  if i.isSet then s!"{i.start.toNat}-{i.stop.toNat}" else "-"

end Interval

namespace Event

/-- Columns that every event has. -/
def commonColumns (e : Event) : List String :=
  [toString e.channel.toNat, toString e.time.toNat, toString e.charge.toNat]

/-- The columns of an event. -/
def columns (e : Event) : List String :=
  e.commonColumns ++
    match e with
    | compact _ => []
    | extended x => [toString x.baseline.toNat]
    | waveform w =>
      [toString w.baseline.toNat, toString w.trigger.toNat, w.gate.text, w.holdoff.text,
        w.overthreshold.text, ",".intercalate (w.samples.map fun s => toString s.toNat)]

end Event

/-- Why a line does not fit its table. -/
inductive TableError where
  /-- The line has another number of columns than the first one. -/
  | columns (expected found : Nat)
  deriving DecidableEq, Repr

/-- The wording of a table error. -/
def TableError.message : TableError → String
  | .columns expected found =>
    s!"CSV error: found record with {found} fields, but the previous record has {expected} fields"

namespace Table

/-- A table being written: its text and, if every line has to have as many columns as the first,
that number, once it is known. -/
structure Writer where
  text : String := ""
  /-- Lines may differ in their number of columns. -/
  flexible : Bool := true
  width : Option Nat := none
  deriving Repr

/-- Write one line. The columns of a line that does not fit are written all the same, but not
ended. -/
def Writer.line (w : Writer) (columns : List String) : Except TableError Unit × Writer :=
  let text := w.text ++ "\t".intercalate columns
  let complete := { w with text := text ++ "\n", width := w.width <|> some columns.length }
  match w.width with
  | some width =>
    if w.flexible || width = columns.length then
      (.ok (), complete)
    else
      (.error (.columns width columns.length), { w with text := text })
  | none => (.ok (), complete)

/-- Write a line for each event, up to the first one that does not fit. -/
def Writer.events (w : Writer) : List Event → Except TableError Unit × Writer
  | [] => (.ok (), w)
  | e :: rest =>
    match w.line e.columns with
    | (.ok _, w) => w.events rest
    | (.error e, w) => (.error e, w)

/-- The table of `events`. -/
def render (flexible : Bool) (events : List Event) : Except TableError Unit × String :=
  let (result, w) := Writer.events { flexible := flexible } events
  (result, w.text)

end Table

end PulseDaq
