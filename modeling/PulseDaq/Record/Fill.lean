import PulseDaq.Record.Buffer
import PulseDaq.Readout.Decoder

/-!
# Filling a record buffer from a readout

Every event that the decoder yields is stored as a record of one kind, up to the first event that
the buffer refuses or to the decoder's error.
-/

namespace PulseDaq

/-- Why a readout did not fill a buffer. -/
inductive FillError where
  | decode (e : DecodeError)
  | buffer (e : BufferError)
  deriving DecidableEq, Repr

/-- The wording is that of the cause. -/
def FillError.message : FillError → String
  | .decode e => e.message
  | .buffer e => e.message

namespace RecordBuffer

/-- Store the events among `items` as records of `kind`, `stored` having been stored before. -/
def fillFrom (kind : RecordKind) (b : RecordBuffer) (stored : Nat) :
    List (Except DecodeError RawEvent) → Except FillError Nat × RecordBuffer
  | [] => (.ok stored, b)
  | .error e :: _ => (.error (.decode e), b)
  | .ok raw :: rest =>
    let bytes := (Event.ofRaw kind raw).encode
    match h : b.refusal? bytes.length with
    | none => fillFrom kind (b.store bytes h) (stored + 1) rest
    | some e => (.error (.buffer e), b)

/-- Store the events of a readout as records of `kind`. Answers how many were stored; what was
stored in front of an error stays. -/
def fill (b : RecordBuffer) (kind : RecordKind) (readout : Bytes) :
    Except FillError Nat × RecordBuffer :=
  b.fillFrom kind 0 (decode readout)

end RecordBuffer

end PulseDaq
