import SeriesLoad.Encoding.LineProtocol
import SeriesLoad.Encoding.PointDocument
import SeriesLoad.Encoding.SeriesRow
import SeriesLoad.Encoding.TagRow
import SeriesLoad.Format
import SeriesLoad.Sink
import SeriesLoad.Text.Quoted

/-!
# Records

`Format.encode` makes the whole record of a point in a format, and `Format.write` puts it
out. A record is made before any of it is written, so a point that has no record leaves the output
as it was. A full sink is reported as a fault of the document by the document format, and as a
fault of the output by the others.

A record is one write here, where the program writes it in pieces, the separators apart from what
they separate. The pieces end at the first one that is not taken whole, so an output that keeps
track of what is written to it stands the same after them as after the one write
(`Output.Tracks.writeAll`).
-/

namespace SeriesLoad

/-- Why a record was not written. -/
inductive WriteError where
  /-- The sink is full. -/
  | sinkFull
  /-- The sink is full, found while a document was written. -/
  | documentSinkFull
  /-- A key of the document has a zero byte in it. -/
  | badKey (key : String)
deriving DecidableEq, Repr

/-- Whether the error is one of the document format. -/
def WriteError.isDocumentError : WriteError → Bool
  | .sinkFull => false
  | _ => true

/-- The words for an error. -/
def WriteError.message : WriteError → String
  | .sinkFull => "IO error: " ++ Sink.fullMessage
  | .documentSinkFull => "BSON encoding error: " ++ Sink.fullMessage
  | .badKey key =>
    "BSON encoding error: cstrings cannot contain null bytes: " ++ Text.Quoted.quote key

namespace Format

/-- The record of a point. -/
def encode (f : Format) (p : Point) : Except WriteError ByteArray :=
  match f with
  | .cassandra => .ok (SeriesRow.record p).toUTF8
  | .influx => .ok (LineProtocol.record p).toUTF8
  | .mongo =>
    match (PointDocument.ofPoint p).encode with
    | .ok bs => .ok ⟨bs.toArray⟩
    | .error key => .error (.badKey key)
  | .timescaledb => .ok (TagRow.record p).toUTF8

/-- How a full sink is reported. -/
def sinkError : Format → WriteError
  | .mongo => .documentSinkFull
  | _ => .sinkFull

/-- Writes the record of a point, and gives its size. -/
def write {ω : Type} [Output ω] (f : Format) (p : Point) (out : ω) :
    ω × Except WriteError Nat :=
  match f.encode p with
  | .error e => (out, .error e)
  | .ok record =>
    match Output.write out record with
    | (out, true) => (out, .ok record.size)
    | (out, false) => (out, .error f.sinkError)

end Format

end SeriesLoad
