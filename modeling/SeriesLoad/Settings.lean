import SeriesLoad.Query.Catalogue
import SeriesLoad.Run
import SeriesLoad.Time.SpanText

/-!
# Settings

A job is set up by texts and numbers that its user chose. The readers here check one of them each
and give it the type that the job needs; a `SettingError` is the first one that was refused.
-/

namespace SeriesLoad

/-- Why a setting is refused. -/
inductive SettingError where
  /-- Records are dealt to no group at all. -/
  | noGroups
  /-- There is no group with this number; groups are counted from zero. -/
  | groupOutOfRange (group groups : Nat)
  | format (name : String)
  | model (name : String)
  | instant (text : String) (cause : Rfc3339.ParseError)
  | interval (text : String)
  | queryType (name : String)
deriving DecidableEq, Repr

namespace SettingError

/-- The words for an error. -/
def message : SettingError → String
  | .noGroups => "incorrect interleaved groups configuration: total groups = 0"
  | .groupOutOfRange group groups =>
    "incorrect interleaved groups configuration: id " ++ Nat.repr group
      ++ " >= total groups " ++ Nat.repr groups
  | .format name => Format.unknownMessage name
  | .model name => "unknown use case: '" ++ name ++ "'"
  | .instant text cause => "invalid timestamp '" ++ text ++ "': " ++ cause.message
  | .interval text => "invalid duration: '" ++ text ++ "'"
  | .queryType name => QueryType.unknownMessage name

/-- The words for an error and for what caused it. -/
def chain : SettingError → String
  | .instant text cause => message (.instant text cause) ++ ": " ++ cause.message
  | e => e.message

end SettingError

namespace Settings

/-- The share of one of a number of groups. -/
def share (group groups : Nat) : Except SettingError Share :=
  if groups = 0 then .error .noGroups
  else if groups ≤ group then .error (.groupOutOfRange group groups)
  else .ok ⟨group, groups⟩

/-- The format of a name. -/
def format (name : String) : Except SettingError Format :=
  match Format.ofName? name with
  | some f => .ok f
  | none => .error (.format name)

/-- The host model of a name. -/
def model (name : String) : Except SettingError HostModel :=
  match HostModel.ofName? name with
  | some m => .ok m
  | none => .error (.model name)

/-- The instant of a text. -/
def instant (text : String) : Except SettingError Instant :=
  match Rfc3339.parse text with
  | .ok t => .ok t
  | .error cause => .error (.instant text cause)

/-- The sampling interval of a text. -/
def interval (text : String) : Except SettingError Span :=
  match Span.read? text with
  | some d => .ok d
  | none => .error (.interval text)

/-- The query type of a name. -/
def queryType (name : String) : Except SettingError QueryType :=
  match QueryType.ofName? name with
  | some t => .ok t
  | none => .error (.queryType name)

/-- The seed of a job: zero asks for one that the clock gives. -/
def seed (clock : UInt64) (n : Int64) : UInt64 := if n = 0 then clock else n.toUInt64

/-- Where the data of a job starts if nothing else is said. -/
def defaultStart : String := "2016-01-01T00:00:00Z"

/-- Where the data of a job stops if nothing else is said. -/
def defaultStop : String := "2016-01-02T06:00:00Z"

end Settings

end SeriesLoad
