import SeriesLoad.Json.Basic
import SeriesLoad.Time.Rfc3339

/-!
# Memory profiles

A `Snapshot` says how much memory a process held at an instant. A `ProfileFile` takes one snapshot
and refuses any other, so that it is written at most once. `CreateError.inEmptyDirectory?` tells
which paths a profile file cannot be made at.
-/

namespace SeriesLoad.Profile

/-- The memory of a process at an instant; the sizes are in bytes. -/
structure Snapshot where
  process : Nat
  /-- What is in main memory. -/
  resident : Nat
  /-- What the process has addresses for. -/
  addressed : Nat
  /-- The main memory of the machine. -/
  total : Nat
  takenAt : Instant

namespace Snapshot

/-- An instant with its offset as a number; a profile does not write it as `Z`. -/
def instantText (t : Instant) : String :=
  String.ofList ((Rfc3339.chars t).dropLast ++ "+00:00".toList)

/-- What a snapshot says, by name. -/
def members (s : Snapshot) : List (String × Json) :=
  [("pid", .int s.process),
   ("rss_bytes", .int s.resident),
   ("virtual_memory_bytes", .int s.addressed),
   ("total_memory_bytes", .int s.total),
   ("captured_at", .str (instantText s.takenAt))]

/-- A member on a line of its own. -/
def memberText (m : String × Json) : String :=
  "  " ++ (Json.str m.1).render ++ ": " ++ m.2.render

/-- The text of a snapshot. -/
def text (s : Snapshot) : String :=
  "\x7b\n" ++ String.intercalate ",\n" (s.members.map memberText) ++ "\n\x7d\n"

end Snapshot

/-- A file for one snapshot. -/
structure ProfileFile where
  content : Option Snapshot := none

/-- Writes a snapshot unless there is one already, and tells whether it was written. -/
def ProfileFile.write (f : ProfileFile) (s : Snapshot) : ProfileFile × Bool :=
  match f.content with
  | none => ({ content := some s }, true)
  | some _ => (f, false)

/-- The text of a file. -/
def ProfileFile.text (f : ProfileFile) : String :=
  match f.content with
  | none => ""
  | some s => s.text

/-! ## Paths -/

/-- Why a file cannot be made. -/
inductive CreateError where
  /-- A directory on the way to the file does not exist. -/
  | missingDirectory
  /-- The path leads to a directory. -/
  | isDirectory
  | nameTooLong
  /-- The path has a zero byte in it. -/
  | zeroByte
deriving DecidableEq, Repr

namespace CreateError

/-- The words for an error. -/
def message : CreateError → String
  | .missingDirectory => "No such file or directory (os error 2)"
  | .isDirectory => "Is a directory (os error 21)"
  | .nameTooLong => "File name too long (os error 36)"
  | .zeroByte => "file name contained an unexpected NUL byte"

/-- The longest name of a file, in bytes. -/
def maxName : Nat := 255

/-- The longest path, in bytes. -/
def maxPath : Nat := 4095

/-- Whether a part of a path leads to the directory it is in. -/
def isHere (name : String) : Bool := name == "" || name == "."

/-- Whether a part of a path leads to a directory that there always is. -/
def isDots (name : String) : Bool := isHere name || name == ".."

/-- Why no file can be made at a path, seen from a directory that holds nothing. -/
def inEmptyDirectory? (path : String) : Option CreateError :=
  if path.toList.contains '\x00' then some .zeroByte
  else if maxPath < path.utf8ByteSize then some .nameTooLong
  else
    match (path.splitOn "/").dropWhile isDots with
    | [] => some .isDirectory
    | name :: rest =>
      let isLong := maxName < name.utf8ByteSize
      if rest.isEmpty then if isLong then some .nameTooLong else none
      else if rest.all (· == "") then some .isDirectory
      else some (if isLong then .nameTooLong else .missingDirectory)

end CreateError

end SeriesLoad.Profile
