/-!
# Text as a terminal shows it

A terminal takes some characters as controls and not as text. Most of them come in sequences, and
where a sequence ends depends on how it began. `visible` leaves out of a text what a terminal would
not show.

A `Reader` goes through the text character by character. Its mode says in which part of a sequence
it is. A line feed or another spacing control inside a sequence is shown all the same, and so is the
plain text right behind it; then the sequence goes on.
-/

namespace SeriesLoad.Text.Terminal

/-- Where in the text a reader is. -/
inductive Mode where
  /-- In plain text. -/
  | plain
  /-- Behind an escape. -/
  | escape
  /-- Behind an escape and marks that say what is to follow. -/
  | marked
  /-- In a control sequence. -/
  | control
  /-- At the start of a device string. -/
  | device
  /-- In the parameters of a device string. -/
  | parameters
  /-- In the marks behind the parameters of a device string. -/
  | deviceMarked
  /-- In a string that a terminator ends. -/
  | string
  /-- In a command to the system, which a bell ends. -/
  | command
deriving DecidableEq, Repr

/-- Whether a code point is one of those from `first` to `last`. -/
def within (first last : Nat) (c : Char) : Bool := first ≤ c.toNat && c.toNat ≤ last

/-- Whether a character is a control that spaces text. -/
def isSpacing (c : Char) : Bool := c = '\t' || c = '\n' || c = '\x0c' || c = '\r'

/-- Whether a character is the terminator of strings, or has its byte within. -/
def terminates (c : Char) : Bool := (String.utf8EncodeChar c).contains 0x9C

/-- The mode behind a character. -/
def Mode.next (m : Mode) (c : Char) : Mode :=
  if c = '\x1b' then .escape
  else if c = '\x18' || c = '\x1a' then .plain
  else match m with
    | .plain => .plain
    | .escape =>
      if c = '[' then .control
      else if c = ']' then .command
      else if c = 'P' then .device
      else if c = 'X' || c = '^' || c = '_' then .string
      else if within 0x20 0x2F c then .marked
      else if within 0x30 0x7E c then .plain
      else .escape
    | .marked => if within 0x30 0x7E c then .plain else .marked
    | .control => if within 0x40 0x7E c then .plain else .control
    | .device =>
      if within 0x20 0x2F c then .deviceMarked
      else if within 0x30 0x3F c then .parameters
      else if within 0x40 0x7E c then .string
      else .device
    | .parameters =>
      if within 0x20 0x2F c then .deviceMarked
      else if within 0x3C 0x7E c then .string
      else .parameters
    | .deviceMarked => if within 0x30 0x7E c then .string else .deviceMarked
    | .string => if terminates c then .plain else .string
    | .command => if c = '\x07' then .plain else .command

/-- Whether a character is shown in a mode. -/
def Mode.shows (m : Mode) (c : Char) : Bool :=
  match m with
  | .plain => isSpacing c || within 0x20 0x7E c || 0x80 ≤ c.toNat
  | .escape | .marked | .control => isSpacing c
  | _ => false

/-- A reader of text. -/
structure Reader where
  mode : Mode := .plain
  /-- Whether the last character was shown. -/
  isShowing : Bool := false

/-- The reader behind a character, and whether the character is shown. -/
def Reader.next (r : Reader) (c : Char) : Reader × Bool :=
  if r.isShowing && Mode.plain.shows c then
    -- a character beyond ASCII gives up the sequence that a spacing control came in
    ({ r with mode := if c.toNat < 0x80 then r.mode else .plain }, true)
  else
    let isShown := r.mode.shows c
    (⟨r.mode.next c, isShown⟩, isShown)

/-- The characters that are shown. -/
def Reader.shown (r : Reader) : List Char → List Char
  | [] => []
  | c :: cs =>
    let (r, isShown) := r.next c
    if isShown then c :: r.shown cs else r.shown cs

/-- What a terminal shows of a text. -/
def visible (s : String) : String := String.ofList (({} : Reader).shown s.toList)

end SeriesLoad.Text.Terminal
