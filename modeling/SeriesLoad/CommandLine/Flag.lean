import SeriesLoad.Text.Integer

/-!
# Flags

A `Flag` is written `--name value` or `--name=value` and puts its value into a record of settings.
`Flags.read` takes the arguments from left to right.

A value that stands apart from its flag is stored when the next flag comes, or at the end. So of a
bad value and a word behind it that no flag accounts for, the word is reported.
-/

namespace SeriesLoad.CommandLine

/-- Why a value does not suit its flag. -/
inductive ValueError where
  | empty
  | integer (fault : Text.Integer.Fault)
  | outside (n : Int) (range : Text.Integer.Range)

/-- A flag for settings of a type. -/
structure Flag (σ : Type) where
  name : String
  /-- Whether a negative number is a value of this flag; otherwise it is taken for a flag. -/
  takesNegative : Bool := false
  /-- Stores a value. -/
  set : String → σ → Except ValueError σ

/-- Why arguments are not understood. -/
inductive UsageError where
  /-- No flag or command accounts for an argument. -/
  | unexpected (argument : String)
  | missingValue (flag : String)
  /-- A flag is given a value but takes none. -/
  | unneededValue (flag value : String)
  | repeated (flag : String)
  | badValue (flag value : String) (e : ValueError)
  | unknownCommand (name : String)
  | noCommand

/-! ## Words -/

/-- The form of an argument. -/
inductive Word where
  | plain
  /-- Two dashes and a name, perhaps with a value behind an equals sign. -/
  | long (name : String) (value : Option String)
  /-- One dash and letters. -/
  | short (first : Char) (rest : List Char)
  /-- Two dashes alone: no flags follow. -/
  | stop
deriving DecidableEq, Repr

/-- The form of an argument. A dash alone is a plain word. -/
def Word.ofArgument (s : String) : Word :=
  match s.toList with
  | ['-', '-'] => .stop
  | '-' :: '-' :: cs =>
    match cs.dropWhile (· != '=') with
    | [] => .long (String.ofList cs) none
    | _ :: value => .long (String.ofList (cs.takeWhile (· != '='))) (some (String.ofList value))
  | '-' :: c :: cs => .short c cs
  | _ => .plain

/-- Whether letters behind a dash make a number: digits, of which the first may be followed by a
point and an exponent mark, each at most once and the mark not at the end. -/
def isNumber (isFirst hasPoint : Bool) : List Char → Bool
  | [] => true
  | c :: cs =>
    if c.isDigit then isNumber false hasPoint cs
    else if isFirst then false
    else if c = '.' then !hasPoint && isNumber false true cs
    else c = 'e' && !cs.isEmpty && cs.all Char.isDigit

/-! ## Kinds of flags -/

namespace Flag

variable {σ : Type}

/-- A flag for a text. -/
def text (name : String) (set : String → σ → σ) : Flag σ where
  name
  set value s := .ok (set value s)

/-- A flag for a path, which is not empty. -/
def path (name : String) (set : String → σ → σ) : Flag σ where
  name
  set value s := if value.isEmpty then .error .empty else .ok (set value s)

/-- A flag for a number that is read in one range and has to lie in another. -/
def number (name : String) (range bounds : Text.Integer.Range) (takesNegative : Bool)
    (set : Int → σ → σ) : Flag σ where
  name
  takesNegative
  set value s :=
    match Text.Integer.read range value.toList with
    | .error fault => .error (.integer fault)
    | .ok n =>
      if bounds.min ≤ n ∧ n ≤ bounds.max then .ok (set n s) else .error (.outside n bounds)

/-- A flag for a number of 64 bits. -/
def long (name : String) (set : Nat → σ → σ) : Flag σ :=
  number name Text.Integer.unsigned Text.Integer.unsigned false fun n => set n.toNat

/-- A flag for a number of 32 bits. -/
def short (name : String) (set : Nat → σ → σ) : Flag σ :=
  number name Text.Integer.signed ⟨0, 2 ^ 32 - 1⟩ false fun n => set n.toNat

/-- A flag for a number of 64 bits with a sign. -/
def signed (name : String) (set : Int64 → σ → σ) : Flag σ :=
  number name Text.Integer.signed Text.Integer.signed true fun n => set (Int64.ofInt n)

end Flag

/-! ## Reading -/

/-- How far arguments are read. -/
structure Reading (σ : Type) where
  settings : σ
  /-- The names of the flags that are stored. -/
  stored : List String := []
  /-- The last flag, if its value is not stored yet. -/
  pending : Option (Flag σ × Option String) := none

namespace Reading

variable {σ : Type}

/-- Stores the value of a flag. -/
def store (f : Flag σ) (value : String) (r : Reading σ) : Except UsageError (Reading σ) :=
  if r.stored.contains f.name then .error (.repeated f.name)
  else
    match f.set value r.settings with
    | .ok settings => .ok { r with settings, stored := f.name :: r.stored, pending := none }
    | .error .empty => .error (.missingValue f.name)
    | .error e => .error (.badValue f.name value e)

/-- Stores the value of the last flag, which has to have one by now. -/
def settle (r : Reading σ) : Except UsageError (Reading σ) :=
  match r.pending with
  | none => .ok r
  | some (f, none) => .error (.missingValue f.name)
  | some (f, some value) => r.store f value

/-- Whether letters behind a dash are the value that the last flag waits for. -/
def awaitsNegative (r : Reading σ) (letters : List Char) : Bool :=
  match r.pending with
  | some (f, none) => f.takesNegative && isNumber true false letters
  | _ => false

/-- Takes a word that is no flag. -/
def takeValue (value : String) (r : Reading σ) : Except UsageError (Reading σ) :=
  match r.pending with
  | some (f, none) => .ok { r with pending := some (f, some value) }
  | _ => .error (.unexpected value)

end Reading

/-- Reads arguments; nothing comes of them if they ask for help. -/
def Flags.read {σ : Type} (flags : List (Flag σ)) :
    List String → Reading σ → Except UsageError (Option σ)
  | [], r => return some (← r.settle).settings
  | arg :: rest, r =>
    match Word.ofArgument arg with
    | .stop =>
      match rest with
      | [] => return some (← r.settle).settings
      | extra :: _ => throw (.unexpected extra)
    | .long "help" none => do
      let _ ← r.settle
      return none
    | .long "help" (some value) => throw (.unneededValue "help" value)
    | .long name value =>
      match flags.find? fun f => f.name == name with
      | none => throw (.unexpected ("--" ++ name))
      | some f => do
        let r ← r.settle
        match value with
        | some value => read flags rest (← r.store f value)
        | none => read flags rest { r with pending := some (f, none) }
    | .short c cs =>
      if r.awaitsNegative (c :: cs) then do read flags rest (← r.takeValue arg)
      else if c = 'h' then do
        let _ ← r.settle
        return none
      else throw (.unexpected (String.ofList ['-', c]))
    | .plain => do read flags rest (← r.takeValue arg)

end SeriesLoad.CommandLine
