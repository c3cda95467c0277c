import SeriesLoad.Query.Basic

/-!
# Pools of query objects

Query objects are used again and again: `acquire` takes an empty one out of the pool, it is filled,
and `lend` parks it as the live query, where it can be read until the next `acquire`, `lend` or
`release`. Then it is emptied and idle again.
-/

namespace SeriesLoad

/-- A store of query objects. -/
structure QueryPool (q : Type) where
  /-- Empty query objects. -/
  idle : List q
  /-- The query that was lent last. -/
  live : Option q
  /-- How many query objects were ever made. -/
  allocated : Nat

namespace QueryPool

variable {q : Type} [Dialect q]

/-- A pool with some idle query objects. -/
def filled (n : Nat) : QueryPool q where
  idle := List.replicate n Dialect.empty
  live := none
  allocated := n

/-- A pool with some idle query objects, if there is room for them. -/
def ofSize (n : Nat) : Except Fault (QueryPool q) := do
  requireRoom n
  return filled n

/-- The pool an engine starts with: one idle query object. -/
def initial : QueryPool q := filled 1

/-- Makes the live query idle. -/
def release (p : QueryPool q) : QueryPool q :=
  match p.live with
  | none => p
  | some x => { p with idle := Dialect.reset x :: p.idle, live := none }

/-- Takes an empty query object out, after a release; a new one if none is idle. -/
def acquire (p : QueryPool q) : q × QueryPool q :=
  let p := p.release
  match p.idle with
  | [] => (Dialect.empty, { p with allocated := p.allocated + 1 })
  | x :: rest => (x, { p with idle := rest })

/-- Makes a query the live one, after a release. -/
def lend (p : QueryPool q) (x : q) : QueryPool q := { p.release with live := some x }

end QueryPool

end SeriesLoad
