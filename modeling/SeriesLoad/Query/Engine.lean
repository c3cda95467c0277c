import SeriesLoad.Query.LineRequest
import SeriesLoad.Query.Pipeline
import SeriesLoad.Query.Pool
import SeriesLoad.Query.SeriesPlan
import SeriesLoad.Query.SqlStatement
import SeriesLoad.Random.ChaCha

/-!
# Query engines

An `Engine` makes queries of one dialect against a database, over the time that its data covers. It
has its own words to draw from and its own pool. `build` adds a query to a query object and leaves
the object alone if that fails; `dispatch` does so with an object of the pool and lends it out. An
object whose filling failed does not go back to the pool.
-/

namespace SeriesLoad

/-- What makes the queries of one dialect. -/
structure Engine (γ q : Type) where
  database : String
  /-- The time that the data covers. -/
  interval : Interval
  words : γ
  pool : QueryPool q

namespace Engine

variable {γ q : Type} [Words γ] [Dialect q]

/-- An engine that has made no query yet. -/
def start (database : String) (interval : Interval) (words : γ) : Engine γ q where
  database
  interval
  words
  pool := .initial

/-- Adds a query for a number of hosts to a query object. -/
def build (e : Engine γ q) (t : QueryType) (hosts : Nat) (x : q) :
    Except Fault (Except QueryError q × Engine γ q) := do
  let (selection, words) ← t.draw e.interval hosts e.words
  let e := { e with words }
  match selection with
  | .error err => .ok (.error err, e)
  | .ok s => .ok (.ok (Dialect.fill e.database t s x), e)

/-- Makes a query for a number of hosts with an object of the pool. -/
def dispatch (e : Engine γ q) (t : QueryType) (hosts : Nat) :
    Except Fault (Except QueryError q × Engine γ q) := do
  let (x, pool) := e.pool.acquire
  let (result, e) ← { e with pool }.build t hosts x
  match result with
  | .error err => .ok (.error err, e)
  | .ok x => .ok (.ok x, { e with pool := e.pool.lend x })

end Engine

end SeriesLoad
