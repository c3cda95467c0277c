import SeriesLoad.Proofs.Query.Losses
import SeriesLoad.Proofs.Query.Questions

/-!
# Builders that work in place

A builder is handed a query object and adds to it part by part, and its draws may fail. Whatever it
did to the object before that stays done, so a draw behind an addition would leave half a query.
**No builder does that: if it fails, the object is as it was, and of the engine only the words have
gone on** (`failed_builder_spares_query`). It fails only if its window or its hosts cannot be drawn.

There are two builders for each of the four dialects, each written here as the additions that it
makes, one after the other. The draws of all of them come first (`isBuild_of_draws`), and what is
added behind them is the query that `Dialect.fill` adds at once.
-/

namespace SeriesLoad

/-- What a builder works on: its engine, and the query object that it was handed. -/
structure BuildState (γ q : Type) where
  engine : Engine γ q
  object : q

/-- A part of a builder. If it fails, what was done before stays done. -/
def Builder (γ q α : Type) : Type :=
  BuildState γ q → Except Fault (Except QueryError α × BuildState γ q)

/-! ## Parts of builders -/

namespace Builder

variable {γ q α β : Type}

/-- Behind a part that fails nothing more is done, and nothing is taken back. -/
instance : Monad (Builder γ q) where
  pure a s := .ok (.ok a, s)
  bind b f s :=
    match b s with
    | .error fault => .error fault
    | .ok (.error e, s) => .ok (.error e, s)
    | .ok (.ok a, s) => f a s

/-- Adds to the query object. -/
def edit (f : q → q) : Builder γ q Unit := fun s => .ok (.ok (), { s with object := f s.object })

/-- The database of the engine. -/
def databaseName : Builder γ q String := fun s => .ok (.ok s.engine.database, s)

/-- A span of so many hours. -/
def spanOfHours (n : Int) : Builder γ q Span := fun s =>
  match Span.ofHours? n with
  | none => .error .spanRange
  | some length => .ok (.ok length, s)

variable [Words γ]

/-- Draws a window out of the time that the engine covers. -/
def drawWindow (length : Span) : Builder γ q Interval := fun s =>
  match s.engine.interval.randomWindow length s.engine.words with
  | .error fault => .error fault
  | .ok (.error e, words) => .ok (.error (.interval e), { s with engine.words := words })
  | .ok (.ok window, words) => .ok (.ok window, { s with engine.words := words })

/-- Draws hosts out of a population. -/
def drawHosts (available requested : Nat) : Builder γ q (List String) := fun s =>
  match QueryType.drawHosts available requested s.engine.words with
  | .error fault => .error fault
  | .ok (result, words) => .ok (result, { s with engine.words := words })

/-- Draws hosts, if the query is about some and not about all. -/
def drawHostsIfAny (available requested : Nat) : Builder γ q (List String) :=
  if requested = 0 then pure [] else drawHosts available requested

end Builder

/-- Adds the label of a query. -/
def Heading.addLabel (h : Heading) (engine : String) (t : QueryType) : Heading :=
  { h with label := h.label ++ engine ++ " " ++ t.label }

/-- Adds the description of a query with a window, which repeats the whole label. -/
def Heading.describe (h : Heading) (window : Interval) : Heading :=
  { h with description := h.description ++ h.label ++ ": " ++ window.startText }

theorem Heading.describe_addLabel (h : Heading) (engine : String) (t : QueryType)
    (window : Interval) : (h.addLabel engine t).describe window = h.add engine t window := rfl

/-! ## The builders -/

section Builders

open Builder

variable {γ : Type} [Words γ]

namespace SeriesPlan

/-- Draws hosts and puts them into the plan, if the query is about some and not about all. -/
def addHostsIfAny (available hosts : Nat) : Builder γ SeriesPlan Unit :=
  if hosts = 0 then pure () else do
    let names ← drawHosts available hosts
    edit fun p => { p with tagSets := p.tagSets ++ [hostTags names] }

/-- Builds a query for high readings. Its hosts are put into the plan as soon as they are drawn. -/
def buildHighCpu (available hosts : Nat) : Builder γ SeriesPlan Unit := do
  let length ← spanOfHours QueryType.highCpuHours
  let window ← drawWindow length
  addHostsIfAny available hosts
  edit fun p => { p with heading := p.heading.addLabel "Cassandra" (.highCpu hosts) }
  edit fun p => { p with heading := p.heading.describe window }
  let keyspace ← databaseName
  edit fun p => { p with keyspace := p.keyspace ++ keyspace }
  edit fun p => { p with measurement := p.measurement ++ Metric.Cpu.name }
  edit fun p => { p with fields := p.fields ++ ["usage_user"] }
  edit fun p => { p with aggregation := p.aggregation ++ "none" }
  edit fun p => { p with condition := p.condition ++ "usage_user > 90.0" }
  edit fun p => { p with startNanos := window.start.unixNanos }
  edit fun p => { p with stopNanos := window.stop.unixNanos }

/-- Builds a query by minute. -/
def buildMaxByMinute (available metrics hosts : Nat) (hours : Int) :
    Builder γ SeriesPlan Unit := do
  let length ← spanOfHours hours
  let window ← drawWindow length
  let names ← drawHosts available hosts
  let t : QueryType := .maxByMinute metrics hosts hours
  edit fun p => { p with heading := p.heading.addLabel "Cassandra" t }
  edit fun p => { p with heading := p.heading.describe window }
  let keyspace ← databaseName
  edit fun p => { p with keyspace := p.keyspace ++ keyspace }
  edit fun p => { p with measurement := p.measurement ++ Metric.Cpu.name }
  edit fun p => { p with fields := p.fields ++ QueryType.metricNames metrics }
  edit fun p => { p with aggregation := p.aggregation ++ "max" }
  edit fun p => { p with startNanos := window.start.unixNanos }
  edit fun p => { p with stopNanos := window.stop.unixNanos }
  edit fun p => { p with bucketNanos := QueryType.minuteNanos }
  edit fun p => { p with tagSets := p.tagSets ++ [hostTags names] }

end SeriesPlan

namespace LineRequest

/-- What both kinds of query share. -/
def fillRequest : Builder γ LineRequest Unit := do
  edit fun r => { r with method := r.method ++ "GET" }
  edit fun r => { r with path := r.path ++ "/query" }
  let name ← databaseName
  edit fun r => { r with database := r.database ++ name }

/-- Adds to the statement. -/
def push (text : String) : Builder γ LineRequest Unit :=
  edit fun r => { r with statement := r.statement ++ text }

/-- Adds the condition that selects hosts, if there are any. -/
def pushHostsIfAny (names : List String) : Builder γ LineRequest Unit :=
  if names.isEmpty then pure () else do
    push " and "
    push (hostCondition names)

/-- Builds a query for high readings. -/
def buildHighCpu (available hosts : Nat) : Builder γ LineRequest Unit := do
  let length ← spanOfHours QueryType.highCpuHours
  let window ← drawWindow length
  let names ← drawHostsIfAny available hosts
  edit fun r => { r with heading := r.heading.addLabel "Influx" (.highCpu hosts) }
  edit fun r => { r with heading := r.heading.describe window }
  fillRequest
  push "SELECT * from cpu where usage_user > 90.0"
  pushHostsIfAny names
  push (" and " ++ timeCondition window)

/-- Builds a query by minute. -/
def buildMaxByMinute (available metrics hosts : Nat) (hours : Int) :
    Builder γ LineRequest Unit := do
  let length ← spanOfHours hours
  let window ← drawWindow length
  let names ← drawHosts available hosts
  let t : QueryType := .maxByMinute metrics hosts hours
  edit fun r => { r with heading := r.heading.addLabel "Influx" t }
  edit fun r => { r with heading := r.heading.describe window }
  fillRequest
  push "SELECT "
  push (String.intercalate "," ((QueryType.metricNames metrics).map fun m => "max(" ++ m ++ ")"))
  push " from cpu where "
  push (hostCondition names)
  push (" and " ++ timeCondition window ++ " group by time(1m)")

end LineRequest

namespace Pipeline

/-- Adds the condition that selects hosts to others, if the query is about some and not about
all. -/
def conditionsBehind (always : List (String × Json)) (available hosts : Nat) :
    Builder γ Pipeline (List (String × Json)) :=
  if hosts = 0 then pure always else do
    let names ← drawHosts available hosts
    pure (always ++ [hostCondition names])

/-- Builds a query for high readings. The conditions are put together before anything is added. -/
def buildHighCpu (available hosts : Nat) : Builder γ Pipeline Unit := do
  let length ← spanOfHours QueryType.highCpuHours
  let window ← drawWindow length
  let conditions ← conditionsBehind (windowConditions window
    ++ [("fields.usage_user", .obj [("$gt", .float QueryType.threshold)])]) available hosts
  edit fun p => { p with heading := p.heading.addLabel "Mongo" (.highCpu hosts) }
  edit fun p => { p with heading := p.heading.describe window }
  let name ← databaseName
  edit fun p => { p with database := p.database ++ name }
  edit fun p => { p with collection := p.collection ++ pointCollection }
  edit fun p => { p with stages := p.stages ++ [.obj [("$match", .obj conditions)]] }

/-- Builds a query by minute. -/
def buildMaxByMinute (available metrics hosts : Nat) (hours : Int) :
    Builder γ Pipeline Unit := do
  let length ← spanOfHours hours
  let window ← drawWindow length
  let names ← drawHosts available hosts
  let conditions := windowConditions window ++ [hostCondition names]
  let group := ("_id", minuteStart) :: (QueryType.metricNames metrics).map greatest
  let t : QueryType := .maxByMinute metrics hosts hours
  edit fun p => { p with heading := p.heading.addLabel "Mongo" t }
  edit fun p => { p with heading := p.heading.describe window }
  let name ← databaseName
  edit fun p => { p with database := p.database ++ name }
  edit fun p => { p with collection := p.collection ++ pointCollection }
  edit fun p =>
    { p with stages := p.stages ++ [
        .obj [("$match", .obj conditions)],
        .obj [("$group", .obj group)],
        .obj [("$sort", .obj [("_id", .int 1)])]] }

end Pipeline

namespace SqlStatement

/-- Adds to the text. -/
def push (text : String) : Builder γ SqlStatement Unit :=
  edit fun q => { q with text := q.text ++ text }

/-- Adds the condition that selects hosts, if there are any. -/
def pushHostsIfAny (names : List String) : Builder γ SqlStatement Unit :=
  if names.isEmpty then pure () else do
    push " AND "
    push (hostCondition names)

/-- Builds a query for high readings. -/
def buildHighCpu (available hosts : Nat) : Builder γ SqlStatement Unit := do
  let length ← spanOfHours QueryType.highCpuHours
  let window ← drawWindow length
  let names ← drawHostsIfAny available hosts
  edit fun q => { q with heading := q.heading.addLabel "TimescaleDB" (.highCpu hosts) }
  edit fun q => { q with heading := q.heading.describe window }
  let name ← databaseName
  edit fun q => { q with database := q.database ++ name }
  edit fun q => { q with table := q.table ++ Metric.Cpu.name }
  push ("SELECT * FROM cpu WHERE usage_user > 90.0 AND " ++ timeCondition window)
  pushHostsIfAny names

/-- Builds a query by minute. -/
def buildMaxByMinute (available metrics hosts : Nat) (hours : Int) :
    Builder γ SqlStatement Unit := do
  let length ← spanOfHours hours
  let window ← drawWindow length
  let names ← drawHosts available hosts
  let t : QueryType := .maxByMinute metrics hosts hours
  edit fun q => { q with heading := q.heading.addLabel "TimescaleDB" t }
  edit fun q => { q with heading := q.heading.describe window }
  let name ← databaseName
  edit fun q => { q with database := q.database ++ name }
  edit fun q => { q with table := q.table ++ Metric.Cpu.name }
  push "SELECT time_bucket('1 minute', time) AS minute"
  push (String.join ((QueryType.metricNames metrics).map greatest))
  push " FROM cpu WHERE "
  push (hostCondition names)
  push (" AND " ++ timeCondition window ++ " GROUP BY minute ORDER BY minute ASC")

end SqlStatement

end Builders

/-! ## Draws come first -/

/-- What is left to a builder's caller of what was built: the query object if it is filled, and the
object that was handed in if not. -/
def BuildState.ofBuilt {γ q : Type} (x : q) :
    Except QueryError q × Engine γ q → Except QueryError Unit × BuildState γ q
  | (.error e, engine) => (.error e, ⟨engine, x⟩)
  | (.ok y, engine) => (.ok (), ⟨engine, y⟩)

namespace Builder

variable {γ q α β δ : Type}

theorem bind_apply (b : Builder γ q α) (next : α → Builder γ q β) (s : BuildState γ q) :
    (b >>= next) s =
      match b s with
      | .error fault => .error fault
      | .ok (.error e, s) => .ok (.error e, s)
      | .ok (.ok a, s) => next a s := rfl

@[simp] theorem edit_bind (f : q → q) (next : Unit → Builder γ q β) (s : BuildState γ q) :
    (edit f >>= next) s = next () { s with object := f s.object } := rfl

@[simp] theorem edit_apply (f : q → q) (s : BuildState γ q) :
    edit f s = .ok (.ok (), { s with object := f s.object }) := rfl

@[simp] theorem databaseName_bind (next : String → Builder γ q β) (s : BuildState γ q) :
    (databaseName >>= next) s = next s.engine.database s := rfl

theorem bind_assoc (b : Builder γ q α) (f : α → Builder γ q β) (g : β → Builder γ q δ) :
    (b >>= f) >>= g = b >>= fun a => f a >>= g := by
  funext s
  simp only [bind_apply]
  rcases b s with fault | ⟨e | a, s'⟩ <;> rfl

@[simp] theorem pure_apply (a : α) (s : BuildState γ q) :
    (pure a : Builder γ q α) s = .ok (.ok a, s) := rfl

@[simp] theorem pure_bind (a : α) (next : α → Builder γ q β) (s : BuildState γ q) :
    ((pure a : Builder γ q α) >>= next) s = next a s := rfl

variable [Words γ] [Dialect q] {t : QueryType} {available : Nat}

/-- The builder does in place what building a query does. -/
def IsBuild (t : QueryType) (available : Nat) (b : Builder γ q Unit) : Prop :=
  ∀ s, b s = (s.engine.build t available s.object).map (BuildState.ofBuilt s.object)

/-- Draws the hosts of a query. -/
def drawOwnHosts (t : QueryType) (available : Nat) : Builder γ q (List String) := fun s =>
  match t.drawOwnHosts available s.engine.words with
  | .error fault => .error fault
  | .ok (result, words) => .ok (result, { s with engine.words := words })

theorem isBuild_of_draws {add : Interval → List String → Builder γ q Unit}
    (hadd : ∀ window names s, add window names s =
      .ok (.ok (), ⟨s.engine, Dialect.fill s.engine.database t ⟨window, names⟩ s.object⟩)) :
    IsBuild t available (do
      let length ← spanOfHours t.hours
      let window ← drawWindow length
      let names ← drawOwnHosts t available
      add window names) := by
  intro s
  simp only [bind_apply, spanOfHours, Engine.build, QueryType.draw]
  cases Span.ofHours? t.hours with
  | none => rfl
  | some length =>
    simp only [drawWindow]
    cases s.engine.interval.randomWindow length s.engine.words with
    | error fault => rfl
    | ok drawn =>
      obtain ⟨e | window, words⟩ := drawn
      · rfl
      · simp only [drawOwnHosts, bind, Except.bind]
        cases t.drawOwnHosts available words with
        | error fault => rfl
        | ok drawn =>
          obtain ⟨e | names, words'⟩ := drawn
          · rfl
          · exact hadd window names ⟨{ s.engine with words := words' }, s.object⟩

omit [Dialect q] in
theorem drawOwnHosts_highCpu (available hosts : Nat) :
    (drawOwnHosts (.highCpu hosts) available : Builder γ q (List String)) =
      drawHostsIfAny available hosts := by
  cases hosts with
  | zero => rfl
  | succ n => rfl

end Builder

/-! ## What is built in place -/

section InPlace

open Builder

variable {γ : Type} [Words γ] (available metrics hosts : Nat) (hours : Int)

namespace SeriesPlan

/-- Nothing comes between drawing the hosts and putting them into the plan. -/
theorem addHostsIfAny_bind (next : Unit → Builder γ SeriesPlan Unit) :
    addHostsIfAny available hosts >>= next =
      drawHostsIfAny available hosts >>= fun names =>
        (if hosts = 0 then pure ()
          else edit fun p => { p with tagSets := p.tagSets ++ [hostTags names] }) >>= next := by
  unfold addHostsIfAny drawHostsIfAny
  by_cases hzero : hosts = 0
  · simp only [if_pos hzero]
    rfl
  · simp only [if_neg hzero]
    exact bind_assoc _ _ _

theorem isBuild_highCpu :
    IsBuild (.highCpu hosts) available (buildHighCpu available hosts : Builder γ _ _) := by
  unfold buildHighCpu
  simp only [addHostsIfAny_bind, ← drawOwnHosts_highCpu]
  apply isBuild_of_draws
  intro window names s
  by_cases hzero : hosts = 0 <;>
    simp [hzero, Heading.describe_addLabel, Dialect.fill, fill, addCommon]

theorem isBuild_maxByMinute :
    IsBuild (.maxByMinute metrics hosts hours) available
      (buildMaxByMinute available metrics hosts hours : Builder γ _ _) := by
  apply isBuild_of_draws
  intro window names s
  simp [Heading.describe_addLabel, Dialect.fill, fill, addCommon]

end SeriesPlan

namespace LineRequest

theorem statementFor_highCpu (s : Selection) :
    statementFor (.highCpu hosts) s =
      "SELECT * from cpu where usage_user > 90.0"
        ++ (if s.hosts.isEmpty then "" else " and " ++ hostCondition s.hosts)
        ++ " and " ++ timeCondition s.window := rfl

theorem statementFor_maxByMinute (s : Selection) :
    statementFor (.maxByMinute metrics hosts hours) s =
      "SELECT "
        ++ String.intercalate "," ((QueryType.metricNames metrics).map fun m => "max(" ++ m ++ ")")
        ++ " from cpu where " ++ hostCondition s.hosts ++ " and " ++ timeCondition s.window
        ++ " group by time(1m)" := rfl

theorem isBuild_highCpu :
    IsBuild (.highCpu hosts) available (buildHighCpu available hosts : Builder γ _ _) := by
  unfold buildHighCpu
  rw [← drawOwnHosts_highCpu]
  apply isBuild_of_draws
  intro window names s
  by_cases hempty : names.isEmpty = true
  · simp only [fillRequest, push, pushHostsIfAny, if_pos hempty, bind_assoc, edit_bind, edit_apply,
      databaseName_bind, pure_bind, Heading.describe_addLabel, Dialect.fill, fill,
      statementFor_highCpu, String.append_assoc, String.empty_append]
  · simp only [fillRequest, push, pushHostsIfAny, if_neg hempty, bind_assoc, edit_bind, edit_apply,
      databaseName_bind, Heading.describe_addLabel, Dialect.fill, fill, statementFor_highCpu,
      String.append_assoc]

theorem isBuild_maxByMinute :
    IsBuild (.maxByMinute metrics hosts hours) available
      (buildMaxByMinute available metrics hosts hours : Builder γ _ _) := by
  apply isBuild_of_draws
  intro window names s
  simp only [fillRequest, push, bind_assoc, edit_bind, edit_apply, databaseName_bind,
    Heading.describe_addLabel, Dialect.fill, fill, statementFor_maxByMinute, String.append_assoc]

end LineRequest

namespace Pipeline

/-- The conditions of a query are those that it has anyway and that on its hosts. -/
theorem conditionsBehind_bind (always : List (String × Json))
    (next : List (String × Json) → Builder γ Pipeline Unit) :
    conditionsBehind always available hosts >>= next =
      drawHostsIfAny available hosts >>= fun names =>
        next (always ++ if hosts = 0 then [] else [hostCondition names]) := by
  unfold conditionsBehind drawHostsIfAny
  by_cases hzero : hosts = 0
  · simp only [if_pos hzero, List.append_nil]
    rfl
  · simp only [if_neg hzero]
    exact bind_assoc _ _ _

theorem isBuild_highCpu :
    IsBuild (.highCpu hosts) available (buildHighCpu available hosts : Builder γ _ _) := by
  unfold buildHighCpu
  simp only [conditionsBehind_bind, ← drawOwnHosts_highCpu]
  apply isBuild_of_draws
  intro window names s
  simp [Heading.describe_addLabel, Dialect.fill, fill, stagesFor, conditions]

theorem isBuild_maxByMinute :
    IsBuild (.maxByMinute metrics hosts hours) available
      (buildMaxByMinute available metrics hosts hours : Builder γ _ _) := by
  apply isBuild_of_draws
  intro window names s
  simp [Heading.describe_addLabel, Dialect.fill, fill, stagesFor, conditions]

end Pipeline

namespace SqlStatement

theorem textFor_highCpu (s : Selection) :
    textFor (.highCpu hosts) s =
      "SELECT * FROM cpu WHERE usage_user > 90.0 AND " ++ timeCondition s.window
        ++ (if s.hosts.isEmpty then "" else " AND " ++ hostCondition s.hosts) := rfl

theorem textFor_maxByMinute (s : Selection) :
    textFor (.maxByMinute metrics hosts hours) s =
      "SELECT time_bucket('1 minute', time) AS minute"
        ++ String.join ((QueryType.metricNames metrics).map greatest)
        ++ " FROM cpu WHERE " ++ hostCondition s.hosts ++ " AND " ++ timeCondition s.window
        ++ " GROUP BY minute ORDER BY minute ASC" := rfl

theorem isBuild_highCpu :
    IsBuild (.highCpu hosts) available (buildHighCpu available hosts : Builder γ _ _) := by
  unfold buildHighCpu
  rw [← drawOwnHosts_highCpu]
  apply isBuild_of_draws
  intro window names s
  by_cases hempty : names.isEmpty = true
  · simp only [push, pushHostsIfAny, if_pos hempty, edit_bind, pure_apply, databaseName_bind,
      Heading.describe_addLabel, Dialect.fill, fill, textFor_highCpu, String.append_empty]
  · simp only [push, pushHostsIfAny, if_neg hempty, edit_bind, edit_apply, databaseName_bind,
      Heading.describe_addLabel, Dialect.fill, fill, textFor_highCpu, String.append_assoc]

theorem isBuild_maxByMinute :
    IsBuild (.maxByMinute metrics hosts hours) available
      (buildMaxByMinute available metrics hosts hours : Builder γ _ _) := by
  apply isBuild_of_draws
  intro window names s
  simp only [push, edit_bind, edit_apply, databaseName_bind, Heading.describe_addLabel,
    Dialect.fill, fill, textFor_maxByMinute, String.append_assoc]

end SqlStatement

end InPlace

/-! ## Failures -/

/-- The window of a query can be drawn, and there are as many hosts as it draws, if it draws any. -/
def QueryType.Drawable {γ : Type} [Words γ] (t : QueryType) (all : Interval) (available : Nat)
    (words : γ) : Prop :=
  (∃ length window words', Span.ofHours? t.hours = some length
      ∧ all.randomWindow length words = .ok (.ok window, words'))
    ∧ (t.kind = .byMinute ∨ t.hostCount ≠ 0 → t.hostCount ≤ available)

section Failures

variable {γ q : Type} [Words γ] {t : QueryType} {available : Nat}

/-- A draw that has no fault picks something exactly if there is something to pick. -/
theorem QueryType.draw_drawable {all : Interval} {words words' : γ}
    {selection : Except QueryError Selection}
    (h : t.draw all available words = .ok (selection, words')) :
    (∃ s, selection = .ok s) ↔ t.Drawable all available words := by
  unfold draw at h
  unfold Drawable
  cases hlength : Span.ofHours? t.hours with
  | none =>
    rw [hlength] at h
    cases h
  | some length =>
    simp only [hlength, bind, Except.bind] at h
    rcases hwindow : all.randomWindow length words with fault | ⟨e | window, words₁⟩
    · rw [hwindow] at h
      cases h
    · rw [hwindow] at h
      cases h
      constructor
      · rintro ⟨s, hs⟩
        cases hs
      · rintro ⟨⟨length', window, words', hlength', hwindow'⟩, -⟩
        cases hlength'
        rw [hwindow] at hwindow'
        cases hwindow'
    · simp only [hwindow] at h
      rcases t.drawOwnHosts_cases available words₁ with
        ⟨fault, hhosts, -⟩ | ⟨hfew, e, words₂, hhosts⟩ | ⟨henough, hosts, words₂, hhosts, -⟩
      · rw [hhosts] at h
        cases h
      · rw [hhosts] at h
        cases h
        constructor
        · rintro ⟨s, hs⟩
          cases hs
        · intro hdrawable
          have hsome : t.hostCount ≠ 0 := Nat.ne_zero_of_lt hfew
          exact absurd (hdrawable.2 (.inr hsome)) (Nat.not_le_of_lt hfew)
      · rw [hhosts] at h
        cases h
        constructor
        · intro _
          exact ⟨⟨length, window, words₁, rfl, hwindow⟩, fun _ => henough⟩
        · intro _
          exact ⟨_, rfl⟩

/-- Building a query takes words from the engine and leaves the rest of it alone. -/
theorem Engine.build_drawable [Dialect q] {e e' : Engine γ q} {x : q}
    {result : Except QueryError q} (h : e.build t available x = .ok (result, e')) :
    e' = { e with words := e'.words }
      ∧ ((∃ y, result = .ok y) ↔ t.Drawable e.interval available e.words) := by
  unfold build at h
  cases hdraw : t.draw e.interval available e.words with
  | error fault =>
    rw [hdraw] at h
    cases h
  | ok drawn =>
    obtain ⟨selection, words⟩ := drawn
    have hdrawable := QueryType.draw_drawable hdraw
    simp only [hdraw, bind, Except.bind] at h
    cases selection with
    | error err =>
      cases h
      refine ⟨rfl, ?_⟩
      rw [← hdrawable]
      constructor <;> (rintro ⟨y, hy⟩; cases hy)
    | ok s =>
      cases h
      refine ⟨rfl, ?_⟩
      rw [← hdrawable]
      exact ⟨fun _ => ⟨s, rfl⟩, fun _ => ⟨_, rfl⟩⟩

/-- A builder leaves no query half done. It does in place what building the query does; if it fails,
the query object is as it was, and so is the engine but for its words; and if it has no fault, it
goes through exactly if its window and its hosts can be drawn. -/
structure Builder.IsCareful [Dialect q] (t : QueryType) (available : Nat) (b : Builder γ q Unit) :
    Prop where
  isBuild : b.IsBuild t available
  failed : ∀ s e s', b s = .ok (.error e, s') →
    s'.object = s.object ∧ s'.engine = { s.engine with words := s'.engine.words }
  succeeds : ∀ s result s', b s = .ok (result, s') →
    (result = .ok () ↔ t.Drawable s.engine.interval available s.engine.words)

theorem Builder.IsBuild.isCareful [Dialect q] {b : Builder γ q Unit} (h : b.IsBuild t available) :
    b.IsCareful t available := by
  have hbuilt : ∀ s result s', b s = .ok (result, s') →
      ∃ built e', s.engine.build t available s.object = .ok (built, e')
        ∧ BuildState.ofBuilt s.object (built, e') = (result, s') := by
    intro s result s' hs
    rw [h s] at hs
    cases hbuild : s.engine.build t available s.object with
    | error fault =>
      rw [hbuild] at hs
      cases hs
    | ok built =>
      rw [hbuild] at hs
      exact ⟨built.1, built.2, rfl, Except.ok.inj hs⟩
  refine ⟨h, ?_, ?_⟩
  · intro s e s' hs
    obtain ⟨built, e', hbuild, hsame⟩ := hbuilt s _ s' hs
    cases built with
    | error err =>
      cases hsame
      exact ⟨rfl, (Engine.build_drawable hbuild).1⟩
    | ok y => cases hsame
  · intro s result s' hs
    obtain ⟨built, e', hbuild, hsame⟩ := hbuilt s result s' hs
    rw [← (Engine.build_drawable hbuild).2]
    cases built with
    | error err =>
      cases hsame
      constructor
      · intro hok
        cases hok
      · rintro ⟨y, hy⟩
        cases hy
    | ok y =>
      cases hsame
      exact ⟨fun _ => ⟨y, rfl⟩, fun _ => rfl⟩

end Failures

/-- No builder leaves a query half done, whatever its engine is, how many hosts there are, what it
is asked for, which words it draws from and what its query object holds already. -/
theorem failed_builder_spares_query {γ : Type} [Words γ] (available : Nat) :
    (∀ hosts,
      (SeriesPlan.buildHighCpu available hosts : Builder γ _ _).IsCareful (.highCpu hosts) available
      ∧ (LineRequest.buildHighCpu available hosts : Builder γ _ _).IsCareful (.highCpu hosts)
        available
      ∧ (Pipeline.buildHighCpu available hosts : Builder γ _ _).IsCareful (.highCpu hosts) available
      ∧ (SqlStatement.buildHighCpu available hosts : Builder γ _ _).IsCareful (.highCpu hosts)
        available)
    ∧ ∀ metrics hosts hours,
      (SeriesPlan.buildMaxByMinute available metrics hosts hours : Builder γ _ _).IsCareful
          (.maxByMinute metrics hosts hours) available
        ∧ (LineRequest.buildMaxByMinute available metrics hosts hours : Builder γ _ _).IsCareful
          (.maxByMinute metrics hosts hours) available
        ∧ (Pipeline.buildMaxByMinute available metrics hosts hours : Builder γ _ _).IsCareful
          (.maxByMinute metrics hosts hours) available
        ∧ (SqlStatement.buildMaxByMinute available metrics hosts hours : Builder γ _ _).IsCareful
          (.maxByMinute metrics hosts hours) available := by
  constructor
  · intro hosts
    exact ⟨(SeriesPlan.isBuild_highCpu available hosts).isCareful,
      (LineRequest.isBuild_highCpu available hosts).isCareful,
      (Pipeline.isBuild_highCpu available hosts).isCareful,
      (SqlStatement.isBuild_highCpu available hosts).isCareful⟩
  · intro metrics hosts hours
    exact ⟨(SeriesPlan.isBuild_maxByMinute available metrics hosts hours).isCareful,
      (LineRequest.isBuild_maxByMinute available metrics hosts hours).isCareful,
      (Pipeline.isBuild_maxByMinute available metrics hosts hours).isCareful,
      (SqlStatement.isBuild_maxByMinute available metrics hosts hours).isCareful⟩

/-- Twelve hours do not fit into one, and what was in the plan is still there. -/
theorem failed_builder_spares_query_one_hour :
    ∃ s', SeriesPlan.buildHighCpu 8 2
        ⟨.start "benchmark" Engine.oneHour (ChaCha.ofSeed 11), { keyspace := "kept" }⟩ =
          .ok (.error (.interval (.windowTooLarge 43200 3600)), s')
      ∧ s'.object = { keyspace := "kept" } := by
  have hrefused : SeriesPlan.buildHighCpu 8 2
      ⟨.start "benchmark" Engine.oneHour (ChaCha.ofSeed 11), { keyspace := "kept" }⟩ =
        .ok (.error (.interval (.windowTooLarge 43200 3600)),
          ⟨.start "benchmark" Engine.oneHour (ChaCha.ofSeed 11), { keyspace := "kept" }⟩) := rfl
  exact ⟨_, hrefused, (((failed_builder_spares_query 8).1 2).1.failed _ _ _ hrefused).1⟩

end SeriesLoad
