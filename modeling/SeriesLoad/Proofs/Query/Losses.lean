import SeriesLoad.Proofs.Query.Ledger

/-!
# Query objects lost to failed dispatches

An engine takes a query object out of its pool before it fills it, and lends it out afterwards. If
the filling fails the object is not put back. **So every failed dispatch costs the pool one query
object** (`failed_dispatches_lose_objects`): the pool makes up for it at the next dispatch, and has
made one object more than it owns for each failure. It owns all that it ever made only while no
dispatch has failed.

A dispatch is an entry in the ledger of the pool: an object is acquired, and then changed and lent,
or dropped (`dispatch_ledger`). So the objects that were lost are those that the ledger has as
dropped.
-/

namespace SeriesLoad

namespace Engine

variable {γ q : Type} [Words γ] [Dialect q]

/-- The answers of an engine for some numbers of hosts, and the engine behind them. -/
def dispatchAll (t : QueryType) :
    List Nat → Engine γ q → Except Fault (List (Except QueryError q) × Engine γ q)
  | [], e => .ok ([], e)
  | n :: scales, e => do
    let (answer, e) ← e.dispatch t n
    let (answers, e) ← dispatchAll t scales e
    return (answer :: answers, e)

/-- How many of some answers are failures. -/
def failures (answers : List (Except QueryError q)) : Nat := answers.countP fun a => !a.isOk

omit [Dialect q] in
theorem failures_cons (answer : Except QueryError q) (answers : List (Except QueryError q)) :
    failures (answer :: answers) = failures [answer] + failures answers := by
  rw [failures, failures, failures, ← List.countP_append]
  rfl

variable {e e' : Engine γ q} {t : QueryType} {n : Nat} {answer : Except QueryError q}
  {answers : List (Except QueryError q)} {scales : List Nat}

/-- What a dispatch does to the pool. -/
theorem pool_dispatch (h : e.dispatch t n = .ok (answer, e')) :
    (∃ err, answer = .error err ∧ e'.pool = e.pool.acquire.2)
      ∨ ∃ x, answer = .ok x ∧ e'.pool = e.pool.acquire.2.lend x := by
  unfold dispatch build at h
  cases hdraw : t.draw e.interval n e.words with
  | error f => simp [hdraw, bind, Except.bind] at h
  | ok drawn =>
    obtain ⟨selection, words⟩ := drawn
    cases selection with
    | error err =>
      simp only [hdraw, bind, Except.bind, Except.ok.injEq, Prod.mk.injEq] at h
      obtain ⟨rfl, rfl⟩ := h
      exact .inl ⟨err, rfl, rfl⟩
    | ok s =>
      simp only [hdraw, bind, Except.bind, Except.ok.injEq, Prod.mk.injEq] at h
      obtain ⟨rfl, rfl⟩ := h
      exact .inr ⟨_, rfl, rfl⟩

/-- The first of several dispatches. -/
theorem dispatchAll_cons {m : Nat} (h : e.dispatchAll t (m :: scales) = .ok (answers, e')) :
    ∃ answer e₁ rest, e.dispatch t m = .ok (answer, e₁)
      ∧ e₁.dispatchAll t scales = .ok (rest, e') ∧ answers = answer :: rest := by
  obtain ⟨⟨answer, e₁⟩, hdispatch, h⟩ := Except.bind_eq_ok.mp h
  obtain ⟨⟨rest, e₂⟩, hrest, h⟩ := Except.bind_eq_ok.mp h
  cases h
  exact ⟨answer, e₁, rest, hdispatch, hrest, rfl⟩

/-! ## What the ledger says -/

open Ledger (History)

/-- A dispatch acquires a query object, and then changes and lends it, or drops it. -/
theorem dispatch_ledger {k dropped : Nat} {events : List (PoolEvent q)}
    (hbefore : History k events { pool := e.pool, dropped })
    (h : e.dispatch t n = .ok (answer, e')) :
    ∃ events', History k events' { pool := e'.pool, dropped := dropped + failures [answer] } := by
  have hacquired := hbefore.step (.acquire _)
  rcases pool_dispatch h with ⟨err, rfl, hpool⟩ | ⟨x, rfl, hpool⟩
  · rw [hpool]
    exact ⟨_, hacquired.step (.drop (List.Perm.refl [e.pool.acquire.1]))⟩
  · have hchanged := hacquired.step (.change (List.Perm.refl [e.pool.acquire.1]) x)
    rw [hpool]
    exact ⟨_, hchanged.step (.lend (List.Perm.refl [x]))⟩

theorem dispatchAll_ledger {k dropped : Nat} {events : List (PoolEvent q)}
    (hbefore : History k events { pool := e.pool, dropped })
    (h : e.dispatchAll t scales = .ok (answers, e')) :
    ∃ events', History k events' { pool := e'.pool, dropped := dropped + failures answers } := by
  induction scales generalizing e dropped events answers with
  | nil =>
    cases h
    exact ⟨events, hbefore⟩
  | cons m scales ih =>
    obtain ⟨answer, e₁, rest, hdispatch, hrest, rfl⟩ := dispatchAll_cons h
    obtain ⟨events₁, h₁⟩ := dispatch_ledger hbefore hdispatch
    obtain ⟨events₂, h₂⟩ := ih h₁ hrest
    refine ⟨events₂, ?_⟩
    rwa [Nat.add_assoc, ← failures_cons] at h₂

/-! ## What is left in the pool -/

/-- A pool of one query object owns it again behind a dispatch that made a query, and none behind
one that failed. -/
theorem owned_dispatch (hle : e.pool.owned ≤ 1) (h : e.dispatch t n = .ok (answer, e')) :
    e'.pool.owned = if answer.isOk then 1 else 0 := by
  have hacquire := e.pool.owned_acquire
  rcases pool_dispatch h with ⟨err, rfl, hpool⟩ | ⟨x, rfl, hpool⟩
  · rw [hpool, hacquire]
    exact Nat.sub_eq_zero_of_le hle
  · rw [hpool, QueryPool.owned_lend, hacquire, Nat.sub_eq_zero_of_le hle]
    rfl

theorem owned_dispatchAll (hle : e.pool.owned ≤ 1)
    (h : e.dispatchAll t scales = .ok (answers, e')) :
    e'.pool.owned = answers.getLast?.elim e.pool.owned fun a => if a.isOk then 1 else 0 := by
  induction scales generalizing e answers with
  | nil =>
    cases h
    rfl
  | cons m scales ih =>
    obtain ⟨answer, e₁, rest, hdispatch, hrest, rfl⟩ := dispatchAll_cons h
    have howned := owned_dispatch hle hdispatch
    have hle₁ : e₁.pool.owned ≤ 1 := by
      rw [howned]
      split_ifs <;> omega
    rw [ih hle₁ hrest, List.getLast?_cons, howned]
    cases rest.getLast? <;> rfl

/-- What is in the pool of an engine behind its answers, if it started with one query object: every
failure has cost one. -/
structure Drained (answers : List (Except QueryError q)) (pool : QueryPool q) : Prop where
  accounts : pool.allocated = pool.owned + failures answers
  /-- The pool is empty behind a failure. -/
  owned : pool.owned = if answers.getLast?.all Except.isOk then 1 else 0
  /-- The pool owns all query objects that it made, which is one, only while nothing has failed. -/
  whole : pool.owned = pool.allocated ∧ pool.allocated = 1 ↔ ∀ a ∈ answers, a.isOk = true

omit [Dialect q] in
theorem failures_eq_zero : failures answers = 0 ↔ ∀ a ∈ answers, a.isOk = true := by
  simp [failures]

variable [FaithfulDialect q]

theorem drained {database : String} {all : Interval} {words : γ}
    (h : (start database all words : Engine γ q).dispatchAll t scales = .ok (answers, e)) :
    Drained answers e.pool := by
  obtain ⟨events, hevents⟩ := dispatchAll_ledger
    (e := start database all words) (.start (n := 1)) h
  have haccounts : e.pool.allocated = e.pool.owned + failures answers := by
    have haccounts := hevents.balanced.accounts
    simpa using haccounts
  have howned : e.pool.owned = if answers.getLast?.all Except.isOk then 1 else 0 := by
    have hone : (start database all words : Engine γ q).pool.owned = 1 :=
      QueryPool.owned_filled 1
    rw [owned_dispatchAll (Nat.le_of_eq hone) h, hone]
    cases answers.getLast? <;> rfl
  refine ⟨haccounts, howned, ?_⟩
  rw [← failures_eq_zero]
  constructor
  · rintro ⟨hall, -⟩
    omega
  · intro hzero
    have hlast : answers.getLast?.all Except.isOk = true := by
      cases hlast : answers.getLast? with
      | none => rfl
      | some a => exact failures_eq_zero.mp hzero a (List.mem_of_getLast? hlast)
    rw [if_pos hlast] at howned
    omega

omit [Dialect q] [FaithfulDialect q]

/-- Each engine starts with a pool of one query object, and loses one with every dispatch that
fails, whatever it is asked for and for whatever numbers of hosts. The next dispatch makes a new one
for it. So the pool owns every query object that it made, and has made no more than the first, only
as long as no dispatch has failed. -/
theorem failed_dispatches_lose_objects (database : String) (all : Interval) (words : γ)
    (t : QueryType) (scales : List Nat) :
    (∀ answers (e : Engine γ SeriesPlan),
        (start database all words).dispatchAll t scales = .ok (answers, e) →
        Drained answers e.pool)
      ∧ (∀ answers (e : Engine γ LineRequest),
        (start database all words).dispatchAll t scales = .ok (answers, e) →
        Drained answers e.pool)
      ∧ (∀ answers (e : Engine γ Pipeline),
        (start database all words).dispatchAll t scales = .ok (answers, e) →
        Drained answers e.pool)
      ∧ ∀ answers (e : Engine γ SqlStatement),
        (start database all words).dispatchAll t scales = .ok (answers, e) →
        Drained answers e.pool :=
  ⟨fun _ _ h => drained h, fun _ _ h => drained h, fun _ _ h => drained h,
    fun _ _ h => drained h⟩

/-- An hour of data, which no window of twelve hours fits in. -/
def oneHour : Interval := ⟨.ofSecs 1451692800, .ofSecs 1451696400⟩

/-- The answer of an engine that is asked for twelve hours of it. -/
def windowRefused {q : Type} : Except QueryError q := .error (.interval (.windowTooLarge 43200 3600))

theorem failed_dispatches_lose_objects_one_hour :
    ∃ e : Engine ChaCha SqlStatement,
      (start "benchmark" oneHour (ChaCha.ofSeed 11)).dispatchAll (.highCpu 0) [1] =
        .ok ([windowRefused], e)
      ∧ Drained [(windowRefused : Except QueryError SqlStatement)] e.pool :=
  ⟨_, rfl, (failed_dispatches_lose_objects "benchmark" oneHour (ChaCha.ofSeed 11) (.highCpu 0)
    [1]).2.2.2 _ _ rfl⟩

/-- After two dispatches that failed the pool is empty, and two query objects were made. -/
theorem failed_dispatches_drain_pool :
    ∃ e : Engine ChaCha SqlStatement,
      (start "benchmark" oneHour (ChaCha.ofSeed 11)).dispatchAll (.highCpu 0) [1, 1] =
        .ok ([windowRefused, windowRefused], e)
      ∧ e.pool.owned = 0 ∧ e.pool.allocated = 2 :=
  ⟨_, rfl, rfl, rfl⟩

end Engine

end SeriesLoad
