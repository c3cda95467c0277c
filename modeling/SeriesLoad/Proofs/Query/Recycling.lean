import SeriesLoad.Proofs.Query.Engines

/-!
# Recycled query objects

An engine fills the query objects of its pool again and again, and the fillers only add. So nothing
of a query may be left in its object when the object is filled once more, even if queries in
between have failed. **An engine answers as if it built each query on a new object**
(`answers_as_fresh`): the pool cannot be told from outside.

Building a query leaves the pool alone (`build_pool`), and taking an object out of a clean pool
gives an empty one and leaves a clean pool, whatever then becomes of the object (`dispatch_pool`).
-/

namespace SeriesLoad.Engine

variable {γ q : Type} [Words γ] [Dialect q]

/-- The answer for a number of hosts, after answers for other numbers, if each query is built on a
new object. The pool is left alone. -/
def answerFresh (t : QueryType) :
    List Nat → Nat → Engine γ q → Except Fault (Except QueryError q)
  | [], n, e => (·.1) <$> e.build t n Dialect.empty
  | m :: before, n, e => do
    let (_, e) ← e.build t m Dialect.empty
    answerFresh t before n e

/-- What is built does not depend on the pool, and the pool stays as it is. -/
theorem build_pool (e : Engine γ q) (pool : QueryPool q) (t : QueryType) (n : Nat) (x : q) :
    ({ e with pool } : Engine γ q).build t n x =
      (e.build t n x).map fun built => (built.1, { built.2 with pool }) := by
  unfold build
  cases hdraw : t.draw e.interval n e.words with
  | error f => rfl
  | ok drawn =>
    obtain ⟨selection, words⟩ := drawn
    cases selection with
    | error err => rfl
    | ok s => rfl

variable [FaithfulDialect q]

/-- With a clean pool a query is built as on a new object, and the pool is clean behind it. -/
theorem dispatch_pool (e : Engine γ q) {pool : QueryPool q} (h : pool.Clean) (t : QueryType)
    (n : Nat) :
    ∃ next : Except QueryError q → QueryPool q, (∀ result, (next result).Clean)
      ∧ ({ e with pool } : Engine γ q).dispatch t n = (e.build t n Dialect.empty).map fun built =>
        (built.1, { built.2 with pool := next built.1 }) := by
  obtain ⟨hempty, hclean⟩ := h.acquire
  refine ⟨fun result => result.toOption.elim pool.acquire.2 pool.acquire.2.lend, ?_, ?_⟩
  · intro result
    cases result with
    | error err => exact hclean
    | ok x => exact hclean.lend x
  · have hbuild := build_pool e pool.acquire.2 t n pool.acquire.1
    rw [hempty] at hbuild
    unfold dispatch
    simp only [hempty, hbuild]
    cases e.build t n Dialect.empty with
    | error f => rfl
    | ok built =>
      obtain ⟨result, e'⟩ := built
      cases result with
      | error err => rfl
      | ok x => rfl

/-- The answers with a clean pool are those of queries built on new objects. -/
theorem answer_pool (e : Engine γ q) {pool : QueryPool q} (h : pool.Clean) (t : QueryType)
    (before : List Nat) (n : Nat) :
    ({ e with pool } : Engine γ q).answer t before n = e.answerFresh t before n := by
  induction before generalizing e pool with
  | nil =>
    obtain ⟨next, -, hdispatch⟩ := e.dispatch_pool h t n
    rw [answer, answerFresh, hdispatch]
    cases e.build t n Dialect.empty with
    | error f => rfl
    | ok built => rfl
  | cons m before ih =>
    obtain ⟨next, hnext, hdispatch⟩ := e.dispatch_pool h t m
    rw [answer, answerFresh, hdispatch]
    cases e.build t m Dialect.empty with
    | error f => rfl
    | ok built => exact ih built.2 (hnext built.1)

theorem answer_start (database : String) (all : Interval) (words : γ) (t : QueryType)
    (before : List Nat) (n : Nat) :
    (start database all words : Engine γ q).answer t before n =
      (start database all words).answerFresh t before n :=
  answer_pool (start database all words) QueryPool.clean_initial t before n

omit [Dialect q] [FaithfulDialect q]

/-- Each engine answers for each number of hosts, whatever numbers it was asked for before and
whichever of these failed, as if it built every query on a new object. So it fails with the same
error, or makes the same query, which holds nothing of those before it. -/
theorem answers_as_fresh (database : String) (all : Interval) (words : γ) (t : QueryType)
    (before : List Nat) (n : Nat) :
    (start database all words : Engine γ SeriesPlan).answer t before n =
        (start database all words).answerFresh t before n
      ∧ (start database all words : Engine γ LineRequest).answer t before n =
        (start database all words).answerFresh t before n
      ∧ (start database all words : Engine γ Pipeline).answer t before n =
        (start database all words).answerFresh t before n
      ∧ (start database all words : Engine γ SqlStatement).answer t before n =
        (start database all words).answerFresh t before n :=
  ⟨answer_start database all words t before n, answer_start database all words t before n,
    answer_start database all words t before n, answer_start database all words t before n⟩

end SeriesLoad.Engine
