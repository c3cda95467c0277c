import SeriesLoad.Proofs.Query.Engines

/-!
# The accounts of a query pool

A pool makes query objects, but they are not always in it: between `acquire` and `lend` a caller
holds them, and may change or drop them. A `Ledger` is a pool with what its callers hold and have
dropped. **Every query object that was ever made is idle, live, held or dropped, and whoever gets
one gets an empty one** (`pool_keeps_accounts`), whatever is called in whatever order, by any number
of callers.

What one call does to the accounts of the pool is said once: `owned_release`, `owned_acquire` and
`owned_lend`. The invariant is `Ledger.Balanced`; it holds of a filled pool, and each event keeps it
(`Balanced.step`), so it holds after every history (`History.balanced`).
-/

namespace SeriesLoad

/-! ## What a call does to a pool -/

namespace QueryPool

variable {q : Type}

/-- How many query objects are in the pool, the live one counted. -/
def owned (p : QueryPool q) : Nat := p.idle.length + p.live.toList.length

theorem owned_eq_zero {p : QueryPool q} : p.owned = 0 ↔ p.idle = [] ∧ p.live = none := by
  simp [owned]

variable [Dialect q] (p : QueryPool q)

@[simp] theorem owned_filled (n : Nat) : (filled n : QueryPool q).owned = n := by
  simp [owned, filled]

theorem clean_filled (n : Nat) : (filled n : QueryPool q).Clean := by
  intro x hx
  exact List.eq_of_mem_replicate hx

@[simp] theorem live_release : p.release.live = none := by
  unfold release
  cases hlive : p.live with
  | none => simp [hlive]
  | some x => rfl

@[simp] theorem allocated_release : p.release.allocated = p.allocated := by
  unfold release
  cases p.live <;> rfl

/-- A release only moves the live query object. -/
@[simp] theorem owned_release : p.release.owned = p.owned := by
  unfold release owned
  cases hlive : p.live with
  | none => simp [hlive]
  | some x => simp

/-- What is taken out was idle after a release, or is made just now. -/
theorem acquire_cases :
    (p.owned = 0 ∧ p.acquire = (Dialect.empty, ⟨[], none, p.allocated + 1⟩))
      ∨ ∃ x rest, p.owned = rest.length + 1 ∧ p.acquire = (x, ⟨rest, none, p.allocated⟩) := by
  have howned := owned_release p
  have hlive := live_release p
  have hallocated := allocated_release p
  rw [owned, hlive] at howned
  unfold acquire
  generalize p.release = r at howned hlive hallocated
  obtain ⟨idle, live, allocated⟩ := r
  subst hlive hallocated
  cases idle with
  | nil => exact .inl ⟨howned.symm, rfl⟩
  | cons x rest => exact .inr ⟨x, rest, howned.symm, rfl⟩

@[simp] theorem live_acquire : p.acquire.2.live = none := by
  rcases p.acquire_cases with ⟨-, h⟩ | ⟨x, rest, -, h⟩ <;> rw [h]

/-- A query object is made exactly if there is none in the pool. -/
theorem allocated_acquire :
    p.acquire.2.allocated = p.allocated + if p.owned = 0 then 1 else 0 := by
  rcases p.acquire_cases with ⟨hzero, h⟩ | ⟨x, rest, howned, h⟩
  · rw [h, if_pos hzero]
  · rw [h, if_neg (by omega)]
    rfl

/-- What is taken out is in the pool no more, unless it was made just now. -/
theorem owned_acquire : p.acquire.2.owned = p.owned - 1 := by
  rcases p.acquire_cases with ⟨hzero, h⟩ | ⟨x, rest, howned, h⟩
  · rw [h, hzero]
    rfl
  · rw [h, howned]
    rfl

@[simp] theorem live_lend (x : q) : (p.lend x).live = some x := rfl

@[simp] theorem allocated_lend (x : q) : (p.lend x).allocated = p.allocated := allocated_release p

theorem owned_lend (x : q) : (p.lend x).owned = p.owned + 1 := by
  have howned := owned_release p
  rw [owned, live_release] at howned
  rw [← howned]
  rfl

end QueryPool

/-! ## Ledgers -/

/-- What is done with the query objects of a pool, by a caller or by the pool. -/
inductive PoolEvent (q : Type) where
  /-- A caller takes a query object out. -/
  | acquired (x : q)
  /-- A query object that a caller holds is made the live one. -/
  | lent (x : q)
  /-- The live query object is made idle. -/
  | released
  /-- A caller drops a query object. -/
  | dropped (x : q)
  /-- A caller turns a query object into another. -/
  | changed (x y : q)

/-- A pool and what became of the query objects that were taken out. -/
structure Ledger (q : Type) where
  pool : QueryPool q
  /-- What callers hold, in any order. -/
  held : List q := []
  /-- How many query objects callers have dropped. -/
  dropped : Nat := 0

variable {q : Type}

namespace PoolEvent

/-- The event does not involve the pool. -/
def IsOutside : PoolEvent q → Prop
  | .dropped _ => True
  | .changed _ _ => True
  | _ => False

/-- The event takes a query object out. -/
def IsAcquisition : PoolEvent q → Prop
  | .acquired _ => True
  | _ => False

/-- The query object was lent, as it is, and the pool was not involved in anything since. -/
def LentLast (events : List (PoolEvent q)) (x : q) : Prop :=
  ∃ before after, events = before ++ .lent x :: after ∧ ∀ e ∈ after, e.IsOutside

theorem not_lentLast_nil (x : q) : ¬LentLast [] x := by
  rintro ⟨before, after, h, -⟩
  simp at h

/-- One more event ends the loan, unless it does not involve the pool or is a new loan. -/
theorem lentLast_concat {events : List (PoolEvent q)} {e : PoolEvent q} {x : q} :
    LentLast (events ++ [e]) x ↔ e = .lent x ∨ e.IsOutside ∧ LentLast events x := by
  constructor
  · rintro ⟨before, after, h, houtside⟩
    rcases List.eq_nil_or_concat after with rfl | ⟨after, last, rfl⟩
    · obtain ⟨-, hlast⟩ := List.append_inj' h rfl
      exact .inl (List.cons.inj hlast).1
    · have h' : events ++ [e] = (before ++ .lent x :: after) ++ [last] := by simpa using h
      obtain ⟨hevents, hlast⟩ := List.append_inj' h' rfl
      obtain ⟨rfl, -⟩ := List.cons.inj hlast
      refine .inr ⟨houtside e (by simp), before, after, hevents, ?_⟩
      intro e' he'
      exact houtside e' (by simp [he'])
  · rintro (rfl | ⟨he, before, after, rfl, houtside⟩)
    · exact ⟨events, [], rfl, List.forall_mem_nil _⟩
    · refine ⟨before, after ++ [e], by simp, ?_⟩
      intro e' he'
      rcases List.mem_append.mp he' with he' | he'
      · exact houtside e' he'
      · rwa [List.mem_singleton.mp he']

end PoolEvent

namespace Ledger

variable [Dialect q]

/-- What an event does. Callers lend, drop and change only what they hold. -/
inductive Step : Ledger q → PoolEvent q → Ledger q → Prop
  | acquire (l : Ledger q) :
    Step l (.acquired l.pool.acquire.1)
      { l with pool := l.pool.acquire.2, held := l.pool.acquire.1 :: l.held }
  | lend {l : Ledger q} {x : q} {rest : List q} (hheld : l.held.Perm (x :: rest)) :
    Step l (.lent x) { l with pool := l.pool.lend x, held := rest }
  | release (l : Ledger q) : Step l .released { l with pool := l.pool.release }
  | drop {l : Ledger q} {x : q} {rest : List q} (hheld : l.held.Perm (x :: rest)) :
    Step l (.dropped x) { l with held := rest, dropped := l.dropped + 1 }
  | change {l : Ledger q} {x : q} {rest : List q} (hheld : l.held.Perm (x :: rest)) (y : q) :
    Step l (.changed x y) { l with held := y :: rest }

/-- The ledger after events in their order, with a pool that was filled with `n` query objects. -/
inductive History (n : Nat) : List (PoolEvent q) → Ledger q → Prop
  | start : History n [] { pool := .filled n }
  | step {events : List (PoolEvent q)} {l l' : Ledger q} {e : PoolEvent q}
    (hbefore : History n events l) (hstep : Step l e l') : History n (events ++ [e]) l'

/-- The accounts of a ledger after some events: all query objects are accounted for, what is idle
and what was taken out is empty, and the live query object is the one that was lent last. -/
structure Balanced (events : List (PoolEvent q)) (l : Ledger q) : Prop where
  accounts : l.pool.allocated = l.pool.owned + l.held.length + l.dropped
  idle : l.pool.Clean
  acquired : ∀ x, .acquired x ∈ events → x = Dialect.empty
  live : ∀ x, l.pool.live = some x ↔ PoolEvent.LentLast events x

theorem balanced_start (n : Nat) : ({ pool := .filled n } : Ledger q).Balanced [] where
  accounts := by simp [QueryPool.filled, QueryPool.owned]
  idle := QueryPool.clean_filled n
  acquired := by simp
  live := by
    intro x
    simp [QueryPool.filled, PoolEvent.not_lentLast_nil]

variable [FaithfulDialect q]

/-- Each event keeps the accounts. -/
theorem Balanced.step {events : List (PoolEvent q)} {l l' : Ledger q} {e : PoolEvent q}
    (h : l.Balanced events) (hstep : Step l e l') : l'.Balanced (events ++ [e]) := by
  have haccounts := h.accounts
  -- an event that takes nothing out adds nothing to what was taken out
  have hacquired : (∀ x, e ≠ .acquired x) → ∀ x, .acquired x ∈ events ++ [e] →
      x = Dialect.empty := by
    intro he x hx
    rcases List.mem_append.mp hx with hx | hx
    · exact h.acquired x hx
    · exact absurd (List.mem_singleton.mp hx).symm (he x)
  cases hstep with
  | acquire =>
    obtain ⟨hempty, hclean⟩ := h.idle.acquire
    refine ⟨?_, hclean, ?_, ?_⟩
    · have hmade := l.pool.allocated_acquire
      have howned := l.pool.owned_acquire
      show l.pool.acquire.2.allocated =
        l.pool.acquire.2.owned + (l.pool.acquire.1 :: l.held).length + l.dropped
      rw [List.length_cons]
      split_ifs at hmade <;> omega
    · intro x hx
      rcases List.mem_append.mp hx with hx | hx
      · exact h.acquired x hx
      · obtain ⟨rfl⟩ := List.mem_singleton.mp hx
        exact hempty
    · intro x
      simp [PoolEvent.lentLast_concat, PoolEvent.IsOutside]
  | @lend x rest hheld =>
    refine ⟨?_, h.idle.lend x, hacquired (by simp), ?_⟩
    · have hlength := hheld.length_eq
      have howned := l.pool.owned_lend x
      rw [List.length_cons] at hlength
      show (l.pool.lend x).allocated = (l.pool.lend x).owned + rest.length + l.dropped
      rw [QueryPool.allocated_lend]
      omega
    · intro y
      simp [PoolEvent.lentLast_concat, PoolEvent.IsOutside]
  | release =>
    refine ⟨?_, h.idle.release, hacquired (by simp), ?_⟩
    · show l.pool.release.allocated = l.pool.release.owned + l.held.length + l.dropped
      rw [QueryPool.allocated_release, QueryPool.owned_release]
      exact haccounts
    · intro x
      simp [PoolEvent.lentLast_concat, PoolEvent.IsOutside]
  | @drop x rest hheld =>
    refine ⟨?_, h.idle, hacquired (by simp), ?_⟩
    · have hlength := hheld.length_eq
      rw [List.length_cons] at hlength
      show l.pool.allocated = l.pool.owned + rest.length + (l.dropped + 1)
      omega
    · intro y
      rw [PoolEvent.lentLast_concat, h.live y]
      simp [PoolEvent.IsOutside]
  | @change x rest hheld y =>
    refine ⟨?_, h.idle, hacquired (by simp), ?_⟩
    · have hlength := hheld.length_eq
      rw [List.length_cons] at hlength
      show l.pool.allocated = l.pool.owned + (y :: rest).length + l.dropped
      rw [List.length_cons]
      omega
    · intro z
      rw [PoolEvent.lentLast_concat, h.live z]
      simp [PoolEvent.IsOutside]

theorem History.balanced {n : Nat} {events : List (PoolEvent q)} {l : Ledger q}
    (h : History n events l) : l.Balanced events := by
  induction h with
  | start => exact balanced_start n
  | step _ hstep ih => exact ih.step hstep

omit [FaithfulDialect q]

/-- The event takes a query object out of a pool that has none. -/
def RunsOut (l : Ledger q) (e : PoolEvent q) : Prop :=
  e.IsAcquisition ∧ l.pool.idle = [] ∧ l.pool.live = none

/-- A query object is made exactly if one is taken out of a pool that has none. -/
theorem Step.allocated {l l' : Ledger q} {e : PoolEvent q} (h : Step l e l') :
    (l.RunsOut e ∧ l'.pool.allocated = l.pool.allocated + 1)
      ∨ (¬l.RunsOut e ∧ l'.pool.allocated = l.pool.allocated) := by
  cases h with
  | acquire =>
    have hmade := l.pool.allocated_acquire
    by_cases hzero : l.pool.owned = 0
    · rw [if_pos hzero] at hmade
      exact .inl ⟨⟨trivial, QueryPool.owned_eq_zero.mp hzero⟩, hmade⟩
    · rw [if_neg hzero] at hmade
      exact .inr ⟨fun h => hzero (QueryPool.owned_eq_zero.mpr h.2), hmade⟩
  | @lend x => exact .inr ⟨And.left, l.pool.allocated_lend x⟩
  | release => exact .inr ⟨And.left, l.pool.allocated_release⟩
  | drop => exact .inr ⟨And.left, rfl⟩
  | change => exact .inr ⟨And.left, rfl⟩

/-- A ledger with `n` query objects, all of them idle. -/
structure AllIdle (n : Nat) (l : Ledger q) : Prop where
  allocated : l.pool.allocated = n
  idle : l.pool.idle.length = n
  live : l.pool.live = none
  held : l.held = []
  dropped : l.dropped = 0

theorem History.allIdle {n : Nat} {l : Ledger q} (h : History n [] l) : l.AllIdle n := by
  generalize hnil : ([] : List (PoolEvent q)) = events at h
  cases h with
  | start => exact ⟨rfl, List.length_replicate, rfl, rfl, rfl⟩
  | step _ _ => exact absurd hnil.symm (List.append_ne_nil_of_right_ne_nil _ (List.cons_ne_nil _ _))

/-- A pool that was filled with `n` query objects has made so many, and all of them are idle.
Whatever is done with them then, the ledger is balanced after it, and the next event makes a query
object exactly if it takes one out of a pool that has none. -/
def KeptFrom (q : Type) [Dialect q] (n : Nat) : Prop :=
  (∀ l : Ledger q, History n [] l → l.AllIdle n)
    ∧ ∀ (events : List (PoolEvent q)) (l : Ledger q), History n events l →
      l.Balanced events
        ∧ ∀ (e : PoolEvent q) (l' : Ledger q), Step l e l' →
          (l.RunsOut e ∧ l'.pool.allocated = l.pool.allocated + 1)
            ∨ (¬l.RunsOut e ∧ l'.pool.allocated = l.pool.allocated)

theorem keptFrom [FaithfulDialect q] (n : Nat) : KeptFrom q n := by
  refine ⟨fun _ h => h.allIdle, ?_⟩
  intro events l h
  refine ⟨h.balanced, ?_⟩
  intro e l' hstep
  exact hstep.allocated

end Ledger

open Ledger

/-- The pools of all engines keep their accounts, however many query objects they were filled with,
which are idle at first: after every sequence of events, the query objects that were made are those
that are idle, live, held or dropped; those that are idle, and those that were handed out when they
were, are empty; the live one is the one that was lent last, as it was lent, until the pool is called
again; and a new one is made only when one is taken out of a pool that has none. -/
theorem pool_keeps_accounts (n : Nat) :
    KeptFrom SeriesPlan n ∧ KeptFrom LineRequest n ∧ KeptFrom Pipeline n
      ∧ KeptFrom SqlStatement n :=
  ⟨keptFrom n, keptFrom n, keptFrom n, keptFrom n⟩

/-- Two query objects are held at once and both are lent, the first with something in it. -/
theorem pool_keeps_accounts_two_loans :
    let blank : SqlStatement := Dialect.empty
    let x : SqlStatement := { blank with text := "SELECT 1" }
    ∃ l : Ledger SqlStatement,
      History 1 [.acquired blank, .acquired blank, .changed blank x, .lent x, .lent blank] l
        ∧ l.Balanced [.acquired blank, .acquired blank, .changed blank x, .lent x, .lent blank]
        ∧ l.pool.allocated = 2 ∧ l.pool.idle = [blank] ∧ l.pool.live = some blank := by
  intro blank x
  have h₁ : History 1 [.acquired blank] _ := .step .start (.acquire _)
  have h₂ : History 1 ([.acquired blank] ++ [.acquired blank]) _ := .step h₁ (.acquire _)
  have h₃ : History 1 ([.acquired blank, .acquired blank] ++ [.changed blank x]) _ :=
    .step h₂ (.change (List.Perm.refl [blank, blank]) x)
  have h₄ : History 1 ([.acquired blank, .acquired blank, .changed blank x] ++ [.lent x]) _ :=
    .step h₃ (.lend (List.Perm.refl [x, blank]))
  have h₅ : History 1 ([.acquired blank, .acquired blank, .changed blank x, .lent x]
      ++ [.lent blank]) _ := .step h₄ (.lend (List.Perm.refl [blank]))
  exact ⟨_, h₅, ((pool_keeps_accounts 1).2.2.2.2 _ _ h₅).1, rfl, rfl, rfl⟩

end SeriesLoad
