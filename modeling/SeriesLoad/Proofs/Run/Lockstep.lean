import SeriesLoad.Proofs.Run.Course

/-!
# Runs in lockstep

Two runs whose sources make the same steps do the same, until the source of one of them is finished.
So **the output of the shorter run is a beginning of the output of the longer one** (`loop_prefix`):
up to there the outputs are equal, and then a run only adds to its output (`loop_extends`).

Nothing is asked of the points. One that has no record ends both runs, and so does a fault of the
sources.
-/

namespace SeriesLoad

/-! ## Outputs that grow -/

/-- The later sink holds all that the earlier one holds, and maybe more. -/
def Sink.Extends (later earlier : Sink) : Prop := ∃ more, later.received = earlier.received ++ more

namespace Sink.Extends

theorem refl (s : Sink) : s.Extends s := ⟨.empty, ByteArray.append_empty.symm⟩

theorem trans {a b c : Sink} (hab : a.Extends b) (hbc : b.Extends c) : a.Extends c := by
  obtain ⟨more, hmore⟩ := hab
  obtain ⟨more', hmore'⟩ := hbc
  exact ⟨more' ++ more, by rw [hmore, hmore', ByteArray.append_assoc]⟩

theorem write (s : Sink) (bs : ByteArray) : (s.write bs).1.Extends s := by
  unfold Sink.write
  simp only
  split_ifs
  · exact ⟨_, rfl⟩
  · exact ⟨_, rfl⟩

end Sink.Extends

theorem Format.write_extends (f : Format) (p : Point) (out : Sink) :
    (f.write p out).1.Extends out := by
  unfold Format.write
  cases f.encode p with
  | error e => exact .refl out
  | ok record =>
    have hwrite : (Output.write out record).1.Extends out := .write out record
    cases hout : Output.write out record with
    | mk out' isWhole =>
      rw [hout] at hwrite
      cases isWhole <;> simpa only [hout] using hwrite

namespace RunState

variable {σ : Type}

theorem writeTurn_extends (f : Format) (group : Nat) (st : RunState σ Sink) :
    (st.writeTurn f group).1.output.Extends st.output := by
  unfold writeTurn
  split_ifs
  · have hwrite := f.write_extends st.buffer st.output
    cases hout : f.write st.buffer st.output with
    | mk out' result =>
      rw [hout] at hwrite
      cases result <;> exact hwrite
  · exact .refl st.output

theorem output_passTurn {groups : Nat} {st st' : RunState σ Sink}
    (h : st.passTurn groups = .ok st') : st'.output = st.output := by
  unfold passTurn at h
  split_ifs at h
  cases h
  rfl

/-- The output that a step leaves, whether or not it ends the run. -/
def outputOf : Except (RunEnd σ Sink) (RunState σ Sink) → Sink
  | .error ended => ended.output
  | .ok st => st.output

theorem step_extends (src : Source σ) (f : Format) (share : Share) (st : RunState σ Sink) :
    (outputOf (st.step src f share)).Extends st.output := by
  cases hnext : src.next st.source st.buffer with
  | error e =>
    simp only [step, hnext]
    exact .refl st.output
  | ok made =>
    obtain ⟨s, isWritten, q⟩ := made
    cases isWritten with
    | false =>
      simp only [step, hnext]
      exact .refl st.output
    | true =>
      have hwrite := writeTurn_extends f share.group
        { st with source := s, buffer := q, stats.points := st.stats.points + 1 }
      cases hturn : writeTurn f share.group
          { st with source := s, buffer := q, stats.points := st.stats.points + 1 } with
      | mk st₁ result =>
        rw [hturn] at hwrite
        cases result with
        | error e =>
          simp only [step, hnext, hturn, if_true]
          exact hwrite
        | ok _ =>
          cases hpass : st₁.passTurn share.groups with
          | error e =>
            simp only [step, hnext, hturn, hpass, if_true]
            exact hwrite
          | ok st₂ =>
            simp only [step, hnext, hturn, hpass, if_true]
            show st₂.output.Extends st.output
            rw [output_passTurn hpass]
            exact hwrite

/-- A run only adds to its output. -/
theorem loop_extends (src : Source σ) (f : Format) (share : Share) (stop : RunStats → Bool)
    (steps : Nat) (st : RunState σ Sink) :
    (loop src f share stop steps st).output.Extends st.output := by
  induction steps generalizing st with
  | zero => exact .refl st.output
  | succ steps ih =>
    rw [loop]
    split_ifs with hdone hstop
    · exact .refl st.output
    · exact .refl st.output
    · have hstep := step_extends src f share st
      cases hmade : st.step src f share with
      | error ended =>
        rw [hmade] at hstep
        exact hstep
      | ok st' =>
        rw [hmade] at hstep
        exact (ih st').trans hstep

/-! ## Two runs -/

/-- The state of a run with another source. -/
def on (st : RunState σ Sink) (s : σ) : RunState σ Sink := { st with source := s }

theorem writeTurn_on (f : Format) (group : Nat) (st : RunState σ Sink) (t : σ) :
    (st.on t).writeTurn f group = ((st.writeTurn f group).1.on t, (st.writeTurn f group).2) := by
  by_cases hturn : st.turn = group
  · have hturn' : (st.on t).turn = group := hturn
    rw [writeTurn, writeTurn, if_pos hturn, if_pos hturn']
    cases hwrite : f.write st.buffer st.output with
    | mk out result =>
      have hwrite' : f.write (st.on t).buffer (st.on t).output = (out, result) := hwrite
      rw [hwrite']
      cases result <;> rfl
  · have hturn' : ¬ (st.on t).turn = group := hturn
    rw [writeTurn, writeTurn, if_neg hturn, if_neg hturn']

theorem passTurn_on (groups : Nat) (st : RunState σ Sink) (t : σ) :
    (st.on t).passTurn groups = (st.passTurn groups).map fun st => st.on t := by
  unfold passTurn
  split_ifs
  · rfl
  · rfl

/-- What is done with a point does not depend on the source that made it. -/
theorem step_on {src : Source σ} (f : Format) (share : Share) {st : RunState σ Sink} {s t t' : σ}
    {isWritten : Bool} {q : Point} (hs : src.next st.source st.buffer = .ok (s, isWritten, q))
    (ht : src.next t st.buffer = .ok (t', isWritten, q)) :
    (∃ ended ended', st.step src f share = .error ended
        ∧ (st.on t).step src f share = .error ended' ∧ ended.output = ended'.output)
      ∨ ∃ st', st.step src f share = .ok st' ∧ st'.source = s
        ∧ (st.on t).step src f share = .ok (st'.on t') := by
  have ht' : src.next (st.on t).source (st.on t).buffer = .ok (t', isWritten, q) := ht
  cases isWritten with
  | false =>
    simp only [step, hs, ht']
    exact .inr ⟨_, rfl, rfl, rfl⟩
  | true =>
    have hturn' := writeTurn_on f share.group
      { st with source := s, buffer := q, stats.points := st.stats.points + 1 } t'
    have hsource := source_writeTurn f share.group
      { st with source := s, buffer := q, stats.points := st.stats.points + 1 }
    cases hturn : writeTurn f share.group
        { st with source := s, buffer := q, stats.points := st.stats.points + 1 } with
    | mk st₁ result =>
      rw [hturn] at hturn' hsource
      simp only [on] at hturn'
      cases result with
      | error e =>
        simp only [step, on, hs, ht, hturn, hturn', if_true]
        exact .inl ⟨_, _, rfl, rfl, rfl⟩
      | ok _ =>
        have hpass' := passTurn_on share.groups st₁ t'
        cases hpass : st₁.passTurn share.groups with
        | error e =>
          simp only [hpass, on, Except.map] at hpass'
          simp only [step, on, hs, ht, hturn, hturn', hpass, hpass', if_true]
          exact .inl ⟨_, _, rfl, rfl, rfl⟩
        | ok st₂ =>
          simp only [hpass, on, Except.map] at hpass'
          simp only [step, on, hs, ht, hturn, hturn', hpass, hpass', if_true]
          exact .inr ⟨st₂, rfl, (source_passTurn hpass).trans hsource, rfl⟩

/-- Sources that are related make the same step. -/
def Together (src : Source σ) (R : σ → σ → Prop) : Prop :=
  ∀ {s t : σ}, R s t → src.remaining s ≠ 0 → ∀ buffer,
    (∃ e, src.next s buffer = .error e ∧ src.next t buffer = .error e)
      ∨ ∃ s' t' isWritten q, src.next s buffer = .ok (s', isWritten, q)
        ∧ src.next t buffer = .ok (t', isWritten, q) ∧ R s' t'

/-- Of two runs that make the same steps, the one with fewer steps writes a beginning of what the
other writes. -/
theorem loop_prefix {src : Source σ} {R : σ → σ → Prop} (hsteps : Together src R)
    (hremaining : ∀ {s t}, R s t → src.remaining s ≤ src.remaining t) (f : Format) (share : Share)
    (stop : RunStats → Bool) (st : RunState σ Sink) {t : σ} (hR : R st.source t) {few many : Nat}
    (hle : few ≤ many) :
    (loop src f share stop many (st.on t)).output.Extends
      (loop src f share stop few st).output := by
  induction few generalizing st t many with
  | zero => exact loop_extends src f share stop many (st.on t)
  | succ few ih =>
    obtain ⟨more, rfl⟩ : ∃ more, many = more + 1 := Nat.exists_eq_succ_of_ne_zero (by omega)
    by_cases hdone : src.remaining st.source = 0
    · rw [loop.eq_2 _ _ _ _ st, if_pos hdone]
      exact loop_extends src f share stop (more + 1) (st.on t)
    · have hleft : src.remaining (st.on t).source ≠ 0 := by
        have : src.remaining st.source ≤ src.remaining t := hremaining hR
        show src.remaining t ≠ 0
        omega
      rw [loop, loop, if_neg hdone, if_neg hleft]
      by_cases hstop : stop st.stats = true
      · rw [if_pos hstop, if_pos (show stop (st.on t).stats = true from hstop)]
        exact .refl _
      · rw [if_neg hstop, if_neg (show ¬ stop (st.on t).stats = true from hstop)]
        rcases hsteps hR hdone st.buffer with ⟨e, hs, ht⟩ | ⟨s', t', isWritten, q, hs, ht, hR'⟩
        · have ht' : src.next (st.on t).source (st.on t).buffer = .error e := ht
          simp only [step, hs, ht']
          exact .refl _
        · rcases step_on f share hs ht with ⟨ended, ended', hst, hst', hsame⟩ |
            ⟨st', hst, hsource, hst'⟩
          · rw [hst, hst']
            show ended'.output.Extends ended.output
            exact hsame ▸ .refl _
          · rw [hst, hst']
            exact ih st' (hsource ▸ hR') (Nat.le_of_succ_le_succ hle)

end RunState

end SeriesLoad
