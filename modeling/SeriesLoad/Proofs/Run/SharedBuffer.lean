import SeriesLoad.Proofs.Point
import SeriesLoad.Proofs.Simulation.Schedule

/-!
# The shared buffer

A run makes all its points in one buffer. **It ends just as a run that has no buffer**, in which
every step makes a new point (`run_without_buffer`). A step leaves a point behind in three ways: it
is not to be written, it is for another group, or it was written. On all of them the buffer is
empty again (`RunState.stepWith_filled`), and so the next step finds nothing in it.

Nothing in this depends on how a point is turned into bytes, so it holds for every `Writer`, the
formats among them. As a writer may also note down what it is given (`Writer.noted`), it tells which
points are handed to it: those that the steps make in new points. From a source that only sets and
adds (`Source.Edits`) they hold what one step put into them (`Point.Holds`).
-/

namespace SeriesLoad

/-! ## Sources that edit points -/

namespace Source

variable {σ : Type}

/-- A step makes its edits on whatever is in the buffer, and does nothing else with it. -/
def Edits (src : Source σ) (edits : σ → List PointEdit) : Prop :=
  ∀ s p, src.next s p =
    (src.next s .empty).map fun made => (made.1, made.2.1, p.edit (edits s))

theorem Edits.holds {src : Source σ} {edits : σ → List PointEdit} (h : src.Edits edits)
    {s s' : σ} {isWritten : Bool} {p : Point}
    (hnext : src.next s .empty = .ok (s', isWritten, p)) : p.Holds (edits s) := by
  have hsame := h s .empty
  simp only [hnext, Except.map, Except.ok.injEq, Prod.mk.injEq, true_and] at hsame
  rw [hsame]
  exact Point.holds_edit _

/-- Every point of a script was made by the step at its place. -/
theorem step_of_play {src : Source σ} {steps i : Nat} {s s' : σ} {made : Script} {p : Point}
    {isWritten : Bool} (hplay : src.play steps s = .ok (made, s'))
    (hget : made[i]? = some (p, isWritten)) :
    ∃ before t t', src.play i s = .ok (before, t)
      ∧ src.next t .empty = .ok (t', isWritten, p) := by
  induction steps generalizing s made i with
  | zero =>
    simp only [play, Except.ok.injEq, Prod.mk.injEq] at hplay
    simp [← hplay.1] at hget
  | succ steps ih =>
    obtain ⟨⟨s₁, w, q⟩, hnext, hplay⟩ := Except.bind_eq_ok.mp hplay
    obtain ⟨⟨rest, s₂⟩, hrest, hmade⟩ := Except.bind_eq_ok.mp hplay
    simp only [pure, Except.pure, Except.ok.injEq, Prod.mk.injEq] at hmade
    obtain ⟨rfl, rfl⟩ := hmade
    cases i with
    | zero =>
      simp only [List.getElem?_cons_zero, Option.some.injEq, Prod.mk.injEq] at hget
      obtain ⟨rfl, rfl⟩ := hget
      exact ⟨[], s, s₁, rfl, hnext⟩
    | succ i =>
      rw [List.getElem?_cons_succ] at hget
      obtain ⟨before, t, t', hbefore, hstep⟩ := ih hrest hget
      exact ⟨_, t, t', play_succ hnext hbefore, hstep⟩

end Source

/-! ## Writers -/

/-- What writes a point to an output: it gives the size of the record, or why it failed. -/
abbrev Writer (ω : Type) := Point → ω → ω × Except WriteError Nat

/-- Writes, and notes down the points that it was given. -/
def Writer.noted {ω : Type} (put : Writer ω) : Writer (List Point × ω) := fun p out =>
  let (output, result) := put p out.2
  ((out.1 ++ [p], output), result)

namespace RunState

variable {σ ω : Type}

/-- Has the buffer written if it is the turn of the group. -/
def putTurn (put : Writer ω) (group : Nat) (s : RunState σ ω) :
    RunState σ ω × Except WriteError Unit :=
  if s.turn = group then
    match put s.buffer s.output with
    | (output, .error e) => ({ s with output }, .error e)
    | (output, .ok size) =>
      let stats := { s.stats with written := s.stats.written + 1, bytes := s.stats.bytes + size }
      ({ s with output, stats }, .ok ())
  else (s, .ok ())

/-- Has the buffer written if it is the turn of the group, and passes the turn on. -/
def offer (put : Writer ω) (share : Share) (s : RunState σ ω) :
    Except (RunEnd σ ω) (RunState σ ω) :=
  match s.putTurn put share.group with
  | (s, .error e) => .error ⟨s.source, s.output, .error (.write e)⟩
  | (s, .ok ()) =>
    match s.passTurn share.groups with
    | .error e => .error ⟨s.source, s.output, .error (.fault e)⟩
    | .ok s => .ok s

/-- Makes one step, up to the emptied buffer. -/
def stepWith (src : Source σ) (put : Writer ω) (share : Share) (s : RunState σ ω) :
    Except (RunEnd σ ω) (RunState σ ω) :=
  match src.next s.source s.buffer with
  | .error e => .error ⟨s.source, s.output, .error (.fault e)⟩
  | .ok (source, isWritten, buffer) =>
    let s := { s with source, buffer, stats.points := s.stats.points + 1 }
    if isWritten then s.offer put share else .ok { s with buffer := s.buffer.reset }

/-- Makes at most so many steps. Whether to stop is asked before each of them, and may depend on
what is in the output. -/
def loopWith (src : Source σ) (put : Writer ω) (share : Share) (stop : RunStats → ω → Bool) :
    Nat → RunState σ ω → RunEnd σ ω
  | 0, s => ⟨s.source, s.output, .ok s.stats⟩
  | steps + 1, s =>
    if src.remaining s.source = 0 then ⟨s.source, s.output, .ok s.stats⟩
    else if stop s.stats s.output then
      ⟨s.source, s.output, .ok { s.stats with interrupted := true }⟩
    else
      match s.stepWith src put share with
      | .error e => e
      | .ok s => loopWith src put share stop steps s

/-- The formats are writers. -/
theorem step_eq_stepWith [Output ω] (src : Source σ) (f : Format) (share : Share)
    (s : RunState σ ω) : s.step src f share = s.stepWith src f.write share := rfl

theorem loop_eq_loopWith [Output ω] (src : Source σ) (f : Format) (share : Share)
    (stop : RunStats → Bool) (steps : Nat) (s : RunState σ ω) :
    loop src f share stop steps s =
      loopWith src f.write share (fun stats _ => stop stats) steps s := by
  induction steps generalizing s with
  | zero => rfl
  | succ steps ih =>
    rw [loop, loopWith, step_eq_stepWith]
    simp only [ih]
    rfl

end RunState

/-! ## Runs without a buffer -/

/-- The state of a run that has no buffer. -/
structure Unbuffered (σ ω : Type) where
  source : σ
  output : ω
  /-- The group whose turn it is. -/
  turn : Nat := 0
  stats : RunStats := {}

namespace Unbuffered

variable {σ ω : Type}

/-- Counts a record and passes the turn on. -/
def passTurn (groups : Nat) (u : Unbuffered σ ω) : Except (RunEnd σ ω) (Unbuffered σ ω) :=
  if groups = 0 then .error ⟨u.source, u.output, .error (.fault .noGroups)⟩
  else .ok { u with turn := (u.turn + 1) % groups, stats.records := u.stats.records + 1 }

/-- Counts a step. -/
def stepped (source : σ) (u : Unbuffered σ ω) : Unbuffered σ ω :=
  { u with source, stats.points := u.stats.points + 1 }

/-- Counts a record that was written. -/
def wrote (output : ω) (size : Nat) (u : Unbuffered σ ω) : Unbuffered σ ω :=
  let stats := { u.stats with written := u.stats.written + 1, bytes := u.stats.bytes + size }
  { u with output, stats }

/-- Has a point written if it is the turn of the group, and passes the turn on. -/
def offer (put : Writer ω) (share : Share) (p : Point) (u : Unbuffered σ ω) :
    Except (RunEnd σ ω) (Unbuffered σ ω) :=
  if u.turn = share.group then
    match put p u.output with
    | (output, .error e) => .error ⟨u.source, output, .error (.write e)⟩
    | (output, .ok size) => (u.wrote output size).passTurn share.groups
  else u.passTurn share.groups

/-- Makes one step, into a new point. -/
def step (src : Source σ) (put : Writer ω) (share : Share) (u : Unbuffered σ ω) :
    Except (RunEnd σ ω) (Unbuffered σ ω) :=
  match src.next u.source .empty with
  | .error e => .error ⟨u.source, u.output, .error (.fault e)⟩
  | .ok (source, isWritten, p) =>
    let u := u.stepped source
    if isWritten then u.offer put share p else .ok u

/-- Makes at most so many steps. -/
def loop (src : Source σ) (put : Writer ω) (share : Share) (stop : RunStats → ω → Bool) :
    Nat → Unbuffered σ ω → RunEnd σ ω
  | 0, u => ⟨u.source, u.output, .ok u.stats⟩
  | steps + 1, u =>
    if src.remaining u.source = 0 then ⟨u.source, u.output, .ok u.stats⟩
    else if stop u.stats u.output then
      ⟨u.source, u.output, .ok { u.stats with interrupted := true }⟩
    else
      match u.step src put share with
      | .error e => e
      | .ok u => loop src put share stop steps u

/-- The state of a run with this in its buffer. -/
def filled (p : Point) (u : Unbuffered σ ω) : RunState σ ω where
  source := u.source
  output := u.output
  buffer := p
  turn := u.turn
  stats := u.stats

end Unbuffered

namespace RunState

variable {σ ω : Type} {src : Source σ} {put : Writer ω} {share : Share}

theorem passTurn_filled (groups : Nat) (p : Point) (u : Unbuffered σ ω) :
    (match (u.filled p).passTurn groups with
      | .error e => .error ⟨u.source, u.output, .error (.fault e)⟩
      | .ok s => .ok s) = (u.passTurn groups).map (Unbuffered.filled .empty) := by
  by_cases hzero : groups = 0 <;> simp [passTurn, Unbuffered.passTurn, hzero] <;> rfl

/-- Written or not, when the turn is passed on the buffer is empty. -/
theorem offer_filled (p : Point) (u : Unbuffered σ ω) :
    (u.filled p).offer put share = (u.offer put share p).map (Unbuffered.filled .empty) := by
  have hput : (u.filled p).putTurn put share.group =
      if u.turn = share.group then
        match put p u.output with
        | (output, .error e) => ({ u with output }.filled p, .error e)
        | (output, .ok size) => ((u.wrote output size).filled p, .ok ())
      else (u.filled p, .ok ()) := rfl
  unfold offer Unbuffered.offer
  rw [hput]
  by_cases hturn : u.turn = share.group
  · rw [if_pos hturn, if_pos hturn]
    rcases put p u.output with ⟨output, e | size⟩
    · rfl
    · exact passTurn_filled share.groups p (u.wrote output size)
  · rw [if_neg hturn, if_neg hturn]
    exact passTurn_filled share.groups p u

/-- A step from an empty buffer is a step into a new point, and leaves an empty buffer. -/
theorem stepWith_filled (u : Unbuffered σ ω) :
    (u.filled .empty).stepWith src put share =
      (u.step src put share).map (Unbuffered.filled .empty) := by
  have hstart : src.next (u.filled .empty).source (u.filled .empty).buffer =
      src.next u.source .empty := rfl
  unfold stepWith Unbuffered.step
  rw [hstart]
  cases src.next u.source .empty with
  | error e => rfl
  | ok made =>
    obtain ⟨source, isWritten, p⟩ := made
    cases isWritten with
    | false => rfl
    | true => exact offer_filled p (u.stepped source)

/-- So no step of a loop finds anything in the buffer. -/
theorem loopWith_filled (stop : RunStats → ω → Bool) (steps : Nat) (u : Unbuffered σ ω) :
    loopWith src put share stop steps (u.filled .empty) = u.loop src put share stop steps := by
  induction steps generalizing u with
  | zero => rfl
  | succ steps ih =>
    rw [loopWith, Unbuffered.loop, stepWith_filled]
    cases hstep : u.step src put share with
    | error e => rfl
    | ok u' =>
      simp only [Except.map, ih]
      rfl

end RunState

/-! ## The points that are handed to a writer -/

/-- The end of a run, with points noted down. -/
def RunEnd.noting {σ ω : Type} (notes : List Point) (e : RunEnd σ ω) : RunEnd σ (List Point × ω) :=
  ⟨e.source, (notes, e.output), e.result⟩

namespace Unbuffered

variable {σ ω : Type} {src : Source σ} {put : Writer ω} {share : Share}

/-- The state of a run, with points noted down. -/
def noting (notes : List Point) (u : Unbuffered σ ω) : Unbuffered σ (List Point × ω) where
  source := u.source
  output := (notes, u.output)
  turn := u.turn
  stats := u.stats

/-- The outcome of a step, with points noted down. -/
def noteDown (notes : List Point) :
    Except (RunEnd σ ω) (Unbuffered σ ω) →
      Except (RunEnd σ (List Point × ω)) (Unbuffered σ (List Point × ω))
  | .error e => .error (e.noting notes)
  | .ok u => .ok (u.noting notes)

theorem passTurn_noting (groups : Nat) (notes : List Point) (u : Unbuffered σ ω) :
    (u.noting notes).passTurn groups = noteDown notes (u.passTurn groups) := by
  by_cases hzero : groups = 0 <;> simp [passTurn, hzero] <;> rfl

/-- A point is noted down if it is the turn of the group. -/
theorem offer_noting (notes : List Point) (p : Point) (u : Unbuffered σ ω) :
    (u.noting notes).offer put.noted share p =
      noteDown (notes ++ if u.turn = share.group then [p] else []) (u.offer put share p) := by
  have hput : put.noted p (u.noting notes).output =
      ((notes ++ [p], (put p u.output).1), (put p u.output).2) := rfl
  have hsame : (u.noting notes).turn = u.turn := rfl
  unfold offer
  rw [hput, hsame]
  by_cases hturn : u.turn = share.group
  · rw [if_pos hturn, if_pos hturn, if_pos hturn]
    rcases put p u.output with ⟨output, e | size⟩
    · rfl
    · exact passTurn_noting share.groups (notes ++ [p]) (u.wrote output size)
  · rw [if_neg hturn, if_neg hturn, if_neg hturn, List.append_nil]
    exact passTurn_noting share.groups notes u

/-- Whatever becomes of a point, the source stays where it is. If the run goes on, it is the next
group's turn. -/
theorem offer_cases (put : Writer ω) (share : Share) (p : Point) (u : Unbuffered σ ω) :
    (∃ e, u.offer put share p = .error e ∧ e.source = u.source)
      ∨ ∃ u', u.offer put share p = .ok u' ∧ u'.source = u.source
        ∧ u'.turn = (u.turn + 1) % share.groups := by
  have hpass : ∀ v : Unbuffered σ ω, v.source = u.source → v.turn = u.turn →
      (∃ e, v.passTurn share.groups = .error e ∧ e.source = u.source)
        ∨ ∃ u', v.passTurn share.groups = .ok u' ∧ u'.source = u.source
          ∧ u'.turn = (u.turn + 1) % share.groups := by
    intro v hsource hturn
    by_cases hzero : share.groups = 0
    · exact .inl ⟨_, if_pos hzero, hsource⟩
    · exact .inr ⟨_, if_neg hzero, hsource, congrArg (fun n => (n + 1) % share.groups) hturn⟩
  unfold offer
  by_cases hturn : u.turn = share.group
  · rw [if_pos hturn]
    rcases put p u.output with ⟨output, e | size⟩
    · exact .inl ⟨_, rfl, rfl⟩
    · exact hpass (u.wrote output size) rfl rfl
  · rw [if_neg hturn]
    exact hpass u rfl rfl

/-- A step adds its point to the script, and the notes are what is dealt of that to the group. They
make no difference to what else the step does. -/
theorem step_noting (src : Source σ) (put : Writer ω) {u : Unbuffered σ ω} {made : Script}
    (hturn : u.turn = (Script.emitted made).length % share.groups) :
    ∃ more, (u.noting (share.deal (Script.emitted made))).step src put.noted share =
        noteDown (share.deal (Script.emitted (made ++ more))) (u.step src put share)
      ∧ match u.step src put share with
        | .error e => src.play more.length u.source = .ok (more, e.source)
        | .ok u' => u'.turn = (Script.emitted (made ++ more)).length % share.groups
          ∧ ∃ p isWritten, more = [(p, isWritten)]
            ∧ src.next u.source .empty = .ok (u'.source, isWritten, p) := by
  have hsource : ∀ notes, (u.noting notes).source = u.source := fun _ => rfl
  unfold step
  rw [hsource]
  cases hnext : src.next u.source .empty with
  | error e =>
    refine ⟨[], ?_, rfl⟩
    rw [List.append_nil]
    rfl
  | ok made₁ =>
    obtain ⟨source, isWritten, p⟩ := made₁
    refine ⟨[(p, isWritten)], ?_⟩
    rw [Script.emitted_concat]
    cases isWritten with
    | false =>
      rw [if_neg Bool.false_ne_true, List.append_nil]
      exact ⟨rfl, hturn, p, false, rfl, rfl⟩
    | true =>
      rw [if_pos rfl, Share.deal_concat, ← hturn, List.length_append, List.length_singleton]
      refine ⟨offer_noting _ p (u.stepped source), ?_⟩
      rcases offer_cases put share p (u.stepped source) with
        ⟨e, hoffer, hsame⟩ | ⟨u', hoffer, hsame, hturn'⟩
      · simp only [if_pos, hoffer]
        exact hsame ▸ Source.play_succ hnext rfl
      · simp only [if_pos, hoffer]
        refine ⟨?_, p, true, rfl, by rw [hsame]; rfl⟩
        rw [hturn', show (u.stepped source).turn = u.turn from rfl, hturn, Nat.mod_add_mod]
        rfl

/-- Noted down, the points that a run hands to its writer are what is dealt to the group of the
script that its steps make into new points. -/
theorem loop_noting (src : Source σ) (put : Writer ω) (stop : RunStats → ω → Bool) (steps : Nat)
    {u : Unbuffered σ ω} {made : Script}
    (hturn : u.turn = (Script.emitted made).length % share.groups) :
    ∃ more, src.play more.length u.source = .ok (more, (u.loop src put share stop steps).source)
      ∧ (u.noting (share.deal (Script.emitted made))).loop src put.noted share
          (fun stats out => stop stats out.2) steps =
        (u.loop src put share stop steps).noting (share.deal (Script.emitted (made ++ more))) := by
  induction steps generalizing u made with
  | zero => exact ⟨[], rfl, by rw [List.append_nil]; rfl⟩
  | succ steps ih =>
    have hsource : ∀ notes, (u.noting notes).source = u.source := fun _ => rfl
    have hstop : ∀ notes, stop (u.noting notes).stats (u.noting notes).output.2 =
        stop u.stats u.output := fun _ => rfl
    rw [loop, loop, hsource, hstop]
    by_cases hdone : src.remaining u.source = 0
    · rw [if_pos hdone, if_pos hdone]
      exact ⟨[], rfl, by rw [List.append_nil]; rfl⟩
    rw [if_neg hdone, if_neg hdone]
    by_cases hstopped : stop u.stats u.output = true
    · rw [if_pos hstopped, if_pos hstopped]
      exact ⟨[], rfl, by rw [List.append_nil]; rfl⟩
    rw [if_neg hstopped, if_neg hstopped]
    obtain ⟨more, hnoting, hmore⟩ := step_noting src put hturn
    rw [hnoting]
    cases hstep : u.step src put share with
    | error e =>
      rw [hstep] at hmore
      exact ⟨more, hmore, rfl⟩
    | ok u' =>
      rw [hstep] at hmore
      obtain ⟨hturn', p, isWritten, rfl, hnext⟩ := hmore
      obtain ⟨rest, hplay, hloop⟩ := ih hturn'
      refine ⟨(p, isWritten) :: rest, Source.play_succ hnext hplay, ?_⟩
      rw [← List.append_cons] at hloop
      exact hloop

end Unbuffered

/-! ## Simulations as sources -/

/-- What a host puts into a point: its tags, then name, time and fields of one of its measurements,
if it has it. -/
def Host.edits (h : Host) (index : Nat) : List PointEdit :=
  h.tags.toList.map (fun tag => .addTag tag.1 tag.2) ++
    match h.measurements[index]? with
    | some m => .setName m.name :: .setTime m.time :: m.fields.map fun field =>
        .addField field.1 field.2
    | none => []

theorem Host.fill_eq_edit (h : Host) (index : Nat) (p : Point) :
    h.fill index p = p.edit (h.edits index) := by
  unfold fill edits
  rw [Point.edit_append]
  have htags : p.edit (h.tags.toList.map fun tag => .addTag tag.1 tag.2) =
      h.tags.toList.foldl (fun p tag => p.addTag tag.1 tag.2) p := List.foldl_map
  rw [htags]
  cases h.measurements[index]? with
  | none => rfl
  | some m =>
    simp only [Measurement.fill, Point.edit, List.foldl_cons, List.foldl_map, PointEdit.apply]

namespace Simulation

variable {γ : Type} [Words γ]

/-- What the next step puts into a point. -/
def edits (s : Simulation γ) : List PointEdit :=
  match s.settle with
  | .ok s =>
    match s.hosts[s.host]? with
    | some h => h.edits s.pass
    | none => []
  | .error _ => []

/-- A simulation sets and adds, and does not look at what is in the buffer. -/
theorem source_edits : (source : Source (Simulation γ)).Edits edits := by
  intro s p
  show s.next p = (s.next .empty).map _
  unfold next edits
  cases hsettle : s.settle with
  | error e => rfl
  | ok s' =>
    simp only [bind, Except.bind, pure, Except.pure, Except.map, emit]
    cases s'.hosts[s'.host]? with
    | none => rfl
    | some h => rw [← Host.fill_eq_edit]

end Simulation

/-! ## Runs with and without a buffer -/

/-- A run with a shared buffer ends as the one without a buffer: where the source stands, what is in
the output, and what was done or why it failed. This holds for all formats, and for all writers,
after any number of steps. The writer is handed what is dealt to its group of the points that the
steps make into new points, in order. If the source sets and adds only, each of those holds what was
put into it by the step that made it. -/
theorem run_without_buffer {σ : Type} (src : Source σ) (share : Share) (s : σ) :
    (∀ {ω : Type} [Output ω] (f : Format) (stop : RunStats → Bool) (out : ω),
        run src f share stop s out =
          Unbuffered.loop src f.write share (fun stats _ => stop stats) (src.remaining s)
            { source := s, output := out })
      ∧ (∀ {ω : Type} (put : Writer ω) (stop : RunStats → ω → Bool) (steps : Nat) (out : ω),
        RunState.loopWith src put share stop steps { source := s, output := out } =
            Unbuffered.loop src put share stop steps { source := s, output := out }
          ∧ ∃ made,
            src.play made.length s = .ok (made,
              (Unbuffered.loop src put share stop steps { source := s, output := out }).source)
            ∧ RunState.loopWith src put.noted share (fun stats out => stop stats out.2) steps
                { source := s, output := ([], out) } =
              (Unbuffered.loop src put share stop steps { source := s, output := out }).noting
                (share.deal (Script.emitted made)))
      ∧ ∀ edits, src.Edits edits → ∀ (made : Script) (s' : σ),
        src.play made.length s = .ok (made, s') →
        ∀ i p isWritten, made[i]? = some (p, isWritten) →
          ∃ before t, src.play i s = .ok (before, t) ∧ p.Holds (edits t) := by
  have hloop : ∀ {ω : Type} (put : Writer ω) (stop : RunStats → ω → Bool) (steps : Nat) (out : ω),
      RunState.loopWith src put share stop steps { source := s, output := out } =
        Unbuffered.loop src put share stop steps { source := s, output := out } :=
    fun put stop steps out =>
      RunState.loopWith_filled stop steps { source := s, output := out }
  refine ⟨fun f stop out => ?_, fun put stop steps out => ⟨hloop put stop steps out, ?_⟩,
    fun edits hedits made s' hplay i p isWritten hget => ?_⟩
  · rw [run, RunState.loop_eq_loopWith, hloop]
  · have hstart : (0 : Nat) = (Script.emitted []).length % share.groups :=
      (Nat.zero_mod _).symm
    obtain ⟨made, hplay, hnoting⟩ :=
      Unbuffered.loop_noting src put stop steps (u := { source := s, output := out }) hstart
    refine ⟨made, hplay, ?_⟩
    rw [hloop]
    exact hnoting
  · obtain ⟨before, t, t', hbefore, hnext⟩ := Source.step_of_play hplay hget
    exact ⟨before, t, hbefore, hedits.holds hnext⟩

/-- The second of two groups writes of two hosts what fits in a thousand bytes. -/
theorem run_without_buffer_two_hosts :
    (Simulation.source : Source (Simulation ChaCha)).Edits Simulation.edits
      ∧ ∃ s s' q isWritten,
        Simulation.init Simulation.twoHosts 9 ⟨500000000⟩ (ChaCha.ofSeed 7) = .ok s
        ∧ s.next .empty = .ok (s', isWritten, q) ∧ q.Holds s.edits
        ∧ run Simulation.source .influx ⟨1, 2⟩ (fun _ => false) s { capacity := some 1000 : Sink } =
          Unbuffered.loop Simulation.source Format.influx.write ⟨1, 2⟩ (fun _ _ => false)
            s.remaining { source := s, output := { capacity := some 1000 } } := by
  have hread : Span.read? "500ms" = some ⟨500000000⟩ := by decide
  have h : Simulation.twoHosts.Schedulable 9 ⟨500000000⟩ :=
    Population.schedulable_of_last (by decide) hread (by decide) (by decide) (by decide) (by decide)
      (by decide)
  obtain ⟨s, hinit, hs, hmade, -⟩ := Simulation.init_stands h (ChaCha.ofSeed 7)
  have hlt : s.made < s.budget := by
    rw [hmade, hs.budget_eq]
    decide
  obtain ⟨hosts, left, host, m, t, s', isWritten, -, -, -, -, -, -, hnext, -⟩ :=
    Simulation.next_sample h hs hlt
  obtain ⟨hrun, -, hholds⟩ := run_without_buffer Simulation.source ⟨1, 2⟩ s
  have hplay : Simulation.source.play 1 s = .ok ([(host.sample m, isWritten)], s') :=
    Source.play_succ hnext rfl
  obtain ⟨before, t, hbefore, hq⟩ :=
    hholds Simulation.edits Simulation.source_edits [(host.sample m, isWritten)] s' hplay 0 _ _ rfl
  cases hbefore
  exact ⟨Simulation.source_edits, s, s', _, isWritten, hinit, hnext, hq,
    hrun .influx (fun _ => false) _⟩

end SeriesLoad
