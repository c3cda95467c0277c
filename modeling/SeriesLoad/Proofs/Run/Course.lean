import SeriesLoad.Proofs.Run.Dealing
import SeriesLoad.Proofs.Sink

/-!
# What a run writes

The steps of a source do not depend on what is done with its points. `Source.course` is what becomes
of a source when only its steps are looked at: the script it made, where it stands, and why it
stopped there. **A run on an unlimited sink writes exactly the records of its share of the script,
and ends as the course ends** (`run_eq_ofCourse`).

The invariant is `RunState.reached`: a state of the run is determined by the source, the script made
so far, and the output. One step adds one point to the script, unless its record is the first that
the output does not take (`step_reached`); so a run takes the course of its source to the end, or
breaks off on the way (`loop_reached`). `RunState.after` is the state on an unlimited sink, which
takes every record.
-/

namespace SeriesLoad

/-- Records one behind the other. -/
def joined (records : List ByteArray) : ByteArray := records.foldr (· ++ ·) .empty

@[simp] theorem joined_nil : joined [] = .empty := rfl

@[simp] theorem joined_cons (r : ByteArray) (rs : List ByteArray) :
    joined (r :: rs) = r ++ joined rs := rfl

theorem joined_append (rs ts : List ByteArray) : joined (rs ++ ts) = joined rs ++ joined ts := by
  induction rs with
  | nil => simp
  | cons r rs ih => simp [ih, ByteArray.append_assoc]

/-- Texts one behind the other are one text. -/
theorem joined_toUTF8 {α : Type} (chars : α → List Char) (items : List α) :
    joined (items.map fun a => (String.ofList (chars a)).toUTF8) =
      (String.ofList (items.flatMap chars)).toUTF8 := by
  induction items with
  | nil => rfl
  | cons a rest ih =>
    rw [List.map_cons, joined_cons, ih, List.flatMap_cons, String.ofList_append]
    simp only [String.toUTF8_eq_toByteArray, String.toByteArray_append]

/-- The points of a script that are to be written. -/
def Script.emitted (made : Script) : List Point := (made.filter (·.2)).map (·.1)

theorem Script.emitted_concat (made : Script) (p : Point) (isWritten : Bool) :
    Script.emitted (made ++ [(p, isWritten)]) =
      Script.emitted made ++ if isWritten then [p] else [] := by
  cases isWritten <;> simp [Script.emitted]

theorem Script.mem_emitted {made : Script} {p : Point} :
    p ∈ Script.emitted made ↔ (p, true) ∈ made := by
  simp [Script.emitted]

namespace Format

/-- The bytes of a point's record. -/
def recordOf (f : Format) (p : Point) : ByteArray := (f.encode p).toOption.getD .empty

/-- The point has a record. -/
def Encodes (f : Format) (p : Point) : Prop := f.encode p = .ok (f.recordOf p)

theorem encodes_of_ok {f : Format} {p : Point} {record : ByteArray} (h : f.encode p = .ok record) :
    f.Encodes p := by
  rw [Encodes, recordOf, h]
  rfl

end Format

namespace Source

variable {σ : Type}

/-- Makes so many steps, each into an empty buffer. -/
def play (src : Source σ) : Nat → σ → Except Fault (Script × σ)
  | 0, s => .ok ([], s)
  | n + 1, s => do
    let (s, isWritten, p) ← src.next s .empty
    let (rest, s) ← src.play n s
    return ((p, isWritten) :: rest, s)

theorem play_succ {src : Source σ} {s s' s'' : σ} {isWritten : Bool} {p : Point} {n : Nat}
    {rest : Script} (hnext : src.next s .empty = .ok (s', isWritten, p))
    (hrest : src.play n s' = .ok (rest, s'')) :
    src.play (n + 1) s = .ok ((p, isWritten) :: rest, s'') := by
  simp only [play, hnext, hrest, bind, Except.bind, pure, Except.pure]

/-! ## The course of a source -/

/-- Why a source is stepped no further. -/
inductive Ending where
  /-- There are no more steps to be made. -/
  | finished
  /-- It is told to stop. -/
  | stopped
  /-- The next step has a fault. -/
  | fault (e : Fault)
deriving DecidableEq, Repr

/-- What became of a source: the script it made, where it stands, and why it stopped there. -/
structure Course (σ : Type) where
  made : Script
  source : σ
  ending : Ending

/-- Makes at most so many further steps behind a script. `halt` tells from the script so far whether
to stop. -/
def course (src : Source σ) (halt : Script → Bool) : Nat → σ → Script → Course σ
  | 0, s, made => ⟨made, s, .finished⟩
  | steps + 1, s, made =>
    if src.remaining s = 0 then ⟨made, s, .finished⟩
    else if halt made then ⟨made, s, .stopped⟩
    else
      match src.next s .empty with
      | .error e => ⟨made, s, .fault e⟩
      | .ok (s, isWritten, p) => course src halt steps s (made ++ [(p, isWritten)])

/-- A course is the play of as many steps as it made. -/
theorem play_course (src : Source σ) (halt : Script → Bool) (steps : Nat) (s : σ)
    (made : Script) :
    ∃ more, (src.course halt steps s made).made = made ++ more
      ∧ src.play more.length s = .ok (more, (src.course halt steps s made).source) := by
  induction steps generalizing s made with
  | zero => exact ⟨[], (List.append_nil _).symm, rfl⟩
  | succ steps ih =>
    rw [course]
    split_ifs with hdone hhalt
    · exact ⟨[], (List.append_nil _).symm, rfl⟩
    · exact ⟨[], (List.append_nil _).symm, rfl⟩
    · cases hnext : src.next s .empty with
      | error e => exact ⟨[], (List.append_nil _).symm, rfl⟩
      | ok made₁ =>
        obtain ⟨s', isWritten, p⟩ := made₁
        obtain ⟨more, hmade, hplay⟩ := ih s' (made ++ [(p, isWritten)])
        refine ⟨(p, isWritten) :: more, ?_, play_succ hnext hplay⟩
        rw [hmade, List.append_assoc, List.singleton_append]

/-- A course from the beginning is the play of all that it made. -/
theorem play_course_made (src : Source σ) (halt : Script → Bool) (steps : Nat) (s : σ) :
    src.play (src.course halt steps s []).made.length s =
      .ok ((src.course halt steps s []).made, (src.course halt steps s []).source) := by
  obtain ⟨more, hmade, hplay⟩ := play_course src halt steps s []
  rw [List.nil_append] at hmade
  rw [hmade]
  exact hplay

theorem course_made (src : Source σ) (halt : Script → Bool) (steps : Nat) (s : σ)
    (made : Script) : made <+: (src.course halt steps s made).made := by
  obtain ⟨more, hmade, -⟩ := play_course src halt steps s made
  exact ⟨more, hmade.symm⟩

theorem mem_emitted_course {src : Source σ} {halt : Script → Bool} {steps : Nat} {s : σ}
    {made : Script} {p : Point} (h : (p, true) ∈ made) :
    p ∈ Script.emitted (src.course halt steps s made).made :=
  Script.mem_emitted.mpr ((course_made src halt steps s made).subset h)

/-- If a step goes through wherever steps are left, a course has no fault, and what each step keeps
of a source and the script that it made holds at the end of the course. -/
theorem course_induction (src : Source σ) {I : σ → Script → Prop}
    (hstep : ∀ {s made}, I s made → src.remaining s ≠ 0 →
      ∃ s' isWritten p, src.next s .empty = .ok (s', isWritten, p)
        ∧ I s' (made ++ [(p, isWritten)]))
    (halt : Script → Bool) (steps : Nat) {s : σ} (made : Script) (h : I s made) :
    I (src.course halt steps s made).source (src.course halt steps s made).made
      ∧ ∀ e, (src.course halt steps s made).ending ≠ .fault e := by
  induction steps generalizing s made with
  | zero => exact ⟨h, by simp [course]⟩
  | succ steps ih =>
    rw [course]
    split_ifs with hdone hhalt
    · exact ⟨h, by simp⟩
    · exact ⟨h, by simp⟩
    · obtain ⟨s', isWritten, p, hnext, h'⟩ := hstep h hdone
      rw [hnext]
      exact ih _ h'

theorem course_not_stopped {src : Source σ} {halt : Script → Bool}
    (hhalt : ∀ made, halt made = false) (steps : Nat) (s : σ) (made : Script) :
    (src.course halt steps s made).ending ≠ .stopped := by
  induction steps generalizing s made with
  | zero => simp [course]
  | succ steps ih =>
    rw [course, hhalt, if_neg Bool.false_ne_true]
    split_ifs with hdone
    · simp
    · split
      · simp
      · exact ih _ _

/-- Where every step leaves fewer steps to be made, a course that is finished has made them all. -/
theorem remaining_course {src : Source σ} {I : σ → Prop}
    (hstep : ∀ {s buffer s' isWritten p}, I s → src.remaining s ≠ 0 →
      src.next s buffer = .ok (s', isWritten, p) → I s' ∧ src.remaining s' < src.remaining s)
    (halt : Script → Bool) {steps : Nat} {s : σ} (hs : I s) (hle : src.remaining s ≤ steps)
    {made : Script} (hfinished : (src.course halt steps s made).ending = .finished) :
    src.remaining (src.course halt steps s made).source = 0 := by
  induction steps generalizing s made with
  | zero => exact Nat.le_zero.mp hle
  | succ steps ih =>
    rw [course] at hfinished ⊢
    split_ifs at hfinished ⊢ with hdone hhalt
    · exact hdone
    · cases hnext : src.next s .empty with
      | error e => simp [hnext] at hfinished
      | ok made₁ =>
        obtain ⟨s', isWritten, p⟩ := made₁
        obtain ⟨hs', hlt⟩ := hstep hs hdone hnext
        simp only [hnext] at hfinished
        exact ih hs' (by omega) hfinished

end Source

open Source (Course)

/-! ## What is written of a script -/

/-- The bytes that a run writes of a script: the records of its share. -/
def Share.written (share : Share) (f : Format) (made : Script) : ByteArray :=
  joined ((share.deal (Script.emitted made)).map f.recordOf)

/-- It is the turn of the group behind a script. -/
def Share.HasTurn (share : Share) (made : Script) : Prop :=
  (Script.emitted made).length % share.groups = share.group

@[simp] theorem Share.written_nil (share : Share) (f : Format) : share.written f [] = .empty := rfl

theorem Share.written_concat {share : Share} {made : Script} {p : Point} {isWritten : Bool}
    (f : Format) (h : isWritten = true ∧ share.HasTurn made) :
    share.written f (made ++ [(p, isWritten)]) = share.written f made ++ f.recordOf p := by
  simp [written, Script.emitted_concat, h.1, deal_concat, show _ = _ from h.2, joined_append]

theorem Share.written_concat_silent {share : Share} {made : Script} {p : Point} {isWritten : Bool}
    (f : Format) (h : ¬(isWritten = true ∧ share.HasTurn made)) :
    share.written f (made ++ [(p, isWritten)]) = share.written f made := by
  cases isWritten with
  | false => simp [written, Script.emitted_concat]
  | true =>
    have hturn : ¬(Script.emitted made).length % share.groups = share.group := fun hturn =>
      h ⟨rfl, hturn⟩
    simp [written, Script.emitted_concat, deal_concat, hturn]

/-- What is written of a script begins with what is written of its beginning. -/
theorem Share.written_of_prefix (share : Share) (f : Format) {before made : Script}
    (h : before <+: made) :
    ∃ more, share.written f made = share.written f before ++ more := by
  obtain ⟨rest, rfl⟩ := h
  induction rest using List.reverseRecOn with
  | nil => exact ⟨.empty, by rw [List.append_nil, ByteArray.append_empty]⟩
  | append_singleton rest q ih =>
    obtain ⟨more, hmore⟩ := ih
    obtain ⟨q, isWritten⟩ := q
    rw [← List.append_assoc]
    by_cases hturn : isWritten = true ∧ share.HasTurn (before ++ rest)
    · refine ⟨more ++ f.recordOf q, ?_⟩
      rw [written_concat f hturn, hmore, ByteArray.append_assoc]
    · exact ⟨more, by rw [written_concat_silent f hturn, hmore]⟩

/-- What a run has done after it made a script. -/
def RunStats.ofScript (f : Format) (share : Share) (made : Script) : RunStats where
  points := made.length
  records := (Script.emitted made).length
  written := (share.deal (Script.emitted made)).length
  bytes := (joined ((share.deal (Script.emitted made)).map f.recordOf)).size

/-! ## Runs on any output -/

namespace RunState

variable {σ ω : Type}

/-- The state of a run that has made a script and left its output as it is now. -/
def reached (f : Format) (share : Share) (output : ω) (source : σ) (made : Script) :
    RunState σ ω where
  source
  output
  turn := (Script.emitted made).length % share.groups
  stats := .ofScript f share made

theorem reached_nil (f : Format) (share : Share) (output : ω) (source : σ) :
    reached f share output source [] = { source, output } := by
  simp [reached, RunStats.ofScript, Script.emitted]

section Steps

variable [Output ω] {src : Source σ} {f : Format} {share : Share} {s s' : σ} {isWritten : Bool}
  {p : Point}

/-- A step whose point is not for the group to write adds it to the script. -/
theorem step_silent (hpos : 0 < share.groups) (made : Script) (out : ω)
    (hnext : src.next s .empty = .ok (s', isWritten, p))
    (hsilent : ¬(isWritten = true ∧ share.HasTurn made)) :
    (reached f share out s made).step src f share =
      .ok (reached f share out s' (made ++ [(p, isWritten)])) := by
  cases isWritten with
  | false =>
    simp [step, reached, hnext, Point.reset_eq_empty, Script.emitted_concat, RunStats.ofScript]
  | true =>
    have hturn : ¬(Script.emitted made).length % share.groups = share.group := fun hturn =>
      hsilent ⟨rfl, hturn⟩
    simp [step, reached, hnext, Point.reset_eq_empty, Script.emitted_concat, RunStats.ofScript,
      writeTurn, passTurn, hturn, Share.deal_concat, Nat.ne_of_gt hpos]

/-- A step whose point is for the group to write adds it to the script if the output takes the
record, and ends the run if it does not. -/
theorem step_writes (hpos : 0 < share.groups) (made : Script) {out out' : ω} {isWhole : Bool}
    (hnext : src.next s .empty = .ok (s', isWritten, p)) (henc : f.Encodes p)
    (hturn : isWritten = true ∧ share.HasTurn made)
    (hwrite : Output.write out (f.recordOf p) = (out', isWhole)) :
    (reached f share out s made).step src f share =
      if isWhole then .ok (reached f share out' s' (made ++ [(p, isWritten)]))
      else .error ⟨s', out', .error (.write f.sinkError)⟩ := by
  obtain ⟨rfl, hturn⟩ := hturn
  have hp : f.encode p = .ok (f.recordOf p) := henc
  have hturn : (Script.emitted made).length % share.groups = share.group := hturn
  cases isWhole with
  | true =>
    have hturn' : ((Script.emitted made).length % share.groups + 1) % share.groups =
        ((Script.emitted made).length + 1) % share.groups := Nat.mod_add_mod ..
    rw [hturn] at hturn'
    simp [step, reached, hnext, Point.reset_eq_empty, Script.emitted_concat, RunStats.ofScript,
      writeTurn, passTurn, hturn, hturn', Format.write, hp, hwrite, Share.deal_concat,
      joined_append, Nat.ne_of_gt hpos]
  | false =>
    simp [step, reached, hnext, writeTurn, hturn, Format.write, hp, hwrite, fail]

/-- A step into an empty buffer adds what it made to the script, unless it breaks the run off. -/
theorem step_reached {Held Lost : ByteArray → ω → Prop} (htracks : Output.Tracks Held Lost)
    (hpos : 0 < share.groups) (base : ByteArray) (made : Script) {out : ω}
    (hout : Held (base ++ share.written f made) out)
    (hnext : src.next s .empty = .ok (s', isWritten, p))
    (henc : isWritten = true → f.Encodes p) :
    (∃ out', Held (base ++ share.written f (made ++ [(p, isWritten)])) out'
        ∧ (reached f share out s made).step src f share =
          .ok (reached f share out' s' (made ++ [(p, isWritten)])))
      ∨ isWritten = true ∧ share.HasTurn made
        ∧ ∃ out', Lost (base ++ share.written f (made ++ [(p, isWritten)])) out'
          ∧ (reached f share out s made).step src f share =
            .error ⟨s', out', .error (.write f.sinkError)⟩ := by
  by_cases hturn : isWritten = true ∧ share.HasTurn made
  · obtain ⟨out', isWhole, hwrite, hout'⟩ := htracks.write hout (f.recordOf p)
    have hstep := step_writes hpos made hnext (henc hturn.1) hturn hwrite
    rw [Share.written_concat f hturn, ← ByteArray.append_assoc]
    cases isWhole with
    | true => exact .inl ⟨out', hout', hstep⟩
    | false => exact .inr ⟨hturn.1, hturn.2, out', hout', hstep⟩
  · rw [Share.written_concat_silent f hturn]
    exact .inl ⟨out, hout, step_silent hpos made out hnext hturn⟩

end Steps

/-- How a run whose source takes a course reports on it. -/
def report (f : Format) (share : Share) (c : Course σ) : Except RunError RunStats :=
  match c.ending with
  | .finished => .ok (.ofScript f share c.made)
  | .stopped => .ok { RunStats.ofScript f share c.made with interrupted := true }
  | .fault e => .error (.fault e)

/-- The run ends with the first record that its output does not take: `before` is the script up to
there, and `base` what was written ahead of it. -/
structure Breaks (f : Format) (share : Share) (Held Lost : ByteArray → ω → Prop)
    (base : ByteArray) (before : Script) (p : Point) (e : RunEnd σ ω) : Prop where
  turn : share.HasTurn before
  held : ∃ out, Held (base ++ share.written f before) out
  lost : Lost (base ++ share.written f (before ++ [(p, true)])) e.output
  result : e.result = .error (.write f.sinkError)

/-- What a run that breaks off has lost, it has lost of all that it would have written. -/
theorem Breaks.lost_whole [Output ω] {Held Lost : ByteArray → ω → Prop}
    (htracks : Output.Tracks Held Lost) {f : Format} {share : Share} {base : ByteArray}
    {before made : Script} {p : Point} {e : RunEnd σ ω}
    (h : Breaks f share Held Lost base before p e) (hmade : before ++ [(p, true)] <+: made) :
    Lost (base ++ share.written f made) e.output := by
  obtain ⟨more, hmore⟩ := share.written_of_prefix f hmade
  rw [hmore, ← ByteArray.append_assoc]
  exact htracks.append h.lost more

/-- A run on an output that keeps track of what is written to it takes the course of its source to
the end, or breaks off on the way. -/
theorem loop_reached [Output ω] {Held Lost : ByteArray → ω → Prop}
    (htracks : Output.Tracks Held Lost) {src : Source σ} {f : Format} {share : Share}
    (stop : RunStats → Bool) (hpos : 0 < share.groups) (base : ByteArray) (steps : Nat) (s : σ)
    (made : Script) {out : ω} (hout : Held (base ++ share.written f made) out)
    (henc : ∀ p ∈ Script.emitted
      (src.course (fun made => stop (.ofScript f share made)) steps s made).made, f.Encodes p) :
    (∃ out', Held (base ++ share.written f
          (src.course (fun made => stop (.ofScript f share made)) steps s made).made) out'
        ∧ loop src f share stop steps (reached f share out s made) =
          ⟨(src.course (fun made => stop (.ofScript f share made)) steps s made).source, out',
            report f share
              (src.course (fun made => stop (.ofScript f share made)) steps s made)⟩)
      ∨ ∃ more p, made ++ more ++ [(p, true)] <+:
          (src.course (fun made => stop (.ofScript f share made)) steps s made).made
        ∧ src.play (more.length + 1) s = .ok (more ++ [(p, true)],
          (loop src f share stop steps (reached f share out s made)).source)
        ∧ Breaks f share Held Lost base (made ++ more) p
          (loop src f share stop steps (reached f share out s made)) := by
  induction steps generalizing s made out with
  | zero => exact .inl ⟨out, hout, rfl⟩
  | succ steps ih =>
    rw [Source.course] at henc ⊢
    rw [loop, show (reached f share out s made).source = s from rfl,
      show (reached f share out s made).stats = .ofScript f share made from rfl]
    split_ifs at henc ⊢ with hdone hstop
    · exact .inl ⟨out, hout, rfl⟩
    · exact .inl ⟨out, hout, rfl⟩
    · cases hnext : src.next s .empty with
      | error e =>
        refine .inl ⟨out, hout, ?_⟩
        simp only [step, reached, hnext]
        rfl
      | ok made₁ =>
        obtain ⟨s', isWritten, p⟩ := made₁
        simp only [hnext] at henc ⊢
        have hp : isWritten = true → f.Encodes p := by
          rintro rfl
          exact henc p (Source.mem_emitted_course (by simp))
        rcases step_reached htracks hpos base made hout hnext hp with
          ⟨out', hout', hstep⟩ | ⟨rfl, hturn, out', hout', hstep⟩
        · rw [hstep]
          rcases ih s' _ hout' henc with hend | ⟨more, q, hmade, hplay, hbreaks⟩
          · exact .inl hend
          · refine .inr ⟨(p, isWritten) :: more, q, ?_, Source.play_succ hnext hplay, ?_⟩
            · rwa [← List.append_cons] at hmade
            · rwa [← List.append_cons] at hbreaks
        · rw [hstep]
          refine .inr ⟨[], p, ?_, Source.play_succ hnext rfl, ?_⟩
          · rw [List.append_nil]
            exact Source.course_made src _ steps s' _
          · rw [List.append_nil]
            exact ⟨hturn, ⟨out, hout⟩, hout', rfl⟩

/-! ## Runs on an unlimited sink -/

/-- The state of a run that has made a script and written its share to a sink. -/
def after (f : Format) (share : Share) (out : Sink) (source : σ) (made : Script) :
    RunState σ Sink where
  source
  output := { out with
    received := out.received ++ joined ((share.deal (Script.emitted made)).map f.recordOf) }
  turn := (Script.emitted made).length % share.groups
  stats := .ofScript f share made

@[simp] theorem after_source (f : Format) (share : Share) (out : Sink) (s : σ) (made : Script) :
    (after f share out s made).source = s := rfl

theorem after_nil (f : Format) (share : Share) (out : Sink) (source : σ) :
    after f share out source [] = { source, output := out } := by
  simp [after, RunStats.ofScript, Script.emitted]

/-- A step into an empty buffer adds what it made to the script. -/
theorem step_after {src : Source σ} {f : Format} {share : Share} {out : Sink}
    (hcap : out.capacity = none) (hpos : 0 < share.groups) {s s' : σ} {isWritten : Bool}
    {p : Point} (made : Script) (hnext : src.next s .empty = .ok (s', isWritten, p))
    (henc : isWritten = true → f.Encodes p) :
    (after f share out s made).step src f share =
      .ok (after f share out s' (made ++ [(p, isWritten)])) := by
  rcases step_reached (Sink.tracks_unlimited hcap) hpos out.received made rfl hnext henc with
    ⟨out', rfl, hstep⟩ | ⟨-, -, out', hlost, -⟩
  · exact hstep
  · exact hlost.elim

/-- How a run ends whose source takes a course. -/
def ofCourse (f : Format) (share : Share) (out : Sink) (c : Course σ) : RunEnd σ Sink where
  source := c.source
  output := (after f share out c.source c.made).output
  result := report f share c

/-- On an unlimited sink a run writes its share of what its source makes, whatever that is. -/
theorem loop_after {src : Source σ} {f : Format} {share : Share} (stop : RunStats → Bool)
    {out : Sink} (hcap : out.capacity = none) (hpos : 0 < share.groups) (steps : Nat) (s : σ)
    (made : Script)
    (henc : ∀ p ∈ Script.emitted
      (src.course (fun made => stop (.ofScript f share made)) steps s made).made, f.Encodes p) :
    loop src f share stop steps (after f share out s made) =
      ofCourse f share out
        (src.course (fun made => stop (.ofScript f share made)) steps s made) := by
  rcases loop_reached (Sink.tracks_unlimited hcap) stop hpos out.received steps s made rfl henc
    with ⟨out', rfl, hloop⟩ | ⟨more, p, -, -, hbreaks⟩
  · exact hloop
  · exact hbreaks.lost.elim

theorem run_eq_ofCourse {src : Source σ} {f : Format} {share : Share} (stop : RunStats → Bool)
    {out : Sink} (hcap : out.capacity = none) (hpos : 0 < share.groups) (s : σ)
    (henc : ∀ p ∈ Script.emitted (src.course (fun made => stop (.ofScript f share made))
      (src.remaining s) s []).made, f.Encodes p) :
    run src f share stop s out =
      ofCourse f share out
        (src.course (fun made => stop (.ofScript f share made)) (src.remaining s) s []) := by
  rw [← loop_after stop hcap hpos _ s [] henc, after_nil]
  rfl

/-- A run of one group that comes to its end has found a record for every point. -/
theorem encodes_of_loop_ok {src : Source σ} {f : Format} {out : Sink}
    (hcap : out.capacity = none) (steps : Nat) (s : σ) (made : Script) {stats : RunStats}
    (hmade : ∀ p ∈ Script.emitted made, f.Encodes p)
    (h : (loop src f ⟨0, 1⟩ (fun _ => false) steps (after f ⟨0, 1⟩ out s made)).result =
      .ok stats) :
    ∀ p ∈ Script.emitted (src.course (fun _ => false) steps s made).made, f.Encodes p := by
  induction steps generalizing s made with
  | zero => exact hmade
  | succ steps ih =>
    rw [Source.course, if_neg Bool.false_ne_true]
    rw [loop, after_source, if_neg Bool.false_ne_true] at h
    split_ifs at h ⊢ with hdone
    · exact hmade
    · cases hnext : src.next s .empty with
      | error e =>
        simp [step, after, hnext, fail] at h
      | ok made₁ =>
        obtain ⟨s', isWritten, p⟩ := made₁
        have hp : isWritten = true → f.Encodes p := by
          rintro rfl
          cases henc : f.encode p with
          | ok record => simp [Format.Encodes, Format.recordOf, henc, Except.toOption]
          | error e =>
            simp [step, after, hnext, writeTurn, Nat.mod_one, Format.write, henc, fail] at h
        rw [step_after hcap Nat.one_pos made hnext hp] at h
        refine ih s' _ ?_ h
        rw [Script.emitted_concat]
        intro q hq
        rcases List.mem_append.mp hq with hq | hq
        · exact hmade q hq
        · cases isWritten with
          | false => simp at hq
          | true =>
            rw [if_pos rfl, List.mem_singleton] at hq
            exact hq ▸ hp rfl

/-! ## Termination -/

variable {ω : Type}

theorem source_passTurn {groups : Nat} {st st' : RunState σ ω}
    (h : st.passTurn groups = .ok st') : st'.source = st.source := by
  unfold passTurn at h
  split_ifs at h
  cases h
  rfl

variable [Output ω]

theorem source_writeTurn (f : Format) (group : Nat) (st : RunState σ ω) :
    (st.writeTurn f group).1.source = st.source := by
  unfold writeTurn
  split_ifs
  · split <;> rfl
  · rfl

/-- What is done with a point leaves the source alone. -/
theorem source_step {src : Source σ} {f : Format} {share : Share} {st st' : RunState σ ω}
    (h : st.step src f share = .ok st') :
    ∃ isWritten p, src.next st.source st.buffer = .ok (st'.source, isWritten, p) := by
  unfold step at h
  cases hnext : src.next st.source st.buffer with
  | error e => simp [hnext] at h
  | ok made =>
    obtain ⟨s', isWritten, p⟩ := made
    refine ⟨isWritten, p, ?_⟩
    suffices hsource : st'.source = s' by rw [hsource]
    cases isWritten with
    | false =>
      simp only [hnext, Bool.false_eq_true, if_false, Except.ok.injEq] at h
      rw [← h]
    | true =>
      simp only [hnext, if_true] at h
      split at h
      · cases h
      · rename_i st₁ hwrite
        have hsource₁ := source_writeTurn f share.group
          { st with source := s', buffer := p, stats.points := st.stats.points + 1 }
        rw [hwrite] at hsource₁
        split at h
        · cases h
        · rename_i st₂ hpass
          cases h
          exact (source_passTurn hpass).trans hsource₁

/-- Where every step leaves fewer steps to be made, a loop has the same end on any fuel that covers
the steps that remain. So it is the source that ends the loop, and not the fuel. -/
theorem loop_fuel {src : Source σ} {I : σ → Prop}
    (hstep : ∀ {s buffer s' isWritten p}, I s → src.remaining s ≠ 0 →
      src.next s buffer = .ok (s', isWritten, p) → I s' ∧ src.remaining s' < src.remaining s)
    (f : Format) (share : Share) (stop : RunStats → Bool) {st : RunState σ ω} (hst : I st.source)
    {fuel fuel' : Nat} (hle : src.remaining st.source ≤ fuel)
    (hle' : src.remaining st.source ≤ fuel') :
    loop src f share stop fuel st = loop src f share stop fuel' st := by
  induction fuel generalizing st fuel' with
  | zero =>
    have hdone : src.remaining st.source = 0 := Nat.le_zero.mp hle
    cases fuel' with
    | zero => rfl
    | succ fuel' => rw [loop, loop, if_pos hdone]
  | succ fuel ih =>
    by_cases hdone : src.remaining st.source = 0
    · cases fuel' with
      | zero => rw [loop, loop, if_pos hdone]
      | succ fuel' => rw [loop, loop, if_pos hdone, if_pos hdone]
    · obtain ⟨more, rfl⟩ : ∃ more, fuel' = more + 1 := Nat.exists_eq_succ_of_ne_zero (by omega)
      rw [loop, loop, if_neg hdone, if_neg hdone]
      split_ifs with hstop
      · rfl
      · cases hmade : st.step src f share with
        | error e => rfl
        | ok st' =>
          obtain ⟨isWritten, p, hnext⟩ := source_step hmade
          obtain ⟨hst', hlt⟩ := hstep hst hdone hnext
          exact ih hst' (by omega) (by omega)

end RunState

end SeriesLoad
