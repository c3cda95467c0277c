import SeriesLoad.Proofs.Query.Hosts
import SeriesLoad.Proofs.Query.Matching
import SeriesLoad.Proofs.Simulation.Schedule

/-!
# Points that a query selects

A query for documents is phrased apart from the points whose documents it is run on. **It selects
those points of a simulation that it is to select for what was drawn** (`queries_select_points`),
for hosts of any model and queries of any type.

Of the simulation this takes that points of the processor are plain: their keys differ and their
fields are doubles. That is so when a host is drawn (`HostModel.draw_plain`) and a tick does not
change it, because it moves values and clocks only (`Measurement.layout_tick`); so it holds in every
state that steps lead to (`Simulation.steps_plain`), also behind the last point to be made.
-/

namespace SeriesLoad

variable {γ : Type} [Words γ]

/-! ## Fields of the processor -/

/-- The names and kinds of the fields of a measurement. -/
def Measurement.layout (m : Measurement) : List (String × MetricKind) :=
  m.metrics.map fun metric => (metric.key, metric.kind)

/-- A measurement that is one of the processor has no field twice, and doubles in all of them. -/
def Measurement.Plain (m : Measurement) : Prop :=
  m.name = "cpu" → (m.layout.map (·.1)).Nodup ∧ ∀ field ∈ m.layout, field.2 = .float

theorem Metric.layout_advanceAll (ms : List Metric) (words : γ) :
    (((advanceAll ms).run words).1.map fun metric => (metric.key, metric.kind)) =
      ms.map fun metric => (metric.key, metric.kind) := by
  induction ms generalizing words with
  | nil => rfl
  | cons m rest ih =>
    rw [advanceAll_cons, List.map_cons, List.map_cons, ih]
    rfl

theorem Measurement.layout_tick {m m' : Measurement} {d : Span} {words words' : γ}
    (h : m.tick d words = .ok (m', words')) : m'.name = m.name ∧ m'.layout = m.layout := by
  obtain ⟨m₁, hclock, h⟩ := Except.bind_eq_ok.mp h
  unfold moveClock at hclock
  split at hclock
  · cases hclock
    unfold moveMetrics at h
    split_ifs at h
    cases h
    exact ⟨rfl, Metric.layout_advanceAll m.metrics words⟩
  · cases hclock

namespace Host

/-- All measurements of the host are plain. -/
def Plain (h : Host) : Prop := ∀ m ∈ h.measurements, m.Plain

theorem tickAll_plain {d : Span} {ms ms' : List Measurement} {words words' : γ}
    (h : tickAll d ms words = .ok (ms', words')) (hms : ∀ m ∈ ms, m.Plain) :
    ∀ m ∈ ms', m.Plain := by
  induction ms generalizing ms' words with
  | nil =>
    cases h
    exact hms
  | cons m rest ih =>
    obtain ⟨hm, hrest⟩ := List.forall_mem_cons.mp hms
    obtain ⟨⟨m₁, words₁⟩, htick, h⟩ := Except.bind_eq_ok.mp h
    obtain ⟨⟨rest₁, words₂⟩, hticks, h⟩ := Except.bind_eq_ok.mp h
    cases h
    obtain ⟨hname, hlayout⟩ := Measurement.layout_tick htick
    refine List.forall_mem_cons.mpr ⟨?_, ih hticks hrest⟩
    rw [Measurement.Plain, hname, hlayout]
    exact hm

theorem tick_plain {h h' : Host} {d : Span} {words words' : γ}
    (htick : h.tick d words = .ok (h', words')) (hh : h.Plain) : h'.Plain := by
  obtain ⟨⟨ms', words₁⟩, hticks, htick⟩ := Except.bind_eq_ok.mp htick
  cases htick
  exact tickAll_plain hticks hh

end Host

namespace HostModel

theorem nodup_fields (model : HostModel) : ∀ column ∈ model.columns, column.2.Nodup := by
  cases model <;> decide +kernel

theorem kinds_measurements (model : HostModel) (start : Instant) (words : γ) :
    (((model.measurements start).run words).1.all fun m =>
      m.name != "cpu" || m.metrics.all fun metric => metric.kind == .float) = true := by
  cases model <;> rfl

theorem draw_plain (model : HostModel) (index : Nat) (start : Instant) (words : γ) :
    ((model.draw index start).run words).1.Plain := by
  intro m hm hname
  rw [measurements_draw] at hm
  constructor
  · have hcolumn := List.mem_map_of_mem (f := Measurement.column) hm
    rw [columns_measurements] at hcolumn
    have hkeys : m.layout.map (·.1) = m.keys := by
      rw [Measurement.layout, List.map_map]
      rfl
    rw [hkeys]
    exact model.nodup_fields _ hcolumn
  · have hkinds := List.all_eq_true.mp (model.kinds_measurements start words) m hm
    rw [hname] at hkinds
    intro field hfield
    obtain ⟨metric, hmetric, rfl⟩ := List.mem_map.mp hfield
    simp only [bne_self_eq_false, Bool.false_or, List.all_eq_true, beq_iff_eq] at hkinds
    exact hkinds metric hmetric

end HostModel

/-! ## Points that are made -/

/-- A point that a simulation of the population makes in some step. -/
def Population.Makes (p : Population) (passes : Nat) (interval : Span) (words : γ) (q : Point) :
    Prop :=
  ∃ s₀ buffers s s' isWritten, Simulation.init p passes interval words = .ok s₀
    ∧ s₀.steps buffers = .ok s ∧ s.next .empty = .ok (s', isWritten, q)

namespace Simulation

variable {s s' : Simulation γ} {buffer q : Point} {isWritten : Bool}

/-- All measurements of all hosts are plain. -/
def Plain (s : Simulation γ) : Prop := ∀ h ∈ s.hosts.toList, h.Plain

theorem init_plain {p : Population} {passes : Nat} {interval : Span} {words : γ}
    (h : init p passes interval words = .ok s) : s.Plain := by
  obtain ⟨_, -, h⟩ := Except.bind_eq_ok.mp h
  obtain ⟨budget, -, h⟩ := Except.bind_eq_ok.mp h
  cases h
  exact drawHosts_forall (fun index words => p.model.draw_plain index p.start words) p.hosts 0
    words

theorem tickHosts_plain {d : Span} {hosts hosts' : List Host} {words words' : γ}
    (h : tickHosts d hosts words = .ok (hosts', words')) (hhosts : ∀ h ∈ hosts, h.Plain) :
    ∀ h ∈ hosts', h.Plain := by
  induction hosts generalizing hosts' words with
  | nil =>
    cases h
    exact hhosts
  | cons host rest ih =>
    obtain ⟨hhost, hrest⟩ := List.forall_mem_cons.mp hhosts
    obtain ⟨⟨host₁, words₁⟩, htick, h⟩ := Except.bind_eq_ok.mp h
    obtain ⟨⟨rest₁, words₂⟩, hticks, h⟩ := Except.bind_eq_ok.mp h
    cases h
    exact List.forall_mem_cons.mpr ⟨Host.tick_plain htick hhost, ih hticks hrest⟩

theorem settle_plain (h : s.settle = .ok s') (hs : s.Plain) : s'.Plain := by
  rcases settle_cases h with ⟨-, rfl⟩ | ⟨-, -, rfl⟩ | ⟨-, -, hosts, words, online, htick, -, rfl⟩
  · exact hs
  · exact hs
  · exact tickHosts_plain htick hs

/-- A step leaves its buffer as it is, or has a host fill it. -/
theorem next_plain (h : s.next buffer = .ok (s', isWritten, q)) (hs : s.Plain) :
    s'.Plain ∧ (q = buffer
      ∨ ∃ (host : Host) (index : Nat), host.Plain ∧ q = host.fill index buffer) := by
  obtain ⟨s₁, hsettle, h⟩ := Except.bind_eq_ok.mp h
  have hs₁ := settle_plain hsettle hs
  unfold emit at h
  cases hget : s₁.hosts[s₁.host]? with
  | none =>
    rw [hget] at h
    cases h
    exact ⟨hs₁, .inl rfl⟩
  | some host =>
    rw [hget] at h
    cases h
    exact ⟨hs₁, .inr ⟨host, s₁.pass,
      hs₁ host (Array.mem_toList_iff.mpr (Array.mem_of_getElem? hget)), rfl⟩⟩

theorem steps_plain {buffers : List Point} (h : s.steps buffers = .ok s') (hs : s.Plain) :
    s'.Plain := by
  induction buffers generalizing s with
  | nil =>
    cases h
    exact hs
  | cons buffer rest ih =>
    obtain ⟨⟨s₁, isWritten, q⟩, hnext, h⟩ := Except.bind_eq_ok.mp h
    exact ih h (next_plain hnext hs).1

end Simulation

theorem HostTags.nodup_toList (tags : HostTags) : (tags.toList.map (·.1)).Nodup := by
  have hkeys : tags.toList.map (·.1) = keys := rfl
  rw [hkeys]
  decide

/-- Without a measurement the tags alone are put into a point. -/
theorem Host.name_fill_of_none {h : Host} {index : Nat} (hm : h.measurements[index]? = none)
    (p : Point) : (h.fill index p).name = p.name := by
  simp only [fill, hm, Point.foldl_addTag]

/-- The sample of a plain measurement of the processor is plain. -/
theorem Host.plain_sample (h : Host) {m : Measurement} (hm : m.Plain) (hname : m.name = "cpu") :
    (h.sample m).Plain where
  tags := h.tags.nodup_toList
  fields := by
    have hkeys : m.fields.map (·.1) = m.layout.map (·.1) := by
      rw [Measurement.fields, Measurement.layout, List.map_map, List.map_map]
      rfl
    change (m.fields.map (·.1)).Nodup
    rw [hkeys]
    exact (hm hname).1
  floats := by
    intro field hfield
    obtain ⟨metric, hmetric, rfl⟩ := List.mem_map.mp hfield
    have hkind : metric.kind = .float :=
      (hm hname).2 (metric.key, metric.kind) (List.mem_map_of_mem hmetric)
    exact ⟨.ofFloat metric.distribution.value, by rw [Metric.value, hkind]⟩

/-- Points of the processor are plain when they are made. -/
theorem Population.Makes.plain {p : Population} {passes : Nat} {interval : Span} {words : γ}
    {q : Point} (h : p.Makes passes interval words q) (hname : q.name = "cpu") : q.Plain := by
  obtain ⟨s₀, buffers, s, s', isWritten, hinit, hsteps, hnext⟩ := h
  have hs := Simulation.steps_plain hsteps (Simulation.init_plain hinit)
  rcases (Simulation.next_plain hnext hs).2 with rfl | ⟨host, index, hhost, rfl⟩
  · exact absurd hname (by decide)
  · cases hm : host.measurements[index]? with
    | none =>
      rw [Host.name_fill_of_none hm] at hname
      exact absurd hname (by decide)
    | some m =>
      rw [Host.fill_empty hm] at hname ⊢
      exact host.plain_sample (hhost m (List.mem_of_getElem? hm)) hname

/-! ## Queries and documents -/

/-- A query over an interval whose bounds have counts of 64 bits selects, of the documents of all
points that simulations make, those of the points that it is to select for what was drawn. -/
theorem queries_select_points (database : String) {all : Interval} (hstart : all.start.InWord)
    (hstop : all.stop.InWord) (words : γ) (t : QueryType) (before : List Nat) (n : Nat)
    {x : Pipeline}
    (h : (Engine.start database all words : Engine γ Pipeline).answer t before n = .ok (.ok x)) :
    ∃ s, t.drawAfter all before n words = .ok (.ok s) ∧ t.Draws n s
      ∧ ∀ {δ : Type} [Words δ] (p : Population) (passes : Nat) (interval : Span) (words' : δ)
          (q : Point), p.Makes passes interval words' q →
          (x.selects (PointDocument.ofPoint q) = true ↔ t.Selects s q) := by
  obtain ⟨s, hdrawn, rfl⟩ := Engine.drawAfter_of_answer h
  obtain ⟨_, _, hdraw⟩ := QueryType.draw_of_drawAfter hdrawn
  obtain ⟨length, _, -, hwindow, -⟩ := QueryType.parts_of_draw hdraw
  obtain ⟨hfirst, hlast⟩ := Interval.bounds_of_randomWindow hstart hstop hwindow
  have hdraws := QueryType.draw_eq_ok hdraw
  refine ⟨s, hdrawn, hdraws, ?_⟩
  intro δ _ p passes interval words' q hmade
  have hselects := Pipeline.selects_fill (t := t) database hmade.plain hfirst hlast
  rwa [Pipeline.fill_empty database hdraws.picks] at hselects

/-- A query about one of two hosts, out of an interval of thirty hours, and the first point that two
hosts make. -/
theorem queries_select_points_two_hosts :
    let all : Interval := ⟨{ secs := 1451606400, nanos := 0 }, { secs := 1451714400, nanos := 0 }⟩
    ∃ x s q, all.start.InWord ∧ all.stop.InWord
      ∧ (Engine.start "benchmark" all (ChaCha.ofSeed 11) : Engine ChaCha Pipeline).answer
        (.highCpu 1) [] 2 = .ok (.ok x)
      ∧ Simulation.twoHosts.Makes 9 ⟨500000000⟩ (ChaCha.ofSeed 7) q
      ∧ (QueryType.highCpu 1).drawAfter all [] 2 (ChaCha.ofSeed 11) = .ok (.ok s)
      ∧ (x.selects (PointDocument.ofPoint q) = true ↔ (QueryType.highCpu 1).Selects s q) := by
  intro all
  have hall : all.Fits :=
    ⟨⟨by decide, by decide, by decide⟩, ⟨by decide, by decide, by decide⟩, by decide⟩
  have hroom : Draw.requireSampleable 2 1 = .ok () := by rfl
  have hpossible : (QueryType.highCpu 1).Possible all 2 := ⟨by decide, by decide⟩
  have hread : Span.read? "500ms" = some ⟨500000000⟩ := by decide
  have hschedulable : Simulation.twoHosts.Schedulable 9 ⟨500000000⟩ :=
    Population.schedulable_of_last (by decide) hread (by decide) (by decide) (by decide)
      (by decide) (by decide)
  obtain ⟨s₀, hinit, hstands, hmade, -⟩ :=
    Simulation.init_stands hschedulable (ChaCha.ofSeed 7)
  obtain ⟨-, -, host, m, -, s', isWritten, -, -, -, -, -, -, hnext, -⟩ :=
    Simulation.next_sample hschedulable hstands (by
      rw [hmade, hstands.budget_eq]
      decide)
  have hmakes : Simulation.twoHosts.Makes 9 ⟨500000000⟩ (ChaCha.ofSeed 7) (host.sample m) :=
    ⟨s₀, [], s₀, s', isWritten, hinit, rfl, hnext⟩
  rcases QueryType.draw_cases hall (t := .highCpu 1) trivial 2 (ChaCha.ofSeed 11) with
    ⟨f, -, hfault⟩ | ⟨hnot, -⟩ | ⟨-, s, words', hdraw, -, -⟩
  · rw [QueryType.hostCount, hroom] at hfault
    cases hfault
  · exact absurd hpossible hnot
  · have hdrawn : (QueryType.highCpu 1).drawAfter all [] 2 (ChaCha.ofSeed 11) = .ok (.ok s) := by
      rw [QueryType.drawAfter, hdraw]
      rfl
    have hanswer : (Engine.start "benchmark" all (ChaCha.ofSeed 11) :
        Engine ChaCha Pipeline).answer (.highCpu 1) [] 2 =
        .ok (.ok (Pipeline.asking "benchmark" ((QueryType.highCpu 1).question s))) := by
      rw [Engine.answer_start, Engine.answerFresh_eq]
      change ((QueryType.highCpu 1).drawAfter all [] 2 (ChaCha.ofSeed 11)).map _ = _
      rw [hdrawn]
      rfl
    obtain ⟨s₁, hdrawn₁, -, hselects⟩ :=
      queries_select_points "benchmark" (by decide) (by decide) (ChaCha.ofSeed 11) (.highCpu 1) []
        2 hanswer
    exact ⟨_, s₁, _, by decide, by decide, hanswer, hmakes, hdrawn₁,
      hselects _ _ _ _ _ hmakes⟩

end SeriesLoad
