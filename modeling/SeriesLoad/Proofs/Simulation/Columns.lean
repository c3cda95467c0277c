import SeriesLoad.Proofs.Random.Draws
import SeriesLoad.Proofs.Text.Plain
import SeriesLoad.Simulation

/-!
# What hosts report

All hosts of a model report the same columns: which measurements there are, and which fields each of
them has, depends neither on the random numbers nor on how often a host ticked. `HostModel.columns`
is the table.

`Host.Reports` is the invariant of a host. It adds what a tick needs: all measurements stand at the
same time, and all their metrics can be moved. **A tick moves hosts on to the next time whenever
there is one** (`tickHosts_reports`), and keeps their tags.
-/

namespace SeriesLoad

/-- The name of a measurement and its fields. -/
def Measurement.column (m : Measurement) : String × List String := (m.name, m.keys)

/-- What a host of a model reports, in the order of its measurements. -/
def HostModel.columns : HostModel → List (String × List String)
  | .cpuOnly => [("cpu", Metric.Cpu.keys)]
  | .cpuSingle => [("cpu", ["usage_user"])]
  | .devops =>
    [("cpu", Metric.Cpu.keys),
     ("diskio",
      ["reads", "writes", "read_bytes", "write_bytes", "read_time", "write_time", "io_time"]),
     ("disk",
      ["total", "free", "used", "used_percent", "inodes_total", "inodes_free", "inodes_used"]),
     ("kernel",
      ["boot_time", "interrupts", "context_switches", "processes_forked", "disk_pages_in",
       "disk_pages_out"]),
     ("mem",
      ["total", "available", "used", "free", "cached", "buffered", "used_percent",
       "available_percent", "buffered_percent"]),
     ("net",
      ["bytes_sent", "bytes_recv", "packets_sent", "packets_recv", "err_in", "err_out", "drop_in",
       "drop_out"]),
     ("nginx", ["accepts", "active", "handled", "reading", "requests", "waiting", "writing"]),
     ("postgresl",
      ["numbackends", "xact_commit", "xact_rollback", "blks_read", "blks_hit", "tup_returned",
       "tup_fetched", "tup_inserted", "tup_updated", "tup_deleted", "conflicts", "temp_files",
       "temp_bytes", "deadlocks", "blk_read_time", "blk_write_time"]),
     ("redis",
      ["uptime_in_seconds", "total_connections_received", "expired_keys", "evicted_keys",
       "keyspace_hits", "keyspace_misses", "instantaneous_ops_per_sec",
       "instantaneous_input_kbps", "instantaneous_output_kbps", "connected_clients",
       "used_memory", "rdb_changes_since_last_save", "sync_full", "sync_partial_ok",
       "sync_partial_err", "pubsub_channels", "pubsub_patterns", "latest_fork_usec",
       "connected_slaves", "master_repl_offset", "mem_fragmentation_ratio", "used_cpu_sys",
       "used_cpu_user"])]

/-- The fields have the keys of the metrics. -/
theorem Measurement.map_fst_fields (m : Measurement) : m.fields.map (·.1) = m.keys := by
  rw [fields, List.map_map]
  rfl

theorem HostTags.isName_keys : ∀ key ∈ keys, Text.isName key.toList = true := by decide

theorem HostModel.isName_columns (model : HostModel) :
    ∀ column ∈ model.columns, ∀ word ∈ column.1 :: column.2,
      Text.isName word.toList = true := by
  cases model <;> decide +kernel

theorem HostModel.length_columns (model : HostModel) : model.columns.length = model.passes := by
  cases model <;> rfl

variable {γ : Type} [Words γ]

/-! ## Metrics -/

theorem Distribution.isDrawable_advance (d : Distribution) (words : γ) :
    (d.advance.run words).1.isDrawable = d.isDrawable := by
  cases d <;> rfl

namespace Metric

theorem advanceAll_cons (m : Metric) (rest : List Metric) (words : γ) :
    ((advanceAll (m :: rest)).run words).1 =
      (m.advance.run words).1 :: ((advanceAll rest).run (m.advance.run words).2).1 := by
  rw [advanceAll, Draw.run_bind, Draw.run_bind, Draw.run_pure]

theorem key_advance (m : Metric) (words : γ) : (m.advance.run words).1.key = m.key := by
  rw [advance, Draw.run_bind, Draw.run_pure]

theorem isDrawable_advance (m : Metric) (words : γ) :
    (m.advance.run words).1.distribution.isDrawable = m.distribution.isDrawable :=
  m.distribution.isDrawable_advance words

theorem keys_advanceAll (ms : List Metric) (words : γ) :
    ((advanceAll ms).run words).1.map (·.key) = ms.map (·.key) := by
  induction ms generalizing words with
  | nil => rfl
  | cons m rest ih => rw [advanceAll_cons, List.map_cons, List.map_cons, key_advance, ih]

theorem all_isDrawable_advanceAll (ms : List Metric) (words : γ) :
    (((advanceAll ms).run words).1.all fun m => m.distribution.isDrawable) =
      ms.all fun m => m.distribution.isDrawable := by
  induction ms generalizing words with
  | nil => rfl
  | cons m rest ih => rw [advanceAll_cons, List.all_cons, List.all_cons, isDrawable_advance, ih]

end Metric

/-! ## Measurements -/

namespace Measurement

/-- The measurement stands at a time, and can be ticked as long as there is a time to go to. -/
structure Ready (t : Instant) (m : Measurement) : Prop where
  time : m.time = t
  drawable : (m.metrics.all fun metric => metric.distribution.isDrawable) = true

theorem tick_ready {m : Measurement} {t t' : Instant} {d : Span} (h : m.Ready t)
    (hadd : t.add? d = some t') (words : γ) :
    ∃ m' words', m.tick d words = .ok (m', words') ∧ m'.column = m.column ∧ m'.Ready t' := by
  have hdrawable := h.drawable
  refine ⟨⟨m.name, t', ((Metric.advanceAll m.metrics).run words).1⟩,
    ((Metric.advanceAll m.metrics).run words).2, ?_, ?_, rfl, ?_⟩
  · simp only [tick, moveClock, h.time, hadd, bind, Except.bind, moveMetrics, hdrawable, if_true]
    rfl
  · exact congrArg (Prod.mk m.name) (Metric.keys_advanceAll m.metrics words)
  · exact (Metric.all_isDrawable_advanceAll m.metrics words).trans hdrawable

end Measurement

/-! ## Hosts -/

namespace Host

/-- The host reports the columns of a model, and all its measurements are ready at a time. -/
structure Reports (model : HostModel) (t : Instant) (h : Host) : Prop where
  columns : h.measurements.map Measurement.column = model.columns
  ready : ∀ m ∈ h.measurements, m.Ready t

theorem tickAll_ready {t t' : Instant} {d : Span} (hadd : t.add? d = some t')
    {ms : List Measurement} (h : ∀ m ∈ ms, m.Ready t) (words : γ) :
    ∃ ms' words', tickAll d ms words = .ok (ms', words')
      ∧ ms'.map Measurement.column = ms.map Measurement.column ∧ ∀ m ∈ ms', m.Ready t' := by
  induction ms generalizing words with
  | nil => exact ⟨[], words, rfl, rfl, by simp⟩
  | cons m rest ih =>
    obtain ⟨hm, hrest⟩ := List.forall_mem_cons.mp h
    obtain ⟨m', words₁, htick, hcolumn, hready⟩ := Measurement.tick_ready hm hadd words
    obtain ⟨rest', words₂, htickAll, hcolumns, hreadyAll⟩ := ih hrest words₁
    refine ⟨m' :: rest', words₂, ?_, ?_, List.forall_mem_cons.mpr ⟨hready, hreadyAll⟩⟩
    · simp only [tickAll, htick, htickAll, bind, Except.bind]
    · rw [List.map_cons, List.map_cons, hcolumn, hcolumns]

theorem tick_reports {model : HostModel} {t t' : Instant} {d : Span} (hadd : t.add? d = some t')
    {h : Host} (hh : h.Reports model t) (words : γ) :
    ∃ h' words', h.tick d words = .ok (h', words') ∧ h'.tags = h.tags ∧ h'.Reports model t' := by
  obtain ⟨ms', words', htick, hcolumns, hready⟩ := tickAll_ready hadd hh.ready words
  refine ⟨{ h with measurements := ms' }, words', ?_, rfl, hcolumns.trans hh.columns, hready⟩
  simp only [tick, htick, bind, Except.bind]

theorem Reports.length {model : HostModel} {t : Instant} {h : Host} (hh : h.Reports model t) :
    h.measurements.length = model.passes := by
  rw [← model.length_columns, ← hh.columns, List.length_map]

/-- A measurement of the host has a column of the model. -/
theorem Reports.column {model : HostModel} {t : Instant} {h : Host} (hh : h.Reports model t)
    (index : Nat) :
    h.measurements[index]?.map Measurement.column = model.columns[index]? := by
  rw [← hh.columns, List.getElem?_map]

end Host

/-! ## New hosts -/

theorem HostTags.hostname_draw (index : Nat) (words : γ) :
    ((draw index).run words).1.hostname = nameOf index := by
  simp only [draw, Draw.run_bind, Draw.run_pure]

namespace HostModel

theorem columns_measurements (model : HostModel) (start : Instant) (words : γ) :
    ((model.measurements start).run words).1.map Measurement.column = model.columns := by
  cases model <;> rfl

theorem times_measurements (model : HostModel) (start : Instant) (words : γ) :
    ((model.measurements start).run words).1.map (·.time) =
      List.replicate model.passes start := by
  cases model <;> rfl

theorem drawable_measurements (model : HostModel) (start : Instant) (words : γ) :
    (((model.measurements start).run words).1.all fun m =>
      m.metrics.all fun metric => metric.distribution.isDrawable) = true := by
  cases model <;> rfl

theorem measurements_draw (model : HostModel) (index : Nat) (start : Instant) (words : γ) :
    ((model.draw index start).run words).1.measurements =
      ((model.measurements start).run words).1 := by
  rw [draw, Draw.run_bind, Draw.run_bind, Draw.run_pure]

theorem tags_draw (model : HostModel) (index : Nat) (start : Instant) (words : γ) :
    ((model.draw index start).run words).1.tags =
      ((HostTags.draw index).run ((model.measurements start).run words).2).1 := by
  rw [draw, Draw.run_bind, Draw.run_bind, Draw.run_pure]

theorem draw_reports (model : HostModel) (index : Nat) (start : Instant) (words : γ) :
    ((model.draw index start).run words).1.Reports model start := by
  refine ⟨?_, fun m hm => ⟨?_, ?_⟩⟩
  · rw [measurements_draw, columns_measurements]
  · rw [measurements_draw] at hm
    have := List.mem_map_of_mem (f := (·.time)) hm
    rw [times_measurements] at this
    exact List.eq_of_mem_replicate this
  · rw [measurements_draw] at hm
    exact List.all_eq_true.mp (drawable_measurements model start words) m hm

end HostModel

namespace Simulation

theorem drawHosts_succ (model : HostModel) (start : Instant) (more index : Nat) (words : γ) :
    ((drawHosts model start (more + 1) index).run words).1 =
      ((model.draw index start).run words).1 ::
        ((drawHosts model start more (index + 1)).run
          ((model.draw index start).run words).2).1 := by
  rw [drawHosts, Draw.run_bind, Draw.run_bind, Draw.run_pure]

theorem length_drawHosts (model : HostModel) (start : Instant) (more index : Nat) (words : γ) :
    ((drawHosts model start more index).run words).1.length = more := by
  induction more generalizing index words with
  | zero => rfl
  | succ more ih => rw [drawHosts_succ, List.length_cons, ih]

/-- What is true of every host that is drawn is true of all of them. -/
theorem drawHosts_forall {P : Host → Prop} {model : HostModel} {start : Instant}
    (h : ∀ index (words : γ), P ((model.draw index start).run words).1) (more index : Nat)
    (words : γ) : ∀ host ∈ ((drawHosts model start more index).run words).1, P host := by
  induction more generalizing index words with
  | zero => exact fun host hhost => absurd hhost List.not_mem_nil
  | succ more ih =>
    rw [drawHosts_succ]
    exact List.forall_mem_cons.mpr ⟨h index words, ih _ _⟩

theorem drawHosts_reports (model : HostModel) (start : Instant) (more index : Nat) (words : γ) :
    ∀ h ∈ ((drawHosts model start more index).run words).1, h.Reports model start :=
  drawHosts_forall (fun index words => model.draw_reports index start words) more index words

/-- Hosts are named by their indices. -/
theorem hostname_drawHosts (model : HostModel) (start : Instant) (more index : Nat) (words : γ)
    (i : Nat) {h : Host} (hh : ((drawHosts model start more index).run words).1[i]? = some h) :
    h.tags.hostname = HostTags.nameOf (index + i) := by
  induction more generalizing index words i with
  | zero => cases hh
  | succ more ih =>
    rw [drawHosts_succ] at hh
    cases i with
    | zero =>
      rw [List.getElem?_cons_zero, Option.some_inj] at hh
      rw [← hh, model.tags_draw, HostTags.hostname_draw, Nat.add_zero]
    | succ i =>
      rw [List.getElem?_cons_succ] at hh
      rw [ih _ _ i hh, Nat.add_right_comm, Nat.add_assoc]

theorem tickHosts_reports {model : HostModel} {t t' : Instant} {d : Span}
    (hadd : t.add? d = some t') {hosts : List Host} (h : ∀ h ∈ hosts, h.Reports model t)
    (words : γ) :
    ∃ hosts' words', tickHosts d hosts words = .ok (hosts', words')
      ∧ hosts'.map (·.tags) = hosts.map (·.tags) ∧ ∀ h ∈ hosts', h.Reports model t' := by
  induction hosts generalizing words with
  | nil => exact ⟨[], words, rfl, rfl, by simp⟩
  | cons host rest ih =>
    obtain ⟨hhost, hrest⟩ := List.forall_mem_cons.mp h
    obtain ⟨host', words₁, htick, htags, hreports⟩ := Host.tick_reports hadd hhost words
    obtain ⟨rest', words₂, htickAll, htagsAll, hreportsAll⟩ := ih hrest words₁
    refine ⟨host' :: rest', words₂, ?_, ?_, List.forall_mem_cons.mpr ⟨hreports, hreportsAll⟩⟩
    · simp only [tickHosts, htick, htickAll, bind, Except.bind]
    · rw [List.map_cons, List.map_cons, htags, htagsAll]

end Simulation

end SeriesLoad
