import SeriesLoad.Proofs.Random.Draws
import SeriesLoad.Proofs.Run.Interrupted
import SeriesLoad.Proofs.Table.Preamble

/-!
# Tables describe themselves

Field names are not repeated in the rows of the table format, so three things have to agree for
every host in every epoch: the tag keys and columns of the preamble, which are taken from the first
host, the tags that a host was drawn with, and the fields that it reports. **They do, and the reader
of `Proofs.Table.Reader` gets back from the output of any accepted job the points it wrote**
(`table_reads_back`).

What is needed beside the columns of `HostModel.columns` is that no word breaks its cell: names are
made of letters, digits and underscores, tags are drawn from lists of plain words, and values are
numbers.
-/

namespace SeriesLoad

variable {γ : Type} [Words γ]

/-! ## Tags are plain -/

namespace HostTags

theorem isPlain_regions : ∀ region ∈ firstRegion :: otherRegions,
    Text.isPlain region.name.toList = true
      ∧ ∀ datacenter ∈ region.first :: region.others, Text.isPlain datacenter.toList = true := by
  decide +kernel

theorem isPlain_nameOf (index : Nat) : Text.isPlain (nameOf index).toList = true := by
  rw [nameOf, String.toList_append]
  exact Text.isPlain_append.mpr ⟨by decide, Text.isPlain_repr index⟩

/-- The values of tags that were drawn are plain. -/
theorem isPlain_draw (index : Nat) (words : γ) :
    ∀ v ∈ ((draw index).run words).1.values, Text.isPlain v.toList = true := by
  have hchoice : ∀ {first : String} {rest : List String},
      (∀ v ∈ first :: rest, Text.isPlain v.toList = true) → ∀ words : γ,
      Text.isPlain ((Draw.choose first rest).run words).1.toList = true :=
    fun h words => h _ (Draw.mem_choose _ _ words)
  simp only [draw, Draw.run_bind, Draw.run_pure, values, List.forall_mem_cons]
  refine ⟨isPlain_nameOf index, (isPlain_regions _ (getD_mem_cons _ _ _)).1,
    hchoice (isPlain_regions _ (getD_mem_cons _ _ _)).2 _, Text.isPlain_repr _,
    hchoice (by decide) _, hchoice (by decide) _, hchoice (by decide) _, Text.isPlain_repr _,
    Text.isPlain_repr _, hchoice (by decide) _, by simp⟩

end HostTags

theorem Population.isPlain_hostTags (p : Population) (words : γ) :
    ∀ t ∈ p.hostTags words, ∀ v ∈ t.values, Text.isPlain v.toList = true := by
  intro t ht
  obtain ⟨host, hhost, rfl⟩ := List.mem_map.mp ht
  refine Simulation.drawHosts_forall
    (P := fun host => ∀ v ∈ host.tags.values, Text.isPlain v.toList = true)
    (fun index words => ?_) p.hosts 0 words host hhost
  rw [p.model.tags_draw]
  exact HostTags.isPlain_draw index _

/-! ## Schemas -/

namespace Schema

theorem insert_of_not_mem {name : String} {keys : List String} {s : Schema}
    (h : name ∉ s.map (·.1)) : s.insert name keys = s ++ [(name, keys)] := by
  induction s with
  | nil => rfl
  | cons entry rest ih =>
    rw [List.map_cons, List.mem_cons, not_or] at h
    rw [insert, if_neg (Ne.symm h.1), ih h.2, List.cons_append]

/-- Entries with different names make a schema of just these entries. -/
theorem ofEntries_of_nodup {entries : List (String × List String)}
    (h : (entries.map (·.1)).Nodup) : ofEntries entries = entries := by
  induction entries using List.reverseRecOn with
  | nil => rfl
  | append_singleton rest entry ih =>
    rw [List.map_append, List.map_singleton, List.nodup_append] at h
    obtain ⟨hrest, -, hne⟩ := h
    rw [ofEntries, List.foldl_append, ← ofEntries, ih hrest]
    refine insert_of_not_mem fun hmem => ?_
    exact hne _ hmem _ List.mem_cons_self rfl

end Schema

theorem HostModel.nodup_columns (model : HostModel) : (model.columns.map (·.1)).Nodup := by
  cases model <;> decide

theorem HostModel.name_ne_empty (model : HostModel) : ∀ column ∈ model.columns, column.1 ≠ "" := by
  cases model <;> decide

theorem Host.Reports.schema_eq {model : HostModel} {t : Instant} {h : Host}
    (hh : h.Reports model t) : h.schema = model.columns := by
  have hcolumns : (h.measurements.map fun m => (m.name, m.keys)) = model.columns := hh.columns
  rw [Host.schema, hcolumns, Schema.ofEntries_of_nodup model.nodup_columns]

/-! ## Samples fit under the preamble -/

/-- The keys of the tags are the same for all hosts. -/
theorem HostTags.map_fst_toList (t : HostTags) : t.toList.map (·.1) = keys :=
  List.map_fst_zip (by simp [keys, values])

namespace HostModel.Samples

variable {model : HostModel} {tags : List HostTags} {q : Point}

theorem isPlain_text (h : model.Samples tags q) :
    ∀ field ∈ q.fields.toList, Text.isPlain field.2.text.toList = true := by
  intro field hfield
  rcases h.values field hfield with ⟨x, hx⟩ | ⟨n, hn⟩
  · rw [hx]
    exact FieldValue.isPlain_text_float x
  · rw [hn]
    exact FieldValue.isPlain_text_int n

/-- A sample of a host with plain tags fits under the preamble of its model. -/
theorem fits (h : model.Samples tags q)
    (hplain : ∀ t ∈ tags, ∀ v ∈ t.values, Text.isPlain v.toList = true) :
    Table.Fits HostTags.keys (Schema.sorted model.columns) q := by
  obtain ⟨t, ht, htags⟩ := h.tags_eq
  refine ⟨by rw [htags, t.map_fst_toList], ?_, ?_, ?_, h.isPlain_text⟩
  · exact Schema.lookup_of_mem (Schema.nodup_sorted model.nodup_columns)
      (List.mem_mergeSort.mpr h.column)
  · exact Text.isPlain_of_isName (model.isName_columns _ h.column _ List.mem_cons_self)
  · intro tag htag
    rw [htags] at htag
    obtain ⟨hkey, hvalue⟩ := List.of_mem_zip htag
    have hname := HostTags.isName_keys _ hkey
    exact ⟨Text.isPlain_of_isName hname, Text.not_mem_of_isName hname (by decide),
      hplain t ht _ hvalue⟩

end HostModel.Samples

/-! ## The output of a job -/

namespace DataJob

/-- The schema of an accepted job is the table of its model, unless there are no hosts. -/
theorem IsSet.schema_eq {clock : UInt64} {st : DataSettings} {j : DataJob}
    (h : j.IsSet clock st) {s : Simulation ChaCha} (hs : j.simulation = .ok s) :
    (s.schema = [] ∧ j.hostTags = []) ∨ s.schema = j.population.model.columns := by
  obtain ⟨hstands, -, hepoch⟩ := h.stands hs
  have hhosts := hstands.hosts_eq
  rw [hepoch, Population.hostsAt, Except.ok.injEq] at hhosts
  have hlist : ((Simulation.drawHosts j.population.model j.population.start j.population.hosts
      0).run (ChaCha.ofSeed j.seed)).1 = s.hosts.toList := by rw [hhosts]
  cases hfirst : s.hosts[0]? with
  | none =>
    left
    have hempty : s.hosts = #[] := Array.size_eq_zero_iff.mp (by simpa using hfirst)
    refine ⟨by rw [Simulation.schema, hfirst], ?_⟩
    rw [hostTags, Population.hostTags, hlist, hempty]
    rfl
  | some host =>
    right
    have hmem : host ∈ s.hosts.toList := by
      rw [← Array.getElem?_toList] at hfirst
      exact List.mem_of_getElem? hfirst
    rw [← hlist] at hmem
    rw [Simulation.schema, hfirst]
    exact (Simulation.drawHosts_reports _ _ _ _ _ host hmem).schema_eq

theorem IsSet.nodup_schema {clock : UInt64} {st : DataSettings} {j : DataJob}
    (h : j.IsSet clock st) {s : Simulation ChaCha} (hs : j.simulation = .ok s) :
    (s.schema.map (·.1)).Nodup := by
  rcases h.schema_eq hs with ⟨hnil, -⟩ | hcolumns
  · rw [hnil]
    exact List.nodup_nil
  · rw [hcolumns]
    exact j.population.model.nodup_columns

/-- The points of an accepted job fit under its preamble. -/
theorem IsSet.fits {clock : UInt64} {st : DataSettings} {j : DataJob} (h : j.IsSet clock st)
    {s : Simulation ChaCha} (hs : j.simulation = .ok s) {q : Point}
    (hq : j.population.model.Samples j.hostTags q) :
    Table.Fits HostTags.keys s.schema.sorted q := by
  rcases h.schema_eq hs with ⟨-, hnil⟩ | hcolumns
  · obtain ⟨t, ht, -⟩ := hq.tags_eq
    rw [hnil] at ht
    cases ht
  · rw [hcolumns]
    exact hq.fits (j.population.isPlain_hostTags (ChaCha.ofSeed j.seed))

theorem IsSet.plain_schema {clock : UInt64} {st : DataSettings} {j : DataJob}
    (h : j.IsSet clock st) {s : Simulation ChaCha} (hs : j.simulation = .ok s) :
    ∀ entry ∈ s.schema, entry.1 ≠ "" ∧ Text.isPlain entry.1.toList = true
      ∧ ∀ key ∈ entry.2, Text.isPlain key.toList = true := by
  rcases h.schema_eq hs with ⟨hnil, -⟩ | hcolumns
  · rw [hnil]
    simp
  · rw [hcolumns]
    intro entry hentry
    have hwords := List.forall_mem_cons.mp (j.population.model.isName_columns entry hentry)
    exact ⟨j.population.model.name_ne_empty entry hentry, Text.isPlain_of_isName hwords.1,
      fun key hkey => Text.isPlain_of_isName (hwords.2 key hkey)⟩

/-- The records of points are the bytes of their lines. -/
theorem joined_recordOf (points : List Point) :
    joined (points.map Format.timescaledb.recordOf) =
      (String.ofList (points.flatMap TagRow.chars)).toUTF8 :=
  joined_toUTF8 TagRow.chars points

/-- The run of an accepted job makes the steps of its simulation ahead of the first check that says
to halt, and writes its share of what they make. -/
theorem IsSet.run_eq {clock : UInt64} {st : DataSettings} {j : DataJob} (h : j.IsSet clock st)
    {s : Simulation ChaCha} (hs : j.simulation = .ok s) (stop : RunStats → Bool) (out : Sink)
    (hcap : out.capacity = none) :
    ∃ whole last made s' stats, Simulation.source.play whole.length s = .ok (whole, last)
      ∧ last.finished = true
      ∧ whole.HaltsAt (fun made => stop (.ofScript j.format j.share made)) stats.points
      ∧ made = whole.take stats.points
      ∧ Simulation.source.play stats.points s = .ok (made, s')
      ∧ run Simulation.source j.format j.share stop s out =
        ⟨s', { out with received :=
          out.received ++ joined ((j.share.deal (Script.emitted made)).map j.format.recordOf) },
          .ok stats⟩
      ∧ stats.written = (j.share.deal (Script.emitted made)).length
      ∧ ∀ q ∈ Script.emitted made, j.population.model.Samples j.hostTags q := by
  obtain ⟨hsamples, hfault⟩ :=
    h.course hs (fun made => stop (.ofScript j.format j.share made)) s.remaining
  have hplay := Simulation.source.play_course_made
    (fun made => stop (.ofScript j.format j.share made)) s.remaining s
  -- the course without a flag, which the run goes along with
  have hwhole := Simulation.source.play_course_made (fun _ => false) s.remaining s
  obtain ⟨hending, hlast⟩ := h.course_finished hs
  have hfollows := Source.course_follows (fun made => stop (.ofScript j.format j.share made))
    s.remaining s [] hending
  generalize Simulation.source.course (fun _ => false) s.remaining s [] = whole
    at hwhole hlast hfollows
  rw [h.run_eq_ofCourse hs j.share (Nat.zero_lt_of_lt h.share_lt) stop out hcap]
  generalize Simulation.source.course _ s.remaining s [] = c at hsamples hfault hplay hfollows ⊢
  obtain ⟨made, s', ending⟩ := c
  have htake := List.prefix_iff_eq_take.mp hfollows.made
  have hhalts := hfollows.haltsAt
  simp only at hplay hsamples hfault htake hhalts
  have hemitted : ∀ q ∈ Script.emitted made, j.population.model.Samples j.hostTags q :=
    fun q hq => hsamples _ (Script.mem_emitted.mp hq)
  cases ending with
  | finished =>
    exact ⟨whole.made, whole.source, made, s', .ofScript j.format j.share made, hwhole, hlast,
      hhalts, htake, hplay, rfl, rfl, hemitted⟩
  | stopped =>
    exact ⟨whole.made, whole.source, made, s',
      { RunStats.ofScript j.format j.share made with interrupted := true }, hwhole, hlast, hhalts,
      htake, hplay, rfl, rfl, hemitted⟩
  | fault e => exact absurd rfl (hfault e)

/-- What a job of the table format writes describes itself. Wherever it is told to stop, it makes
the steps of its simulation ahead of the first check that sees the flag, and its output is read back
as a table that has the columns of the simulation in the order of their names and a record for each
point of the group's share of these steps, in order: the tags of the point under the tag keys of the
preamble, and its fields, in their order, under the columns of its measurement. -/
theorem table_reads_back {clock : UInt64} {st : DataSettings} {j : DataJob}
    (h : ofSettings clock st = .ok j) (hformat : j.format = .timescaledb)
    (stop : RunStats → Bool) :
    ((roomLimit < j.population.hosts ∨ 2 ^ 64 ≤ j.steps)
      ∧ ∃ e, j.generate stop ({} : Sink) = .error e)
    ∨ ∃ s whole last s' made stats text, j.simulation = .ok s
      ∧ Simulation.source.play whole.length s = .ok (whole, last) ∧ last.finished = true
      ∧ whole.HaltsAt (fun made => stop (.ofScript j.format j.share made)) stats.points
      ∧ made = whole.take stats.points
      ∧ j.generate stop ({} : Sink) = .ok ⟨s', { received := String.toUTF8 text }, .ok stats⟩
      ∧ Simulation.source.play stats.points s = .ok (made, s')
      ∧ stats.written = (j.share.deal (Script.emitted made)).length
      ∧ s.schema.sorted.Pairwise (fun a b => a.1 < b.1)
      ∧ Table.read? text.toList = some
        { tagKeys := HostTags.keys
          columns := s.schema.sorted
          rows := (j.share.deal (Script.emitted made)).map Table.Row.ofPoint } := by
  have hset := ofSettings_eq_ok.mp h
  rcases j.simulation_cases with ⟨-, s, hs⟩ | ⟨hout, e, he⟩
  · right
    obtain ⟨whole, last, made, s', stats, hwhole, hlast, hhalts, htake, hplay, hrun, hwritten,
      hsamples⟩ := hset.run_eq hs stop { received := j.preamble s } rfl
    refine ⟨s, whole, last, s', made, stats, String.ofList (s.schema.preambleChars
      ++ (j.share.deal (Script.emitted made)).flatMap TagRow.chars), hs, hwhole, hlast, hhalts,
      htake, ?_, hplay, hwritten, Schema.sorted_strict (hset.nodup_schema hs), ?_⟩
    · have hpreamble : j.preamble s = s.schema.preamble.toUTF8 := by
        rw [preamble, hformat]
        rfl
      rw [generate_of_ok hs, hrun, hformat, joined_recordOf, hpreamble, Schema.preamble,
        String.ofList_append]
      simp only [String.toUTF8_eq_toByteArray, String.toByteArray_append]
    · rw [String.toList_ofList]
      exact Table.read?_chars (hset.plain_schema hs) fun q hq =>
        hset.fits hs (hsamples q (Share.mem_of_mem_deal hq))
  · exact .inl ⟨hout, e, generate_of_error he _ _⟩

theorem table_reads_back_two_hosts :
    twoHostJob.format = .timescaledb
      ∧ ∃ s s' whole last stats text table, twoHostJob.simulation = .ok s
        ∧ twoHostJob.generate (fun stats => 3 ≤ stats.points) ({} : Sink) =
          .ok ⟨s', { received := String.toUTF8 text }, .ok stats⟩
        ∧ Simulation.source.play whole.length s = .ok (whole, last) ∧ last.finished = true
        ∧ stats.points = min 3 whole.length
        ∧ Table.read? text.toList = some table ∧ table.tagKeys = HostTags.keys
        ∧ table.rows.length = stats.written := by
  refine ⟨rfl, ?_⟩
  rcases table_reads_back ofSettings_twoHosts rfl (fun stats => 3 ≤ stats.points) with
    ⟨hout, -⟩ | ⟨s, whole, last, s', made, stats, text, hs, hwhole, hlast, hhalts, -, hgenerate, -,
      hwritten, -, hread⟩
  · exact absurd hout (by decide)
  · have hpoints : stats.points = min 3 whole.length :=
      hhalts.unique (Script.haltsAt_raisedIn _ _ whole 3)
    exact ⟨s, s', whole, last, stats, text, _, hs, hgenerate, hwhole, hlast, hpoints, hread, rfl,
      by simp [hwritten]⟩

end DataJob

end SeriesLoad
