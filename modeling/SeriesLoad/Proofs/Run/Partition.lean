import SeriesLoad.Proofs.Encoding.Documents
import SeriesLoad.Proofs.Run.Accepted

/-!
# Groups take the whole run apart

Runs that differ only in their group do not talk to each other, and still deal one and the same
sequence of records: **what the groups write is what one run alone would write, dealt in turn**
(`groups_deal_whole_run`). It is the course of the source that they have in common, since no step of
the source depends on what a run writes.

The same holds of any source in place of the simulation (`run_deal`), so it does not matter which of
its steps are silent.
-/

namespace SeriesLoad

/-! ## Samples have records -/

theorem Bson.hasZero_of_isName {key : String} (h : Text.isName key.toList = true) :
    hasZero key = false := by
  rw [hasZero, ← Bool.not_eq_true, List.contains_iff_mem]
  exact Text.not_mem_of_isName h (by decide)

theorem HostTags.fst_mem_keys {t : HostTags} {tag : String × String} (h : tag ∈ t.toList) :
    tag.1 ∈ keys :=
  (List.of_mem_zip h).1

theorem HostModel.Samples.encodes {model : HostModel} {tags : List HostTags} {q : Point}
    (h : model.Samples tags q) (f : Format) : f.Encodes q := by
  obtain ⟨t, -, htags⟩ := h.tags_eq
  obtain ⟨record, hrecord⟩ := f.exists_encode (p := q)
    (fun tag htag => Bson.hasZero_of_isName
      (HostTags.isName_keys _ (HostTags.fst_mem_keys (htags ▸ htag))))
    (fun field hfield => Bson.hasZero_of_isName (model.isName_columns _ h.column _
      (List.mem_cons_of_mem _ (List.mem_map_of_mem hfield))))
  exact Format.encodes_of_ok hrecord

theorem Format.map_encode {f : Format} {ps : List Point} (h : ∀ p ∈ ps, f.Encodes p) :
    ps.map f.encode = (ps.map f.recordOf).map .ok := by
  rw [List.map_map]
  exact List.map_congr_left h

/-! ## Runs of any source -/

namespace RunState

variable {σ : Type}

theorem ofCourse_finished {f : Format} {out : Sink} {c : Source.Course σ} (share : Share)
    (h : c.ending = .finished) :
    (ofCourse f share out c).result = .ok (.ofScript f share c.made) := by
  simp only [ofCourse, report, h]

/-- A course that is not stopped and has no error is finished. -/
theorem finished_of_ofCourse_ok {f : Format} {share : Share} {out : Sink} {c : Source.Course σ}
    {stats : RunStats} (hstop : c.ending ≠ .stopped)
    (h : (ofCourse f share out c).result = .ok stats) : c.ending = .finished := by
  cases hend : c.ending with
  | finished => rfl
  | stopped => exact absurd hend hstop
  | fault e => simp [ofCourse, report, hend] at h

end RunState

/-- If one run alone comes to the end of a source, then a run of any group comes to the end as well
and writes its share of the same records. -/
theorem run_deal {σ : Type} {src : Source σ} {f : Format} {s : σ} {stats : RunStats} {out : Sink}
    (hcap : out.capacity = none)
    (h : (run src f ⟨0, 1⟩ (fun _ => false) s out).result = .ok stats) :
    ∃ made s' records, src.play stats.points s = .ok (made, s')
      ∧ (Script.emitted made).map f.encode = records.map .ok
      ∧ ∀ share : Share, 0 < share.groups →
        ∃ stats', run src f share (fun _ => false) s out =
          ⟨s', { out with received := out.received ++ joined (share.deal records) },
            .ok stats'⟩ := by
  have henc : ∀ p ∈ Script.emitted
      (src.course (fun _ => false) (src.remaining s) s []).made, f.Encodes p :=
    RunState.encodes_of_loop_ok hcap (src.remaining s) s [] (by simp [Script.emitted])
      (by rw [RunState.after_nil]; exact h)
  have hrun : ∀ share : Share, 0 < share.groups → run src f share (fun _ => false) s out =
      RunState.ofCourse f share out (src.course (fun _ => false) (src.remaining s) s []) :=
    fun share hpos => RunState.run_eq_ofCourse (fun _ => false) hcap hpos s henc
  have hnever : (src.course (fun _ => false) (src.remaining s) s []).ending ≠ .stopped :=
    Source.course_not_stopped (fun _ => rfl) (src.remaining s) s []
  have hplay := src.play_course_made (fun _ => false) (src.remaining s) s
  rw [hrun _ Nat.one_pos] at h
  have hfinished := RunState.finished_of_ofCourse_ok hnever h
  rw [RunState.ofCourse_finished _ hfinished, Except.ok.injEq] at h
  generalize src.course (fun _ => false) (src.remaining s) s [] = c at *
  obtain ⟨made, s', ending⟩ := c
  simp only at hplay henc hfinished h
  subst ending stats
  refine ⟨made, s', (Script.emitted made).map f.recordOf, hplay, Format.map_encode henc,
    fun share hpos => ⟨.ofScript f share made, ?_⟩⟩
  rw [hrun share hpos, Share.deal_map]
  rfl

/-! ## Runs of accepted jobs -/

namespace DataJob

/-- All points of an accepted job have records, so its runs write their shares of the course. -/
theorem IsSet.run_eq_ofCourse {clock : UInt64} {st : DataSettings} {j : DataJob}
    (h : j.IsSet clock st) {s : Simulation ChaCha} (hs : j.simulation = .ok s) (share : Share)
    (hpos : 0 < share.groups) (stop : RunStats → Bool) (out : Sink) (hcap : out.capacity = none) :
    run Simulation.source j.format share stop s out =
      RunState.ofCourse j.format share out (Simulation.source.course
        (fun made => stop (.ofScript j.format share made)) s.remaining s []) := by
  refine RunState.run_eq_ofCourse stop hcap hpos s fun p hp => ?_
  exact ((h.course hs _ _).1 _ (Script.mem_emitted.mp hp)).encodes j.format

/-- An accepted job of one group comes to its end, if its simulation can be set up at all. -/
theorem IsSet.run_whole_ok {clock : UInt64} {st : DataSettings} {j : DataJob}
    (h : j.IsSet clock st) {s : Simulation ChaCha} (hs : j.simulation = .ok s) (out : Sink)
    (hcap : out.capacity = none) :
    ∃ stats, (run Simulation.source j.format ⟨0, 1⟩ (fun _ => false) s out).result = .ok stats
      ∧ stats.interrupted = false
      ∧ (run Simulation.source j.format ⟨0, 1⟩ (fun _ => false) s out).source.finished = true := by
  obtain ⟨hfinished, hsource⟩ := h.course_finished hs
  rw [h.run_eq_ofCourse hs ⟨0, 1⟩ Nat.one_pos (fun _ => false) out hcap]
  exact ⟨_, RunState.ofCourse_finished _ hfinished, rfl, hsource⟩

/-- Whatever the settings of a job: the groups are accepted with them, and either there are too many
hosts or steps to set the simulation up for any group, or all groups come to their end and write,
behind the same preamble, the records of one whole run dealt in turn. So record `k` is found in
group `k % groups` at the place `k / groups`. The same holds of every source that a whole run comes
to the end of, whichever of its steps are silent. -/
theorem groups_deal_whole_run {clock : UInt64} {st : DataSettings} {j : DataJob}
    (h : ofSettings clock st = .ok j) {groups : Nat} (hpos : 0 < groups) :
    (∀ group count, group < count →
      ofSettings clock { st with group, groups := count } =
        .ok { j with share := ⟨group, count⟩ })
    ∧ (((roomLimit < j.population.hosts ∨ 2 ^ 64 ≤ j.steps)
        ∧ ∃ e, ∀ share, ({ j with share } : DataJob).generate (fun _ => false) ({} : Sink) =
          .error e)
      ∨ ∃ s s' made records stats, j.simulation = .ok s
        ∧ ({ j with share := ⟨0, 1⟩ } : DataJob).generate (fun _ => false) ({} : Sink) =
          .ok ⟨s', { received := j.preamble s ++ joined records }, .ok stats⟩
        ∧ s'.finished = true ∧ stats.interrupted = false
        ∧ Simulation.source.play stats.points s = .ok (made, s')
        ∧ (Script.emitted made).map j.format.encode = records.map .ok
        ∧ (∀ group < groups, ∃ stats',
          ({ j with share := ⟨group, groups⟩ } : DataJob).generate (fun _ => false) ({} : Sink) =
            .ok ⟨s', { received :=
              j.preamble s ++ joined ((⟨group, groups⟩ : Share).deal records) }, .ok stats'⟩)
        ∧ ∀ k, ((⟨k % groups, groups⟩ : Share).deal records)[k / groups]? = records[k]?)
    ∧ ∀ (σ : Type) (src : Source σ) (f : Format) (source : σ) (stats : RunStats),
      (run src f ⟨0, 1⟩ (fun _ => false) source ({} : Sink)).result = .ok stats →
      ∃ made source' records, src.play stats.points source = .ok (made, source')
        ∧ (Script.emitted made).map f.encode = records.map .ok
        ∧ (run src f ⟨0, 1⟩ (fun _ => false) source ({} : Sink)).output.received = joined records
        ∧ ∀ group < groups, ∃ stats',
          (run src f ⟨group, groups⟩ (fun _ => false) source ({} : Sink)).result = .ok stats'
          ∧ (run src f ⟨group, groups⟩ (fun _ => false) source ({} : Sink)).output.received =
            joined ((⟨group, groups⟩ : Share).deal records) := by
  have hset := ofSettings_eq_ok.mp h
  refine ⟨fun _ _ hlt => ofSettings_group h hlt, ?_, fun σ src f source stats hok => ?_⟩
  · rcases j.simulation_cases with ⟨-, s, hs⟩ | ⟨hout, e, he⟩
    · right
      obtain ⟨stats, hok, hinterrupted, hfinished⟩ :=
        hset.run_whole_ok hs { received := j.preamble s } rfl
      obtain ⟨made, s', records, hplay, hrecords, hdeal⟩ := run_deal rfl hok
      obtain ⟨stats₁, hwhole⟩ := hdeal ⟨0, 1⟩ Nat.one_pos
      rw [hwhole] at hok hfinished
      cases hok
      rw [Share.deal_whole] at hwhole
      refine ⟨s, s', made, records, stats, hs, ?_, hfinished, hinterrupted, hplay, hrecords,
        fun group hlt => ?_, fun k => Share.getElem?_deal_turn hpos records k⟩
      · rw [generate_of_ok (j := { j with share := ⟨0, 1⟩ }) hs]
        exact congrArg Except.ok hwhole
      · obtain ⟨stats', hpart⟩ := hdeal ⟨group, groups⟩ hpos
        rw [generate_of_ok (j := { j with share := ⟨group, groups⟩ }) hs]
        exact ⟨stats', congrArg Except.ok hpart⟩
    · exact .inl ⟨hout, e, fun share => generate_of_error (j := { j with share }) he _ _⟩
  · obtain ⟨made, source', records, hplay, hrecords, hdeal⟩ := run_deal rfl hok
    refine ⟨made, source', records, hplay, hrecords, ?_, fun group hlt => ?_⟩
    · obtain ⟨stats₁, hwhole⟩ := hdeal ⟨0, 1⟩ Nat.one_pos
      rw [hwhole, Share.deal_whole]
      exact ByteArray.empty_append
    · obtain ⟨stats', hpart⟩ := hdeal ⟨group, groups⟩ hpos
      rw [hpart]
      exact ⟨stats', rfl, ByteArray.empty_append⟩

theorem groups_deal_whole_run_three :
    ofSettings 0 twoHostSettings = .ok twoHostJob ∧ 0 < 3
      ∧ ∀ group count, group < count →
        ofSettings 0 { twoHostSettings with group, groups := count } =
          .ok { twoHostJob with share := ⟨group, count⟩ } :=
  ⟨ofSettings_twoHosts, by decide,
    (groups_deal_whole_run ofSettings_twoHosts (by decide : 0 < 3)).1⟩

end DataJob

end SeriesLoad
