import Mathlib.Tactic.SplitIfs
import SeriesLoad.Sink

/-!
# Outputs that run full

`Output.Tracks` says of an output how it stands to all that was written to it: there is a relation
that holds while it has taken every write, and one that holds after the first write that it did not
take. A run needs to know no more of its output than that.

A sink that has taken every write holds all that was written, `Sink.Held`; one that has not holds as
much of it as fits, `Sink.Full`. With a buffer in front the loss is found later, but once the buffer
is flushed the sink holds the same (`Buffer.Held.flush_cases`).
-/

namespace SeriesLoad

/-- An output keeps track of the bytes written to it: `Held` relates it to them while it has taken
every write, `Lost` once it has not taken one, whatever else would have been written. -/
structure Output.Tracks {ω : Type} [Output ω] (Held Lost : ByteArray → ω → Prop) : Prop where
  write : ∀ {done : ByteArray} {out : ω}, Held done out → ∀ bs, ∃ out' isWhole,
    Output.write out bs = (out', isWhole)
      ∧ if isWhole then Held (done ++ bs) out' else Lost (done ++ bs) out'
  append : ∀ {done : ByteArray} {out : ω}, Lost done out → ∀ more, Lost (done ++ more) out

theorem extract_of_size_le {bs : ByteArray} {n : Nat} (h : bs.size ≤ n) : bs.extract 0 n = bs := by
  have hmax := ByteArray.extract_zero_max_size (a := bs) (i := n)
  rwa [Nat.max_eq_left h] at hmax

theorem extract_append_of_le {bs : ByteArray} {n : Nat} (h : n ≤ bs.size) (cs : ByteArray) :
    (bs ++ cs).extract 0 n = bs.extract 0 n := by
  rw [ByteArray.extract_append, Nat.zero_sub, Nat.sub_eq_zero_of_le h, ByteArray.extract_same,
    ByteArray.append_empty]

namespace Sink

variable {n : Nat} {done : ByteArray} {s : Sink}

/-- A sink without a limit takes everything. -/
theorem write_unlimited (h : s.capacity = none) (bs : ByteArray) :
    s.write bs = ({ s with received := s.received ++ bs }, true) := by
  simp [write, room, h]

/-- A sink with a limit takes what it has room for. -/
theorem write_limited (hcap : s.capacity = some n) (hsize : s.received.size ≤ n)
    (bs : ByteArray) :
    s.write bs = ({ s with received := (s.received ++ bs).extract 0 n },
      decide ((s.received ++ bs).size ≤ n)) := by
  rw [ByteArray.size_append]
  unfold write room
  simp only [hcap]
  split_ifs with hfits
  · rw [extract_of_size_le (by rw [ByteArray.size_append]; omega), decide_eq_true (by omega)]
  · rw [ByteArray.extract_append, extract_of_size_le hsize, Nat.min_eq_right (by omega),
      decide_eq_false (by omega), Nat.zero_sub]

/-- A sink with room for `n` bytes in all has taken all that was written. -/
structure Held (n : Nat) (done : ByteArray) (s : Sink) : Prop where
  capacity : s.capacity = some n
  received : s.received = done
  size : done.size ≤ n

/-- A sink with room for `n` bytes in all has taken the first `n` of the bytes that were written,
and there were more. -/
structure Full (n : Nat) (done : ByteArray) (s : Sink) : Prop where
  capacity : s.capacity = some n
  received : s.received = done.extract 0 n
  size : n < done.size

theorem Held.write (h : s.Held n done) (bs : ByteArray) :
    ∃ s' isWhole, s.write bs = (s', isWhole)
      ∧ if isWhole then s'.Held n (done ++ bs) else s'.Full n (done ++ bs) := by
  obtain ⟨hcap, rfl, hsize⟩ := h
  refine ⟨_, _, write_limited hcap hsize bs, ?_⟩
  by_cases hfits : (s.received ++ bs).size ≤ n
  · rw [if_pos (decide_eq_true hfits)]
    exact ⟨hcap, extract_of_size_le hfits, hfits⟩
  · rw [if_neg (by rw [decide_eq_false hfits]; exact Bool.false_ne_true)]
    exact ⟨hcap, rfl, Nat.lt_of_not_le hfits⟩

/-- A full sink takes no more. -/
theorem Full.write (h : s.Full n done) (bs : ByteArray) : (s.write bs).1 = s := by
  have hsize : s.received.size = n := by
    rw [h.received, ByteArray.size_extract, Nat.sub_zero, Nat.min_eq_left (Nat.le_of_lt h.size)]
  rw [write_limited h.capacity (Nat.le_of_eq hsize), extract_append_of_le (Nat.le_of_eq hsize.symm),
    extract_of_size_le (Nat.le_of_eq hsize)]

/-- What is written to a full sink leaves it as it is. -/
theorem Full.append (h : s.Full n done) (more : ByteArray) : s.Full n (done ++ more) where
  capacity := h.capacity
  received := by rw [extract_append_of_le (Nat.le_of_lt h.size), h.received]
  size := by
    rw [ByteArray.size_append]
    exact Nat.lt_add_right _ h.size

theorem tracks : Output.Tracks (Held n) (Full n) := ⟨Held.write, Full.append⟩

theorem tracks_unlimited {out : Sink} (hcap : out.capacity = none) :
    Output.Tracks (fun done s => s = { out with received := done }) (fun _ _ => False) where
  write := by
    rintro done _ rfl bs
    exact ⟨_, true, write_unlimited (s := { out with received := done }) hcap bs, rfl⟩
  append := fun hlost _ => hlost

end Sink

namespace Buffer

variable {n : Nat} {done : ByteArray} {b b' : Buffer}

/-- A buffer in front of a sink with room for `n` bytes in all has taken all that was written. What
it has not handed on yet may be more than the sink has room for. -/
structure Held (n : Nat) (done : ByteArray) (b : Buffer) : Prop where
  capacity : b.sink.capacity = some n
  size : b.sink.received.size ≤ n
  received : b.sink.received ++ b.pending = done

theorem Held.sink (h : b.Held n done) (hpending : b.pending = .empty) : b.sink.Held n done :=
  have hreceived : b.sink.received = done := by
    rw [← h.received, hpending, ByteArray.append_empty]
  ⟨h.capacity, hreceived, hreceived ▸ h.size⟩

theorem Held.flush_cases (h : b.Held n done) :
    ∃ b' isWhole, b.flush = (b', isWhole)
      ∧ if isWhole then b'.Held n done ∧ b'.pending = .empty else b'.sink.Full n done := by
  obtain ⟨s', isWhole, hwrite, h'⟩ := Sink.Held.write ⟨h.capacity, rfl, h.size⟩ b.pending
  rw [h.received] at h'
  refine ⟨_, isWhole, by rw [flush, hwrite], ?_⟩
  cases isWhole with
  | true =>
    rw [if_pos rfl] at h' ⊢
    exact ⟨⟨h'.capacity, h'.received ▸ h'.size, by rw [ByteArray.append_empty, h'.received]⟩, rfl⟩
  | false => exact h'

/-- Before bytes are put into the buffer it is flushed if it has no room for them. So nothing is
pending in it if they are as large as the buffer. -/
theorem flush_before (h : b.Held n done) (bs : ByteArray) :
    ∃ b' isWhole,
      (if b.limit < b.pending.size + bs.size then b.flush else (b, true)) = (b', isWhole)
      ∧ if isWhole then b'.Held n done ∧ (b'.limit ≤ bs.size → b'.pending = .empty)
        else b'.sink.Full n done := by
  by_cases hover : b.limit < b.pending.size + bs.size
  · obtain ⟨b', isWhole, hflush, h'⟩ := h.flush_cases
    refine ⟨b', isWhole, by rw [if_pos hover, hflush], ?_⟩
    cases isWhole with
    | true => exact ⟨h'.1, fun _ => h'.2⟩
    | false => exact h'
  · refine ⟨b, true, if_neg hover, h, fun hlarge => ?_⟩
    rw [← ByteArray.size_eq_zero_iff]
    omega

theorem Held.write (h : b.Held n done) (bs : ByteArray) :
    ∃ b' isWhole, b.write bs = (b', isWhole)
      ∧ if isWhole then b'.Held n (done ++ bs) else b'.sink.Full n (done ++ bs) := by
  obtain ⟨b₁, isWhole, hflush, h₁⟩ := flush_before h bs
  unfold Buffer.write
  rw [hflush]
  cases isWhole with
  | false => exact ⟨b₁, false, rfl, h₁.append bs⟩
  | true =>
    obtain ⟨h₁, hempty⟩ := h₁
    by_cases hlarge : b₁.limit ≤ bs.size
    · obtain ⟨s', isWhole, hwrite, h'⟩ := (h₁.sink (hempty hlarge)).write bs
      refine ⟨_, isWhole, by simp only [Bool.not_true, if_pos hlarge, hwrite]; rfl, ?_⟩
      cases isWhole with
      | false => exact h'
      | true =>
        exact ⟨h'.capacity, h'.received ▸ h'.size, by
          rw [hempty hlarge, ByteArray.append_empty, h'.received]⟩
    · refine ⟨_, true, by simp only [Bool.not_true, if_neg hlarge]; rfl, ?_⟩
      exact ⟨h₁.capacity, h₁.size, by rw [← ByteArray.append_assoc, h₁.received]⟩

theorem tracks : Output.Tracks (Held n) (fun done b => b.sink.Full n done) :=
  ⟨Held.write, Sink.Full.append⟩

/-- A buffer in front of a sink without a limit has taken all that was written. -/
structure Keeps (done : ByteArray) (b : Buffer) : Prop where
  capacity : b.sink.capacity = none
  received : b.sink.received ++ b.pending = done

/-- Once it is flushed, the sink has all of it. -/
theorem Keeps.flush (h : b.Keeps done) :
    b.flush = ({ b with sink := { received := done }, pending := .empty }, true) := by
  obtain ⟨⟨capacity, received⟩, pending, limit⟩ := b
  obtain ⟨rfl, rfl⟩ := h
  rw [Buffer.flush, Sink.write_unlimited rfl]

theorem Keeps.write (h : b.Keeps done) (bs : ByteArray) :
    ∃ b', b.write bs = (b', true) ∧ b'.Keeps (done ++ bs) := by
  -- what is flushed ahead of the bytes leaves room for them, and loses nothing
  obtain ⟨b₁, hfirst, h₁, hempty⟩ : ∃ b₁,
      (if b.limit < b.pending.size + bs.size then b.flush else (b, true)) = (b₁, true)
        ∧ b₁.Keeps done ∧ (b₁.limit ≤ bs.size → b₁.pending = .empty) := by
    by_cases hover : b.limit < b.pending.size + bs.size
    · refine ⟨_, by rw [if_pos hover, h.flush], ⟨rfl, ?_⟩, fun _ => rfl⟩
      exact ByteArray.append_empty
    · refine ⟨b, if_neg hover, h, ?_⟩
      intro hlarge
      rw [← ByteArray.size_eq_zero_iff]
      omega
  unfold Buffer.write
  rw [hfirst]
  by_cases hlarge : b₁.limit ≤ bs.size
  · refine ⟨{ b₁ with sink := { b₁.sink with received := b₁.sink.received ++ bs } }, ?_, ?_⟩
    · simp [hlarge, Sink.write_unlimited h₁.capacity]
    · refine ⟨h₁.capacity, ?_⟩
      rw [← h₁.received, hempty hlarge, ByteArray.append_empty, ByteArray.append_empty]
  · refine ⟨{ b₁ with pending := b₁.pending ++ bs }, ?_, h₁.capacity, ?_⟩
    · simp [hlarge]
    · rw [← ByteArray.append_assoc, h₁.received]

theorem tracks_unlimited : Output.Tracks Keeps (fun _ _ => False) where
  write := by
    intro done b h bs
    obtain ⟨b', hwrite, h'⟩ := Keeps.write h bs
    exact ⟨b', true, hwrite, h'⟩
  append := fun hlost _ => hlost

end Buffer

end SeriesLoad
