import SeriesLoad.Proofs.Encoding.Documents
import SeriesLoad.Proofs.Run.Course

/-!
# Records that are refused

A write fails for one of two reasons: the point has no record, or the sink has no room for it.
**What a format reports does not tell them apart: the document format calls every failure one of
the document, also where it is the sink that is full, and the other formats call it one of the
sink** (`refusal_blames_format`). The failure itself is the same for all of them: a record that an
unlimited sink takes is refused exactly if it is longer than the room that is left, and the sink
then holds as much of it as fits.

It makes no difference to the sink whether a record comes in one piece or in several,
`Output.writeAll`: by induction on the pieces, the first one that does not fit is cut where the
whole record would have been cut. Nor does it to a buffer, or to any other output that keeps track
of what is written to it (`Output.Tracks.writeAll`).
-/

namespace SeriesLoad

/-- Writes pieces one behind the other up to the first one that is not taken whole. -/
def Output.writeAll {ω : Type} [Output ω] (out : ω) : List ByteArray → ω × Bool
  | [] => (out, true)
  | piece :: rest =>
    match Output.write out piece with
    | (out, true) => writeAll out rest
    | (out, false) => (out, false)

/-- Pieces are kept track of as the bytes that they make up. -/
theorem Output.Tracks.writeAll {ω : Type} [Output ω] {Held Lost : ByteArray → ω → Prop}
    (h : Output.Tracks Held Lost) {done : ByteArray} {out : ω} (hheld : Held done out)
    (pieces : List ByteArray) :
    ∃ out' isWhole, Output.writeAll out pieces = (out', isWhole)
      ∧ if isWhole then Held (done ++ joined pieces) out'
        else Lost (done ++ joined pieces) out' := by
  induction pieces generalizing done out with
  | nil => exact ⟨out, true, rfl, by simpa using hheld⟩
  | cons piece rest ih =>
    obtain ⟨out₁, isWhole, hwrite, hpiece⟩ := h.write hheld piece
    rw [joined_cons, ← ByteArray.append_assoc, Output.writeAll, hwrite]
    cases isWhole with
    | true => exact ih hpiece
    | false => exact ⟨out₁, false, rfl, h.append hpiece (joined rest)⟩

namespace Sink

/-- A sink that has room for so many bytes behind those that it holds. -/
def withRoom (done : ByteArray) (n : Nat) : Sink where
  capacity := some (done.size + n)
  received := done

/-- The same sink once it was given bytes. -/
def given (done : ByteArray) (n : Nat) (bs : ByteArray) : Sink where
  capacity := some (done.size + n)
  received := done ++ bs.extract 0 n

@[simp] theorem given_empty (done : ByteArray) (n : Nat) :
    given done n .empty = withRoom done n := by
  rw [given, extract_of_size_le (Nat.zero_le n), ByteArray.append_empty]
  rfl

theorem write_withRoom (done : ByteArray) (n : Nat) (bs : ByteArray) :
    (withRoom done n).write bs = (given done n bs, decide (bs.size ≤ n)) := by
  rw [write_limited (n := done.size + n) rfl (Nat.le_add_right ..)]
  refine Prod.ext ?_ ?_
  · simp only [given, withRoom, ByteArray.extract_append, Nat.zero_sub,
      extract_of_size_le (Nat.le_add_right done.size n), Nat.add_sub_cancel_left]
  · simp [withRoom]

/-- A piece that fits leaves a sink with less room. -/
theorem given_of_fits (done : ByteArray) {n : Nat} {piece : ByteArray} (h : piece.size ≤ n) :
    given done n piece = withRoom (done ++ piece) (n - piece.size) := by
  have hroom : done.size + n = done.size + piece.size + (n - piece.size) := by omega
  simp only [given, withRoom, extract_of_size_le h, ByteArray.size_append, hroom]

theorem given_append_of_fits (done : ByteArray) {n : Nat} {piece : ByteArray} (h : piece.size ≤ n)
    (rest : ByteArray) :
    given (done ++ piece) (n - piece.size) rest = given done n (piece ++ rest) := by
  have hroom : done.size + piece.size + (n - piece.size) = done.size + n := by omega
  simp only [given, ByteArray.size_append, hroom, ByteArray.extract_append, Nat.zero_sub,
    extract_of_size_le h, ByteArray.append_assoc]

theorem given_append_of_lt (done : ByteArray) {n : Nat} {piece : ByteArray} (h : n < piece.size)
    (rest : ByteArray) : given done n (piece ++ rest) = given done n piece := by
  simp only [given, extract_append_of_le (Nat.le_of_lt h)]

/-- Pieces are taken as the bytes that they make up. -/
theorem writeAll_withRoom (pieces : List ByteArray) (done : ByteArray) (n : Nat) :
    Output.writeAll (withRoom done n) pieces = (withRoom done n).write (joined pieces) := by
  induction pieces generalizing done n with
  | nil => simp [Output.writeAll, write_withRoom]
  | cons piece rest ih =>
    have hwrite : Output.write (withRoom done n) piece =
        (given done n piece, decide (piece.size ≤ n)) := write_withRoom done n piece
    rw [write_withRoom, joined_cons, ByteArray.size_append, Output.writeAll, hwrite]
    by_cases hfits : piece.size ≤ n
    · have hrest : (joined rest).size ≤ n - piece.size ↔ piece.size + (joined rest).size ≤ n := by
        omega
      simp only [hfits, decide_true]
      rw [given_of_fits done hfits, ih, write_withRoom, given_append_of_fits done hfits]
      simp only [hrest]
    · have hover : ¬ piece.size + (joined rest).size ≤ n := by omega
      simp only [hfits, hover, decide_false]
      rw [given_append_of_lt done (Nat.lt_of_not_le hfits)]

end Sink

/-! ## Keys that cannot be written -/

namespace Bson

theorem badMember?_eq_some {d : Document} {key : String} (h : badMember? d = some key) :
    ∃ member ∈ d, (member.1 = key ∧ hasZero key = true) ∨ member.2.badKey? = some key := by
  induction d with
  | nil => simp [badMember?] at h
  | cons head rest ih =>
    rw [badMember?] at h
    split_ifs at h with hzero
    · cases h
      exact ⟨head, List.mem_cons_self, .inl ⟨rfl, hzero⟩⟩
    · cases hvalue : head.2.badKey? with
      | some inner =>
        rw [hvalue] at h
        exact ⟨head, List.mem_cons_self, .inr (hvalue.trans h)⟩
      | none =>
        rw [hvalue] at h
        obtain ⟨member, hmember, hbad⟩ := ih h
        exact ⟨member, List.mem_cons_of_mem _ hmember, hbad⟩

/-- A bad key of a document made of pairs with flat values is the key of a pair. -/
theorem exists_of_badKey?_foldl_insert {α : Type} {f : α → Value}
    (hf : ∀ a, (f a).badKey? = none) {pairs : List (String × α)} {key : String}
    (h : (Value.document
      (pairs.foldl (fun d pair => Document.insert pair.1 (f pair.2) d) [])).badKey? = some key) :
    hasZero key = true ∧ key ∈ pairs.map (·.1) := by
  rw [Value.badKey?] at h
  obtain ⟨member, hmember, hbad⟩ := badMember?_eq_some h
  rcases Document.mem_foldl_insert f pairs [] hmember with hnil | ⟨pair, hpair, rfl⟩
  · cases hnil
  · rcases hbad with ⟨rfl, hzero⟩ | hvalue
    · exact ⟨hzero, List.mem_map_of_mem hpair⟩
    · rw [hf] at hvalue
      cases hvalue

end Bson

/-- A key that keeps a point from being written is a key of the point. -/
theorem PointDocument.mem_of_badMember? {p : Point} {key : String}
    (h : Bson.badMember? (ofPoint p) = some key) :
    Bson.hasZero key = true
      ∧ (key ∈ p.tags.toList.map (·.1) ∨ key ∈ p.fields.toList.map (·.1)) := by
  have htags (s : String) : (Bson.Value.string s).badKey? = none := by simp [Bson.Value.badKey?]
  have hfields (v : FieldValue) : (fieldValue v).badKey? = none := by
    cases v <;> simp [fieldValue, Bson.Value.badKey?]
  obtain ⟨member, hmember, hbad⟩ := Bson.badMember?_eq_some h
  simp only [ofPoint, List.mem_cons, List.not_mem_nil, or_false] at hmember
  rcases hbad with ⟨rfl, hzero⟩ | hvalue
  · -- the four keys of the document itself are good
    rcases hmember with rfl | rfl | rfl | rfl <;> simp [Bson.hasZero] at hzero
  · rcases hmember with rfl | rfl | rfl | rfl
    · simp [Bson.Value.badKey?] at hvalue
    · simp [Bson.Value.badKey?] at hvalue
    · obtain ⟨hzero, hkey⟩ := Bson.exists_of_badKey?_foldl_insert htags hvalue
      exact ⟨hzero, .inl hkey⟩
    · obtain ⟨hzero, hkey⟩ := Bson.exists_of_badKey?_foldl_insert hfields hvalue
      exact ⟨hzero, .inr hkey⟩

namespace Format

variable {f : Format} {p : Point}

/-- A point that has no record is one of the document format, with a bad key. -/
theorem encode_eq_error {e : WriteError} (h : f.encode p = .error e) :
    f = .mongo ∧ ∃ key, e = .badKey key ∧ Bson.hasZero key = true
      ∧ (key ∈ p.tags.toList.map (·.1) ∨ key ∈ p.fields.toList.map (·.1)) := by
  cases f with
  | mongo =>
    rw [encode, Bson.Document.encode] at h
    cases hbad : Bson.badMember? (PointDocument.ofPoint p) with
    | none => simp [hbad] at h
    | some key =>
      simp only [hbad, Except.error.injEq] at h
      exact ⟨rfl, key, h.symm, PointDocument.mem_of_badMember? hbad⟩
  | _ => cases h

/-- A document is never empty: its length alone is four bytes. -/
theorem size_pos_of_encode {record : ByteArray} (h : Format.mongo.encode p = .ok record) :
    0 < record.size := by
  rw [encode, Bson.Document.encode] at h
  cases hbad : Bson.badMember? (PointDocument.ofPoint p) with
  | some key => simp [hbad] at h
  | none =>
    simp only [hbad, Except.ok.injEq] at h
    subst h
    simp only [ByteArray.size, Bson.Document.bytes, Bson.framed, List.size_toArray,
      List.length_append, List.length_singleton]
    omega

theorem isDocumentError_sinkError (f : Format) :
    f.sinkError.isDocumentError = true ↔ f = .mongo := by
  cases f <;> simp [sinkError, WriteError.isDocumentError]

/-- A record goes to its output in one write. -/
theorem write_of_encode {ω : Type} [Output ω] {record : ByteArray} (h : f.encode p = .ok record)
    {out out' : ω} {isWhole : Bool} (hwrite : Output.write out record = (out', isWhole)) :
    f.write p out = (out', if isWhole then .ok record.size else .error f.sinkError) := by
  cases isWhole <;> simp [write, h, hwrite]

theorem write_of_encode_error {ω : Type} [Output ω] {e : WriteError} (h : f.encode p = .error e)
    (out : ω) : f.write p out = (out, .error e) := by
  simp [write, h]

/-- Whatever makes a write fail, it is called a failure of the document by the document format, and
by no other. -/
theorem isDocumentError_of_write {ω : Type} [Output ω] {out : ω} {e : WriteError}
    (h : (f.write p out).2 = .error e) : e.isDocumentError = true ↔ f = .mongo := by
  cases hencode : f.encode p with
  | error e' =>
    rw [write_of_encode_error hencode] at h
    cases h
    obtain ⟨rfl, key, rfl, -⟩ := encode_eq_error hencode
    simp [WriteError.isDocumentError]
  | ok record =>
    obtain ⟨out', isWhole, hwrite⟩ : ∃ out' isWhole, Output.write out record = (out', isWhole) :=
      ⟨_, _, rfl⟩
    rw [write_of_encode hencode hwrite] at h
    cases isWhole with
    | true => cases h
    | false =>
      cases h
      exact isDocumentError_sinkError f

end Format

/-- A point either has a record or not. If it has one, an unlimited sink takes it, a sink with room
for `n` more bytes gets the first `n` of it, and the write fails exactly if it is longer than that;
in one piece or in several, the sink gets the same. If it has none, its format is the document
format, one of its own keys has a zero byte in it, and no output gets anything. In both cases the
error is one of the document if the format is the document format, and one of the sink if it is
another. -/
theorem refusal_blames_format (f : Format) (p : Point) (done : ByteArray) (n : Nat) :
    ((∃ record, f.encode p = .ok record
        ∧ f.write p ({ received := done } : Sink) =
          ({ received := done ++ record }, .ok record.size)
        ∧ f.write p (Sink.withRoom done n) = (Sink.given done n record,
          if record.size ≤ n then .ok record.size else .error f.sinkError)
        ∧ ∀ pieces, joined pieces = record →
          Output.writeAll (Sink.withRoom done n) pieces =
            (Sink.given done n record, decide (record.size ≤ n)))
      ∨ f = .mongo ∧ ∃ key, Bson.hasZero key = true
        ∧ (key ∈ p.tags.toList.map (·.1) ∨ key ∈ p.fields.toList.map (·.1))
        ∧ ∀ (ω : Type) [Output ω] (out : ω), f.write p out = (out, .error (.badKey key)))
    ∧ ∀ (ω : Type) [Output ω] (out : ω) (e : WriteError), (f.write p out).2 = .error e →
      (e.isDocumentError = true ↔ f = .mongo) := by
  refine ⟨?_, fun ω _ out e h => Format.isDocumentError_of_write h⟩
  cases hencode : f.encode p with
  | error e =>
    obtain ⟨hf, key, rfl, hzero, hkey⟩ := Format.encode_eq_error hencode
    exact .inr ⟨hf, key, hzero, hkey, fun ω _ out => Format.write_of_encode_error hencode out⟩
  | ok record =>
    refine .inl ⟨record, rfl, ?_, ?_, ?_⟩
    · have hwrite : Output.write ({ received := done } : Sink) record =
          ({ received := done ++ record }, true) := Sink.write_unlimited rfl record
      exact Format.write_of_encode hencode hwrite
    · rw [Format.write_of_encode hencode (Sink.write_withRoom done n record)]
      simp only [decide_eq_true_eq]
    · rintro pieces rfl
      rw [Sink.writeAll_withRoom, Sink.write_withRoom]

theorem refusal_blames_format_two_pieces :
    joined ["cpu ".toUTF8, "0\n".toUTF8] = Format.influx.recordOf { name := "cpu" }
      ∧ Output.writeAll (Sink.withRoom .empty 5) ["cpu ".toUTF8, "0\n".toUTF8] =
        (Sink.given .empty 5 (Format.influx.recordOf { name := "cpu" }), false)
      ∧ (Format.influx.write { name := "cpu" } (Sink.withRoom .empty 5)).2 = .error .sinkFull
      ∧ (WriteError.sinkFull.isDocumentError = true ↔ Format.influx = .mongo) := by
  have hpieces : joined ["cpu ".toUTF8, "0\n".toUTF8] =
      Format.influx.recordOf { name := "cpu" } := by decide +kernel
  have hover : ¬ (Format.influx.recordOf { name := "cpu" }).size ≤ 5 := by decide +kernel
  obtain ⟨hwrite, hkind⟩ := refusal_blames_format .influx { name := "cpu" } .empty 5
  obtain ⟨record, hencode, -, hlimited, hall⟩ := hwrite.resolve_right (fun h => by cases h.1)
  have hrecord : Format.influx.recordOf { name := "cpu" } = record := by
    rw [Format.recordOf, hencode]
    rfl
  rw [hrecord] at hpieces hover ⊢
  have herror : (Format.influx.write { name := "cpu" } (Sink.withRoom .empty 5)).2 =
      .error .sinkFull := by
    rw [hlimited, if_neg hover]
    rfl
  refine ⟨hpieces, ?_, herror, hkind Sink _ _ herror⟩
  rw [hall _ hpieces, decide_eq_false hover]

/-- The empty point has a record, so its document can be encoded; but if the sink is full, that is
reported as a failure of the document. -/
theorem full_sink_blames_document :
    (∃ record, Format.mongo.encode .empty = .ok record ∧ 0 < record.size
        ∧ Format.mongo.write .empty ({} : Sink) = ({ received := record }, .ok record.size))
      ∧ (Format.mongo.write .empty (Sink.withRoom .empty 0)).2 = .error .documentSinkFull
      ∧ WriteError.documentSinkFull.isDocumentError = true := by
  have hkeys {α : Type} : ∀ pair ∈ (#[] : Array (String × α)).toList,
      Bson.hasZero pair.1 = false := by simp
  obtain ⟨record, hencode⟩ := Format.mongo.exists_encode (p := .empty) hkeys hkeys
  have hpos := Format.size_pos_of_encode hencode
  have hunlimited : Output.write ({} : Sink) record = ({ received := record }, true) :=
    (Sink.write_unlimited rfl record).trans (by rw [ByteArray.empty_append])
  refine ⟨⟨record, hencode, hpos, Format.write_of_encode hencode hunlimited⟩, ?_, rfl⟩
  rw [Format.write_of_encode hencode (Sink.write_withRoom .empty 0 record)]
  simp [Nat.not_le_of_lt hpos, Format.sinkError]

end SeriesLoad
