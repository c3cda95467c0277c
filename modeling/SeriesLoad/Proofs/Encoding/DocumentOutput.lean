import Mathlib.Data.List.Forall2
import SeriesLoad.Proofs.Encoding.DocumentReader
import SeriesLoad.Proofs.Run.Partition

/-!
# Binary documents in the output

The records of points in the document format stand one behind the other without anything between
them. **They are taken apart again by their own lengths, in one way only, and each is the document of
its point** (`documents_read_back`).

A value of a document is taken back to a value of a field by its type alone (`Value.field?`): every
type stands for one kind of field, and the words of doubles are kept whole.

A document that is built by inserting pairs has each key once, where it was inserted first, with the
value that was inserted last (`Document.merges_foldl_insert`). That is an induction on the pairs from
their end: one more pair changes a value in place or adds a key behind.
-/

namespace SeriesLoad

namespace Bson

/-! ## The way back -/

/-- The text that a value is. -/
def Value.text? : Value → Option String
  | .string s => some s
  | _ => none

/-- The field value that a value of a document is. -/
def Value.field? : Value → Option FieldValue
  | .double x => some (.float x)
  | .int64 n => some (.int n)
  | .boolean b => some (.bool b)
  | .binary bs => some (.bytes bs)
  | .string _ => none
  | .document _ => none

theorem Value.field?_fieldValue (v : FieldValue) :
    (PointDocument.fieldValue v).field? = some v := by
  cases v <;> rfl

/-! ## Repeated keys -/

/-- A document has the keys of some pairs, each once and in the order of their first pairs, and what
is read of its values are the values of their last pairs. -/
structure Document.Merges {α : Type} (read : Value → Option α) (pairs : List (String × α))
    (d : Document) : Prop where
  keys : d.map (·.1) = (pairs.map (·.1)).eraseDups
  values : ∀ key, (d.lookup key).bind read = pairs.reverse.lookup key

theorem lookup_cons {α : Type} (k : String) (pair : String × α) (rest : List (String × α)) :
    (pair :: rest).lookup k = if k = pair.1 then some pair.2 else rest.lookup k := by
  rw [List.lookup_cons]
  by_cases h : k = pair.1
  · rw [if_pos h, beq_iff_eq.mpr h]
  · rw [if_neg h, beq_eq_false_iff_ne.mpr h]

/-- An insertion leaves the keys as they are, but for a new one, which goes behind them. -/
theorem Document.keys_insert (key : String) (v : Value) (d : Document) :
    (d.insert key v).map (·.1) = d.map (·.1) ++ if key ∈ d.map (·.1) then [] else [key] := by
  induction d with
  | nil => rfl
  | cons member rest ih =>
    obtain ⟨k, w⟩ := member
    rw [insert]
    by_cases hk : k = key
    · simp [hk]
    · have hne : key ≠ k := Ne.symm hk
      rw [if_neg hk, List.map_cons, List.map_cons, ih, List.cons_append]
      simp only [List.mem_cons, hne, false_or]

theorem Document.lookup_insert (key : String) (v : Value) (d : Document) (k : String) :
    (d.insert key v).lookup k = if k = key then some v else d.lookup k := by
  induction d with
  | nil => rw [insert, lookup_cons]
  | cons member rest ih =>
    obtain ⟨k', w⟩ := member
    rw [insert]
    by_cases hk' : k' = key
    · rw [if_pos hk', lookup_cons, lookup_cons, hk']
      split_ifs <;> rfl
    · rw [if_neg hk', lookup_cons, lookup_cons, ih]
      split_ifs with h₁ h₂
      · exact absurd (h₁.symm.trans h₂) hk'
      all_goals rfl

theorem eraseDups_concat (keys : List String) (key : String) :
    (keys ++ [key]).eraseDups = keys.eraseDups ++ if key ∈ keys.eraseDups then [] else [key] := by
  rw [List.eraseDups_append]
  by_cases h : key ∈ keys
  · rw [if_pos (List.mem_eraseDups.mpr h)]
    simp [List.removeAll, h]
  · rw [if_neg (mt List.mem_eraseDups.mp h)]
    simp [List.removeAll, h, List.eraseDups_cons]

theorem Document.keys_foldl_insert {α : Type} (f : α → Value) (pairs : List (String × α)) :
    (pairs.foldl (fun d pair => Document.insert pair.1 (f pair.2) d) []).map (·.1) =
      (pairs.map (·.1)).eraseDups := by
  induction pairs using List.reverseRecOn with
  | nil => rfl
  | append_singleton pairs pair ih =>
    rw [List.foldl_append, List.foldl_cons, List.foldl_nil, keys_insert, ih, List.map_append,
      List.map_singleton, eraseDups_concat]

theorem Document.lookup_foldl_insert {α : Type} (f : α → Value) (pairs : List (String × α))
    (key : String) :
    (pairs.foldl (fun d pair => Document.insert pair.1 (f pair.2) d) []).lookup key =
      (pairs.reverse.lookup key).map f := by
  induction pairs using List.reverseRecOn with
  | nil => rfl
  | append_singleton pairs pair ih =>
    rw [List.foldl_append, List.foldl_cons, List.foldl_nil, lookup_insert, ih,
      List.reverse_append, List.reverse_singleton, List.singleton_append, lookup_cons]
    split_ifs <;> rfl

/-- Pairs that are inserted one after the other are merged, if their values can be read back. -/
theorem Document.merges_foldl_insert {α : Type} {f : α → Value} {read : Value → Option α}
    (hread : ∀ a, read (f a) = some a) (pairs : List (String × α)) :
    Document.Merges read pairs (pairs.foldl (fun d pair => d.insert pair.1 (f pair.2)) []) where
  keys := keys_foldl_insert f pairs
  values key := by
    rw [lookup_foldl_insert, Option.bind_map]
    have hself : read ∘ f = some := funext hread
    rw [hself, Option.bind_fun_some]

end Bson

/-! ## Records -/

theorem toList_joined (records : List ByteArray) :
    (joined records).data.toList = (records.map (·.data.toList)).flatten := by
  induction records with
  | nil => rfl
  | cons record records ih =>
    rw [joined_cons, ByteArray.data_append, Array.toList_append, ih, List.map_cons,
      List.flatten_cons]

/-- No key of a tag or a field has a zero byte in it. -/
def Point.HasKeys (p : Point) : Prop :=
  (∀ tag ∈ p.tags.toList, '\x00' ∉ tag.1.toList)
    ∧ ∀ field ∈ p.fields.toList, '\x00' ∉ field.1.toList

theorem Bson.hasZero_eq_false {key : String} (h : '\x00' ∉ key.toList) : hasZero key = false := by
  rw [hasZero, ← Bool.not_eq_true, List.contains_iff_mem]
  exact h

namespace Point.HasKeys

variable {p : Point}

theorem badMember? (h : p.HasKeys) : Bson.badMember? (PointDocument.ofPoint p) = none :=
  PointDocument.badMember?_ofPoint (fun tag htag => Bson.hasZero_eq_false (h.1 tag htag))
    fun field hfield => Bson.hasZero_eq_false (h.2 field hfield)

theorem encode_eq (h : p.HasKeys) :
    Format.mongo.encode p = .ok ⟨(PointDocument.ofPoint p).bytes.toArray⟩ := by
  rw [Format.encode, Bson.Document.encode, h.badMember?]

theorem encodes (h : p.HasKeys) : Format.mongo.Encodes p := by
  rw [Format.Encodes, Format.recordOf, h.encode_eq]
  rfl

theorem toList_recordOf (h : p.HasKeys) :
    (Format.mongo.recordOf p).data.toList = (PointDocument.ofPoint p).bytes := by
  rw [Format.recordOf, h.encode_eq]
  rfl

theorem length?_recordOf (h : p.HasKeys) (hsize : (PointDocument.ofPoint p).bytes.length < 2 ^ 31) :
    Bson.Reader.length? (Format.mongo.recordOf p).data.toList =
      some (Format.mongo.recordOf p).size := by
  have hlength : (Format.mongo.recordOf p).size = (PointDocument.ofPoint p).bytes.length := by
    rw [← h.toList_recordOf]
    rfl
  rw [hlength, h.toList_recordOf]
  exact Bson.Reader.length?_framed hsize

/-- The record of a point is read back as a document that has all of the point. -/
theorem decode?_recordOf (h : p.HasKeys)
    (hsize : (PointDocument.ofPoint p).bytes.length < 2 ^ 31) :
    ∃ time tags fields,
      Bson.Reader.decode? (Format.mongo.recordOf p).data.toList = some
        [("measurement", .string p.name), ("timestamp_ns", .int64 time),
         ("tags", .document tags), ("fields", .document fields)]
      ∧ time.toInt = p.nanos
      ∧ Bson.Document.Merges Bson.Value.text? p.tags.toList tags
      ∧ Bson.Document.Merges Bson.Value.field? p.fields.toList fields := by
  refine ⟨Int64.ofInt p.nanos, PointDocument.tags p.tags.toList,
    PointDocument.fields p.fields.toList, ?_, ?_,
    Bson.Document.merges_foldl_insert (f := .string) (fun _ => rfl) _,
    Bson.Document.merges_foldl_insert Bson.Value.field?_fieldValue _⟩
  · rw [h.toList_recordOf, Bson.Reader.decode?_bytes h.badMember? hsize]
    rfl
  · obtain ⟨hmin, hmax⟩ := Instant.unixNanos_mem p.time
    exact Int64.toInt_ofInt_of_le hmin (Int.lt_of_le_of_lt hmax (by decide))

end Point.HasKeys

/-- The documents of points whose keys have no zero byte in them, one behind the other, are taken
apart by the length that each begins with, which is its own, and in no other way. Each of them is
read as the name, the time, the tags and the fields of its point. What the type and the bytes of a
value tell is the value of the field, of the same kind and bit for bit; a key that a point has more
than once is there once, at its first place and with its last value. -/
theorem documents_read_back (points : List Point) (hkeys : ∀ p ∈ points, p.HasKeys)
    (hsize : ∀ p ∈ points, (PointDocument.ofPoint p).bytes.length < 2 ^ 31) :
    ∃ records : List ByteArray, points.map Format.mongo.encode = records.map .ok
      ∧ (∀ record ∈ records, Bson.Reader.length? record.data.toList = some record.size)
      ∧ Bson.Reader.split? (joined records).data.toList = some (records.map (·.data.toList))
      ∧ (∀ pieces : List (List UInt8),
          (∀ piece ∈ pieces, Bson.Reader.length? piece = some piece.length) →
          pieces.flatten = (joined records).data.toList → pieces = records.map (·.data.toList))
      ∧ List.Forall₂ (fun p record => ∃ time tags fields,
          Bson.Reader.decode? record.data.toList = some
            [("measurement", .string p.name), ("timestamp_ns", .int64 time),
             ("tags", .document tags), ("fields", .document fields)]
          ∧ time.toInt = p.nanos
          ∧ Bson.Document.Merges Bson.Value.text? p.tags.toList tags
          ∧ Bson.Document.Merges Bson.Value.field? p.fields.toList fields)
        points records := by
  have hlengths : ∀ record ∈ points.map Format.mongo.recordOf,
      Bson.Reader.length? record.data.toList = some record.size := by
    intro record hrecord
    obtain ⟨p, hp, rfl⟩ := List.mem_map.mp hrecord
    exact (hkeys p hp).length?_recordOf (hsize p hp)
  have hsplit : Bson.Reader.split? (joined (points.map Format.mongo.recordOf)).data.toList =
      some ((points.map Format.mongo.recordOf).map (·.data.toList)) := by
    rw [toList_joined]
    refine Bson.Reader.split?_flatten fun piece hpiece => ?_
    obtain ⟨record, hrecord, rfl⟩ := List.mem_map.mp hpiece
    exact hlengths record hrecord
  refine ⟨points.map Format.mongo.recordOf,
    Format.map_encode fun p hp => (hkeys p hp).encodes, hlengths, hsplit,
    fun pieces hpieces hflatten => ?_, ?_⟩
  · have hpieces' := Bson.Reader.split?_flatten hpieces
    rw [hflatten, hsplit] at hpieces'
    exact (Option.some.inj hpieces').symm
  · refine List.forall₂_map_right_iff.mpr (List.forall₂_same.mpr fun p hp => ?_)
    exact (hkeys p hp).decode?_recordOf (hsize p hp)

/-- A point with a tag key and a field key that are there twice, with bytes that are no text and
with one of the many words for what is not a number. -/
def repeatedKeys : Point where
  name := "cpu"
  tags := #[("host", "a"), ("rack", "1"), ("host", "b")]
  fields := #[("raw", .bytes [0xFF, 0x00]), ("load", .int (-1)), ("idle", .bool true),
    ("load", .float ⟨0xFFF8000000000001⟩)]

theorem documents_read_back_repeated_keys :
    repeatedKeys.HasKeys ∧ (PointDocument.ofPoint repeatedKeys).bytes.length < 2 ^ 31
      ∧ ∃ first second : ByteArray,
        Bson.Reader.split? (first ++ second).data.toList =
            some [first.data.toList, second.data.toList]
          ∧ Format.mongo.encode repeatedKeys = .ok first
          ∧ ∃ time tags fields, Bson.Reader.decode? first.data.toList = some
              [("measurement", .string "cpu"), ("timestamp_ns", .int64 time),
               ("tags", .document tags), ("fields", .document fields)]
            ∧ time.toInt = 0
            ∧ tags.map (·.1) = ["host", "rack"] ∧ fields.map (·.1) = ["raw", "load", "idle"]
            ∧ (tags.lookup "host").bind Bson.Value.text? = some "b"
            ∧ (fields.lookup "raw").bind Bson.Value.field? = some (.bytes [0xFF, 0x00])
            ∧ (fields.lookup "load").bind Bson.Value.field? =
                some (.float ⟨0xFFF8000000000001⟩) := by
  have hkeys : repeatedKeys.HasKeys := by
    unfold Point.HasKeys
    decide
  have hsize : (PointDocument.ofPoint repeatedKeys).bytes.length < 2 ^ 31 := by decide +kernel
  obtain ⟨records, hencode, -, hsplit, -, hdecode⟩ :=
    documents_read_back [repeatedKeys, repeatedKeys]
      (List.forall_mem_cons.mpr ⟨hkeys, List.forall_mem_singleton.mpr hkeys⟩)
      (List.forall_mem_cons.mpr ⟨hsize, List.forall_mem_singleton.mpr hsize⟩)
  obtain ⟨first, rest, hfirst, hrest, rfl⟩ := List.forall₂_cons_left_iff.mp hdecode
  obtain ⟨second, rest, -, hnil, rfl⟩ := List.forall₂_cons_left_iff.mp hrest
  obtain rfl := List.forall₂_nil_left_iff.mp hnil
  obtain ⟨time, tags, fields, hread, htime, htags, hfields⟩ := hfirst
  refine ⟨hkeys, hsize, first, second, ?_, ?_, time, tags, fields, hread, ?_, ?_, ?_, ?_, ?_, ?_⟩
  · rwa [joined_cons, joined_cons, joined_nil, ByteArray.append_empty] at hsplit
  · exact (List.cons.inj hencode).1
  · exact htime.trans (by decide)
  · exact htags.keys.trans (by decide)
  · exact hfields.keys.trans (by decide)
  · exact (htags.values "host").trans rfl
  · exact (hfields.values "raw").trans rfl
  · exact (hfields.values "load").trans rfl

end SeriesLoad
