import SeriesLoad.Encoding

/-!
# Points that have a record

Only the document format can refuse a point, and it refuses none but for a key with a zero byte.
So **a point whose tag and field keys are free of zero bytes has a record in every format**
(`Format.exists_encode`).

A document is built by `insert`, which adds no key that is not asked for; the walk over the members
that looks for a bad key then meets only keys of the point.
-/

namespace SeriesLoad

namespace Bson

theorem badMember?_eq_none {d : Document}
    (h : ∀ member ∈ d, hasZero member.1 = false ∧ member.2.badKey? = none) :
    badMember? d = none := by
  induction d with
  | nil => simp [badMember?]
  | cons member rest ih =>
    obtain ⟨⟨hkey, hvalue⟩, hrest⟩ := List.forall_mem_cons.mp h
    obtain ⟨key, v⟩ := member
    simp only [badMember?, hkey, hvalue, ih hrest]
    simp

theorem Document.mem_insert {key : String} {v : Value} {d : Document} {member : String × Value}
    (h : member ∈ d.insert key v) : member = (key, v) ∨ member ∈ d := by
  induction d with
  | nil => exact .inl (List.mem_singleton.mp h)
  | cons head rest ih =>
    obtain ⟨k, w⟩ := head
    rw [insert] at h
    split at h
    · rcases List.mem_cons.mp h with h | h
      · exact .inl h
      · exact .inr (List.mem_cons_of_mem _ h)
    · rcases List.mem_cons.mp h with h | h
      · exact .inr (h ▸ List.mem_cons_self)
      · exact (ih h).imp_right (List.mem_cons_of_mem _)

/-- Members that are inserted one after the other come from the pairs they are made of. -/
theorem Document.mem_foldl_insert {α : Type} (f : α → Value) (pairs : List (String × α))
    (d : Document) {member : String × Value}
    (h : member ∈ pairs.foldl (fun d pair => d.insert pair.1 (f pair.2)) d) :
    member ∈ d ∨ ∃ pair ∈ pairs, member = (pair.1, f pair.2) := by
  induction pairs generalizing d with
  | nil => exact .inl h
  | cons pair rest ih =>
    rcases ih _ h with h | ⟨q, hq, heq⟩
    · rcases mem_insert h with rfl | h
      · exact .inr ⟨pair, List.mem_cons_self, rfl⟩
      · exact .inl h
    · exact .inr ⟨q, List.mem_cons_of_mem _ hq, heq⟩

/-- A document made of pairs with good keys and flat values has no bad key. -/
theorem badKey?_foldl_insert {α : Type} {f : α → Value} (hf : ∀ a, (f a).badKey? = none)
    {pairs : List (String × α)} (h : ∀ pair ∈ pairs, hasZero pair.1 = false) :
    (Value.document (pairs.foldl (fun d pair => Document.insert pair.1 (f pair.2) d) [])).badKey? =
      none := by
  rw [Value.badKey?]
  refine badMember?_eq_none fun member hmember => ?_
  rcases Document.mem_foldl_insert f pairs [] hmember with hnil | ⟨pair, hpair, rfl⟩
  · cases hnil
  · exact ⟨h pair hpair, hf pair.2⟩

end Bson

theorem PointDocument.badMember?_ofPoint {p : Point}
    (htags : ∀ tag ∈ p.tags.toList, Bson.hasZero tag.1 = false)
    (hfields : ∀ field ∈ p.fields.toList, Bson.hasZero field.1 = false) :
    Bson.badMember? (ofPoint p) = none := by
  refine Bson.badMember?_eq_none ?_
  simp only [ofPoint, List.forall_mem_cons]
  refine ⟨⟨by decide, by simp [Bson.Value.badKey?]⟩, ⟨by decide, by simp [Bson.Value.badKey?]⟩,
    ⟨by decide, ?_⟩, ⟨by decide, ?_⟩, by simp⟩
  · exact Bson.badKey?_foldl_insert (fun _ => by simp [Bson.Value.badKey?]) htags
  · refine Bson.badKey?_foldl_insert (fun v => ?_) hfields
    cases v <;> simp [PointDocument.fieldValue, Bson.Value.badKey?]

/-- A point without zero bytes in its keys has a record in every format. -/
theorem Format.exists_encode (f : Format) {p : Point}
    (htags : ∀ tag ∈ p.tags.toList, Bson.hasZero tag.1 = false)
    (hfields : ∀ field ∈ p.fields.toList, Bson.hasZero field.1 = false) :
    ∃ record, f.encode p = .ok record := by
  cases f with
  | mongo =>
    rw [encode, Bson.Document.encode, PointDocument.badMember?_ofPoint htags hfields]
    exact ⟨_, rfl⟩
  | _ => exact ⟨_, rfl⟩

end SeriesLoad
