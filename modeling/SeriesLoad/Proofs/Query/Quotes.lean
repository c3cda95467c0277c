import SeriesLoad.Text.Digits

/-!
# Quoted texts

A statement names the bounds of its window as texts in single quotes, behind `time >= ` and
`time < `. Quotes also stand around the names of hosts and around the length of a bucket, and
depending on the engine the hosts are named before the bounds or behind them.

`Text.quotedAfter?` takes the first text that is quoted behind a mark. Words in quotes that stand
behind something else are passed over, one by one (`Quotes.skip`) or as a list of them
(`Quotes.skipList`), so **bounds are found behind a list of words** (`Quotes.boundsBehind`).
-/

namespace SeriesLoad

namespace Text

/-- The mark in front of a quoted text and behind it. -/
def quoteMark : Char := '\x27'

/-- The first text that is quoted behind a mark. What is outside the quotes and what is inside take
turns. -/
def quotedAfter? (mark : List Char) : List (List Char) → Option (List Char)
  | outside :: inside :: rest =>
    if mark <:+ outside then some inside else quotedAfter? mark rest
  | _ => none

theorem quotedAfter?_splitOn {outside inside : List Char} (houtside : quoteMark ∉ outside)
    (hinside : quoteMark ∉ inside) (mark rest : List Char) :
    quotedAfter? mark ((outside ++ quoteMark :: (inside ++ quoteMark :: rest)).splitOn quoteMark) =
      if mark <:+ outside then some inside else quotedAfter? mark (rest.splitOn quoteMark) := by
  rw [List.splitOn_append_cons_self_of_not_mem houtside,
    List.splitOn_append_cons_self_of_not_mem hinside, quotedAfter?]

/-- Text outside of quotes that is not in front of a bound. -/
def Harmless (cs : List Char) : Prop :=
  quoteMark ∉ cs ∧ ¬ "time >= ".toList <:+ cs ∧ ¬ "time < ".toList <:+ cs

instance (cs : List Char) : Decidable (Harmless cs) :=
  inferInstanceAs (Decidable (_ ∧ _ ∧ _))

/-- The end of a text decides alone if it is long enough for the marks. -/
theorem Harmless.append {cs ds : List Char} (hcs : quoteMark ∉ cs) (hds : Harmless ds)
    (hlength : 8 ≤ ds.length) : Harmless (cs ++ ds) := by
  have hend : ∀ mark : List Char, mark.length ≤ 8 → mark <:+ cs ++ ds → mark <:+ ds :=
    fun mark hmark h => List.suffix_of_suffix_length_le h (List.suffix_append cs ds) (by omega)
  obtain ⟨hquote, hstart, hstop⟩ := hds
  refine ⟨?_, fun h => hstart (hend _ (by decide) h), fun h => hstop (hend _ (by decide) h)⟩
  rw [List.mem_append, not_or]
  exact ⟨hcs, hquote⟩

/-- What is quoted behind the two marks of a window. -/
def Quotes (cs start stop : List Char) : Prop :=
  quotedAfter? "time >= ".toList (cs.splitOn quoteMark) = some start
    ∧ quotedAfter? "time < ".toList (cs.splitOn quoteMark) = some stop

/-- A word in quotes before the bounds is passed over. -/
theorem Quotes.skip {outside inside rest start stop : List Char} (houtside : Harmless outside)
    (hinside : quoteMark ∉ inside) (h : Quotes rest start stop) :
    Quotes (outside ++ quoteMark :: (inside ++ quoteMark :: rest)) start stop := by
  obtain ⟨hquote, hstart, hstop⟩ := houtside
  constructor
  · rw [quotedAfter?_splitOn hquote hinside, if_neg hstart]
    exact h.1
  · rw [quotedAfter?_splitOn hquote hinside, if_neg hstop]
    exact h.2

/-- So are all words of a list. -/
theorem Quotes.skipList {lead sep word rest start stop : List Char} {words : List String}
    (hsep : Harmless (sep ++ word)) (hlead : Harmless (lead ++ word)) (hquote : quoteMark ∉ lead)
    (hwords : ∀ w ∈ words, quoteMark ∉ w.toList)
    (h : ∀ lead, quoteMark ∉ lead → Quotes (lead ++ rest) start stop) :
    Quotes (lead ++ ((sep.intercalate (words.map fun w =>
      word ++ quoteMark :: (w.toList ++ [quoteMark]))) ++ rest)) start stop := by
  induction words generalizing lead with
  | nil => exact h lead hquote
  | cons w words ih =>
    obtain ⟨hw, hwords⟩ := List.forall_mem_cons.mp hwords
    cases words with
    | nil =>
      have := Quotes.skip hlead hw (h [] (by simp))
      simpa using this
    | cons w' words =>
      have hsepQuote : quoteMark ∉ sep := fun hmem => hsep.1 (List.mem_append_left _ hmem)
      have hrest := ih hsep hsepQuote hwords
      have := Quotes.skip hlead hw hrest
      simpa [List.intercalate_cons_cons] using this

/-- Two bounds, as they stand in a statement. -/
def boundChars (between start stop rest : List Char) : List Char :=
  "time >= ".toList ++ quoteMark :: (start ++ quoteMark ::
    (between ++ ("time < ".toList ++ quoteMark :: (stop ++ quoteMark :: rest))))

theorem Quotes.bounds (between : List Char) {lead start stop : List Char} (hlead : quoteMark ∉ lead)
    (hbetween : quoteMark ∉ between) (hstart : quoteMark ∉ start) (hstop : quoteMark ∉ stop)
    (rest : List Char) : Quotes (lead ++ boundChars between start stop rest) start stop := by
  have houtside : quoteMark ∉ lead ++ "time >= ".toList := by
    rw [List.mem_append, not_or]
    exact ⟨hlead, by decide⟩
  have hinside : quoteMark ∉ between ++ "time < ".toList := by
    rw [List.mem_append, not_or]
    exact ⟨hbetween, by decide⟩
  have hmarks : ¬ "time < ".toList <:+ lead ++ "time >= ".toList := by
    intro h
    have := List.suffix_of_suffix_length_le h (List.suffix_append lead _) (by decide)
    exact absurd this (by decide)
  unfold boundChars
  constructor
  · rw [← List.append_assoc, quotedAfter?_splitOn houtside hstart,
      if_pos (List.suffix_append lead _)]
  · rw [← List.append_assoc, quotedAfter?_splitOn houtside hstart, if_neg hmarks,
      ← List.append_assoc, quotedAfter?_splitOn hinside hstop,
      if_pos (List.suffix_append between _)]

/-- Bounds behind a list of words in quotes. -/
theorem Quotes.boundsBehind (sep close between : List Char) {lead word start stop : List Char}
    {words : List String} (hsep : Harmless (sep ++ word)) (hlead : Harmless (lead ++ word))
    (hwords : ∀ w ∈ words, quoteMark ∉ w.toList) (hclose : quoteMark ∉ close)
    (hbetween : quoteMark ∉ between) (hstart : quoteMark ∉ start) (hstop : quoteMark ∉ stop)
    (rest : List Char) :
    Quotes (lead ++ (sep.intercalate (words.map fun w =>
      word ++ quoteMark :: (w.toList ++ [quoteMark])) ++
        (close ++ boundChars between start stop rest))) start stop := by
  refine Quotes.skipList hsep hlead (fun h => hlead.1 (List.mem_append_left _ h)) hwords ?_
  intro lead hlead
  have houtside : quoteMark ∉ lead ++ close := by
    rw [List.mem_append, not_or]
    exact ⟨hlead, hclose⟩
  rw [← List.append_assoc]
  exact Quotes.bounds between houtside hbetween hstart hstop rest

theorem not_mem_intercalate {c : Char} {sep : List Char} {words : List (List Char)}
    (hsep : c ∉ sep) (h : ∀ w ∈ words, c ∉ w) : c ∉ sep.intercalate words := by
  induction words with
  | nil => simp
  | cons w words ih =>
    obtain ⟨hw, hwords⟩ := List.forall_mem_cons.mp h
    cases words with
    | nil => simpa using hw
    | cons w' words =>
      rw [List.intercalate_cons_cons, List.mem_append, List.mem_append, not_or, not_or]
      exact ⟨⟨hw, hsep⟩, ih hwords⟩

theorem quoteMark_not_mem_intercalate {sep : String} {words : List String}
    (hsep : quoteMark ∉ sep.toList) (h : ∀ w ∈ words, quoteMark ∉ w.toList) :
    quoteMark ∉ (String.intercalate sep words).toList := by
  rw [String.toList_intercalate]
  exact not_mem_intercalate hsep (by simpa using h)

theorem quoteMark_not_mem_append {s t : String} :
    quoteMark ∉ (s ++ t).toList ↔ quoteMark ∉ s.toList ∧ quoteMark ∉ t.toList := by
  rw [String.toList_append, List.mem_append, not_or]

end Text

end SeriesLoad
