import Mathlib.Data.List.TakeWhile
import Mathlib.Tactic.SplitIfs
import Mathlib.Tactic.Tauto
import SeriesLoad.DataJob
import SeriesLoad.Proofs.Text.Numerals
import SeriesLoad.Proofs.Time.Arithmetic

/-!
# The grammar of intervals

`Span.Spells` is the grammar of a span as text: blanks, a plus sign or none, decimal digits, a unit
or none, blanks. **A setting is accepted as an interval exactly if it spells a positive number of
units that fits the millisecond range, and then it is that many milliseconds**
(`Settings.interval_grammar`); any other text is refused and reported as it was given. So an
accepted interval is a positive number of whole milliseconds, and epochs are counted with a divisor
that is not zero.

The reader takes a text apart from its two ends. There are no blanks in what is spelled, so trimming
finds it (`Text.trim_append`); and the digits in front of a unit do not end in a letter, so the
first unit that the text ends in is the one that was meant (`Span.splitUnit_append`).
-/

namespace SeriesLoad

/-! ## Blanks -/

namespace Text

theorem isBlank_of_isDigit {c : Char} (h : c.isDigit = true) : isBlank c = false := by
  simp only [Char.isDigit, Bool.and_eq_true, decide_eq_true_eq] at h
  have hge : 48 ≤ c.toNat := h.1
  have hle : c.toNat ≤ 57 := h.2
  simp only [isBlank, blankRanges, List.any_cons, List.any_nil, Bool.or_false,
    Bool.or_eq_false_iff, Bool.and_eq_false_iff, decide_eq_false_iff_not]
  omega

/-- A text is what trimming leaves of it, with blanks around. -/
theorem exists_trim (cs : List Char) :
    ∃ front back, cs = front ++ trim cs ++ back ∧ (∀ c ∈ front, isBlank c = true)
      ∧ ∀ c ∈ back, isBlank c = true := by
  refine ⟨cs.takeWhile isBlank,
    ((cs.dropWhile isBlank).reverse.takeWhile isBlank).reverse, ?_, ?_, ?_⟩
  · rw [trim, List.append_assoc, ← List.reverse_append, List.takeWhile_append_dropWhile,
      List.reverse_reverse, List.takeWhile_append_dropWhile]
  · intro c hc
    exact List.mem_takeWhile_imp hc
  · intro c hc
    exact List.mem_takeWhile_imp (List.mem_reverse.mp hc)

/-- Of a text without blanks in it, blanks around it are trimmed and nothing else. -/
theorem trim_append {front core back : List Char} (hfront : ∀ c ∈ front, isBlank c = true)
    (hcore : ∀ c ∈ core, isBlank c = false) (hback : ∀ c ∈ back, isBlank c = true) :
    trim (front ++ core ++ back) = core := by
  have hkeep : ∀ {cs : List Char} (ds : List Char), cs ≠ [] → (∀ c ∈ cs, isBlank c = false) →
      (cs ++ ds).dropWhile isBlank = cs ++ ds := by
    intro cs ds hne hcs
    obtain ⟨c, rest, rfl⟩ := List.exists_cons_of_ne_nil hne
    have hc := hcs c List.mem_cons_self
    exact List.dropWhile_cons_of_neg (by rw [hc]; exact Bool.false_ne_true)
  have hback' : ∀ c ∈ back.reverse, isBlank c = true :=
    fun c hc => hback c (List.mem_reverse.mp hc)
  rw [trim, List.append_assoc, List.dropWhile_append_of_pos hfront]
  by_cases hempty : core = []
  · rw [hempty, List.nil_append, List.dropWhile_eq_nil_iff.mpr hback]
    rfl
  · have hreverse : core.reverse ≠ [] := fun h => hempty (List.reverse_eq_nil_iff.mp h)
    have hcore' : ∀ c ∈ core.reverse, isBlank c = false :=
      fun c hc => hcore c (List.mem_reverse.mp hc)
    have hend := hkeep [] hreverse hcore'
    rw [List.append_nil] at hend
    rw [hkeep back hempty hcore, List.reverse_append, List.dropWhile_append_of_pos hback', hend,
      List.reverse_reverse]

end Text

/-! ## Digits -/

theorem Except.map_eq_ok {ε α β : Type} {x : Except ε α} {f : α → β} {b : β} :
    x.map f = .ok b ↔ ∃ a, x = .ok a ∧ f a = b := by
  cases x with
  | error e => simp [Except.map]
  | ok a => simp [Except.map]

namespace Text.Integer

/-- Digits are read exactly if there is nothing but digits and their number is within the limit. -/
theorem digits_eq_ok_iff {limit : Nat} {fault : Fault} {n m : Nat} {ds : List Char}
    (hn : n ≤ limit) :
    digits limit fault n ds = .ok m ↔
      (∀ d ∈ ds, d.isDigit = true) ∧ ofDigits n ds = m ∧ m ≤ limit := by
  constructor
  · intro h
    induction ds generalizing n with
    | nil =>
      rw [digits, Except.ok.injEq] at h
      exact ⟨List.forall_mem_nil _, by rw [ofDigits_nil, h], h ▸ hn⟩
    | cons d ds ih =>
      rw [digits] at h
      split_ifs at h with hd
      simp only at h
      split_ifs at h with hover
      obtain ⟨hds, hvalue, hle⟩ := ih (Nat.le_of_not_lt hover) h
      exact ⟨List.forall_mem_cons.mpr ⟨hd, hds⟩, by rw [ofDigits_cons, hvalue], hle⟩
  · rintro ⟨hds, rfl, hle⟩
    exact digits_eq_ok hds hle

/-- A positive number is read exactly from its digits, with a plus sign in front or none. -/
theorem read_eq_ok_iff {r : Range} {cs : List Char} {n : Nat} (hn : 0 < n) :
    read r cs = .ok (n : Int) ↔
      ∃ sign ds, cs = sign ++ ds ∧ (sign = [] ∨ sign = ['+']) ∧ ds ≠ []
        ∧ (∀ d ∈ ds, d.isDigit = true) ∧ ofDigits 0 ds = n ∧ n ≤ r.max.toNat := by
  have hread : ∀ {ds : List Char},
      (digits r.max.toNat .tooLarge 0 ds).map Int.ofNat = .ok (n : Int) →
        (∀ d ∈ ds, d.isDigit = true) ∧ ofDigits 0 ds = n ∧ n ≤ r.max.toNat := by
    intro ds h
    obtain ⟨m, hdigits, hm⟩ := Except.map_eq_ok.mp h
    rw [← Int.ofNat.inj hm]
    exact (digits_eq_ok_iff (Nat.zero_le _)).mp hdigits
  constructor
  · intro h
    unfold read at h
    split at h
    · cases h
    · cases h
    · cases h
    · rename_i ds hne
      exact ⟨['+'], ds, rfl, .inr rfl, hne, hread h⟩
    · -- what is read behind a minus sign is not positive
      split_ifs at h
      obtain ⟨m, -, hm⟩ := Except.map_eq_ok.mp h
      simp only [Int.ofNat_eq_natCast] at hm
      omega
    · rename_i hne _ _ _ _
      exact ⟨[], cs, rfl, .inl rfl, hne, hread h⟩
  · rintro ⟨sign, ds, rfl, hsign, hne, hds, hvalue, hle⟩
    have hdigits : digits r.max.toNat .tooLarge 0 ds = .ok n :=
      (digits_eq_ok_iff (Nat.zero_le r.max.toNat)).mpr ⟨hds, hvalue, hle⟩
    obtain ⟨d, rest, rfl⟩ := List.exists_cons_of_ne_nil hne
    rcases hsign with rfl | rfl
    · rw [List.nil_append, read_of_isDigit (hds d List.mem_cons_self), hdigits]
      rfl
    · rw [List.singleton_append, read, hdigits]
      · rfl
      · exact List.cons_ne_nil d rest

end Text.Integer

/-! ## Units -/

namespace Span

/-- The ending of a unit, and its milliseconds. -/
inductive HasUnit : List Char → Nat → Prop
  | bare : HasUnit [] 1000
  | seconds : HasUnit ['s'] 1000
  | millis : HasUnit ['m', 's'] 1
  | minutes : HasUnit ['m'] 60000
  | hours : HasUnit ['h'] 3600000

theorem withoutEnding?_eq_some {ending cs rest : List Char} :
    withoutEnding? ending cs = some rest ↔ cs = rest ++ ending := by
  unfold withoutEnding?
  constructor
  · intro h
    split_ifs at h with hsuffix
    obtain ⟨front, rfl⟩ := List.isSuffixOf_iff_suffix.mp hsuffix
    rw [Option.some_inj, List.length_append, Nat.add_sub_cancel, List.take_left] at h
    rw [h]
  · rintro rfl
    rw [if_pos (List.isSuffixOf_iff_suffix.mpr (List.suffix_append rest ending)),
      List.length_append, Nat.add_sub_cancel, List.take_left]

theorem withoutEnding?_append (ending rest : List Char) :
    withoutEnding? ending (rest ++ ending) = some rest :=
  withoutEnding?_eq_some.mpr rfl

/-- A text with other last letters does not have an ending. -/
theorem withoutEnding?_of_ne {last ending : List Char} (front rest : List Char)
    (hlength : last.length = ending.length) (hne : last ≠ ending) :
    withoutEnding? (front ++ ending) (rest ++ last) = none := by
  cases h : withoutEnding? (front ++ ending) (rest ++ last) with
  | none => rfl
  | some number =>
    have heq := withoutEnding?_eq_some.mp h
    rw [← List.append_assoc] at heq
    exact absurd (List.append_inj_right' heq hlength) hne

/-- What is split off is the ending of a unit. -/
theorem splitUnit_eq {cs number : List Char} {millis : Int} (h : splitUnit cs = (number, millis)) :
    ∃ ending unit, cs = number ++ ending ∧ HasUnit ending unit ∧ millis = (unit : Int) := by
  have hunits : ∀ u ∈ units, ∃ unit, HasUnit u.1 unit ∧ u.2 = (unit : Int) := by
    simp only [units, List.forall_mem_cons, List.not_mem_nil, false_implies, implies_true, and_true]
    exact ⟨⟨_, .millis, rfl⟩, ⟨_, .hours, rfl⟩, ⟨_, .minutes, rfl⟩, ⟨_, .seconds, rfl⟩,
      ⟨_, .bare, rfl⟩⟩
  unfold splitUnit at h
  generalize hfind : units.findSome? _ = found? at h
  cases found? with
  | none =>
    cases h
    exact ⟨[], 1000, (List.append_nil _).symm, .bare, rfl⟩
  | some found =>
    obtain ⟨⟨ending, millis'⟩, hmem, hfound⟩ := List.exists_of_findSome?_eq_some hfind
    obtain ⟨rest, hrest, rfl⟩ := Option.map_eq_some_iff.mp hfound
    cases h
    obtain ⟨unit, hunit, hmillis⟩ := hunits _ hmem
    exact ⟨ending, unit, withoutEnding?_eq_some.mp hrest, hunit, hmillis⟩

/-- Behind a digit, a unit is split off whole. -/
theorem splitUnit_append {number ending : List Char} {unit : Nat} {d : Char}
    (hd : d.isDigit = true) (h : HasUnit ending unit) :
    splitUnit (number ++ [d] ++ ending) = (number ++ [d], (unit : Int)) := by
  have hletter : ∀ {c : Char}, c.isDigit = false → [d] ≠ [c] := by
    rintro c hc heq
    rw [← List.singleton_inj.mp heq, hd] at hc
    cases hc
  have hm := hletter (show 'm'.isDigit = false by decide)
  have hs := hletter (show 's'.isDigit = false by decide)
  have hh := hletter (show 'h'.isDigit = false by decide)
  -- `ms` is tried first, so behind `s` the digit has to be told from the `m` of it
  have hms : ∀ {c : Char}, [d, c] ≠ ['m', 's'] := by
    intro c heq
    exact hm (congrArg (fun cs => cs.take 1) heq)
  unfold splitUnit units
  cases h with
  | bare =>
    rw [List.append_nil]
    have hmillis : withoutEnding? ['m', 's'] (number ++ [d]) = none :=
      withoutEnding?_of_ne ['m'] number rfl hs
    have hhours : withoutEnding? ['h'] (number ++ [d]) = none :=
      withoutEnding?_of_ne [] number rfl hh
    have hminutes : withoutEnding? ['m'] (number ++ [d]) = none :=
      withoutEnding?_of_ne [] number rfl hm
    have hseconds : withoutEnding? ['s'] (number ++ [d]) = none :=
      withoutEnding?_of_ne [] number rfl hs
    have hbare := withoutEnding?_append [] (number ++ [d])
    rw [List.append_nil] at hbare
    simp only [List.findSome?_cons, hmillis, hhours, hminutes, hseconds, hbare, Option.map_none,
      Option.map_some]
    rfl
  | seconds =>
    have hmillis : withoutEnding? ['m', 's'] (number ++ [d] ++ ['s']) = none := by
      rw [List.append_assoc]
      exact withoutEnding?_of_ne [] number rfl hms
    have hhours : withoutEnding? ['h'] (number ++ [d] ++ ['s']) = none :=
      withoutEnding?_of_ne [] _ rfl (by decide)
    have hminutes : withoutEnding? ['m'] (number ++ [d] ++ ['s']) = none :=
      withoutEnding?_of_ne [] _ rfl (by decide)
    simp only [List.findSome?_cons, hmillis, hhours, hminutes, withoutEnding?_append,
      Option.map_none, Option.map_some]
    rfl
  | millis =>
    simp only [List.findSome?_cons, withoutEnding?_append, Option.map_some]
    rfl
  | minutes =>
    have hmillis : withoutEnding? ['m', 's'] (number ++ [d] ++ ['m']) = none :=
      withoutEnding?_of_ne ['m'] _ rfl (by decide)
    have hhours : withoutEnding? ['h'] (number ++ [d] ++ ['m']) = none :=
      withoutEnding?_of_ne [] _ rfl (by decide)
    simp only [List.findSome?_cons, hmillis, hhours, withoutEnding?_append, Option.map_none,
      Option.map_some]
    rfl
  | hours =>
    have hmillis : withoutEnding? ['m', 's'] (number ++ [d] ++ ['h']) = none :=
      withoutEnding?_of_ne ['m'] _ rfl (by decide)
    simp only [List.findSome?_cons, hmillis, withoutEnding?_append, Option.map_none,
      Option.map_some]
    rfl

/-! ## Spans as they are spelled -/

/-- A text that spells so many of a unit: a number of decimal digits with a plus sign in front or
none, the ending of the unit behind it, and blanks around. -/
def Spells (cs : List Char) (n unit : Nat) : Prop :=
  ∃ front sign ds ending back,
    cs = front ++ (sign ++ ds ++ ending) ++ back
      ∧ (∀ c ∈ front, Text.isBlank c = true) ∧ (∀ c ∈ back, Text.isBlank c = true)
      ∧ (sign = [] ∨ sign = ['+'])
      ∧ ds ≠ [] ∧ (∀ d ∈ ds, d.isDigit = true) ∧ Text.ofDigits 0 ds = n
      ∧ HasUnit ending unit

theorem HasUnit.pos {ending : List Char} {unit : Nat} (h : HasUnit ending unit) : 0 < unit := by
  cases h <;> decide

theorem HasUnit.not_blank {ending : List Char} {unit : Nat} (h : HasUnit ending unit) :
    ∀ c ∈ ending, Text.isBlank c = false := by
  intro c hc
  have hletter : c = 'm' ∨ c = 's' ∨ c = 'h' := by
    cases h <;> simp only [List.mem_cons, List.not_mem_nil, or_false] at hc <;> tauto
  rcases hletter with rfl | rfl | rfl <;> rfl

theorem ofMillis?_eq_some_iff {n : Nat} {d : Span} :
    ofMillis? (n : Int) = some d ↔ (n : Int) ≤ 2 ^ 63 - 1 ∧ d = ⟨(n : Int) * 1000000⟩ := by
  unfold ofMillis? maxMillis
  split_ifs with h
  · rw [Option.some_inj, eq_comm, and_iff_right h.2]
  · constructor
    · intro hnone
      cases hnone
    · intro hle
      omega

/-- A span that is read is spelled by the text. -/
theorem exists_spells_of_read? {s : String} {d : Span} (h : read? s = some d) :
    ∃ n unit, Spells s.toList n unit ∧ 1 ≤ n ∧ ((n * unit : Nat) : Int) ≤ 2 ^ 63 - 1
      ∧ d = ⟨((n * unit : Nat) : Int) * 1000000⟩ := by
  obtain ⟨front, back, htext, hfront, hback⟩ := Text.exists_trim s.toList
  unfold read? at h
  cases hsplit : splitUnit (Text.trim s.toList) with
  | mk number millis =>
    obtain ⟨ending, unit, htrim, hunit, rfl⟩ := splitUnit_eq hsplit
    cases hread : Text.Integer.read Text.Integer.signed number with
    | error fault =>
      simp only [hsplit, hread] at h
      cases h
    | ok value =>
      simp only [hsplit, hread] at h
      split_ifs at h with hpos
      obtain ⟨n, rfl⟩ := Int.eq_ofNat_of_zero_le (Int.le_of_lt hpos)
      have hn : 0 < n := Int.natCast_pos.mp hpos
      obtain ⟨sign, ds, rfl, hsign, hne, hds, hvalue, -⟩ :=
        (Text.Integer.read_eq_ok_iff hn).mp hread
      rw [← Int.natCast_mul] at h
      rw [htrim] at htext
      exact ⟨n, unit,
        ⟨front, sign, ds, ending, back, htext, hfront, hback, hsign, hne, hds, hvalue, hunit⟩,
        hn, ofMillis?_eq_some_iff.mp h⟩

/-- A text is read as the span that it spells, if that is in range. -/
theorem read?_of_spells {s : String} {n unit : Nat} (h : Spells s.toList n unit) (hn : 1 ≤ n)
    (hrange : ((n * unit : Nat) : Int) ≤ 2 ^ 63 - 1) :
    read? s = some ⟨((n * unit : Nat) : Int) * 1000000⟩ := by
  obtain ⟨front, sign, ds, ending, back, htext, hfront, hback, hsign, hne, hds, hvalue, hunit⟩ := h
  have hcore : ∀ c ∈ sign ++ ds ++ ending, Text.isBlank c = false := by
    intro c hc
    rcases List.mem_append.mp hc with hc | hc
    · rcases List.mem_append.mp hc with hc | hc
      · rcases hsign with rfl | rfl
        · cases hc
        · rw [List.mem_singleton.mp hc]
          decide
      · exact Text.isBlank_of_isDigit (hds c hc)
    · exact hunit.not_blank c hc
  have htrim : Text.trim s.toList = sign ++ ds ++ ending := by
    rw [htext, Text.trim_append hfront hcore hback]
  have hsplit : splitUnit (sign ++ ds ++ ending) = (sign ++ ds, (unit : Int)) := by
    obtain ⟨init, d, rfl⟩ := (List.eq_nil_or_concat ds).resolve_left hne
    have hd : d.isDigit = true := hds d (by simp)
    rw [List.concat_eq_append, ← List.append_assoc]
    exact splitUnit_append hd hunit
  have hread : Text.Integer.read Text.Integer.signed (sign ++ ds) = .ok (n : Int) := by
    have hle : n ≤ n * unit := Nat.le_mul_of_pos_right n hunit.pos
    have hmax : n ≤ Text.Integer.signed.max.toNat := by
      simp only [Text.Integer.signed]
      omega
    exact (Text.Integer.read_eq_ok_iff hn).mpr ⟨sign, ds, rfl, hsign, hne, hds, hvalue, hmax⟩
  have hpos : 0 < (n : Int) := Int.natCast_pos.mpr hn
  simp only [read?, htrim, hsplit, hread, if_pos hpos]
  rw [← Int.natCast_mul]
  exact ofMillis?_eq_some_iff.mpr ⟨hrange, rfl⟩

end Span

/-- By a positive interval epochs are counted as a quotient. -/
theorem epochCount_eq_toNat {d : Span} (hpos : 0 < d.wholeMillis) (start stop : Instant) :
    epochCount start stop d = ((stop.since start).wholeMillis / d.wholeMillis).toNat := by
  unfold epochCount
  by_cases hnone : d.wholeMillis ≤ 0 ∨ (stop.since start).wholeMillis ≤ 0
  · -- a window that is not positive has no whole interval in it
    have hwindow : (stop.since start).wholeMillis ≤ 0 := hnone.resolve_left (Int.not_le.mpr hpos)
    have hquotient := Int.ediv_nonpos_of_nonpos_of_neg hwindow hpos
    exact (if_pos hnone).trans (Int.toNat_of_nonpos hquotient).symm
  · exact if_neg hnone

theorem Settings.interval_eq_ok_iff {text : String} {d : Span} :
    Settings.interval text = .ok d ↔ Span.read? text = some d := by
  unfold Settings.interval
  cases h : Span.read? text <;> simp

/-- A setting is accepted as an interval exactly if it spells a positive number of units whose
milliseconds are in range, and then it is that span; any other text is refused and reported as it
was given. What is accepted is a positive number of whole milliseconds, and an epoch count is the
quotient by it. -/
theorem Settings.interval_grammar (text : String) :
    (∀ d, Settings.interval text = .ok d ↔
      ∃ n unit, Span.Spells text.toList n unit ∧ 1 ≤ n ∧ ((n * unit : Nat) : Int) ≤ 2 ^ 63 - 1
        ∧ d = ⟨((n * unit : Nat) : Int) * 1000000⟩)
    ∧ ((¬ ∃ n unit, Span.Spells text.toList n unit ∧ 1 ≤ n
          ∧ ((n * unit : Nat) : Int) ≤ 2 ^ 63 - 1) →
        Settings.interval text = .error (.interval text))
    ∧ ∀ d, Settings.interval text = .ok d →
        0 < d.wholeMillis ∧ d.nanos = d.wholeMillis * 1000000
          ∧ ∀ start stop, epochCount start stop d
              = ((stop.since start).wholeMillis / d.wholeMillis).toNat := by
  have haccepted : ∀ d, Settings.interval text = .ok d ↔
      ∃ n unit, Span.Spells text.toList n unit ∧ 1 ≤ n ∧ ((n * unit : Nat) : Int) ≤ 2 ^ 63 - 1
        ∧ d = ⟨((n * unit : Nat) : Int) * 1000000⟩ := by
    intro d
    rw [Settings.interval_eq_ok_iff]
    constructor
    · exact Span.exists_spells_of_read?
    · rintro ⟨n, unit, hspells, hn, hrange, rfl⟩
      exact Span.read?_of_spells hspells hn hrange
  refine ⟨haccepted, ?_, ?_⟩
  · intro hnone
    unfold Settings.interval
    cases hread : Span.read? text with
    | none => rfl
    | some d =>
      obtain ⟨n, unit, hspells, hn, hrange, -⟩ := Span.exists_spells_of_read? hread
      exact absurd ⟨n, unit, hspells, hn, hrange⟩ hnone
  · intro d hd
    obtain ⟨hpos, hnanos⟩ := Span.wholeMillis_of_read? (Settings.interval_eq_ok_iff.mp hd)
    exact ⟨hpos, hnanos, epochCount_eq_toNat hpos⟩

/-- Five minutes, with a sign, zeros and blanks; and a text whose unit stands apart from its
number. -/
theorem Settings.interval_grammar_minutes :
    (Span.Spells " +005m ".toList 5 60000 ∧ Settings.interval " +005m " = .ok ⟨300000000000⟩
      ∧ 0 < (⟨300000000000⟩ : Span).wholeMillis)
    ∧ Settings.interval "5 m" = .error (.interval "5 m") := by
  have hblank : ∀ c ∈ [' '], Text.isBlank c = true := List.forall_mem_singleton.mpr rfl
  have hdigits : ∀ d ∈ ['0', '0', '5'], d.isDigit = true := by simp
  have hspells : Span.Spells " +005m ".toList 5 60000 :=
    ⟨[' '], ['+'], ['0', '0', '5'], ['m'], [' '], by decide, hblank, hblank, .inr rfl,
      List.cons_ne_nil _ _, hdigits, rfl, .minutes⟩
  have hok : Settings.interval " +005m " = .ok ⟨300000000000⟩ :=
    ((Settings.interval_grammar " +005m ").1 _).mpr ⟨5, 60000, hspells, by decide, by decide, rfl⟩
  refine ⟨⟨hspells, hok, ((Settings.interval_grammar " +005m ").2.2 _ hok).1⟩, ?_⟩
  apply (Settings.interval_grammar "5 m").2.1
  rintro ⟨n, unit, hapart, hn, hrange⟩
  have hread : Span.read? "5 m" = none := by decide
  rw [Span.read?_of_spells hapart hn hrange] at hread
  cases hread

end SeriesLoad
