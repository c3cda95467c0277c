import SeriesLoad.Json.Reader
import SeriesLoad.Proofs.Text.Plain

/-!
# JSON documents read back

A document that is printed stands on one line, and **reading that line gives the document back**
(`parse?_render`, `newline_not_mem_chars`). Strings and keys may have any characters in them.

`Json.Readable` says which documents: their whole numbers fit 64 bits, their nesting is not too deep,
and each of their doubles is read back by itself (`ReadsBack`). Doubles are an assumption because the
reader is not exact for all of them.

A reader gives back what stands behind the text that it was made for. For all texts but numbers that
may be anything, and a number is ended by every character that does not go on with one (`Ends`).
-/

namespace SeriesLoad.Json

/-! ## Numbers -/

/-- The character goes on with a number. -/
def goesOn (c : Char) : Bool := c.isDigit || c = '.' || c = 'e' || c = 'E'

/-- A number in front comes to its end here. -/
def Ends (rest : List Char) : Prop := ∀ c ∈ rest.head?, goesOn c = false

theorem ends_nil : Ends [] := by simp [Ends]

theorem ends_cons {c : Char} (h : goesOn c = false) (rest : List Char) : Ends (c :: rest) := by
  intro d hd
  rw [List.head?_cons, Option.mem_some_iff] at hd
  exact hd ▸ h

theorem head?_toDigits {n : Nat} (h : 0 < n) : (Nat.toDigits 10 n).head? ≠ some '0' := by
  induction n using Nat.strongRecOn with
  | ind n ih =>
    by_cases hlt : n < 10
    · have hdigits : ∀ d < 10, 0 < d → Nat.digitChar d ≠ '0' := by decide
      rw [Nat.toDigits_of_lt_base hlt, List.head?_cons, ne_eq, Option.some_inj]
      exact hdigits n hlt h
    · have hle : 10 ≤ n := Nat.le_of_not_lt hlt
      have hfirst := ih (n / 10) (by omega) (by omega)
      obtain ⟨c, cs, hcs, -⟩ := Text.Integer.exists_toDigits (n / 10)
      rw [Nat.toDigits_of_base_le (by decide) hle, hcs]
      rwa [hcs] at hfirst

/-- A number has no zero in front. -/
theorem leading_toDigits (n : Nat) :
    ((Nat.toDigits 10 n).length != 1 && (Nat.toDigits 10 n).head? == some '0') = false := by
  rcases Nat.eq_zero_or_pos n with rfl | hpos
  · decide
  · rw [Bool.and_eq_false_iff]
    right
    exact beq_eq_false_iff_ne.mpr (head?_toDigits hpos)

/-- Digits that make a number of 64 bits are all gathered. -/
theorem foldl_whole {m : Nat} {ds : List Char} (h : Text.ofDigits m ds ≤ maxWord) :
    ds.foldl Gathered.whole ⟨m, 0, false⟩ = ⟨Text.ofDigits m ds, 0, false⟩ := by
  induction ds generalizing m with
  | nil => rfl
  | cons d ds ih =>
    rw [Text.ofDigits_cons] at h ⊢
    have hnext := Nat.le_trans (Text.le_ofDigits (m * 10 + Text.digitValue d) ds) h
    have hfirst : Gathered.whole ⟨m, 0, false⟩ d = ⟨m * 10 + Text.digitValue d, 0, false⟩ := by
      simp only [Gathered.whole, Bool.false_or, decide_eq_true_eq, if_neg (Nat.not_lt_of_le hnext)]
    rw [List.foldl_cons, hfirst]
    exact ih h

theorem isDigit_of_ends {c : Char} {rest : List Char} (h : Ends (c :: rest)) :
    c.isDigit = false ∧ c ≠ '.' ∧ c ≠ 'e' ∧ c ≠ 'E' := by
  have hc := h c rfl
  simp only [goesOn, Bool.or_eq_false_iff, decide_eq_false_iff_not] at hc
  exact ⟨hc.1.1.1, hc.1.1.2, hc.1.2, hc.2⟩

/-- Digits are told from what stands behind them. -/
theorem span_digits {ds rest : List Char} (hds : ∀ c ∈ ds, c.isDigit = true)
    (hrest : ∀ c ∈ rest.head?, c.isDigit = false) :
    (ds ++ rest).takeWhile Char.isDigit = ds ∧ (ds ++ rest).dropWhile Char.isDigit = rest := by
  rw [List.takeWhile_append_of_pos hds, List.dropWhile_append_of_pos hds]
  cases rest with
  | nil => exact ⟨List.append_nil _, rfl⟩
  | cons c rest =>
    have hc : c.isDigit = false := hrest c rfl
    rw [List.takeWhile_cons_of_neg (by simp [hc]), List.dropWhile_cons_of_neg (by simp [hc])]
    exact ⟨List.append_nil _, rfl⟩

theorem not_isDigit_of_ends {rest : List Char} (h : Ends rest) :
    ∀ c ∈ rest.head?, c.isDigit = false := by
  intro c hc
  have hgoes := h c hc
  simp only [goesOn, Bool.or_eq_false_iff] at hgoes
  exact hgoes.1.1.1

theorem span_toDigits (n : Nat) {rest : List Char} (h : Ends rest) :
    (Nat.toDigits 10 n ++ rest).takeWhile Char.isDigit = Nat.toDigits 10 n
      ∧ (Nat.toDigits 10 n ++ rest).dropWhile Char.isDigit = rest :=
  span_digits (fun _ hc => Text.isDigit_of_mem_toDigits hc) (not_isDigit_of_ends h)

/-- The characters of a number with its sign. -/
def signed (negative : Bool) (n : Nat) : List Char :=
  if negative then '-' :: Nat.toDigits 10 n else Nat.toDigits 10 n

/-- What is read of a whole number that is gathered to its end. -/
theorem number_signed (negative : Bool) {n : Nat} (hmax : n ≤ maxWord) {rest : List Char}
    (h : Ends rest) :
    number (signed negative n ++ rest) =
      ((⟨n, 0, false⟩ : Gathered).number? negative true 0).map (·, rest) := by
  obtain ⟨hwhole, hrest⟩ := span_toDigits n h
  have hgathered : (Nat.toDigits 10 n).foldl Gathered.whole ⟨0, 0, false⟩ = ⟨n, 0, false⟩ := by
    rw [foldl_whole (by rwa [Text.ofDigits_toDigits]), Text.ofDigits_toDigits]
  have hempty : (Nat.toDigits 10 n).isEmpty = false := by
    rw [List.isEmpty_eq_false_iff]
    exact Nat.toDigits_ne_nil
  have hleading := leading_toDigits n
  obtain ⟨c, cs, hcs, hc⟩ := Text.Integer.exists_toDigits n
  have hminus : c ≠ '-' := by
    rintro rfl
    exact absurd hc (by decide)
  rw [hcs, List.cons_append] at hwhole hrest
  rw [hcs] at hgathered hempty hleading
  unfold number signed
  rw [hcs]
  cases negative
  case' true =>
    simp only [if_true, List.cons_append, hwhole, hrest, hempty, hleading, hgathered]
  case' false =>
    simp only [Bool.false_eq_true, if_false, List.cons_append]
    split
    next hsign => exact absurd (List.head_eq_of_cons_eq hsign) hminus
    simp only [hwhole, hrest, hempty, hleading, hgathered]
  -- what stands behind the digits is neither a point nor the mark of an exponent
  all_goals
    cases rest with
    | nil => rfl
    | cons d rest =>
      obtain ⟨-, hpoint, he, hE⟩ := isDigit_of_ends h
      simp [hpoint, he, hE]

/-- A whole number that fits 64 bits is read back. -/
theorem number_int {n : Int} (hmin : -2 ^ 63 ≤ n) (hmax : n < 2 ^ 64) {rest : List Char}
    (h : Ends rest) : number ((Int.repr n).toList ++ rest) = some (.int n, rest) := by
  cases n with
  | ofNat n =>
    have hword : n ≤ maxWord := by
      have : (n : Int) < 2 ^ 64 := hmax
      simp only [maxWord]
      omega
    have hchars : (Int.repr (Int.ofNat n)).toList = signed false n := Nat.toList_repr
    rw [hchars, number_signed false hword h]
    rfl
  | negSucc n =>
    have hle : n + 1 ≤ 2 ^ 63 := by omega
    have hword : n + 1 ≤ maxWord := by
      simp only [maxWord]
      omega
    have hchars : (Int.repr (Int.negSucc n)).toList = signed true (n + 1) := by
      rw [Int.repr, String.toList_append, Nat.toList_repr]
      rfl
    rw [hchars, number_signed true hword h, Gathered.number?]
    simp [hle, Int.negSucc_eq]

/-- The text of a double is a number, and is read as that double. -/
structure ReadsBack (x : Float) : Prop where
  head : ∃ c cs, (layout.render x).toList = c :: cs ∧ (c.isDigit || c = '-') = true
  newline : '\n' ∉ (layout.render x).toList
  number : ∀ rest, Ends rest → number ((layout.render x).toList ++ rest) = some (.float x, rest)

/-! ## Strings -/

theorem hexValue?_hexDigit {n : Nat} (h : n < 16) : hexValue? (hexDigit n) = some n := by
  have hdigits : ∀ n < 16, hexValue? (hexDigit n) = some n := by decide
  exact hdigits n h

theorem coded_control {n : Nat} (h : n < 0x20) (rest : List Char) :
    coded ('0' :: '0' :: hexDigit (n / 16) :: hexDigit (n % 16) :: rest) =
      some (Char.ofNat n, rest) := by
  have hzero : hexValue? '0' = some 0 := by decide
  have hunit : unit ('0' :: '0' :: hexDigit (n / 16) :: hexDigit (n % 16) :: rest) =
      some (n, rest) := by
    simp only [unit, hzero, hexValue?_hexDigit (show n / 16 < 16 by omega),
      hexValue?_hexDigit (show n % 16 < 16 by omega), bind, Option.bind, Option.some.injEq,
      Prod.mk.injEq, and_true]
    omega
  have hhigh : ¬ 0xD800 ≤ n := by omega
  have hlow : ¬ 0xDC00 ≤ n := by omega
  simp [coded, hunit, hhigh, hlow]

/-- A string with one more character in front. -/
def onto (c : Char) (tail : Option (List Char × List Char)) : Option (List Char × List Char) :=
  tail.map fun tail => (c :: tail.1, tail.2)

theorem stringTail_letter {e c : Char} (he : escaped? e = some c) (hu : e ≠ 'u') (fuel : Nat)
    (rest : List Char) :
    stringTail (fuel + 1) ('\\' :: e :: rest) = onto c (stringTail fuel rest) := by
  rw [stringTail.eq_5 fuel e rest hu, he]
  cases stringTail fuel rest <;> simp [onto]

/-- One character of a string is read back from its escape. -/
theorem stringTail_escapeChar (fuel : Nat) (c : Char) (rest : List Char) :
    stringTail (fuel + 1) (escapeChar c ++ rest) = onto c (stringTail fuel rest) := by
  unfold escapeChar
  split_ifs with hquote hslash hnewline hreturn htab hbackspace hfeed hcontrol
  · exact hquote ▸ stringTail_letter (e := '"') rfl (by decide) fuel rest
  · exact hslash ▸ stringTail_letter (e := '\\') rfl (by decide) fuel rest
  · exact hnewline ▸ stringTail_letter (e := 'n') rfl (by decide) fuel rest
  · exact hreturn ▸ stringTail_letter (e := 'r') rfl (by decide) fuel rest
  · exact htab ▸ stringTail_letter (e := 't') rfl (by decide) fuel rest
  · exact hbackspace ▸ stringTail_letter (e := 'b') rfl (by decide) fuel rest
  · exact hfeed ▸ stringTail_letter (e := 'f') rfl (by decide) fuel rest
  · show stringTail (fuel + 1) ('\\' :: 'u' :: '0' :: '0' :: hexDigit (c.toNat / 16)
      :: hexDigit (c.toNat % 16) :: rest) = _
    rw [stringTail.eq_4, coded_control hcontrol, Char.ofNat_toNat]
    cases htail : stringTail fuel rest <;> simp [htail, onto]
  · show stringTail (fuel + 1) (c :: rest) = _
    rw [stringTail.eq_6 fuel c rest hquote (fun _ h _ => hslash h) (fun _ _ h _ => hslash h)]
    cases stringTail fuel rest <;> simp [onto, hcontrol, hslash]

theorem stringTail_chars (s : List Char) {fuel : Nat} (h : s.length < fuel) (rest : List Char) :
    stringTail fuel (s.flatMap escapeChar ++ '"' :: rest) = some (s, rest) := by
  induction s generalizing fuel with
  | nil =>
    obtain ⟨fuel, rfl⟩ : ∃ n, fuel = n + 1 := Nat.exists_eq_succ_of_ne_zero (by omega)
    rfl
  | cons c s ih =>
    obtain ⟨fuel, rfl⟩ : ∃ n, fuel = n + 1 := Nat.exists_eq_succ_of_ne_zero (by omega)
    rw [List.flatMap_cons, List.append_assoc, stringTail_escapeChar,
      ih (Nat.lt_of_succ_lt_succ h)]
    rfl

theorem escapeChar_ne_nil (c : Char) : escapeChar c ≠ [] := by
  unfold escapeChar
  split_ifs <;> simp

/-- A string is read back, whatever characters it has. -/
theorem string_quote (s : String) (rest : List Char) : string (quote s ++ rest) = some (s, rest) := by
  have hlength : s.toList.length ≤ (s.toList.flatMap escapeChar).length := by
    induction s.toList with
    | nil => exact Nat.le_refl 0
    | cons c cs ih =>
      have := List.length_pos_iff.mpr (escapeChar_ne_nil c)
      rw [List.flatMap_cons, List.length_append, List.length_cons]
      omega
  rw [quote, List.cons_append, List.append_assoc, List.singleton_append, string,
    stringTail_chars]
  · simp only [Option.map_some, String.ofList_toList]
  · rw [List.length_append, List.length_cons]
    omega

/-! ## Items between commas -/

/-- Texts with commas between them. -/
def separated : List (List Char) → List Char
  | [] => []
  | [text] => text
  | text :: next :: rest => text ++ ',' :: separated (next :: rest)

theorem length_separated (texts : List (List Char)) :
    texts.length ≤ (separated texts).length + 1 := by
  induction texts with
  | nil => exact Nat.zero_le _
  | cons text rest ih =>
    cases rest with
    | nil => exact Nat.le_add_left 1 _
    | cons next rest =>
      simp only [List.length_cons, separated, List.length_append] at ih ⊢
      omega

theorem exists_separated (text : List Char) (rest : List (List Char)) :
    ∃ more, separated (text :: rest) = text ++ more := by
  cases rest with
  | nil => exact ⟨[], (List.append_nil text).symm⟩
  | cons next rest => exact ⟨_, rfl⟩

theorem skipBlanks_cons {c : Char} (h : isBlank c = false) (cs : List Char) :
    skipBlanks (c :: cs) = c :: cs :=
  List.dropWhile_cons_of_neg (by simp [h])

/-- The character closes a row of items. -/
structure Closes (c : Char) : Prop where
  not_blank : isBlank c = false
  not_goesOn : goesOn c = false
  ne_comma : c ≠ ','

theorem closes_bracket : Closes ']' := ⟨by decide, by decide, by decide⟩

theorem closes_brace : Closes '\x7d' := ⟨by decide, by decide, by decide⟩

section Items

variable {α : Type} {item : Reader α} {text : α → List Char} {close : Char}

/-- Items are read back one after the other, if each of them is. -/
theorem sequence_separated (hclose : Closes close) {xs : List α} (hne : xs ≠ [])
    (hitem : ∀ x ∈ xs, ∀ rest, Ends rest → item (text x ++ rest) = some (x, rest)) {fuel : Nat}
    (hfuel : xs.length ≤ fuel) (rest : List Char) :
    sequence item close fuel (separated (xs.map text) ++ close :: rest) = some (xs, rest) := by
  induction xs generalizing fuel with
  | nil => exact absurd rfl hne
  | cons x xs ih =>
    obtain ⟨fuel, rfl⟩ : ∃ n, fuel = n + 1 :=
      Nat.exists_eq_succ_of_ne_zero (by rw [List.length_cons] at hfuel; omega)
    obtain ⟨hx, hxs⟩ := List.forall_mem_cons.mp hitem
    cases xs with
    | nil =>
      have hread := hx (close :: rest) (ends_cons hclose.not_goesOn rest)
      simp only [List.map_cons, List.map_nil, separated, sequence, hread, bind, Option.bind,
        skipBlanks_cons hclose.not_blank, if_true]
    | cons y ys =>
      have hcomma : isBlank ',' = false := by decide
      have hread := hx (',' :: (separated ((y :: ys).map text) ++ close :: rest))
        (ends_cons (by decide) _)
      have hrest := ih (List.cons_ne_nil y ys) hxs (Nat.le_of_succ_le_succ hfuel)
      simp only [List.map_cons, separated, List.append_assoc, List.cons_append] at hread hrest ⊢
      simp only [sequence, hread, bind, Option.bind, skipBlanks_cons hcomma,
        if_neg hclose.ne_comma.symm, if_true, hrest]

/-- A row of items up to its closing character is read back. -/
theorem enclosed_separated (hclose : Closes close) (xs : List α)
    (hitem : ∀ x ∈ xs, ∀ rest, Ends rest → item (text x ++ rest) = some (x, rest))
    (hhead : ∀ x ∈ xs, ∃ c cs, text x = c :: cs ∧ isBlank c = false ∧ c ≠ close)
    (rest : List Char) :
    enclosed item close (separated (xs.map text) ++ close :: rest) = some (xs, rest) := by
  cases xs with
  | nil =>
    show enclosed item close (close :: rest) = _
    simp only [enclosed, skipBlanks_cons hclose.not_blank, if_true]
  | cons x xs =>
    obtain ⟨c, cs, htext, hblank, hne⟩ := hhead x List.mem_cons_self
    obtain ⟨more, hmore⟩ := exists_separated (text x) (xs.map text)
    have hfuel : (x :: xs).length ≤
        (separated ((x :: xs).map text) ++ close :: rest).length + 1 := by
      have := length_separated ((x :: xs).map text)
      rw [List.length_map] at this
      rw [List.length_append]
      omega
    have hread := sequence_separated hclose (List.cons_ne_nil x xs) hitem hfuel rest
    rw [List.map_cons, hmore, htext] at hread ⊢
    simp only [List.cons_append] at hread ⊢
    simp only [enclosed, skipBlanks_cons hblank, if_neg hne]
    exact hread

end Items

/-! ## Documents -/

/-- A document with at most so many arrays and objects around each other is printed so that it can
be read back. -/
inductive Readable : Nat → Json → Prop where
  | null (depth : Nat) : Readable depth .null
  | bool (depth : Nat) (b : Bool) : Readable depth (.bool b)
  | int (depth : Nat) {n : Int} (hmin : -2 ^ 63 ≤ n) (hmax : n < 2 ^ 64) : Readable depth (.int n)
  | float (depth : Nat) {x : Float} (h : ReadsBack x) : Readable depth (.float x)
  | str (depth : Nat) (s : String) : Readable depth (.str s)
  | arr {depth : Nat} {items : List Json} (h : ∀ j ∈ items, Readable depth j) :
    Readable (depth + 1) (.arr items)
  | obj {depth : Nat} {members : List (String × Json)} (h : ∀ m ∈ members, Readable depth m.2) :
    Readable (depth + 1) (.obj members)

/-- The characters of a member. -/
def memberText (m : String × Json) : List Char := quote m.1 ++ ':' :: chars m.2

theorem itemChars_eq (items : List Json) : itemChars items = separated (items.map chars) := by
  induction items with
  | nil => rfl
  | cons j rest ih =>
    cases rest with
    | nil => rfl
    | cons k rest => rw [itemChars, ih]; rfl

theorem memberChars_eq (members : List (String × Json)) :
    memberChars members = separated (members.map memberText) := by
  induction members with
  | nil => rfl
  | cons m rest ih =>
    cases rest with
    | nil => rfl
    | cons k rest =>
      rw [memberChars, ih]
      simp [separated, memberText]

/-- The character begins a number. -/
def beginsNumber (c : Char) : Bool := c.isDigit || c = '-'

theorem not_beginsNumber {c d : Char} (h : beginsNumber c = true) (hd : beginsNumber d = false) :
    c ≠ d := by
  rintro rfl
  rw [h] at hd
  cases hd

theorem not_blank_of_beginsNumber {c : Char} (h : beginsNumber c = true) : isBlank c = false := by
  simp [isBlank, not_beginsNumber h (show beginsNumber ' ' = false by decide),
    not_beginsNumber h (show beginsNumber '\n' = false by decide),
    not_beginsNumber h (show beginsNumber '\t' = false by decide),
    not_beginsNumber h (show beginsNumber '\r' = false by decide)]

theorem head_intRepr (n : Int) :
    ∃ c cs, (Int.repr n).toList = c :: cs ∧ beginsNumber c = true := by
  cases n with
  | ofNat n =>
    obtain ⟨c, cs, hcs, hc⟩ := Text.Integer.exists_toDigits n
    refine ⟨c, cs, ?_, by rw [beginsNumber, hc, Bool.true_or]⟩
    rw [Int.repr, Nat.toList_repr, hcs]
  | negSucc n =>
    refine ⟨'-', (Nat.repr (n + 1)).toList, ?_, rfl⟩
    rw [Int.repr, String.toList_append]
    rfl

/-- A document begins with a character that is no blank and does not close an array. -/
theorem Readable.head {depth : Nat} {j : Json} (h : Readable depth j) :
    ∃ c cs, chars j = c :: cs ∧ isBlank c = false ∧ c ≠ ']' := by
  cases h with
  | null _ => exact ⟨'n', _, rfl, by decide, by decide⟩
  | bool _ b => cases b <;> exact ⟨_, _, rfl, by decide, by decide⟩
  | @int _ n hmin hmax =>
    obtain ⟨c, cs, hcs, hc⟩ := head_intRepr n
    exact ⟨c, cs, by rw [chars, hcs], not_blank_of_beginsNumber hc, not_beginsNumber hc (by decide)⟩
  | @float _ x hx =>
    obtain ⟨c, cs, hcs, hc⟩ := hx.head
    exact ⟨c, cs, by rw [chars, hcs], not_blank_of_beginsNumber hc, not_beginsNumber hc (by decide)⟩
  | str _ s => exact ⟨'"', _, by rw [chars, quote], by decide, by decide⟩
  | arr h => exact ⟨'[', _, by rw [chars], by decide, by decide⟩
  | obj h => exact ⟨'\x7b', _, by rw [chars], by decide, by decide⟩

theorem value_number {c : Char} (hc : beginsNumber c = true) (depth : Nat) (cs : List Char) :
    value depth (c :: cs) = number (c :: cs) := by
  have hne : ∀ d : Char, beginsNumber d = false → c ≠ d := fun d hd => not_beginsNumber hc hd
  rw [value, skipBlanks_cons (not_blank_of_beginsNumber hc)]
  split
  all_goals first
    | rfl
    | exact absurd (List.head_eq_of_cons_eq ‹_›) (hne _ (by decide))

theorem member_text {value : Reader Json} {m : String × Json}
    (hvalue : ∀ rest, Ends rest → value (chars m.2 ++ rest) = some (m.2, rest))
    {rest : List Char} (h : Ends rest) : member value (memberText m ++ rest) = some (m, rest) := by
  have hquote : skipBlanks (memberText m ++ rest) = quote m.1 ++ ':' :: (chars m.2 ++ rest) := by
    rw [memberText, List.append_assoc, List.cons_append]
    exact skipBlanks_cons (by decide) _
  have hcolon : skipBlanks (':' :: (chars m.2 ++ rest)) = ':' :: (chars m.2 ++ rest) :=
    skipBlanks_cons (by decide) _
  simp only [member, hquote, string_quote, bind, Option.bind, hcolon, hvalue rest h]

/-- A document is read back in front of whatever does not go on with a number. -/
theorem value_chars {depth : Nat} {j : Json} (h : Readable depth j) (rest : List Char)
    (hrest : Ends rest) : value depth (chars j ++ rest) = some (j, rest) := by
  induction h generalizing rest with
  | null depth => rw [value]; rfl
  | bool depth b =>
    rw [value]
    cases b <;> rfl
  | @int depth n hmin hmax =>
    obtain ⟨c, cs, hcs, hc⟩ := head_intRepr n
    have hread := number_int hmin hmax hrest
    rw [chars, hcs, List.cons_append, value_number hc]
    rwa [hcs] at hread
  | @float depth x hx =>
    obtain ⟨c, cs, hcs, hc⟩ := hx.head
    have hread := hx.number rest hrest
    rw [chars, hcs, List.cons_append, value_number hc]
    rwa [hcs] at hread
  | str depth s =>
    have hread := string_quote s rest
    rw [chars, value]
    rw [quote, List.cons_append] at hread ⊢
    rw [skipBlanks_cons (by decide)]
    simp only [hread, Option.map_some]
  | @arr depth items h ih =>
    have hread := enclosed_separated closes_bracket items ih (fun j hj => (h j hj).head) rest
    rw [chars, itemChars_eq, value, List.cons_append, skipBlanks_cons (by decide)]
    simp only [List.append_assoc, List.singleton_append, hread, Option.map_some]
  | @obj depth members h ih =>
    have hread : enclosed (member (value depth)) '\x7d'
        (separated (members.map memberText) ++ '\x7d' :: rest) = some (members, rest) :=
      enclosed_separated closes_brace members
        (fun m hm rest hrest => member_text (ih m hm) hrest)
        (fun m _ => ⟨'"', _, by rw [memberText, quote]; rfl, by decide, by decide⟩) rest
    rw [chars, memberChars_eq, value, List.cons_append, skipBlanks_cons (by decide)]
    simp only [List.append_assoc, List.singleton_append, hread, Option.map_some]

/-- **A document is read back from its text.** -/
theorem parse?_render {j : Json} (h : Readable maxDepth j) : parse? j.render = some j := by
  have hread := value_chars h [] ends_nil
  rw [List.append_nil] at hread
  simp only [parse?, render, String.toList_ofList, document, hread, bind, Option.bind]
  rfl

/-! ## One line -/

theorem newline_not_mem_escapeChar (c : Char) : '\n' ∉ escapeChar c := by
  have hhex : ∀ n < 16, hexDigit n ≠ '\n' := by decide
  unfold escapeChar
  split_ifs with hquote hslash hnewline hreturn htab hbackspace hfeed hcontrol
  · decide
  · decide
  · decide
  · decide
  · decide
  · decide
  · decide
  · have hhigh := hhex (c.toNat / 16) (by omega)
    have hlow := hhex (c.toNat % 16) (by omega)
    simp [hhigh.symm, hlow.symm]
  · simpa using fun h : '\n' = c => hnewline h.symm

theorem newline_not_mem_quote (s : String) : '\n' ∉ quote s := by
  intro h
  rw [quote, List.mem_cons, List.mem_append, List.mem_flatMap, List.mem_singleton] at h
  rcases h with h | ⟨c, -, hc⟩ | h
  · exact absurd h (by decide)
  · exact newline_not_mem_escapeChar c hc
  · exact absurd h (by decide)

theorem not_mem_separated {d : Char} (hd : d ≠ ',') {texts : List (List Char)}
    (h : ∀ text ∈ texts, d ∉ text) : d ∉ separated texts := by
  induction texts with
  | nil => exact List.not_mem_nil
  | cons text rest ih =>
    obtain ⟨htext, hrest⟩ := List.forall_mem_cons.mp h
    cases rest with
    | nil => exact htext
    | cons next rest =>
      rw [separated, List.mem_append, List.mem_cons]
      rintro (hmem | hmem | hmem)
      · exact htext hmem
      · exact hd hmem
      · exact ih hrest hmem

/-- A document is printed on one line. -/
theorem newline_not_mem_chars {depth : Nat} {j : Json} (h : Readable depth j) :
    '\n' ∉ chars j := by
  induction h with
  | null _ => decide
  | bool _ b => cases b <;> decide
  | @int _ n hmin hmax => exact Text.not_mem_of_isNumeral (Text.isNumeral_intRepr n) (by decide)
  | float _ hx => exact hx.newline
  | str _ s => exact newline_not_mem_quote s
  | @arr _ items h ih =>
    have hitems : '\n' ∉ itemChars items := by
      rw [itemChars_eq]
      apply not_mem_separated (by decide)
      intro text htext
      obtain ⟨j, hj, rfl⟩ := List.mem_map.mp htext
      exact ih j hj
    simp [chars, hitems]
  | @obj _ members h ih =>
    have hmembers : '\n' ∉ memberChars members := by
      rw [memberChars_eq]
      apply not_mem_separated (by decide)
      intro text htext
      obtain ⟨m, hm, rfl⟩ := List.mem_map.mp htext
      simp [memberText, newline_not_mem_quote, ih m hm]
    simp [chars, hmembers]

end SeriesLoad.Json
