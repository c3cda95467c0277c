import SeriesLoad.Proofs.Line.Reader

/-!
# Where words end

An escaped word tells where it ends: read from the left, it stops at the delimiter behind it and
comes out as it was. **This holds of all words but those that end in a backslash**
(`words_stop_at_delimiters`), wherever else they have backslashes. Each delimiter in a word has a
backslash of its own in front, so a backslash of the word can be taken for the mark of a delimiter
only where the word ends, and then the delimiter behind the word is read as a part of it.

No other way of writing words could do better, as long as they are read like this: no text at all is
read as a word that ends in a backslash and stops at a delimiter (`isWord_of_word`). From this the
lines follow. Reading the line of a point gives its name, its tags and its fields, whatever their
values are, exactly if none of its words ends in a backslash (`line?_chars_iff`).
-/

namespace SeriesLoad.LineProtocol

namespace Reader

/-! ## Words that are read -/

/-- Where an empty word is read, reading has not gone on. -/
theorem eq_of_word_nil {cs : List Char} (h : (word cs).1 = []) : (word cs).2 = cs := by
  revert h
  fun_cases word cs with
  | case1 c rest hc w tail hword => intro h; cases h
  | case2 c rest hc w tail hword => intro h; cases h
  | case3 c rest _ hc => intro _; rfl
  | case4 c rest _ hc w tail hword => intro h; cases h
  | case5 => intro _; rfl

theorem newline_not_mem_word (cs : List Char) : '\n' ∉ (word cs).1 := by
  fun_induction word cs with
  | case1 c rest hc w tail hword ih =>
    rw [hword] at ih
    refine List.not_mem_cons_of_ne_of_not_mem ?_ ih
    rintro rfl
    exact absurd hc (by decide)
  | case2 c rest hc w tail hword ih =>
    rw [hword] at ih
    exact List.not_mem_cons_of_ne_of_not_mem (by decide) ih
  | case3 c rest _ hc => exact List.not_mem_nil
  | case4 c rest _ hc w tail hword ih =>
    rw [hword] at ih
    refine List.not_mem_cons_of_ne_of_not_mem ?_ ih
    rintro rfl
    exact hc (by decide)
  | case5 => exact List.not_mem_nil

theorem getLast?_cons_cases {c x : Char} {w : List Char} (h : (c :: w).getLast? = some x) :
    w = [] ∧ c = x ∨ w.getLast? = some x := by
  cases w with
  | nil => exact .inl ⟨rfl, Option.some.inj h⟩
  | cons y w => exact .inr h

theorem backslash_not_last_word {cs rest : List Char} {d : Char} (hd : isDelimiter d = true)
    (h : (word cs).2 = d :: rest) : (word cs).1.getLast? ≠ some '\\' := by
  revert h
  fun_induction word cs with
  | case1 c cs hc w tail hword ih =>
    rw [hword] at ih
    intro h hlast
    rcases getLast?_cons_cases hlast with ⟨-, rfl⟩ | hlast
    · exact absurd hc (by decide)
    · exact ih h hlast
  | case2 c cs hc w tail hword ih =>
    have hnil : (word (c :: cs)).1 = [] → (word (c :: cs)).2 = c :: cs := eq_of_word_nil
    rw [hword] at ih hnil
    intro h hlast
    rcases getLast?_cons_cases hlast with ⟨hw, -⟩ | hlast
    · -- the word would have stopped right behind the backslash, where there is no delimiter
      obtain ⟨rfl, -⟩ := List.cons.inj ((hnil hw).symm.trans h)
      exact hc hd
    · exact ih h hlast
  | case3 c cs _ hc => simp
  | case4 c cs hfirst hc w tail hword ih =>
    have hnil : (word cs).1 = [] → (word cs).2 = cs := eq_of_word_nil
    rw [hword] at ih hnil
    intro h hlast
    rcases getLast?_cons_cases hlast with ⟨hw, hbackslash⟩ | hlast
    · exact hfirst d rest hbackslash ((hnil hw).symm.trans h)
    · exact ih h hlast
  | case5 => simp

/-- **A word that is read up to a delimiter does not end in a backslash**, which would have taken
the delimiter for its own. -/
theorem isWord_of_word {cs w rest : List Char} {d : Char} (hd : isDelimiter d = true)
    (h : word cs = (w, d :: rest)) : IsWord w := by
  have hnewline := newline_not_mem_word cs
  have hbackslash := backslash_not_last_word hd (congrArg Prod.snd h)
  rw [h] at hnewline hbackslash
  exact ⟨hnewline, hbackslash⟩

theorem word_escape_iff {cs : List Char} {d : Char} (hd : isDelimiter d = true)
    (rest : List Char) : word (escape cs ++ d :: rest) = (cs, d :: rest) ↔ IsWord cs :=
  ⟨isWord_of_word hd, fun h => word_escape h (isEnd_of_isDelimiter hd) rest⟩

/-- Behind a backslash at the end of a word the delimiter is read as a part of the word, and so is
all that follows up to the next delimiter. -/
theorem word_escape_backslash {cs : List Char} (h : '\n' ∉ cs) {d : Char}
    (hd : isDelimiter d = true) (rest : List Char) :
    word (escape (cs ++ ['\\']) ++ d :: rest) = (cs ++ d :: (word rest).1, (word rest).2) := by
  have hescape : escape (cs ++ ['\\']) ++ d :: rest = escape cs ++ '\\' :: d :: rest := by
    rw [escape, List.flatMap_append, List.append_assoc]
    rfl
  have hhead : ∀ c ∈ ('\\' :: d :: rest).head?, isDelimiter c = false := by
    intro c hc
    obtain rfl : '\\' = c := Option.some.inj hc
    decide
  rw [hescape, word_escape_append h fun _ => hhead, word_escaped hd]

/-! ## Lines that are read -/

theorem isWord_of_tag? {cs rest : List Char} {tag : String × String} {d : Char}
    (hd : isDelimiter d = true) (h : tag? cs = some (tag, d :: rest)) :
    IsWord tag.1.toList ∧ IsWord tag.2.toList := by
  rw [tag?] at h
  split at h
  · rename_i key tail hkey
    obtain ⟨htag, hrest⟩ := Prod.mk.inj (Option.some.inj h)
    have hvalue : word tail = ((word tail).1, d :: rest) := Prod.ext rfl hrest
    subst htag
    simp only [String.toList_ofList]
    exact ⟨isWord_of_word (by decide) hkey, isWord_of_word hd hvalue⟩
  · cases h

theorem isWord_of_field? {cs rest : List Char} {field : String × Value}
    (h : field? cs = some (field, rest)) : IsWord field.1.toList := by
  rw [field?] at h
  split at h
  · rename_i key tail hkey
    obtain ⟨⟨v, tail⟩, -, hfield⟩ := Option.map_eq_some_iff.mp h
    obtain ⟨rfl, -⟩ := Prod.mk.inj hfield
    rw [String.toList_ofList]
    exact isWord_of_word (by decide) hkey
  · cases h

/-- Items with a blank behind the last one begin with a comma, or with that blank. -/
theorem exists_delimiter_of_many? {α : Type} {item? : List Char → Option (α × List Char)}
    {cs rest : List Char} {items : List α} (h : many? item? cs = some (items, ' ' :: rest)) :
    ∃ d tail, cs = d :: tail ∧ isDelimiter d = true := by
  revert h
  fun_cases many? item? cs with
  | case1 cs hitem => intro h; cases h
  | case2 cs a tail hitem hle => exact fun _ => ⟨',', cs, rfl, by decide⟩
  | case3 cs a tail hitem hle => intro h; cases h
  | case4 cs hcs =>
    intro h
    exact ⟨' ', rest, (Prod.mk.inj (Option.some.inj h)).2, by decide⟩

/-- What holds of an item whenever a delimiter is behind it holds of all items. -/
theorem forall_mem_of_many? {α : Type} {P : α → Prop} {item? : List Char → Option (α × List Char)}
    (hitem : ∀ {cs a d rest}, isDelimiter d = true → item? cs = some (a, d :: rest) → P a)
    {cs rest : List Char} {items : List α} (h : many? item? cs = some (items, ' ' :: rest)) :
    ∀ a ∈ items, P a := by
  revert h
  fun_induction many? item? cs generalizing items with
  | case1 cs hnone => intro h; cases h
  | case2 cs a tail ha hle ih =>
    intro h
    obtain ⟨⟨as, behind⟩, htail, heq⟩ := Option.map_eq_some_iff.mp h
    obtain ⟨rfl, rfl⟩ := Prod.mk.inj heq
    obtain ⟨d, tail, rfl, hd⟩ := exists_delimiter_of_many? htail
    exact List.forall_mem_cons.mpr ⟨hitem hd ha, ih htail⟩
  | case3 cs a tail ha hle => intro h; cases h
  | case4 cs hcs =>
    intro h
    obtain ⟨rfl, -⟩ := Prod.mk.inj (Option.some.inj h)
    exact List.forall_mem_nil _

/-- **No word of a line that is read ends in a backslash.** -/
theorem isWord_of_line? {cs rest : List Char} {line : Line} (h : line? cs = some (line, rest)) :
    ∀ w ∈ line.words, IsWord w.toList := by
  rw [line?] at h
  split at h
  · rename_i tags tail htags
    obtain ⟨d, behind, hbehind, hd⟩ := exists_delimiter_of_many? htags
    have hname : IsWord (String.ofList (word cs).1).toList := by
      rw [String.toList_ofList]
      exact isWord_of_word hd (Prod.ext rfl hbehind)
    have htags := forall_mem_of_many? isWord_of_tag? htags
    split at h
    · obtain ⟨rfl, -⟩ := Prod.mk.inj (Option.some.inj h)
      exact Line.forall_mem_words.mpr ⟨hname, htags, List.forall_mem_nil _⟩
    · obtain ⟨⟨field, tail⟩, hfield, h⟩ := Option.bind_eq_some_iff.mp h
      obtain ⟨⟨fields, tail⟩, hfields, h⟩ := Option.bind_eq_some_iff.mp h
      split at h
      · rename_i heq
        obtain ⟨rfl, rfl⟩ := Prod.mk.inj heq
        obtain ⟨⟨nanos, tail⟩, -, h⟩ := Option.bind_eq_some_iff.mp h
        obtain ⟨rfl, -⟩ := Prod.mk.inj (Option.some.inj h)
        have hkeys := forall_mem_of_many? (fun _ h => isWord_of_field? h) hfields
        exact Line.forall_mem_words.mpr ⟨hname, htags,
          List.forall_mem_cons.mpr ⟨isWord_of_field? hfield, hkeys⟩⟩
      · cases h
  · cases h

/-- **The line of a point tells its words exactly if each of them can be told.** -/
theorem line?_chars_iff (p : Point) (rest : List Char) :
    line? (chars p ++ rest) = some (.written p, rest) ↔
      ∀ w ∈ (Line.written p).words, IsWord w.toList :=
  ⟨isWord_of_line?, fun h => line?_chars h rest⟩

end Reader

open Reader (Line line? word)

/-- An escaped word without newlines, read from the left, stops exactly at the delimiter behind it
and comes out as it was, unless it ends in a backslash. Then it takes in the delimiter and goes on.
No text is read as a word of that kind in front of a delimiter. So the line of a point whose words
have no newlines is read as the name, the tags and the fields of the point exactly if none of these
words ends in a backslash. -/
theorem words_stop_at_delimiters :
    (∀ (s : String) (d : Char) (rest : List Char), '\n' ∉ s.toList → isDelimiter d = true →
      (word (escape s.toList ++ d :: rest) = (s.toList, d :: rest) ↔
          s.toList.getLast? ≠ some '\\')
        ∧ ∀ cs, s.toList = cs ++ ['\\'] →
          word (escape s.toList ++ d :: rest) = (cs ++ d :: (word rest).1, (word rest).2))
      ∧ (∀ (text w : List Char) (d : Char) (rest : List Char), isDelimiter d = true →
        word text = (w, d :: rest) → w.getLast? ≠ some '\\')
      ∧ ∀ (p : Point) (rest : List Char), (∀ w ∈ (Line.written p).words, '\n' ∉ w.toList) →
        (line? (chars p ++ rest) = some (.written p, rest) ↔
          ∀ w ∈ (Line.written p).words, w.toList.getLast? ≠ some '\\') := by
  refine ⟨fun s d rest hs hd => ⟨?_, fun cs hcs => ?_⟩, fun text w d rest hd hword => ?_,
    fun p rest hwords => ?_⟩
  · rw [Reader.word_escape_iff hd]
    exact ⟨fun h => h.backslash, fun h => ⟨hs, h⟩⟩
  · rw [hcs] at hs ⊢
    exact Reader.word_escape_backslash (fun hmem => hs (List.mem_append_left _ hmem)) hd rest
  · exact (Reader.isWord_of_word hd hword).backslash
  · rw [Reader.line?_chars_iff]
    exact ⟨fun h w hw => (h w hw).backslash, fun h w hw => ⟨hwords w hw, h w hw⟩⟩

/-- A point with backslashes everywhere in its words but at the end, and bytes that are no text. -/
def backslashes : Point where
  name := "a\\\\,b"
  tags := #[("\\=\\ k", "\\,\\\\="), ("", "")]
  fields := #[("\\ \\f", .bytes [0x5C, 0xFF])]

theorem words_stop_at_delimiters_backslashes :
    ('\n' ∉ "\\,\\\\=".toList ∧ isDelimiter ',' = true
        ∧ "\\,\\\\=".toList.getLast? ≠ some '\\'
        ∧ word (escape "\\,\\\\=".toList ++ ",k=v".toList) = ("\\,\\\\=".toList, ",k=v".toList))
      ∧ ('\n' ∉ "C:\\".toList ∧ "C:\\".toList = "C:".toList ++ ['\\']
        ∧ word (escape "C:\\".toList ++ " v=1i".toList) = ("C: v".toList, "=1i".toList))
      ∧ (word "\\\\,\\ ,k".toList = ("\\, ".toList, ",k".toList)
        ∧ "\\, ".toList.getLast? ≠ some '\\')
      ∧ (∀ w ∈ (Line.written backslashes).words, '\n' ∉ w.toList)
      ∧ (∀ w ∈ (Line.written backslashes).words, w.toList.getLast? ≠ some '\\')
      ∧ line? (chars backslashes ++ "a,".toList) = some (.written backslashes, "a,".toList) := by
  obtain ⟨hword, hlast, hline⟩ := words_stop_at_delimiters
  have hnewline : ∀ w ∈ (Line.written backslashes).words, '\n' ∉ w.toList := by decide
  have hbackslash : ∀ w ∈ (Line.written backslashes).words, w.toList.getLast? ≠ some '\\' := by
    decide
  have hstops := (hword "\\,\\\\=" ',' "k=v".toList (by decide) (by decide)).1.mpr (by decide)
  have hgoesOn := (hword "C:\\" ' ' "v=1i".toList (by decide) (by decide)).2 "C:".toList
    (by decide)
  have hread : word "\\\\,\\ ,k".toList = ("\\, ".toList, ",k".toList) := by decide
  have hwhole := (hline backslashes "a,".toList hnewline).mpr hbackslash
  exact ⟨⟨by decide, by decide, by decide, hstops⟩, ⟨by decide, by decide, hgoesOn⟩,
    ⟨hread, hlast _ _ ',' "k".toList (by decide) hread⟩, hnewline, hbackslash, hwhole⟩

/-- A point the first tag of which ends in a backslash. -/
def rootPath : Point where
  name := "disk"
  tags := #[("path", "C:\\"), ("\\", "x")]
  fields := #[("used", .int 1)]

/-- A word without newlines that ends in a backslash takes in the comma behind it, and the next tag
is lost: the line is the one of a point with one tag. -/
theorem last_backslash_takes_delimiter :
    '\n' ∉ "C:\\".toList ∧ isDelimiter ',' = true
      ∧ word (escape "C:\\".toList ++ ',' :: "\\=x used=1i 0\n".toList) =
        ("C:,=x".toList, " used=1i 0\n".toList)
      ∧ word (escape "C:\\".toList ++ ',' :: "\\=x used=1i 0\n".toList) ≠
        ("C:\\".toList, ',' :: "\\=x used=1i 0\n".toList)
      ∧ (∀ w ∈ (Line.written rootPath).words, '\n' ∉ w.toList)
      ∧ line? (chars rootPath) =
        some (⟨"disk", [("path", "C:,=x")], [("used", .int 1)], 0⟩, [])
      ∧ (Line.written rootPath).tags = [("path", "C:\\"), ("\\", "x")] := by
  have hline : chars rootPath =
      chars { rootPath with tags := #[("path", "C:,=x")] } := rfl
  have hread := Reader.line?_chars (p := { rootPath with tags := #[("path", "C:,=x")] })
    (by decide) []
  rw [List.append_nil, ← hline] at hread
  exact ⟨by decide, by decide, by decide, by decide, by decide, hread, rfl⟩

end SeriesLoad.LineProtocol
