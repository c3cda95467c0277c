import SeriesLoad.Encoding.LineProtocol
import SeriesLoad.Proofs.Text.Plain
import SeriesLoad.Proofs.Text.Utf8
import SeriesLoad.Proofs.Time.Arithmetic

/-!
# Reading lines back

`read?` reads line protocol from left to right. A word goes on to the first delimiter that has no
backslash in front, or to the end of the line; a text in quotes goes on to the first quote that has
no backslash in front. Which of the four kinds of value it meets is told by how the value begins and
ends.

**Lines of points are read back** (`lines?_chars`), whatever their words are made of, as long as no
word has a newline in it or a backslash at its end. For such a backslash would take away the
meaning of the delimiter behind it, while any other backslash stands for itself, since no delimiter
in a word is without its own (`word_escape_append`). Bytes that are no text come back as the text
that is written for them (`line?_chars`).
-/

namespace SeriesLoad.LineProtocol

namespace Reader

/-- A value as it is told by a line; of a double it is the text. -/
inductive Value where
  | float (text : String)
  | int (n : Int64)
  | bool (b : Bool)
  | bytes (bs : List UInt8)
deriving DecidableEq, Repr

/-- What a line tells of a point. -/
structure Line where
  name : String
  tags : List (String × String)
  fields : List (String × Value)
  nanos : Int
deriving DecidableEq, Repr

/-! ## Words and values -/

/-- The characters that end a word. -/
def isEnd (c : Char) : Bool := isDelimiter c || c = '\n'

/-- A word, and what is left from the character on that ends it. -/
def word : List Char → List Char × List Char
  | '\\' :: c :: rest =>
    if isDelimiter c then
      let (w, rest) := word rest
      (c :: w, rest)
    else
      let (w, rest) := word (c :: rest)
      ('\\' :: w, rest)
  | c :: rest =>
    if isEnd c then ([], c :: rest)
    else
      let (w, rest) := word rest
      (c :: w, rest)
  | [] => ([], [])

/-- A text up to the quote that ends it, and what is behind that. -/
def quoted? : List Char → Option (List Char × List Char)
  | '"' :: rest => some ([], rest)
  | '\\' :: c :: rest =>
    if isQuoted c then (quoted? rest).map fun (text, rest) => (c :: text, rest)
    else (quoted? (c :: rest)).map fun (text, rest) => ('\\' :: text, rest)
  | c :: rest => (quoted? rest).map fun (text, rest) => (c :: text, rest)
  | [] => none

/-- A text that a double can have. -/
def isFloatText (w : List Char) : Bool :=
  w == "NaN".toList || w == "inf".toList || w == "-inf".toList
    || Text.isNumeral w && !w.isEmpty

/-- A value without quotes. -/
def bare? (w : List Char) : Option Value :=
  if w = "true".toList then some (.bool true)
  else if w = "false".toList then some (.bool false)
  else if w.getLast? = some 'i' then
    match Text.Integer.read Text.Integer.signed w.dropLast with
    | .ok n => some (.int (Int64.ofInt n))
    | .error _ => none
  else if isFloatText w then some (.float (String.ofList w))
  else none

/-- A value, and what is behind it. -/
def value? : List Char → Option (Value × List Char)
  | '"' :: rest =>
    (quoted? rest).map fun (text, rest) => (.bytes (text.flatMap String.utf8EncodeChar), rest)
  | cs => (bare? (cs.takeWhile (!isEnd ·))).map fun v => (v, cs.dropWhile (!isEnd ·))

/-! ## Lines -/

/-- A tag, and what is behind it. -/
def tag? (cs : List Char) : Option ((String × String) × List Char) :=
  match word cs with
  | (key, '=' :: rest) =>
    let (value, rest) := word rest
    some ((String.ofList key, String.ofList value), rest)
  | _ => none

/-- A field, and what is behind it. -/
def field? (cs : List Char) : Option ((String × Value) × List Char) :=
  match word cs with
  | (key, '=' :: rest) => (value? rest).map fun (v, rest) => ((String.ofList key, v), rest)
  | _ => none

/-- Items with a comma in front of each, and what is behind the last one. -/
def many? {α : Type} (item? : List Char → Option (α × List Char)) :
    List Char → Option (List α × List Char)
  | ',' :: cs =>
    match item? cs with
    | none => none
    | some (a, rest) =>
      if rest.length ≤ cs.length then
        (many? item? rest).map fun (as, rest) => (a :: as, rest)
      else none
  | cs => some ([], cs)
termination_by cs => cs.length

/-- The time at the end of a line, and what is behind the line. -/
def time? (cs : List Char) : Option (Int × List Char) :=
  match word cs with
  | (digits, '\n' :: rest) =>
    match Text.Integer.read Text.Integer.signed digits with
    | .ok nanos => some (nanos, rest)
    | .error _ => none
  | _ => none

/-- A line, and what is behind it. -/
def line? (cs : List Char) : Option (Line × List Char) :=
  match many? tag? (word cs).2 with
  | some (tags, ' ' :: rest) =>
    match time? rest with
    | some (nanos, rest) => some (⟨String.ofList (word cs).1, tags, [], nanos⟩, rest)
    | none => do
      let (field, rest) ← field? rest
      match ← many? field? rest with
      | (fields, ' ' :: rest) =>
        let (nanos, rest) ← time? rest
        return (⟨String.ofList (word cs).1, tags, field :: fields, nanos⟩, rest)
      | _ => none
  | _ => none

/-- All lines of a text. -/
def lines? : List Char → Option (List Line)
  | [] => some []
  | c :: cs =>
    match line? (c :: cs) with
    | none => none
    | some (line, rest) =>
      if rest.length ≤ cs.length then (lines? rest).map (line :: ·) else none
termination_by cs => cs.length

/-- The lines of a file. -/
def read? (bs : ByteArray) : Option (List Line) :=
  (String.fromUTF8? bs).bind fun text => lines? text.toList

/-! ## Words are read back -/

/-- A word that can be told from what is behind it: it has no newline in it and no backslash at its
end. -/
structure IsWord (cs : List Char) : Prop where
  newline : '\n' ∉ cs
  backslash : cs.getLast? ≠ some '\\'

instance (cs : List Char) : Decidable (IsWord cs) :=
  decidable_of_iff ('\n' ∉ cs ∧ cs.getLast? ≠ some '\\')
    ⟨fun h => ⟨h.1, h.2⟩, fun h => ⟨h.newline, h.backslash⟩⟩

theorem isEnd_of_isDelimiter {c : Char} (h : isDelimiter c = true) : isEnd c = true := by
  rw [isEnd, h, Bool.true_or]

theorem escape_cons (c : Char) (cs : List Char) :
    escape (c :: cs) = (if isDelimiter c then ['\\', c] else [c]) ++ escape cs :=
  List.flatMap_cons

theorem word_end {d : Char} (hd : isEnd d = true) (rest : List Char) :
    word (d :: rest) = ([], d :: rest) := by
  have hne : d ≠ '\\' := by
    rintro rfl
    exact absurd hd (by decide)
  rw [word.eq_def]
  split
  · rename_i heq
    exact absurd (List.cons.inj heq).1 hne
  · rename_i heq
    obtain ⟨rfl, rfl⟩ := List.cons.inj heq
    rw [if_pos hd]
  · rename_i heq
    cases heq

theorem word_escaped {c : Char} (hc : isDelimiter c = true) (rest : List Char) :
    word ('\\' :: c :: rest) = (c :: (word rest).1, (word rest).2) := by
  rw [word, if_pos hc]

/-- A backslash stands for itself unless a delimiter follows. -/
theorem word_backslash {rest : List Char} (h : ∀ c ∈ rest.head?, isDelimiter c = false) :
    word ('\\' :: rest) = ('\\' :: (word rest).1, (word rest).2) := by
  cases rest with
  | nil => rfl
  | cons c rest =>
    have hc : isDelimiter c = false := h c rfl
    rw [word, if_neg (by rw [hc]; exact Bool.false_ne_true)]

theorem word_cons {c : Char} (hne : c ≠ '\\') (hc : isEnd c = false) (rest : List Char) :
    word (c :: rest) = (c :: (word rest).1, (word rest).2) := by
  rw [word.eq_def]
  split
  · rename_i heq
    exact absurd (List.cons.inj heq).1 hne
  · rename_i heq
    obtain ⟨rfl, rfl⟩ := List.cons.inj heq
    rw [if_neg (by rw [hc]; exact Bool.false_ne_true)]
  · rename_i heq
    cases heq

/-- What begins with an escaped text does not begin with a delimiter, unless the text is empty. -/
theorem not_isDelimiter_escape {cs tail : List Char}
    (h : cs = [] → ∀ c ∈ tail.head?, isDelimiter c = false) :
    ∀ c ∈ (escape cs ++ tail).head?, isDelimiter c = false := by
  cases cs with
  | nil => exact h rfl
  | cons c cs =>
    rw [escape_cons]
    by_cases hc : isDelimiter c = true
    · rw [if_pos hc]
      intro x hx
      obtain rfl : '\\' = x := Option.some.inj hx
      decide
    · rw [if_neg hc]
      intro x hx
      obtain rfl : c = x := Option.some.inj hx
      exact Bool.eq_false_iff.mpr hc

/-- **An escaped text is read back, and then what is behind it.** If the text ends in a backslash,
a delimiter behind it would be taken for an escaped one. -/
theorem word_escape_append {cs tail : List Char} (h : '\n' ∉ cs)
    (htail : cs.getLast? = some '\\' → ∀ c ∈ tail.head?, isDelimiter c = false) :
    word (escape cs ++ tail) = (cs ++ (word tail).1, (word tail).2) := by
  induction cs with
  | nil => rfl
  | cons c cs ih =>
    have ih := ih (List.not_mem_of_not_mem_cons h) fun hlast =>
      htail (by rw [List.getLast?_cons, hlast]; rfl)
    rw [escape_cons]
    by_cases hc : isDelimiter c = true
    · rw [if_pos hc, List.cons_append, List.singleton_append, List.cons_append, List.cons_append,
        word_escaped hc, ih, List.cons_append]
    · rw [if_neg hc, List.singleton_append, List.cons_append]
      by_cases hbackslash : c = '\\'
      · -- no delimiter in the text is without a backslash, so one that follows is behind the text
        subst hbackslash
        have hhead := not_isDelimiter_escape fun hnil : cs = [] => htail (by rw [hnil]; rfl)
        rw [word_backslash hhead, ih, List.cons_append]
      · have hnewline : c ≠ '\n' := (List.ne_of_not_mem_cons h).symm
        have hend : isEnd c = false := by
          rw [isEnd, Bool.eq_false_iff.mpr hc, Bool.false_or, decide_eq_false hnewline]
        rw [word_cons hbackslash hend, ih, List.cons_append]

/-- **A word is read back up to the delimiter behind it.** -/
theorem word_escape {cs : List Char} (h : IsWord cs) {d : Char} (hd : isEnd d = true)
    (rest : List Char) : word (escape cs ++ d :: rest) = (cs, d :: rest) := by
  rw [word_escape_append h.newline fun hlast => absurd hlast h.backslash, word_end hd,
    List.append_nil]

example : word "a\\\\,b c".toList = ("a\\,b".toList, " c".toList) := by decide

/-! ## Values are read back -/

/-- **A text in quotes is read back up to the closing quote.** -/
theorem quoted?_quote (cs rest : List Char) :
    quoted? (cs.flatMap (fun c => if isQuoted c then ['\\', c] else [c]) ++ '"' :: rest) =
      some (cs, rest) := by
  induction cs with
  | nil => rw [List.flatMap_nil, List.nil_append, quoted?]
  | cons c cs ih =>
    rw [List.flatMap_cons, List.append_assoc]
    by_cases hc : isQuoted c = true
    · rw [if_pos hc, List.cons_append, List.singleton_append, quoted?, if_pos hc, ih]
      rfl
    · rw [if_neg hc, List.singleton_append]
      have hquote : c ≠ '"' := by
        rintro rfl
        exact hc rfl
      have hbackslash : c ≠ '\\' := by
        rintro rfl
        exact hc rfl
      rw [quoted?.eq_def]
      split
      · rename_i heq
        exact absurd (List.cons.inj heq).1 hquote
      · rename_i heq
        exact absurd (List.cons.inj heq).1 hbackslash
      · rename_i heq
        obtain ⟨rfl, rfl⟩ := List.cons.inj heq
        rw [ih]
        rfl
      · rename_i heq
        cases heq

/-- What a line tells of a value. -/
def Value.ofField : FieldValue → Value
  | .float x => .float (FieldValue.float x).text
  | .int n => .int n
  | .bool b => .bool b
  | .bytes bs => .bytes bs

/-- A text without quotes is read up to the first character that ends it. -/
theorem value?_bare {w : List Char} {v : Value} (hends : ∀ c ∈ w, isEnd c = false)
    (hquote : '"' ∉ w) (hbare : bare? w = some v) {d : Char} (hd : isEnd d = true)
    (rest : List Char) : value? (w ++ d :: rest) = some (v, d :: rest) := by
  have hgoes : ∀ c ∈ w, (!isEnd c) = true := fun c hc => by rw [hends c hc]; rfl
  have htake : (w ++ d :: rest).takeWhile (!isEnd ·) = w := by
    rw [List.takeWhile_append_of_pos hgoes, List.takeWhile_cons_of_neg (by simp [hd]),
      List.append_nil]
  have hdrop : (w ++ d :: rest).dropWhile (!isEnd ·) = d :: rest := by
    rw [List.dropWhile_append_of_pos hgoes, List.dropWhile_cons_of_neg (by simp [hd])]
  rw [value?.eq_def]
  split
  · rename_i tail heq
    cases w with
    | nil =>
      rw [List.nil_append] at heq
      rw [(List.cons.inj heq).1] at hd
      exact absurd hd (by decide)
    | cons c w => exact absurd ((List.cons.inj heq).1 ▸ List.mem_cons_self) hquote
  · rw [htake, hdrop, hbare]
    rfl

theorem isEnd_cases {c : Char} (h : isEnd c = true) :
    c = ',' ∨ c = ' ' ∨ c = '=' ∨ c = '\n' := by
  simpa [isEnd, isDelimiter, or_assoc] using h

theorem not_isEnd_of_isNumeral {w : List Char} (h : Text.isNumeral w = true) :
    ∀ c ∈ w, isEnd c = false := by
  intro c hc
  refine Bool.eq_false_iff.mpr fun hend => ?_
  rcases isEnd_cases hend with rfl | rfl | rfl | rfl
  all_goals exact Text.not_mem_of_isNumeral h (by decide) hc

theorem bare?_float (x : Binary64) :
    bare? (FieldValue.float x).text.toList = some (.float (FieldValue.float x).text) := by
  have hfloat : ∀ w ∈ ["NaN".toList, "inf".toList, "-inf".toList],
      w ≠ "true".toList ∧ w ≠ "false".toList ∧ w.getLast? ≠ some 'i' ∧ isFloatText w = true := by
    decide
  have htext : ∀ w : List Char,
      w ≠ "true".toList ∧ w ≠ "false".toList ∧ w.getLast? ≠ some 'i' ∧ isFloatText w = true →
      bare? w = some (.float (String.ofList w)) := by
    rintro w ⟨htrue, hfalse, hlast, hw⟩
    rw [bare?, if_neg htrue, if_neg hfalse, if_neg hlast, if_pos hw]
  rw [htext, String.ofList_toList]
  rcases FieldValue.text_float_cases x with hword | ⟨hnumeral, hne⟩
  · exact hfloat _ hword
  · have hmem : ∀ {c : Char}, (c.isDigit || c == '.' || c == '-') = false →
        c ∉ (FieldValue.float x).text.toList := fun hc => Text.not_mem_of_isNumeral hnumeral hc
    refine ⟨fun heq => ?_, fun heq => ?_, fun hlast => ?_, ?_⟩
    · exact hmem (c := 't') (by decide) (heq ▸ by decide)
    · exact hmem (c := 'f') (by decide) (heq ▸ by decide)
    · exact hmem (c := 'i') (by decide) (List.mem_of_getLast? hlast)
    · simp [isFloatText, hnumeral, hne]

theorem bare?_int (n : Int64) :
    bare? ((FieldValue.int n).text.toList ++ ['i']) = some (.int n) := by
  have hlast : ((FieldValue.int n).text.toList ++ ['i']).getLast? = some 'i' :=
    List.getLast?_concat
  have htrue : (FieldValue.int n).text.toList ++ ['i'] ≠ "true".toList := by
    intro heq
    rw [heq] at hlast
    exact absurd hlast (by decide)
  have hfalse : (FieldValue.int n).text.toList ++ ['i'] ≠ "false".toList := by
    intro heq
    rw [heq] at hlast
    exact absurd hlast (by decide)
  have hread : Text.Integer.read Text.Integer.signed (FieldValue.int n).text.toList =
      .ok n.toInt :=
    Text.Integer.read_repr n.le_toInt (Int.le_sub_one_of_lt n.toInt_lt)
  rw [bare?, if_neg htrue, if_neg hfalse, if_pos hlast, List.dropLast_concat, hread]
  dsimp only
  rw [Int64.ofInt_toInt]

/-- Bytes are read back if they are a text. -/
def IsReadable : FieldValue → Prop
  | .bytes bs => bs.toByteArray.IsValidUTF8
  | _ => True

/-- A value as it is read: bytes that are no text have become the text that is written for them. -/
def Value.written : FieldValue → Value
  | .bytes bs => .bytes ((Text.Utf8.decode bs).flatMap String.utf8EncodeChar)
  | v => .ofField v

theorem Value.written_of_isReadable {v : FieldValue} (h : IsReadable v) :
    written v = ofField v := by
  cases v with
  | bytes bs => rw [written, Text.Utf8.flatMap_decode h, ofField]
  | _ => rfl

/-- **A value is read back with its kind.** -/
theorem value?_valueChars (v : FieldValue) {d : Char} (hd : isEnd d = true) (rest : List Char) :
    value? (valueChars v ++ d :: rest) = some (.written v, d :: rest) := by
  cases v with
  | float x =>
    have hwords : ∀ w ∈ ["NaN".toList, "inf".toList, "-inf".toList],
        (∀ c ∈ w, isEnd c = false) ∧ '"' ∉ w := by simp [isEnd, isDelimiter]
    have htext : (∀ c ∈ (FieldValue.float x).text.toList, isEnd c = false)
        ∧ '"' ∉ (FieldValue.float x).text.toList := by
      rcases FieldValue.text_float_cases x with hword | ⟨hnumeral, -⟩
      · exact hwords _ hword
      · exact ⟨not_isEnd_of_isNumeral hnumeral, Text.not_mem_of_isNumeral hnumeral (by decide)⟩
    exact value?_bare htext.1 htext.2 (bare?_float x) hd rest
  | int n =>
    have hnumeral := FieldValue.isNumeral_text_int n
    refine value?_bare ?_ ?_ (bare?_int n) hd rest
    · exact List.forall_mem_append.mpr ⟨not_isEnd_of_isNumeral hnumeral,
        List.forall_mem_singleton.mpr (by decide)⟩
    · rw [List.mem_append, not_or]
      exact ⟨Text.not_mem_of_isNumeral hnumeral (by decide), by decide⟩
  | bool b =>
    have htext : (∀ c ∈ (FieldValue.bool b).text.toList, isEnd c = false)
        ∧ '"' ∉ (FieldValue.bool b).text.toList := by
      cases b <;> simp [FieldValue.text, isEnd, isDelimiter]
    refine value?_bare htext.1 htext.2 ?_ hd rest
    cases b <;> rfl
  | bytes bs =>
    rw [valueChars, quote, List.cons_append, List.append_assoc, List.singleton_append, value?,
      quoted?_quote, Option.map_some]
    rfl

/-! ## Lines are read back -/

theorem tag?_chars {tag : String × String} (hkey : IsWord tag.1.toList)
    (hvalue : IsWord tag.2.toList) {d : Char} (hd : isEnd d = true) (rest : List Char) :
    tag? (escape tag.1.toList ++ '=' :: escape tag.2.toList ++ d :: rest) =
      some (tag, d :: rest) := by
  rw [tag?, List.append_assoc, List.cons_append, word_escape hkey (by decide)]
  simp only [word_escape hvalue hd, String.ofList_toList]

theorem field?_chars {field : String × FieldValue} (hkey : IsWord field.1.toList)
    {d : Char} (hd : isEnd d = true) (rest : List Char) :
    field? (fieldChars field ++ d :: rest) =
      some ((field.1, .written field.2), d :: rest) := by
  rw [field?, fieldChars, List.append_assoc, List.cons_append, word_escape hkey (by decide)]
  simp only [value?_valueChars _ hd, Option.map_some, String.ofList_toList]

/-- Behind a word or an item there is the comma of the next item or the blank behind the last. -/
theorem exists_end {α : Type} (chars : α → List Char) (items : List α) (rest : List Char) :
    ∃ d tail, items.flatMap (fun a => ',' :: chars a) ++ ' ' :: rest = d :: tail
      ∧ isEnd d = true := by
  cases items with
  | nil => exact ⟨' ', rest, rfl, by decide⟩
  | cons a items => exact ⟨',', _, rfl, by decide⟩

/-- Items are read back if each of them is read back up to what ends it. -/
theorem many?_chars {α β : Type} {item? : List Char → Option (β × List Char)}
    {chars : α → List Char} (read : α → β) {items : List α}
    (h : ∀ a ∈ items, ∀ d rest, isEnd d = true →
      item? (chars a ++ d :: rest) = some (read a, d :: rest)) (rest : List Char) :
    many? item? (items.flatMap (fun a => ',' :: chars a) ++ ' ' :: rest) =
      some (items.map read, ' ' :: rest) := by
  induction items with
  | nil => rw [List.flatMap_nil, List.nil_append, many?.eq_def]; rfl
  | cons a items ih =>
    obtain ⟨ha, hitems⟩ := List.forall_mem_cons.mp h
    obtain ⟨d, tail, htail, hd⟩ := exists_end chars items rest
    have ih := ih hitems
    have hle : (d :: tail).length ≤ (chars a ++ d :: tail).length := by
      rw [List.length_append]
      exact Nat.le_add_left _ _
    rw [htail] at ih
    rw [List.flatMap_cons, List.append_assoc, htail, List.cons_append, many?, ha d tail hd]
    dsimp only
    rw [if_pos hle, ih]
    rfl

/-- A text without delimiters is written as it is. -/
theorem escape_eq_self {cs : List Char} (h : ∀ c ∈ cs, isDelimiter c = false) :
    escape cs = cs := by
  induction cs with
  | nil => rfl
  | cons c cs ih =>
    obtain ⟨hc, hcs⟩ := List.forall_mem_cons.mp h
    rw [escape_cons, hc, ih hcs]
    rfl

theorem escape_of_isNumeral {cs : List Char} (h : Text.isNumeral cs = true) : escape cs = cs := by
  refine escape_eq_self fun c hc => Bool.eq_false_iff.mpr fun hdelimiter => ?_
  have hend := not_isEnd_of_isNumeral h c hc
  rw [isEnd_of_isDelimiter hdelimiter] at hend
  cases hend

theorem isWord_of_isNumeral {cs : List Char} (h : Text.isNumeral cs = true) : IsWord cs where
  newline := Text.not_mem_of_isNumeral h (by decide)
  backslash := fun hlast =>
    Text.not_mem_of_isNumeral h (by decide) (List.mem_of_getLast? hlast)

theorem time?_chars (p : Point) (rest : List Char) :
    time? ((Int.repr p.nanos).toList ++ '\n' :: rest) = some (p.nanos, rest) := by
  have hnumeral := Text.isNumeral_intRepr p.nanos
  have hword := word_escape (isWord_of_isNumeral hnumeral) (show isEnd '\n' = true by decide) rest
  rw [escape_of_isNumeral hnumeral] at hword
  have hread : Text.Integer.read Text.Integer.signed (Int.repr p.nanos).toList = .ok p.nanos :=
    Text.Integer.read_repr p.time.unixNanos_mem.1 p.time.unixNanos_mem.2
  rw [time?, hword]
  simp only [hread]

/-- A field is not taken for a time, since its key ends at an equals sign. -/
theorem time?_field {field : String × FieldValue} (hkey : IsWord field.1.toList)
    (rest : List Char) : time? (fieldChars field ++ rest) = none := by
  rw [time?, fieldChars, List.append_assoc, List.cons_append, word_escape hkey (by decide)]
  rfl

/-- The words of a point can be told apart, and its bytes are texts. -/
structure Readable (p : Point) : Prop where
  name : IsWord p.name.toList
  tags : ∀ tag ∈ p.tags.toList, IsWord tag.1.toList ∧ IsWord tag.2.toList
  fields : ∀ field ∈ p.fields.toList, IsWord field.1.toList ∧ IsReadable field.2

/-- What the line of a point tells. -/
def Line.ofPoint (p : Point) : Line where
  name := p.name
  tags := p.tags.toList
  fields := p.fields.toList.map fun field => (field.1, .ofField field.2)
  nanos := p.nanos

/-- The line of a point as it is read, whatever the bytes in its fields are. -/
def Line.written (p : Point) : Line where
  name := p.name
  tags := p.tags.toList
  fields := p.fields.toList.map fun field => (field.1, .written field.2)
  nanos := p.nanos

theorem Line.written_of_readable {p : Point} (h : Readable p) : written p = ofPoint p := by
  have hfields : ∀ field ∈ p.fields.toList,
      (field.1, Value.written field.2) = (field.1, Value.ofField field.2) := by
    intro field hmem
    rw [Value.written_of_isReadable (h.fields field hmem).2]
  rw [written, ofPoint, List.map_congr_left hfields]

/-- The words of a line: its name, the keys and the values of its tags, the keys of its fields. -/
def Line.words (line : Line) : List String :=
  line.name :: (line.tags.flatMap (fun tag => [tag.1, tag.2]) ++ line.fields.map (·.1))

theorem Line.forall_mem_words {P : String → Prop} {line : Line} :
    (∀ w ∈ line.words, P w) ↔
      P line.name ∧ (∀ tag ∈ line.tags, P tag.1 ∧ P tag.2) ∧ ∀ field ∈ line.fields, P field.1 := by
  simp only [words, List.forall_mem_cons, List.forall_mem_append, List.forall_mem_flatMap,
    List.forall_mem_map, List.mem_nil_iff, false_implies, implies_true, and_true]

/-- The name and the tags in front of a blank are read back. -/
theorem series_chars {p : Point} (hname : IsWord p.name.toList)
    (htags : ∀ tag ∈ p.tags.toList, IsWord tag.1.toList ∧ IsWord tag.2.toList)
    (tail : List Char) :
    word (escape p.name.toList ++ (p.tags.toList.flatMap tagChars ++ ' ' :: tail)) =
        (p.name.toList, p.tags.toList.flatMap tagChars ++ ' ' :: tail)
      ∧ many? tag? (p.tags.toList.flatMap tagChars ++ ' ' :: tail) =
        some (p.tags.toList, ' ' :: tail) := by
  constructor
  · obtain ⟨d, rest, hrest, hd⟩ := exists_end
      (fun tag : String × String => escape tag.1.toList ++ '=' :: escape tag.2.toList)
      p.tags.toList tail
    have hchars : p.tags.toList.flatMap tagChars ++ ' ' :: tail = d :: rest := hrest
    rw [hchars, word_escape hname hd]
  · have hmany := many?_chars id (fun tag htag d rest hd =>
      tag?_chars (htags tag htag).1 (htags tag htag).2 hd rest) tail
    rw [List.map_id] at hmany
    exact hmany

/-- **The line of a point is read back.** -/
theorem line?_chars {p : Point} (h : ∀ w ∈ (Line.written p).words, IsWord w.toList)
    (rest : List Char) : line? (chars p ++ rest) = some (.written p, rest) := by
  obtain ⟨hname, htags, hkeys⟩ := Line.forall_mem_words.mp h
  have hkeys : ∀ field ∈ p.fields.toList, IsWord field.1.toList :=
    fun field hmem => hkeys _ (List.mem_map_of_mem hmem)
  have htime := time?_chars p rest
  have hline : chars p ++ rest = escape p.name.toList ++ (p.tags.toList.flatMap tagChars
      ++ (fieldsChars p.fields.toList ++ ' ' :: ((Int.repr p.nanos).toList ++ '\n' :: rest))) := by
    simp only [chars, List.append_assoc, List.cons_append, List.nil_append]
  rw [hline]
  cases hfields : p.fields.toList with
  | nil =>
    obtain ⟨hword, hmany⟩ := series_chars hname htags ((Int.repr p.nanos).toList ++ '\n' :: rest)
    rw [fieldsChars, List.nil_append, line?, hword, hmany]
    simp only [htime, String.ofList_toList, Line.written, hfields, List.map_nil]
  | cons field fields =>
    obtain ⟨hkey, hrest⟩ := List.forall_mem_cons.mp (hfields ▸ hkeys)
    obtain ⟨d, tail, htail, hd⟩ := exists_end fieldChars fields
      ((Int.repr p.nanos).toList ++ '\n' :: rest)
    have hmanyFields := many?_chars (fun field => (field.1, Value.written field.2))
      (fun field hmem d rest hd => field?_chars (hrest field hmem) hd rest)
      ((Int.repr p.nanos).toList ++ '\n' :: rest)
    rw [htail] at hmanyFields
    obtain ⟨hword, hmany⟩ := series_chars hname htags (fieldChars field ++ d :: tail)
    rw [fieldsChars, List.cons_append, List.append_assoc, htail, line?, hword, hmany]
    simp only [time?_field hkey, field?_chars hkey hd, hmanyFields, htime,
      Option.bind_eq_bind, Option.bind_some, String.ofList_toList, Option.pure_def, Line.written,
      hfields, List.map_cons]

theorem Readable.isWord {p : Point} (h : Readable p) :
    ∀ w ∈ (Line.written p).words, IsWord w.toList :=
  Line.forall_mem_words.mpr
    ⟨h.name, h.tags, List.forall_mem_map.mpr fun field hmem => (h.fields field hmem).1⟩

theorem chars_ne_nil (p : Point) : chars p ≠ [] := by
  simp [chars]

/-- **The lines of points are read back, one after the other.** -/
theorem lines?_chars {points : List Point} (h : ∀ p ∈ points, Readable p) :
    lines? (points.flatMap chars) = some (points.map .ofPoint) := by
  induction points with
  | nil => rw [List.flatMap_nil, lines?]; rfl
  | cons p points ih =>
    obtain ⟨hp, hpoints⟩ := List.forall_mem_cons.mp h
    have hline := line?_chars hp.isWord (points.flatMap chars)
    rw [Line.written_of_readable hp] at hline
    rw [List.flatMap_cons]
    cases hchars : chars p with
    | nil => exact absurd hchars (chars_ne_nil p)
    | cons c cs =>
      have hle : (points.flatMap chars).length ≤ (cs ++ points.flatMap chars).length := by
        rw [List.length_append]
        exact Nat.le_add_left _ _
      rw [hchars, List.cons_append] at hline
      rw [List.cons_append, lines?, hline]
      dsimp only
      rw [if_pos hle, ih hpoints]
      rfl

end Reader

end SeriesLoad.LineProtocol
