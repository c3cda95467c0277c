import Mathlib.Data.List.Dedup
import SeriesLoad.Proofs.Query.Bounds
import SeriesLoad.Proofs.Text.Plain

/-!
# Names in queries

Hosts and fields are named in queries in many ways: in quotes, behind an equals sign, with a path in
front, inside of `max(...)`. But names can be told from the rest of a text by their characters.
`Text.namesLike` finds all names in a text that begin like the names of hosts, or like the names of
fields of the processor.

**In the query of each engine for a question, these are the hosts of the question, one after the
other, and its metrics, all of them and no others** (`NamingDialect.named_asking`).

What stands between names is looked at piece by piece. Texts without an underscore have no names that
are looked for, and names do not run on over a character that is not part of one (`IsFront`,
`IsBack`).
-/

namespace SeriesLoad

namespace Text

/-! ## Names in a text -/

/-- The character is not part of a name. -/
def breaksName (c : Char) : Bool := !(c.isAlphanum || c == '_')

/-- The names in a text that begin like this. A name is a run of letters, digits and underscores. -/
def namesLike (start cs : List Char) : List String :=
  ((cs.splitOnP breaksName).filter fun name => start.isPrefixOf name).map String.ofList

/-- How names begin that are looked for: those of hosts and those of fields of the processor. -/
def beginnings : List (List Char) := ["host_".toList, "usage_".toList]

variable {start : List Char}

theorem mem_of_mem_splitOnP {p : Char → Bool} {cs name : List Char} (h : name ∈ cs.splitOnP p)
    {c : Char} (hc : c ∈ name) : c ∈ cs := by
  induction cs generalizing name with
  | nil =>
    rw [List.splitOnP_nil, List.mem_singleton] at h
    exact h ▸ hc
  | cons d cs ih =>
    obtain ⟨first, rest, hsplit⟩ := List.exists_cons_of_ne_nil (List.splitOnP_ne_nil p cs)
    rw [hsplit] at ih
    rw [List.splitOnP_cons_eq_if_modifyHead, hsplit] at h
    by_cases hp : p d = true
    · rw [if_pos hp] at h
      rcases List.mem_cons.mp h with rfl | h
      · cases hc
      · exact List.mem_cons_of_mem d (ih h hc)
    · rw [if_neg hp, List.modifyHead_cons] at h
      rcases List.mem_cons.mp h with rfl | h
      · rcases List.mem_cons.mp hc with rfl | hc
        · exact List.mem_cons_self
        · exact List.mem_cons_of_mem d (ih List.mem_cons_self hc)
      · exact List.mem_cons_of_mem d (ih (List.mem_cons_of_mem first h) hc)

/-- All names that are looked for have an underscore in them. -/
theorem namesLike_of_not_mem (hstart : start ∈ beginnings) {cs : List Char} (h : '_' ∉ cs) :
    namesLike start cs = [] := by
  have hunderscore : ∀ start ∈ beginnings, '_' ∈ start := by decide
  rw [namesLike, List.map_eq_nil_iff, List.filter_eq_nil_iff]
  intro name hname hbegins
  have hmem := (List.isPrefixOf_iff_prefix.mp hbegins).subset (hunderscore start hstart)
  exact h (mem_of_mem_splitOnP hname hmem)

theorem namesLike_of_isName {cs : List Char} (h : isName cs = true) :
    namesLike start cs = if start.isPrefixOf cs then [String.ofList cs] else [] := by
  have hbreaks : ∀ c ∈ cs, breaksName c = false := by
    intro c hc
    rw [breaksName, Bool.not_eq_false']
    exact List.all_eq_true.mp h c hc
  rw [namesLike, List.splitOnP_eq_singleton hbreaks]
  by_cases hbegins : start.isPrefixOf cs = true
  · simp [hbegins]
  · simp [hbegins]

theorem namesLike_append_cons {c : Char} (hc : breaksName c = true) (cs ds : List Char) :
    namesLike start (cs ++ c :: ds) = namesLike start cs ++ namesLike start ds := by
  rw [namesLike, List.splitOnP_append_cons cs ds hc, List.filter_append, List.map_append]
  rfl

/-- The text has no names that are looked for, and does not end in a name. -/
def IsFront (cs : List Char) : Prop := cs.getLast?.any breaksName = true ∧ '_' ∉ cs

/-- The text has no names that are looked for, and does not begin with a name. -/
def IsBack (cs : List Char) : Prop := cs.head?.any breaksName = true ∧ '_' ∉ cs

/-- The text keeps the names before it and behind it apart. -/
def Separates (cs : List Char) : Prop := IsBack cs ∧ IsFront cs

instance (cs : List Char) : Decidable (IsFront cs) := inferInstanceAs (Decidable (_ ∧ _))

instance (cs : List Char) : Decidable (IsBack cs) := inferInstanceAs (Decidable (_ ∧ _))

instance (cs : List Char) : Decidable (Separates cs) := inferInstanceAs (Decidable (_ ∧ _))

theorem namesLike_behind (hstart : start ∈ beginnings) {front : List Char} (h : IsFront front)
    (cs : List Char) : namesLike start (front ++ cs) = namesLike start cs := by
  obtain ⟨hlast, hplain⟩ := h
  obtain ⟨c, hc, hbreaks⟩ := (Option.any_eq_true _ _).mp hlast
  obtain ⟨before, rfl⟩ := List.getLast?_eq_some_iff.mp hc
  have hbefore : '_' ∉ before := fun hmem => hplain (List.mem_append_left _ hmem)
  rw [List.append_assoc, List.singleton_append, namesLike_append_cons hbreaks,
    namesLike_of_not_mem hstart hbefore, List.nil_append]

theorem namesLike_append_back (hstart : start ∈ beginnings) {back : List Char} (h : IsBack back)
    (cs ds : List Char) :
    namesLike start (cs ++ (back ++ ds)) = namesLike start cs ++ namesLike start (back ++ ds) := by
  obtain ⟨hfirst, -⟩ := h
  obtain ⟨c, hc, hbreaks⟩ := (Option.any_eq_true _ _).mp hfirst
  obtain ⟨behind, rfl⟩ := List.head?_eq_some_iff.mp hc
  have hnil := namesLike_of_not_mem hstart (List.not_mem_nil (a := '_'))
  have hrest : namesLike start (c :: (behind ++ ds)) = namesLike start (behind ++ ds) := by
    change namesLike start ([] ++ c :: (behind ++ ds)) = _
    rw [namesLike_append_cons hbreaks, hnil, List.nil_append]
  rw [List.cons_append, namesLike_append_cons hbreaks, hrest]

theorem namesLike_before (hstart : start ∈ beginnings) {back : List Char} (h : IsBack back)
    (cs : List Char) : namesLike start (cs ++ back) = namesLike start cs := by
  have := namesLike_append_back hstart h cs []
  rwa [List.append_nil, namesLike_of_not_mem hstart h.2, List.append_nil] at this

theorem namesLike_separated (hstart : start ∈ beginnings) {sep : List Char} (h : Separates sep)
    (cs ds : List Char) :
    namesLike start (cs ++ (sep ++ ds)) = namesLike start cs ++ namesLike start ds := by
  rw [namesLike_append_back hstart h.1, namesLike_behind hstart h.2]

theorem namesLike_between (hstart : start ∈ beginnings) {front back : String}
    (hfront : IsFront front.toList) (hback : IsBack back.toList) (text : String) :
    namesLike start (front ++ text ++ back).toList = namesLike start text.toList := by
  rw [String.toList_append, String.toList_append, namesLike_before hstart hback,
    namesLike_behind hstart hfront]

theorem namesLike_intercalate (hstart : start ∈ beginnings) {sep : List Char} (hsep : Separates sep)
    (texts : List (List Char)) :
    namesLike start (sep.intercalate texts) = texts.flatMap (namesLike start) := by
  induction texts with
  | nil => exact namesLike_of_not_mem hstart List.not_mem_nil
  | cons text texts ih =>
    cases texts with
    | nil => simp
    | cons text' texts =>
      rw [List.intercalate_cons_cons, List.append_assoc, namesLike_separated hstart hsep, ih]
      exact List.flatMap_cons.symm

/-- The names in some texts, one after the other. -/
def namesIn (start : List Char) (texts : List String) : List String :=
  texts.flatMap fun text => namesLike start text.toList

/-- A list of words in a text has the names of its words. -/
theorem namesLike_list (hstart : start ∈ beginnings) {sep : String} (hsep : Separates sep.toList)
    {phrase : String → String}
    (hphrase : ∀ word, namesLike start (phrase word).toList = namesLike start word.toList)
    (words : List String) :
    namesLike start (String.intercalate sep (words.map phrase)).toList = namesIn start words := by
  rw [String.toList_intercalate, namesLike_intercalate hstart hsep, List.map_map, List.flatMap_map,
    namesIn]
  exact congrArg (words.flatMap ·) (funext hphrase)

end Text

open Text (namesLike namesIn beginnings namesLike_of_not_mem namesLike_behind namesLike_before
  namesLike_separated namesLike_between namesLike_list)

variable {start : List Char}

/-! ## Names in statements -/

theorem namesLike_bounds (hstart : start ∈ beginnings) {first between last : String}
    (h : ∀ text ∈ [first, between, last], '_' ∉ text.toList) (window : Interval) :
    namesLike start
      (first ++ window.startText ++ between ++ window.stopText ++ last).toList = [] := by
  have hinstant : ∀ t : Instant, '_' ∉ (Rfc3339.render t).toList := by
    intro t
    rw [Rfc3339.render, String.toList_ofList]
    exact Rfc3339.not_mem_chars (by decide) (by decide) t
  apply namesLike_of_not_mem hstart
  simp only [List.forall_mem_cons] at h
  obtain ⟨hfirst, hbetween, hlast, -⟩ := h
  simp only [Interval.startText, Interval.stopText, String.toList_append, List.mem_append, not_or]
  exact ⟨⟨⟨⟨hfirst, hinstant _⟩, hbetween⟩, hinstant _⟩, hlast⟩

/-- Conditions on the metrics. -/
theorem namesLike_conditions (hstart : start ∈ beginnings) {sep : String}
    (hsep : Text.Separates sep.toList) (metrics : List String) :
    namesLike start (String.intercalate sep
      (metrics.map fun metric => metric ++ " > 90.0")).toList = namesIn start metrics := by
  refine namesLike_list hstart hsep ?_ metrics
  intro metric
  rw [String.toList_append]
  exact namesLike_before hstart (by decide) metric.toList

/-- The name of a greatest value does not begin like the name of its metric. -/
theorem namesLike_max (hstart : start ∈ beginnings) {metric : List Char}
    (h : Text.isName metric = true) : namesLike start ("max_".toList ++ metric) = [] := by
  have hname : Text.isName ("max_".toList ++ metric) = true := by
    rw [Text.isName, List.all_append, Bool.and_eq_true]
    exact ⟨by decide, h⟩
  have hother : start.isPrefixOf ("max_".toList ++ metric) = false := by
    simp only [beginnings, List.mem_cons, List.not_mem_nil, or_false] at hstart
    rcases hstart with rfl | rfl
    · rfl
    · rfl
  rw [Text.namesLike_of_isName hname, hother]
  rfl

namespace LineRequest

theorem namesLike_timeCondition (hstart : start ∈ beginnings) (window : Interval) :
    namesLike start (timeCondition window).toList = [] :=
  namesLike_bounds hstart (by decide) window

theorem namesLike_hostCondition (hstart : start ∈ beginnings) (hosts : List String) :
    namesLike start (hostCondition hosts).toList = namesIn start hosts := by
  rw [hostCondition, namesLike_between hstart (by decide) (by decide)]
  refine namesLike_list hstart (by decide) ?_ hosts
  intro host
  exact namesLike_between hstart (by decide) (by decide) host

/-- The names in the statement for a question are those in its metrics and in its hosts. -/
theorem namesLike_asking (hstart : start ∈ beginnings) (database : String) (q : Question) :
    namesLike start (asking database q).statement.toList =
      namesIn start q.metrics ++ namesIn start q.hosts := by
  have htime := namesLike_timeCondition hstart q.window
  have hhosts := namesLike_hostCondition hstart q.hosts
  cases hkind : q.kind with
  | high =>
    have hmetrics := namesLike_conditions hstart
      (show Text.Separates " and ".toList by decide) q.metrics
    simp only [asking, hkind, String.toList_append, List.append_assoc]
    rw [namesLike_behind hstart (by decide)]
    by_cases hnone : q.hosts = []
    · rw [if_pos hnone, String.toList_empty, List.nil_append,
        namesLike_separated hstart (by decide), hmetrics, htime, hnone]
      rfl
    · rw [if_neg hnone, String.toList_append, List.append_assoc,
        namesLike_separated hstart (by decide), namesLike_separated hstart (by decide), hmetrics,
        hhosts, htime, List.append_nil]
  | byMinute =>
    have hmetrics : namesLike start (String.intercalate ","
        (q.metrics.map fun metric => "max(" ++ metric ++ ")")).toList = namesIn start q.metrics := by
      refine namesLike_list hstart (by decide) ?_ q.metrics
      intro metric
      exact namesLike_between hstart (by decide) (by decide) metric
    simp only [asking, hkind, String.toList_append, List.append_assoc]
    rw [namesLike_behind hstart (by decide), namesLike_separated hstart (by decide),
      namesLike_separated hstart (by decide), namesLike_before hstart (by decide), hmetrics, hhosts,
      htime, List.append_nil]

end LineRequest

namespace SqlStatement

theorem namesLike_timeCondition (hstart : start ∈ beginnings) (window : Interval) :
    namesLike start (timeCondition window).toList = [] :=
  namesLike_bounds hstart (by decide) window

theorem namesLike_hostCondition (hstart : start ∈ beginnings) (hosts : List String) :
    namesLike start (hostCondition hosts).toList = namesIn start hosts := by
  rw [hostCondition, namesLike_between hstart (by decide) (by decide)]
  refine namesLike_list hstart (by decide) ?_ hosts
  intro host
  exact namesLike_between hstart (by decide) (by decide) host

/-- The columns have the names of the metrics twice, the second time as parts of longer names. -/
theorem namesLike_columns (hstart : start ∈ beginnings) {metrics : List String}
    (hmetrics : ∀ metric ∈ metrics, Text.isName metric.toList = true) {sep : List Char}
    (hsep : Text.Separates sep) (front rest : List Char) :
    namesLike start (front ++ ((String.join (metrics.map greatest)).toList ++ (sep ++ rest))) =
      namesLike start front ++ namesIn start metrics ++ namesLike start rest := by
  induction metrics generalizing front with
  | nil =>
    have hnone : (String.join ([].map greatest)).toList = [] := by rfl
    rw [hnone, List.nil_append, namesLike_separated hstart hsep, namesIn, List.flatMap_nil,
      List.append_nil]
  | cons metric metrics ih =>
    obtain ⟨hmetric, hmetrics⟩ := List.forall_mem_cons.mp hmetrics
    have hcolumns : (String.join ((metric :: metrics).map greatest)).toList =
        ", max(".toList ++ (metric.toList ++ (") AS ".toList ++ ("max_".toList ++ metric.toList ++
          (String.join (metrics.map greatest)).toList))) := by
      have hend : ") AS max_".toList = ") AS ".toList ++ "max_".toList := by decide
      simp [String.toList_join, greatest, hend]
    have hnext := ih hmetrics ("max_".toList ++ metric.toList)
    rw [namesLike_max hstart hmetric, List.nil_append] at hnext
    simp only [hcolumns, List.append_assoc] at hnext ⊢
    rw [namesLike_separated hstart (by decide), namesLike_separated hstart (by decide), hnext]
    simp [namesIn]

/-- The names in the text for a question are those in its metrics and in its hosts. -/
theorem namesLike_asking (hstart : start ∈ beginnings) (database : String) {q : Question}
    (hmetrics : ∀ metric ∈ q.metrics, Text.isName metric.toList = true) :
    namesLike start (asking database q).text.toList =
      namesIn start q.metrics ++ namesIn start q.hosts := by
  have htime := namesLike_timeCondition hstart q.window
  have hhosts := namesLike_hostCondition hstart q.hosts
  cases hkind : q.kind with
  | high =>
    have hover := namesLike_conditions hstart
      (show Text.Separates " AND ".toList by decide) q.metrics
    simp only [asking, hkind, String.toList_append, List.append_assoc]
    rw [namesLike_behind hstart (by decide), namesLike_separated hstart (by decide),
      hover]
    by_cases hnone : q.hosts = []
    · rw [if_pos hnone, String.toList_empty, List.append_nil, htime, hnone]
      rfl
    · rw [if_neg hnone, String.toList_append, namesLike_separated hstart (by decide), htime, hhosts,
        List.nil_append]
  | byMinute =>
    have hbucket : ∀ start ∈ beginnings,
        namesLike start "SELECT time_bucket('1 minute', time) AS minute".toList = [] := by decide
    have hcolumns := namesLike_columns hstart hmetrics
      (show Text.Separates " FROM cpu WHERE ".toList by decide)
      "SELECT time_bucket('1 minute', time) AS minute".toList
    simp only [asking, hkind, String.toList_append, List.append_assoc]
    rw [show (fun m : String => ", max(" ++ m ++ ") AS max_" ++ m) = greatest from rfl, hcolumns,
      hbucket start hstart, List.nil_append, namesLike_separated hstart (by decide), hhosts,
      namesLike_before hstart (by decide), htime, List.append_nil]

end SqlStatement

/-! ## Names in documents and plans -/

namespace Json

mutual

/-- The texts in a document: keys and strings. -/
def texts : Json → List String
  | .str s => [s]
  | .arr items => itemTexts items
  | .obj members => memberTexts members
  | _ => []

/-- The texts in the items of an array. -/
def itemTexts : List Json → List String
  | [] => []
  | j :: rest => texts j ++ itemTexts rest

/-- The texts in the members of an object. -/
def memberTexts : List (String × Json) → List String
  | [] => []
  | (key, j) :: rest => key :: texts j ++ memberTexts rest

end

theorem memberTexts_append (members more : List (String × Json)) :
    memberTexts (members ++ more) = memberTexts members ++ memberTexts more := by
  induction members with
  | nil => rfl
  | cons m members ih =>
    obtain ⟨key, j⟩ := m
    rw [List.cons_append, memberTexts, memberTexts, ih, List.append_assoc]

theorem itemTexts_strings (strings : List String) : itemTexts (strings.map .str) = strings := by
  induction strings with
  | nil => rfl
  | cons s strings ih => rw [List.map_cons, itemTexts, texts, ih, List.singleton_append]

theorem memberTexts_map {α : Type} (f : α → String × Json) (xs : List α) :
    memberTexts (xs.map f) = xs.flatMap fun x => (f x).1 :: texts (f x).2 := by
  induction xs with
  | nil => rfl
  | cons x xs ih => rw [List.map_cons, memberTexts, ih, List.flatMap_cons]

end Json

theorem namesIn_append (texts more : List String) :
    namesIn start (texts ++ more) = namesIn start texts ++ namesIn start more :=
  List.flatMap_append

/-- If each text of some texts for a word has the names of the word, then all of them have the names
of the words. -/
theorem namesIn_flatMap {phrases : String → List String} {words : List String}
    (h : ∀ word ∈ words, namesIn start (phrases word) = namesLike start word.toList) :
    namesIn start (words.flatMap phrases) = namesIn start words := by
  induction words with
  | nil => rfl
  | cons word words ih =>
    obtain ⟨hword, hwords⟩ := List.forall_mem_cons.mp h
    rw [List.flatMap_cons, namesIn_append, hword, ih hwords]
    rfl

namespace Pipeline

/-- What a pipeline says of the documents that it is about. -/
def texts (p : Pipeline) : List String := p.collection :: Json.itemTexts p.stages

theorem names_windowConditions (hstart : start ∈ beginnings) (window : Interval) :
    namesIn start (Json.memberTexts (windowConditions window)) = [] := by
  have hnone : ∀ start ∈ beginnings,
      namesIn start ["measurement", "cpu", "timestamp_ns", "$gte", "$lt"] = [] := by decide
  exact hnone start hstart

theorem names_hostCondition (hstart : start ∈ beginnings) (hosts : List String) :
    namesIn start (Json.memberTexts [hostCondition hosts]) = namesIn start hosts := by
  have hnone : ∀ start ∈ beginnings, namesIn start ["tags.hostname", "$in"] = [] := by decide
  have htexts : Json.memberTexts [hostCondition hosts] = ["tags.hostname", "$in"] ++ hosts := by
    simp [hostCondition, Json.memberTexts, Json.texts, Json.itemTexts_strings]
  rw [htexts, namesIn_append, hnone start hstart, List.nil_append]

/-- The names in the pipeline for a question are those in its metrics and in its hosts. -/
theorem names_asking (hstart : start ∈ beginnings) (database : String) {q : Question}
    (hmetrics : ∀ metric ∈ q.metrics, Text.isName metric.toList = true) :
    namesIn start (asking database q).texts = match q.kind with
      | .high => namesIn start q.metrics ++ namesIn start q.hosts
      | .byMinute => namesIn start q.hosts ++ namesIn start q.metrics := by
  have hwindow := names_windowConditions hstart q.window
  have hhosts := names_hostCondition hstart q.hosts
  cases hkind : q.kind with
  | high =>
    have hfront : ∀ start ∈ beginnings, namesIn start ["point_data", "$match"] = [] := by decide
    have hover : namesIn start (q.metrics.flatMap fun metric => ["fields." ++ metric, "$gt"]) =
        namesIn start q.metrics := by
      apply namesIn_flatMap
      intro metric hmetric
      have hcomparison := namesLike_of_not_mem hstart (show '_' ∉ "$gt".toList by decide)
      rw [namesIn, List.flatMap_cons, List.flatMap_singleton, hcomparison, List.append_nil,
        String.toList_append, namesLike_behind hstart (by decide)]
    have htexts : (asking database q).texts = ["point_data", "$match"]
        ++ (Json.memberTexts (windowConditions q.window)
        ++ ((q.metrics.flatMap fun metric => ["fields." ++ metric, "$gt"])
        ++ Json.memberTexts (if q.hosts = [] then [] else [hostCondition q.hosts]))) := by
      simp [asking, hkind, texts, Json.itemTexts, Json.texts, Json.memberTexts,
        Json.memberTexts_append, Json.memberTexts_map]
    rw [htexts, namesIn_append, namesIn_append, namesIn_append, hfront start hstart, hwindow, hover,
      List.nil_append, List.nil_append]
    by_cases hnone : q.hosts = []
    · rw [if_pos hnone, hnone]
      rfl
    · rw [if_neg hnone, hhosts]
  | byMinute =>
    have hfront : ∀ start ∈ beginnings, namesIn start ["point_data", "$match"] = [] := by decide
    have hgroup : ∀ start ∈ beginnings, namesIn start
        ["$group", "_id", "$subtract", "$timestamp_ns", "$mod", "$timestamp_ns"] = [] := by decide
    have hsort : ∀ start ∈ beginnings, namesIn start ["$sort", "_id"] = [] := by decide
    have hgreatest : namesIn start (q.metrics.flatMap fun metric =>
        ["max_" ++ metric, "$max", "$fields." ++ metric]) = namesIn start q.metrics := by
      apply namesIn_flatMap
      intro metric hmetric
      have hoperator := namesLike_of_not_mem hstart (show '_' ∉ "$max".toList by decide)
      rw [namesIn, List.flatMap_cons, List.flatMap_cons, List.flatMap_singleton, hoperator,
        String.toList_append, namesLike_max hstart (hmetrics metric hmetric), List.nil_append,
        List.nil_append, String.toList_append, namesLike_behind hstart (by decide)]
    have htexts : (asking database q).texts = ["point_data", "$match"]
        ++ (Json.memberTexts (windowConditions q.window)
        ++ (Json.memberTexts [hostCondition q.hosts]
        ++ (["$group", "_id", "$subtract", "$timestamp_ns", "$mod", "$timestamp_ns"]
        ++ ((q.metrics.flatMap fun metric => ["max_" ++ metric, "$max", "$fields." ++ metric])
        ++ ["$sort", "_id"])))) := by
      simp [asking, hkind, texts, Json.itemTexts, Json.texts, Json.memberTexts,
        Json.memberTexts_append, Json.memberTexts_map]
    simp only [htexts, namesIn_append, hfront start hstart, hwindow, hhosts, hgroup start hstart,
      hgreatest, hsort start hstart, List.nil_append, List.append_nil]

end Pipeline

namespace SeriesPlan

/-- What a plan says of the data that it is about. -/
def texts (p : SeriesPlan) : List String :=
  p.measurement :: p.aggregation :: p.condition :: (p.fields ++ p.tagSets.flatten)

/-- The names in the plan for a question are those in its metrics and in its hosts. A condition has
those in its metrics once more. -/
theorem names_asking (hstart : start ∈ beginnings) (database : String) (q : Question) :
    namesIn start (asking database q).texts = (match q.kind with
      | .high => namesIn start q.metrics
      | .byMinute => []) ++ (namesIn start q.metrics ++ namesIn start q.hosts) := by
  have htag : ∀ host : String, namesLike start ("hostname=" ++ host).toList =
      namesLike start host.toList := by
    intro host
    rw [String.toList_append, namesLike_behind hstart (by decide)]
  have htags : (asking database q).tagSets.flatten = q.hosts.map fun host => "hostname=" ++ host := by
    unfold asking
    by_cases hnone : q.kind = .high ∧ q.hosts = []
    · simp [hnone]
    · simp [hnone]
  have hhosts : namesIn start (asking database q).tagSets.flatten = namesIn start q.hosts := by
    rw [htags, namesIn, List.flatMap_map]
    exact congrArg (q.hosts.flatMap ·) (funext htag)
  have hplain : ∀ start ∈ beginnings, namesLike start "cpu".toList = []
      ∧ namesLike start "none".toList = [] ∧ namesLike start "max".toList = []
      ∧ namesLike start "".toList = [] := by decide
  obtain ⟨hcpu, hreadings, hmax, hempty⟩ := hplain start hstart
  rw [texts, namesIn, List.flatMap_cons, List.flatMap_cons, List.flatMap_cons, ← namesIn,
    namesIn_append, hhosts]
  cases hkind : q.kind with
  | high =>
    have hover := namesLike_conditions hstart
      (show Text.Separates " and ".toList by decide) q.metrics
    simp only [asking, hkind, hcpu, hreadings, hover, List.nil_append]
  | byMinute => simp only [asking, hkind, hcpu, hmax, hempty, List.nil_append]

end SeriesPlan

/-! ## All dialects -/

theorem HostTags.isName_nameOf (i : Nat) : Text.isName (nameOf i).toList = true := by
  rw [nameOf, String.toList_append, Text.isName, List.all_append, Bool.and_eq_true, Nat.toList_repr]
  refine ⟨by decide, ?_⟩
  rw [List.all_eq_true]
  intro c hc
  rw [Char.isAlphanum, Text.isDigit_of_mem_toDigits hc, Bool.or_true, Bool.true_or]

theorem HostTags.begins_nameOf (i : Nat) :
    "host_".toList.isPrefixOf (nameOf i).toList = true := by
  rw [nameOf, String.toList_append, List.isPrefixOf_iff_prefix]
  exact List.prefix_append _ _

theorem namesIn_eq_self {words : List String}
    (h : ∀ word ∈ words, namesLike start word.toList = [word]) : namesIn start words = words := by
  induction words with
  | nil => rfl
  | cons word words ih =>
    obtain ⟨hword, hwords⟩ := List.forall_mem_cons.mp h
    rw [namesIn, List.flatMap_cons, hword, ← namesIn, ih hwords, List.singleton_append]

namespace Question

/-- The hosts and the metrics have the names that are given to them, and no metric is there
twice. -/
structure Nameable (q : Question) : Prop where
  hosts : ∀ host ∈ q.hosts, ∃ i, host = HostTags.nameOf i
  metrics : ∀ metric ∈ q.metrics, metric ∈ Metric.Cpu.keys
  nodup : q.metrics.Nodup

theorem Nameable.isName {q : Question} (h : q.Nameable) :
    ∀ metric ∈ q.metrics, Text.isName metric.toList = true := by
  have hall : ∀ key ∈ Metric.Cpu.keys, Text.isName key.toList = true := by decide
  exact fun metric hmetric => hall metric (h.metrics metric hmetric)

theorem Nameable.host_names {q : Question} (h : q.Nameable) :
    namesIn "host_".toList q.metrics = [] ∧ namesIn "host_".toList q.hosts = q.hosts := by
  constructor
  · have hnone : ∀ key ∈ Metric.Cpu.keys, namesLike "host_".toList key.toList = [] := by decide
    rw [namesIn, List.flatMap_eq_nil_iff]
    intro metric hmetric
    exact hnone metric (h.metrics metric hmetric)
  · apply namesIn_eq_self
    intro host hhost
    obtain ⟨i, rfl⟩ := h.hosts host hhost
    rw [Text.namesLike_of_isName (HostTags.isName_nameOf i), if_pos (HostTags.begins_nameOf i),
      String.ofList_toList]

theorem Nameable.field_names {q : Question} (h : q.Nameable) :
    namesIn "usage_".toList q.metrics = q.metrics ∧ namesIn "usage_".toList q.hosts = [] := by
  constructor
  · have hone : ∀ key ∈ Metric.Cpu.keys, namesLike "usage_".toList key.toList = [key] := by decide
    apply namesIn_eq_self
    intro metric hmetric
    exact hone metric (h.metrics metric hmetric)
  · rw [namesIn, List.flatMap_eq_nil_iff]
    intro host hhost
    obtain ⟨i, rfl⟩ := h.hosts host hhost
    have hother : "usage_".toList.isPrefixOf (HostTags.nameOf i).toList = false := by
      rw [HostTags.nameOf, String.toList_append]
      rfl
    rw [Text.namesLike_of_isName (HostTags.isName_nameOf i), hother]
    rfl

end Question

/-- What a query names: hosts, in their order, and fields of the processor, each of them once. -/
structure Named where
  hosts : List String
  fields : List String
deriving DecidableEq

/-- The hosts and the fields of the processor that are named in some texts. -/
def Named.ofTexts (texts : List String) : Named where
  hosts := namesIn "host_".toList texts
  fields := (namesIn "usage_".toList texts).dedup

theorem host_mem_beginnings : "host_".toList ∈ beginnings := .head _

theorem usage_mem_beginnings : "usage_".toList ∈ beginnings := .tail _ (.head _)

namespace Question

/-- What a query for a question is to name. -/
def named (q : Question) : Named := ⟨q.hosts, q.metrics⟩

/-- Texts in which names are found as in metrics and hosts, one list behind the other, name what the
question is about. -/
theorem Nameable.ofTexts {q : Question} (h : q.Nameable) {texts : List String}
    (hnames : ∀ start ∈ beginnings,
      namesIn start texts = namesIn start q.metrics ++ namesIn start q.hosts
        ∨ namesIn start texts = namesIn start q.hosts ++ namesIn start q.metrics
        ∨ namesIn start texts =
          namesIn start q.metrics ++ (namesIn start q.metrics ++ namesIn start q.hosts)) :
    Named.ofTexts texts = q.named := by
  obtain ⟨hnone, hhosts⟩ := h.host_names
  obtain ⟨hmetrics, hnone'⟩ := h.field_names
  have hlist : namesIn "host_".toList texts = q.hosts := by
    rcases hnames _ host_mem_beginnings with heq | heq | heq
    · rw [heq, hnone, hhosts, List.nil_append]
    · rw [heq, hnone, hhosts, List.append_nil]
    · rw [heq, hnone, hhosts, List.nil_append, List.nil_append]
  have hfields : (namesIn "usage_".toList texts).dedup = q.metrics := by
    have hself := h.nodup.dedup
    rcases hnames _ usage_mem_beginnings with heq | heq | heq
    · rw [heq, hmetrics, hnone', List.append_nil, hself]
    · rw [heq, hmetrics, hnone', List.nil_append, hself]
    · -- a condition on the metrics names them once more
      rw [heq, hmetrics, hnone', List.append_nil, List.dedup_append, hself,
        List.Subset.union_eq_right (List.Subset.refl _)]
  rw [Named.ofTexts, hlist, hfields, named]

end Question

/-- A dialect whose queries can be searched for names. -/
class NamingDialect (q : Type) [Dialect q] [FaithfulDialect q] where
  /-- The texts of a query, without the database and the texts for people. -/
  texts : q → List String
  named_asking : ∀ (database : String) {question : Question}, question.Nameable →
    Named.ofTexts (texts (FaithfulDialect.asking database question)) = question.named

/-- The names in a query. -/
def NamingDialect.named {q : Type} [Dialect q] [FaithfulDialect q] [NamingDialect q] (x : q) :
    Named := .ofTexts (texts x)

instance : NamingDialect SeriesPlan where
  texts := SeriesPlan.texts
  named_asking database question h := h.ofTexts fun start hstart => by
    have hnames := SeriesPlan.names_asking hstart database question
    cases hkind : question.kind with
    | high => exact .inr (.inr (by rw [hkind] at hnames; exact hnames))
    | byMinute => exact .inl (by rw [hkind] at hnames; exact hnames)

instance : NamingDialect LineRequest where
  texts r := [r.statement]
  named_asking database question h := h.ofTexts fun start hstart => by
    rw [namesIn, List.flatMap_singleton]
    exact .inl (LineRequest.namesLike_asking hstart database question)

instance : NamingDialect Pipeline where
  texts := Pipeline.texts
  named_asking database question h := h.ofTexts fun start hstart => by
    have hnames := Pipeline.names_asking hstart database h.isName
    cases hkind : question.kind with
    | high => exact .inl (by rw [hkind] at hnames; exact hnames)
    | byMinute => exact .inr (.inl (by rw [hkind] at hnames; exact hnames))

instance : NamingDialect SqlStatement where
  texts q := [q.table, q.text]
  named_asking database question h := h.ofTexts fun start hstart => by
    have htable : ∀ start ∈ beginnings, namesLike start "cpu".toList = [] := by decide
    have hnames := SqlStatement.namesLike_asking hstart database h.isName
    rw [namesIn, List.flatMap_cons, List.flatMap_singleton]
    exact .inl ((congrArg (· ++ _) (htable start hstart)).trans hnames)

end SeriesLoad
