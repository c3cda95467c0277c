import SeriesLoad.Proofs.Table.Reader
import SeriesLoad.Proofs.Text.Utf8

/-!
# The preamble

A schema is a map from names to lists of words, and a map gives its names in no particular order.
The preamble is made by sorting them and looking up the words of each. So the order does not show in
it (`preambleBy_eq`): **the preamble depends on the map alone, and the map can be read off it**, a
line for each name (`preamble_determines_schema`).

The lines are those of the sorted entries (`Table.grid_lines`). As names are not empty, none of them
is blank, and the blank line at the end is the first one.
-/

namespace SeriesLoad

namespace Schema

/-- Each name occurs once and is not empty, and no word has a comma or a newline in it. -/
structure IsMap (s : Schema) : Prop where
  nodup : (s.map (·.1)).Nodup
  name_ne_empty : ∀ entry ∈ s, entry.1 ≠ ""
  isPlain : ∀ entry ∈ s, ∀ word ∈ entry.1 :: entry.2, Text.isPlain word.toList = true

/-! ## Looking up -/

theorem lookup_of_mem {s : Schema} (h : (s.map (·.1)).Nodup) {entry : String × List String}
    (hmem : entry ∈ s) : s.lookup entry.1 = some entry.2 := by
  induction s with
  | nil => cases hmem
  | cons head rest ih =>
    rw [List.map_cons, List.nodup_cons] at h
    rcases List.mem_cons.mp hmem with rfl | hrest
    · exact List.lookup_cons_self
    · have hne : (entry.1 == head.1) = false := by
        rw [beq_eq_false_iff_ne]
        exact fun heq => h.1 (heq ▸ List.mem_map_of_mem hrest)
      obtain ⟨name, keys⟩ := head
      rw [List.lookup_cons, hne]
      exact ih h.2 hrest

theorem lookup_eq_none {s : Schema} {name : String} (h : name ∉ s.map (·.1)) :
    s.lookup name = none := by
  rw [List.lookup_eq_none_iff]
  intro entry hentry
  rw [bne_iff_ne]
  rintro rfl
  exact h (List.mem_map_of_mem hentry)

/-- Entries in another order are the same map. -/
theorem lookup_of_perm {s s' : Schema} (h : (s.map (·.1)).Nodup) (hperm : s'.Perm s)
    (name : String) : s'.lookup name = s.lookup name := by
  have h' : (s'.map (·.1)).Nodup := (hperm.map _).nodup_iff.mpr h
  by_cases hname : name ∈ s.map (·.1)
  · obtain ⟨entry, hentry, rfl⟩ := List.mem_map.mp hname
    rw [lookup_of_mem h hentry, lookup_of_mem h' (hperm.mem_iff.mpr hentry)]
  · rw [lookup_eq_none hname, lookup_eq_none fun hmem => hname ((hperm.map _).mem_iff.mp hmem)]

/-! ## Sorting -/

theorem nodup_sorted {s : Schema} (h : (s.map (·.1)).Nodup) : (s.sorted.map (·.1)).Nodup :=
  ((List.mergeSort_perm s _).map _).nodup_iff.mpr h

theorem pairwise_mergeSort_by {α : Type} (key : α → String) (l : List α) :
    (l.mergeSort fun a b => decide (key a ≤ key b)).Pairwise fun a b => key a ≤ key b := by
  refine (List.pairwise_mergeSort (fun a b c hab hbc => ?_) (fun a b => ?_) l).imp
    fun h => of_decide_eq_true h
  · exact decide_eq_true (String.le_trans (of_decide_eq_true hab) (of_decide_eq_true hbc))
  · rw [Bool.or_eq_true, decide_eq_true_eq, decide_eq_true_eq]
    exact String.le_total (key a) (key b)

theorem pairwise_sorted (s : Schema) : s.sorted.Pairwise fun a b => a.1 ≤ b.1 :=
  pairwise_mergeSort_by (·.1) s

/-- If all names are different, each is less than the next one in the order of the names. -/
theorem sorted_strict {s : Schema} (h : (s.map (·.1)).Nodup) :
    s.sorted.Pairwise fun a b => a.1 < b.1 := by
  have hne : s.sorted.Pairwise fun a b => a.1 ≠ b.1 := List.pairwise_map.mp (nodup_sorted h)
  refine (pairwise_sorted s).imp₂ (fun a b hle hne => ?_) hne
  exact String.not_le.mp fun hge => hne (String.le_antisymm hle hge)

theorem sorted_of_perm {s s' : Schema} (h : (s.map (·.1)).Nodup) (hperm : s'.Perm s) :
    s'.sorted = s.sorted := by
  have hsorted : s'.sorted.Perm s.sorted :=
    (List.mergeSort_perm s' _).trans (hperm.trans (List.mergeSort_perm s _).symm)
  refine List.Perm.eq_of_pairwise (fun a b ha hb hab hba => ?_) (pairwise_sorted s')
    (pairwise_sorted s) hsorted
  have hname : a.1 = b.1 := String.le_antisymm hab hba
  have hkeys := lookup_of_mem (nodup_sorted h) (hsorted.mem_iff.mp ha)
  rw [hname, lookup_of_mem (nodup_sorted h) hb, Option.some_inj] at hkeys
  exact Prod.ext hname hkeys.symm

/-- The text ahead of the records, made of the names in some order: they are sorted, and the words
of each are looked up. -/
def preambleBy (s : Schema) (names : List String) : String :=
  String.ofList <| line "tags" HostTags.keys
    ++ (names.mergeSort fun a b => decide (a ≤ b)).flatMap
      (fun name => line name ((s.lookup name).getD [])) ++ ['\n']

/-- Names are sorted as the entries that have them. -/
theorem map_fst_sorted (s : Schema) :
    s.sorted.map (·.1) = (s.map (·.1)).mergeSort fun a b => decide (a ≤ b) :=
  List.map_mergeSort fun _ _ _ _ => rfl

theorem mergeSort_names_of_perm {names names' : List String} (h : names.Perm names') :
    (names.mergeSort fun a b => decide (a ≤ b)) = names'.mergeSort fun a b => decide (a ≤ b) := by
  exact List.Perm.eq_of_pairwise (fun _ _ _ _ => String.le_antisymm)
    (pairwise_mergeSort_by id names) (pairwise_mergeSort_by id names')
    ((List.mergeSort_perm _ _).trans (h.trans (List.mergeSort_perm _ _).symm))

/-- The order in which a map gives its names does not show in the preamble. -/
theorem preambleBy_eq {s : Schema} (h : (s.map (·.1)).Nodup) {names : List String}
    (hnames : names.Perm (s.map (·.1))) : s.preambleBy names = s.preamble := by
  have hlines : s.sorted.map (fun entry => line entry.1 ((s.lookup entry.1).getD [])) =
      s.sorted.map fun entry => line entry.1 entry.2 :=
    List.map_congr_left fun entry hentry => by
      rw [lookup_of_mem h (List.mem_mergeSort.mp hentry), Option.getD_some]
  rw [preambleBy, preamble, preambleChars, mergeSort_names_of_perm hnames, ← map_fst_sorted,
    List.flatMap_map, List.flatMap_def, List.flatMap_def, hlines]

end Schema

/-! ## Lines -/

namespace Table

/-- A line of words, taken apart. -/
def row (first : String) (rest : List String) : List (List Char) :=
  first.toList :: rest.map String.toList

/-- The lines of entries are taken apart one after the other. -/
theorem grid_lines {columns : Schema}
    (h : ∀ entry ∈ columns, ∀ word ∈ entry.1 :: entry.2, Text.isPlain word.toList = true)
    (cs : List Char) :
    grid (columns.flatMap (fun entry => Schema.line entry.1 entry.2) ++ cs) =
      columns.map (fun entry => row entry.1 entry.2) ++ grid cs := by
  induction columns with
  | nil => rfl
  | cons entry rest ih =>
    obtain ⟨hentry, hrest⟩ := List.forall_mem_cons.mp h
    obtain ⟨hname, hkeys⟩ := List.forall_mem_cons.mp hentry
    have hwords : ∀ w ∈ entry.2.map String.toList, Text.isPlain w = true := by
      intro w hw
      obtain ⟨key, hkey, rfl⟩ := List.mem_map.mp hw
      exact hkeys key hkey
    rw [List.flatMap_cons, List.append_assoc, line_eq, grid_line hname hwords, ih hrest]
    rfl

theorem row_ne_blank {first : String} (h : first ≠ "") (rest : List String) :
    row first rest ≠ [[]] := by
  intro hrow
  exact h (String.toList_eq_nil_iff.mp (List.head_eq_of_cons_eq hrow))

end Table

namespace Schema

/-- The text says which columns a schema has: in the first line stand the tag keys, then come the
columns, a line for each in the order of the bytes of their names, and then the first blank line.
So they are read off it, and are those of the schema. -/
structure IsToldBy (s : Schema) (text : String) (columns : Schema) : Prop where
  grid_eq : Table.grid text.toList = Table.row "tags" HostTags.keys ::
    columns.map (fun entry => Table.row entry.1 entry.2) ++ [[[]], [[]]]
  blank_not_mem : [[]] ∉ Table.row "tags" HostTags.keys ::
    columns.map fun entry => Table.row entry.1 entry.2
  perm : columns.Perm s
  ascending : columns.Pairwise fun a b => a.1.toUTF8.toList < b.1.toUTF8.toList
  read?_eq : Table.read? text.toList = some ⟨HostTags.keys, columns, []⟩
  lookup_eq : ∀ name, columns.lookup name = s.lookup name

theorem IsMap.isToldBy {s : Schema} (h : s.IsMap) : s.IsToldBy s.preamble s.sorted := by
  have hmem : ∀ entry ∈ s.sorted, entry ∈ s := fun entry => List.mem_mergeSort.mp
  have hchars : s.preamble.toList = s.preambleChars := String.toList_ofList
  refine ⟨?_, ?_, List.mergeSort_perm s _, ?_, ?_, ?_⟩
  · have hkeys : ∀ w ∈ HostTags.keys.map String.toList, Text.isPlain w = true := by decide
    rw [hchars, preambleChars, List.append_assoc, Table.line_eq,
      Table.grid_line (by decide) hkeys, Table.grid_lines fun entry hentry =>
        h.isPlain entry (hmem entry hentry)]
    rfl
  · rw [List.mem_cons, List.mem_map]
    rintro (hblank | ⟨entry, hentry, hblank⟩)
    · exact Table.row_ne_blank (by decide) _ hblank.symm
    · exact Table.row_ne_blank (h.name_ne_empty entry (hmem entry hentry)) _ hblank
  · exact (sorted_strict h.nodup).imp Text.Utf8.toUTF8_lt
  · have hnone : ∀ p ∈ ([] : List Point), Table.Fits HostTags.keys s.sorted p :=
      List.forall_mem_nil _
    have hread := Table.read?_chars (s := s) (fun entry hentry =>
      ⟨h.name_ne_empty entry hentry, List.forall_mem_cons.mp (h.isPlain entry hentry)⟩) hnone
    rwa [List.flatMap_nil, List.append_nil, ← hchars] at hread
  · exact lookup_of_perm h.nodup (List.mergeSort_perm s _)

/-- The preamble of a map tells its columns, whatever the order in which the map gives its names. It
is the same for all lists of the same entries, and for no other map. -/
theorem preamble_determines_schema {s : Schema} (h : s.IsMap) :
    HostTags.keys.length = 10 ∧ s.IsToldBy s.preamble s.sorted
      ∧ (∀ names : List String, names.Perm (s.map (·.1)) → s.preambleBy names = s.preamble)
      ∧ ∀ s' : Schema, s'.IsMap → (s'.preamble = s.preamble ↔ s'.Perm s) := by
  refine ⟨rfl, h.isToldBy, fun names => preambleBy_eq h.nodup, fun s' h' => ⟨fun heq => ?_, ?_⟩⟩
  · have hread := h'.isToldBy.read?_eq
    rw [heq, h.isToldBy.read?_eq, Option.some_inj, Table.mk.injEq] at hread
    exact (h'.isToldBy.perm.symm.trans (List.Perm.of_eq hread.2.1.symm)).trans h.isToldBy.perm
  · intro hperm
    rw [preamble, preamble, preambleChars, preambleChars, sorted_of_perm h.nodup hperm]

/-- A name may begin another one, and a measurement may have no fields, or one without a name. -/
theorem preamble_determines_schema_three :
    IsMap [("mem", ["used"]), ("cpu", []), ("cp", ["é", ""])]
      ∧ preambleBy [("mem", ["used"]), ("cpu", []), ("cp", ["é", ""])] ["cp", "mem", "cpu"] =
        preamble [("cpu", []), ("cp", ["é", ""]), ("mem", ["used"])] := by
  have h : IsMap [("mem", ["used"]), ("cpu", []), ("cp", ["é", ""])] :=
    ⟨by decide, by decide, by decide⟩
  have h' : IsMap [("cpu", []), ("cp", ["é", ""]), ("mem", ["used"])] :=
    ⟨by decide, by decide, by decide⟩
  obtain ⟨-, -, hnames, hpreamble⟩ := preamble_determines_schema h
  exact ⟨h, (hnames _ (by decide)).trans ((hpreamble _ h').mpr (by decide)).symm⟩

example : preamble [("mem", ["used"]), ("cpu", []), ("cp", ["é", ""])] =
    "tags,hostname,region,datacenter,rack,os,arch,team,service,service_version,"
      ++ "service_environment\ncp,é,\ncpu\nmem,used\n\n" := by
  cbv

end Schema

end SeriesLoad
