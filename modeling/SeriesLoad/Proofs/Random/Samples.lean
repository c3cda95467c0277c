import Mathlib.Data.List.Perm.Basic
import Mathlib.Data.List.Nodup
import SeriesLoad.Proofs.Random.Draws

/-!
# Samples have no repetitions

`Draw.sample` says of itself that its numbers are different and below the bound. **For all words that
is so, whichever of the three methods is used** (`distinct_sample`). Each method has an invariant of
its own:

* by rejection a number is only added if it is free, and the number that is taken after too many
  tries is free because fewer numbers are taken than there are to choose from (`leastFree_not_mem`);
* in place, the list is a permutation of all numbers throughout;
* by insertion, the numbers are below the next last one, which can be added for that reason.
-/

namespace SeriesLoad.Draw

variable {γ : Type} [Words γ]

/-- Different numbers below a bound. -/
structure Distinct (length : Nat) (xs : List Nat) : Prop where
  nodup : xs.Nodup
  lt : ∀ i ∈ xs, i < length

theorem distinct_nil (length : Nat) : Distinct length [] :=
  ⟨List.nodup_nil, List.forall_mem_nil _⟩

theorem Distinct.perm {length : Nat} {xs ys : List Nat} (h : Distinct length xs)
    (hperm : ys.Perm xs) : Distinct length ys :=
  ⟨hperm.nodup_iff.mpr h.nodup, fun i hi => h.lt i (hperm.subset hi)⟩

theorem Distinct.cons {length i : Nat} {xs : List Nat} (h : Distinct length xs) (hfree : i ∉ xs)
    (hlt : i < length) : Distinct length (i :: xs) :=
  ⟨List.nodup_cons.mpr ⟨hfree, h.nodup⟩, List.forall_mem_cons.mpr ⟨hlt, h.lt⟩⟩

/-! ## By rejection -/

/-- Some number up to the length of a list is not in it. -/
theorem exists_free (taken : List Nat) : ∃ i ∈ List.range (taken.length + 1), i ∉ taken := by
  by_contra hnone
  have hused : List.range (taken.length + 1) ⊆ taken := by
    intro i hi
    by_contra hfree
    exact hnone ⟨i, hi, hfree⟩
  have hle := (List.subperm_of_subset List.nodup_range hused).length_le
  rw [List.length_range] at hle
  omega

theorem leastFree_free (taken : List Nat) :
    leastFree taken ∉ taken ∧ leastFree taken ≤ taken.length := by
  unfold leastFree
  cases hfind : (List.range (taken.length + 1)).find? fun i => !taken.contains i with
  | none =>
    obtain ⟨i, hi, hfree⟩ := exists_free taken
    have hused := List.find?_eq_none.mp hfind i hi
    simp [hfree] at hused
  | some i =>
    have hfree := List.find?_some hfind
    have hrange := List.mem_range.mp (List.mem_of_find?_eq_some hfind)
    simp only [Option.getD_some]
    exact ⟨by simpa using hfree, by omega⟩

theorem fresh_free (w : Width) {length : Nat} {taken : List Nat} (h : taken.length < length)
    (words : γ) :
    ((fresh w length taken).run words).1 ∉ taken
      ∧ ((fresh w length taken).run words).1 < length := by
  refine retry_induction (P := fun i => i ∉ taken ∧ i < length) (fun words i hi => ?_)
    (fun words => ?_) tries words
  · rw [free?, run_bind, run_pure, Option.ite_none_left_eq_some, List.contains_iff_mem] at hi
    obtain ⟨hfree, hi⟩ := hi
    rw [← Option.some.inj hi]
    exact ⟨hfree, pick_lt w (Nat.zero_lt_of_lt h) _ words⟩
  · obtain ⟨hfree, hle⟩ := leastFree_free taken
    exact ⟨hfree, Nat.lt_of_le_of_lt hle h⟩

theorem distinct_byRejection (w : Width) {length more : Nat} {taken : List Nat}
    (hroom : taken.length + more ≤ length) (h : Distinct length taken) (words : γ) :
    Distinct length ((byRejection w length more taken).run words).1 := by
  induction more generalizing taken words with
  | zero =>
    rw [byRejection, run_pure]
    exact h.perm (List.reverse_perm taken)
  | succ more ih =>
    obtain ⟨hfree, hlt⟩ := fresh_free w (by omega : taken.length < length) words
    rw [byRejection, run_bind]
    refine ih ?_ (h.cons hfree hlt) _
    rw [List.length_cons]
    omega

/-! ## In place -/

omit [Words γ] in
theorem perm_swapIfInBounds (xs : Array Nat) (i j : Nat) : (xs.swapIfInBounds i j).Perm xs := by
  unfold Array.swapIfInBounds
  split_ifs
  · exact Array.swap_perm _ _
  · exact .refl xs
  · exact .refl xs

theorem perm_shuffleFront (length more i : Nat) (xs : Array Nat) (words : γ) :
    ((shuffleFront length more i xs).run words).1.Perm xs := by
  induction more generalizing i xs words with
  | zero => exact .refl xs
  | succ more ih =>
    rw [shuffleFront, run_bind]
    exact (ih _ _ _).trans (perm_swapIfInBounds xs _ _)

theorem distinct_inPlace (length amount : Nat) (words : γ) :
    Distinct length ((inPlace length amount).run words).1 := by
  have hperm := perm_shuffleFront length amount 0 (Array.range length) words
  have hall : Distinct length (Array.range length).toList := by
    rw [Array.toList_range]
    exact ⟨List.nodup_range, fun i hi => List.mem_range.mp hi⟩
  have hshuffled := hall.perm hperm.toList
  rw [inPlace, run_bind, run_pure]
  exact ⟨hshuffled.nodup.sublist (List.take_sublist _ _),
    fun i hi => hshuffled.lt i (List.mem_of_mem_take hi)⟩

/-! ## By insertion -/

/-- The list has the drawn number as well, or the last one if the drawn one is there already. -/
def Inserts (insert : List Nat → Nat → Nat → List Nat) : Prop :=
  ∀ xs t last, (t ∈ xs ∧ (insert xs t last).Perm (last :: xs))
    ∨ t ∉ xs ∧ (insert xs t last).Perm (t :: xs)

theorem inserts_insertInOrder : Inserts insertInOrder := by
  intro xs t last
  unfold insertInOrder
  cases hplace : xs.idxOf? t with
  | none => exact .inr ⟨List.idxOf?_eq_none_iff.mp hplace, List.perm_append_singleton t xs⟩
  | some place =>
    obtain ⟨hlt, heq, -⟩ := List.idxOf?_eq_some_iff.mp hplace
    have hmem : t ∈ xs := heq ▸ List.getElem_mem hlt
    exact .inl ⟨hmem, List.perm_insertIdx last xs (Nat.le_of_lt hlt)⟩

theorem inserts_insertAtEnd : Inserts insertAtEnd := by
  intro xs t last
  unfold insertAtEnd
  by_cases hmem : t ∈ xs
  · rw [if_pos (by simpa using hmem)]
    exact .inl ⟨hmem, List.perm_append_singleton last xs⟩
  · rw [if_neg (by simpa using hmem)]
    exact .inr ⟨hmem, List.perm_append_singleton t xs⟩

theorem distinct_gather {insert : List Nat → Nat → Nat → List Nat} (hinsert : Inserts insert)
    (more : Nat) {last : Nat} {xs : List Nat} (h : Distinct last xs) (words : γ) :
    Distinct (last + more) ((gather insert more last xs).run words).1 := by
  induction more generalizing last xs words with
  | zero => exact h
  | succ more ih =>
    have hdrawn := below_lt .short (Nat.succ_pos last) words
    have hnext : Distinct (last + 1) xs := ⟨h.nodup, fun i hi => Nat.lt_succ_of_lt (h.lt i hi)⟩
    rw [gather, run_bind, Nat.add_comm more, ← Nat.add_assoc]
    refine ih ?_ _
    rcases hinsert xs ((below .short (last + 1)).run words).1 last with
      ⟨-, hperm⟩ | ⟨hfree, hperm⟩
    · have hfree : last ∉ xs := fun hmem => Nat.lt_irrefl last (h.lt last hmem)
      exact (hnext.cons hfree (Nat.lt_succ_self last)).perm hperm
    · exact (hnext.cons hfree hdrawn).perm hperm

theorem perm_shuffle (i : Nat) (xs : Array Nat) (words : γ) :
    ((shuffle i xs).run words).1.Perm xs := by
  induction i generalizing xs words with
  | zero => exact .refl xs
  | succ i ih =>
    rw [shuffle, run_bind]
    exact (ih _ _).trans (perm_swapIfInBounds xs _ _)

theorem distinct_byInsertion {length amount : Nat} (h : amount ≤ length) (words : γ) :
    Distinct length ((byInsertion length amount).run words).1 := by
  have hlength : length - amount + amount = length := Nat.sub_add_cancel h
  unfold byInsertion
  by_cases hfew : amount < 50
  · rw [if_pos hfew]
    have := distinct_gather inserts_insertInOrder amount (distinct_nil (length - amount)) words
    rwa [hlength] at this
  · rw [if_neg hfew, run_bind, run_bind, run_pure]
    have := distinct_gather inserts_insertAtEnd amount (distinct_nil (length - amount)) words
    rw [hlength] at this
    exact this.perm (perm_shuffle _ _ _).toList

/-! ## All methods -/

/-- The numbers of a sample are different and below the bound, whatever the words are. -/
theorem distinct_sample {length amount : Nat} (h : amount ≤ length) (words : γ) :
    Distinct length ((sample length amount).run words).1 := by
  unfold sample
  cases method length amount with
  | rejection w =>
    have hroom : ([] : List Nat).length + amount ≤ length := by
      rw [List.length_nil]
      omega
    exact distinct_byRejection w hroom (distinct_nil length) words
  | inPlace => exact distinct_inPlace length amount words
  | insertion => exact distinct_byInsertion h words

end SeriesLoad.Draw
