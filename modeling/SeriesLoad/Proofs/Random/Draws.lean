import SeriesLoad.Random.Sample

/-!
# What is drawn

A draw is a function of the words, so nothing can be said about which number comes out; but for all
words a number is below its bound (`below_lt`), a choice is one of the choices (`mem_choose`), and
**a sample has as many numbers as were asked for** (`length_sample`), by whichever method.

The loops of drawing by rejection are cut. `Draw.Ends` is the loop without a bound, as a relation:
**where it ends before the cut, what is drawn and the words that are left are those of the loop**
(`retry_of_ends`), and the cut is only met after as many refusals (`retry_cases`).
-/

namespace SeriesLoad

theorem getD_mem_cons {α : Type} (first : α) (rest : List α) (i : Nat) :
    (first :: rest).getD i first ∈ first :: rest := by
  rw [List.getD_eq_getElem?_getD]
  cases h : (first :: rest)[i]? with
  | none => exact List.mem_cons_self
  | some a => exact List.mem_of_getElem? h

namespace Draw

variable {γ : Type}

theorem run_bind {α β : Type} (x : Draw γ α) (f : α → Draw γ β) (words : γ) :
    (x >>= f).run words = (f (x.run words).1).run (x.run words).2 := rfl

theorem run_pure {α : Type} (a : α) (words : γ) : (pure a : Draw γ α).run words = (a, words) := rfl

/-! ## Attempts -/

variable {α : Type} {attempt : Draw γ (Option α)} {last : Draw γ α} {words : γ}

/-- An attempt that is repeated for as long as it is refused is refused so many times, and then has
the result and leaves the words that are given. -/
inductive Ends (attempt : Draw γ (Option α)) : Nat → γ → α × γ → Prop
  | now {words words' : γ} {a : α} (h : attempt.run words = (some a, words')) :
    Ends attempt 0 words (a, words')
  | later {n : Nat} {words words' : γ} {end' : α × γ} (h : attempt.run words = (none, words'))
      (hrest : Ends attempt n words' end') : Ends attempt (n + 1) words end'

/-- An attempt is refused so many times in a row, and that leaves the words that are given. -/
inductive Refused (attempt : Draw γ (Option α)) : Nat → γ → γ → Prop
  | nil (words : γ) : Refused attempt 0 words words
  | cons {n : Nat} {words words' words'' : γ} (h : attempt.run words = (none, words'))
      (hrest : Refused attempt n words' words'') : Refused attempt (n + 1) words words''

theorem run_retry_succ (more : Nat) :
    (retry attempt last (more + 1)).run words =
      match attempt.run words with
      | (some a, words') => (a, words')
      | (none, words') => (retry attempt last more).run words' := by
  rw [retry, run_bind]
  cases attempt.run words with
  | mk a words' => cases a <;> rfl

/-- Where the loop ends before the cut, it is not cut, and no last draw is made. -/
theorem retry_of_ends {n : Nat} {end' : α × γ} (h : Ends attempt n words end') {more : Nat}
    (hn : n < more) : (retry attempt last more).run words = end' := by
  induction h generalizing more with
  | now h =>
    obtain ⟨more, rfl⟩ := Nat.exists_eq_succ_of_ne_zero (Nat.ne_zero_of_lt hn)
    rw [run_retry_succ, h]
  | later h _ ih =>
    obtain ⟨more, rfl⟩ := Nat.exists_eq_succ_of_ne_zero (Nat.ne_zero_of_lt hn)
    rw [run_retry_succ, h]
    exact ih (Nat.lt_of_succ_lt_succ hn)

/-- What is drawn is what the loop without a bound ends with, or all attempts were refused. -/
theorem retry_cases (more : Nat) (words : γ) :
    (∃ n < more, Ends attempt n words ((retry attempt last more).run words))
      ∨ ∃ words', Refused attempt more words words'
        ∧ (retry attempt last more).run words = last.run words' := by
  induction more generalizing words with
  | zero => exact .inr ⟨words, .nil words, rfl⟩
  | succ more ih =>
    rw [run_retry_succ]
    cases h : attempt.run words with
    | mk a words' =>
      cases a with
      | some a => exact .inl ⟨0, Nat.succ_pos more, .now h⟩
      | none =>
        rcases ih words' with ⟨n, hn, hends⟩ | ⟨words'', hrefused, hlast⟩
        · exact .inl ⟨n + 1, Nat.succ_lt_succ hn, .later h hends⟩
        · exact .inr ⟨words'', .cons h hrefused, hlast⟩

/-- What holds of the results of an attempt and of the last draw holds of what is drawn. -/
theorem retry_induction {P : α → Prop}
    (hattempt : ∀ (words : γ) (a : α), (attempt.run words).1 = some a → P a)
    (hlast : ∀ words : γ, P (last.run words).1) (more : Nat) (words : γ) :
    P ((retry attempt last more).run words).1 := by
  have hends : ∀ {n : Nat} {words : γ} {end' : α × γ}, Ends attempt n words end' → P end'.1 := by
    intro n words end' h
    induction h with
    | now h => exact hattempt _ _ (congrArg Prod.fst h)
    | later _ _ ih => exact ih
  rcases retry_cases more words with ⟨n, -, h⟩ | ⟨words', -, h⟩
  · exact hends h
  · rw [h]
    exact hlast words'

variable [Words γ]

/-! ## Numbers -/

theorem word_lt (w : Width) (words : γ) : ((word w).run words).1 < 2 ^ w.bits := by
  cases w with
  | short => exact UInt32.toNat_lt _
  | long => exact UInt64.toNat_lt _

theorem pick_lt (w : Width) {n : Nat} (h : 0 < n) (limit : Nat) (words : γ) :
    ((pick w n limit).run words).1 < n := by
  have hlt : ∀ words : γ, ((word w).run words).1 * n / 2 ^ w.bits < n := fun words =>
    Nat.div_lt_of_lt_mul (Nat.mul_lt_mul_of_pos_right (word_lt w words) h)
  refine retry_induction (P := (· < n)) (fun words i hi => ?_) hlt tries words
  rw [product?, run_bind, run_pure, Option.ite_none_right_eq_some] at hi
  rw [← Option.some.inj hi.2]
  exact hlt words

theorem below_lt (w : Width) {n : Nat} (h : 0 < n) (words : γ) : ((below w n).run words).1 < n :=
  pick_lt w h _ words

theorem mem_choose {α : Type} (first : α) (rest : List α) (words : γ) :
    ((choose first rest).run words).1 ∈ first :: rest := by
  rw [choose, run_bind, run_pure]
  exact getD_mem_cons first rest _

/-! ## Samples -/

theorem length_byRejection (w : Width) (length more : Nat) (taken : List Nat) (words : γ) :
    ((byRejection w length more taken).run words).1.length = taken.length + more := by
  induction more generalizing taken words with
  | zero =>
    rw [byRejection, run_pure]
    exact List.length_reverse
  | succ more ih =>
    rw [byRejection, run_bind, ih, List.length_cons]
    omega

theorem size_shuffleFront (length more i : Nat) (xs : Array Nat) (words : γ) :
    ((shuffleFront length more i xs).run words).1.size = xs.size := by
  induction more generalizing i xs words with
  | zero => rfl
  | succ more ih => rw [shuffleFront, run_bind, ih, Array.size_swapIfInBounds]

theorem length_inPlace {length amount : Nat} (h : amount ≤ length) (words : γ) :
    ((inPlace length amount).run words).1.length = amount := by
  rw [inPlace, run_bind, run_pure, List.length_take, Array.length_toList, size_shuffleFront,
    Array.size_range, Nat.min_eq_left h]

theorem length_insertInOrder (xs : List Nat) (t last : Nat) :
    (insertInOrder xs t last).length = xs.length + 1 := by
  unfold insertInOrder
  split
  · rename_i place hplace
    obtain ⟨hlt, -⟩ := List.idxOf?_eq_some_iff.mp hplace
    exact List.length_insertIdx_of_le_length (Nat.le_of_lt hlt) _
  · exact List.length_append

theorem length_insertAtEnd (xs : List Nat) (t last : Nat) :
    (insertAtEnd xs t last).length = xs.length + 1 := by
  unfold insertAtEnd
  split <;> exact List.length_append

theorem length_gather {insert : List Nat → Nat → Nat → List Nat}
    (hinsert : ∀ xs t last, (insert xs t last).length = xs.length + 1) (more last : Nat)
    (xs : List Nat) (words : γ) :
    ((gather insert more last xs).run words).1.length = xs.length + more := by
  induction more generalizing last xs words with
  | zero => rfl
  | succ more ih =>
    rw [gather, run_bind, ih, hinsert]
    omega

theorem size_shuffle (i : Nat) (xs : Array Nat) (words : γ) :
    ((shuffle i xs).run words).1.size = xs.size := by
  induction i generalizing xs words with
  | zero => rfl
  | succ i ih => rw [shuffle, run_bind, ih, Array.size_swapIfInBounds]

theorem length_byInsertion (length amount : Nat) (words : γ) :
    ((byInsertion length amount).run words).1.length = amount := by
  unfold byInsertion
  split
  · rw [length_gather length_insertInOrder, List.length_nil, Nat.zero_add]
  · rw [run_bind, run_bind, run_pure, Array.length_toList, size_shuffle, List.size_toArray,
      length_gather length_insertAtEnd, List.length_nil, Nat.zero_add]

theorem length_sample {length amount : Nat} (h : amount ≤ length) (words : γ) :
    ((sample length amount).run words).1.length = amount := by
  unfold sample
  cases method length amount with
  | rejection w => rw [length_byRejection, List.length_nil, Nat.zero_add]
  | inPlace => exact length_inPlace h words
  | insertion => exact length_byInsertion length amount words

end Draw

end SeriesLoad
