import Mathlib.Data.List.Induction
import Mathlib.Tactic.SplitIfs
import SeriesLoad.Run

/-!
# Dealing in turn

`Share.deal` picks out of a list what a group gets when the list is dealt to all groups in turn.
Groups share nothing and lose nothing: item `k` is found in group `k % groups`, at the place
`k / groups` (`getElem?_deal_turn`).

The number of items that a group has after so many turns is its number of rounds, which goes up by
one when the group has its turn (`rounds_succ`); all else is an induction on the list from its end.
-/

namespace SeriesLoad

namespace Share

variable {α β : Type}

/-- The items of a group when items are dealt to all groups in turn. -/
def deal (share : Share) (xs : List α) : List α :=
  (xs.zipIdx.filter fun (_, k) => k % share.groups == share.group).map (·.1)

@[simp] theorem deal_nil (share : Share) : share.deal ([] : List α) = [] := rfl

theorem deal_concat (share : Share) (xs : List α) (x : α) :
    share.deal (xs ++ [x]) =
      share.deal xs ++ if xs.length % share.groups = share.group then [x] else [] := by
  unfold deal
  rw [List.zipIdx_append, List.filter_append, List.map_append]
  congr 1
  by_cases h : xs.length % share.groups = share.group <;> simp [h]

theorem deal_map (share : Share) (f : α → β) (xs : List α) :
    share.deal (xs.map f) = (share.deal xs).map f := by
  induction xs using List.reverseRecOn with
  | nil => rfl
  | append_singleton xs x ih =>
    rw [List.map_append, List.map_singleton, deal_concat, deal_concat, List.map_append, ih,
      List.length_map]
    split_ifs <;> rfl

/-- What a group gets of a front part of the items is a front part of what it gets of all. -/
theorem deal_prefix (share : Share) {xs ys : List α} (h : xs <+: ys) :
    share.deal xs <+: share.deal ys := by
  obtain ⟨rest, rfl⟩ := h
  induction rest using List.reverseRecOn with
  | nil => simp
  | append_singleton rest y ih =>
    rw [← List.append_assoc, deal_concat]
    exact ih.trans (List.prefix_append _ _)

theorem mem_of_mem_deal {share : Share} {xs : List α} {x : α} (h : x ∈ share.deal xs) :
    x ∈ xs := by
  obtain ⟨⟨y, k⟩, hmem, rfl⟩ := List.mem_map.mp h
  exact List.fst_mem_of_mem_zipIdx (List.mem_filter.mp hmem).1

/-- Dealt to one group, all items are its own. -/
theorem deal_whole (xs : List α) : (⟨0, 1⟩ : Share).deal xs = xs := by
  induction xs using List.reverseRecOn with
  | nil => rfl
  | append_singleton xs x ih => simp [deal_concat, ih, Nat.mod_one]

variable {share : Share}

/-- The number of whole rounds that a group has had its turn in, after so many turns. -/
def rounds (share : Share) (turns : Nat) : Nat :=
  turns / share.groups + if share.group < turns % share.groups then 1 else 0

theorem rounds_succ (h : share.group < share.groups) (turns : Nat) :
    share.rounds (turns + 1) =
      share.rounds turns + if turns % share.groups = share.group then 1 else 0 := by
  have hpos : 0 < share.groups := Nat.zero_lt_of_lt h
  have hr := Nat.mod_lt turns hpos
  unfold rounds
  by_cases hlast : turns % share.groups + 1 = share.groups
  · -- the turn closes a round
    have hmod : (turns + 1) % share.groups = 0 := by
      rw [← Nat.mod_add_mod, hlast, Nat.mod_self]
    rw [Nat.succ_div_of_mod_eq_zero hmod, hmod]
    split_ifs <;> omega
  · have hmod : (turns + 1) % share.groups = turns % share.groups + 1 := by
      rw [← Nat.mod_add_mod, Nat.mod_eq_of_lt (by omega)]
    rw [Nat.succ_div_of_mod_ne_zero (by omega), hmod]
    split_ifs <;> omega

theorem length_deal (h : share.group < share.groups) (xs : List α) :
    (share.deal xs).length = share.rounds xs.length := by
  induction xs using List.reverseRecOn with
  | nil => simp [rounds]
  | append_singleton xs x ih =>
    rw [deal_concat, List.length_append, List.length_append, List.length_singleton, rounds_succ h,
      ih]
    split_ifs <;> rfl

/-- A group holds, one after the other, the items at every `groups`-th place from its own on. -/
theorem getElem?_deal (h : share.group < share.groups) (xs : List α) (i : Nat) :
    (share.deal xs)[i]? = xs[i * share.groups + share.group]? := by
  have hpos : 0 < share.groups := Nat.zero_lt_of_lt h
  induction xs using List.reverseRecOn with
  | nil => rfl
  | append_singleton xs x ih =>
    have hlen := length_deal h xs
    rw [deal_concat]
    by_cases hturn : xs.length % share.groups = share.group
    · -- the new item is the next one of its group
      have hplace : (share.deal xs).length * share.groups + share.group = xs.length := by
        rw [hlen, rounds, hturn, if_neg (Nat.lt_irrefl _), Nat.add_zero, ← hturn,
          Nat.div_add_mod']
      rw [if_pos hturn]
      rcases Nat.lt_trichotomy i (share.deal xs).length with hlt | rfl | hgt
      · rw [List.getElem?_append_left hlt, ih, List.getElem?_append_left]
        rw [← hplace]
        exact Nat.add_lt_add_right (Nat.mul_lt_mul_of_pos_right hlt hpos) _
      · rw [hplace, List.getElem?_concat_length, List.getElem?_concat_length]
      · rw [List.getElem?_eq_none, List.getElem?_eq_none]
        · rw [List.length_append, List.length_singleton, ← hplace]
          have := Nat.mul_lt_mul_of_pos_right hgt hpos
          omega
        · rw [List.length_append, List.length_singleton]
          omega
    · rw [if_neg hturn, List.append_nil, ih]
      rcases Nat.lt_trichotomy (i * share.groups + share.group) xs.length with hlt | heq | hgt
      · rw [List.getElem?_append_left hlt]
      · rw [← heq, Nat.mul_add_mod_of_lt h] at hturn
        exact absurd rfl hturn
      · rw [List.getElem?_eq_none (Nat.le_of_lt hgt), List.getElem?_eq_none]
        rw [List.length_append, List.length_singleton]
        omega

/-- Every item is found in the group of its turn, at the place of its round. -/
theorem getElem?_deal_turn {groups : Nat} (h : 0 < groups) (xs : List α) (k : Nat) :
    ((⟨k % groups, groups⟩ : Share).deal xs)[k / groups]? = xs[k]? := by
  rw [getElem?_deal (Nat.mod_lt k h), Nat.div_add_mod']

end Share

end SeriesLoad
