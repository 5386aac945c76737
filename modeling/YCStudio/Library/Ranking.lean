import Mathlib.Algebra.Order.BigOperators.Group.List
import Mathlib.Algebra.BigOperators.Group.Finset.Basic
import Mathlib.Data.List.Perm.Basic
import Mathlib.Data.List.Nodup
import Mathlib.Order.Interval.Set.Basic
import Mathlib.Data.Set.Monotone

namespace Ranking

section Ranks

variable {α : Type} (p : α → Prop) [DecidablePred p]

def ranksFrom (s : Nat) (xs : List α) : List Nat :=
  ((xs.zipIdx s).filter fun entry => p entry.1).map Prod.snd

variable {p} {s n : Nat} {xs ys : List α} {x : α}

@[simp] theorem ranksFrom_nil : ranksFrom p s [] = [] := rfl

theorem ranksFrom_cons_of_pos (h : p x) :
    ranksFrom p s (x :: xs) = s :: ranksFrom p (s + 1) xs := by
  simp [ranksFrom, h]

theorem ranksFrom_cons_of_neg (h : ¬ p x) :
    ranksFrom p s (x :: xs) = ranksFrom p (s + 1) xs := by
  simp [ranksFrom, h]

theorem mem_ranksFrom : n ∈ ranksFrom p s xs ↔ s ≤ n ∧ ∃ x, xs[n - s]? = some x ∧ p x := by
  simp only [ranksFrom, List.mem_map, List.mem_filter, decide_eq_true_eq, Prod.exists]
  constructor
  · rintro ⟨x, n, ⟨hmem, hp⟩, rfl⟩
    obtain ⟨hle, hget⟩ := List.mk_mem_zipIdx_iff_le_and_getElem?_sub.mp hmem
    exact ⟨hle, x, hget, hp⟩
  · rintro ⟨hle, x, hget, hp⟩
    exact ⟨x, n, ⟨List.mk_mem_zipIdx_iff_le_and_getElem?_sub.mpr ⟨hle, hget⟩, hp⟩, rfl⟩

theorem ranksFrom_sorted : (ranksFrom p s xs).Pairwise (· < ·) := by
  induction xs generalizing s with
  | nil => exact .nil
  | cons x xs ih =>
    by_cases h : p x
    · rw [ranksFrom_cons_of_pos h]
      refine List.pairwise_cons.mpr ⟨fun n hn => ?_, ih⟩
      exact (mem_ranksFrom.mp hn).1
    · rw [ranksFrom_cons_of_neg h]
      exact ih

theorem ranksFrom_map {β : Type} (f : β → α) {xs : List β} :
    ranksFrom p s (xs.map f) = ranksFrom (fun x => p (f x)) s xs := by
  induction xs generalizing s with
  | nil => rfl
  | cons x xs ih =>
    by_cases h : p (f x)
    · exact (ranksFrom_cons_of_pos h).trans
        ((congrArg (List.cons s) ih).trans (ranksFrom_cons_of_pos (p := p ∘ f) h).symm)
    · exact (ranksFrom_cons_of_neg h).trans
        (ih.trans (ranksFrom_cons_of_neg (p := p ∘ f) h).symm)

theorem min?_ranksFrom : (ranksFrom p s xs).min? = (ranksFrom p s xs).head? :=
  List.min?_eq_head? (ranksFrom_sorted.imp fun hlt => Nat.min_eq_left hlt.le)

theorem length_ranksFrom : (ranksFrom p s xs).length = (xs.filter p).length := by
  induction xs generalizing s with
  | nil => rfl
  | cons x xs ih =>
    by_cases h : p x
    · rw [ranksFrom_cons_of_pos h, List.filter_cons_of_pos (by simpa using h), List.length_cons,
        List.length_cons, ih]
    · rw [ranksFrom_cons_of_neg h, List.filter_cons_of_neg (by simpa using h), ih]

theorem ranksFrom_eq_nil_iff : ranksFrom p s xs = [] ↔ ∀ x ∈ xs, ¬ p x := by
  rw [← List.length_eq_zero_iff, length_ranksFrom, List.length_eq_zero_iff, List.filter_eq_nil_iff]
  simp

theorem ranksFrom_eq_range' {m : Nat} (hlength : (ranksFrom p s xs).length ≤ m) :
    ranksFrom p s xs = List.range' s m ↔ ∀ i < m, ∃ x, xs[i]? = some x ∧ p x := by
  constructor
  · intro h i hi
    have hmem : s + i ∈ ranksFrom p s xs := by
      rw [h, List.mem_range'_1]
      omega
    obtain ⟨_, x, hget, hp⟩ := mem_ranksFrom.mp hmem
    rw [Nat.add_sub_cancel_left] at hget
    exact ⟨x, hget, hp⟩
  · intro h
    have hsubset : List.range' s m ⊆ ranksFrom p s xs := by
      intro n hn
      rw [List.mem_range'_1] at hn
      exact mem_ranksFrom.mpr ⟨hn.1, h (n - s) (by omega)⟩
    have hperm : (List.range' s m).Perm (ranksFrom p s xs) :=
      (List.subperm_of_subset List.nodup_range' hsubset).perm_of_length_le (by simpa using hlength)
    exact (hperm.symm).eq_of_pairwise (fun a b _ _ hab hba => absurd hab (Nat.lt_asymm hba))
      ranksFrom_sorted List.pairwise_lt_range'

end Ranks

section Gains

variable {M : Type} [AddCommMonoid M] [PartialOrder M] [IsOrderedCancelAddMonoid M] {g : Nat → M}
  {s : Nat} {ranks : List Nat}

theorem sum_gain_le (hg : AntitoneOn g (Set.Ici s)) (hsorted : ranks.Pairwise (· < ·))
    (hle : ∀ n ∈ ranks, s ≤ n) :
    (ranks.map g).sum ≤ ((List.range' s ranks.length).map g).sum := by
  induction ranks generalizing s with
  | nil => exact le_refl _
  | cons n ranks ih =>
    obtain ⟨hfirst, hrest⟩ := List.pairwise_cons.mp hsorted
    obtain ⟨hn, _⟩ := List.forall_mem_cons.mp hle
    rw [List.map_cons, List.sum_cons, List.length_cons, List.range'_succ, List.map_cons,
      List.sum_cons]
    refine add_le_add (hg (Set.mem_Ici.mpr le_rfl) (Set.mem_Ici.mpr hn) hn) ?_
    refine ih (hg.mono (Set.Ici_subset_Ici.mpr (Nat.le_succ s))) hrest fun m hm => ?_
    exact Nat.lt_of_le_of_lt hn (hfirst m hm)

theorem eq_range'_of_sum_gain (hg : StrictAntiOn g (Set.Ici s)) (hsorted : ranks.Pairwise (· < ·))
    (hle : ∀ n ∈ ranks, s ≤ n)
    (hsum : ((List.range' s ranks.length).map g).sum ≤ (ranks.map g).sum) :
    ranks = List.range' s ranks.length := by
  induction ranks generalizing s with
  | nil => rfl
  | cons n ranks ih =>
    obtain ⟨hfirst, hrest⟩ := List.pairwise_cons.mp hsorted
    obtain ⟨hn, _⟩ := List.forall_mem_cons.mp hle
    have hbelow : ∀ m ∈ ranks, s + 1 ≤ m := fun m hm => Nat.lt_of_le_of_lt hn (hfirst m hm)
    have hg' : StrictAntiOn g (Set.Ici (s + 1)) := hg.mono (Set.Ici_subset_Ici.mpr (Nat.le_succ s))
    have htail := sum_gain_le hg'.antitoneOn hrest hbelow
    rw [List.map_cons, List.sum_cons, List.length_cons, List.range'_succ, List.map_cons,
      List.sum_cons] at hsum
    rw [List.length_cons, List.range'_succ]
    rcases Nat.eq_or_lt_of_le hn with rfl | hlt
    · rw [← ih hg' hrest hbelow (le_of_add_le_add_left hsum)]
    · have hhead := hg (Set.mem_Ici.mpr le_rfl) (Set.mem_Ici.mpr hn) hlt
      exact absurd (hsum.trans_lt (add_lt_add_of_lt_of_le hhead htail)) (lt_irrefl _)

theorem sum_range'_le_sum_range' (hg : ∀ n, s ≤ n → 0 ≤ g n) {m m' : Nat} (h : m ≤ m') :
    ((List.range' s m).map g).sum ≤ ((List.range' s m').map g).sum := by
  obtain ⟨d, rfl⟩ := Nat.exists_eq_add_of_le h
  rw [← List.range'_append_1, List.map_append, List.sum_append]
  refine le_add_of_nonneg_right (List.sum_nonneg ?_)
  intro v hv
  obtain ⟨n, hn, rfl⟩ := List.mem_map.mp hv
  exact hg n ((Nat.le_add_right _ _).trans (List.mem_range'_1.mp hn).1)

theorem sum_range'_lt_sum_range' (hg : ∀ n, s ≤ n → 0 < g n) {m m' : Nat} (h : m < m') :
    ((List.range' s m).map g).sum < ((List.range' s m').map g).sum := by
  have hnext : ((List.range' s m).map g).sum < ((List.range' s (m + 1)).map g).sum := by
    rw [← List.range'_append_1, List.map_append, List.sum_append]
    refine lt_add_of_pos_right _ ?_
    simpa using hg (s + m) (Nat.le_add_right _ _)
  exact hnext.trans_le (sum_range'_le_sum_range' (fun n hn => (hg n hn).le) h)

end Gains

section Exchange

variable {α : Type}

def exchange (xs : List α) (i j : Nat) : List α :=
  match xs[i]?, xs[j]? with
  | some x, some y => (xs.set i y).set j x
  | _, _ => xs

variable {xs : List α} {i j : Nat} {x y : α} (hi : xs[i]? = some x) (hj : xs[j]? = some y)

include hi hj

theorem exchange_eq : exchange xs i j = (xs.set i y).set j x := by
  simp only [exchange, hi, hj]

theorem exchange_perm : (exchange xs i j).Perm xs := by
  obtain ⟨hilt, rfl⟩ := List.getElem?_eq_some_iff.mp hi
  obtain ⟨hjlt, rfl⟩ := List.getElem?_eq_some_iff.mp hj
  rw [exchange_eq hi hj]
  exact List.set_set_perm hilt hjlt

theorem getElem?_exchange (hij : i < j) (n : Nat) :
    (exchange xs i j)[n]? = if n = i then some y else if n = j then some x else xs[n]? := by
  have hilt := (List.getElem?_eq_some_iff.mp hi).1
  have hjlt := (List.getElem?_eq_some_iff.mp hj).1
  rw [exchange_eq hi hj, List.getElem?_set, List.getElem?_set, List.length_set]
  by_cases hnj : j = n
  · subst hnj
    simp [hjlt, hij.ne']
  · by_cases hni : i = n
    · subst hni
      simp [hnj, hilt]
    · simp [hnj, hni, Ne.symm hnj, Ne.symm hni]

theorem take_exchange_of_le {m : Nat} (hij : i < j) (hm : m ≤ i) :
    (exchange xs i j).take m = xs.take m := by
  rw [exchange_eq hi hj, List.take_set_of_le (hm.trans hij.le), List.take_set_of_le hm]

variable {p : α → Prop} [DecidablePred p] (hx : ¬ p x) (hy : p y)

include hx hy

theorem mem_ranksFrom_exchange {m n : Nat} (hij : i < j) (hm : i < m) :
    n ∈ ranksFrom p 1 ((exchange xs i j).take m) ↔
      n = i + 1 ∨ (n ∈ ranksFrom p 1 (xs.take m) ∧ n ≠ j + 1) := by
  rw [mem_ranksFrom, mem_ranksFrom, List.getElem?_take, List.getElem?_take,
    getElem?_exchange hi hj hij]
  by_cases hcut : n - 1 < m
  · rw [if_pos hcut, if_pos hcut]
    by_cases hni : n - 1 = i
    · rw [if_pos hni, hni, hi]
      constructor
      · rintro ⟨hpos, _⟩
        exact Or.inl (by omega)
      · rintro (rfl | ⟨⟨_, z, hz, hpz⟩, _⟩)
        · exact ⟨by omega, y, rfl, hy⟩
        · cases hz
          exact absurd hpz hx
    · rw [if_neg hni]
      by_cases hnj : n - 1 = j
      · rw [if_pos hnj]
        constructor
        · rintro ⟨_, z, hz, hpz⟩
          cases hz
          exact absurd hpz hx
        · rintro (rfl | ⟨⟨hpos, _⟩, hne⟩)
          · omega
          · omega
      · rw [if_neg hnj]
        constructor
        · exact fun h => Or.inr ⟨h, by omega⟩
        · rintro (rfl | ⟨h, _⟩)
          · omega
          · exact h
  · rw [if_neg hcut, if_neg hcut]
    constructor
    · rintro ⟨_, z, hz, _⟩
      cases hz
    · rintro (rfl | ⟨⟨_, z, hz, _⟩, _⟩)
      · omega
      · cases hz

omit hj hy in
theorem not_mem_ranksFrom_exchanged {m : Nat} : i + 1 ∉ ranksFrom p 1 (xs.take m) := by
  rw [mem_ranksFrom]
  rintro ⟨_, z, hz, hpz⟩
  rw [Nat.add_sub_cancel, List.getElem?_take] at hz
  split at hz
  · cases hi.symm.trans hz
    exact hx hpz
  · cases hz

theorem sum_gain_exchange_lt {M : Type} [AddCommMonoid M] [PartialOrder M]
    [IsOrderedCancelAddMonoid M] {g : Nat → M} (hg : StrictAntiOn g (Set.Ici 1))
    (hpos : ∀ n, 1 ≤ n → 0 < g n) {m : Nat} (hij : i < j) (hm : i < m) :
    ((ranksFrom p 1 (xs.take m)).map g).sum <
      ((ranksFrom p 1 ((exchange xs i j).take m)).map g).sum := by
  have hset : (ranksFrom p 1 ((exchange xs i j).take m)).toFinset =
      insert (i + 1) ((ranksFrom p 1 (xs.take m)).toFinset.erase (j + 1)) := by
    ext n
    simp only [List.mem_toFinset, Finset.mem_insert, Finset.mem_erase,
      mem_ranksFrom_exchange hi hj hx hy hij hm, and_comm]
  have hnew : i + 1 ∉ (ranksFrom p 1 (xs.take m)).toFinset.erase (j + 1) := fun hmem =>
    not_mem_ranksFrom_exchanged hi hx (List.mem_toFinset.mp (Finset.mem_of_mem_erase hmem))
  rw [← List.sum_toFinset g ranksFrom_sorted.nodup, ← List.sum_toFinset g ranksFrom_sorted.nodup,
    hset, Finset.sum_insert hnew]
  by_cases hlater : j + 1 ∈ (ranksFrom p 1 (xs.take m)).toFinset
  · rw [← Finset.add_sum_erase _ g hlater]
    exact add_lt_add_left (hg (Set.mem_Ici.mpr (by omega)) (Set.mem_Ici.mpr (by omega))
      (by omega)) _
  · rw [Finset.erase_eq_of_notMem hlater]
    exact lt_add_of_pos_left _ (hpos _ (by omega))

end Exchange

end Ranking
