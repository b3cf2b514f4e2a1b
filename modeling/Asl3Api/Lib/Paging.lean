import Mathlib.Data.List.Nodup
import Mathlib.Order.Lattice

/-!
# Pages of a growing list

A list grows at its end and is read from there, in pages of `n` entries. A reader takes page `i` of the
`i`-th list.

* `page`, `page_map`, `getElem?_page`: the entries of a page;
* `length_mono`, `getElem?_mono`: an entry keeps its place from the front;
* **`exists_mem_page`**: up to a page that is not full, the reader has seen every entry of the first
  list;
* **`length_lt_of_mem_pages`**: it sees an entry on two pages only when the list has grown in between.
-/

set_option autoImplicit false

namespace Paging

variable {α β : Type*}

/-- Page `i`, counted from the end of the list. -/
def page (l : List α) (n i : ℕ) : List α := (l.reverse.drop (i * n)).take n

theorem page_map (f : α → β) (l : List α) (n i : ℕ) : page (l.map f) n i = (page l n i).map f := by
  rw [page, page, ← List.map_reverse, ← List.map_drop, ← List.map_take]

theorem mem_of_mem_page {l : List α} {n i : ℕ} {a : α} (h : a ∈ page l n i) : a ∈ l :=
  List.mem_reverse.mp (List.mem_of_mem_drop (List.mem_of_mem_take h))

theorem nodup_page {l : List α} (h : l.Nodup) (n i : ℕ) : (page l n i).Nodup :=
  (List.nodup_reverse.mpr h).sublist ((List.take_sublist _ _).trans (List.drop_sublist _ _))

/-- A page shows the entries of its window. -/
theorem mem_page_iff {l : List α} {n i : ℕ} {a : α} : a ∈ page l n i ↔
    ∃ p, l[p]? = some a ∧ i * n + p < l.length ∧ l.length ≤ (i + 1) * n + p := by
  have hn : (i + 1) * n = i * n + n := Nat.succ_mul i n
  rw [List.mem_iff_getElem?]
  constructor
  · rintro ⟨j, hj⟩
    rw [page, List.getElem?_take, Option.ite_none_right_eq_some, List.getElem?_drop] at hj
    obtain ⟨hjn, hj⟩ := hj
    have hlt : i * n + j < l.length := by
      rw [← List.length_reverse]
      exact (List.getElem?_eq_some_iff.mp hj).1
    rw [List.getElem?_reverse hlt] at hj
    exact ⟨_, hj, by omega, by omega⟩
  · rintro ⟨p, hp, hlo, hhi⟩
    have hlt : p < l.length := (List.getElem?_eq_some_iff.mp hp).1
    refine ⟨l.length - 1 - p - i * n, ?_⟩
    rw [page, List.getElem?_take, if_pos (by omega), List.getElem?_drop,
      List.getElem?_reverse (by omega), ← hp]
    congr 1
    omega

section

variable {L : ℕ → List α} {n k : ℕ}

/-- The lists of a reader grow. -/
theorem prefix_of_le (hL : ∀ i < k, L i <+: L (i + 1)) {i j : ℕ} (hij : i ≤ j) (hj : j ≤ k) :
    L i <+: L j := by
  induction j, hij using Nat.le_induction with
  | base => exact List.prefix_rfl
  | succ j _ ih => exact (ih (by omega)).trans (hL j (by omega))

/-- An entry keeps its place from the front. -/
theorem getElem?_mono (hL : ∀ i < k, L i <+: L (i + 1)) {i j : ℕ} (hij : i ≤ j) (hj : j ≤ k)
    {p : ℕ} {a : α} (h : (L i)[p]? = some a) : (L j)[p]? = some a := by
  obtain ⟨t, ht⟩ := prefix_of_le hL hij hj
  rw [← ht, List.getElem?_append_left (List.getElem?_eq_some_iff.mp h).1]
  exact h

/-- An entry that no page has shown is behind the last one of them. -/
theorem shown_or_behind (hL : ∀ i < k, L i <+: L (i + 1)) {p : ℕ} {a : α} (h : (L 0)[p]? = some a)
    {i : ℕ} (hi : i ≤ k) : (∃ j < i, a ∈ page (L j) n j) ∨ i * n + p < (L i).length := by
  induction i with
  | zero =>
    rw [Nat.zero_mul, Nat.zero_add]
    exact .inr (List.getElem?_eq_some_iff.mp h).1
  | succ i ih =>
    rcases ih (by omega) with ⟨j, hj, hmem⟩ | hbehind
    · exact .inl ⟨j, by omega, hmem⟩
    by_cases hwindow : (L i).length ≤ (i + 1) * n + p
    · exact .inl ⟨i, by omega, mem_page_iff.mpr
        ⟨p, getElem?_mono hL (Nat.zero_le i) (by omega) h, hbehind, hwindow⟩⟩
    · have hgrown : (L i).length ≤ (L (i + 1)).length := (hL i (by omega)).length_le
      exact .inr (by omega)

/-- **The reader has seen every entry of the first list**, when its last page is not full. -/
theorem exists_mem_page (hL : ∀ i < k, L i <+: L (i + 1)) (hend : (page (L k) n k).length < n)
    {a : α} (h : a ∈ L 0) : ∃ i ≤ k, a ∈ page (L i) n i := by
  obtain ⟨p, hp⟩ := List.mem_iff_getElem?.mp h
  rcases shown_or_behind (n := n) hL hp (le_refl k) with ⟨j, hj, hmem⟩ | hbehind
  · exact ⟨j, hj.le, hmem⟩
  · refine ⟨k, le_refl k, mem_page_iff.mpr ⟨p, getElem?_mono hL (Nat.zero_le k) (le_refl k) hp,
      hbehind, ?_⟩⟩
    rw [page, List.length_take, List.length_drop, List.length_reverse] at hend
    have hn : (k + 1) * n = k * n + n := Nat.succ_mul k n
    omega

/-- **An entry is on two pages only when the list has grown in between.** -/
theorem length_lt_of_mem_pages (hL : ∀ i < k, L i <+: L (i + 1)) {i j : ℕ} (hij : i < j) (hj : j ≤ k)
    (hn : (L j).Nodup) {a : α} (hi : a ∈ page (L i) n i) (ha : a ∈ page (L j) n j) :
    (L i).length < (L j).length := by
  obtain ⟨p, hp, -, hwindow⟩ := mem_page_iff.mp hi
  obtain ⟨q, hq, hbehind, -⟩ := mem_page_iff.mp ha
  have hpq : p = q := by
    have hp' := getElem?_mono hL hij.le hj hp
    exact (List.getElem?_inj (List.getElem?_eq_some_iff.mp hp').1 hn).mp (hp'.trans hq.symm)
  have hpages : (i + 1) * n ≤ j * n := Nat.mul_le_mul_right n hij
  omega

end

end Paging
