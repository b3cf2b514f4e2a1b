import Mathlib.Data.List.Forall2
import Mathlib.Data.List.Nodup

/-!
# Dicts built row by row

A loop that reads one entry from every row and refuses a key that it has already seen.

* `collect`: the loop;
* **`collect_lookup`**: the entries of the dict are those of the rows;
* `collect_entry`: every row has an entry in the dict;
* `collect_eq_error`: what the loop raises;
* **`collect_eq_ok`**: the loop returns exactly when every row has an entry and no key comes twice;
* `assign`, `lookup_assign`, **`lookup_assignAll`**: a dict that is written entry by entry;
* `find?_key`, `find?_perm`: the row with a key, when no key comes twice.
-/

set_option autoImplicit false

namespace Py

/-- Every row has its entry. -/
theorem forall₂_mem_left {α β : Type*} {R : α → β → Prop} {as : List α} {bs : List β}
    (h : List.Forall₂ R as bs) {a : α} (ha : a ∈ as) : ∃ b ∈ bs, R a b := by
  induction h with
  | nil => cases ha
  | cons hr _ ih =>
    rcases List.mem_cons.mp ha with rfl | ha
    · exact ⟨_, List.mem_cons_self, hr⟩
    · obtain ⟨b, hb, hr'⟩ := ih ha
      exact ⟨b, List.mem_cons_of_mem _ hb, hr'⟩

/-- Every entry has its row. -/
theorem forall₂_mem_right {α β : Type*} {R : α → β → Prop} {as : List α} {bs : List β}
    (h : List.Forall₂ R as bs) {b : β} (hb : b ∈ bs) : ∃ a ∈ as, R a b :=
  forall₂_mem_left h.flip hb

variable {α κ ν ε : Type*} [BEq κ] [LawfulBEq κ]

/-- Add the entries of the rows to the dict `d`; the entries are in the order of insertion. -/
def collect (entry : α → Except ε (κ × ν)) (duplicate : ε) (d : List (κ × ν)) :
    List α → Except ε (List (κ × ν))
  | [] => .ok d
  | row :: rows => match entry row with
    | .error e => .error e
    | .ok e =>
      if (d.lookup e.1).isSome then .error duplicate
      else collect entry duplicate (d ++ [e]) rows

theorem lookup_concat {d : List (κ × ν)} {k k' : κ} {v v' : ν} (h : d.lookup k = none) :
    (d ++ [(k, v)]).lookup k' = some v' ↔ d.lookup k' = some v' ∨ (k', v') = (k, v) := by
  rw [List.lookup_append, List.lookup_cons, List.lookup_nil]
  by_cases hk : k' = k
  · subst hk
    simp [h, eq_comm]
  · have hb : (k' == k) = false := beq_false_of_ne hk
    simp [hb, hk]

variable {entry : α → Except ε (κ × ν)} {duplicate : ε} {d d' : List (κ × ν)} {rows : List α}

/-- **The entries of the dict are those of the rows.** -/
theorem collect_lookup (h : collect entry duplicate d rows = .ok d') (k : κ) (v : ν) :
    d'.lookup k = some v ↔ d.lookup k = some v ∨ ∃ row ∈ rows, entry row = .ok (k, v) := by
  induction rows generalizing d with
  | nil =>
    cases h
    simp
  | cons row rows ih =>
    rw [collect] at h
    cases he : entry row with
    | error e => rw [he] at h; cases h
    | ok e =>
      simp only [he] at h
      split_ifs at h with hd
      obtain ⟨k', v'⟩ := e
      rw [ih h, lookup_concat (Option.not_isSome_iff_eq_none.mp hd), or_assoc]
      refine or_congr_right ?_
      simp only [List.exists_mem_cons_iff, he, Except.ok.injEq]
      rw [eq_comm]

omit [LawfulBEq κ] in
theorem collect_ok (h : collect entry duplicate d rows = .ok d') {row : α} (hr : row ∈ rows) :
    ∃ e, entry row = .ok e := by
  induction rows generalizing d with
  | nil => cases hr
  | cons x rows ih =>
    rw [collect] at h
    cases he : entry x with
    | error e => rw [he] at h; cases h
    | ok e =>
      simp only [he] at h
      split_ifs at h
      rcases List.mem_cons.mp hr with rfl | hr
      · exact ⟨e, he⟩
      · exact ih h hr

omit [LawfulBEq κ] in
/-- The loop raises what one of its rows raises, or that a key comes twice. -/
theorem collect_eq_error {e : ε} (h : collect entry duplicate d rows = .error e) :
    e = duplicate ∨ ∃ row ∈ rows, entry row = .error e := by
  induction rows generalizing d with
  | nil => cases h
  | cons row rows ih =>
    rw [collect] at h
    cases he : entry row with
    | error e' =>
      rw [he] at h
      cases h
      exact Or.inr ⟨row, List.mem_cons_self, he⟩
    | ok x =>
      simp only [he] at h
      split_ifs at h
      · cases h
        exact Or.inl rfl
      · obtain hd | ⟨r, hr, hre⟩ := ih h
        · exact Or.inl hd
        · exact Or.inr ⟨r, List.mem_cons_of_mem _ hr, hre⟩

/-- Every row has an entry in the dict. -/
theorem collect_entry (h : collect entry duplicate d rows = .ok d') {row : α} (hr : row ∈ rows) :
    ∃ k v, entry row = .ok (k, v) ∧ d'.lookup k = some v := by
  obtain ⟨⟨k, v⟩, he⟩ := collect_ok h hr
  exact ⟨k, v, he, (collect_lookup h k v).mpr (Or.inr ⟨row, hr, he⟩)⟩

/-- Whether a key is in a dict. -/
theorem lookup_isSome_iff_mem {k : κ} : (d.lookup k).isSome ↔ k ∈ d.map Prod.fst := by
  rw [List.lookup_isSome_iff, List.mem_map]
  constructor
  · rintro ⟨e, he, hk⟩
    exact ⟨e, he, (beq_iff_eq.mp hk).symm⟩
  · rintro ⟨e, he, rfl⟩
    exact ⟨e, he, beq_self_eq_true _⟩

/-- An entry of a dict in which no key comes twice. -/
theorem lookup_eq_some_iff_mem (h : (d.map Prod.fst).Nodup) {k : κ} {v : ν} :
    d.lookup k = some v ↔ (k, v) ∈ d := by
  induction d with
  | nil => simp
  | cons e d ih =>
    obtain ⟨k', v'⟩ := e
    rw [List.map_cons, List.nodup_cons] at h
    rw [List.lookup_cons]
    by_cases hk : k = k'
    · subst hk
      simp only [beq_self_eq_true, List.mem_cons, Prod.mk.injEq, true_and, Option.some.injEq]
      constructor
      · rintro rfl
        exact Or.inl rfl
      · rintro (rfl | hm)
        · rfl
        · exact absurd (List.mem_map_of_mem hm) h.1
    · have hb : (k == k') = false := beq_false_of_ne hk
      simp [hb, hk, ih h.2]

/-- A dict in which the value of one key is replaced. -/
theorem lookup_replace [DecidableEq κ] (d : List (κ × ν)) (k k' : κ) (v : ν) :
    (d.map fun e => if e.1 = k then (k, v) else e).lookup k' =
      if k' = k then (d.lookup k').map fun _ => v else d.lookup k' := by
  induction d with
  | nil => simp
  | cons e d ih =>
    obtain ⟨k₀, v₀⟩ := e
    rw [List.map_cons, List.lookup_cons]
    by_cases h₀ : k₀ = k
    · subst h₀
      rw [if_pos rfl, List.lookup_cons]
      by_cases hk : k' = k₀
      · simp [hk]
      · have hb : (k' == k₀) = false := beq_false_of_ne hk
        rw [hb, ih]
    · rw [if_neg h₀, List.lookup_cons]
      by_cases hk : k' = k₀
      · subst hk
        simp [h₀]
      · have hb : (k' == k₀) = false := beq_false_of_ne hk
        rw [hb, ih]

/-! ## Assignments -/

section

variable [DecidableEq κ]

/-- `d[k] = v`: the key keeps its place in the order. -/
def assign (d : List (κ × ν)) (k : κ) (v : ν) : List (κ × ν) :=
  if (d.lookup k).isSome then d.map fun e => if e.1 = k then (k, v) else e else d ++ [(k, v)]

theorem lookup_assign (d : List (κ × ν)) (k k' : κ) (v : ν) :
    (assign d k v).lookup k' = if k' = k then some v else d.lookup k' := by
  rw [assign]
  split_ifs with hd hk hk
  · subst hk
    obtain ⟨w, hw⟩ := Option.isSome_iff_exists.mp hd
    rw [lookup_replace, if_pos rfl, hw, Option.map_some]
  · rw [lookup_replace, if_neg hk]
  · subst hk
    rw [List.lookup_append, Option.not_isSome_iff_eq_none.mp hd, Option.none_or,
      List.lookup_cons_self]
  · have hb : (k' == k) = false := beq_false_of_ne hk
    rw [List.lookup_append, List.lookup_cons, hb, List.lookup_nil, Option.or_none]

/-- The entries `es` assigned one after the other. -/
def assignAll (d : List (κ × ν)) (es : List (κ × ν)) : List (κ × ν) :=
  es.foldl (fun d e => assign d e.1 e.2) d

/-- **The last assignment to a key stands.** -/
theorem lookup_assignAll (d es : List (κ × ν)) (k : κ) :
    (assignAll d es).lookup k = (es.reverse.lookup k).or (d.lookup k) := by
  induction es generalizing d with
  | nil => rfl
  | cons e es ih =>
    obtain ⟨k', v⟩ := e
    rw [assignAll, List.foldl_cons, ← assignAll, ih, lookup_assign, List.reverse_cons,
      List.lookup_append, Option.or_assoc, List.lookup_cons, List.lookup_nil]
    by_cases hk : k = k'
    · rw [if_pos hk, beq_iff_eq.mpr hk, Option.some_or]
    · have hb : (k == k') = false := beq_false_of_ne hk
      rw [if_neg hk, hb, Option.none_or]

/-- An assignment to a key that is there keeps the keys. -/
theorem keys_assign {d : List (κ × ν)} {k : κ} {v : ν} (h : k ∈ d.map Prod.fst) :
    (assign d k v).map Prod.fst = d.map Prod.fst := by
  rw [assign, if_pos (lookup_isSome_iff_mem.mpr h), List.map_map]
  refine List.map_congr_left fun e _ => ?_
  rw [Function.comp_apply]
  split_ifs with he
  · exact he.symm
  · rfl

theorem keys_assignAll {d es : List (κ × ν)} (h : ∀ k ∈ es.map Prod.fst, k ∈ d.map Prod.fst) :
    (assignAll d es).map Prod.fst = d.map Prod.fst := by
  induction es generalizing d with
  | nil => rfl
  | cons e es ih =>
    rw [List.map_cons, List.forall_mem_cons] at h
    have hk := keys_assign (v := e.2) h.1
    rw [assignAll, List.foldl_cons, ← assignAll, ih fun k hk' => hk ▸ h.2 k hk', hk]

theorem lookup_assignAll_last {d pre post : List (κ × ν)} {k : κ} {v : ν}
    (h : k ∉ post.map Prod.fst) :
    (assignAll d (pre ++ (k, v) :: post)).lookup k = some v := by
  have hpost : post.reverse.lookup k = none := by
    rw [← Option.not_isSome_iff_eq_none, lookup_isSome_iff_mem, List.map_reverse, List.mem_reverse]
    exact h
  rw [lookup_assignAll, List.reverse_append, List.reverse_cons, List.append_assoc,
    List.lookup_append, hpost, Option.none_or, List.singleton_append, List.lookup_cons_self,
    Option.some_or]

end

theorem collect_eq_ok_aux :
    collect entry duplicate d rows = .ok d' ↔ ∃ es, d' = d ++ es ∧
      List.Forall₂ (fun row e => entry row = .ok e) rows es ∧ (es.map Prod.fst).Nodup ∧
      ∀ k ∈ es.map Prod.fst, k ∉ d.map Prod.fst := by
  induction rows generalizing d with
  | nil =>
    rw [collect]
    constructor
    · rintro ⟨⟩
      exact ⟨[], by simp⟩
    · rintro ⟨es, rfl, hf, -, -⟩
      cases hf
      simp
  | cons row rows ih =>
    rw [collect]
    cases he : entry row with
    | error x =>
      simp only [reduceCtorEq, false_iff]
      rintro ⟨es, -, hf, -, -⟩
      cases hf with
      | cons h _ => rw [he] at h; cases h
    | ok e =>
      dsimp only
      by_cases hd : (d.lookup e.1).isSome = true
      · rw [if_pos hd]
        simp only [reduceCtorEq, false_iff]
        rintro ⟨es, -, hf, -, hk⟩
        cases hf with
        | cons h _ =>
          rw [he] at h
          cases h
          exact hk _ List.mem_cons_self (lookup_isSome_iff_mem.mp hd)
      · rw [if_neg hd, ih]
        rw [lookup_isSome_iff_mem] at hd
        constructor
        · rintro ⟨es, rfl, hf, hn, hk⟩
          refine ⟨e :: es, by simp, .cons he hf, ?_, ?_⟩
          · refine List.nodup_cons.mpr ⟨fun hm => hk _ hm ?_, hn⟩
            simp
          · intro k hm
            rcases List.mem_cons.mp hm with rfl | hm
            · exact hd
            · exact fun hd' => hk k hm (by rw [List.map_append]; exact List.mem_append_left _ hd')
        · rintro ⟨es, rfl, hf, hn, hk⟩
          cases hf with
          | @cons _ e' _ es h hf =>
            rw [he] at h
            cases h
            rw [List.map_cons, List.nodup_cons] at hn
            refine ⟨es, by simp, hf, hn.2, fun k hm hd' => ?_⟩
            rw [List.map_append, List.mem_append] at hd'
            rcases hd' with hd' | hd'
            · exact hk k (List.mem_cons_of_mem _ hm) hd'
            · rw [List.map_singleton, List.mem_singleton] at hd'
              exact hn.1 (hd' ▸ hm)

/-- **The loop returns exactly when every row has an entry and no key comes twice**, and it returns
the entries in the order of the rows. -/
theorem collect_eq_ok : collect entry duplicate [] rows = .ok d ↔
    List.Forall₂ (fun row e => entry row = .ok e) rows d ∧ (d.map Prod.fst).Nodup := by
  rw [collect_eq_ok_aux]
  constructor
  · rintro ⟨es, rfl, hf, hn, -⟩
    exact ⟨hf, hn⟩
  · rintro ⟨hf, hn⟩
    exact ⟨d, rfl, hf, hn, fun _ _ => List.not_mem_nil⟩

/-! ## Rows with different keys -/

section

variable {β : Type*} [DecidableEq β] {key : α → β} {l l' : List α} {k : β}

theorem find?_key (hn : (l.map key).Nodup) {a : α} :
    l.find? (fun x => key x = k) = some a ↔ a ∈ l ∧ key a = k := by
  constructor
  · intro h
    exact ⟨List.mem_of_find?_eq_some h, by simpa using List.find?_some h⟩
  · rintro ⟨ha, rfl⟩
    have hsome : (l.find? fun x => key x = key a).isSome :=
      List.find?_isSome.mpr ⟨a, ha, decide_eq_true rfl⟩
    obtain ⟨b, hb⟩ := Option.isSome_iff_exists.mp hsome
    have hkey : key b = key a := by simpa using List.find?_some hb
    rw [hb, List.inj_on_of_nodup_map hn (List.mem_of_find?_eq_some hb) ha hkey]

/-- The order of the rows does not matter. -/
theorem find?_perm (hn : (l.map key).Nodup) (h : l.Perm l') :
    l.find? (fun x => key x = k) = l'.find? (fun x => key x = k) := by
  have hn' : (l'.map key).Nodup := (h.map key).nodup_iff.mp hn
  refine Option.ext fun a => ?_
  rw [find?_key hn, find?_key hn', h.mem_iff]

end

end Py
