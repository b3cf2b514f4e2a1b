import Asl3Api.Runs.Invariant

/-!
# The history of the ledger

* `Entry`, `Row.entry`: the part of a row that its admission fixes;
* `TableStep.entries`, `exec_entries`: a step, and a run, only adds entries behind those there are;
* `flatMap_pages`, `list_pages`, `list_all`: consecutive pages of `list` are the whole list;
* **`ledger_permanent`**: the history is never changed, and `list` shows all of it.
-/

set_option autoImplicit false

namespace Asl3

open Py Ledger

/-! ## What an admission fixes -/

/-- Every column of a row but the document, and the kind, the request and the time of admission of
the document. -/
structure Entry where
  id : String
  node : String
  credential : String
  idempotencyKey : Option String
  canonical : String
  kind : Kind
  request : List (String × PyValue)
  createdAt : String

def Row.entry (r : Row) : Entry where
  id := r.id
  node := r.node
  credential := r.credential
  idempotencyKey := r.idempotencyKey
  canonical := r.canonical
  kind := r.document.kind
  request := r.document.request
  createdAt := r.document.createdAt

variable {node : String} {t t' : Table}

theorem entries_setDocument (h : WF node t) {id : String} {doc op : Operation}
    (hd : get t node id = some doc) (hs : SameIdentity doc op) :
    (setDocument t node id op).map Row.entry = t.map Row.entry := by
  obtain ⟨r₀, hr₀, hid₀, -, hdoc₀⟩ := row_of_get hd
  unfold setDocument
  rw [List.map_map]
  refine List.map_congr_left fun r hr => ?_
  by_cases hp : (r.id = id && r.node = node) = true
  · simp only [Function.comp_apply, if_pos hp]
    simp only [Bool.and_eq_true, decide_eq_true_eq] at hp
    have e : r = r₀ := h.eq_of_id hr hr₀ (hp.1.trans hid₀.symm)
    have hdoc : r.document = doc := by rw [e, hdoc₀]
    rw [← hdoc] at hs
    simp only [Row.entry, hs.kind, hs.request, hs.createdAt]
  · simp only [Function.comp_apply, if_neg hp]

/-- **A step adds an entry behind the others, or none.** -/
theorem TableStep.entries (h : WF node t) (hs : TableStep node t t') :
    t.map Row.entry <+: t'.map Row.entry := by
  cases hs with
  | same => exact List.prefix_refl _
  | update hd hi hm hc =>
    rw [entries_setDocument h hd hi]
  | insert hv ha hq ht =>
    rw [List.map_append]
    exact List.prefix_append _ _

/-- **A run adds entries behind the others.** -/
theorem exec_entries {s s' : Sys} {ls : List Label} (h : Inv node s)
    (hr : Lts.exec (Sys.step node) s ls = some s') :
    s.table.map Row.entry <+: s'.table.map Row.entry :=
  Lts.exec_rel (Inv node) (fun a b => a.table.map Row.entry <+: b.table.map Row.entry)
    (fun _ => List.prefix_refl _) (fun _ _ _ => List.IsPrefix.trans) h (fun _ _ _ => Inv.step)
    (fun _ _ _ hi hs => ((hi.does hs).tableStep hi).entries hi.sound.wf) hr

/-! ## Pages -/

/-- The first `k` pages of `n` entries are the first `k * n` entries. -/
theorem flatMap_pages {α : Type*} (l : List α) (n k : ℕ) :
    (List.range k).flatMap (fun i => (l.drop (i * n)).take n) = l.take (k * n) := by
  induction k with
  | zero => simp
  | succ k ih =>
    rw [List.range_succ, List.flatMap_append, ih, List.flatMap_singleton, Nat.succ_mul,
      List.take_add]

/-- **Consecutive pages are the whole list**, the newest admission first. -/
theorem list_pages (h : WF node t) {n k : ℕ} (hk : t.length ≤ k * n) :
    (List.range k).flatMap (fun i => list t node n (i * n)) = (t.map Row.document).reverse := by
  unfold list
  rw [flatMap_pages, documents_eq h]
  refine List.take_of_length_le ?_
  rw [List.length_reverse, List.length_map]
  exact hk

/-- One page that is long enough. -/
theorem list_all (h : WF node t) : list t node t.length 0 = (t.map Row.document).reverse := by
  unfold list
  rw [documents_eq h, List.drop_zero]
  refine List.take_of_length_le ?_
  rw [List.length_reverse, List.length_map]

/-- The ids of the documents are those of the entries. -/
theorem documents_ids (h : WF node t) :
    (t.map Row.document).map Operation.id = (t.map Row.entry).map Entry.id := by
  rw [List.map_map, List.map_map]
  exact List.map_congr_left fun r hr => (h.agrees r hr).documentId

/-- **The ledger is permanent.** In every run the entries that were admitted stay, in the order of
their admission; every row agrees with its document; consecutive pages of `list` show every operation
once, the newest admission first; and what a later list shows behind the newer operations is the
earlier list, whatever became of the documents. -/
theorem ledger_permanent {ls : List Label} {s : Sys} (h : Reaches node ls s) :
    (∀ ls' s', Lts.exec (Sys.step node) s ls' = some s' →
      s.table.map Row.entry <+: s'.table.map Row.entry) ∧
    (∀ r ∈ s.table, Row.Agrees node r) ∧
    (∀ n k, s.table.length ≤ k * n →
      (List.range k).flatMap (fun i => list s.table node n (i * n)) =
          (s.table.map Row.document).reverse ∧
        (((List.range k).flatMap fun i => list s.table node n (i * n)).map Operation.id).Nodup) ∧
    ∀ ls' s', Lts.exec (Sys.step node) s ls' = some s' → ∃ newer,
      (list s'.table node s'.table.length 0).map Operation.id =
        newer ++ (list s.table node s.table.length 0).map Operation.id := by
  have hi := reaches_inv h
  have hwf := hi.sound.wf
  refine ⟨fun ls' s' hr => exec_entries hi hr, hwf.agrees, fun n k hk => ⟨list_pages hwf hk, ?_⟩,
    fun ls' s' hr => ?_⟩
  · have hids : (s.table.map Row.document).map Operation.id = s.table.map Row.id := by
      rw [documents_ids hwf, List.map_map]
      rfl
    rw [list_pages hwf hk, List.map_reverse, List.nodup_reverse, hids]
    exact hwf.nodup
  · have hwf' := (exec_inv hi hr).sound.wf
    obtain ⟨new, hnew⟩ := exec_entries hi hr
    refine ⟨(new.map Entry.id).reverse, ?_⟩
    rw [list_all hwf', list_all hwf, List.map_reverse, List.map_reverse, documents_ids hwf',
      documents_ids hwf, ← hnew, List.map_append, List.reverse_append]

/-- After a restart the announcement of the run is still the one entry of the list. -/
theorem ledger_permanent_announced :
    ∃ s s', Reaches "546051" announceRun s ∧
      Lts.exec (Sys.step "546051") s restartRun = some s' ∧ s.table.length = 1 ∧
      s.table.map Row.entry <+: s'.table.map Row.entry ∧
      ∃ newer, (list s'.table "546051" s'.table.length 0).map Operation.id = newer ++ ["a1"] := by
  obtain ⟨s, s', hs, hr, hf, -⟩ := exists_reaches_append "546051" announceRun restartRun
    (fun s => (s.table.length, (list s.table "546051" s.table.length 0).map Operation.id))
    (fun _ => ()) (1, ["a1"]) () (by decide +kernel) (by decide +kernel)
  obtain ⟨hlen, hids⟩ := Prod.mk.inj hf
  obtain ⟨hentries, -, -, hlist⟩ := ledger_permanent hs
  obtain ⟨newer, hn⟩ := hlist restartRun s' hr
  rw [hids] at hn
  exact ⟨s, s', hs, hr, hlen, hentries restartRun s' hr, newer, hn⟩

end Asl3
