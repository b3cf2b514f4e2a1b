import Asl3Api.Lib.Paging
import Asl3Api.Runs.Permanence
import Asl3Api.Vnext.Api

/-!
# Reading the operations page by page

A client reads `GET /operations` with a limit, and the next page when a page is full. Between two
reads the service goes on: it admits operations, which come in front of the others, works on them, dies
and starts again.

* `Reader`: the pages of a client, and the states that they are read in;
* `list_eq_page`: a page of `list` is one of `Lib/Paging`;
* **`paging_complete`**: the client sees every operation that was there when it began.
-/

set_option autoImplicit false

namespace Asl3

open Py Ledger

/-- A client takes `k + 1` pages of `n` operations, the last of which is not full. -/
structure Reader (node : String) (n k : ℕ) (st : ℕ → Sys) (pages : ℕ → List Operation) : Prop where
  reached : ∃ ls, Reaches node ls (st 0)
  between : ∀ i < k, ∃ ls, Lts.exec (Sys.step node) (st i) ls = some (st (i + 1))
  read : ∀ i ≤ k, ∃ p env, (st i).life = .up p ∧
    Api.operations p (st i).table n (i * n) env = .ok (pages i)
  ends : (pages k).length < n

variable {node : String} {n k : ℕ} {st : ℕ → Sys} {pages : ℕ → List Operation}

/-- A page of `list`. -/
theorem list_eq_page {t : Table} (h : WF node t) (n i : ℕ) :
    list t node n (i * n) = (Paging.page t n i).map Row.document := by
  rw [list, documents_eq h, ← Paging.page_map, Paging.page]

namespace Reader

theorem inv (h : Reader node n k st pages) {i : ℕ} (hi : i ≤ k) : Inv node (st i) := by
  induction i with
  | zero =>
    obtain ⟨ls, hls⟩ := h.reached
    exact reaches_inv hls
  | succ i ih =>
    obtain ⟨ls, hls⟩ := h.between i hi
    exact exec_inv (ih (by omega)) hls

/-- What the client reads is a page of the ledger. -/
theorem page_eq (h : Reader node n k st pages) {i : ℕ} (hi : i ≤ k) :
    pages i = (Paging.page (st i).table n i).map Row.document := by
  obtain ⟨p, env, hp, hread⟩ := h.read i hi
  have hinv := h.inv hi
  have hlife := hinv.life
  rw [hp] at hlife
  unfold Api.operations at hread
  cases hr : p.requireLedger with
  | error e =>
    rw [hr] at hread
    cases hread
  | ok u =>
    rw [hr] at hread
    dsimp only at hread
    split_ifs at hread
    rw [← Except.ok.inj hread, hlife.number]
    exact list_eq_page hinv.sound.wf n i

/-- The ids that the client reads. -/
theorem page_ids (h : Reader node n k st pages) {i : ℕ} (hi : i ≤ k) :
    (pages i).map Operation.id = Paging.page ((st i).table.map Row.id) n i := by
  rw [h.page_eq hi, Paging.page_map, List.map_map]
  refine List.map_congr_left fun r hr => ?_
  exact ((h.inv hi).sound.wf.agrees r (Paging.mem_of_mem_page hr)).documentId

/-- The ids of the ledger grow. -/
theorem ids_grow (h : Reader node n k st pages) {i : ℕ} (hi : i < k) :
    (st i).table.map Row.id <+: (st (i + 1)).table.map Row.id := by
  obtain ⟨ls, hls⟩ := h.between i hi
  have hentries := (exec_entries (h.inv hi.le) hls).map Entry.id
  rw [List.map_map, List.map_map] at hentries
  exact hentries

/-- The service goes on from one page to a later one. -/
theorem exec_between (h : Reader node n k st pages) {i j : ℕ} (hij : i ≤ j) (hj : j ≤ k) :
    ∃ ls, Lts.exec (Sys.step node) (st i) ls = some (st j) := by
  induction j, hij using Nat.le_induction with
  | base => exact ⟨[], rfl⟩
  | succ j _ ih =>
    obtain ⟨ls, hls⟩ := ih (by omega)
    obtain ⟨ls', hls'⟩ := h.between j (by omega)
    exact ⟨ls ++ ls', Lts.exec_append.mpr ⟨_, hls, hls'⟩⟩

/-- What the client reads is the document of the moment. -/
theorem get_of_mem (h : Reader node n k st pages) {i : ℕ} (hi : i ≤ k) {op : Operation}
    (hop : op ∈ pages i) : get (st i).table node op.id = some op := by
  have hwf := (h.inv hi).sound.wf
  rw [h.page_eq hi] at hop
  obtain ⟨r, hr, rfl⟩ := List.mem_map.mp hop
  rw [(hwf.agrees r (Paging.mem_of_mem_page hr)).documentId]
  exact hwf.get_row (Paging.mem_of_mem_page hr)

end Reader

/-- **Reading page by page misses nothing.** However the service goes on between the reads, a client
that ends with a page that is not full has seen every operation of the ledger it began with, in the
state the operation had come to by then. No page shows an operation twice; an operation is on two pages
only when others were admitted in between, and its state on the later page is one it came to after the
earlier. -/
theorem paging_complete (h : Reader node n k st pages) :
    (∀ r ∈ (st 0).table, ∃ i ≤ k, ∃ op ∈ pages i, op.id = r.id ∧ SameIdentity r.document op ∧
      Relation.ReflTransGen Moves r.document op) ∧
    (∀ i ≤ k, ((pages i).map Operation.id).Nodup ∧
      ∀ op ∈ pages i, get (st i).table node op.id = some op) ∧
    ∀ i j, i < j → j ≤ k → ∀ op ∈ pages i, ∀ op' ∈ pages j, op.id = op'.id →
      (st i).table.length < (st j).table.length ∧ Relation.ReflTransGen Moves op op' := by
  have hgrow : ∀ i < k, (st i).table.map Row.id <+: (st (i + 1)).table.map Row.id :=
    fun i hi => h.ids_grow hi
  refine ⟨fun r hr => ?_, fun i hi => ⟨?_, fun op hop => h.get_of_mem hi hop⟩, ?_⟩
  · have hends : (Paging.page ((st k).table.map Row.id) n k).length < n := by
      rw [← h.page_ids (le_refl k), List.length_map]
      exact h.ends
    obtain ⟨i, hi, hid⟩ := Paging.exists_mem_page (L := fun i => (st i).table.map Row.id) hgrow hends
      (List.mem_map_of_mem hr)
    rw [← h.page_ids hi] at hid
    obtain ⟨op, hop, hopid⟩ := List.mem_map.mp hid
    refine ⟨i, hi, op, hop, hopid, ?_⟩
    obtain ⟨ls, hls⟩ := h.exec_between (Nat.zero_le i) hi
    obtain ⟨doc, hdoc, hsame, hmoves⟩ := (exec_grows (h.inv (Nat.zero_le k)) hls).get
      (h.inv hi).sound.wf ((h.inv (Nat.zero_le k)).sound.wf.get_row hr)
    have hget := h.get_of_mem hi hop
    rw [hopid, hdoc] at hget
    rw [← Option.some.inj hget]
    exact ⟨hsame, hmoves⟩
  · rw [h.page_ids hi]
    exact Paging.nodup_page (h.inv hi).sound.wf.nodup n i
  · intro i j hij hj op hop op' hop' hid
    have hi := hij.le.trans hj
    have hmem : op.id ∈ Paging.page ((st i).table.map Row.id) n i := by
      rw [← h.page_ids hi]
      exact List.mem_map_of_mem hop
    have hmem' : op.id ∈ Paging.page ((st j).table.map Row.id) n j := by
      rw [hid, ← h.page_ids hj]
      exact List.mem_map_of_mem hop'
    refine ⟨?_, ?_⟩
    · have hlt := Paging.length_lt_of_mem_pages (L := fun i => (st i).table.map Row.id) hgrow hij hj
        (h.inv hj).sound.wf.nodup hmem hmem'
      rw [List.length_map, List.length_map] at hlt
      exact hlt
    · obtain ⟨ls, hls⟩ := h.exec_between hij.le hj
      obtain ⟨doc, hdoc, -, hmoves⟩ := (exec_grows (h.inv hi) hls).get (h.inv hj).sound.wf
        (h.get_of_mem hi hop)
      have hget := h.get_of_mem hj hop'
      rw [← hid, hdoc] at hget
      rw [← Option.some.inj hget]
      exact hmoves

/-- A second announcement is admitted. -/
def secondAdmission : List Label :=
  [.request "announce" (.dict [("kind", .str "status")]) "operator" (some "second") { uuid := "a2" }]

/-- The process is up and answers reads. -/
def Sys.readable (s : Sys) : Bool :=
  s.upWith fun p => p.ledger && p.owner && !p.closing && p.healthy && p.node = "546051"

theorem Sys.readable_operations {s : Sys} (h : s.readable = true) (n : ℕ) {offset : ℕ}
    (ho : offset < 2 ^ 63) :
    ∃ p env, s.life = .up p ∧
      Api.operations p s.table n offset env = .ok (list s.table "546051" n offset) := by
  obtain ⟨p, hp, hchecks⟩ := Sys.exists_up h
  simp only [Bool.and_eq_true, Bool.not_eq_true', decide_eq_true_eq] at hchecks
  obtain ⟨⟨⟨⟨hledger, howner⟩, hclosing⟩, hhealthy⟩, hnode⟩ := hchecks
  have hreq : p.requireLedger = .ok () := by
    simp [Platform.requireLedger, hledger, howner, hclosing, hhealthy]
  refine ⟨p, {}, hp, ?_⟩
  simp only [Api.operations, hreq, hnode]
  rw [if_neg nofun, if_neg (Nat.not_le.mpr ho)]

/-- One operation a page: a second announcement is admitted behind the read of the first page, and the
client ends with the third page, which is empty. It has seen the first announcement. -/
theorem paging_complete_sample : ∃ st : ℕ → Sys,
    (st 0).table.length = 1 ∧ (st 2).table.length = 2 ∧
      ∀ r ∈ (st 0).table, ∃ i ≤ 2, ∃ op ∈ list (st i).table "546051" 1 (i * 1), op.id = r.id := by
  obtain ⟨s, s', hs, hr, hf, hg⟩ := exists_reaches_append "546051" announceRun secondAdmission
    (fun s => (s.readable, s.table.length))
    (fun s => (s.readable, s.table.length, (list s.table "546051" 1 2).length)) (true, 1) (true, 2, 0)
    (by decide +kernel) (by decide +kernel)
  obtain ⟨hup, hlen⟩ := Prod.mk.inj hf
  obtain ⟨hup', hlens⟩ := Prod.mk.inj hg
  obtain ⟨hlen', hempty⟩ := Prod.mk.inj hlens
  have hreader : Reader "546051" 1 2 (fun i => if i = 0 then s else s')
      fun i => list (if i = 0 then s else s').table "546051" 1 (i * 1) := by
    refine ⟨⟨announceRun, hs⟩, fun i hi => ?_, fun i hi => ?_, ?_⟩
    · cases i with
      | zero => exact ⟨secondAdmission, hr⟩
      | succ i => exact ⟨[], rfl⟩
    · cases i with
      | zero => exact Sys.readable_operations hup 1 (by decide)
      | succ i => exact Sys.readable_operations hup' 1 (by omega)
    · exact lt_of_eq_of_lt hempty Nat.one_pos
  obtain ⟨hseen, -⟩ := paging_complete hreader
  refine ⟨fun i => if i = 0 then s else s', hlen, hlen', fun r hr => ?_⟩
  obtain ⟨i, hi, op, hop, hid, -⟩ := hseen r hr
  exact ⟨i, hi, op, hop, hid⟩

end Asl3
