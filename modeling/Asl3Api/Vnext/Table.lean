import Asl3Api.Vnext.Ledger

/-!
# The ledger table as a map from ids to documents

* `SameIdentity`: what an update never changes of a document;
* `WF`: ids are distinct, the columns agree with the document, and an idempotency key of a
  credential has one row;
* `WF.get_row`, `WF.keyRow_eq`: the two lookups find the row they look for;
* `get_setDocument`, `get_insert`: the map after an update and after an insertion;
* `WF.setDocument`, `WF.append`: both keep the table well formed;
* `update_of_get`, `startDispatch_eq_ok`, `newOperation_eq_ok`: what one call of the ledger does.
-/

set_option autoImplicit false

namespace Asl3

open Py

/-- The fields of a document that admission fixes. -/
structure SameIdentity (a b : Operation) : Prop where
  id : b.id = a.id
  node : b.node = a.node
  kind : b.kind = a.kind
  request : b.request = a.request
  credential : b.credential = a.credential
  createdAt : b.createdAt = a.createdAt

namespace SameIdentity

theorem refl (a : Operation) : SameIdentity a a := ⟨rfl, rfl, rfl, rfl, rfl, rfl⟩

theorem trans {a b c : Operation} (h : SameIdentity a b) (h' : SameIdentity b c) :
    SameIdentity a c :=
  ⟨h'.id.trans h.id, h'.node.trans h.node, h'.kind.trans h.kind, h'.request.trans h.request,
    h'.credential.trans h.credential, h'.createdAt.trans h.createdAt⟩

theorem merge (a : Operation) (c : Changes) (now : String) : SameIdentity a (a.merge c now) :=
  ⟨rfl, rfl, rfl, rfl, rfl, rfl⟩

end SameIdentity

namespace Ledger

/-- A row whose columns agree with its document. -/
structure Row.Agrees (n : String) (r : Row) : Prop where
  node : r.node = n
  documentId : r.document.id = r.id
  documentNode : r.document.node = n
  credential : r.document.credential = r.credential
  canonical : r.canonical = Ledger.canonical r.document.kind.name (.dict r.document.request)

/-- A well-formed table of one node. -/
structure WF (node : String) (t : Table) : Prop where
  nodup : (t.map Row.id).Nodup
  agrees : ∀ r ∈ t, Row.Agrees node r
  keys : ∀ r ∈ t, ∀ r' ∈ t, r.credential = r'.credential →
    r.idempotencyKey = r'.idempotencyKey → r.idempotencyKey ≠ none → r = r'

variable {node : String} {t : Table}

theorem WF.nil : WF node [] := ⟨List.nodup_nil, by simp, by simp⟩

theorem WF.eq_of_id (h : WF node t) {r r' : Row} (hr : r ∈ t) (hr' : r' ∈ t) (e : r.id = r'.id) :
    r = r' :=
  List.inj_on_of_nodup_map h.nodup hr hr' e

theorem WF.get_row (h : WF node t) {r : Row} (hr : r ∈ t) : get t node r.id = some r.document := by
  unfold get
  have hp : (t.find? fun x => x.id = r.id && x.node = node).isSome := by
    rw [List.find?_isSome]
    exact ⟨r, hr, by simp [(h.agrees r hr).node]⟩
  obtain ⟨x, hx⟩ := Option.isSome_iff_exists.mp hp
  have hid := List.find?_some hx
  simp only [Bool.and_eq_true, decide_eq_true_eq] at hid
  rw [hx, h.eq_of_id (List.mem_of_find?_eq_some hx) hr hid.1]
  rfl

theorem row_of_get {id : String} {doc : Operation} (hd : get t node id = some doc) :
    ∃ r ∈ t, r.id = id ∧ r.node = node ∧ r.document = doc := by
  obtain ⟨r, hr, rfl⟩ := Option.map_eq_some_iff.mp hd
  have hid := List.find?_some hr
  simp only [Bool.and_eq_true, decide_eq_true_eq] at hid
  exact ⟨r, List.mem_of_find?_eq_some hr, hid.1, hid.2, rfl⟩

theorem mem_of_keyRow {credential key : String} {r : Row}
    (h : keyRow t node credential key = some r) :
    r ∈ t ∧ r.node = node ∧ r.credential = credential ∧ r.idempotencyKey = some key := by
  have hp := List.find?_some h
  simp only [Bool.and_eq_true, decide_eq_true_eq] at hp
  exact ⟨List.mem_of_find?_eq_some h, hp.1.1, hp.1.2, hp.2⟩

theorem exists_keyRow {r : Row} (hr : r ∈ t) {key : String} (hk : r.idempotencyKey = some key) :
    ∃ x, keyRow t r.node r.credential key = some x := by
  rw [← Option.isSome_iff_exists]
  unfold keyRow
  rw [List.find?_isSome]
  exact ⟨r, hr, by simp [hk]⟩

/-- The lookup of a key finds its row. -/
theorem WF.keyRow_eq (h : WF node t) {r : Row} (hr : r ∈ t) {key : String}
    (hk : r.idempotencyKey = some key) : keyRow t node r.credential key = some r := by
  obtain ⟨x, hx⟩ := exists_keyRow hr hk
  rw [(h.agrees r hr).node] at hx
  obtain ⟨hmem, -, hc, hxk⟩ := mem_of_keyRow hx
  have hne : x.idempotencyKey ≠ none := by
    rw [hxk]
    exact Option.some_ne_none key
  rw [hx, h.keys x hmem r hr hc (hxk.trans hk.symm) hne]

/-! ## An update -/

theorem mem_setDocument {id : String} {op : Operation} {r' : Row} :
    r' ∈ setDocument t node id op ↔
      ∃ r ∈ t, (if r.id = id && r.node = node then { r with document := op } else r) = r' := by
  unfold setDocument
  exact List.mem_map

theorem ids_setDocument {id : String} {op : Operation} :
    (setDocument t node id op).map Row.id = t.map Row.id := by
  unfold setDocument
  rw [List.map_map]
  refine List.map_congr_left fun r _ => ?_
  by_cases h : (r.id = id && r.node = node) = true <;> simp [Function.comp, h]

/-- The rows after an update: the others, and the row of the id with its new document. -/
theorem WF.setDocument_cases (h : WF node t) {id : String} {op : Operation} {r' : Row}
    (hr' : r' ∈ Ledger.setDocument t node id op) :
    (r' ∈ t ∧ r'.id ≠ id) ∨ ∃ r ∈ t, r.id = id ∧ r' = { r with document := op } := by
  obtain ⟨r, hr, rfl⟩ := Ledger.mem_setDocument.mp hr'
  have hn := (h.agrees r hr).node
  by_cases hi : r.id = id
  · rw [if_pos (by simp [hi, hn])]
    exact Or.inr ⟨r, hr, hi, rfl⟩
  · rw [if_neg (by simp [hi])]
    exact Or.inl ⟨hr, hi⟩

theorem get_setDocument {id id' : String} {doc op : Operation} (hd : get t node id = some doc) :
    get (setDocument t node id op) node id' = if id' = id then some op else get t node id' := by
  have key : ∀ l : Table, get (setDocument l node id op) node id' =
      if id' = id then (get l node id).map fun _ => op else get l node id' := by
    intro l
    induction l with
    | nil => by_cases h : id' = id <;> simp [get, setDocument, h]
    | cons r l ih =>
      unfold get setDocument at ih ⊢
      simp only [List.map_cons, List.find?_cons]
      by_cases hr : (r.id = id && r.node = node) = true
      · simp only [Bool.and_eq_true, decide_eq_true_eq] at hr
        by_cases h : id' = id
        · simp [hr.1, hr.2, h]
        · have hne : ¬ id = id' := fun e => h e.symm
          simp only [if_neg h] at ih ⊢
          simpa [hr.1, hr.2, hne] using ih
      · simp only [hr, if_false, Bool.false_eq_true]
        by_cases h : id' = id
        · subst h
          simp only [if_true] at ih ⊢
          simpa [hr] using ih
        · simp only [if_neg h] at ih ⊢
          by_cases hr' : (r.id = id' && r.node = node) = true
          · simp [hr']
          · simpa [hr'] using ih
  rw [key t, hd]
  rfl

theorem get_setDocument_self {id : String} {doc op : Operation} (hd : get t node id = some doc) :
    get (setDocument t node id op) node id = some op := by
  rw [get_setDocument hd, if_pos rfl]

/-- A document update with the same identity keeps the table well formed. -/
theorem WF.setDocument (h : WF node t) {id : String} {doc op : Operation}
    (hd : get t node id = some doc) (hs : SameIdentity doc op) :
    WF node (setDocument t node id op) := by
  obtain ⟨r₀, hr₀, hid₀, -, hdoc₀⟩ := row_of_get hd
  have same : ∀ r ∈ t, ∀ b : Bool, (r.id = id && r.node = node) = b →
      (if b then { r with document := op } else r).id = r.id ∧
      (if b then { r with document := op } else r).credential = r.credential ∧
      (if b then { r with document := op } else r).idempotencyKey = r.idempotencyKey := by
    rintro r - (_ | _) - <;> exact ⟨rfl, rfl, rfl⟩
  refine ⟨by rw [ids_setDocument]; exact h.nodup, ?_, ?_⟩
  · intro r' hr'
    obtain ⟨r, hr, rfl⟩ := mem_setDocument.mp hr'
    have ha := h.agrees r hr
    by_cases hi : (r.id = id && r.node = node) = true
    · rw [if_pos hi]
      simp only [Bool.and_eq_true, decide_eq_true_eq] at hi
      have e : r = r₀ := h.eq_of_id hr hr₀ (hi.1.trans hid₀.symm)
      have hdoc : doc = r.document := by rw [e, hdoc₀]
      rw [hdoc] at hs
      refine ⟨ha.node, hs.id.trans ha.documentId, hs.node.trans ha.documentNode,
        hs.credential.trans ha.credential, ?_⟩
      show r.canonical = _
      rw [hs.kind, hs.request]
      exact ha.canonical
    · rw [if_neg hi]
      exact ha
  · intro a ha b hb hc hk hn
    obtain ⟨r, hr, rfl⟩ := mem_setDocument.mp ha
    obtain ⟨r', hr', rfl⟩ := mem_setDocument.mp hb
    have h1 := same r hr _ rfl
    have h2 := same r' hr' _ rfl
    rw [h1.2.1, h2.2.1] at hc
    rw [h1.2.2, h2.2.2] at hk
    rw [h1.2.2] at hn
    rw [h.keys r hr r' hr' hc hk hn]

theorem update_of_get {id : String} {doc : Operation} (hd : get t node id = some doc)
    (c : Changes) (env : Env) :
    update t node id c env =
      if env.commitOk then (.ok (doc.merge c env.now), setDocument t node id (doc.merge c env.now))
      else (.error sqliteError, t) := by
  unfold update
  rw [hd]
  cases env.commitOk <;> rfl

/-- **The barrier commits only for a queued operation that is not terminal.** -/
theorem startDispatch_eq_ok {id : String} {env : Env} {op : Operation} {t' : Table}
    (h : startDispatch t node id env = (.ok op, t')) :
    ∃ doc, get t node id = some doc ∧ doc.terminal = false ∧ doc.dispatchStatus = .queued ∧
      env.commitOk = true ∧ op = doc.merge { dispatchStatus := some .dispatchStarted } env.now ∧
      t' = Ledger.setDocument t node id op := by
  unfold startDispatch at h
  by_cases hr : env.readOk = false
  · rw [if_pos hr] at h; cases h
  rw [if_neg hr] at h
  cases hd : get t node id with
  | none => rw [hd] at h; cases h
  | some doc =>
    rw [hd] at h
    by_cases hq : doc.terminal = false ∧ doc.dispatchStatus = .queued
    · simp only [if_pos hq] at h
      rw [update_of_get hd] at h
      by_cases hc : env.commitOk = true
      · rw [if_pos hc] at h
        cases h
        exact ⟨doc, rfl, hq.1, hq.2, hc, rfl, rfl⟩
      · rw [if_neg hc] at h; cases h
    · simp only [if_neg hq] at h; cases h

theorem startDispatch_error {id : String} {env : Env} {e : Error} {t' : Table}
    (h : startDispatch t node id env = (.error e, t')) : t' = t := by
  unfold startDispatch at h
  by_cases hr : env.readOk = false
  · rw [if_pos hr] at h; cases h; rfl
  rw [if_neg hr] at h
  cases hd : get t node id with
  | none => rw [hd] at h; cases h; rfl
  | some doc =>
    rw [hd] at h
    by_cases hq : doc.terminal = false ∧ doc.dispatchStatus = .queued
    · simp only [if_pos hq] at h
      rw [update_of_get hd] at h
      by_cases hc : env.commitOk = true
      · rw [if_pos hc] at h; cases h
      · rw [if_neg hc] at h; cases h; rfl
    · simp only [if_neg hq] at h; cases h; rfl

/-! ## An insertion -/

theorem get_append {row : Row} {id : String} :
    get (t ++ [row]) node id =
      (get t node id).or (if row.id = id && row.node = node then some row.document else none) := by
  unfold get
  rw [List.find?_append]
  by_cases h : (row.id = id && row.node = node) = true
  · cases t.find? fun r => r.id = id && r.node = node <;> simp [h]
  · cases t.find? fun r => r.id = id && r.node = node <;> simp [h]

theorem not_violates {row : Row} (h : violates t row = false) :
    (∀ r ∈ t, r.id ≠ row.id) ∧ ∀ r ∈ t, r.node = row.node → r.credential = row.credential →
      row.idempotencyKey ≠ none → r.idempotencyKey ≠ row.idempotencyKey := by
  unfold violates at h
  rw [List.any_eq_false] at h
  refine ⟨fun r hr e => h r hr (by simp [e]), fun r hr hn hc hk e => h r hr ?_⟩
  have hs : row.idempotencyKey.isSome = true := Option.isSome_iff_ne_none.mpr hk
  simp [hn, hc, hs, e]

/-- A row that violates no constraint has a new id. -/
theorem get_of_not_violates {row : Row} (h : violates t row = false) : get t node row.id = none := by
  cases hg : get t node row.id with
  | none => rfl
  | some doc =>
    obtain ⟨r, hr, hid, -, -⟩ := row_of_get hg
    exact absurd hid ((not_violates h).1 r hr)

/-- The map after the insertion of a row that violates no constraint. -/
theorem get_insert {row : Row} {id : String} (h : violates t row = false) (hn : row.node = node) :
    get (t ++ [row]) node id = if id = row.id then some row.document else get t node id := by
  rw [get_append]
  by_cases hid : id = row.id
  · rw [if_pos hid, hid, get_of_not_violates h]
    simp [hn]
  · have hne : ¬ row.id = id := fun e => hid e.symm
    rw [if_neg hid]
    simp [hne]

/-- An insertion that violates no constraint keeps the table well formed. -/
theorem WF.append (h : WF node t) {row : Row} (hv : violates t row = false)
    (ha : Row.Agrees node row) : WF node (t ++ [row]) := by
  obtain ⟨hid, hkey⟩ := not_violates hv
  refine ⟨?_, ?_, ?_⟩
  · rw [List.map_append, List.nodup_append]
    refine ⟨h.nodup, List.nodup_singleton _, ?_⟩
    intro a ha b hb
    obtain ⟨r, hr, rfl⟩ := List.mem_map.mp ha
    simp only [List.map_cons, List.map_nil, List.mem_singleton] at hb
    rw [hb]
    exact hid r hr
  · intro r hr
    rcases List.mem_append.mp hr with hr | hr
    · exact h.agrees r hr
    · rw [List.mem_singleton.mp hr]; exact ha
  · intro r hr r' hr' hc hk hn
    rcases List.mem_append.mp hr with hr | hr <;> rcases List.mem_append.mp hr' with hr' | hr'
    · exact h.keys r hr r' hr' hc hk hn
    · rw [List.mem_singleton.mp hr'] at hc hk
      exact absurd hk (hkey r hr ((h.agrees r hr).node.trans ha.node.symm) hc (hk ▸ hn))
    · rw [List.mem_singleton.mp hr] at hc hk hn
      exact absurd hk.symm (hkey r' hr' ((h.agrees r' hr').node.trans ha.node.symm) hc.symm hn)
    · rw [List.mem_singleton.mp hr, List.mem_singleton.mp hr']

theorem newOperation_eq_ok {kind credential : String} {request : PyValue} {env : Env}
    {op : Operation} (h : newOperation node kind request credential env = .ok op) :
    kind = op.kind.name ∧ request = .dict op.request ∧ op.id = env.uuid ∧ op.node = node ∧
      op.credential = credential ∧ op.dispatchStatus = .queued ∧ op.effectStatus = .pending ∧
      op.terminal = false ∧ op.evidence = none := by
  unfold newOperation at h
  cases hk : Kind.ofName? kind with
  | none => simp [hk] at h
  | some k =>
    cases request with
    | dict es =>
      simp only [hk] at h
      by_cases hn : isNode node = true
      · rw [if_pos hn] at h
        cases h
        exact ⟨Kind.ofName?_eq_some.mp hk, rfl, rfl, rfl, rfl, rfl, rfl, rfl, rfl⟩
      · rw [if_neg hn] at h; cases h
    | _ => simp [hk] at h

end Ledger

end Asl3
