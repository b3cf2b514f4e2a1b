import Mathlib.Data.List.Perm.Basic
import Asl3Api.Lib.Dict
import Asl3Api.Vnext.Auth

/-!
# Authentication as a whole (`vnext/api.py`)

* `Credential`, `Credential.Reads`: what an entry of the configured list says;
* `answer`, `authenticateIn_eq`: the loop of `authenticate` finds the credential with the key;
* `Config.Valid.reads`: `validate` has read the whole list, unless the single legacy key is no text;
* `Decides`, **`authenticate_decides`**: when authentication is total and unambiguous.

Texts are sequences of Unicode scalar values, so each has an encoding.
-/

set_option autoImplicit false

namespace Asl3

open Py

/-- The two authorities. -/
inductive Authority where
  | observe
  | control
  deriving DecidableEq, Repr

/-- The text of an authority. -/
def Authority.text : Authority → String
  | observe => "observe"
  | control => "control"

/-- A configured credential. -/
structure Credential where
  name : String
  key : String
  authority : List String

/-- The authority is in the list of the credential, or it is contained in control. -/
def Credential.grants (c : Credential) (a : Authority) : Bool :=
  a.text ∈ c.authority || (a = .observe && "control" ∈ c.authority)

/-- The entry says what the credential is. -/
structure Credential.Reads (entry : PyValue) (c : Credential) : Prop where
  fields : ∃ es, entry = .dict es ∧ es.lookup "name" = some (.str c.name) ∧
    es.lookup "key" = some (.str c.key) ∧
    es.lookup "authority" = some (.list (c.authority.map .str))

namespace Api

/-- The credential with the presented key decides. -/
def answer (cs : List Credential) (key : String) (a : Authority) : Except Error PyValue :=
  match cs.find? fun c => c.key = key with
  | none => .error (.problem authenticationRequired)
  | some c => if c.grants a then .ok (.str c.name) else .error (.problem authorityDenied)

theorem inAllowed_texts (scope : String) (texts : List String) :
    inAllowed scope (.list (texts.map .str)) = .ok (decide (scope ∈ texts)) := by
  rw [inAllowed, List.any_map]
  congr 1
  rw [Bool.eq_iff_iff, List.any_eq_true, decide_eq_true_eq]
  constructor
  · rintro ⟨x, hx, hs⟩
    rwa [← of_decide_eq_true hs]
  · exact fun hm => ⟨scope, hm, decide_eq_true rfl⟩

theorem granted_texts (a : Authority) (c : Credential) :
    granted a.text (.list (c.authority.map .str)) = .ok (c.grants a) := by
  rw [granted, inAllowed_texts]
  by_cases h : a.text ∈ c.authority
  · rw [decide_eq_true h]
    simp [Credential.grants, h]
  · rw [decide_eq_false h]
    cases a with
    | observe =>
      dsimp only
      rw [if_pos (show Authority.observe.text = "observe" from rfl), inAllowed_texts]
      simp [Credential.grants, h]
    | control =>
      have hc : "control" ∉ c.authority := h
      simp [Credential.grants, hc, Authority.text]

/-- What the entry of a credential grants. -/
theorem grant_reads {es : List (String × PyValue)} {c : Credential} (h : c.Reads (.dict es))
    (a : Authority) : grant es a.text =
      if c.grants a then .ok (.str c.name) else .error (.problem authorityDenied) := by
  obtain ⟨_, hd, hname, -, hauth⟩ := h.fields
  cases hd
  have hsub : subscript es "authority" = .ok (.list (c.authority.map .str)) := by
    rw [subscript, hauth]
  have hsub' : subscript es "name" = .ok (.str c.name) := by
    rw [subscript, hname]
  unfold grant
  rw [hsub]
  simp only [bind, Except.bind, granted_texts]
  split_ifs
  · exact hsub'
  · rfl

/-- **The loop finds the credential with the key.** -/
theorem authenticateIn_eq {entries : List PyValue} {cs : List Credential}
    (h : List.Forall₂ (fun e c => Credential.Reads e c) entries cs) (hne : ∀ c ∈ cs, c.key ≠ "")
    (key : String) (a : Authority) : authenticateIn key a.text entries = answer cs key a := by
  induction h with
  | nil => rfl
  | @cons entry c entries cs hr _ ih =>
    obtain ⟨es, rfl, -, hkey, -⟩ := hr.fields
    have hk : c.key ≠ "" := hne c List.mem_cons_self
    have htrue : (PyValue.str c.key).truthy = true := by simpa [PyValue.truthy] using hk
    rw [authenticateIn, hkey, Option.getD_some, if_pos htrue]
    dsimp only
    by_cases he : key = c.key
    · rw [if_pos he, grant_reads hr, answer, List.find?_cons_of_pos (by simp [he])]
    · rw [if_neg he, ih fun c hc => hne c (List.mem_cons_of_mem _ hc), answer, answer,
        List.find?_cons_of_neg (by simpa using Ne.symm he)]

end Api

/-! ## What `validate` says about the credentials -/

/-- A valid configuration has a key of some sort. -/
theorem Config.Valid.hasKey {cfg : Config} (h : cfg.Valid) :
    cfg.apiKey.truthy = true ∨ (cfg.get "api.credentials" (.list [])).truthy = true := by
  unfold Config.Valid Config.errors at h
  simp only [bind_eq_ok, pure, Except.pure, Except.ok.injEq, List.append_eq_nil_iff] at h
  obtain ⟨-, -, -, -, -, -, ⟨⟨⟨⟨-, hk⟩, -⟩, -⟩, -⟩, -⟩ := h
  split_ifs at hk with ht
  exact Bool.or_eq_true_iff.mp ht

/-- The scopes of a well-formed entry are texts. -/
theorem Config.credentialEntry_reads {entry : PyValue} {name key : String}
    (h : Config.credentialEntry entry = some (name, key)) :
    ∃ c : Credential, c.Reads entry ∧ c.name = name ∧ c.key = key ∧ c.key ≠ "" := by
  obtain ⟨es, scopes, rfl, hname, hkey, hauth, -, hk⟩ := Config.credentialEntry_eq_some h
  have hscopes : ∃ texts : List String, scopes = texts.map .str := by
    unfold Config.credentialEntry at h
    simp only [hname, hkey, hauth] at h
    split_ifs at h with hwf
    have hall := hwf.2.2.2
    clear h hwf hauth
    induction scopes with
    | nil => exact ⟨[], rfl⟩
    | cons x xs ih =>
      rw [List.all_cons, Bool.and_eq_true] at hall
      obtain ⟨texts, rfl⟩ := ih hall.2
      cases x with
      | str s => exact ⟨s :: texts, rfl⟩
      | _ => cases hall.1
  obtain ⟨texts, rfl⟩ := hscopes
  exact ⟨⟨name, key, texts⟩, ⟨es, rfl, hname, hkey, hauth⟩, rfl, rfl, hk⟩

/-- A list of credentials with different names and different keys that the entries say. -/
structure Config.Listed (entries : List PyValue) (cs : List Credential) : Prop where
  reads : List.Forall₂ (fun e c => Credential.Reads e c) entries cs
  names : (cs.map Credential.name).Nodup
  keys : (cs.map Credential.key).Nodup
  nonempty : ∀ c ∈ cs, c.key ≠ ""

/-- **A list without errors** is a list of credentials. -/
theorem Config.listed_of_credentialErrors {names keys : List String} {xs : List PyValue}
    (h : Config.credentialErrors names keys xs = []) : ∃ cs, Config.Listed xs cs ∧
      ∀ c ∈ cs, c.name ∉ names ∧ c.key ∉ keys := by
  induction xs generalizing names keys with
  | nil => exact ⟨[], ⟨.nil, List.nodup_nil, List.nodup_nil, nofun⟩, nofun⟩
  | cons x xs ih =>
    rw [Config.credentialErrors] at h
    cases he : Config.credentialEntry x with
    | none =>
      rw [he] at h
      cases h
    | some nk =>
      obtain ⟨name, key⟩ := nk
      rw [he, List.append_eq_nil_iff] at h
      obtain ⟨hnew, h⟩ := h
      split_ifs at hnew with hseen
      rw [not_or] at hseen
      obtain ⟨c, hr, rfl, rfl, hk⟩ := Config.credentialEntry_reads he
      obtain ⟨cs, hl, hfresh⟩ := ih h
      refine ⟨c :: cs, ⟨.cons hr hl.reads, ?_, ?_, ?_⟩, ?_⟩
      · refine List.nodup_cons.mpr ⟨fun hm => ?_, hl.names⟩
        obtain ⟨d, hd, hdn⟩ := List.mem_map.mp hm
        exact (hfresh d hd).1 (hdn ▸ List.mem_cons_self)
      · refine List.nodup_cons.mpr ⟨fun hm => ?_, hl.keys⟩
        obtain ⟨d, hd, hdk⟩ := List.mem_map.mp hm
        exact (hfresh d hd).2 (hdk ▸ List.mem_cons_self)
      · exact List.forall_mem_cons.mpr ⟨hk, hl.nonempty⟩
      · refine List.forall_mem_cons.mpr ⟨hseen, fun d hd => ?_⟩
        obtain ⟨h1, h2⟩ := hfresh d hd
        exact ⟨fun hm => h1 (List.mem_cons_of_mem _ hm), fun hm => h2 (List.mem_cons_of_mem _ hm)⟩

/-- There are configured credentials, or the single key is a text. -/
def Config.TextKey (cfg : Config) : Prop :=
  (cfg.get "api.credentials" (.list [])).truthy = true ∨ ∃ key, cfg.apiKey = .str key

theorem truthy_list {xs : List PyValue} : (PyValue.list xs).truthy = true ↔ xs ≠ [] := by
  cases xs <;> simp [PyValue.truthy]

/-- **The credentials of a valid configuration.** -/
theorem Config.Valid.listed {cfg : Config} (h : cfg.Valid) (hk : cfg.TextKey) :
    ∃ entries cs, Api.credentials cfg = .list entries ∧ Config.Listed entries cs := by
  obtain ⟨xs, hxs, herr⟩ := h.credentials
  by_cases hne : xs = []
  · -- the legacy key
    have hfalse : ¬ (cfg.get "api.credentials" (.list [])).truthy = true := by
      rw [hxs, hne]
      nofun
    obtain ⟨key, hkey⟩ := hk.resolve_left hfalse
    have hkne : key ≠ "" := by
      have ht := h.hasKey.resolve_right hfalse
      rw [hkey] at ht
      simpa [PyValue.truthy] using ht
    refine ⟨_, [⟨"legacy", key, ["observe", "control"]⟩], if_neg hfalse, ?_, ?_, ?_, ?_⟩
    · refine .cons ⟨_, rfl, rfl, ?_, rfl⟩ .nil
      rw [hkey]
      rfl
    · exact List.nodup_singleton _
    · exact List.nodup_singleton _
    · exact List.forall_mem_singleton.mpr hkne
  · obtain ⟨cs, hl, -⟩ := Config.listed_of_credentialErrors herr
    refine ⟨xs, cs, ?_, hl⟩
    unfold Api.credentials
    simp only [hxs, if_pos (truthy_list.mpr hne)]

/-! ## Total and unambiguous -/

/-- The credential is among those of `credentials`. -/
def Configured (cfg : Config) (c : Credential) : Prop :=
  ∃ entries, Api.credentials cfg = .list entries ∧ ∃ entry ∈ entries, c.Reads entry

/-- Authentication is total and unambiguous. -/
structure Decides (cfg : Config) : Prop where
  /-- The name of the credential with the key, when it grants the authority. -/
  accepts : ∀ c a, Configured cfg c → c.grants a = true →
    Api.authenticate cfg (some c.key) a.text = .ok (.str c.name)
  /-- 403 when it does not. -/
  denies : ∀ c a, Configured cfg c → c.grants a = false →
    Api.authenticate cfg (some c.key) a.text = .error (.problem Api.authorityDenied)
  /-- 401 when there is no such credential. -/
  unknown : ∀ (key : String) (a : Authority), (∀ c, Configured cfg c → c.key ≠ key) →
    Api.authenticate cfg (some key) a.text = .error (.problem Api.authenticationRequired)
  order : ∀ cfg' xs ys, cfg.get "api.credentials" (.list []) = .list xs →
    cfg'.get "api.credentials" (.list []) = .list ys → xs.Perm ys → cfg'.apiKey = cfg.apiKey →
    ∀ (key : Option String) (a : Authority),
      Api.authenticate cfg' key a.text = Api.authenticate cfg key a.text
  names : ∀ (key key' : String) (a a' : Authority) (name : PyValue),
    Api.authenticate cfg (some key) a.text = .ok name →
    Api.authenticate cfg (some key') a'.text = .ok name → key = key'
  control : ∀ key name, Api.authenticate cfg (some key) Authority.control.text = .ok name →
    Api.authenticate cfg (some key) Authority.observe.text = .ok name

section

variable {cfg : Config} {entries : List PyValue} {cs : List Credential}

/-- `authenticate` answers from the credentials. -/
theorem authenticate_eq (hc : Api.credentials cfg = .list entries) (hl : Config.Listed entries cs)
    (key : String) (a : Authority) :
    Api.authenticate cfg (some key) a.text = Api.answer cs key a := by
  unfold Api.authenticate
  dsimp only
  by_cases hk : key = ""
  · have hnone : cs.find? (fun c => c.key = key) = none :=
      List.find?_eq_none.mpr fun c hc => by simpa [hk] using hl.nonempty c hc
    rw [if_pos hk, Api.answer, hnone]
  · rw [if_neg hk, hc]
    exact Api.authenticateIn_eq hl.reads hl.nonempty key a

theorem Credential.Reads.unique {entry : PyValue} {c d : Credential} (hc : c.Reads entry)
    (hd : d.Reads entry) : c = d := by
  obtain ⟨es, rfl, hn, hk, ha⟩ := hc.fields
  obtain ⟨es', he, hn', hk', ha'⟩ := hd.fields
  cases he
  obtain ⟨name, key, authority⟩ := c
  obtain ⟨name', key', authority'⟩ := d
  simp only at hn hk ha hn' hk' ha'
  rw [hn, Option.some.injEq, PyValue.str.injEq] at hn'
  rw [hk, Option.some.injEq, PyValue.str.injEq] at hk'
  rw [ha, Option.some.injEq, PyValue.list.injEq] at ha'
  have hinj : Function.Injective PyValue.str := fun a b h => PyValue.str.inj h
  rw [hn', hk', List.map_injective_iff.mpr hinj ha']

/-- The configured credentials are those of the list. -/
theorem configured_iff (hc : Api.credentials cfg = .list entries) (hl : Config.Listed entries cs)
    {c : Credential} : Configured cfg c ↔ c ∈ cs := by
  constructor
  · rintro ⟨entries', he, entry, hentry, hr⟩
    rw [hc] at he
    cases he
    obtain ⟨d, hd, hr'⟩ := forall₂_mem_left hl.reads hentry
    rwa [hr.unique hr']
  · intro hm
    obtain ⟨entry, hentry, hr⟩ := forall₂_mem_right hl.reads hm
    exact ⟨entries, hc, entry, hentry, hr⟩

theorem answer_eq_ok (hl : Config.Listed entries cs) {key : String} {a : Authority} {v : PyValue}
    (h : Api.answer cs key a = .ok v) : ∃ c ∈ cs, c.key = key ∧ c.grants a = true ∧ v = .str c.name := by
  unfold Api.answer at h
  split at h
  · cases h
  · rename_i c hf
    obtain ⟨hm, hk⟩ := (find?_key hl.keys).mp hf
    split_ifs at h with hg
    cases h
    exact ⟨c, hm, hk, hg, rfl⟩

theorem answer_of_mem (hl : Config.Listed entries cs) {c : Credential} (hm : c ∈ cs) (a : Authority) :
    Api.answer cs c.key a = if c.grants a then .ok (.str c.name)
      else .error (.problem Api.authorityDenied) := by
  rw [Api.answer, (find?_key hl.keys).mpr ⟨hm, rfl⟩]

/-- A list of credentials in another order answers the same. -/
theorem answer_perm (hl : Config.Listed entries cs) {ys : List PyValue} (hp : entries.Perm ys) :
    ∃ ds, Config.Listed ys ds ∧ ∀ key a, Api.answer ds key a = Api.answer cs key a := by
  obtain ⟨ds, hr, hperm⟩ := List.perm_comp_forall₂ hp.symm hl.reads
  refine ⟨ds, ⟨hr, (hperm.map _).nodup_iff.mpr hl.names, (hperm.map _).nodup_iff.mpr hl.keys,
    fun c hc => hl.nonempty c (hperm.mem_iff.mp hc)⟩, fun key a => ?_⟩
  rw [Api.answer, Api.answer, find?_perm hl.keys hperm.symm]

end

/-- **With a list of credentials or a textual key, authentication decides.** -/
theorem Config.Valid.decides {cfg : Config} (hv : cfg.Valid) (hk : cfg.TextKey) : Decides cfg := by
  obtain ⟨entries, cs, hc, hl⟩ := hv.listed hk
  have heq := authenticate_eq hc hl
  have hmem : ∀ {c}, Configured cfg c ↔ c ∈ cs := configured_iff hc hl
  refine ⟨fun c a hcfg hg => ?_, fun c a hcfg hg => ?_, fun key a hno => ?_, ?_, ?_, ?_⟩
  · rw [heq, answer_of_mem hl (hmem.mp hcfg), if_pos hg]
  · rw [heq, answer_of_mem hl (hmem.mp hcfg), if_neg (by simp [hg])]
  · have hnone : cs.find? (fun c => c.key = key) = none :=
      List.find?_eq_none.mpr fun c hm => by simpa using hno c (hmem.mpr hm)
    rw [heq, Api.answer, hnone]
  · intro cfg' xs ys hxs hys hp hkey key a
    by_cases hne : xs = []
    · have hnil : ys = [] := by
        rw [hne] at hp
        exact hp.symm.eq_nil
      have hcred : Api.credentials cfg' = Api.credentials cfg := by
        unfold Api.credentials
        rw [hxs, hys, hne, hnil, hkey]
      unfold Api.authenticate
      rw [hcred]
    · have hne' : ys ≠ [] := fun hnil => hne (by rw [hnil] at hp; exact hp.eq_nil)
      have hcred : ∀ {cfg : Config} {zs : List PyValue}, zs ≠ [] →
          cfg.get "api.credentials" (.list []) = .list zs → Api.credentials cfg = .list zs := by
        intro cfg zs hz h
        unfold Api.credentials
        simp only [h, if_pos (truthy_list.mpr hz)]
      rw [hcred hne hxs] at hc
      cases hc
      obtain ⟨ds, hd, hans⟩ := answer_perm hl hp
      cases key with
      | none => rfl
      | some key => rw [heq, authenticate_eq (hcred hne' hys) hd, hans]
  · intro key key' a a' name h h'
    rw [heq] at h h'
    obtain ⟨c, hm, rfl, -, rfl⟩ := answer_eq_ok hl h
    obtain ⟨d, hd, rfl, -, hn⟩ := answer_eq_ok hl h'
    rw [List.inj_on_of_nodup_map hl.names hm hd (PyValue.str.inj hn)]
  · intro key name h
    rw [heq] at h ⊢
    obtain ⟨c, hm, rfl, hg, rfl⟩ := answer_eq_ok hl h
    have hg' : c.grants .observe = true := by
      have hcontrol : "control" ∈ c.authority := by
        rcases Bool.or_eq_true_iff.mp hg with hin | hobserve
        · exact of_decide_eq_true hin
        · cases hobserve
      simp [Credential.grants, hcontrol]
    rw [answer_of_mem hl hm, if_pos hg']

/-- Without a list and without a textual key, every presented key is an `AttributeError`. -/
theorem Config.Valid.authenticate_error {cfg : Config} (hv : cfg.Valid) (hno : ¬ cfg.TextKey) :
    Api.authenticate cfg (some "key") Authority.observe.text =
      .error (.py .attributeError) := by
  obtain ⟨hfalse, hkey⟩ := not_or.mp hno
  have ht := hv.hasKey.resolve_right hfalse
  have hc : Api.credentials cfg = .list [.dict [("name", .str "legacy"), ("key", cfg.apiKey),
      ("authority", .list [.str "observe", .str "control"])]] := if_neg hfalse
  unfold Api.authenticate
  dsimp only
  rw [if_neg (by decide), hc]
  dsimp only [Api.authenticateIn]
  rw [show List.lookup "key" [("name", PyValue.str "legacy"), ("key", cfg.apiKey),
    ("authority", .list [.str "observe", .str "control"])] = some cfg.apiKey from rfl,
    Option.getD_some, if_pos ht]
  cases hk : cfg.apiKey with
  | str s => exact absurd ⟨s, hk⟩ hkey
  | _ => rfl

theorem Config.Valid.textKey {cfg : Config} (hv : cfg.Valid) (hd : Decides cfg) : cfg.TextKey := by
  by_contra hno
  obtain ⟨hfalse, hkey⟩ := not_or.mp hno
  have hc : Api.credentials cfg = .list [.dict [("name", .str "legacy"), ("key", cfg.apiKey),
      ("authority", .list [.str "observe", .str "control"])]] := if_neg hfalse
  have hnone : ∀ c, Configured cfg c → c.key ≠ "key" := by
    rintro c ⟨entries, he, entry, hentry, hr⟩
    rw [hc] at he
    cases he
    obtain ⟨es, hes, -, hk, -⟩ := hr.fields
    rw [List.mem_singleton.mp hentry] at hes
    cases hes
    exact absurd ⟨c.key, Option.some.inj hk⟩ hkey
  have hunknown := hd.unknown "key" .observe hnone
  rw [hv.authenticate_error hno] at hunknown
  cases hunknown

/-- **Authentication is total and unambiguous** in a configuration that `validate` accepts exactly when
it lists credentials, or its single key is a text. -/
theorem authenticate_decides {cfg : Config} {path : String} (h : cfg.validate path = .ok ()) :
    Decides cfg ↔ cfg.TextKey :=
  have hv := Config.validate_eq_ok.mp h
  ⟨hv.textKey, hv.decides⟩

/-- A configuration with a single key. -/
def singleKey (key : PyValue) : Config :=
  ⟨.dict [("node", .dict [("number", .int 546051), ("callsign", .str "KJ5IRQ")]),
    ("ami", .dict [("password", .str "secret")]), ("api", .dict [("api_key", key)])]⟩

/-- A key of digits that YAML reads as a number is accepted by `validate`, and breaks every request. -/
theorem authenticate_number :
    ¬ ∀ (cfg : Config) (path : String), cfg.validate path = .ok () → Decides cfg := by
  intro h
  have hv : (singleKey (.int 12345)).Valid := by decide +kernel
  rcases hv.textKey (h _ "config.yaml" (Config.validate_eq_ok.mpr hv)) with ht | ⟨key, hk⟩
  · exact absurd ht (by decide)
  · cases hk

/-- With a textual key authentication decides. -/
theorem authenticate_text : Decides (singleKey (.str "key")) :=
  have hv : (singleKey (.str "key")).Valid := by decide +kernel
  (@authenticate_decides _ "config.yaml" (Config.validate_eq_ok.mpr hv)).mpr (.inr ⟨"key", rfl⟩)

end Asl3
