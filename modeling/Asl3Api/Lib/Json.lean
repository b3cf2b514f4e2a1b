import Mathlib.Data.List.Sort
import Mathlib.Data.String.Basic
import Asl3Api.Lib.PyValue

/-!
# Canonical JSON text

The text `json.dumps(value, sort_keys=True, separators=(",", ":"))` makes of a Python value, with
every character outside printable ASCII escaped.

* `escape`, `quote`, `dumps`: the encoder;
* `decode`, `decode_escape`: an escape can be read back, so escapes form a prefix code
  (`escape_append_inj`) and quoted strings delimit themselves (`quote_append_inj`);
* `StrDict`, **`dumps_strDict_inj`**: two dicts of strings have one text exactly when they hold
  the same value under every key.
-/

set_option autoImplicit false

namespace Py

/-! ## The encoder -/

/-- The hexadecimal digit of `n < 16`. -/
def hexDigit (n : Nat) : Char := if n < 10 then Char.ofNat (48 + n) else Char.ofNat (87 + n)

/-- `'%04x' % n`. -/
def hex4 (n : Nat) : List Char :=
  [hexDigit (n / 4096 % 16), hexDigit (n / 256 % 16), hexDigit (n / 16 % 16), hexDigit (n % 16)]

/-- A character inside a JSON string, as `ensure_ascii` writes it: a character above U+FFFF is a
surrogate pair. -/
def escape (c : Char) : List Char :=
  if c = '"' then ['\\', '"']
  else if c = '\\' then ['\\', '\\']
  else if c = '\n' then ['\\', 'n']
  else if c = '\r' then ['\\', 'r']
  else if c = '\t' then ['\\', 't']
  else if c = '\x0c' then ['\\', 'f']
  else if c = '\x08' then ['\\', 'b']
  else if 32 ≤ c.toNat ∧ c.toNat ≤ 126 then [c]
  else if c.toNat < 0x10000 then '\\' :: 'u' :: hex4 c.toNat
  else '\\' :: 'u' :: hex4 (0xd800 + (c.toNat - 0x10000) / 1024) ++
    '\\' :: 'u' :: hex4 (0xdc00 + (c.toNat - 0x10000) % 1024)

/-- A JSON string. -/
def quote (s : String) : List Char := '"' :: s.toList.flatMap escape ++ ['"']

/-- One member of a JSON object. -/
def member (entry : String × List Char) : List Char := quote entry.1 ++ ':' :: entry.2

/-- `sort_keys=True`. -/
def sortKeys {β : Type*} (entries : List (String × β)) : List (String × β) :=
  entries.insertionSort fun x y => x.1 ≤ y.1

mutual

/-- `json.dumps(value, sort_keys=True, separators=(",", ":"))`. -/
def dumps : PyValue → List Char
  | .none => "null".toList
  | .bool b => (if b then "true" else "false").toList
  | .int i => (toString i).toList
  | .float _ r => r.toList
  | .str s => quote s
  | .list xs => '[' :: join [','] (dumpsList xs) ++ [']']
  | .dict es => '{' :: join [','] ((sortKeys (dumpsEntries es)).map member) ++ ['}']

def dumpsList : List PyValue → List (List Char)
  | [] => []
  | x :: xs => dumps x :: dumpsList xs

def dumpsEntries : List (String × PyValue) → List (String × List Char)
  | [] => []
  | (k, v) :: es => (k, dumps v) :: dumpsEntries es

end

/-! ## Escapes are a prefix code -/

/-- The value of a hexadecimal digit. -/
def hexValue (c : Char) : Nat := if c.toNat < 58 then c.toNat - 48 else c.toNat - 87

/-- The value of four hexadecimal digits. -/
def unhex4 (a b c d : Char) : Nat :=
  4096 * hexValue a + 256 * hexValue b + 16 * hexValue c + hexValue d

theorem hexValue_hexDigit {n : Nat} (hn : n < 16) : hexValue (hexDigit n) = n := by
  have h : ∀ m : Fin 16, hexValue (hexDigit m) = m := by decide
  exact h ⟨n, hn⟩

theorem unhex4_hex4 {n : Nat} (hn : n < 65536) :
    unhex4 (hexDigit (n / 4096 % 16)) (hexDigit (n / 256 % 16)) (hexDigit (n / 16 % 16))
      (hexDigit (n % 16)) = n := by
  unfold unhex4
  rw [hexValue_hexDigit (by omega), hexValue_hexDigit (by omega), hexValue_hexDigit (by omega),
    hexValue_hexDigit (by omega)]
  omega

/-- Read one character of a JSON string: its code point and the rest of the text. -/
def decode : List Char → Option (Nat × List Char)
  | [] => none
  | c :: u =>
    if c ≠ '\\' then some (c.toNat, u)
    else match u with
      | '"' :: v => some (34, v)
      | '\\' :: v => some (92, v)
      | 'n' :: v => some (10, v)
      | 'r' :: v => some (13, v)
      | 't' :: v => some (9, v)
      | 'f' :: v => some (12, v)
      | 'b' :: v => some (8, v)
      | 'u' :: a :: b :: c :: d :: v =>
        if 0xd800 ≤ unhex4 a b c d ∧ unhex4 a b c d < 0xdc00 then
          match v with
          | _ :: _ :: a' :: b' :: c' :: d' :: w =>
            some (0x10000 + (unhex4 a b c d - 0xd800) * 1024 + (unhex4 a' b' c' d' - 0xdc00), w)
          | _ => none
        else some (unhex4 a b c d, v)
      | _ => none

theorem char_range (c : Char) :
    c.toNat < 0xd800 ∨ 0xdfff < c.toNat ∧ c.toNat < 0x110000 := by
  have h := c.valid
  simp only [UInt32.isValidChar, Nat.isValidChar] at h
  exact h

/-- **An escape can be read back.** -/
theorem decode_escape (c : Char) (u : List Char) :
    decode (escape c ++ u) = some (c.toNat, u) := by
  have hc := char_range c
  unfold escape
  split_ifs with h1 h2 h3 h4 h5 h6 h7 h8 h9
  · subst h1; rfl
  · subst h2; rfl
  · subst h3; rfl
  · subst h4; rfl
  · subst h5; rfl
  · subst h6; rfl
  · subst h7; rfl
  · simp [decode, h2]
  · have hu := unhex4_hex4 (n := c.toNat) (by omega)
    simp only [hex4, List.cons_append, List.nil_append, decode, ne_eq, not_true_eq_false, if_false,
      hu]
    rw [if_neg (by omega)]
  · have hh := unhex4_hex4 (n := 0xd800 + (c.toNat - 0x10000) / 1024) (by omega)
    have hl := unhex4_hex4 (n := 0xdc00 + (c.toNat - 0x10000) % 1024) (by omega)
    simp only [hex4, List.cons_append, List.nil_append, decode, ne_eq, not_true_eq_false, if_false,
      hh, hl]
    rw [if_pos (by omega)]
    simp only [Option.some.injEq, Prod.mk.injEq, and_true]
    omega

theorem escape_append_inj {c c' : Char} {u u' : List Char}
    (h : escape c ++ u = escape c' ++ u') : c = c' ∧ u = u' := by
  have hd := decode_escape c u
  rw [h, decode_escape] at hd
  simp only [Option.some.injEq, Prod.mk.injEq] at hd
  exact ⟨(Char.toNat_inj.mp hd.1).symm, hd.2.symm⟩

/-- No escape begins with a quotation mark. -/
theorem escape_ne_quote (c : Char) (u v : List Char) : escape c ++ u ≠ '"' :: v := by
  unfold escape
  split_ifs with h1 <;> simp [h1]

theorem flatMap_escape_inj {cs cs' u u' : List Char}
    (h : cs.flatMap escape ++ '"' :: u = cs'.flatMap escape ++ '"' :: u') : cs = cs' ∧ u = u' := by
  induction cs generalizing cs' with
  | nil =>
    cases cs' with
    | nil => exact ⟨rfl, by simpa using h⟩
    | cons c' cs' =>
      rw [List.flatMap_cons, List.append_assoc] at h
      exact absurd h.symm (escape_ne_quote c' _ _)
  | cons c cs ih =>
    cases cs' with
    | nil =>
      rw [List.flatMap_cons, List.append_assoc] at h
      exact absurd h (escape_ne_quote c _ _)
    | cons c' cs' =>
      rw [List.flatMap_cons, List.flatMap_cons, List.append_assoc, List.append_assoc] at h
      obtain ⟨rfl, h'⟩ := escape_append_inj h
      obtain ⟨rfl, rfl⟩ := ih h'
      exact ⟨rfl, rfl⟩

/-- **A quoted string delimits itself.** -/
theorem quote_append_inj {s s' : String} {u u' : List Char} (h : quote s ++ u = quote s' ++ u') :
    s = s' ∧ u = u' := by
  simp only [quote, List.cons_append, List.cons.injEq, true_and, List.append_assoc,
    List.nil_append] at h
  obtain ⟨hs, hu⟩ := flatMap_escape_inj h
  exact ⟨String.toList_inj.mp hs, hu⟩

/-! ## Dicts of strings -/

/-- A dict whose values are strings: no key occurs twice. -/
structure StrDict where
  entries : List (String × String)
  nodup : (entries.map Prod.fst).Nodup

namespace StrDict

/-- The dict as a Python value. -/
def toEntries (d : StrDict) : List (String × PyValue) := d.entries.map fun e => (e.1, .str e.2)

/-- `d.get(key)`. -/
def get (d : StrDict) (key : String) : Option String := d.entries.lookup key

theorem get_eq_some {d : StrDict} {k v : String} : d.get k = some v ↔ (k, v) ∈ d.entries := by
  obtain ⟨es, hn⟩ := d
  unfold get
  dsimp only
  induction es with
  | nil => simp
  | cons e es ih =>
    obtain ⟨k', v'⟩ := e
    simp only [List.map_cons, List.nodup_cons, List.mem_map, Prod.exists, exists_and_right,
      exists_eq_right, not_exists] at hn
    rw [List.lookup_cons]
    by_cases hk : k = k'
    · subst hk
      simp only [beq_self_eq_true, List.mem_cons, Prod.mk.injEq, true_and, Option.some.injEq]
      constructor
      · rintro rfl; exact Or.inl rfl
      · rintro (rfl | h)
        · rfl
        · exact absurd h (hn.1 v)
    · rw [beq_eq_false_iff_ne.mpr hk]
      simp [hk, ih hn.2]

/-- The same keys with the same values, in any order: `d == d'`. -/
def Equal (d d' : StrDict) : Prop := ∀ key, d.get key = d'.get key

theorem equal_iff_perm {d d' : StrDict} : d.Equal d' ↔ d.entries.Perm d'.entries := by
  have hmem : d.Equal d' ↔ ∀ e, e ∈ d.entries ↔ e ∈ d'.entries := by
    constructor
    · rintro h ⟨k, v⟩
      rw [← get_eq_some, ← get_eq_some, h k]
    · intro h k
      refine Option.ext fun v => ?_
      rw [get_eq_some, get_eq_some, h]
  rw [hmem, List.perm_ext_iff_of_nodup d.nodup.of_map d'.nodup.of_map]

end StrDict

theorem dumpsEntries_str (es : List (String × String)) :
    dumpsEntries (es.map fun e => (e.1, .str e.2)) = es.map fun e => (e.1, quote e.2) := by
  induction es with
  | nil => rfl
  | cons e es ih =>
    rw [List.map_cons, dumpsEntries, ih]
    rfl

theorem sortKeys_map {β γ : Type*} (f : β → γ) (es : List (String × β)) :
    sortKeys (es.map fun e => (e.1, f e.2)) = (sortKeys es).map fun e => (e.1, f e.2) :=
  (List.map_insertionSort _ _ (fun e : String × β => (e.1, f e.2)) es fun _ _ _ _ => Iff.rfl).symm

theorem perm_sortKeys {β : Type*} (es : List (String × β)) : (sortKeys es).Perm es :=
  List.perm_insertionSort _ _

/-- Sorting makes one list of every order of the same entries. -/
theorem sortKeys_eq_of_perm {β : Type*} {es es' : List (String × β)} (h : es.Perm es')
    (hn : (es.map Prod.fst).Nodup) : sortKeys es = sortKeys es' := by
  have hs : ∀ l : List (String × β), (sortKeys l).Pairwise fun x y => x.1 ≤ y.1 := fun l =>
    have : Std.Total fun x y : String × β => x.1 ≤ y.1 := ⟨fun x y => le_total x.1 y.1⟩
    have : IsTrans (String × β) fun x y => x.1 ≤ y.1 := ⟨fun _ _ _ h h' => le_trans h h'⟩
    List.pairwise_insertionSort _ l
  have hp : (sortKeys es).Perm (sortKeys es') :=
    (perm_sortKeys es).trans (h.trans (perm_sortKeys es').symm)
  refine hp.eq_of_pairwise (fun x y hx hy hxy hyx => ?_) (hs es) (hs es')
  -- two entries with one key are one entry
  have hx' : x ∈ es := (perm_sortKeys es).mem_iff.mp hx
  have hy' : y ∈ es := h.mem_iff.mpr ((perm_sortKeys es').mem_iff.mp hy)
  exact List.inj_on_of_nodup_map hn hx' hy' (le_antisymm hxy hyx)

/-- The members of an object, up to its closing brace, delimit themselves. -/
theorem join_member_inj {es es' : List (String × String)} {u u' : List Char}
    (h : join [','] (es.map fun e => member (e.1, quote e.2)) ++ '}' :: u =
      join [','] (es'.map fun e => member (e.1, quote e.2)) ++ '}' :: u') :
    es = es' ∧ u = u' := by
  have first : ∀ (e e' : String × String) (v v' : List Char),
      member (e.1, quote e.2) ++ v = member (e'.1, quote e'.2) ++ v' → e = e' ∧ v = v' := by
    rintro ⟨k, x⟩ ⟨k', x'⟩ v v' h
    simp only [member, List.append_assoc, List.cons_append] at h
    obtain ⟨rfl, h'⟩ := quote_append_inj h
    obtain ⟨rfl, rfl⟩ := quote_append_inj (List.cons.inj h').2
    exact ⟨rfl, rfl⟩
  have start : ∀ (e : String × String) (v w : List Char),
      member (e.1, quote e.2) ++ v ≠ '}' :: w := by
    intro e v w h
    simp [member, quote] at h
  induction es generalizing es' with
  | nil =>
    cases es' with
    | nil => exact ⟨rfl, by simpa [join] using h⟩
    | cons e' es' =>
      cases es' with
      | nil => exact absurd h.symm (start e' _ _)
      | cons f' es' =>
        simp only [List.map_cons, join, List.append_assoc] at h
        exact absurd h.symm (start e' _ _)
  | cons e es ih =>
    cases es with
    | nil =>
      cases es' with
      | nil => exact absurd h (start e _ _)
      | cons e' es' =>
        cases es' with
        | nil =>
          obtain ⟨rfl, h'⟩ := first e e' _ _ h
          exact ⟨rfl, (List.cons.inj h').2⟩
        | cons f' es' =>
          simp only [List.map_cons, List.map_nil, join, List.append_assoc] at h
          obtain ⟨-, h'⟩ := first e e' _ _ h
          exact absurd h' (by simp)
    | cons f es =>
      cases es' with
      | nil =>
        simp only [List.map_cons, join, List.append_assoc] at h
        exact absurd h (start e _ _)
      | cons e' es' =>
        cases es' with
        | nil =>
          simp only [List.map_cons, List.map_nil, join, List.append_assoc] at h
          obtain ⟨-, h'⟩ := first e e' _ _ h
          exact absurd h' (by simp)
        | cons f' es' =>
          simp only [List.map_cons, join, List.append_assoc] at h
          obtain ⟨rfl, h'⟩ := first e e' _ _ h
          obtain ⟨h'', rfl⟩ := @ih (f' :: es') (List.append_cancel_left h')
          exact ⟨by rw [h''], rfl⟩

/-- The text of a dict of strings. -/
theorem dumps_strDict (d : StrDict) :
    dumps (.dict d.toEntries) =
      '{' :: join [','] ((sortKeys d.entries).map fun e => member (e.1, quote e.2)) ++ ['}'] := by
  rw [dumps, StrDict.toEntries, dumpsEntries_str, sortKeys_map, List.map_map]
  rfl

/-- **Dicts of strings have one text exactly when they are equal**, and the text delimits itself. -/
theorem dumps_strDict_inj {d d' : StrDict} {u u' : List Char} :
    dumps (.dict d.toEntries) ++ u = dumps (.dict d'.toEntries) ++ u' ↔ d.Equal d' ∧ u = u' := by
  rw [dumps_strDict, dumps_strDict]
  simp only [List.cons_append, List.cons.injEq, true_and, List.append_assoc, List.nil_append]
  constructor
  · intro h
    obtain ⟨hs, hu⟩ := join_member_inj h
    have hp : d.entries.Perm d'.entries :=
      (perm_sortKeys d.entries).symm.trans (hs ▸ perm_sortKeys d'.entries)
    exact ⟨StrDict.equal_iff_perm.mpr hp, hu⟩
  · rintro ⟨h, rfl⟩
    rw [sortKeys_eq_of_perm (StrDict.equal_iff_perm.mp h) d.nodup]

end Py
