import Mathlib.Data.Rat.Defs
import Mathlib.Data.List.Infix

/-!
# Python values and strings

* `PyValue`: the values a YAML file, a JSON body or a keyword argument can hold;
* `PyValue.truthy`, `PyValue.pyStr`: `bool(v)` and `str(v)`;
* `bind_eq_ok`, `OnlyRaises`: what a sequence of steps returns and raises;
* `partition`, `isSpace`, `lower`, `contains`: the string methods the programs use.

A dict is the list of its entries in insertion order. A float is kept as its exact value and its
`repr`.
-/

set_option autoImplicit false

namespace Py

/-- A Python value. -/
inductive PyValue where
  | none
  | bool (b : Bool)
  | int (i : Int)
  | float (value : Rat) (repr : String)
  | str (s : String)
  | list (xs : List PyValue)
  | dict (entries : List (String × PyValue))

/-- The built-in exceptions the programs raise or catch, with the text of those that are shown. -/
inductive PyError where
  | valueError (text : String)
  | typeError (text : String)
  | keyError (key : String)
  | attributeError
  | runtimeError (text : String)
  | overflowError
  | osError
  | timeoutError
  | incompleteReadError
  | limitOverrunError
  | sqliteError
  | other
  deriving DecidableEq, Repr

/-- A sequence of two steps returns when both do. -/
theorem bind_eq_ok {ε α β : Type} {x : Except ε α} {f : α → Except ε β} {b : β} :
    (x >>= f) = .ok b ↔ ∃ a, x = .ok a ∧ f a = .ok b := by
  cases x <;> simp [bind, Except.bind]

/-- What follows `raise` does not run. -/
theorem throw_bind {ε α β : Type} {e : ε} {f : α → Except ε β} :
    ((throw e : Except ε α) >>= f) = throw e := rfl

/-- A check that raises, and what follows it. -/
theorem check_eq_ok {ε β : Type} {p : Prop} [Decidable p] {e : ε} {x : Except ε β} {b : β} :
    (if p then throw e else x) = .ok b ↔ ¬ p ∧ x = .ok b := by
  by_cases hp : p
  · rw [if_pos hp]
    exact ⟨nofun, fun h => absurd hp h.1⟩
  · rw [if_neg hp]
    exact (and_iff_right hp).symm

/-- A computation that raises nothing but `E`. -/
def OnlyRaises {ε α : Type} (E : ε → Prop) (x : Except ε α) : Prop := ∀ e, x = .error e → E e

section

variable {ε α β : Type} {E : ε → Prop}

theorem OnlyRaises.ok {a : α} : OnlyRaises E (.ok a) := by
  rintro e ⟨⟩

theorem OnlyRaises.error {e : ε} (h : E e) : OnlyRaises E (.error e : Except ε α) := by
  rintro e' ⟨⟩
  exact h

/-- A sequence raises what its steps do. -/
theorem OnlyRaises.bind {x : Except ε α} {f : α → Except ε β} (hx : OnlyRaises E x)
    (hf : ∀ a, OnlyRaises E (f a)) : OnlyRaises E (x >>= f) := by
  intro e h
  cases x with
  | error e' =>
    cases h
    exact hx e rfl
  | ok a => exact hf a e h

theorem OnlyRaises.map {x : Except ε α} {f : α → β} (hx : OnlyRaises E x) :
    OnlyRaises E (x.map f) := by
  intro e h
  cases x with
  | error e' =>
    cases h
    exact hx e rfl
  | ok a => cases h

end

/-! ## Strings -/

/-- `text.partition(sep)`: the head, whether `sep` was found, and the tail. -/
def partition (sep : Char) : List Char → List Char × Bool × List Char
  | [] => ([], false, [])
  | c :: cs =>
    if c = sep then ([], true, cs)
    else let (head, found, tail) := partition sep cs; (c :: head, found, tail)

theorem partition_append {sep : Char} {head tail : List Char} (h : sep ∉ head) :
    partition sep (head ++ sep :: tail) = (head, true, tail) := by
  induction head with
  | nil => simp [partition]
  | cons c cs ih =>
    rw [List.mem_cons, not_or] at h
    rw [List.cons_append, partition, if_neg (Ne.symm h.1), ih h.2]

/-- A separator that is found stands between the head and the tail. -/
theorem partition_found {sep : Char} {text head tail : List Char}
    (h : partition sep text = (head, true, tail)) : text = head ++ sep :: tail := by
  induction text generalizing head with
  | nil => cases h
  | cons c cs ih =>
    rw [partition] at h
    by_cases hc : c = sep
    · rw [if_pos hc] at h
      cases h
      rw [hc]
      rfl
    · rw [if_neg hc] at h
      rcases hp : partition sep cs with ⟨head', found, tail'⟩
      rw [hp] at h
      cases h
      rw [ih hp]
      rfl

/-- The head holds no separator. -/
theorem partition_head {sep : Char} {text head tail : List Char} {found : Bool}
    (h : partition sep text = (head, found, tail)) : sep ∉ head := by
  induction text generalizing head with
  | nil =>
    cases h
    exact List.not_mem_nil
  | cons c cs ih =>
    rw [partition] at h
    by_cases hc : c = sep
    · rw [if_pos hc] at h
      cases h
      exact List.not_mem_nil
    · rw [if_neg hc] at h
      rcases hp : partition sep cs with ⟨head', found', tail'⟩
      rw [hp] at h
      cases h
      exact List.not_mem_cons_of_ne_of_not_mem (Ne.symm hc) (ih hp)

/-- ASCII white space, the class `\s` of an ASCII pattern. -/
def isSpace (c : Char) : Bool :=
  c = ' ' || c = '\t' || c = '\n' || c = '\r' || c = '\x0b' || c = '\x0c'

/-- The class `[0-9]`. -/
def isDigit (c : Char) : Bool := '0' ≤ c && c ≤ '9'

/-- `char.lower()`. The letters outside ASCII that lower to an ASCII letter are U+0130 and U+212A;
every other one lowers to letters outside ASCII and stands for itself here, which no comparison
with an ASCII text can tell. -/
def lowerChar (c : Char) : List Char :=
  if 'A' ≤ c ∧ c ≤ 'Z' then [Char.ofNat (c.toNat + 32)]
  else if c = '\u0130' then ['i', '\u0307']
  else if c = '\u212a' then ['k']
  else [c]

/-- `text.lower()`. -/
def lower (text : String) : String := String.ofList (text.toList.flatMap lowerChar)

/-- `needle in text`. -/
def contains (text needle : String) : Bool := decide (needle.toList <:+: text.toList)

/-- The value of a decimal numeral. -/
def parseNat (digits : List Char) : Nat :=
  digits.foldl (fun n c => 10 * n + (c.toNat - '0'.toNat)) 0

/-- What `int` says of a text of `n` digits, when it does not read so many. -/
def excessDigits (n : Nat) : String :=
  s!"Exceeds the limit (4300 digits) for integer string conversion: value has {n} digits; " ++
    "use sys.set_int_max_str_digits() to increase the limit"

/-- `sep.join(parts)`. -/
def join (sep : List Char) : List (List Char) → List Char
  | [] => []
  | [x] => x
  | x :: y :: xs => x ++ sep ++ join sep (y :: xs)

/-- `repr` of a string. Characters outside ASCII stand for themselves. -/
def reprStr (s : String) : List Char :=
  let q := if '\'' ∈ s.toList ∧ '"' ∉ s.toList then '"' else '\''
  q :: s.toList.flatMap (fun c =>
    if c = q ∨ c = '\\' then ['\\', c]
    else if c = '\n' then ['\\', 'n'] else if c = '\r' then ['\\', 'r']
    else if c = '\t' then ['\\', 't']
    else if c.toNat < 32 ∨ c.toNat = 127 then
      ['\\', 'x', Nat.digitChar (c.toNat / 16), Nat.digitChar (c.toNat % 16)]
    else [c]) ++ [q]

namespace PyValue

mutual

/-- `repr(v)`. -/
def pyRepr : PyValue → List Char
  | .none => "None".toList
  | .bool b => (if b then "True" else "False").toList
  | .int i => (toString i).toList
  | .float _ r => r.toList
  | .str s => reprStr s
  | .list xs => '[' :: join ", ".toList (reprList xs) ++ [']']
  | .dict es => '{' :: join ", ".toList (reprEntries es) ++ ['}']

def reprList : List PyValue → List (List Char)
  | [] => []
  | x :: xs => pyRepr x :: reprList xs

def reprEntries : List (String × PyValue) → List (List Char)
  | [] => []
  | (k, v) :: es => (reprStr k ++ ": ".toList ++ pyRepr v) :: reprEntries es

end

/-- `str(v)`. -/
def pyStr : PyValue → String
  | .str s => s
  | v => String.ofList v.pyRepr

/-- `bool(v)`. -/
def truthy : PyValue → Bool
  | .none => false
  | .bool b => b
  | .int i => i ≠ 0
  | .float q _ => q ≠ 0
  | .str s => s ≠ ""
  | .list xs => !xs.isEmpty
  | .dict es => !es.isEmpty

/-- Whether `hash(v)` is defined, as membership in a set needs. -/
def hashable : PyValue → Bool
  | .list _ => false
  | .dict _ => false
  | _ => true

end PyValue

end Py
