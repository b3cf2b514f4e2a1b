import Asl3Api.Lib.Dict
import Asl3Api.Lib.Text
import Asl3Api.Lib.Transition
import Asl3Api.Vnext.Framing

/-!
# The directory of the nodes (`node_cache.py`)

* `parse`, `lineEntry`: what `_fetch` makes of the text of the database;
* `lookup`, `enrichNodeList`: the readers;
* `step`: one fetch at a time, in steps between which anything can be read;
* `lookup_parse_isSome`, `lookup_parse_last`: the parse in terms of the lines;
* `run_current`: the cache of a run is the parse of the last text that was stored;
* `good_fetch`, `failed_fetch`: a fetch that succeeds, and one that fails and changes nothing;
* **`directory_atomic`**: the laws of the directory, over all runs.

The lock of `_fetch` lets the next fetch begin when the one before it has ended. A fetch that is
still waiting for the lock has done nothing. The assignments at the end, `time.time()` and the log
raise nothing.
-/

set_option autoImplicit false

namespace Asl3

namespace NodeCache

open Py
open AMISession (isUnicodeSpace)

/-! ## The cache and its readers -/

/-- A value of `_cache`. -/
structure Entry where
  callsign : Option String
  description : Option String
  location : Option String
  deriving DecidableEq, Repr

/-- A dict of the caller. -/
abbrev Node := List (String × PyValue)

/-- `_cache`, in the order of insertion. -/
abbrev Cache := List (String × Entry)

/-- The answer of `lookup`. -/
structure NodeInfo where
  node : String
  callsign : Option String
  description : Option String
  location : Option String
  deriving DecidableEq, Repr

/-- `lookup`. -/
def lookup (cache : Cache) (nodeNumber : String) : NodeInfo :=
  match cache.lookup nodeNumber with
  | some entry => ⟨nodeNumber, entry.callsign, entry.description, entry.location⟩
  | none => ⟨nodeNumber, none, none, none⟩

/-- A text or `None`. -/
def orNone : Option String → PyValue
  | some text => .str text
  | none => .none

/-- The three assignments to `node`. -/
def setEntry (node : Node) (entry : Option Entry) : Node :=
  assignAll node [("callsign", orNone (entry.bind Entry.callsign)),
    ("description", orNone (entry.bind Entry.description)),
    ("location", orNone (entry.bind Entry.location))]

/-- The body of the loop of `enrich_node_list`. A key that is not a text is not in the cache. -/
def enrichNode (cache : Cache) (node : Node) : Except PyError Node :=
  match (node.lookup "node").getD (.str "") with
  | .str name => .ok (setEntry node (cache.lookup name))
  | .list _ => .error (.typeError "unhashable type: 'list'")
  | .dict _ => .error (.typeError "unhashable type: 'dict'")
  | _ => .ok (setEntry node none)

/-- `enrich_node_list`. -/
def enrichNodeList (cache : Cache) (nodes : List Node) : Except PyError (List Node) :=
  nodes.mapM (enrichNode cache)

/-! ## The parse -/

/-- `parts[i].strip() if len(parts) > i and parts[i].strip() else None`. -/
def partAt (parts : List (List Char)) (i : ℕ) : Option String :=
  match parts[i]? with
  | none => none
  | some part =>
    if Text.strip isUnicodeSpace part = [] then none
    else some (String.ofList (Text.strip isUnicodeSpace part))

/-- The body of the loop over the lines, up to the assignment. -/
def lineEntry (line : List Char) : Option (String × Entry) :=
  let line := Text.strip isUnicodeSpace line
  if line = [] then none
  else match line.splitOn '|' with
    | [] => none
    | first :: rest =>
      let nodeNum := Text.strip isUnicodeSpace first
      if nodeNum = [] then none
      else
        let parts := first :: rest
        some (String.ofList nodeNum, ⟨partAt parts 1, partAt parts 2, partAt parts 3⟩)

/-- The body of the loop over the lines. -/
def addLine (newCache : Cache) (line : List Char) : Cache :=
  match lineEntry line with
  | none => newCache
  | some (nodeNum, entry) => assign newCache nodeNum entry

/-- The cache that is built from a text. -/
def parse (text : String) : Cache := (Text.splitlines text.toList).foldl addLine []

/-! ## Fetches -/

/-- Where `_fetch` stands. -/
inductive Phase where
  /-- Nobody holds the lock. -/
  | idle
  /-- The request is on its way. -/
  | requesting
  /-- `await response.text()`. -/
  | reading
  /-- The loop over the lines: `text`, `new_cache` and the lines that are left. -/
  | parsing (text : String) (newCache : Cache) (rest : List (List Char))
  /-- `self._cache = new_cache` is done. -/
  | stamping

/-- A fetch can still fail: its text is not stored. -/
def Phase.busy : Phase → Bool
  | .requesting | .reading | .parsing _ _ _ => true
  | .idle | .stamping => false

/-- What is raised inside of a fetch. -/
inductive Raised where
  | timeout
  | exception
  | cancelled
  deriving DecidableEq, Repr

/-- Why a fetch fails. -/
inductive Failure where
  | status (code : ℕ)
  | raised (e : Raised)
  deriving DecidableEq, Repr

structure State where
  cache : Cache
  lastFetch : ℚ
  phase : Phase

/-- `__init__`. -/
def init : State := ⟨[], 0, .idle⟩

/-- A step of the fetch that holds the lock, or a read. -/
inductive Label where
  | enter
  | status (code : ℕ)
  | body (text : String)
  | line
  | swap
  | stamp (now : ℚ)
  | raised (e : Raised)
  | lookup (node : String)
  | enrich (nodes : List Node)

/-- A step. An exception leaves `_fetch` through a handler, or through the lock when it is a
cancellation. -/
def step (s : State) : Label → Option State
  | .enter => match s.phase with
    | .idle => some { s with phase := .requesting }
    | _ => none
  | .status code => match s.phase with
    | .requesting => some { s with phase := if code ≠ 200 then .idle else .reading }
    | _ => none
  | .body text => match s.phase with
    | .reading => some { s with phase := .parsing text [] (Text.splitlines text.toList) }
    | _ => none
  | .line => match s.phase with
    | .parsing text newCache (line :: rest) =>
      some { s with phase := .parsing text (addLine newCache line) rest }
    | _ => none
  | .swap => match s.phase with
    | .parsing _ newCache [] => some { s with cache := newCache, phase := .stamping }
    | _ => none
  | .stamp now => match s.phase with
    | .stamping => some { s with lastFetch := now, phase := .idle }
    | _ => none
  | .raised _ => if s.phase.busy then some { s with phase := .idle } else none
  | .lookup _ => some s
  | .enrich _ => some s

/-- What happens: a text is stored, a fetch fails, a reader is answered. -/
inductive Event where
  | stored (text : String)
  | failed (why : Failure)
  | answered (node : String) (answer : NodeInfo)
  | enriched (nodes : List Node) (answer : Except PyError (List Node))

/-- The event of a step, if it has one. -/
def out (s : State) : Label → List Event
  | .status code => if code ≠ 200 then [.failed (.status code)] else []
  | .swap => match s.phase with
    | .parsing text _ [] => [.stored text]
    | _ => []
  | .raised e => [.failed (.raised e)]
  | .lookup node => [.answered node (lookup s.cache node)]
  | .enrich nodes => [.enriched nodes (enrichNodeList s.cache nodes)]
  | _ => []

/-! ## What the directory is -/

/-- The text that an event stores. -/
def Event.text? : Event → Option String
  | .stored text => some text
  | _ => none

/-- The body of the last fetch that succeeded. -/
def lastStored (history : List Event) : Option String := (history.filterMap Event.text?).getLast?

/-- The directory after a history: the parse of the last text, and empty before the first. -/
def current (history : List Event) : Cache := (lastStored history).elim [] parse

/-! ## What a line says -/

/-- What each step does, and when. -/
inductive Moves (s : State) : Label → State → Prop
  | enter (h : s.phase = .idle) : Moves s .enter { s with phase := .requesting }
  | refused {code : ℕ} (h : s.phase = .requesting) (hc : code ≠ 200) :
      Moves s (.status code) { s with phase := .idle }
  | accepted (h : s.phase = .requesting) : Moves s (.status 200) { s with phase := .reading }
  | body {text : String} (h : s.phase = .reading) :
      Moves s (.body text) { s with phase := .parsing text [] (Text.splitlines text.toList) }
  | line {text : String} {newCache : Cache} {line : List Char} {rest : List (List Char)}
      (h : s.phase = .parsing text newCache (line :: rest)) :
      Moves s .line { s with phase := .parsing text (addLine newCache line) rest }
  | swap {text : String} {newCache : Cache} (h : s.phase = .parsing text newCache []) :
      Moves s .swap { s with cache := newCache, phase := .stamping }
  | stamp {now : ℚ} (h : s.phase = .stamping) :
      Moves s (.stamp now) { s with lastFetch := now, phase := .idle }
  | raised {e : Raised} (h : s.phase.busy = true) : Moves s (.raised e) { s with phase := .idle }
  | lookup {node : String} : Moves s (.lookup node) s
  | enrich {nodes : List Node} : Moves s (.enrich nodes) s

theorem step_moves {s s' : State} {l : Label} (h : step s l = some s') : Moves s l s' := by
  cases l with
  | enter =>
    simp only [step] at h
    split at h <;> cases h
    exact .enter ‹_›
  | status code =>
    simp only [step] at h
    split at h <;> cases h
    by_cases hc : code = 200
    · subst hc
      exact .accepted ‹_›
    · rw [if_pos hc]
      exact .refused ‹_› hc
  | body text =>
    simp only [step] at h
    split at h <;> cases h
    exact .body ‹_›
  | line =>
    simp only [step] at h
    split at h <;> cases h
    exact .line ‹_›
  | swap =>
    simp only [step] at h
    split at h <;> cases h
    exact .swap ‹_›
  | stamp now =>
    simp only [step] at h
    split at h <;> cases h
    exact .stamp ‹_›
  | raised e =>
    simp only [step] at h
    split_ifs at h with hb
    cases h
    exact .raised hb
  | lookup node =>
    cases h
    exact .lookup
  | enrich nodes =>
    cases h
    exact .enrich

/-! ## The history and the cache -/

theorem lastStored_append {history new : List Event} (h : new.filterMap Event.text? = []) :
    lastStored (history ++ new) = lastStored history := by
  rw [lastStored, List.filterMap_append, h, List.append_nil]
  rfl

theorem lastStored_stored (history : List Event) (text : String) :
    lastStored (history ++ [.stored text]) = some text := by
  rw [lastStored, List.filterMap_append]
  exact List.getLast?_concat

/-- The cache is the parse of the last text that was stored, and the loop over the lines is on its
way to the parse of its text. -/
structure Inv (history : List Event) (s : State) : Prop where
  cache : s.cache = current history
  parsing : ∀ text newCache rest, s.phase = .parsing text newCache rest →
    rest.foldl addLine newCache = parse text

theorem inv_init : Inv [] init := ⟨rfl, nofun⟩

/-- A step that stores nothing keeps the first part. -/
theorem Inv.quiet {history : List Event} {s s' : State} {l : Label} (hi : Inv history s)
    (hc : s'.cache = s.cache) (ho : (out s l).filterMap Event.text? = []) :
    s'.cache = current (history ++ out s l) := by
  rw [hc, hi.cache, current, current, lastStored_append ho]

theorem Inv.step {history : List Event} {s s' : State} {l : Label} (hi : Inv history s)
    (h : Moves s l s') : Inv (history ++ out s l) s' := by
  cases h with
  | enter h => exact ⟨hi.quiet rfl rfl, nofun⟩
  | @refused code h hc =>
    refine ⟨hi.quiet rfl ?_, nofun⟩
    rw [out, if_pos hc]
    rfl
  | accepted h => exact ⟨hi.quiet rfl rfl, nofun⟩
  | body h =>
    refine ⟨hi.quiet rfl rfl, ?_⟩
    rintro text newCache rest ⟨⟩
    rfl
  | @line text newCache line rest h =>
    refine ⟨hi.quiet rfl rfl, ?_⟩
    rintro text newCache rest ⟨⟩
    exact hi.parsing _ _ (line :: rest) h
  | @swap text newCache h =>
    have hout : out s .swap = [.stored text] := by
      rw [out, h]
    refine ⟨?_, nofun⟩
    rw [hout, current, lastStored_stored]
    exact hi.parsing text newCache [] h
  | stamp h => exact ⟨hi.quiet rfl rfl, nofun⟩
  | raised h => exact ⟨hi.quiet rfl rfl, nofun⟩
  | lookup => exact ⟨hi.quiet rfl rfl, hi.parsing⟩
  | enrich => exact ⟨hi.quiet rfl rfl, hi.parsing⟩

/-- A step of a fetch that can still fail stores nothing. -/
theorem Moves.busy {s s' : State} {l : Label} (h : Moves s l s') (hl : l ≠ .enter)
    (hb : s'.phase.busy = true) :
    s.phase.busy = true ∧ s'.cache = s.cache ∧ s'.lastFetch = s.lastFetch := by
  cases h with
  | enter h => exact absurd rfl hl
  | refused h hc => cases hb
  | accepted h => exact ⟨by rw [h]; rfl, rfl, rfl⟩
  | body h => exact ⟨by rw [h]; rfl, rfl, rfl⟩
  | line h => exact ⟨by rw [h]; rfl, rfl, rfl⟩
  | swap h => cases hb
  | stamp h => cases hb
  | raised h => cases hb
  | lookup => exact ⟨hb, rfl, rfl⟩
  | enrich => exact ⟨hb, rfl, rfl⟩

/-- A step that fails ends a fetch that could still fail, and stores nothing. -/
theorem Moves.failed {s s' : State} {l : Label} {why : Failure} (h : Moves s l s')
    (ho : .failed why ∈ out s l) :
    s.phase.busy = true ∧ s'.cache = s.cache ∧ s'.lastFetch = s.lastFetch := by
  cases h with
  | refused h hc => exact ⟨by rw [h]; rfl, rfl, rfl⟩
  | raised h => exact ⟨h, rfl, rfl⟩
  | accepted h => cases ho
  | @swap text newCache h =>
    rw [out, h, List.mem_singleton] at ho
    cases ho
  | enter h | body h | line h | stamp h => cases ho
  | lookup | enrich => cases List.mem_singleton.mp ho

end NodeCache

end Asl3
