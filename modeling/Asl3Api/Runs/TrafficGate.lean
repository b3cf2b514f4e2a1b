import Asl3Api.Runs.ControlWrite
import Asl3Api.Vnext.Evidence

/-!
# The traffic gate

* `gated_of_write`: before every control write, and before its barrier, the same execution took a
  snapshot that let it through;
* **`control_writes_gated`**: the gate, and what the default policy makes of it.
-/

set_option autoImplicit false

namespace Asl3

open Py Ledger

variable {node : String} {ls : List Label} {s s' : Sys} {id actionId payload : String}

/-- The worker that writes has been let through, and its row is the operation it writes. -/
theorem gated_of_write (h : Reaches node ls s) {l : Label} (hs : s.step node l = some s')
    (hw : .wrote id actionId payload ∈ s.output l) :
    ∃ p doc es, s.life = .up p ∧ p.config.Valid ∧ get s.table node id = some doc ∧
      history node ls = es ++ [.crossed id] ∧ Gated p.config node es doc ∧ doc.id = id := by
  have hi := reaches_inv h
  obtain ⟨p, w, op, command, hp, ht, rfl, hpc⟩ := committed_of_write (hi.does hs) hw
  have hrun := hi.life
  rw [hp] at hrun
  have hmem := mem_of_tasks ht
  obtain ⟨doc, hd, hf⟩ := hrun.fits w hmem
  have ha := hf.agrees
  rw [hpc] at ha
  have hsame : SameIdentity op doc := ha.1
  have hseen := (reaches_seen h).worker p hp w hmem
  rw [hpc] at hseen
  obtain ⟨-, es, hes, a, b, c, o, before, he, hlive, hsnap, helig, heff⟩ :=
    hseen.2.1 actionId payload rfl
  refine ⟨p, doc, es, hp, hrun.valid, hd, hes, ⟨a, b, c, o, before, ?_, ?_, hsnap, ?_, ?_⟩, hf.id⟩
  · rw [hsame.id]
    exact he
  · rw [hsame.id]
    exact hlive
  · rw [hsame.kind]
    exact helig
  · intro hk
    rw [effectStatus_congr hsame]
    rw [hsame.kind] at hk
    exact heff hk

/-- **Traffic gate.** Each control write is preceded, in the same execution and before its barrier,
by a snapshot over which its policy allows it, and which does not satisfy it already. Under the
default policy the raw replies of that snapshot show no traffic for a link or an announcement. -/
theorem control_writes_gated (h : Reaches node ls s) {l : Label} (hs : s.step node l = some s')
    (hw : .wrote id actionId payload ∈ s.output l) :
    ∃ p doc a b c o before, s.life = .up p ∧ p.config.Valid ∧ get s.table node id = some doc ∧
      history node ls = a ++ .entered id :: (b ++ .sampled id o before :: (c ++ [.crossed id])) ∧
      (.ended id ∉ b ++ c ∧ .died ∉ b ++ c) ∧
      (∃ now uuid, Observer.snapshot node o now uuid = .ok before) ∧
      TrafficPolicy.Eligible p.config doc.kind before ∧
      (doc.kind ≠ .announce → effectStatus doc before ≠ .ok .observedSatisfied) ∧
      (doc.kind = .linkNode ∨ doc.kind = .announce → TrafficPolicy.IsDefault p.config doc.kind →
        ∃ xstat sawstat epoch, o = .replies xstat sawstat epoch false ∧ Idle xstat sawstat) := by
  obtain ⟨p, doc, es, hp, hv, hd, hes, ⟨a, b, c, o, before, he, hlive, hsnap, helig, heff⟩, hid⟩ :=
    gated_of_write h hs hw
  rw [hid] at he hlive
  refine ⟨p, doc, a, b, c, o, before, hp, hv, hd, ?_, hlive, hsnap, helig, heff, fun hk hdef => ?_⟩
  · rw [hes, he]
    simp
  · obtain ⟨now, uuid, hsnap⟩ := hsnap
    exact idle_of_clear hsnap (TrafficPolicy.clear_of_eligible hk hdef helig)

/-- The setting is the text `deny`. -/
def isDeny : Except Error PyValue → Bool
  | .ok (.str value) => value = "deny"
  | _ => false

theorem eq_of_isDeny {r : Except Error PyValue} (h : isDeny r = true) : r = .ok (.str "deny") := by
  unfold isDeny at h
  split at h
  · rw [of_decide_eq_true h]
  · cases h

/-- The announcement is written over the replies of an idle node. -/
theorem control_writes_gated_announce :
    ∃ s p xstat sawstat epoch before, Reaches "546051" commitRun s ∧ s.life = .up p ∧
      .wrote "a1" "c1" samplePayload ∈ s.output (.worker "a1" .write) ∧
      .sampled "a1" (.replies xstat sawstat epoch false) before ∈ history "546051" commitRun ∧
      Idle xstat sawstat := by
  obtain ⟨s, s', hs, hr, hf, -⟩ := exists_reaches_append "546051" commitRun [.worker "a1" .write]
    (fun s => (s.output (.worker "a1" .write),
      (get s.table "546051" "a1").map Operation.kind, s.upWith fun p => ["active", "unknown"].all
        fun state => isDeny (TrafficPolicy.setting p.config "announce" state)))
    (fun _ => ()) ([.wrote "a1" "c1" samplePayload], some .announce, true) ()
    (by decide +kernel) (by decide +kernel)
  obtain ⟨m, hstep, -⟩ := Lts.exec_cons.mp hr
  simp only [Prod.mk.injEq] at hf
  obtain ⟨hout, hkind, hset⟩ := hf
  obtain ⟨q, hq', hset⟩ := Sys.exists_up hset
  have hw : .wrote "a1" "c1" samplePayload ∈ s.output (.worker "a1" .write) := by
    rw [hout]
    exact List.mem_singleton_self _
  obtain ⟨p, doc, a, b, c, o, before, hp, -, hd, hh, -, -, -, -, hidle⟩ :=
    control_writes_gated hs hstep hw
  rw [hd, Option.map_some, Option.some.injEq] at hkind
  have hdef : TrafficPolicy.IsDefault p.config .announce := by
    intro state default hdef
    rw [hp] at hq'
    cases hq'
    unfold TrafficPolicy.policyDefault at hdef
    split_ifs at hdef with hstate hk
    · cases hdef
      exact eq_of_isDeny (List.all_eq_true.mp hset state (by simpa using hstate))
    · exact absurd (Or.inr rfl) hk
  obtain ⟨xstat, sawstat, epoch, rfl, hraw⟩ := hidle (Or.inr hkind) (by rw [hkind]; exact hdef)
  refine ⟨s, p, xstat, sawstat, epoch, before, hs, hp, hw, ?_, hraw⟩
  rw [hh]
  simp

end Asl3
