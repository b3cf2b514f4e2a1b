import Asl3Api.Vnext.Server
import Asl3Api.Vnext.Software

/-!
# The version probe against a server that answers

* `outputLines_decodes`: the output of a reply is what was written as its output;
* **`version_probe_answers`**: a server that answers is reported with the versions it has.
-/

set_option autoImplicit false

namespace Asl3

open Py AMISession AMITransport Platform Software

variable {lower : String → String}

/-- The output of a reply is what was written as its output. -/
theorem outputLines_decodes {headers : List (String × String)} {m : Message}
    (hd : Decodes (received lower headers) m) :
    outputLines (some m) = some (stripped (valuesOf (received lower headers) "output")) := by
  simp only [outputLines, hd.fields]
  rcases valuesOf (received lower headers) "output" with _ | ⟨v, _ | ⟨w, vs⟩⟩ <;> rfl

/-- **A server that answers** is reported with the versions that it shows, whatever events it writes
between its replies. -/
theorem version_probe_answers (lower : String → String) (cfg : Config) (peer : Peer) (x : Script)
    (h : x.Served lower cfg peer asteriskVersionAction appRptVersionAction)
    (va vr : String) (hva : valuesOf (received lower x.first) "asteriskversion" = [va])
    (hmatch : asteriskVersionPattern.Matches va.toList)
    (hvr : stripped (valuesOf (received lower x.second) "output") = [Software.banner vr.toList])
    (hthree : IsVersion vr.toList) :
    (softwareEvidence cfg peer).1 =
      .ok ⟨method, ⟨some va, true, asteriskSource⟩, ⟨some vr, true, appRptSource⟩⟩ := by
  obtain ⟨m₁, m₂, hanswered, hd₁, hd₂⟩ := h.answered
  have hasterisk : parseAsteriskVersion (some m₁) = some va :=
    parseAsteriskVersion_iff.mpr ⟨lookup_of_values hd₁ h.replies.2.1.1, lookup_of_values hd₁ hva, hmatch⟩
  have happRpt : parseAppRptVersion (some m₂) = some vr := by
    refine parseAppRptVersion_iff.mpr ⟨lookup_of_values hd₂ h.replies.2.2.1, ?_, hthree⟩
    rw [outputLines_decodes hd₂, hvr]
  have hresult : (softwareVersions cfg peer).1 = .ok (m₁, m₂) := readSession_iff.mpr hanswered
  unfold softwareEvidence
  split
  · rename_i h'
    rw [h'] at hresult
    obtain ⟨rfl, rfl⟩ := Prod.mk.inj (Except.ok.inj hresult)
    rw [evidence, hasterisk, happRpt]
    rfl
  · rename_i h'
    rw [h'] at hresult
    cases hresult

/-! ## A server -/

/-- The reply to the login. -/
def loginReply : List (String × String) := [("Response", "Success"), ("ActionID", "a0")]

/-- The event that follows a login. -/
def bootedEvent : List (String × String) := [("Event", "FullyBooted"), ("Status", "Fully Booted")]

/-- The reply to `CoreSettings`. -/
def coreReply : List (String × String) :=
  [("Response", "Success"), ("ActionID", "a1"), ("AsteriskVersion", "22.5.2+asl3-3.6.3")]

/-- The reply to `rpt show version`. -/
def versionReply : List (String × String) :=
  [("Response", "Success"), ("ActionID", "a2"), ("Output", "app_rpt version: 3.6.3 ")]

/-- A server writes these, with an event behind the login. -/
def versionScript : Script := ⟨[], loginReply, [bootedEvent], coreReply, [], versionReply⟩

/-- It then resets the connection. -/
def sampleServer : Peer where
  connect := .ok ()
  banner := .ok "Asterisk Call Manager/9.0.0"
  epoch := "epoch"
  actionId := fun n => "a" ++ toString n
  drain := fun _ => .ok ()
  frames := fun n => streamFrames Py.lower n (octets versionScript.frames ++ [])
  closed := .error (.error (.py .osError))

/-- Its session with the probe. -/
theorem versionScript_served :
    versionScript.Served Py.lower ⟨.dict []⟩ sampleServer asteriskVersionAction appRptVersionAction where
  connect := rfl
  banner := ⟨_, rfl, by decide +kernel⟩
  closed := rfl
  sent := sent_of_check (by decide +kernel)
  stream := ⟨[], rfl⟩
  frameable := by
    have hcheck : versionScript.frames.all (checkFrame Py.lower) = true := by decide +kernel
    exact fun headers hm => frameable_of_check (List.all_eq_true.mp hcheck headers hm)
  events := by
    have hbooted : valuesOf (received Py.lower bootedEvent) "event" ≠ [] ∧
        valuesOf (received Py.lower bootedEvent) "response" = [] := by decide +kernel
    exact List.forall_mem_singleton.mpr hbooted
  budget := by decide
  replies := by
    refine ⟨?_, ?_, ?_⟩
    · exact ⟨by decide +kernel, by decide +kernel⟩
    · exact ⟨by decide +kernel, by decide +kernel⟩
    · exact ⟨by decide +kernel, by decide +kernel⟩

/-- It is reported with its versions. -/
theorem version_probe_answers_sample : (softwareEvidence ⟨.dict []⟩ sampleServer).1 =
    .ok ⟨method, ⟨some "22.5.2+asl3-3.6.3", true, asteriskSource⟩,
      ⟨some "3.6.3", true, appRptSource⟩⟩ :=
  version_probe_answers Py.lower ⟨.dict []⟩ sampleServer versionScript versionScript_served
    "22.5.2+asl3-3.6.3" "3.6.3" (by decide +kernel) (Regex.fullmatch_iff.mp (by decide +kernel))
    (by decide +kernel) (fullmatch_isSome.mp (by decide +kernel))

end Asl3
