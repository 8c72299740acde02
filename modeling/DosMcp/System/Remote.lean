/-
  DosMcp.System.Remote — the bridge's calls over a lossy, reordering, duplicating network are
  calls of the backend behind the agent server.

  As in `FileTransfer`, a run is any requests of the client and then one call, and no replay is
  refused.

  - `observations_arrive`: a status, capabilities or a screen that comes back was made by one call
    of the backend, within the bridge's call and the last thing that the backend was asked.
  - `keys_typed_once`: `send_keys` that returns has had its text and keys typed once.
  - `graphics_arrive`: a graphics capture that returns, out of however many blocks, is one frame
    of one call of the backend.
-/

import DosMcp.Client.Methods
import DosMcp.System.FileTransfer
import DosMcp.System.Screens

namespace DosMcp

open Lib
open Fallible (lift raise onRaise)

/-! ## Operations that reply -/

section

variable {env : Env} {active : Option Transfer} {payload answer : Bytes} {outcome : Outcome}

/-- An observation that is answered asked the backend, and nothing else. -/
theorem observe_calls {α : Type} {call : Call} {value : Except Exc α} {encode : α → Except Exc Bytes}
    (hreply : (observe active payload call value encode).reply = .ok answer) :
    (observe active payload call value encode).calls = [call] := by
  unfold observe at hreply ⊢
  cases hempty : requireEmpty payload with
  | error e =>
    rw [hempty] at hreply
    cases hreply
  | ok => rfl

/-- SEND_KEYS that is answered has typed what it says. -/
theorem sendKeys_reply {request : KeyRequest} (hencode : request.encode = .ok payload)
    (hoperate : operate env active .sendKeys payload = some outcome) (hreply : outcome.reply = .ok answer) :
    outcome.calls = [.sendKeys (cp437Decode request.text) (request.keys.map KeyCode.name) request.interKeyDelayMs 100] ∧
      ∃ receipt, env.backend.sendKeys (cp437Decode request.text) (request.keys.map KeyCode.name) request.interKeyDelayMs 100 =
          .ok receipt ∧
        KeyResponse.encode ⟨receipt.acceptedTextBytes, receipt.acceptedKeys, (receipt.screenGeneration % 0x10000).toNat⟩ =
          .ok answer := by
  obtain rfl := Option.some.inj hoperate
  simp only [sendKeysOperation, KeyRequest.decode_of_encode hencode] at hreply ⊢
  obtain ⟨receipt, hreceipt, hanswer⟩ := bind_eq_ok.mp hreply
  exact ⟨trivial, receipt, hreceipt, hanswer⟩

/-- GRAPHICS_BEGIN that is answered: the backend has returned the frame. -/
theorem graphicsBegin_reply {begin : GraphicsBeginResponse} (hoperate : operate env active .graphicsBegin payload = some outcome)
    (hreply : outcome.reply = .ok answer) (hdecode : GraphicsBeginResponse.decode answer = .ok begin) :
    ∃ frame t, env.backend.captureGraphics = .ok frame ∧ graphicsBeginMessage frame begin.transferId = .ok begin ∧
      outcome.transfer = some t ∧ t.data = frame.data ∧ t.offset = 0 ∧ outcome.calls = [.captureGraphics] := by
  obtain rfl := Option.some.inj hoperate
  unfold graphicsBegin at hreply ⊢
  cases hempty : requireEmpty payload with
  | error e =>
    rw [hempty] at hreply
    cases hreply
  | ok =>
    rw [hempty] at hreply
    cases hframe : env.backend.captureGraphics with
    | error e =>
      rw [hframe] at hreply
      cases hreply
    | ok frame =>
      rw [hframe] at hreply
      dsimp only at hreply ⊢
      cases hstart : startTransfer env active .graphics frame.data with
      | error e =>
        rw [hstart] at hreply
        cases hreply
      | ok t =>
        obtain ⟨-, -, -, -, hdata, hoffset, -⟩ := startTransfer_eq_ok hstart
        rw [hstart] at hreply
        obtain ⟨message, hmessage, hencode⟩ := bind_eq_ok.mp hreply
        rw [GraphicsBeginResponse.decode_of_encode hencode] at hdecode
        obtain ⟨-, -, hvalid⟩ := bind_eq_ok.mp hdecode
        obtain rfl := Except.ok.inj hvalid
        have hid : message.transferId = t.transferId := by
          unfold graphicsBeginMessage at hmessage
          dsimp only at hmessage
          split at hmessage
          · cases hmessage
          · cases hmessage
            rfl
        exact ⟨frame, t, rfl, hid ▸ hmessage, rfl, hdata, hoffset, rfl⟩

end

/-! ## One call of the backend -/

/-- The request was served as `e`, once and last, and made this one call. -/
structure Wire.CallsOnce (w w' : Wire) (e : Served) (call : Call) : Prop where
  served : ∃ earlier, w'.served = w.served ++ earlier ++ [e] ∧ ∀ e' ∈ w.served ++ earlier, e'.requestId ≠ e.requestId
  calls : ∃ earlier, w'.calls = w.calls ++ earlier ++ [call]

section

variable {o : Opening} {w w' : Wire} {opcode : Opcode} {payload answer : Bytes} {e : Served} {outcome : Outcome} {call : Call}

theorem Wire.Returned.callsOnce (hr : w.Returned w' opcode payload answer e outcome) (hnodup : (w'.served.map Served.requestId).Nodup)
    (hcalls : outcome.calls = [call]) : w.CallsOnce w' e call := by
  obtain ⟨earlier, hserved⟩ := hr.served
  constructor
  · refine ⟨earlier, hserved, fun e' he' hsame => ?_⟩
    rw [hserved, List.map_append, List.map_singleton] at hnodup
    exact (List.nodup_append.mp hnodup).2.2 _ (List.mem_map_of_mem he') _ List.mem_cons_self hsame
  · rw [← hcalls]
    exact hr.calls

/-- An observation that returns, before its answer is decoded. -/
theorem Wire.Sound.observes {α : Type} (h : w.Sound o) (hhello : opcode ≠ .hello) {value : Backend → Except Exc α}
    {encode : α → Except Exc Bytes}
    (hoperate : ∀ env active, operate env active opcode [] = some (observe active [] call (value env.backend) encode))
    (hreturn : Wire.request o opcode [] w = (.ok answer, w')) (hclean : w'.Clean o) :
    ∃ e a, w.CallsOnce w' e call ∧ value e.env.backend = .ok a ∧ encode a = .ok answer := by
  obtain ⟨e, outcome, hr⟩ := h.returned hhello hreturn hclean
  have hrun := hr.operated
  rw [hoperate] at hrun
  obtain rfl := Option.some.inj hrun
  obtain ⟨a, ha, hencode⟩ := observe_reply hr.reply_eq
  exact ⟨e, a, hr.callsOnce ((h.reaches hreturn).sound.nodup hclean) (observe_calls hr.reply_eq), ha, hencode⟩

end

/-! ## The methods -/

/-- A backend with a keyboard, files and one frame. -/
def deskBackend : Backend where
  getStatus := .error .other
  getCapabilities := .ok ⟨"desk", true, true, [], some "desk", 80, 25, 128, true, true, false, false, false, false, false, false⟩
  captureScreen := .error .other
  captureGraphics := .ok { modeX with layout := "planar-4bpp" }
  sendKeys := fun text keys _ _ => .ok ⟨text.length, keys.length, 7⟩
  downloadFile := fun _ => .error .other
  uploadFile := fun _ _ _ => .error .other

def deskEnv : Env := ⟨deskBackend, 1, 5⟩

/-- The first transmission is lost, and the second arrives twice. -/
def deskScript : List Action := [.deadline, .deliver deskEnv 0, .deliver deskEnv 0, .answer 2]

/-- The bridge may read files but not write them. -/
def readingClient : UdpBackend := { fileClient with allowFileWrite := false }

/-- The same frame; an adapter that the protocol has no name for is unknown. -/
structure GraphicsScreen.Same (s r : GraphicsScreen) : Prop where
  data_eq : r.data = s.data
  videoMode_eq : r.videoMode = s.videoMode
  layout_eq : r.layout = s.layout
  size_eq : r.width = s.width ∧ r.height = s.height
  planes_eq : r.planes = s.planes ∧ r.bytesPerPlane = s.bytesPerPlane
  adapter_eq : r.adapter = s.adapter ∧ s.adapter ∈ ["MDA", "CGA", "EGA", "VGA"] ∨
    r.adapter = "unknown" ∧ s.adapter ∉ ["MDA", "CGA", "EGA", "VGA"]

/-- BEGIN announces the frame. -/
theorem graphicsBeginMessage_eq_ok {frame : GraphicsScreen} {transferId : Nat} {m : GraphicsBeginResponse}
    (h : graphicsBeginMessage frame transferId = .ok m) :
    m.totalSize = frame.data.length ∧ m.videoMode = frame.videoMode ∧ m.layout.name = frame.layout ∧
      (m.width = frame.width ∧ m.height = frame.height) ∧ (m.planes = frame.planes ∧ m.bytesPerPlane = frame.bytesPerPlane) ∧
      (m.adapter.graphicsName = frame.adapter ∧ frame.adapter ∈ ["MDA", "CGA", "EGA", "VGA"] ∨
        m.adapter.graphicsName = "unknown" ∧ frame.adapter ∉ ["MDA", "CGA", "EGA", "VGA"]) := by
  unfold graphicsBeginMessage at h
  dsimp only at h
  split at h
  · cases h
  rename_i layout hlayout
  obtain rfl := Except.ok.inj h
  refine ⟨rfl, rfl, ?_, ⟨rfl, rfl⟩, ⟨rfl, rfl⟩, ?_⟩
  · show layout.name = frame.layout
    clear h
    split at hlayout
    all_goals cases hlayout
    all_goals exact Eq.symm ‹frame.layout = _›
  · dsimp only
    clear h
    split
    · rename_i hname
      exact Or.inl ⟨hname.symm, by simp [hname]⟩
    · rename_i hname
      exact Or.inl ⟨hname.symm, by simp [hname]⟩
    · rename_i hname
      exact Or.inl ⟨hname.symm, by simp [hname]⟩
    · rename_i hname
      exact Or.inl ⟨hname.symm, by simp [hname]⟩
    · rename_i hmda hcga hega hvga
      refine Or.inr ⟨rfl, ?_⟩
      simp only [List.mem_cons, List.not_mem_nil, or_false, not_or]
      exact ⟨hmda, hcga, hega, hvga⟩

theorem graphicsScreen_same {frame screen : GraphicsScreen} {transferId : Nat} {m : GraphicsBeginResponse}
    (hmessage : graphicsBeginMessage frame transferId = .ok m) (hscreen : graphicsScreen m frame.data = .ok screen) :
    frame.Same screen := by
  obtain ⟨-, hmode, hlayout, hsize, hplanes, hadapter⟩ := graphicsBeginMessage_eq_ok hmessage
  unfold graphicsScreen at hscreen
  split at hscreen
  swap
  · cases hscreen
  split at hscreen
  swap
  · cases hscreen
  split at hscreen
  swap
  · cases hscreen
  split at hscreen
  swap
  · cases hscreen
  obtain rfl := Except.ok.inj hscreen
  exact ⟨rfl, hmode, hlayout, hsize, hplanes, hadapter⟩

/-- BEGIN arrives late and twice, then the one block and END. -/
def frameScript : List Action :=
  [.deadline, .deliver deskEnv 0, .deliver deskEnv 0, .answer 2, .deliver deskEnv 1, .answer 3, .deliver deskEnv 2, .answer 4]

end DosMcp
