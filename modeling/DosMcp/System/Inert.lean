/-
  DosMcp.System.Inert — datagrams that decode under no key.

  Both agents choose a key by header bytes that nothing has checked yet. Whatever these say,
  a datagram that decodes neither under the base key nor under the key of the session leaves
  the server as it was (`handleDatagram_unauthenticated`), and of a DOS agent it changes the
  last protocol result (`processDatagram_unauthenticated`), which the next datagram that
  decodes sets anew before anything reads it.

  - `unauthenticated_datagrams_inert`: such datagrams, put anywhere into a run, change
    nothing that the agent does or keeps.
-/

import DosMcp.Dos.WorkerProofs
import DosMcp.Lib.Inert
import DosMcp.Server.AgentProofs
import DosMcp.System.AtMostOnce
import DosMcp.System.DosAtMostOnce

namespace DosMcp

open Lib

/-! ## The server -/

/-- A call of `handle_datagram`, with what the environment answers in it. -/
structure Incoming where
  env : Env
  datagram : Bytes
  address : Address

/-- The server, and all it has done. -/
structure ServerRun where
  server : UdpAgentServer
  sent : List (Address × Bytes)
  calls : List Call
  dispatched : List Dispatch
  raised : List Exc

def UdpAgentServer.begin (s : UdpAgentServer) : ServerRun := ⟨s, [], [], [], []⟩

def ServerRun.handle (r : ServerRun) (i : Incoming) : ServerRun :=
  let result := r.server.handleDatagram i.env i.datagram i.address
  ⟨result.server, r.sent ++ result.sent, r.calls ++ result.calls, r.dispatched ++ result.dispatched.toList,
    r.raised ++ result.raised.toList⟩

/-- The datagram decodes neither under the base key nor under the key of the session. -/
def UdpAgentServer.Unauthenticated (s : UdpAgentServer) (datagram : Bytes) : Prop :=
  (∃ e, Packet.decode datagram s.key = .error e) ∧
    ∀ session, s.session = some session → ∃ e, Packet.decode datagram session.key = .error e

theorem handleDatagram_unauthenticated {s : UdpAgentServer} {datagram : Bytes} (h : s.Unauthenticated datagram) (env : Env)
    (address : Address) : s.handleDatagram env datagram address = s.idle := by
  obtain ⟨⟨e, hbase⟩, hsession⟩ := h
  unfold UdpAgentServer.handleDatagram
  split
  · rfl
  dsimp only
  split
  · rfl
  split
  · rw [UdpAgentServer.handleHello, hbase]
  cases hs : s.session with
  | none => rfl
  | some session =>
    dsimp only
    split
    · rfl
    · obtain ⟨e', he'⟩ := hsession session hs
      rw [he']

theorem ServerRun.handle_unauthenticated {r : ServerRun} {i : Incoming} (h : r.server.Unauthenticated i.datagram) :
    r.handle i = r := by
  rw [handle, handleDatagram_unauthenticated h]
  simp [UdpAgentServer.idle]

theorem server_unwinds : Inert.Unwinds ServerRun.handle (fun r i => r.server.Unauthenticated i.datagram) Eq where
  trans := Eq.trans
  keep e h := congrArg (ServerRun.handle · e) h
  insert h := (ServerRun.handle_unauthenticated h).symm

end DosMcp

namespace DosMcp.Dos

open Lib

/-! ## The DOS agents -/

/-- What happens to an agent: a datagram arrives in the receive buffer, the agent runs, or
    `process_datagram` is called. -/
inductive AgentEvent where
  | arrive (d : Datagram)
  | work (e : Entry)
  | datagram (d : Datagram)

def State.act (b : Build) (c : Config) (s : State) : AgentEvent → State
  | .arrive d => arrive s d
  | .work e => runAgent b c s e
  | .datagram d => processDatagram b c s d

/-- The datagram decodes neither under the base key nor under the key of the session. -/
def State.Unauthenticated (c : Config) (s : State) (payload : Bytes) : Prop :=
  (∃ e, dmPacketDecode payload c.baseKey = .error e) ∧
    (s.session.active = true → ∃ e, dmPacketDecode payload s.session.key = .error e)

/-- A call of `process_datagram` with such a datagram. -/
def Junk (c : Config) (s : State) : AgentEvent → Prop
  | .datagram d => s.Unauthenticated c d.payload
  | _ => False

def State.withResult (s : State) (result : Int) : State := { s with lastProtocolResult := result }

/-- The states agree in all but the last protocol result. -/
def SameButResult (s t : State) : Prop := s.withResult 0 = t.withResult 0

theorem SameButResult.eq_withResult {s t : State} (h : SameButResult s t) : s = t.withResult s.lastProtocolResult := by
  have h' := congrArg (State.withResult · s.lastProtocolResult) h
  exact h'

section WithResult

variable (c : Config) (s : State) (r : Int)

theorem arrive_withResult (d : Datagram) : arrive (s.withResult r) d = (arrive s d).withResult r := by
  unfold arrive
  cases h : s.slot <;> simp only [State.withResult, h]

theorem processShellKeyboard_withResult : processShellKeyboard c (s.withResult r) = (processShellKeyboard c s).withResult r := by
  unfold processShellKeyboard
  have hready : (s.withResult r).machine.keybrdReady = s.machine.keybrdReady := rfl
  rw [hready]
  split
  · rfl
  dsimp only
  simp only [apply_ite (State.withResult · r)]
  rfl

theorem beforePoll_withResult (e : Entry) : beforePoll c (s.withResult r) e = (beforePoll c s e).withResult r := by
  have henter : enterWorker (s.withResult r) e = (enterWorker s e).withResult r := rfl
  have hexpire : ∀ t : State, expireSession (t.withResult r) = (expireSession t).withResult r := by
    intro t
    unfold expireSession
    rw [apply_ite (State.withResult · r)]
    rfl
  have hclean : ∀ t : State, cleanTransfer (t.withResult r) e = (cleanTransfer t e).withResult r := by
    intro t
    unfold cleanTransfer
    rw [apply_ite (State.withResult · r)]
    rfl
  have hadvertise : ∀ t : State, advertise c (t.withResult r) = (advertise c t).withResult r := by
    intro t
    unfold advertise
    rw [apply_ite (State.withResult · r)]
    rfl
  rw [beforePoll, henter, hexpire, hclean, hadvertise, beforePoll]

/-- A datagram that decodes sets the result before anything reads it; any other leaves its own. -/
theorem processDatagram_withResult (b : Build) (d : Datagram) :
    SameButResult (processDatagram b c (s.withResult r) d) (processDatagram b c s d) := by
  unfold processDatagram
  have hkey : (s.withResult r).datagramKey c d.payload = s.datagramKey c d.payload := rfl
  rw [hkey]
  split
  · rfl
  split <;> rfl

theorem emitFragment_withResult : SameButResult (emitFragment (s.withResult r)) (emitFragment s) := by
  unfold emitFragment
  have hnext : nextFragment (s.withResult r) = nextFragment s := rfl
  rw [hnext]
  dsimp only
  have hkey : (s.withResult r).session.key = s.session.key := rfl
  rw [hkey]
  cases dmPacketEncode (nextFragment s).1 s.session.key responseDatagramSize <;> rfl

theorem pollDatagram_withResult (e : Entry) : SameButResult (pollDatagram c (s.withResult r) e) (pollDatagram c s e) := by
  unfold pollDatagram
  have hslot : (s.withResult r).slot = s.slot := rfl
  rw [hslot]
  split
  · rfl
  rename_i d _
  have hoperation : dosOperation (s.withResult r) d.payload = dosOperation s d.payload := rfl
  rw [hoperation]
  split
  · unfold validateDeferredDatagram
    have hkey : (s.withResult r).datagramKey c d.payload = s.datagramKey c d.payload := rfl
    rw [hkey]
    cases s.datagramKey c d.payload with
    | none => rfl
    | some key =>
      dsimp only
      cases dmPacketDecode d.payload key <;> rfl
  · exact congrArg State.release (processDatagram_withResult c s r .ratsr d)

theorem SameButResult.of_withResult {f : State → State} (hf : ∀ s r, f (s.withResult r) = (f s).withResult r) {s t : State}
    (h : SameButResult s t) : SameButResult (f s) (f t) := by
  rw [h.eq_withResult, hf]
  rfl

theorem runAgent_withResult (b : Build) (e : Entry) : SameButResult (runAgent b c (s.withResult r) e) (runAgent b c s e) := by
  cases b with
  | ragent =>
    have hslot : (s.withResult r).slot = s.slot := rfl
    rw [runAgent, runAgent, ragentTurn, ragentTurn]
    refine SameButResult.of_withResult (processShellKeyboard_withResult c) ?_
    dsimp only
    cases hd : s.slot with
    | none =>
      rw [hd] at hslot
      simp only [hslot]
      rfl
    | some d =>
      rw [hd] at hslot
      simp only [hslot]
      exact congrArg State.release (processDatagram_withResult c { s with machine := e.machine, slot := some d } r .ragent d)
  | ratsr =>
    have hbefore := beforePoll_withResult c s r e
    rw [runAgent, runAgent, ratsrIdleWorker, ratsrIdleWorker]
    have henabled : (s.withResult r).enabled = s.enabled := rfl
    dsimp only
    rw [henabled, hbefore]
    split
    · rfl
    generalize beforePoll c s e = t
    have hpending : (t.withResult r).session = t.session := rfl
    rw [hpending]
    split
    · exact emitFragment_withResult t r
    split
    · rfl
    · exact pollDatagram_withResult c t r e

theorem act_withResult (b : Build) (event : AgentEvent) :
    SameButResult ((s.withResult r).act b c event) (s.act b c event) := by
  cases event with
  | arrive d => exact SameButResult.of_withResult (f := (arrive · d)) (fun s r => arrive_withResult s r d) rfl
  | work e => exact runAgent_withResult c s r b e
  | datagram d => exact processDatagram_withResult c s r b d

end WithResult

/-- A datagram that decodes under neither key only sets the result. -/
theorem processDatagram_unauthenticated {c : Config} {s : State} {d : Datagram} (h : s.Unauthenticated c d.payload) (b : Build) :
    SameButResult s (processDatagram b c s d) := by
  obtain ⟨⟨e, hbase⟩, hsession⟩ := h
  unfold processDatagram State.datagramKey
  split_ifs with hother hactive
  · obtain ⟨e', he'⟩ := hsession hactive
    dsimp only
    rw [he']
    rfl
  · rfl
  · dsimp only
    rw [hbase]
    rfl

theorem agent_unwinds (b : Build) (c : Config) : Inert.Unwinds (State.act b c) (Junk c) SameButResult where
  trans h k := Eq.trans h k
  keep event h := by
    rw [h.eq_withResult]
    exact act_withResult c _ _ b event
  insert {t event} h := by
    cases event with
    | arrive d => exact absurd h id
    | work e => exact absurd h id
    | datagram d => exact processDatagram_unauthenticated h b

/-- Datagrams that decode under no key, put anywhere into a run, change neither what the
    agents do nor what they keep; only RA-TSR's last protocol result may differ. -/
theorem unauthenticated_datagrams_inert :
    (∀ (s : UdpAgentServer) (events padded : List Incoming),
      Inert.Padded ServerRun.handle (fun r i => r.server.Unauthenticated i.datagram) s.begin events padded →
      padded.foldl ServerRun.handle s.begin = events.foldl ServerRun.handle s.begin) ∧
    ∀ (b : Build) (c : Config) (s : State) (events padded : List AgentEvent),
      Inert.Padded (State.act b c) (Junk c) s events padded →
      { padded.foldl (State.act b c) s with lastProtocolResult := 0 } =
        { events.foldl (State.act b c) s with lastProtocolResult := 0 } :=
  ⟨fun _ _ _ hpadded => (server_unwinds.run hpadded rfl).symm,
    fun b c _ _ _ hpadded => ((agent_unwinds b c).run hpadded (rfl : SameButResult _ _)).symm⟩

/-- 24 zero bytes, from anywhere. -/
def zeros (address : Address) : Incoming := ⟨keyboardEnv, List.replicate 24 0, address⟩

def zerosFrom (peer : Peer) : AgentEvent := .datagram ⟨List.replicate 24 0, peer⟩

def otherDatagram : Incoming := ⟨keyboardEnv, List.replicate 24 1, ("10.0.0.2", 5)⟩

def idleTurn : AgentEvent := .work ⟨true, false, blankMachine⟩

/-- Around another datagram, and around a worker entry. -/
theorem unauthenticated_datagrams_inert_zeros :
    [zeros ("10.0.0.3", 6), otherDatagram, zeros ("10.0.0.2", 5)].foldl ServerRun.handle keyboardOpening.start.server.begin =
        [otherDatagram].foldl ServerRun.handle keyboardOpening.start.server.begin ∧
      { [zerosFrom (lateOpening .ratsr).peer, idleTurn, zerosFrom (lateOpening .ratsr).peer].foldl
            (State.act .ratsr sampleConfig) (lateOpening .ratsr).opened with lastProtocolResult := 0 } =
        { [idleTurn].foldl (State.act .ratsr sampleConfig) (lateOpening .ratsr).opened with lastProtocolResult := 0 } := by
  obtain ⟨hserver, hagent⟩ := unauthenticated_datagrams_inert
  refine ⟨hserver _ _ _ ?_, hagent _ _ _ _ _ ?_⟩
  · exact .insert _ ⟨⟨_, rfl⟩, fun _ _ => ⟨_, rfl⟩⟩ (.keep _ (.insert _ ⟨⟨_, rfl⟩, fun _ _ => ⟨_, rfl⟩⟩ (.nil _)))
  · exact .insert _ ⟨⟨_, rfl⟩, fun _ => ⟨_, rfl⟩⟩ (.keep _ (.insert _ ⟨⟨_, rfl⟩, fun _ => ⟨_, rfl⟩⟩ (.nil _)))

end DosMcp.Dos
