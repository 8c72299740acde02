/-
  DosMcp.Dos.Expiry — when RA-TSR gives up a session.

  The worker compares a 16-bit tick counter, which goes on at timer entries and wraps, with
  its value when the session was last used. `Watch` counts the timer entries since then
  without wrapping.

  - `Watch.run_inv`: while the session is active the count is below 546 and the two ticks are
    that far apart, so the difference cannot pass the limit unseen.
  - `session_expiry_exact`: so an entry takes the session away exactly when 546 timer entries
    went by, and nothing is advertised while there is a session.
-/

import DosMcp.Dos.Ownership

namespace DosMcp.Dos

open Lib

/-! ## What time goes by -/

/-- `s'` is `s` as far as expiry and discovery see it. -/
structure Still (s s' : State) : Prop where
  ticks_eq : s'.ticks = s.ticks
  enabled_eq : s'.enabled = s.enabled
  broadcasts_eq : s'.broadcasts = s.broadcasts
  active_eq : s'.session.active = s.session.active
  lastActivityTick_eq : s'.session.lastActivityTick = s.session.lastActivityTick

theorem Still.refl (s : State) : Still s s := ⟨rfl, rfl, rfl, rfl, rfl⟩

theorem Still.trans {s t u : State} (h : Still s t) (k : Still t u) : Still s u where
  ticks_eq := k.ticks_eq.trans h.ticks_eq
  enabled_eq := k.enabled_eq.trans h.enabled_eq
  broadcasts_eq := k.broadcasts_eq.trans h.broadcasts_eq
  active_eq := k.active_eq.trans h.active_eq
  lastActivityTick_eq := k.lastActivityTick_eq.trans h.lastActivityTick_eq

/-! ## The rest of an entry -/

theorem queueWords_broadcasts (c : Config) (words : List UInt16) (s : State) :
    (queueWords .ratsr c words s).2.broadcasts = s.broadcasts := by
  induction words generalizing s with
  | nil => rfl
  | cons word words ih =>
    rw [queueWords]
    split
    · rfl
    · exact ih _

theorem injectKeys_broadcasts (c : Config) (s : State) (payload : Bytes) :
    (injectKeys .ratsr c s payload).2.broadcasts = s.broadcasts := by
  unfold injectKeys
  split
  · rfl
  dsimp only
  split
  · rfl
  · exact (queueWords_broadcasts c _ _).trans (queueWords_broadcasts c _ _)

theorem withoutPayload_broadcasts {payload : Bytes} {message : String} {s : State} {run : Reply × State}
    (h : run.2.broadcasts = s.broadcasts) : (withoutPayload payload message s run).2.broadcasts = s.broadcasts := by
  unfold withoutPayload
  split
  · rfl
  · exact h

theorem operate_broadcasts (c : Config) (s : State) (opcode : UInt8) (payload : Bytes) :
    (operate .ratsr c s opcode payload).2.broadcasts = s.broadcasts := by
  unfold operate
  split
  · exact withoutPayload_broadcasts rfl
  · exact withoutPayload_broadcasts rfl
  · exact withoutPayload_broadcasts rfl
  · have hkeys := injectKeys_broadcasts c s payload
    unfold operateKeys
    split
    · rfl
    · split
      · rename_i t e
        rwa [e] at hkeys
      · rename_i bytes t e
        rwa [e] at hkeys
  · split <;> rfl
  · exact withoutPayload_broadcasts rfl
  · split
    · unfold operateTransfer
      dsimp only
      split <;> rfl
    · rfl

theorem operate_still (c : Config) (s : State) (opcode : UInt8) (payload : Bytes) :
    Still s (operate .ratsr c s opcode payload).2 := by
  have hoperated := operate_operated .ratsr c s opcode payload
  refine ⟨hoperated.ticks_eq, hoperated.enabled_eq, operate_broadcasts c s opcode payload, ?_, ?_⟩
  · rw [hoperated.session_eq]
  · rw [hoperated.session_eq]

theorem sendResponse_still (s : State) (kind opcode : UInt8) (id : UInt16) (source : Source) :
    Still s (sendResponse .ratsr s kind opcode id source) := by
  unfold sendResponse
  dsimp only
  split
  · exact Still.refl s
  · cases source with
    | screen n => exact ⟨rfl, rfl, rfl, rfl, rfl⟩
    | array bytes => exact ⟨rfl, rfl, rfl, rfl, rfl⟩

theorem processRequest_still (c : Config) (s : State) (opcode : UInt8) (id : UInt16) (payload : Bytes) :
    Still s (processRequest .ratsr c s opcode id payload) := by
  have hlogged : Still s { s with requests := s.requests ++ [⟨opcode, id, payload⟩] } := ⟨rfl, rfl, rfl, rfl, rfl⟩
  have hoperated := hlogged.trans (operate_still c _ opcode payload)
  unfold processRequest
  generalize operate .ratsr c { s with requests := s.requests ++ [⟨opcode, id, payload⟩] } opcode payload = r at hoperated ⊢
  obtain ⟨reply, t⟩ := r
  cases reply with
  | error code message => exact hoperated.trans (sendResponse_still t _ _ _ _)
  | screen bytes =>
    have hput : Still t (t.putScreen .ratsr bytes) := ⟨rfl, rfl, rfl, rfl, rfl⟩
    exact hoperated.trans (hput.trans (sendResponse_still _ _ _ _ _))
  | capture length => exact hoperated.trans (sendResponse_still t _ _ _ _)

theorem processSessionPacket_still (c : Config) (s : State) (packet : DmPacket) :
    Still s (processSessionPacket .ratsr c s packet) := by
  obtain ⟨reassembly, workspace, hstored⟩ := storeFragment_session s packet
  have hstill : Still s (s.storeFragment packet) := by
    rw [hstored]
    exact ⟨rfl, rfl, rfl, rfl, rfl⟩
  rcases processSessionPacket_cases .ratsr c s packet with ⟨-, e⟩ | ⟨-, e⟩ | ⟨-, ⟨-, e⟩ | ⟨payload, -, e⟩⟩
  · rw [e]
    exact ⟨rfl, rfl, rfl, rfl, rfl⟩
  · rw [e]
    exact sendResponse_still s _ _ _ _
  · rw [e]
    exact hstill
  · rw [e]
    exact hstill.trans (processRequest_still c _ _ _ _)

theorem emitFragment_still (s : State) : Still s (emitFragment s) := by
  unfold emitFragment
  dsimp only
  split <;> exact ⟨rfl, rfl, rfl, rfl, rfl⟩

/-- The entry hands `process_datagram` a HELLO that it accepts, or a request that passes the
    checks of the session. -/
def usesSession (c : Config) (s : State) (e : Entry) : Bool :=
  match polledDatagram c s e with
  | none => false
  | some d => (helloPacket c (beforePoll c s e) d).isSome || (sessionPacket c (beforePoll c s e) d).isSome

/-- `s'` is `s` with the session in use now. -/
structure Used (s s' : State) : Prop where
  ticks_eq : s'.ticks = s.ticks
  enabled_eq : s'.enabled = s.enabled
  broadcasts_eq : s'.broadcasts = s.broadcasts
  active_eq : s'.session.active = true
  lastActivityTick_eq : s'.session.lastActivityTick = s.ticks

theorem processHello_used (c : Config) {s : State} {packet : DmPacket} (hlength : packet.payloadLength = 4)
    (hcount : packet.fragmentCount = 1) (peer : Peer) : Used s (processHello .ratsr c s packet peer) := by
  have hshape : ¬ (packet.payloadLength ≠ 4 ∨ packet.fragmentCount ≠ 1) := by simp [hlength, hcount]
  unfold processHello
  rw [if_neg hshape]
  dsimp only
  split <;> exact ⟨rfl, rfl, rfl, rfl, rfl⟩

theorem processDatagram_time (c : Config) (s : State) (d : Datagram) :
    (((helloPacket c s d).isSome || (sessionPacket c s d).isSome) = false ∧ Still s (processDatagram .ratsr c s d)) ∨
      (((helloPacket c s d).isSome || (sessionPacket c s d).isSome) = true ∧ Used s (processDatagram .ratsr c s d) ∧
        (s.session.active = true ∨ (helloPacket c s d).isSome = true)) := by
  rcases processDatagram_cases .ratsr c s d with ⟨packet, hsession, hhello, -, e⟩ | ⟨packet, hsession, hhello, hlength, hcount, e⟩ |
    ⟨hsession, hhello, result, opcode, e⟩
  · right
    have hactive := sessionPacket_active hsession
    have hstill := processSessionPacket_still c (s.heard packet) packet
    rw [hsession, hhello, e]
    refine ⟨rfl, ⟨hstill.ticks_eq, hstill.enabled_eq, hstill.broadcasts_eq, ?_, hstill.lastActivityTick_eq⟩, Or.inl hactive⟩
    rw [hstill.active_eq]
    exact hactive
  · right
    have hused := processHello_used c (s := { s with lastProtocolResult := 0, lastOpcode := packet.opcode }) hlength hcount d.peer
    rw [hsession, hhello, e]
    exact ⟨rfl, ⟨hused.ticks_eq, hused.enabled_eq, hused.broadcasts_eq, hused.active_eq, hused.lastActivityTick_eq⟩, Or.inr rfl⟩
  · left
    rw [hsession, hhello, e]
    exact ⟨rfl, ⟨rfl, rfl, rfl, rfl, rfl⟩⟩

/-- An entry that hands nothing to `process_datagram`. -/
theorem unpolled_still {c : Config} {s : State} {e : Entry} (henabled : s.enabled = true) (h : polledDatagram c s e = none) :
    Still (beforePoll c s e) (ratsrIdleWorker c s e) := by
  unfold ratsrIdleWorker
  rw [if_neg (not_not.mpr henabled)]
  dsimp only
  split
  · exact emitFragment_still _
  rename_i hpending
  split
  · exact ⟨rfl, rfl, rfl, rfl, rfl⟩
  rename_i hhello
  rcases pollDatagram_cases c (beforePoll c s e) e with ⟨-, hpoll⟩ | ⟨d, result, -, -, hpoll | hpoll⟩ | ⟨d, hslot, hnow, -⟩
  · rw [hpoll]
    exact Still.refl _
  · rw [hpoll]
    exact ⟨rfl, rfl, rfl, rfl, rfl⟩
  · rw [hpoll]
    exact ⟨rfl, rfl, rfl, rfl, rfl⟩
  · simp only [polledDatagram, henabled, hpending, hhello, hslot, if_neg hnow, Bool.not_false, Bool.and_true, if_true,
      reduceCtorEq] at h

/-- What an entry leaves of the time: either nothing used the session, or something did, and
    then the session was there or is opened. -/
theorem ratsrIdleWorker_time (c : Config) {s : State} (e : Entry) (henabled : s.enabled = true) :
    (usesSession c s e = false ∧ opensSession c s e = false ∧ Still (beforePoll c s e) (ratsrIdleWorker c s e)) ∨
      (usesSession c s e = true ∧ Used (beforePoll c s e) (ratsrIdleWorker c s e) ∧
        ((beforePoll c s e).session.active = true ∨ opensSession c s e = true)) := by
  unfold usesSession opensSession
  rcases ratsrIdleWorker_cases c s e with ⟨hpolled, -, -⟩ | ⟨hpolled, -, -⟩ | ⟨d, hpolled, -, hrun⟩
  · left
    rw [hpolled]
    exact ⟨rfl, rfl, unpolled_still henabled hpolled⟩
  · left
    rw [hpolled]
    exact ⟨rfl, rfl, unpolled_still henabled hpolled⟩
  · rw [hpolled, hrun]
    have hrelease : ∀ t : State, Still t t.release := fun _ => ⟨rfl, rfl, rfl, rfl, rfl⟩
    rcases processDatagram_time c (beforePoll c s e) d with ⟨hunused, hstill⟩ | ⟨hused, hnow, hopen⟩
    · left
      exact ⟨hunused, (Bool.or_eq_false_iff.mp hunused).1, hstill.trans (hrelease _)⟩
    · right
      exact ⟨hused, ⟨hnow.ticks_eq, hnow.enabled_eq, hnow.broadcasts_eq, hnow.active_eq, hnow.lastActivityTick_eq⟩, hopen⟩

/-! ## Expiry and discovery -/

/-- An idle session ends, and nothing else changes. -/
theorem expireSession_time (s : State) :
    (expireSession s).ticks = s.ticks ∧ (expireSession s).enabled = s.enabled ∧ (expireSession s).broadcasts = s.broadcasts ∧
      (expireSession s).session.lastActivityTick = s.session.lastActivityTick ∧
      ((expireSession s).session.active = true ↔
        s.session.active = true ∧ ¬ s.ticks - s.session.lastActivityTick ≥ sessionIdleTicks) := by
  unfold expireSession
  split
  · rename_i hexpired
    refine ⟨rfl, rfl, rfl, rfl, ?_⟩
    exact iff_of_false (by simp) fun h => h.2 hexpired.2
  · rename_i hkept
    refine ⟨rfl, rfl, rfl, rfl, ?_⟩
    exact ⟨fun hactive => ⟨hactive, fun hlate => hkept ⟨hactive, hlate⟩⟩, fun h => h.1⟩

theorem cleanTransfer_still (s : State) (e : Entry) : Still s (cleanTransfer s e) := by
  unfold cleanTransfer
  split <;> exact ⟨rfl, rfl, rfl, rfl, rfl⟩

/-- An advertisement is sent without a session only. -/
theorem advertise_time (c : Config) (s : State) :
    (advertise c s).ticks = s.ticks ∧ (advertise c s).enabled = s.enabled ∧ (advertise c s).session = s.session ∧
      ((advertise c s).broadcasts = s.broadcasts ∨
        s.session.active = false ∧ (advertise c s).broadcasts = s.broadcasts ++ [discoveryPayload c]) := by
  unfold advertise
  split
  · rename_i hdue
    exact ⟨rfl, rfl, rfl, Or.inr ⟨by simpa using hdue.1, rfl⟩⟩
  · exact ⟨rfl, rfl, rfl, Or.inl rfl⟩

/-- The first part of an entry. -/
structure Begun (c : Config) (s : State) (e : Entry) (t : State) : Prop where
  ticks_eq : t.ticks = (enterWorker s e).ticks
  enabled_eq : t.enabled = s.enabled
  lastActivityTick_eq : t.session.lastActivityTick = s.session.lastActivityTick
  active_iff : t.session.active = true ↔
    s.session.active = true ∧ ¬ (enterWorker s e).ticks - s.session.lastActivityTick ≥ sessionIdleTicks
  broadcasts : t.broadcasts = s.broadcasts ∨
    t.session.active = false ∧ t.broadcasts = s.broadcasts ++ [discoveryPayload c]

theorem beforePoll_begun (c : Config) (s : State) (e : Entry) : Begun c s e (beforePoll c s e) := by
  obtain ⟨hticks, henabled, hbroadcasts, hlast, hactive⟩ := expireSession_time (enterWorker s e)
  have hclean := cleanTransfer_still (expireSession (enterWorker s e)) e
  obtain ⟨hticks', henabled', hsession', hbroadcasts'⟩ := advertise_time c (cleanTransfer (expireSession (enterWorker s e)) e)
  unfold beforePoll
  refine ⟨?_, ?_, ?_, ?_, ?_⟩
  · rw [hticks', hclean.ticks_eq, hticks]
  · rw [henabled', hclean.enabled_eq, henabled]
    rfl
  · rw [hsession', hclean.lastActivityTick_eq, hlast]
    rfl
  · rw [hsession', hclean.active_eq]
    exact hactive
  · rw [hsession']
    rw [hclean.broadcasts_eq, hbroadcasts] at hbroadcasts'
    exact hbroadcasts'

/-! ## The count -/

/-- The agent, and the timer entries since its session was last used. -/
structure Watch where
  state : State
  idle : Nat

/-- The count an entry finds, with its own tick. -/
def idleAt (idle : Nat) (e : Entry) : Nat := if e.dosIdle then idle else idle + 1

def Watch.step (c : Config) (w : Watch) : ResidentEvent → Watch
  | .arrive d => ⟨arrive w.state d, w.idle⟩
  | .enter e => ⟨ratsrIdleWorker c w.state e, if usesSession c w.state e then 0 else idleAt w.idle e⟩

def Watch.run (c : Config) (w : Watch) (events : List ResidentEvent) : Watch := events.foldl (Watch.step c) w

theorem Watch.run_state (c : Config) (w : Watch) (events : List ResidentEvent) :
    (w.run c events).state = w.state.resident c events := by
  induction events generalizing w with
  | nil => rfl
  | cons event events ih =>
    have hstep : (w.step c event).state = w.state.residentStep c event := by cases event <;> rfl
    rw [Watch.run, List.foldl_cons, ← Watch.run, ih, hstep]
    rfl

/-- The ticks of an active session are as far apart as the count says, and not yet too far. -/
structure Watch.Inv (w : Watch) : Prop where
  enabled : w.state.enabled = true
  idle_lt : w.state.session.active = true → w.idle < 546
  elapsed : w.state.session.active = true → w.state.ticks - w.state.session.lastActivityTick = UInt16.ofNat w.idle

theorem enterWorker_elapsed {s : State} {idle : Nat} (h : s.ticks - s.session.lastActivityTick = UInt16.ofNat idle) (e : Entry) :
    (enterWorker s e).ticks - s.session.lastActivityTick = UInt16.ofNat (idleAt idle e) := by
  by_cases hidle : e.dosIdle = true
  · have hticks : (enterWorker s e).ticks = s.ticks := if_pos hidle
    rw [hticks, h, idleAt, if_pos hidle]
  · have hticks : (enterWorker s e).ticks = s.ticks + 1 := if_neg hidle
    have hnext : s.ticks + 1 - s.session.lastActivityTick = s.ticks - s.session.lastActivityTick + 1 := by grind
    have hsucc : UInt16.ofNat (idle + 1) = UInt16.ofNat idle + 1 := UInt16.ofNat_add idle 1
    rw [hticks, hnext, h, idleAt, if_neg hidle, hsucc]

/-- The difference of the ticks is the count, which has not come far past the limit. -/
theorem limit_iff {n : Nat} (h : n ≤ 546) : UInt16.ofNat n ≥ sessionIdleTicks ↔ 546 ≤ n := by
  have hvalue : (UInt16.ofNat n).toNat = n := by
    rw [UInt16.toNat_ofNat']
    omega
  rw [ge_iff_le, UInt16.le_iff_toNat_le, hvalue]
  rfl

theorem idleAt_le {idle : Nat} (h : idle < 546) (e : Entry) : idleAt idle e ≤ 546 := by
  unfold idleAt
  split <;> omega

/-- An entry finds the session idle for too long exactly when the count says so. -/
theorem Watch.Inv.expires_iff {w : Watch} (h : w.Inv) (c : Config) (e : Entry) :
    (beforePoll c w.state e).session.active = true ↔ w.state.session.active = true ∧ idleAt w.idle e < 546 := by
  rw [(beforePoll_begun c w.state e).active_iff]
  refine and_congr_right fun hactive => ?_
  rw [enterWorker_elapsed (h.elapsed hactive) e, limit_iff (idleAt_le (h.idle_lt hactive) e), Nat.not_le]

theorem Watch.Inv.enter {w : Watch} (h : w.Inv) (c : Config) (e : Entry) : (w.step c (.enter e)).Inv := by
  have hbegun := beforePoll_begun c w.state e
  have hexpires := h.expires_iff c e
  rcases ratsrIdleWorker_time c e h.enabled with ⟨hunused, -, hstill⟩ | ⟨hused, hnow, -⟩
  · rw [Watch.step, hunused]
    refine ⟨?_, ?_, ?_⟩
    · rw [hstill.enabled_eq, hbegun.enabled_eq, h.enabled]
    · intro hactive
      rw [hstill.active_eq, hexpires] at hactive
      exact hactive.2
    · intro hactive
      rw [hstill.active_eq, hexpires] at hactive
      rw [hstill.ticks_eq, hbegun.ticks_eq, hstill.lastActivityTick_eq, hbegun.lastActivityTick_eq]
      exact enterWorker_elapsed (h.elapsed hactive.1) e
  · rw [Watch.step, hused, if_pos rfl]
    refine ⟨?_, fun _ => Nat.succ_pos 545, fun _ => ?_⟩
    · rw [hnow.enabled_eq, hbegun.enabled_eq, h.enabled]
    · rw [hnow.ticks_eq, hnow.lastActivityTick_eq]
      exact UInt16.sub_self _

theorem Watch.Inv.step {w : Watch} (h : w.Inv) (c : Config) (event : ResidentEvent) : (w.step c event).Inv := by
  cases event with
  | arrive d =>
    have harrive : (arrive w.state d).enabled = w.state.enabled ∧ (arrive w.state d).session = w.state.session ∧
        (arrive w.state d).ticks = w.state.ticks := by
      unfold arrive
      split <;> exact ⟨rfl, rfl, rfl⟩
    obtain ⟨henabled, hsession, hticks⟩ := harrive
    refine ⟨?_, ?_, ?_⟩
    · rw [Watch.step, henabled, h.enabled]
    · rw [Watch.step, hsession]
      exact h.idle_lt
    · rw [Watch.step, hsession, hticks]
      exact h.elapsed
  | enter e => exact h.enter c e

/-- By induction on the run. -/
theorem Watch.Inv.run {w : Watch} (h : w.Inv) (c : Config) (events : List ResidentEvent) : (w.run c events).Inv := by
  induction events generalizing w with
  | nil => exact h
  | cons event events ih => exact ih (h.step c event)

theorem Watch.start_inv (m : Machine) (store : Store) : Watch.Inv ⟨State.start m store, 0⟩ :=
  ⟨rfl, fun hactive => Bool.noConfusion hactive, fun hactive => Bool.noConfusion hactive⟩

/-- However often the ticks wrap: an active session was used less than 546 timer entries ago,
    the next entry ends it exactly when these are 546 with its own, only a HELLO opens one, and
    no entry advertises while there is a session. -/
theorem session_expiry_exact (c : Config) (m : Machine) (store : Store) (events : List ResidentEvent) (e : Entry) :
    let w := Watch.run c ⟨State.start m store, 0⟩ events
    w.state = (State.start m store).resident c events ∧
      (w.state.session.active = true → w.idle < 546 ∧
        ((beforePoll c w.state e).session.active = false ↔ 546 ≤ idleAt w.idle e)) ∧
      ((ratsrIdleWorker c w.state e).session.active = true ↔
        (beforePoll c w.state e).session.active = true ∨ opensSession c w.state e = true) ∧
      ((ratsrIdleWorker c w.state e).broadcasts = w.state.broadcasts ∨
        (w.state.session.active = false ∨ 546 ≤ idleAt w.idle e) ∧ (beforePoll c w.state e).session.active = false ∧
          (ratsrIdleWorker c w.state e).broadcasts = w.state.broadcasts ++ [discoveryPayload c]) := by
  intro w
  have hi : w.Inv := (Watch.start_inv m store).run c events
  have hbegun := beforePoll_begun c w.state e
  have hexpires := hi.expires_iff c e
  refine ⟨Watch.run_state c _ events, ?_, ?_, ?_⟩
  · intro hactive
    refine ⟨hi.idle_lt hactive, ?_⟩
    rw [← Bool.not_eq_true, hexpires, not_and]
    exact ⟨fun h => Nat.not_lt.mp (h hactive), fun h _ => Nat.not_lt.mpr h⟩
  · rcases ratsrIdleWorker_time c e hi.enabled with ⟨-, hclosed, hstill⟩ | ⟨-, hnow, hopen⟩
    · rw [hstill.active_eq, hclosed]
      simp
    · exact iff_of_true hnow.active_eq hopen
  · have hkept : (ratsrIdleWorker c w.state e).broadcasts = (beforePoll c w.state e).broadcasts := by
      rcases ratsrIdleWorker_time c e hi.enabled with ⟨-, -, hstill⟩ | ⟨-, hnow, -⟩
      · exact hstill.broadcasts_eq
      · exact hnow.broadcasts_eq
    rw [hkept]
    rcases hbegun.broadcasts with hsame | ⟨hinactive, hsent⟩
    · exact Or.inl hsame
    · right
      refine ⟨?_, hinactive, hsent⟩
      by_contra hnot
      simp only [not_or, Bool.not_eq_false, Nat.not_le] at hnot
      rw [hexpires.mpr hnot] at hinactive
      cases hinactive

end DosMcp.Dos
