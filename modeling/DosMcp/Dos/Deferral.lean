/-
  DosMcp.Dos.Deferral — file requests that wait in the receive slot for DOS.

  A worker entry that polls may find an operation that calls DOS while DOS cannot be called.
  If its datagram is authentic the entry returns without a release (`Defers`), and every later
  entry polls the same datagram again and decides anew.

  - `Waiting`: what keeps a deferred datagram in the slot. An arrival finds the slot full, an
    entry that may not call DOS defers again, and nothing else is polled, so no response and no
    HELLO becomes pending.
  - `deferral_transparent`: the slot keeps no datagram that is not authentic; a deferred one
    stays until the session expires or DOS can be called, and is then processed once.
-/

import DosMcp.Dos.WorkerProofs

namespace DosMcp.Dos

open Lib

/-- The datagram passes CRC and MAC under the key that its opcode and the session name. -/
def State.Authentic (c : Config) (s : State) (payload : Bytes) : Prop :=
  ∃ key packet, s.datagramKey c payload = some key ∧ dmPacketDecode payload key = .ok packet

/-- The entry comes as far as `dm_net_poll`. -/
def polls (c : Config) (s : State) (e : Entry) : Bool :=
  s.enabled && !(beforePoll c s e).session.responsePending && !(beforePoll c s e).session.helloPending

/-- The entry polls the datagram and leaves it in the slot. -/
structure Defers (c : Config) (s : State) (e : Entry) (d : Datagram) : Prop where
  slot_eq : s.slot = some d
  polls_eq : polls c s e = true
  operation : dosOperation (beforePoll c s e) d.payload = true
  dosSafe_eq : e.dosSafe = false
  authentic : (beforePoll c s e).Authentic c d.payload

/-- The session is idle for too long at the entry. -/
def expires (s : State) (e : Entry) : Bool := s.session.active && !(expireSession (enterWorker s e)).session.active

/-- The session expires at no entry of the run. -/
def keepsSession (c : Config) : State → List ResidentEvent → Bool
  | _, [] => true
  | s, .arrive d :: events => keepsSession c (s.residentStep c (.arrive d)) events
  | s, .enter e :: events => !expires s e && keepsSession c (s.residentStep c (.enter e)) events

/-- The datagrams that the entries of the run hand to `process_datagram`, in order. -/
def handed (c : Config) : State → List ResidentEvent → List Datagram
  | _, [] => []
  | s, .arrive d :: events => handed c (s.residentStep c (.arrive d)) events
  | s, .enter e :: events => (polledDatagram c s e).toList ++ handed c (s.residentStep c (.enter e)) events

theorem handed_append (c : Config) (s : State) (events more : List ResidentEvent) :
    handed c s (events ++ more) = handed c s events ++ handed c (s.resident c events) more := by
  induction events generalizing s with
  | nil => rfl
  | cons event events ih =>
    cases event with
    | arrive d => exact ih _
    | enter e =>
      rw [List.cons_append, handed, handed, ih, List.append_assoc]
      rfl

/-! ## One entry -/

theorem validateDeferredDatagram_authentic {c : Config} {s : State} {payload : Bytes} (h : s.Authentic c payload) :
    validateDeferredDatagram c s payload = (true, { s with lastProtocolResult := 0 }) := by
  obtain ⟨key, packet, hkey, hdecode⟩ := h
  simp only [validateDeferredDatagram, hkey, hdecode]

theorem validateDeferredDatagram_forged {c : Config} {s : State} {payload : Bytes} (h : ¬ s.Authentic c payload) :
    (validateDeferredDatagram c s payload).1 = false := by
  unfold validateDeferredDatagram
  split
  · rfl
  split
  · rfl
  · exact absurd ⟨_, _, by assumption, by assumption⟩ h

theorem validateDeferredDatagram_fst_iff {c : Config} {s : State} {payload : Bytes} :
    (validateDeferredDatagram c s payload).1 = true ↔ s.Authentic c payload := by
  constructor
  · intro hvalid
    by_contra hforged
    rw [validateDeferredDatagram_forged hforged] at hvalid
    cases hvalid
  · intro h
    rw [validateDeferredDatagram_authentic h]

instance (c : Config) (s : State) (payload : Bytes) : Decidable (s.Authentic c payload) :=
  decidable_of_iff _ validateDeferredDatagram_fst_iff

theorem ratsrIdleWorker_polls {c : Config} {s : State} {e : Entry} (h : polls c s e = true) :
    ratsrIdleWorker c s e = pollDatagram c (beforePoll c s e) e := by
  simp only [polls, Bool.and_eq_true, Bool.not_eq_true'] at h
  obtain ⟨⟨henabled, hresponse⟩, hhello⟩ := h
  rw [ratsrIdleWorker, if_neg (not_not.mpr henabled)]
  simp only [hresponse, hhello, Bool.false_eq_true, if_false]

/-- A datagram that does not authenticate is released by the entry that polls it. -/
theorem polls_forged {c : Config} {s : State} {e : Entry} {d : Datagram} (hslot : s.slot = some d) (hpolls : polls c s e = true)
    (hforged : ¬ (beforePoll c s e).Authentic c d.payload) : (ratsrIdleWorker c s e).slot = none := by
  rw [ratsrIdleWorker_polls hpolls]
  simp only [pollDatagram, (beforePoll_session c s e).2.1, hslot]
  split
  · rcases hvalid : validateDeferredDatagram c (beforePoll c s e) d.payload with ⟨valid, t⟩
    have hfalse := validateDeferredDatagram_forged hforged
    rw [hvalid] at hfalse
    obtain rfl : valid = false := hfalse
    rfl
  · rfl

/-- An entry that defers notes the result of the validation, and nothing more. -/
theorem Defers.worker {c : Config} {s : State} {e : Entry} {d : Datagram} (h : Defers c s e d) :
    ratsrIdleWorker c s e = { beforePoll c s e with lastProtocolResult := 0 } := by
  have hslot : (beforePoll c s e).slot = some d := (beforePoll_session c s e).2.1.trans h.slot_eq
  rw [ratsrIdleWorker_polls h.polls_eq]
  unfold pollDatagram
  split
  · rename_i hnone
    rw [hslot] at hnone
    cases hnone
  · rename_i datagram hsome
    obtain rfl : d = datagram := Option.some.inj (hslot.symm.trans hsome)
    rw [if_pos ⟨h.operation, by simp [h.dosSafe_eq]⟩, validateDeferredDatagram_authentic h.authentic]

theorem Defers.polledDatagram {c : Config} {s : State} {e : Entry} {d : Datagram} (h : Defers c s e d) :
    polledDatagram c s e = none := by
  have hpolls := h.polls_eq
  simp only [polls] at hpolls
  simp only [DosMcp.Dos.polledDatagram, hpolls, if_true, (beforePoll_session c s e).2.1, h.slot_eq]
  exact if_pos ⟨h.operation, by simp [h.dosSafe_eq]⟩

/-! ## Waiting -/

/-- The slot holds an authentic operation that calls DOS, and nothing else is pending. -/
structure Waiting (c : Config) (s : State) (d : Datagram) : Prop where
  slot_eq : s.slot = some d
  enabled_eq : s.enabled = true
  responsePending_eq : s.session.responsePending = false
  helloPending_eq : s.session.helloPending = false
  operation : dosOperation s d.payload = true
  authentic : s.Authentic c d.payload

theorem beforePoll_enabled (c : Config) (s : State) (e : Entry) : (beforePoll c s e).enabled = s.enabled := by
  unfold beforePoll advertise cleanTransfer expireSession enterWorker
  split_ifs <;> rfl

theorem Defers.waiting {c : Config} {s : State} {e : Entry} {d : Datagram} (h : Defers c s e d) :
    Waiting c (ratsrIdleWorker c s e) d := by
  have hpolls := h.polls_eq
  simp only [polls, Bool.and_eq_true, Bool.not_eq_true'] at hpolls
  rw [h.worker]
  exact ⟨(beforePoll_session c s e).2.1.trans h.slot_eq, (beforePoll_enabled c s e).trans hpolls.1.1, hpolls.1.2, hpolls.2,
    h.operation, h.authentic⟩

/-- An arrival finds the slot full. -/
theorem Waiting.arrive {c : Config} {s : State} {d : Datagram} (h : Waiting c s d) (other : Datagram) :
    s.residentStep c (.arrive other) = s := by
  show DosMcp.Dos.arrive s other = s
  rw [DosMcp.Dos.arrive, h.slot_eq]

/-- The session of a waiting datagram is active: the opcode is not HELLO. -/
theorem Waiting.active {c : Config} {s : State} {d : Datagram} (h : Waiting c s d) : s.session.active = true := by
  have hoperation := h.operation
  simp only [dosOperation, decide_eq_true_eq] at hoperation
  obtain ⟨hlength, hlow, -⟩ := hoperation
  have hhello : byteAt d.payload 4 ≠ dmOpHello := by
    intro heq
    rw [heq] at hlow
    exact absurd hlow (by decide)
  obtain ⟨key, packet, hkey, -⟩ := h.authentic
  rw [State.datagramKey, if_pos ⟨hlength, hhello⟩] at hkey
  by_contra hinactive
  rw [if_neg hinactive] at hkey
  cases hkey

theorem beforePoll_keeps {s : State} {e : Entry} (c : Config) (hactive : s.session.active = true) (hexpires : expires s e = false) :
    (beforePoll c s e).session = s.session ∧ (beforePoll c s e).files = s.files := by
  have hsession : (beforePoll c s e).session = s.session := by
    rcases beforePoll_active c s e with h | h
    · exact h
    · rw [(beforePoll_session c s e).1] at h
      simp [expires, hactive, h] at hexpires
  refine ⟨hsession, ?_⟩
  rcases beforePoll_files c s e with h | ⟨-, -, hinactive⟩
  · exact h
  · rw [hsession, hactive] at hinactive
    cases hinactive

theorem Waiting.defers {c : Config} {s : State} {d : Datagram} (h : Waiting c s d) {e : Entry} (hsafe : e.dosSafe = false)
    (hexpires : expires s e = false) : Defers c s e d := by
  obtain ⟨hsession, hfiles⟩ := beforePoll_keeps c h.active hexpires
  refine ⟨h.slot_eq, ?_, ?_, hsafe, ?_⟩
  · rw [polls, hsession, h.enabled_eq, h.responsePending_eq, h.helloPending_eq]
    rfl
  · have hoperation := h.operation
    unfold dosOperation at hoperation ⊢
    rw [hfiles]
    exact hoperation
  · have hauthentic := h.authentic
    unfold State.Authentic State.datagramKey at hauthentic ⊢
    rw [hsession]
    exact hauthentic

/-- By induction on the run: what has been deferred is deferred again by every entry that may
    not call DOS. -/
theorem Waiting.run {c : Config} {s : State} {d : Datagram} (h : Waiting c s d) {later : List ResidentEvent}
    (hsafe : ∀ e, .enter e ∈ later → e.dosSafe = false) (hkeeps : keepsSession c s later = true) :
    Waiting c (s.resident c later) d ∧ handed c s later = [] := by
  induction later generalizing s with
  | nil => exact ⟨h, rfl⟩
  | cons event later ih =>
    have hrest : ∀ e, .enter e ∈ later → e.dosSafe = false := fun e he => hsafe e (List.mem_cons_of_mem _ he)
    cases event with
    | arrive other =>
      have hsame := h.arrive other
      rw [keepsSession, hsame] at hkeeps
      rw [State.resident, List.foldl_cons, handed, hsame]
      exact ih h hrest hkeeps
    | enter e =>
      simp only [keepsSession, Bool.and_eq_true, Bool.not_eq_true'] at hkeeps
      have hdefers := h.defers (hsafe e (List.mem_cons_self ..)) hkeeps.1
      obtain ⟨hwaiting, hhanded⟩ := ih hdefers.waiting hrest hkeeps.2
      refine ⟨hwaiting, ?_⟩
      rw [handed, hdefers.polledDatagram]
      exact hhanded

/-- The first entry that may call DOS processes the waiting datagram, whether or not the
    session expires at it. -/
theorem Waiting.processed {c : Config} {s : State} {d : Datagram} (h : Waiting c s d) {e : Entry} (hsafe : e.dosSafe = true) :
    polledDatagram c s e = some d ∧ ratsrIdleWorker c s e = (processDatagram .ratsr c (beforePoll c s e) d).release := by
  have hpending : (beforePoll c s e).session.responsePending = false ∧ (beforePoll c s e).session.helloPending = false := by
    rw [(beforePoll_session c s e).1]
    unfold expireSession
    split
    · exact ⟨rfl, h.helloPending_eq⟩
    · exact ⟨h.responsePending_eq, h.helloPending_eq⟩
  have hpolls : polls c s e = true := by
    rw [polls, hpending.1, hpending.2, h.enabled_eq]
    rfl
  have hslot : (beforePoll c s e).slot = some d := (beforePoll_session c s e).2.1.trans h.slot_eq
  have hno : ¬ (dosOperation (beforePoll c s e) d.payload = true ∧ ¬ e.dosSafe = true) := fun hboth => hboth.2 hsafe
  refine ⟨?_, ?_⟩
  · rw [polls] at hpolls
    simp only [polledDatagram, hpolls, if_true, hslot]
    exact if_neg hno
  · rw [ratsrIdleWorker_polls hpolls]
    simp only [pollDatagram, hslot]
    exact if_neg hno

/-- In every run of the resident program: a polled datagram that does not authenticate is gone
    after the entry; a datagram deferred by one entry stays in the slot over all later entries
    that may not call DOS, as long as the session does not expire, and the first entry that may
    call DOS hands it to `process_datagram`, once, and frees the slot. -/
theorem deferral_transparent (c : Config) (m : Machine) (store : Store) (events : List ResidentEvent) :
    (∀ e d, ((State.start m store).resident c events).slot = some d → polls c ((State.start m store).resident c events) e = true →
      ¬ (beforePoll c ((State.start m store).resident c events) e).Authentic c d.payload →
        (ratsrIdleWorker c ((State.start m store).resident c events) e).slot = none) ∧
    ∀ e d, Defers c ((State.start m store).resident c events) e d → ∀ later, (∀ e', .enter e' ∈ later → e'.dosSafe = false) →
      keepsSession c (ratsrIdleWorker c ((State.start m store).resident c events) e) later = true →
        ((State.start m store).resident c (events ++ .enter e :: later)).slot = some d ∧
        handed c ((State.start m store).resident c events) (.enter e :: later) = [] ∧
        ∀ e', e'.dosSafe = true →
          ratsrIdleWorker c ((State.start m store).resident c (events ++ .enter e :: later)) e' =
            (processDatagram .ratsr c
              (beforePoll c ((State.start m store).resident c (events ++ .enter e :: later)) e') d).release ∧
          (ratsrIdleWorker c ((State.start m store).resident c (events ++ .enter e :: later)) e').slot = none ∧
          handed c ((State.start m store).resident c events) (.enter e :: later ++ [.enter e']) = [d] := by
  generalize hs : (State.start m store).resident c events = s
  refine ⟨fun e d hslot hpolls hforged => polls_forged hslot hpolls hforged, ?_⟩
  intro e d hdefers later hsafe hkeeps
  obtain ⟨hwaiting, hhanded⟩ := hdefers.waiting.run hsafe hkeeps
  have hrun : (State.start m store).resident c (events ++ .enter e :: later) = (ratsrIdleWorker c s e).resident c later := by
    rw [← hs]
    exact List.foldl_append
  have hnone : handed c s (.enter e :: later) = [] := by
    rw [handed, hdefers.polledDatagram]
    exact hhanded
  rw [hrun]
  refine ⟨hwaiting.slot_eq, hnone, fun e' hsafe' => ?_⟩
  obtain ⟨hpolled, hworker⟩ := hwaiting.processed hsafe'
  refine ⟨hworker, ?_, ?_⟩
  · rw [hworker]
    rfl
  · have hafter : s.resident c (.enter e :: later) = (ratsrIdleWorker c s e).resident c later := rfl
    rw [handed_append, hnone, hafter, handed, hpolled]
    rfl

/-- The `FILE_READ_BEGIN` of `endFromTimer`. -/
def readRequest : Datagram :=
  match clientDatagram readKey 8 (helloSessionId 0 blankMachine.makeNonce) 2 [1, 0x41] with
  | .arrive d => d
  | .enter _ => ⟨[], ⟨[], [], 0⟩⟩

/-- It arrives in a session. -/
def readArrived : List ResidentEvent :=
  [clientDatagram sampleConfig.baseKey 1 0 1 [0, 0, 0, 0], timerEntry, timerEntry, .arrive readRequest]

def readStore : Store := dosStore (fun _ => some []) fun _ => ⟨true, 0⟩

/-- It waits for two timer entries and an idle entry with a critical error. -/
theorem deferral_transparent_read :
    handed sampleConfig ((State.start blankMachine readStore).resident sampleConfig readArrived)
      [timerEntry, timerEntry, .enter ⟨true, true, blankMachine⟩, idleEntry] = [readRequest] := by
  obtain ⟨-, h⟩ := deferral_transparent sampleConfig blankMachine readStore readArrived
  have hdefers : Defers sampleConfig ((State.start blankMachine readStore).resident sampleConfig readArrived)
      ⟨false, false, blankMachine⟩ readRequest :=
    ⟨by decide +kernel, by decide +kernel, by decide +kernel, rfl, by decide +kernel⟩
  have hlater : ∀ e, .enter e ∈ [timerEntry, .enter ⟨true, true, blankMachine⟩] → e.dosSafe = false := by
    intro e he
    rcases List.mem_cons.mp he with heq | he
    · cases heq
      rfl
    · cases List.mem_singleton.mp he
      rfl
  exact ((h _ _ hdefers _ hlater (by decide +kernel)).2.2 ⟨true, false, blankMachine⟩ rfl).2.2

end DosMcp.Dos
