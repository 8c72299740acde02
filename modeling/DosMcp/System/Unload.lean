/-
  DosMcp.System.Unload — RA-TSR among the programs that hook the same interrupts.

  Other programs hook and unhook interrupts, RA-TSR is installed and unloaded, and works in
  between, in any order. The vectors are compared with what they would be without RA-TSR.

  - `uninstallTsr_eq`: the checks of the unload, in the order in which they decide.
  - `vectors_restored`: RA-TSR's handlers are additions to the chains of the other programs. An
    unload that gets to the vectors takes exactly them out; one that does not leaves every vector
    as it is, and another handler above RA-TSR's always stops it.
  - `unload_exact`: with a packet driver that lets every handle go, an unload succeeds exactly with
    RA-TSR's handlers in their vectors and no file transfer, and changes nothing otherwise.
-/

import DosMcp.Dos.Resident
import DosMcp.Dos.WorkerProofs
import DosMcp.System.Install

namespace DosMcp.Dos

open Lib

/-! ## Runs -/

def Hooked.all : List Hooked := [.timer, .idle, .dosIdle, .multiplex]

inductive WorldEvent where
  | install (i : Installation)
  | work (event : ResidentEvent)
  | hook (number : UInt8) (handler : Far)
  | unhook (number : UInt8) (handler : Far)
  | unload (m : Machine) (frees : Bool)

/-- No handler of the interrupt is at the address: programs in memory do not overlap. -/
def World.unused (w : World) (number : UInt8) (handler : Far) : Bool := handler ≠ .null ∧ handler ∉ w.chains number

/-- RA-TSR has its handler for the interrupt at the address. -/
def World.isOwn (w : World) (number : UInt8) (handler : Far) : Bool :=
  match w.resident with
  | none => false
  | some r => Hooked.all.any fun v => v.number = number ∧ r.handler v = handler

/-- The program of the handler may take it out: it is in the vector. -/
def World.onTop (w : World) (number : UInt8) (handler : Far) : Bool :=
  (w.chains number).head? = some handler ∧ w.isOwn number handler = false

/-- The machine, and the chains of the programs other than RA-TSR. -/
structure Watched where
  world : World
  others : UInt8 → List Far

def Watched.step (s : Watched) : WorldEvent → Watched
  | .install i =>
    if Hooked.all.all fun v => s.world.unused v.number ⟨i.segment, i.offset v⟩ then { s with world := (residentMain i s.world).2 }
    else s
  | .work event =>
    match s.world.resident with
    | none => s
    | some r => { s with world := { s.world with resident := some { r with state := r.state.residentStep r.config event } } }
  | .hook number handler =>
    if s.world.unused number handler then
      ⟨s.world.setvect number handler, Function.update s.others number (handler :: s.others number)⟩
    else s
  | .unhook number handler =>
    if s.world.onTop number handler then
      ⟨{ s.world with chains := Function.update s.world.chains number (s.world.chains number).tail },
        Function.update s.others number (s.others number).tail⟩
    else s
  | .unload m frees => { s with world := (uninstallTsr m frees s.world).2 }

def Watched.run (s : Watched) (events : List WorldEvent) : Watched := events.foldl Watched.step s

/-! ## Where RA-TSR's handlers are -/

/-- The handler of RA-TSR is in the chain of the others at one place, and RA-TSR would restore
    the vector to what is below it. -/
structure Sits (chain others : List Far) (handler old : Far) : Prop where
  nonnull : handler ≠ .null
  placed : ∃ above below, others = above ++ below ∧ chain = above ++ handler :: below ∧ handler ∉ above ∧ handler ∉ below ∧
    old = below.head?.getD .null

/-- The chains with RA-TSR: those of the others, and its handlers while it is resident. -/
structure Layered (s : Watched) : Prop where
  gone : s.world.resident = none → s.world.chains = s.others
  elsewhere : ∀ number, (∀ v : Hooked, v.number ≠ number) → s.world.chains number = s.others number
  sits : ∀ r, s.world.resident = some r → ∀ v : Hooked,
    Sits (s.world.chains v.number) (s.others v.number) (r.handler v) (r.old v)

theorem Hooked.number_injective {v u : Hooked} (h : v.number = u.number) : v = u := by
  cases v <;> cases u <;> first | rfl | (revert h; decide)

theorem Hooked.mem_all (v : Hooked) : v ∈ Hooked.all := by
  cases v <;> decide

section

variable {w : World} {r : Resident} {others : List Far} {chain : List Far} {handler old : Far} {number : UInt8}

theorem World.setvect_ne {number' : UInt8} (hne : number' ≠ number) :
    (w.setvect number handler).chains number' = w.chains number' := Function.update_of_ne hne _ _

theorem World.setvect_new (hunused : w.unused number handler = true) :
    (w.setvect number handler).chains number = handler :: w.chains number := by
  simp only [World.unused, decide_eq_true_eq] at hunused
  simp [World.setvect, hunused.1, hunused.2]

theorem Sits.mem (h : Sits chain others handler old) : handler ∈ chain := by
  obtain ⟨-, above, below, -, rfl, -⟩ := h
  exact List.mem_append_right _ List.mem_cons_self

/-- Where another program's handler comes on top. -/
theorem Sits.push (h : Sits chain others handler old) {other : Far} (hne : other ≠ handler) :
    Sits (other :: chain) (other :: others) handler old := by
  obtain ⟨hnull, above, below, rfl, rfl, habove, hbelow, hold⟩ := h
  refine ⟨hnull, other :: above, below, rfl, rfl, ?_, hbelow, hold⟩
  rw [List.mem_cons, not_or]
  exact ⟨hne.symm, habove⟩

/-- Where the handler on top, another program's, is taken out. -/
theorem Sits.pop (h : Sits chain others handler old) {other : Far} (htop : chain.head? = some other) (hne : other ≠ handler) :
    Sits chain.tail others.tail handler old := by
  obtain ⟨hnull, above, below, rfl, rfl, habove, hbelow, hold⟩ := h
  cases above with
  | nil =>
    cases htop
    exact absurd rfl hne
  | cons top above => exact ⟨hnull, above, below, rfl, rfl, fun hmem => habove (List.mem_cons_of_mem _ hmem), hbelow, hold⟩

/-- With RA-TSR's handler in the vector, restoring it leaves the chain of the others. -/
theorem Sits.restore (h : Sits (w.chains number) others handler old) (htop : w.getvect number = handler) :
    (w.setvect number old).chains number = others := by
  obtain ⟨hnull, above, below, rfl, hchain, habove, hbelow, rfl⟩ := h
  have hnil : above = [] := by
    cases above with
    | nil => rfl
    | cons top above =>
      rw [World.getvect, hchain] at htop
      exact absurd (htop ▸ List.mem_cons_self) habove
  subst hnil
  show Function.update w.chains number _ number = _
  rw [Function.update_self, hchain, List.nil_append, List.nil_append]
  cases below with
  | nil =>
    have hne : Far.null ∉ [handler] := by simpa using fun h => hnull h.symm
    simp only [List.head?_nil, Option.getD_none, if_neg hne, if_true]
  | cons next below =>
    have hne : handler ≠ next := fun h => hbelow (h ▸ List.mem_cons_self)
    simp [hne]

/-! ## The answers of the resident -/

theorem int2f_none (hnone : w.resident = none) (m : Machine) (regs : Regs) : w.int2f m regs = (regs, w) := by
  rw [World.int2f, hnone]

theorem int2f_some (hsome : w.resident = some r) (hmem : r.handler .multiplex ∈ w.chains 0x2F) (m : Machine) (regs : Regs)
    {regs' : Regs} {r' : Resident} (hanswer : ratsrMultiplexHandler m w.link r regs = some (regs', r')) :
    w.int2f m regs = (regs', { w with resident := some r' }) := by
  rw [World.int2f, hsome]
  simp only [if_pos hmem, hanswer]

/-- A query leaves the program as it is. -/
theorem int2f_query (hsome : w.resident = some r) (hmem : r.handler .multiplex ∈ w.chains 0x2F) (m : Machine) (regs : Regs)
    {regs' : Regs} (hanswer : ratsrMultiplexHandler m w.link r regs = some (regs', r)) : w.int2f m regs = (regs', w) := by
  rw [int2f_some hsome hmem m regs hanswer, ← hsome]

/-- The unload of a program that is there: each of its checks, and what it then releases. -/
theorem uninstallTsr_eq (hsome : w.resident = some r) (hmem : r.handler .multiplex ∈ w.chains 0x2F) (m : Machine) (frees : Bool) :
    uninstallTsr m frees w =
      if w.getvect 0x1C ≠ r.handler .idle ∨ w.getvect 0x2F ≠ r.handler .multiplex then (2, w)
      else if w.getvect 0x08 ≠ r.handler .timer then (2, w)
      else if w.getvect 0x28 ≠ r.handler .dosIdle then (2, w)
      else if r.state.files.transfer.kind ≠ .none then (3, w)
      else releaseResident frees r.psp w.link.ipHandle w.link.arpHandle r.old
        { w with resident := some (ratsrPrepareUnload r) } := by
  -- what each query answers, whatever is in the other registers
  have hpresent := int2f_query hsome hmem m ⟨ratsrMultiplex, 0, 0, 0, 0, 0⟩ rfl
  have htimer : ∀ cx dx si di, w.int2f m ⟨ratsrMultiplex, 5, cx, dx, si, di⟩ =
      (⟨ratsrReply, 5, r.offset .timer, r.segment, (r.old .timer).offset, (r.old .timer).segment⟩, w) :=
    fun _ _ _ _ => int2f_query hsome hmem m _ rfl
  have hdosIdle : ∀ cx dx si di, w.int2f m ⟨ratsrMultiplex, 3, cx, dx, si, di⟩ =
      (⟨ratsrReply, 3, r.offset .dosIdle, r.segment, (r.old .dosIdle).offset, (r.old .dosIdle).segment⟩, w) :=
    fun _ _ _ _ => int2f_query hsome hmem m _ rfl
  have hpacket : ∀ cx dx si di, w.int2f m ⟨ratsrMultiplex, 4, cx, dx, si, di⟩ =
      (⟨ratsrReply, w.link.ipHandle, w.link.arpHandle, w.link.interrupt.toUInt16, si, di⟩, w) :=
    fun _ _ _ _ => int2f_query hsome hmem m _ rfl
  unfold uninstallTsr
  rw [hpresent]
  dsimp only
  rw [if_neg (not_not.mpr rfl)]
  by_cases hvectors : w.getvect 0x1C ≠ r.handler .idle ∨ w.getvect 0x2F ≠ r.handler .multiplex
  · rw [if_pos hvectors]
    exact if_pos hvectors
  rw [if_neg hvectors]
  refine (if_neg hvectors).trans ?_
  rw [htimer]
  dsimp only
  by_cases hint08 : w.getvect 0x08 ≠ r.handler .timer
  · rw [if_pos hint08]
    exact if_pos (Or.inr hint08)
  rw [if_neg hint08]
  refine (if_neg (not_or.mpr ⟨not_not.mpr rfl, hint08⟩)).trans ?_
  rw [hdosIdle]
  dsimp only
  by_cases hint28 : w.getvect 0x28 ≠ r.handler .dosIdle
  · rw [if_pos hint28]
    exact if_pos (Or.inr hint28)
  rw [if_neg hint28]
  refine (if_neg (not_or.mpr ⟨not_not.mpr rfl, hint28⟩)).trans ?_
  rw [hpacket]
  dsimp only
  rw [if_neg (not_not.mpr rfl)]
  by_cases hbusy : r.state.files.transfer.kind ≠ .none
  · -- refused: AX is zero
    have hanswer : ∀ cx dx si di, ratsrMultiplexHandler m w.link r ⟨ratsrMultiplex, 1, cx, dx, si, di⟩ =
        some (⟨0, 1, cx, dx, si, di⟩, r) := by
      intro cx dx si di
      show some (if r.state.files.transfer.kind ≠ .none then _ else _) = _
      rw [if_pos hbusy]
    rw [int2f_query hsome hmem m _ (hanswer _ _ _ _), if_pos hbusy]
    rfl
  · have hanswer : ∀ cx dx si di, ratsrMultiplexHandler m w.link r ⟨ratsrMultiplex, 1, cx, dx, si, di⟩ =
        some (⟨ratsrReply, r.psp, (r.old .idle).offset, (r.old .idle).segment, (r.old .multiplex).offset,
          (r.old .multiplex).segment⟩, ratsrPrepareUnload r) := by
      intro cx dx si di
      show some (if r.state.files.transfer.kind ≠ .none then _ else _) = _
      rw [if_neg hbusy]
      rfl
    rw [int2f_some hsome hmem m _ (hanswer _ _ _ _), if_neg hbusy]
    dsimp only
    rw [if_neg (not_not.mpr rfl)]
    congr 1
    funext v
    cases v <;> rfl

/-! ## Several vectors at once -/

def World.setvects (w : World) (hooks : List Hooked) (p : Hooked → Far) : World :=
  hooks.foldl (fun w v => w.setvect v.number (p v)) w

theorem World.setvects_ne {hooks : List Hooked} {p : Hooked → Far} (h : ∀ v ∈ hooks, v.number ≠ number) :
    (w.setvects hooks p).chains number = w.chains number := by
  induction hooks generalizing w with
  | nil => rfl
  | cons v hooks ih =>
    have hne : number ≠ v.number := (h v List.mem_cons_self).symm
    exact (ih fun u hu => h u (List.mem_cons_of_mem _ hu)).trans (World.setvect_ne hne)

theorem World.setvect_congr {w' : World} (h : w'.chains number = w.chains number) (handler : Far) :
    (w'.setvect number handler).chains number = (w.setvect number handler).chains number := by
  simp only [World.setvect, Function.update_self, h]

/-- Each of the vectors is set by itself. -/
theorem World.setvects_mem {hooks : List Hooked} {p : Hooked → Far} {v : Hooked} (hnodup : hooks.Nodup) (hmem : v ∈ hooks) :
    (w.setvects hooks p).chains v.number = (w.setvect v.number (p v)).chains v.number := by
  induction hooks generalizing w with
  | nil => cases hmem
  | cons u hooks ih =>
    obtain ⟨hu, hnodup⟩ := List.nodup_cons.mp hnodup
    by_cases huv : u = v
    · subst huv
      have hrest : ∀ t ∈ hooks, t.number ≠ u.number := fun t ht heq => hu (Hooked.number_injective heq ▸ ht)
      exact World.setvects_ne (w := w.setvect u.number (p u)) hrest
    · have hv : v ∈ hooks := (List.mem_cons.mp hmem).resolve_left (Ne.symm huv)
      have hne : v.number ≠ u.number := fun heq => huv (Hooked.number_injective heq).symm
      exact (ih (w := w.setvect u.number (p u)) hnodup hv).trans (World.setvect_congr (World.setvect_ne hne) (p v))

theorem World.setvects_resident (w : World) (hooks : List Hooked) (p : Hooked → Far) :
    (w.setvects hooks p).resident = w.resident ∧ (w.setvects hooks p).link = w.link := by
  induction hooks generalizing w with
  | nil => exact ⟨rfl, rfl⟩
  | cons v hooks ih => exact ih (w.setvect v.number (p v))

/-! ## One event -/

/-- The release stops at the packet driver, or gives every vector back. -/
theorem releaseResident_cases {others : UInt8 → List Far} {handlers old : Hooked → Far}
    (hsits : ∀ v : Hooked, Sits (w.chains v.number) (others v.number) (handlers v) (old v))
    (htop : ∀ v : Hooked, w.getvect v.number = handlers v)
    (helsewhere : ∀ number, (∀ v : Hooked, v.number ≠ number) → w.chains number = others number) (frees : Bool)
    (psp ipHandle arpHandle : UInt16) :
    let result := releaseResident frees psp ipHandle arpHandle old w
    (result.1 = 3 ∧ result.2.chains = w.chains ∧ result.2.resident = w.resident) ∨
      ((result.1 = 0 ∨ result.1 = 4) ∧ result.2.chains = others ∧ result.2.resident = none ∧
        (dmPacketReleaseHandles w.link.driver ipHandle arpHandle).1 = 0 ∧
          result.2.link.driver = (dmPacketReleaseHandles w.link.driver ipHandle arpHandle).2) := by
  unfold releaseResident
  dsimp only
  by_cases hdriver : (dmPacketReleaseHandles w.link.driver ipHandle arpHandle).1 ≠ 0
  · rw [if_pos hdriver]
    exact Or.inl ⟨rfl, rfl, rfl⟩
  rw [if_neg hdriver]
  have hdriver := not_not.mp hdriver
  generalize hreleased : ({ w with link := { w.link with
    driver := (dmPacketReleaseHandles w.link.driver ipHandle arpHandle).2 } } : World) = w'
  have hchains : w'.chains = w.chains := by rw [← hreleased]
  have hlink : w'.link.driver = (dmPacketReleaseHandles w.link.driver ipHandle arpHandle).2 := by rw [← hreleased]
  have hall : (w'.setvects [.timer, .idle, .dosIdle, .multiplex] old).chains = others := by
    funext number
    by_cases hooked : ∃ v : Hooked, v.number = number
    · obtain ⟨v, rfl⟩ := hooked
      rw [World.setvects_mem (by decide) (by cases v <;> decide), World.setvect_congr (congrFun hchains _) (old v)]
      exact (hsits v).restore (htop v)
    · rw [World.setvects_ne fun v _ hv => hooked ⟨v, hv⟩, hchains]
      exact helsewhere number fun v hv => hooked ⟨v, hv⟩
  have hdone := (w'.setvects_resident [.timer, .idle, .dosIdle, .multiplex] old).2
  right
  split
  · exact ⟨Or.inl rfl, hall, rfl, hdriver, (congrArg PacketLink.driver hdone).trans hlink⟩
  · exact ⟨Or.inr rfl, hall, rfl, hdriver, (congrArg PacketLink.driver hdone).trans hlink⟩

/-- The core stays resident with its handlers on top, or changes no vector. -/
theorem residentMain_cases (i : Installation) (hnone : w.resident = none)
    (hunused : ∀ v : Hooked, w.unused v.number ⟨i.segment, i.offset v⟩ = true) :
    ((residentMain i w).1 ≠ 0 ∧ (residentMain i w).2.chains = w.chains ∧ (residentMain i w).2.resident = none) ∨
      ((residentMain i w).1 = 0 ∧
        (∀ v : Hooked, (residentMain i w).2.chains v.number = ⟨i.segment, i.offset v⟩ :: w.chains v.number) ∧
          (∀ number, (∀ v : Hooked, v.number ≠ number) → (residentMain i w).2.chains number = w.chains number) ∧
            ∃ r, (residentMain i w).2.resident = some r ∧
              ∀ v : Hooked, r.handler v = ⟨i.segment, i.offset v⟩ ∧ r.old v = w.getvect v.number) := by
  unfold residentMain
  split
  · exact Or.inl ⟨nofun, rfl, hnone⟩
  rename_i configuration _
  rw [residentInstall, int2f_none hnone]
  dsimp only
  rw [if_neg (by decide)]
  split
  · have hresult := dmPacketOpen_nonpos configuration.packetInterrupt (.start i.buffer w.link.driver)
    refine Or.inl ⟨?_, rfl, hnone⟩
    show (20 : Int) - _ ≠ 0
    omega
  split
  · exact Or.inl ⟨nofun, rfl, hnone⟩
  right
  generalize hloaded : ({ w with resident := some _, link := _, blocks := i.psp :: w.blocks } : World) = w'
  have hchains : w'.chains = w.chains := by rw [← hloaded]
  let handlers : Hooked → Far := fun v => ⟨i.segment, i.offset v⟩
  refine ⟨rfl, fun v => ?_, fun number hne => ?_, ?_⟩
  · show (w'.setvects [.idle, .timer, .dosIdle, .multiplex] handlers).chains v.number = _
    rw [World.setvects_mem (by decide) (by cases v <;> decide), World.setvect_congr (congrFun hchains _) (handlers v)]
    exact World.setvect_new (hunused v)
  · show (w'.setvects [.idle, .timer, .dosIdle, .multiplex] handlers).chains number = _
    rw [World.setvects_ne fun v _ => hne v, hchains]
  · refine ⟨_, ((w'.setvects_resident [.idle, .timer, .dosIdle, .multiplex] handlers).1.trans (congrArg World.resident hloaded.symm)).trans rfl, fun v => ⟨rfl, rfl⟩⟩

/-- With RA-TSR resident the core finds it, or no configuration, and ends. -/
theorem residentMain_present (i : Installation) (hsome : w.resident = some r)
    (hmem : r.handler .multiplex ∈ w.chains 0x2F) : (residentMain i w).2 = w := by
  unfold residentMain
  split
  · rfl
  · rw [residentInstall, int2f_query hsome hmem i.machine ⟨ratsrMultiplex, 0, 0, 0, 0, 0⟩ rfl]
    dsimp only
    rw [if_pos rfl]

end

section

variable {s : Watched}

theorem Layered.mem_multiplex (h : Layered s) {r : Resident} (hsome : s.world.resident = some r) :
    r.handler .multiplex ∈ s.world.chains 0x2F := (h.sits r hsome .multiplex).mem

/-- What an unload comes to: a refusal that changes nothing, a stop at the packet driver, or
    vectors as the others would have them. -/
theorem Layered.unload (h : Layered s) {r : Resident} (hsome : s.world.resident = some r) (m : Machine) (frees : Bool) :
    let u := uninstallTsr m frees s.world
    (u.2 = s.world ∧ ((u.1 = 2 ∧ ∃ v : Hooked, s.world.getvect v.number ≠ r.handler v) ∨
      (u.1 = 3 ∧ r.state.files.transfer.kind ≠ .none ∧ ∀ v : Hooked, s.world.getvect v.number = r.handler v))) ∨
      ((∀ v : Hooked, s.world.getvect v.number = r.handler v) ∧
        ((u.1 = 3 ∧ u.2.chains = s.world.chains ∧ u.2.resident = some (ratsrPrepareUnload r)) ∨
          ((u.1 = 0 ∨ u.1 = 4) ∧ u.2.chains = s.others ∧ u.2.resident = none ∧
            (dmPacketReleaseHandles s.world.link.driver s.world.link.ipHandle s.world.link.arpHandle).1 = 0 ∧
              u.2.link.driver = (dmPacketReleaseHandles s.world.link.driver s.world.link.ipHandle s.world.link.arpHandle).2))) := by
  intro u
  show (u.2 = _ ∧ _) ∨ _
  have hu : u = uninstallTsr m frees s.world := rfl
  rw [uninstallTsr_eq hsome (h.mem_multiplex hsome)] at hu
  by_cases hvectors : s.world.getvect 0x1C ≠ r.handler .idle ∨ s.world.getvect 0x2F ≠ r.handler .multiplex
  · rw [if_pos hvectors] at hu
    rw [hu]
    rcases hvectors with hidle | hmultiplex
    · exact Or.inl ⟨rfl, Or.inl ⟨rfl, .idle, hidle⟩⟩
    · exact Or.inl ⟨rfl, Or.inl ⟨rfl, .multiplex, hmultiplex⟩⟩
  rw [if_neg hvectors] at hu
  by_cases hint08 : s.world.getvect 0x08 ≠ r.handler .timer
  · rw [if_pos hint08] at hu
    rw [hu]
    exact Or.inl ⟨rfl, Or.inl ⟨rfl, .timer, hint08⟩⟩
  rw [if_neg hint08] at hu
  by_cases hint28 : s.world.getvect 0x28 ≠ r.handler .dosIdle
  · rw [if_pos hint28] at hu
    rw [hu]
    exact Or.inl ⟨rfl, Or.inl ⟨rfl, .dosIdle, hint28⟩⟩
  rw [if_neg hint28] at hu
  rw [not_or, not_not, not_not] at hvectors
  have htop : ∀ v : Hooked, s.world.getvect v.number = r.handler v := by
    intro v
    cases v with
    | timer => exact not_not.mp hint08
    | idle => exact hvectors.1
    | dosIdle => exact not_not.mp hint28
    | multiplex => exact hvectors.2
  by_cases hbusy : r.state.files.transfer.kind ≠ .none
  · rw [if_pos hbusy] at hu
    rw [hu]
    exact Or.inl ⟨rfl, Or.inr ⟨rfl, hbusy, htop⟩⟩
  rw [if_neg hbusy] at hu
  have hcases := releaseResident_cases (w := { s.world with resident := some (ratsrPrepareUnload r) }) (h.sits r hsome) htop
    h.elsewhere frees r.psp s.world.link.ipHandle s.world.link.arpHandle
  dsimp only at hcases
  rw [← hu] at hcases
  exact Or.inr ⟨htop, hcases⟩

theorem Layered.unload_none (hnone : s.world.resident = none) (m : Machine) (frees : Bool) :
    uninstallTsr m frees s.world = (1, s.world) := by
  unfold uninstallTsr
  rw [int2f_none hnone]
  rfl

/-- Chains that are those of the others, with nothing resident. -/
theorem Layered.of_gone {w : World} {others : UInt8 → List Far} (hnone : w.resident = none) (hchains : w.chains = others) :
    Layered ⟨w, others⟩ where
  gone := fun _ => hchains
  elsewhere := fun number _ => congrFun hchains number
  sits := by
    intro r hsome
    cases hnone.symm.trans hsome

/-- The same handlers in the same places, whatever else changes. -/
theorem Layered.congr (h : Layered s) {w : World} {r r' : Resident} (hsome : s.world.resident = some r)
    (hsome' : w.resident = some r') (hhandler : ∀ v, r'.handler v = r.handler v) (hold : ∀ v, r'.old v = r.old v)
    (hchains : w.chains = s.world.chains) : Layered ⟨w, s.others⟩ where
  gone := by
    intro hnone
    cases hnone.symm.trans hsome'
  elsewhere := fun number hne => (congrFun hchains number).trans (h.elsewhere number hne)
  sits := by
    intro r'' hsome'' v
    cases hsome'.symm.trans hsome''
    show Sits (w.chains v.number) _ _ _
    rw [hchains, hhandler, hold]
    exact h.sits r hsome v

theorem Layered.hook (h : Layered s) {number : UInt8} {handler : Far} (hunused : s.world.unused number handler = true) :
    Layered ⟨s.world.setvect number handler, Function.update s.others number (handler :: s.others number)⟩ := by
  have hpushed := World.setvect_new hunused
  constructor
  · intro hnone
    have hsame := h.gone hnone
    funext n
    show (s.world.setvect number handler).chains n = Function.update s.others number _ n
    by_cases hn : n = number
    · subst hn
      rw [Function.update_self, hpushed, hsame]
    · rw [Function.update_of_ne hn, World.setvect_ne hn, hsame]
  · intro n hne
    show (s.world.setvect number handler).chains n = Function.update s.others number _ n
    by_cases hn : n = number
    · subst hn
      rw [Function.update_self, hpushed, h.elsewhere n hne]
    · rw [Function.update_of_ne hn, World.setvect_ne hn, h.elsewhere n hne]
  · intro r hsome v
    have hsits := h.sits r hsome v
    show Sits ((s.world.setvect number handler).chains v.number) (Function.update s.others number _ v.number) _ _
    by_cases hn : v.number = number
    · subst hn
      rw [Function.update_self, hpushed]
      refine hsits.push fun heq => ?_
      simp only [World.unused, decide_eq_true_eq] at hunused
      exact hunused.2 (heq ▸ hsits.mem)
    · rw [Function.update_of_ne hn, World.setvect_ne hn]
      exact hsits

theorem Layered.unhook (h : Layered s) {number : UInt8} {handler : Far} (htop : s.world.onTop number handler = true) :
    Layered ⟨{ s.world with chains := Function.update s.world.chains number (s.world.chains number).tail },
      Function.update s.others number (s.others number).tail⟩ := by
  simp only [World.onTop, decide_eq_true_eq] at htop
  constructor
  · intro hnone
    have hsame := h.gone hnone
    show Function.update s.world.chains number _ = _
    rw [hsame]
  · intro n hne
    show Function.update s.world.chains number _ n = Function.update s.others number _ n
    by_cases hn : n = number
    · subst hn
      rw [Function.update_self, Function.update_self, h.elsewhere n hne]
    · rw [Function.update_of_ne hn, Function.update_of_ne hn, h.elsewhere n hne]
  · intro r hsome v
    have hsome : s.world.resident = some r := hsome
    have hsits := h.sits r hsome v
    show Sits (Function.update s.world.chains number _ v.number) (Function.update s.others number _ v.number) _ _
    by_cases hn : v.number = number
    · subst hn
      rw [Function.update_self, Function.update_self]
      refine hsits.pop htop.1 fun heq => ?_
      have hown : s.world.isOwn v.number handler = true := by
        rw [World.isOwn, hsome]
        exact List.any_eq_true.mpr ⟨v, v.mem_all, by simp [heq]⟩
      rw [hown] at htop
      cases htop.2
    · rw [Function.update_of_ne hn, Function.update_of_ne hn]
      exact hsits

theorem Layered.install (h : Layered s) {i : Installation}
    (hunused : ∀ v : Hooked, s.world.unused v.number ⟨i.segment, i.offset v⟩ = true) :
    Layered ⟨(residentMain i s.world).2, s.others⟩ := by
  cases hresident : s.world.resident with
  | some r =>
    rw [residentMain_present i hresident (h.mem_multiplex hresident)]
    exact h
  | none =>
    have hsame := h.gone hresident
    rcases residentMain_cases i hresident hunused with ⟨-, hchains, hnone⟩ | ⟨-, hhooked, helsewhere, r, hsome, hfields⟩
    · exact Layered.of_gone hnone (hchains.trans hsame)
    · constructor
      · intro hnone
        cases hnone.symm.trans hsome
      · intro number hne
        rw [← hsame]
        exact helsewhere number hne
      · intro r' hsome' v
        cases hsome.symm.trans hsome'
        have hfree := hunused v
        simp only [World.unused, decide_eq_true_eq] at hfree
        refine ⟨(hfields v).1 ▸ hfree.1, [], s.others v.number, rfl, ?_, List.not_mem_nil, ?_, ?_⟩
        · rw [hhooked v, (hfields v).1, hsame]
          rfl
        · rw [(hfields v).1, ← hsame]
          exact hfree.2
        · rw [(hfields v).2, World.getvect, hsame]

theorem Layered.step (h : Layered s) (event : WorldEvent) : Layered (s.step event) := by
  cases event with
  | install i =>
    simp only [Watched.step]
    split
    · rename_i hall
      exact h.install fun v => List.all_eq_true.mp hall v v.mem_all
    · exact h
  | work event =>
    simp only [Watched.step]
    cases hresident : s.world.resident with
    | none => exact h
    | some r => exact h.congr hresident rfl (fun _ => rfl) (fun _ => rfl) rfl
  | hook number handler =>
    simp only [Watched.step]
    split
    · exact h.hook ‹_›
    · exact h
  | unhook number handler =>
    simp only [Watched.step]
    split
    · exact h.unhook ‹_›
    · exact h
  | unload m frees =>
    simp only [Watched.step]
    cases hresident : s.world.resident with
    | none =>
      rw [Layered.unload_none hresident]
      exact h
    | some r =>
      rcases h.unload hresident m frees with ⟨hsame, -⟩ | ⟨-, ⟨-, hchains, hsome⟩ | ⟨-, hchains, hnone, -⟩⟩
      · rw [hsame]
        exact h
      · exact h.congr hresident hsome (fun _ => rfl) (fun _ => rfl) hchains
      · exact Layered.of_gone hnone hchains

theorem Layered.run (h : Layered s) (events : List WorldEvent) : Layered (s.run events) := by
  induction events generalizing s with
  | nil => exact h
  | cons event events ih => exact ih (h.step event)

/-- What the exit code of an unload says. -/
theorem Layered.exit_code (h : Layered s) {m : Machine} {frees : Bool} {code : Nat} {w : World}
    (hunload : uninstallTsr m frees s.world = (code, w)) :
    (code = 1 ↔ s.world.resident = none) ∧
      (∀ r, s.world.resident = some r → (code = 2 ↔ ∃ v : Hooked, s.world.getvect v.number ≠ r.handler v)) ∧
        (code = 1 ∨ code = 2 → w = s.world) ∧ (code = 3 → w.chains = s.world.chains ∧ w.resident ≠ none) ∧
          (code = 0 ∨ code = 4 → w.chains = s.others ∧ w.resident = none) := by
  cases hresident : s.world.resident with
  | none =>
    rw [Layered.unload_none hresident] at hunload
    cases hunload
    exact ⟨by simp, by simp, fun _ => rfl, by simp, by simp⟩
  | some r =>
    have hcases := h.unload hresident m frees
    dsimp only at hcases
    rw [hunload] at hcases
    -- the code is settled by whether a handler is above RA-TSR's
    have hrefused : ∀ r', some r = some r' → (∀ v : Hooked, s.world.getvect v.number = r.handler v) →
        ¬∃ v : Hooked, s.world.getvect v.number ≠ r'.handler v := by
      rintro r' hr' htop ⟨v, hv⟩
      cases hr'
      exact hv (htop v)
    rcases hcases with ⟨hsame, ⟨hcode, hcovered⟩ | ⟨hcode, -, htop⟩⟩ |
      ⟨htop, ⟨hcode, hchains, hsome⟩ | ⟨hcode, hchains, hgone, -⟩⟩
    · subst hcode
      refine ⟨by simp, fun r' hr' => ?_, fun _ => hsame, by simp, by simp⟩
      cases hr'
      exact iff_of_true rfl hcovered
    · subst hcode hsame
      refine ⟨by simp, fun r' hr' => iff_of_false (by simp) (hrefused r' hr' htop), by simp, fun _ => ⟨rfl, ?_⟩, by simp⟩
      rw [hresident]
      nofun
    · subst hcode
      refine ⟨by simp, fun r' hr' => iff_of_false (by simp) (hrefused r' hr' htop), by simp, fun _ => ⟨hchains, ?_⟩, by simp⟩
      rw [hsome]
      nofun
    · have hne : code ≠ 1 ∧ code ≠ 2 ∧ code ≠ 3 := by
        have hcode : code = 0 ∨ code = 4 := hcode
        omega
      exact ⟨iff_of_false hne.1 nofun, fun r' hr' => iff_of_false hne.2.1 (hrefused r' hr' htop),
        fun hother => absurd hother (not_or.mpr ⟨hne.1, hne.2.1⟩), fun hother => absurd hother hne.2.2, fun _ => ⟨hchains, hgone⟩⟩

/-- With a handler above RA-TSR's, or during a file transfer, the unload changes nothing. -/
theorem Layered.unload_refused (h : Layered s) {r : Resident} (hsome : s.world.resident = some r) (m : Machine) (frees : Bool)
    (hbusy : ¬((∀ v : Hooked, s.world.getvect v.number = r.handler v) ∧ r.state.files.transfer.kind = .none)) :
    (uninstallTsr m frees s.world).2 = s.world := by
  rw [uninstallTsr_eq hsome (h.mem_multiplex hsome)]
  split
  · rfl
  rename_i hvectors
  split
  · rfl
  rename_i htimer
  split
  · rfl
  rename_i hdosIdle
  split
  · rfl
  rename_i hidle
  rw [not_or, not_not, not_not] at hvectors
  refine absurd ⟨fun v => ?_, not_not.mp hidle⟩ hbusy
  cases v with
  | timer => exact not_not.mp htimer
  | idle => exact hvectors.1
  | dosIdle => exact not_not.mp hdosIdle
  | multiplex => exact hvectors.2

end

/-! ## The packet driver -/

/-- RA-TSR is registered with an honest packet driver while it is resident, and only then. -/
structure Tracked (w : World) : Prop where
  honest : w.link.driver.Honest
  gone : w.resident = none → w.link.driver.handles = []
  held : ∀ r, w.resident = some r → w.link.Registered

section

variable {s : Watched} {w : World}

theorem Tracked.of_eq (h : Tracked w) {w' : World} (hlink : w'.link = w.link) (hresident : w'.resident = none ↔ w.resident = none) :
    Tracked w' where
  honest := hlink ▸ h.honest
  gone := fun hnone => by rw [hlink]; exact h.gone (hresident.mp hnone)
  held := by
    intro r hsome
    rw [hlink]
    cases hold : w.resident with
    | none =>
      rw [hresident.mpr hold] at hsome
      cases hsome
    | some r' => exact h.held r' hold

theorem Tracked.install (h : Tracked w) (i : Installation) (hmem : ∀ r, w.resident = some r → r.handler .multiplex ∈ w.chains 0x2F) :
    Tracked (residentMain i w).2 := by
  cases hresident : w.resident with
  | some r =>
    rw [residentMain_present i hresident (hmem r hresident)]
    exact h
  | none =>
    unfold residentMain
    split
    · exact h
    rename_i configuration _
    rw [residentInstall, int2f_none hresident]
    dsimp only
    rw [if_neg (by decide)]
    have hclosed : (PacketLink.start i.buffer w.link.driver).Closed := ⟨rfl, rfl, h.gone hresident⟩
    obtain ⟨hzero, hfail, hhonest, -⟩ := open_all_or_nothing configuration.packetInterrupt _ hclosed h.honest
    by_cases hresult : (dmPacketOpen configuration.packetInterrupt (.start i.buffer w.link.driver)).1 ≠ 0
    · rw [if_pos hresult]
      exact ⟨hhonest, fun _ => (hfail hresult).2.2, fun r hsome => by cases hresident.symm.trans hsome⟩
    rw [if_neg hresult]
    have hregistered := hzero (not_not.mp hresult)
    split
    · -- the stack does not fit: the registration is taken back
      obtain ⟨hgone, hhonest, -⟩ := dmPacketClose_closed (Or.inr hregistered) hhonest
      exact ⟨hhonest, fun _ => hgone.2.2, fun r hsome => by cases hresident.symm.trans hsome⟩
    · exact ⟨hhonest, nofun, fun _ _ => hregistered⟩

/-- With an honest driver nothing but a file transfer stops the unload of handlers on top. -/
theorem Tracked.unload (h : Tracked s.world) (hl : Layered s) {r : Resident} (hsome : s.world.resident = some r) (m : Machine)
    (frees : Bool) (htop : ∀ v : Hooked, s.world.getvect v.number = r.handler v) (hidle : r.state.files.transfer.kind = .none) :
    ((uninstallTsr m frees s.world).1 = 0 ∨ (uninstallTsr m frees s.world).1 = 4) ∧
      (uninstallTsr m frees s.world).2.link.driver.handles = [] ∧ (uninstallTsr m frees s.world).2.link.driver.Honest := by
  obtain ⟨hip, harp, hhandles⟩ := h.held r hsome
  have hreleased := dmPacketReleaseHandles_registered hip harp hhandles h.honest.releases
  have hvectors : ¬(s.world.getvect 0x1C ≠ r.handler .idle ∨ s.world.getvect 0x2F ≠ r.handler .multiplex) :=
    not_or.mpr ⟨not_not.mpr (htop .idle), not_not.mpr (htop .multiplex)⟩
  have htimer : ¬(s.world.getvect 0x08 ≠ r.handler .timer) := not_not.mpr (htop .timer)
  have hdosIdle : ¬(s.world.getvect 0x28 ≠ r.handler .dosIdle) := not_not.mpr (htop .dosIdle)
  rw [uninstallTsr_eq hsome (hl.mem_multiplex hsome), if_neg hvectors, if_neg htimer, if_neg hdosIdle, if_neg (not_not.mpr hidle),
    releaseResident]
  dsimp only
  rw [hreleased]
  dsimp only
  rw [if_neg (not_not.mpr rfl)]
  split
  · exact ⟨Or.inl rfl, rfl, ⟨h.honest.grants, h.honest.releases⟩⟩
  · exact ⟨Or.inr rfl, rfl, ⟨h.honest.grants, h.honest.releases⟩⟩

theorem Tracked.step (h : Tracked s.world) (hl : Layered s) (event : WorldEvent) : Tracked (s.step event).world := by
  cases event with
  | install i =>
    simp only [Watched.step]
    split
    · exact h.install i fun r hsome => hl.mem_multiplex hsome
    · exact h
  | work event =>
    simp only [Watched.step]
    cases hresident : s.world.resident with
    | none => exact h
    | some r => exact h.of_eq rfl (by simp [hresident])
  | hook number handler =>
    simp only [Watched.step]
    split
    · exact h.of_eq rfl Iff.rfl
    · exact h
  | unhook number handler =>
    simp only [Watched.step]
    split
    · exact h.of_eq rfl Iff.rfl
    · exact h
  | unload m frees =>
    simp only [Watched.step]
    cases hresident : s.world.resident with
    | none =>
      rw [Layered.unload_none hresident]
      exact h
    | some r =>
      by_cases hfree : (∀ v : Hooked, s.world.getvect v.number = r.handler v) ∧ r.state.files.transfer.kind = .none
      · obtain ⟨hcode, hhandles, hhonest⟩ := h.unload hl hresident m frees hfree.1 hfree.2
        have hnone := ((hl.exit_code (Prod.eta _).symm).2.2.2.2 hcode).2
        exact ⟨hhonest, fun _ => hhandles, fun r' hsome => by cases hnone.symm.trans hsome⟩
      · rw [hl.unload_refused hresident m frees hfree]
        exact h

theorem Tracked.run (h : Tracked s.world) (hl : Layered s) (events : List WorldEvent) : Tracked (s.run events).world := by
  induction events generalizing s with
  | nil => exact h
  | cons event events ih => exact ih (h.step hl event) (hl.step event)

end

/-! ## Unloading in a run -/

/-- In every run, RA-TSR's handlers are additions to the chains of the other programs, and without
    RA-TSR the chains are theirs. An unload that reports success, or memory that cannot be freed,
    leaves exactly their chains; any other leaves every chain as it is. It refuses, changing
    nothing, exactly when another handler is in one of RA-TSR's four vectors. -/
theorem vectors_restored (w : World) (events : List WorldEvent) (m : Machine) (frees : Bool) (hnone : w.resident = none) :
    let s := Watched.run ⟨w, w.chains⟩ events
    let u := uninstallTsr m frees s.world
    Layered s ∧ (u.1 = 1 ↔ s.world.resident = none) ∧
      (∀ r, s.world.resident = some r → (u.1 = 2 ↔ ∃ v : Hooked, s.world.getvect v.number ≠ r.handler v)) ∧
      (u.1 = 1 ∨ u.1 = 2 → u.2 = s.world) ∧ (u.1 = 3 → u.2.chains = s.world.chains ∧ u.2.resident ≠ none) ∧
      (u.1 = 0 ∨ u.1 = 4 → u.2.chains = s.others ∧ u.2.resident = none) := by
  have hstart : Layered ⟨w, w.chains⟩ := Layered.of_gone hnone rfl
  have h := hstart.run events
  dsimp only
  generalize Watched.run ⟨w, w.chains⟩ events = s at h ⊢
  generalize hunload : uninstallTsr m frees s.world = u
  exact ⟨h, h.exit_code hunload⟩

/-- A core at segment 2000h, in the block at 1FF0h. -/
def smallInstallation (configuration : RatsrInstallConfig) : Installation where
  environment := [encodeInstallEnvironment configuration]
  psp := 0x1FF0
  segment := 0x2000
  offset := fun v => v.number.toUInt16
  allocationEnd := 0x3000
  stackSegment := 0x2100
  stackTop := 0x8001
  buffer := fun _ => 0
  stack := fun _ => 0
  machine := blankMachine
  store := dosStore (fun _ => none) fun _ => ⟨true, 0⟩

def smallConfig : RatsrInstallConfig := RatsrInstallConfig.finish { RatsrInstallConfig.zero with
  port := 8192, packetInterrupt := 0x60, rootLength := 2, nameLength := 1
  root := ⟨[0x43, 0x3A] ++ List.replicate 126 0, rfl⟩
  name := ⟨[0x44] ++ List.replicate 31 0, rfl⟩ }

def biosWorld : World where
  chains := fun number => if number = 0x08 then [⟨0xF000, 0xFEA5⟩] else if number = 0x1C then [⟨0xF000, 0xFF53⟩] else []
  resident := none
  link := .start (fun _ => 0) plainDriver
  blocks := []

theorem smallConfig_loaded : loadInstallConfig (smallInstallation smallConfig).environment = some smallConfig := by
  have hchecked : smallConfig.checked = true := by decide +kernel
  refine loadInstallConfig_eq_some.mpr ⟨?_, hchecked, finish_sealed _⟩
  exact (getenv_installEnv _).trans (congrArg some (textString_of_notMem (hexText_notMem _)))

/-- RA-TSR, and then another program on the timer. -/
def coveredEvents : List WorldEvent := [.install (smallInstallation smallConfig), .hook 0x1C ⟨0x4000, 0x10⟩]

def uncoveredEvents : List WorldEvent :=
  [.install (smallInstallation smallConfig), .hook 0x1C ⟨0x4000, 0x10⟩, .unhook 0x1C ⟨0x4000, 0x10⟩]

theorem run_smallInstallation (events : List WorldEvent) :
    Watched.run ⟨biosWorld, biosWorld.chains⟩ (.install (smallInstallation smallConfig) :: events) =
      Watched.run ⟨(residentInstall smallConfig (smallInstallation smallConfig) biosWorld).2, biosWorld.chains⟩ events := by
  have hunused : (Hooked.all.all fun v => biosWorld.unused v.number
      ⟨(smallInstallation smallConfig).segment, (smallInstallation smallConfig).offset v⟩) = true := by decide +kernel
  rw [Watched.run, List.foldl_cons, Watched.step, if_pos hunused, residentMain, smallConfig_loaded]
  rfl

theorem vectors_restored_hooked :
    let covered := (Watched.run ⟨biosWorld, biosWorld.chains⟩ coveredEvents).world
    let uncovered := Watched.run ⟨biosWorld, biosWorld.chains⟩ uncoveredEvents
    (uninstallTsr blankMachine true covered).1 = 2 ∧ (uninstallTsr blankMachine true covered).2 = covered ∧
      (uninstallTsr blankMachine true uncovered.world).1 = 0 ∧
      (uninstallTsr blankMachine true uncovered.world).2.chains = uncovered.others := by
  have hrefused : (uninstallTsr blankMachine true (Watched.run ⟨biosWorld, biosWorld.chains⟩ coveredEvents).world).1 = 2 := by
    rw [coveredEvents, run_smallInstallation]
    decide +kernel
  have hdone : (uninstallTsr blankMachine true (Watched.run ⟨biosWorld, biosWorld.chains⟩ uncoveredEvents).world).1 = 0 := by
    rw [uncoveredEvents, run_smallInstallation]
    decide +kernel
  obtain ⟨-, -, -, hsame, -, -⟩ := vectors_restored biosWorld coveredEvents blankMachine true rfl
  obtain ⟨-, -, -, -, -, hrestored⟩ := vectors_restored biosWorld uncoveredEvents blankMachine true rfl
  exact ⟨hrefused, hsame (Or.inr hrefused), hdone, (hrestored (Or.inl hdone)).1⟩

/-- With a packet driver that lets every handle go: RA-TSR is registered with it exactly while it
    is resident. An unload succeeds, and leaves no registration, exactly when RA-TSR's handlers
    are in their four vectors and no file transfer is under way; any other changes nothing. -/
theorem unload_exact (w : World) (events : List WorldEvent) (m : Machine) (frees : Bool) (hnone : w.resident = none)
    (hhonest : w.link.driver.Honest) (hfresh : w.link.driver.handles = []) :
    let s := (Watched.run ⟨w, w.chains⟩ events).world
    let u := uninstallTsr m frees s
    (s.resident = none ↔ s.link.driver.handles = []) ∧
      ((u.1 = 0 ∨ u.1 = 4) ↔ ∃ r, s.resident = some r ∧ (∀ v : Hooked, s.getvect v.number = r.handler v) ∧
        r.state.files.transfer.kind = .none) ∧
      (u.1 = 0 ∨ u.1 = 4 → u.2.link.driver.handles = []) ∧ (¬(u.1 = 0 ∨ u.1 = 4) → u.2 = s) := by
  have hstart : Layered ⟨w, w.chains⟩ := Layered.of_gone hnone rfl
  have hl := hstart.run events
  have h : Tracked (Watched.run ⟨w, w.chains⟩ events).world :=
    Tracked.run (s := ⟨w, w.chains⟩) ⟨hhonest, fun _ => hfresh, fun r hsome => by cases hnone.symm.trans hsome⟩ hstart events
  dsimp only
  generalize Watched.run ⟨w, w.chains⟩ events = s at h hl ⊢
  refine ⟨⟨h.gone, fun hempty => ?_⟩, ?_⟩
  · cases hresident : s.world.resident with
    | none => rfl
    | some r =>
      have hhandles := (h.held r hresident).2.2
      rw [hempty] at hhandles
      cases hhandles
  · cases hresident : s.world.resident with
    | none =>
      rw [Layered.unload_none hresident]
      exact ⟨by simp, by simp, fun _ => rfl⟩
    | some r =>
      by_cases hfree : (∀ v : Hooked, s.world.getvect v.number = r.handler v) ∧ r.state.files.transfer.kind = .none
      · obtain ⟨hcode, hhandles, -⟩ := h.unload hl hresident m frees hfree.1 hfree.2
        exact ⟨iff_of_true hcode ⟨r, rfl, hfree⟩, fun _ => hhandles, absurd hcode⟩
      · have hrefused := hl.unload_refused hresident m frees hfree
        have hfailed : ¬((uninstallTsr m frees s.world).1 = 0 ∨ (uninstallTsr m frees s.world).1 = 4) := by
          intro hcode
          have hgone := ((hl.exit_code (Prod.eta _).symm).2.2.2.2 hcode).2
          rw [hrefused, hresident] at hgone
          cases hgone
        refine ⟨iff_of_false hfailed ?_, fun hcode => absurd hcode hfailed, fun _ => hrefused⟩
        · rintro ⟨r', hsome, hfree'⟩
          cases hsome
          exact hfree hfree'

theorem unload_exact_hooked :
    let covered := (Watched.run ⟨biosWorld, biosWorld.chains⟩ coveredEvents).world
    let uncovered := (Watched.run ⟨biosWorld, biosWorld.chains⟩ uncoveredEvents).world
    (covered.resident = none ↔ covered.link.driver.handles = []) ∧ covered.link.driver.handles = [2, 1] ∧
      (uninstallTsr blankMachine true uncovered).2.link.driver.handles = [] ∧
      ∃ r, uncovered.resident = some r ∧ ∀ v : Hooked, uncovered.getvect v.number = r.handler v := by
  have hregistered : (Watched.run ⟨biosWorld, biosWorld.chains⟩ coveredEvents).world.link.driver.handles = [2, 1] := by
    rw [coveredEvents, run_smallInstallation]
    decide +kernel
  have hdone : (uninstallTsr blankMachine true (Watched.run ⟨biosWorld, biosWorld.chains⟩ uncoveredEvents).world).1 = 0 := by
    rw [uncoveredEvents, run_smallInstallation]
    decide +kernel
  obtain ⟨hcovered, -, -, -⟩ := unload_exact biosWorld coveredEvents blankMachine true rfl plainDriver_honest rfl
  obtain ⟨-, hsucceeds, hreleased, -⟩ := unload_exact biosWorld uncoveredEvents blankMachine true rfl plainDriver_honest rfl
  obtain ⟨r, hsome, htop, -⟩ := hsucceeds.mp (Or.inl hdone)
  exact ⟨hcovered, hregistered, hreleased (Or.inl hdone), r, hsome, htop⟩

end DosMcp.Dos
