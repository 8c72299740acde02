/-
  DosMcp.Dos.Transparency — what a program sees of the interrupt handlers of `ratsr_hooks.asm`:
  nothing.

  An excursion is a part of a run in which everything that runs was entered, directly or not, by
  one interrupt. Further interrupts, the worker and the handlers of other programs may run in it
  as they like.

  - `interrupts_transparent`: the program that was interrupted goes on with the registers and the
    flags it was interrupted with.
  - `excursion_ends`: from any state of an excursion there is a way back to the program.
-/

import DosMcp.Dos.HookProofs

namespace DosMcp.Dos.Hooks

/-! ## Excursions -/

/-- Steps from `s` on that stay above the `depth` contexts that were interrupted, the last one apart. -/
inductive Excursion (m : Segments) (depth : Nat) (s : State) : State → Prop
  | enter : Excursion m depth s s
  | step {t u : State} : Excursion m depth s t → depth < t.nest.length → Step m t u → Excursion m depth s u

/-- What runs right above the interrupted context: the handler, or what it has jumped to. -/
def Returning (c : Cpu) : Context → Prop
  | .handler f => f.entered = Function.update c.regs .sp (c.regs .sp - 6) ∧ f.flags = c.flags
  | .chained resume flags => resume = c.regs ∧ flags = c.flags
  | _ => False

/-- Back in the interrupted context, or still above it. -/
def Away (c : Cpu) (nest : List Context) (s : State) : Prop :=
  (s.nest = nest ∧ s.cpu.regs = c.regs ∧ s.cpu.flags = c.flags) ∨
    ∃ above d, s.nest = above ++ d :: nest ∧ .program ∉ above ∧ Returning c d

section

variable {m : Segments} {c : Cpu} {nest : List Context} {s s' : State}

/-- Leaving gives back what was interrupted. -/
theorem Returning.leaves {cpu : Cpu} {f : Frame} {i : Instr} (hr : Returning c (.handler f)) (hinv : Inv m ⟨cpu, .handler f :: nest⟩)
    (hi : i = .iret ∨ i = .jmpOld) (hnext : f.next = some i) : popped cpu.regs 6 = c.regs := by
  rw [hinv.left hi hnext, hr.1, popped_entered]

/-- A step of what runs right above. -/
theorem Returning.step {cpu : Cpu} {d : Context} (hr : Returning c d) (hinv : Inv m ⟨cpu, d :: nest⟩)
    (hs : Step m ⟨cpu, d :: nest⟩ s') : Away c nest s' := by
  cases hs with
  | exec below hnext hexec =>
    obtain ⟨-, hentered, hflags⟩ := exec_frame hexec
    exact Or.inr ⟨[], _, rfl, List.not_mem_nil, hentered.trans hr.1, hflags.trans hr.2⟩
  | callOld below hnext hstack => exact Or.inr ⟨[_], _, rfl, by simp, hr.1, hr.2⟩
  | callWorker below hnext => exact Or.inr ⟨[_], _, rfl, by simp, hr.1, hr.2⟩
  | jmpOld below hnext hat => exact Or.inr ⟨[], _, rfl, List.not_mem_nil, hr.leaves hinv (Or.inr rfl) hnext, hr.2⟩
  | iret below hnext hat => exact Or.inl ⟨rfl, hr.leaves hinv (Or.inl rfl) hnext, hr.2⟩
  | enter hook i below hopen => exact Or.inr ⟨[_], d, rfl, by simp, hr⟩
  | other below hother hvars => exact Or.inr ⟨[], d, rfl, List.not_mem_nil, hr⟩
  | workerReturn flags below hss hsp hds => cases hr
  | chainedReturn below => exact Or.inl ⟨rfl, hr.1, hr.2⟩

/-- A step replaces the running context by others, and leaves those below. -/
theorem step_above {cpu : Cpu} {d : Context} {rest : List Context} (hd : d ≠ .program) (hs : Step m ⟨cpu, d :: rest⟩ s') :
    ∃ above, s'.nest = above ++ rest ∧ .program ∉ above := by
  cases hs with
  | exec below hnext hexec => exact ⟨[_], rfl, by simp⟩
  | callOld below hnext hstack => exact ⟨[_, _], rfl, by simp⟩
  | callWorker below hnext => exact ⟨[_, _], rfl, by simp⟩
  | jmpOld below hnext hat => exact ⟨[_], rfl, by simp⟩
  | iret below hnext hat => exact ⟨[], rfl, List.not_mem_nil⟩
  | enter hook i below hopen => exact ⟨[_, _], rfl, by simpa using hd.symm⟩
  | other below hother hvars => exact ⟨[_], rfl, by simpa using hd.symm⟩
  | workerReturn flags below hss hsp hds => exact ⟨[], rfl, List.not_mem_nil⟩
  | chainedReturn below => exact ⟨[], rfl, List.not_mem_nil⟩

theorem Away.step (h : Away c nest s) (hdeep : nest.length < s.nest.length) (hr : Reachable m s) (hs : Step m s s') :
    Away c nest s' := by
  rcases h with ⟨hback, -⟩ | ⟨above, d, hnest, hprogram, hd⟩
  · rw [hback] at hdeep
    exact absurd hdeep (Nat.lt_irrefl _)
  obtain ⟨cpu, contexts⟩ := s
  obtain rfl : contexts = above ++ d :: nest := hnest
  cases above with
  | nil => exact hd.step (inv_reachable hr) hs
  | cons top above =>
    obtain ⟨htop, habove⟩ := not_or.mp (mt List.mem_cons.mpr hprogram)
    obtain ⟨more, hmore, hnew⟩ := step_above (Ne.symm htop) hs
    refine Or.inr ⟨more ++ above, d, hmore.trans (List.append_assoc more above (d :: nest)).symm, ?_, hd⟩
    rw [List.mem_append]
    exact not_or.mpr ⟨hnew, habove⟩

theorem Excursion.reachable {depth : Nat} (h : Excursion m depth s s') (hr : Reachable m s) : Reachable m s' := by
  induction h with
  | enter => exact hr
  | step _ _ hs ih => exact .step ih hs

end

theorem interrupted_step {m : Segments} {c : Cpu} {d : Context} {below : List Context} (hook : Hook)
    (hopen : c.flags.interrupts = true ∨ d.isHandler = false) : Step m ⟨c, d :: below⟩ (interrupted hook ⟨c, d :: below⟩) :=
  Step.enter hook false below (hopen.imp_left fun h => ⟨h, rfl⟩)

theorem Excursion.away {m : Segments} {c : Cpu} {d : Context} {below : List Context} (h : Reachable m ⟨c, d :: below⟩)
    {hook : Hook} (hopen : c.flags.interrupts = true ∨ d.isHandler = false) {s : State}
    (hrun : Excursion m (d :: below).length (interrupted hook ⟨c, d :: below⟩) s) : Away c (d :: below) s := by
  induction hrun with
  | enter => exact Or.inr ⟨[], _, rfl, List.not_mem_nil, rfl, rfl⟩
  | step hrun hdeep hs ih => exact ih.step hdeep (hrun.reachable (h.step (interrupted_step hook hopen))) hs

/-! ## Progress -/

/-- Where a jump goes. -/
def Instr.target : Instr → Option Nat
  | .jne target | .jmp target => some target
  | _ => none

/-- Every jump goes forward. -/
theorem jumps_forward (h : Hook) {pc target : Nat} {i : Instr} (hi : (code h)[pc]? = some i) (ht : i.target = some target) :
    pc < target := by
  have hall : ∀ pc < (code h).length, ∀ target ∈ (code h)[pc]?.bind Instr.target, pc < target := by
    cases h with
    | int08 => decide +kernel
    | int1c => decide +kernel
    | int28 => decide +kernel
  obtain ⟨hpc, -⟩ := List.getElem?_eq_some_iff.mp hi
  refine hall pc hpc target ?_
  rw [hi]
  exact ht

theorem exec_pc {m : Segments} {c c' : Cpu} {f f' : Frame} {i : Instr} (hexec : exec m c f i = some (c', f')) :
    f'.pc = f.pc + 1 ∨ i.target = some f'.pc := by
  cases i with
  | pop r =>
    simp only [exec] at hexec
    split at hexec
    · split at hexec
      · cases hexec
        exact Or.inl rfl
      · cases hexec
    · cases hexec
  | jne target =>
    simp only [exec, Option.some.injEq, Prod.mk.injEq] at hexec
    obtain ⟨-, rfl⟩ := hexec
    by_cases hzero : c.flags.zero = true
    · exact Or.inl (by rw [if_pos hzero]; rfl)
    · exact Or.inr (by rw [if_neg hzero]; rfl)
  | jmp target =>
    cases hexec
    exact Or.inr rfl
  | load r v | store v r | set v w | inc v | cmp r v | cmpZero v =>
    simp only [exec] at hexec
    split at hexec
    · cases hexec
      exact Or.inl rfl
    · cases hexec
  | callOld | callWorker | jmpOld | iret => cases hexec
  | _ =>
    cases hexec
    exact Or.inl rfl

/-- What is left of the handler's text. -/
def Frame.left (f : Frame) : Nat := (code f.hook).length - f.pc

/-- What a handler calls or jumps to. -/
def Context.isCallee : Context → Bool
  | .worker _ _ | .chained _ _ => true
  | _ => false

/-- What one own step of a handler comes to. -/
inductive Proceeds (f : Frame) (below : List Context) (s : State) : Prop
  | on (f' : Frame) (nest : s.nest = .handler f' :: below) (less : f'.left < f.left)
  | calls (callee : Context) (f' : Frame) (nest : s.nest = callee :: .handler f' :: below) (isCallee : callee.isCallee = true)
      (less : f'.left < f.left)
  | jumps (callee : Context) (nest : s.nest = callee :: below) (isCallee : callee.isCallee = true)
  | returns (nest : s.nest = below)

section

variable {m : Segments} {c : Cpu} {f : Frame} {below : List Context} {s s' : State}

theorem Frame.left_lt {f f' : Frame} {i : Instr} (hnext : f.next = some i) (hhook : f'.hook = f.hook) (hpc : f.pc < f'.pc) :
    f'.left < f.left := by
  obtain ⟨hcode, -⟩ := List.getElem?_eq_some_iff.mp hnext
  rw [Frame.left, Frame.left, hhook]
  omega

theorem advance_proceeds (h : advance m ⟨c, .handler f :: below⟩ = some s') : Proceeds f below s' := by
  simp only [advance] at h
  split at h
  · rename_i hnext _
    split at h
    · cases h
      exact .calls _ _ rfl rfl (Frame.left_lt hnext rfl (Nat.lt_succ_self _))
    · cases h
  · rename_i hnext
    cases h
    exact .calls _ _ rfl rfl (Frame.left_lt hnext rfl (Nat.lt_succ_self _))
  · split at h
    · cases h
      exact .jumps _ rfl rfl
    · cases h
  · split at h
    · cases h
      exact .returns rfl
    · cases h
  · rename_i hnext _
    obtain ⟨⟨c', f'⟩, hexec, rfl⟩ := Option.map_eq_some_iff.mp h
    have hhook := (exec_frame hexec).1
    refine .on f' rfl (Frame.left_lt hnext hhook ?_)
    rcases exec_pc hexec with hpc | htarget
    · omega
    · exact jumps_forward f.hook hnext htarget
  · cases h

/-- A running handler has a next step, and it is a step forward. -/
theorem handler_proceeds (h : Reachable m ⟨c, .handler f :: below⟩) :
    ∃ s', Step m ⟨c, .handler f :: below⟩ s' ∧ Proceeds f below s' := by
  obtain ⟨s', hs'⟩ := handler_advances h
  exact ⟨s', advance_step hs', advance_proceeds hs'⟩

theorem Excursion.after {depth : Nat} {t : State} (hs : Step m s t) (hdeep : depth < s.nest.length) (h : Excursion m depth t s') :
    Excursion m depth s s' := by
  induction h with
  | enter => exact .step .enter hdeep hs
  | step _ hdeep' hs' ih => exact .step ih hdeep' hs'

theorem Excursion.trans {depth : Nat} {t : State} (h : Excursion m depth s t) (h' : Excursion m depth t s') :
    Excursion m depth s s' := by
  induction h' with
  | enter => exact h
  | step _ hdeep hs ih => exact .step ih hdeep hs

/-- What was called can return at once. -/
theorem callee_returns {callee : Context} (h : callee.isCallee = true) : ∃ cpu, Step m ⟨c, callee :: below⟩ ⟨cpu, below⟩ := by
  cases callee with
  | worker dosIdle called => exact ⟨⟨called, c.flags, c.vars⟩, .workerReturn c.flags below rfl rfl rfl⟩
  | chained resume flags => exact ⟨⟨resume, flags, c.vars⟩, .chainedReturn below⟩
  | handler f => cases h
  | program => cases h

/-- An activation can end: after each of its steps less of its text is left. -/
theorem handler_ends (h : Reachable m ⟨c, .handler f :: below⟩) :
    ∃ s', Excursion m below.length ⟨c, .handler f :: below⟩ s' ∧ s'.nest = below := by
  induction hleft : f.left using Nat.strongRecOn generalizing c f with
  | _ left ih =>
    obtain ⟨⟨c', nest⟩, hs, hproceeds⟩ := handler_proceeds h
    have hdeep : below.length < (Context.handler f :: below).length := Nat.lt_succ_self _
    have hr := Reachable.step h hs
    cases hproceeds with
    | on f' hnest less =>
      obtain rfl : nest = .handler f' :: below := hnest
      obtain ⟨s', hrun, hback⟩ := ih f'.left (hleft ▸ less) hr rfl
      exact ⟨s', hrun.after hs hdeep, hback⟩
    | calls callee f' hnest hcallee less =>
      obtain rfl : nest = callee :: .handler f' :: below := hnest
      obtain ⟨c'', hs'⟩ : ∃ cpu, Step m ⟨c', callee :: .handler f' :: below⟩ ⟨cpu, .handler f' :: below⟩ := callee_returns hcallee
      obtain ⟨s', hrun, hback⟩ := ih f'.left (hleft ▸ less) (.step hr hs') rfl
      exact ⟨s', (hrun.after hs' (Nat.lt_succ_of_lt hdeep)).after hs hdeep, hback⟩
    | jumps callee hnest hcallee =>
      obtain rfl : nest = callee :: below := hnest
      obtain ⟨c'', hs'⟩ : ∃ cpu, Step m ⟨c', callee :: below⟩ ⟨cpu, below⟩ := callee_returns hcallee
      exact ⟨_, (Excursion.enter.step (Nat.lt_succ_self _) hs').after hs hdeep, rfl⟩
    | returns hnest => exact ⟨_, .step .enter hdeep hs, hnest⟩

theorem context_ends {d : Context} (hd : d ≠ .program) (h : Reachable m ⟨c, d :: below⟩) :
    ∃ s', Excursion m below.length ⟨c, d :: below⟩ s' ∧ s'.nest = below := by
  have callee_ends : d.isCallee = true → ∃ s', Excursion m below.length ⟨c, d :: below⟩ s' ∧ s'.nest = below := by
    intro hcallee
    obtain ⟨c', hs⟩ : ∃ cpu, Step m ⟨c, d :: below⟩ ⟨cpu, below⟩ := callee_returns hcallee
    exact ⟨_, .step .enter (Nat.lt_succ_self _) hs, rfl⟩
  cases d with
  | handler f => exact handler_ends h
  | worker dosIdle called => exact callee_ends rfl
  | chained resume flags => exact callee_ends rfl
  | program => exact absurd rfl hd

theorem Excursion.shallower {depth depth' : Nat} (h : Excursion m depth s s') (hle : depth' ≤ depth) : Excursion m depth' s s' := by
  induction h with
  | enter => exact .enter
  | step _ hdeep hs ih => exact .step ih (Nat.lt_of_le_of_lt hle hdeep) hs

/-- The contexts that run above a program can end one after the other. -/
theorem contexts_end {above : List Context} (hprogram : .program ∉ above) (h : Reachable m ⟨c, above ++ below⟩) :
    ∃ s', Excursion m below.length ⟨c, above ++ below⟩ s' ∧ s'.nest = below := by
  induction above generalizing c with
  | nil => exact ⟨_, .enter, rfl⟩
  | cons top above ih =>
    obtain ⟨htop, habove⟩ := not_or.mp (mt List.mem_cons.mpr hprogram)
    obtain ⟨⟨c', nest⟩, hrun, hnest⟩ := context_ends (Ne.symm htop) h
    obtain rfl : nest = above.append below := hnest
    obtain ⟨s', hrun', hback⟩ := ih habove (hrun.reachable h)
    exact ⟨s', (hrun.shallower (by rw [List.append_eq, List.length_append]; exact Nat.le_add_left _ _)).trans hrun', hback⟩

end

theorem Excursion.ends {m : Segments} {c : Cpu} {d : Context} {below : List Context} (h : Reachable m ⟨c, d :: below⟩)
    {hook : Hook} (hopen : c.flags.interrupts = true ∨ d.isHandler = false) {s : State}
    (hrun : Excursion m (d :: below).length (interrupted hook ⟨c, d :: below⟩) s) :
    ∃ s', Excursion m (d :: below).length s s' ∧ s'.nest = d :: below := by
  have hr := hrun.reachable (h.step (interrupted_step hook hopen))
  rcases hrun.away h hopen with ⟨hnest, -⟩ | ⟨above, d', hnest, hprogram, hd⟩
  · exact ⟨s, .enter, hnest⟩
  obtain ⟨cpu, nest⟩ := s
  obtain rfl : nest = above ++ [d'] ++ d :: below := by rw [List.append_assoc]; exact hnest
  refine contexts_end ?_ hr
  rw [List.mem_append, List.mem_singleton]
  rintro (habove | rfl)
  · exact hprogram habove
  · cases hd

theorem Excursion.advances {m : Segments} {depth : Nat} {s t : State} (h : Excursion m depth s t) (n : Nat)
    (hdeep : ∀ k < n, depth < (advances m k t).nest.length) : Excursion m depth s (advances m n t) := by
  induction n generalizing t with
  | zero => exact h
  | succ n ih =>
    have hnext : Excursion m depth s ((advance m t).getD t) := by
      cases hs : advance m t with
      | none => exact h
      | some t' => exact .step h (hdeep 0 (Nat.succ_pos n)) (advance_step hs)
    exact ih hnext fun k hk => hdeep (k + 1) (Nat.succ_lt_succ hk)

/-! ## Results -/

/-- The program goes on with the registers and flags it was interrupted with, whatever ran in
    between: the handler, handlers that interrupted it, the worker, the old handlers. -/
theorem interrupts_transparent {m : Segments} {c : Cpu} {d : Context} {below : List Context} (h : Reachable m ⟨c, d :: below⟩)
    (hook : Hook) (hopen : c.flags.interrupts = true ∨ d.isHandler = false) {s : State}
    (hrun : Excursion m (d :: below).length (interrupted hook ⟨c, d :: below⟩) s) (hback : s.nest.length ≤ (d :: below).length) :
    s.nest = d :: below ∧ s.cpu.regs = c.regs ∧ s.cpu.flags = c.flags := by
  rcases hrun.away h hopen with haway | ⟨above, d', hnest, -⟩
  · exact haway
  · rw [hnest, List.length_append, List.length_cons] at hback
    omega

/-- A program, and the worker that `INT 28h` has called above it. -/
def idleProgram : State := ⟨⟨fun _ => 0x2000, ⟨true, false⟩, fun _ => 0⟩, [.program]⟩

def idleWorker : State := advances ⟨0x1000, 0x8000⟩ 25 (interrupted .int28 idleProgram)

theorem idleWorker_excursion : Excursion ⟨0x1000, 0x8000⟩ 1 (interrupted .int28 idleProgram) idleWorker :=
  Excursion.advances .enter 25 (by decide +kernel)

/-- The worker and the old handler return. -/
theorem interrupts_transparent_idle : ∃ s, Excursion ⟨0x1000, 0x8000⟩ 1 idleWorker s ∧ s.nest.length = 1 ∧
    s.nest = [.program] ∧ s.cpu.regs = (fun _ => 0x2000) ∧ s.cpu.flags = ⟨true, false⟩ := by
  obtain ⟨s, hend, hback⟩ := idleWorker_excursion.ends (Reachable.start rfl) (Or.inl rfl)
  have hlength : s.nest.length = 1 := congrArg List.length hback
  exact ⟨s, hend, hlength, interrupts_transparent (Reachable.start rfl) .int28 (Or.inl rfl) (idleWorker_excursion.trans hend)
    (Nat.le_of_eq hlength)⟩

/-- From every state of an excursion there is a way back to the interrupted program, with the
    registers and flags it had: no activation gets stuck, however they nest. -/
theorem excursion_ends {m : Segments} {c : Cpu} {d : Context} {below : List Context} (h : Reachable m ⟨c, d :: below⟩)
    (hook : Hook) (hopen : c.flags.interrupts = true ∨ d.isHandler = false) {s : State}
    (hrun : Excursion m (d :: below).length (interrupted hook ⟨c, d :: below⟩) s) :
    ∃ s', Excursion m (d :: below).length s s' ∧ s'.nest = d :: below ∧ s'.cpu.regs = c.regs ∧ s'.cpu.flags = c.flags := by
  obtain ⟨s', hend, hback⟩ := hrun.ends h hopen
  refine ⟨s', hend, hback, ?_⟩
  rcases (hrun.trans hend).away h hopen with ⟨-, hregs⟩ | ⟨above, d', hnest, -⟩
  · exact hregs
  · have hlength := congrArg List.length (hback.symm.trans hnest)
    simp only [List.length_append, List.length_cons] at hlength
    omega

theorem excursion_ends_idle : ∃ s, Excursion ⟨0x1000, 0x8000⟩ 1 idleWorker s ∧
    s.nest = [.program] ∧ s.cpu.regs = (fun _ => 0x2000) ∧ s.cpu.flags = ⟨true, false⟩ :=
  excursion_ends (Reachable.start rfl) .int28 (Or.inl rfl) idleWorker_excursion

end DosMcp.Dos.Hooks
