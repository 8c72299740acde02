/-
  DosMcp.Dos.HookProofs — the resident handlers keep the worker to one activation.

  Every context of a reachable nest fits the state it goes on from (`Fits`, through
  `Lib.Nest.Sound`): an activation is described by the note of its instruction, and the
  worker stands on the activation that called it. Beside that, `idle_active` tells whether
  some activation owns it, at most one does, and its `saved_ss:saved_sp` are its own (`Inv`).
  The test of `idle_active` and its setting are two instructions; whatever comes between
  them has finished before the second, so the test still holds then (`Guard.holds`).
-/

import DosMcp.Dos.HookNotes

namespace DosMcp.Dos.Hooks

open Lib

attribute [local simp] exec allowed after flows

/-! ## What a note describes -/

/-- What a suspended context is resumed with. -/
structure Snap where
  regs : Reg → Word
  flags : Flags

def Cpu.snap (c : Cpu) : Snap := ⟨c.regs, c.flags⟩

/-- The activation has set `idle_active`. -/
def Context.owner : Context → Bool
  | .handler f => (noteAt f.hook f.pc).owner
  | _ => false

def owners (nest : List Context) : Nat := nest.countP Context.owner

def Note.depth (n : Note) : Nat := n.pushed.length + if n.flagged then 1 else 0

/-- `SP` after `depth` pushes. -/
def below (entered : Reg → Word) (depth : Nat) : Word := entered .sp - UInt16.ofNat (2 * depth)

def Place.holds (m : Segments) (entered : Reg → Word) (depth : Nat) (regs : Reg → Word) : Place → Prop
  | .home => regs .ss = entered .ss ∧ regs .sp = below entered depth
  | .half => regs .ss = m.dgroup
  | .away => regs .ss = m.dgroup ∧ regs .sp = m.residentTop
  | .back => regs .ss = entered .ss

def Known.holds (m : Segments) (entered : Reg → Word) (ax : Word) : Known → Prop
  | .nothing => True
  | .imm i => ax = m.imm i
  | .saved => ax = entered .ss

def Guard.holds (nest : List Context) (zero : Bool) : Guard → Prop
  | .none => True
  | .tested => zero = true → owners nest = 0
  | .passed => owners nest = 0

/-- The saved registers, each at its address. -/
def slots (entered : Reg → Word) : List Reg → List Slot
  | [] => []
  | r :: rs => ⟨entered .ss, below entered (rs.length + 1), .word (entered r)⟩ :: slots entered rs

structure Describes (m : Segments) (n : Note) (stack : List Slot) (entered : Reg → Word) (nest : List Context)
    (s : Snap) : Prop where
  words : n.flagged = false → stack = slots entered n.pushed
  flagged : n.flagged = true → ∃ flags, stack = ⟨entered .ss, below entered n.depth, .flags flags⟩ :: slots entered n.pushed
  place : n.place.holds m entered n.depth s.regs
  kept : ∀ r, r ≠ .ss → r ≠ .sp → r ∉ n.clobbered → s.regs r = entered r
  ax : n.ax.holds m entered (s.regs .ax)
  ds : n.ds = true → s.regs .ds = m.dgroup
  off : n.off = true → s.flags.interrupts = false
  guard : n.guard.holds nest s.flags.zero

/-- `saved_ss:saved_sp` as their owner left them. -/
structure SavedBy (n : Note) (entered : Reg → Word) (vars : Var → Word) : Prop where
  ss : n.owner = true → n.ssSaved = true → vars .savedSs = entered .ss
  sp : n.owner = true → n.spSaved = true → vars .savedSp = below entered n.depth

theorem below_succ (entered : Reg → Word) (d : Nat) : below entered d - 2 = below entered (d + 1) := by
  rw [below, below, Nat.mul_succ, UInt16.ofNat_add]
  grind

theorem below_pop (entered : Reg → Word) (d : Nat) : below entered (d + 1) + 2 = below entered d := by
  rw [← below_succ]
  grind

theorem below_zero (entered : Reg → Word) : below entered 0 = entered .sp := by
  rw [below]
  simp

theorem Note.weaker_iff {n n' : Note} : n.weaker n' = true ↔
    n'.pushed = n.pushed ∧ n'.flagged = n.flagged ∧ n'.place = n.place ∧ (∀ r ∈ n.clobbered, r ∈ n'.clobbered) ∧
      (n'.ax = .nothing ∨ n'.ax = n.ax) ∧ (n'.ds = true → n.ds = true) ∧ (n'.off = true → n.off = true) ∧
      n'.owner = n.owner ∧ (n'.ssSaved = true → n.ssSaved = true) ∧ (n'.spSaved = true → n.spSaved = true) ∧
      (n'.guard = .none ∨ n'.guard = n.guard) := by
  have himp : ∀ a b : Bool, (a = false ∨ b = true) ↔ (a = true → b = true) := by decide
  simp [Note.weaker, and_assoc, himp]

theorem Describes.weaken {m : Segments} {n n' : Note} {stack : List Slot} {entered : Reg → Word} {nest : List Context}
    {s : Snap} (h : Describes m n stack entered nest s) (hw : n.weaker n' = true) : Describes m n' stack entered nest s := by
  obtain ⟨hpushed, hflagged, hplace, hclobbered, hax, hds, hoff, -, -, -, hguard⟩ := Note.weaker_iff.mp hw
  have hdepth : n'.depth = n.depth := by rw [Note.depth, Note.depth, hpushed, hflagged]
  constructor
  · rw [hflagged, hpushed]
    exact h.words
  · rw [hflagged, hpushed, hdepth]
    exact h.flagged
  · rw [hplace, hdepth]
    exact h.place
  · exact fun r hss hsp hr => h.kept r hss hsp fun hc => hr (hclobbered r hc)
  · rcases hax with hax | hax <;> rw [hax]
    · trivial
    · exact h.ax
  · exact fun hd => h.ds (hds hd)
  · exact fun ho => h.off (hoff ho)
  · rcases hguard with hguard | hguard <;> rw [hguard]
    · trivial
    · exact h.guard

theorem SavedBy.weaken {n n' : Note} {entered : Reg → Word} {vars : Var → Word} (h : SavedBy n entered vars)
    (hw : n.weaker n' = true) : SavedBy n' entered vars := by
  obtain ⟨hpushed, hflagged, -, -, -, -, -, howner, hss, hsp, -⟩ := Note.weaker_iff.mp hw
  have hdepth : n'.depth = n.depth := by rw [Note.depth, Note.depth, hpushed, hflagged]
  constructor
  · exact fun ho hs => h.ss (howner ▸ ho) (hss hs)
  · exact fun ho hs => hdepth ▸ h.sp (howner ▸ ho) (hsp hs)

/-! ## Instructions -/

theorem Place.holds_congr {m : Segments} {entered regs regs' : Reg → Word} {depth : Nat} {p : Place}
    (h : p.holds m entered depth regs) (hss : regs' .ss = regs .ss) (hsp : regs' .sp = regs .sp) :
    p.holds m entered depth regs' := by
  cases p <;> simp only [Place.holds, hss, hsp] at h ⊢ <;> exact h

section

variable {m : Segments} {n : Note} {stack : List Slot} {entered regs : Reg → Word} {nest : List Context}
  {flags flags' : Flags}

/-- Only the flags change. -/
theorem Describes.setFlags (h : Describes m n stack entered nest ⟨regs, flags⟩) {off : Bool} {guard : Guard}
    (hoff : off = true → flags'.interrupts = false) (hguard : guard.holds nest flags'.zero) :
    Describes m { n with off, guard } stack entered nest ⟨regs, flags'⟩ :=
  ⟨h.words, h.flagged, h.place, h.kept, h.ax, h.ds, hoff, hguard⟩

/-- What is said of `idle_active` and the saved words is no part of the description. -/
theorem Describes.setSaved (h : Describes m n stack entered nest ⟨regs, flags⟩) (owner ssSaved spSaved : Bool) :
    Describes m { n with owner, ssSaved, spSaved } stack entered nest ⟨regs, flags⟩ :=
  ⟨h.words, h.flagged, h.place, h.kept, h.ax, h.ds, h.off, h.guard⟩

/-- A register other than `SS` and `SP` changes. -/
theorem Describes.reg (h : Describes m n stack entered nest ⟨regs, flags⟩) {r : Reg} {w : Word} (hss : r ≠ .ss)
    (hsp : r ≠ .sp) {ax : Known} {ds : Bool} (hax : ax.holds m entered (Function.update regs r w .ax))
    (hds : ds = true → Function.update regs r w .ds = m.dgroup) (hflags : flags'.interrupts = flags.interrupts) :
    Describes m { n with clobbered := r :: n.clobbered, ax, ds, guard := .none } stack entered nest
      ⟨Function.update regs r w, flags'⟩ where
  words := h.words
  flagged := h.flagged
  place := Place.holds_congr h.place (Function.update_of_ne (Ne.symm hss) _ _) (Function.update_of_ne (Ne.symm hsp) _ _)
  kept := by
    intro r' hss' hsp' hr'
    obtain ⟨hne, hr'⟩ : r' ≠ r ∧ r' ∉ n.clobbered := by simpa using hr'
    exact (Function.update_of_ne hne _ _).trans (h.kept r' hss' hsp' hr')
  ax := hax
  ds := hds
  off := fun ho => hflags.trans (h.off ho)
  guard := trivial

/-- `SS` or `SP` changes, and with it what lies on the stack. -/
theorem Describes.move (h : Describes m n stack entered nest ⟨regs, flags⟩) {r : Reg} {w : Word} (hr : r = .ss ∨ r = .sp)
    {pushed : List Reg} {flagged : Bool} {place : Place} {stack' : List Slot}
    (hwords : flagged = false → stack' = slots entered pushed)
    (hflagged : flagged = true → ∃ flags,
      stack' = ⟨entered .ss, below entered { n with pushed, flagged }.depth, .flags flags⟩ :: slots entered pushed)
    (hplace : place.holds m entered { n with pushed, flagged }.depth (Function.update regs r w)) :
    Describes m { n with pushed, flagged, place, guard := .none } stack' entered nest ⟨Function.update regs r w, flags⟩ where
  words := hwords
  flagged := hflagged
  place := hplace
  kept := by
    intro r' hss' hsp' hr'
    have hne : r' ≠ r := by rcases hr with rfl | rfl <;> assumption
    exact (Function.update_of_ne hne _ _).trans (h.kept r' hss' hsp' hr')
  ax := by
    have hne : Reg.ax ≠ r := by rcases hr with rfl | rfl <;> decide
    show n.ax.holds m entered (Function.update regs r w .ax)
    rw [Function.update_of_ne hne]
    exact h.ax
  ds := by
    have hne : Reg.ds ≠ r := by rcases hr with rfl | rfl <;> decide
    intro hds
    exact (Function.update_of_ne hne _ _).trans (h.ds hds)
  off := h.off
  guard := trivial

/-- A register gets the value back it was entered with. -/
theorem Describes.restore (h : Describes m n stack entered nest ⟨regs, flags⟩) {r : Reg} (hss : r ≠ .ss) (hsp : r ≠ .sp) :
    Describes m { n with
      clobbered := n.clobbered.filter (· ≠ r)
      ax := if r = .ax then .nothing else n.ax
      ds := n.ds && r ≠ .ds
      guard := .none } stack entered nest ⟨Function.update regs r (entered r), flags⟩ where
  words := h.words
  flagged := h.flagged
  place := Place.holds_congr h.place (Function.update_of_ne (Ne.symm hss) _ _) (Function.update_of_ne (Ne.symm hsp) _ _)
  kept := by
    intro r' hss' hsp' hr'
    show Function.update regs r (entered r) r' = entered r'
    by_cases hne : r' = r
    · rw [hne, Function.update_self]
    · rw [Function.update_of_ne hne]
      exact h.kept r' hss' hsp' fun hc => hr' (List.mem_filter.mpr ⟨hc, by simpa using hne⟩)
  ax := by
    by_cases hax : r = .ax
    · simp [hax, Known.holds]
    · simp only [hax, if_false]
      rw [Function.update_of_ne (Ne.symm hax)]
      exact h.ax
  ds := by
    intro hds
    obtain ⟨hds, hne⟩ : n.ds = true ∧ r ≠ .ds := by simpa using hds
    exact (Function.update_of_ne (Ne.symm hne) _ _).trans (h.ds hds)
  off := h.off
  guard := trivial

end

theorem SavedBy.keep {n n' : Note} {entered : Reg → Word} {vars vars' : Var → Word} (h : SavedBy n entered vars)
    (howner : n'.owner = n.owner) (hss : n'.ssSaved = n.ssSaved) (hsp : n'.spSaved = n.spSaved)
    (hdepth : n.spSaved = true → n'.depth = n.depth) (hvss : vars' .savedSs = vars .savedSs)
    (hvsp : vars' .savedSp = vars .savedSp) : SavedBy n' entered vars' := by
  constructor
  · intro ho hs
    rw [hvss]
    exact h.ss (howner ▸ ho) (hss ▸ hs)
  · intro ho hs
    rw [hvsp, hdepth (hsp ▸ hs)]
    exact h.sp (howner ▸ ho) (hsp ▸ hs)

theorem SavedBy.after_mov {n : Note} {i : Instr} {entered : Reg → Word} {vars vars' : Var → Word} (h : SavedBy n entered vars)
    (hi : (∃ r v, i = .movImm r v) ∨ (∃ dst src, i = .mov dst src) ∨ ∃ r v, i = .load r v)
    (hvss : vars' .savedSs = vars .savedSs) (hvsp : vars' .savedSp = vars .savedSp) : SavedBy (after i n) entered vars' := by
  have hsame : (after i n).owner = n.owner ∧ (after i n).ssSaved = n.ssSaved ∧ (after i n).spSaved = n.spSaved ∧
      (after i n).depth = n.depth := by
    rcases hi with ⟨r, v, rfl⟩ | ⟨dst, src, rfl⟩ | ⟨r, v, rfl⟩
    all_goals
      simp only [after]
      split <;> exact ⟨rfl, rfl, rfl, rfl⟩
  exact h.keep hsame.1 hsame.2.1 hsame.2.2.1 (fun _ => hsame.2.2.2) hvss hvsp

theorem slots_pop {entered : Reg → Word} {pushed : List Reg} {r : Reg} (h : pushed.head? = some r) :
    slots entered pushed =
      ⟨entered .ss, below entered pushed.length, .word (entered r)⟩ :: slots entered pushed.tail := by
  cases pushed with
  | nil => cases h
  | cons r' rs =>
    cases h
    rfl

section

variable {m : Segments} {n : Note} {stack : List Slot} {f : Frame} {nest : List Context} {c : Cpu} {h : Hook}

theorem Describes.home (hd : Describes m n stack f.entered nest c.snap) (hhome : n.place = .home) :
    c.regs .ss = f.entered .ss ∧ c.regs .sp = below f.entered n.depth := by
  have hplace := hd.place
  rwa [hhome] at hplace

theorem Note.depth_words {n : Note} (h : n.flagged = false) : n.depth = n.pushed.length := by
  rw [Note.depth, h]
  rfl

theorem describes_push {r : Reg} (hok : allowed h (.push r) n = true)
    (hd : Describes m n f.stack f.entered nest c.snap) :
    Describes m (after (.push r) n) (f.pushed c (.word (c.regs r))).stack f.entered nest
      (c.reg .sp (c.regs .sp - 2)).snap := by
  simp only [allowed, Bool.and_eq_true, Bool.not_eq_true', decide_eq_true_eq] at hok
  obtain ⟨⟨⟨⟨⟨hhome, hflagged⟩, -⟩, hr⟩, hss⟩, hsp⟩ := hok
  obtain ⟨hcss, hcsp⟩ := hd.home hhome
  have hnew : c.regs .sp - 2 = below f.entered (n.pushed.length + 1) := by
    rw [hcsp, Note.depth_words hflagged, below_succ]
  apply Describes.move hd (Or.inr rfl)
  · intro hf
    have hkept : c.regs r = f.entered r := hd.kept r hss hsp hr
    rw [Frame.pushed, hd.words hf, slots, hcss, hnew, hkept]
  · intro hf
    exact absurd (hflagged.symm.trans hf) (by decide)
  · have hdepth : Note.depth { n with pushed := r :: n.pushed } = n.pushed.length + 1 := Note.depth_words hflagged
    show Place.holds m f.entered (Note.depth { n with pushed := r :: n.pushed }) _ n.place
    rw [hdepth, hhome]
    exact ⟨(Function.update_of_ne (by decide) _ _).trans hcss, (Function.update_self _ _ _).trans hnew⟩

theorem describes_pushf (hok : allowed h .pushf n = true) (hd : Describes m n f.stack f.entered nest c.snap) :
    Describes m (after .pushf n) (f.pushed c (.flags c.flags)).stack f.entered nest (c.reg .sp (c.regs .sp - 2)).snap := by
  simp only [allowed, Bool.and_eq_true, Bool.not_eq_true', decide_eq_true_eq] at hok
  obtain ⟨⟨hhome, hflagged⟩, -⟩ := hok
  obtain ⟨hcss, hcsp⟩ := hd.home hhome
  have hnew : c.regs .sp - 2 = below f.entered (n.pushed.length + 1) := by
    rw [hcsp, Note.depth_words hflagged, below_succ]
  apply Describes.move hd (Or.inr rfl)
  · intro hf
    cases hf
  · intro _
    refine ⟨c.flags, ?_⟩
    rw [Frame.pushed, hd.words hflagged, hcss, hnew]
    rfl
  · show Place.holds m f.entered (n.pushed.length + 1) _ n.place
    rw [hhome]
    exact ⟨(Function.update_of_ne (by decide) _ _).trans hcss, (Function.update_self _ _ _).trans hnew⟩

/-- A pop meets the word that was pushed last. -/
theorem pop_slot {r : Reg} (hok : allowed h (.pop r) n = true) (hd : Describes m n f.stack f.entered nest c.snap) :
    f.stack = ⟨c.regs .ss, c.regs .sp, .word (f.entered r)⟩ :: slots f.entered n.pushed.tail := by
  simp only [allowed, Bool.and_eq_true, Bool.not_eq_true', decide_eq_true_eq] at hok
  obtain ⟨⟨⟨⟨⟨hhome, hflagged⟩, -⟩, hhead⟩, -⟩, -⟩ := hok
  obtain ⟨hcss, hcsp⟩ := hd.home hhome
  rw [hd.words hflagged, slots_pop hhead, hcss, hcsp, Note.depth_words hflagged]

theorem describes_pop {r : Reg} (hok : allowed h (.pop r) n = true) (hd : Describes m n f.stack f.entered nest c.snap) :
    Describes m (after (.pop r) n) (slots f.entered n.pushed.tail) f.entered nest
      ((c.reg .sp (c.regs .sp + 2)).reg r (f.entered r)).snap := by
  simp only [allowed, Bool.and_eq_true, Bool.not_eq_true', decide_eq_true_eq] at hok
  obtain ⟨⟨⟨⟨⟨hhome, hflagged⟩, -⟩, hhead⟩, hss⟩, hsp⟩ := hok
  obtain ⟨hcss, hcsp⟩ := hd.home hhome
  have hlen : n.pushed.length = n.pushed.tail.length + 1 := by
    cases hp : n.pushed with
    | nil => simp [hp] at hhead
    | cons _ _ => rfl
  have hnew : c.regs .sp + 2 = below f.entered n.pushed.tail.length := by
    rw [hcsp, Note.depth_words hflagged, hlen, below_pop]
  have hpopped : Describes m { n with pushed := n.pushed.tail, guard := .none } (slots f.entered n.pushed.tail) f.entered nest
      ⟨Function.update c.regs .sp (c.regs .sp + 2), c.flags⟩ := by
    apply Describes.move hd (Or.inr rfl)
    · intro _
      rfl
    · intro hf
      exact absurd (hflagged.symm.trans hf) (by decide)
    · have hdepth : Note.depth { n with pushed := n.pushed.tail } = n.pushed.tail.length := Note.depth_words hflagged
      show Place.holds m f.entered (Note.depth { n with pushed := n.pushed.tail }) _ n.place
      rw [hdepth, hhome]
      exact ⟨(Function.update_of_ne (by decide) _ _).trans hcss, (Function.update_self _ _ _).trans hnew⟩
  exact hpopped.restore hss hsp

theorem describes_movImm {r : Reg} {v : Imm} (hok : allowed h (.movImm r v) n = true)
    (hd : Describes m n f.stack f.entered nest c.snap) :
    Describes m (after (.movImm r v) n) f.stack f.entered nest (c.reg r (m.imm v)).snap := by
  simp only [allowed, Bool.or_eq_true, Bool.and_eq_true, decide_eq_true_eq] at hok
  rcases hok with ⟨⟨rfl, rfl⟩, hhalf⟩ | rfl
  · have hplace : c.regs .ss = m.dgroup := by
      have := hd.place
      rwa [hhalf] at this
    exact Describes.move hd (Or.inr rfl) hd.words hd.flagged
      ⟨(Function.update_of_ne (by decide) _ _).trans hplace, Function.update_self _ _ _⟩
  · refine Describes.reg hd (by decide) (by decide) ?_ ?_ rfl
    · exact Function.update_self _ _ _
    · intro hds
      exact (Function.update_of_ne (by decide) _ _).trans (hd.ds hds)

theorem describes_mov {dst src : Reg} (hok : allowed h (.mov dst src) n = true)
    (hd : Describes m n f.stack f.entered nest c.snap) :
    Describes m (after (.mov dst src) n) f.stack f.entered nest (c.reg dst (c.regs src)).snap := by
  simp only [allowed, Bool.or_eq_true, Bool.and_eq_true, decide_eq_true_eq] at hok
  have hax := hd.ax
  obtain ⟨rfl, ⟨rfl, hknown⟩ | ⟨⟨rfl, -⟩, ⟨hhome, hknown⟩ | ⟨haway, hknown⟩⟩⟩ := hok
  · rw [hknown] at hax
    refine Describes.reg hd (by decide) (by decide) ?_ ?_ rfl
    · show n.ax.holds m f.entered _
      rw [Function.update_of_ne (by decide)]
      exact hd.ax
    · intro _
      exact (Function.update_self _ _ _).trans hax
  · rw [hknown] at hax
    have hmove : Describes m { n with place := .half, guard := .none } f.stack f.entered nest (c.reg .ss (c.regs .ax)).snap :=
      Describes.move hd (Or.inl rfl) hd.words hd.flagged ((Function.update_self _ _ _).trans hax)
    simpa [after, hhome] using hmove
  · rw [hknown] at hax
    have hmove : Describes m { n with place := .back, guard := .none } f.stack f.entered nest (c.reg .ss (c.regs .ax)).snap :=
      Describes.move hd (Or.inl rfl) hd.words hd.flagged ((Function.update_self _ _ _).trans hax)
    simpa [after, haway] using hmove

theorem describes_load {r : Reg} {v : Var} (hok : allowed h (.load r v) n = true)
    (hd : Describes m n f.stack f.entered nest c.snap) (hs : SavedBy n f.entered c.vars) :
    Describes m (after (.load r v) n) f.stack f.entered nest (c.reg r (c.vars v)).snap := by
  simp only [allowed, Bool.or_eq_true, Bool.and_eq_true, decide_eq_true_eq] at hok
  obtain ⟨-, ⟨⟨⟨⟨rfl, rfl⟩, hback⟩, howner⟩, hsaved⟩ | ⟨hr, hv⟩⟩ := hok
  · have hplace : c.regs .ss = f.entered .ss := by
      have := hd.place
      rwa [hback] at this
    exact Describes.move hd (Or.inr rfl) hd.words hd.flagged
      ⟨(Function.update_of_ne (by decide) _ _).trans hplace, (Function.update_self _ _ _).trans (hs.sp howner hsaved)⟩
  · have hsp : r ≠ .sp := by rcases hr with rfl | rfl <;> decide
    have hreg : Describes m { n with
        clobbered := r :: n.clobbered
        ax := if r ≠ .ax then n.ax else if v = .savedSs then .saved else .nothing
        guard := .none } f.stack f.entered nest (c.reg r (c.vars v)).snap := by
      refine Describes.reg hd (by rcases hr with rfl | rfl <;> decide) hsp ?_ ?_ rfl
      · by_cases hax : r = .ax
        · subst hax
          by_cases hvss : v = .savedSs
          · subst hvss
            obtain ⟨howner, hsaved⟩ : n.owner = true ∧ n.ssSaved = true := by simpa using hv
            simpa [Known.holds] using hs.ss howner hsaved
          · simp [hvss, Known.holds]
        · simp only [hax, ne_eq, not_false_eq_true, if_true]
          rw [Function.update_of_ne (Ne.symm hax)]
          exact hd.ax
      · intro hds
        exact (Function.update_of_ne (by rcases hr with rfl | rfl <;> decide) _ _).trans (hd.ds hds)
    simpa only [after, hsp, if_false] using hreg

theorem describes_clear {r : Reg} (hok : allowed h (.clear r) n = true)
    (hd : Describes m n f.stack f.entered nest c.snap) :
    Describes m (after (.clear r) n) f.stack f.entered nest ((c.reg r 0).zero true).snap := by
  obtain rfl : r = .ax := by simpa [allowed] using hok
  refine Describes.reg hd (by decide) (by decide) ?_ ?_ rfl
  · exact Function.update_self _ _ _
  · intro hds
    exact (Function.update_of_ne (by decide) _ _).trans (hd.ds hds)

/-- An instruction that leaves the registers and the interrupt flag. -/
theorem describes_guard (guard : Guard) {c' : Cpu} (hd : Describes m n f.stack f.entered nest c.snap)
    (hregs : c'.regs = c.regs) (hint : c'.flags.interrupts = c.flags.interrupts)
    (hguard : guard.holds nest c'.flags.zero) : Describes m { n with guard } f.stack f.entered nest c'.snap := by
  have h : Describes m { n with guard } f.stack f.entered nest ⟨c.regs, c'.flags⟩ :=
    hd.setFlags (fun ho => hint.trans (hd.off ho)) hguard
  rw [Cpu.snap, hregs]
  exact h

end

theorem saved_store {n : Note} {h : Hook} {v : Var} {r : Reg} {c : Cpu} {entered : Reg → Word} {stack : List Slot}
    {m : Segments} {nest : List Context} (hok : allowed h (.store v r) n = true)
    (hd : Describes m n stack entered nest c.snap) (hs : SavedBy n entered c.vars) :
    SavedBy (after (.store v r) n) entered (c.var v (c.regs r)).vars := by
  simp only [allowed, Bool.or_eq_true, Bool.and_eq_true, decide_eq_true_eq] at hok
  rcases hok with ⟨⟨⟨⟨-, howner⟩, hhome⟩, -⟩, ⟨rfl, rfl⟩ | ⟨rfl, rfl⟩⟩ | rfl
  · have hplace := hd.place
    rw [hhome] at hplace
    constructor
    · intro _ _
      show Function.update c.vars .savedSs (c.regs .ss) .savedSs = entered .ss
      rw [Function.update_self]
      exact hplace.1
    · intro ho hsp
      show Function.update c.vars .savedSs (c.regs .ss) .savedSp = below entered n.depth
      rw [Function.update_of_ne (by decide)]
      exact hs.sp ho (by simpa [after] using hsp)
  · have hplace := hd.place
    rw [hhome] at hplace
    constructor
    · intro ho hss
      show Function.update c.vars .savedSp (c.regs .sp) .savedSs = entered .ss
      rw [Function.update_of_ne (by decide)]
      exact hs.ss ho (by simpa [after] using hss)
    · intro _ _
      show Function.update c.vars .savedSp (c.regs .sp) .savedSp = below entered n.depth
      rw [Function.update_self]
      exact hplace.2
  · have hvar : ∀ v, v ≠ .int08Int1cBefore → (c.var .int08Int1cBefore (c.regs r)).vars v = c.vars v :=
      fun v hv => Function.update_of_ne hv _ _
    exact hs.keep rfl (by simp [after]) (by simp [after]) (fun _ => rfl) (hvar _ (by decide)) (hvar _ (by decide))

/-- An instruction its note allows leads to what the note of its flow describes. -/
theorem exec_describes {m : Segments} {c c' : Cpu} {f f' : Frame} {nest : List Context} {n : Note} {i : Instr} {h : Hook}
    (hok : allowed h i n = true) (hd : Describes m n f.stack f.entered nest c.snap) (hs : SavedBy n f.entered c.vars)
    (hidle : c.vars .idleActive = 0 → owners nest = 0) (hexec : exec m c f i = some (c', f')) :
    ∃ t ∈ flows i f.pc n, f'.pc = t.1 ∧ Describes m t.2 f'.stack f'.entered nest c'.snap ∧
      SavedBy t.2 f'.entered c'.vars := by
  cases i with
  | push r =>
    cases hexec
    have hsp : n.spSaved = false := by
      simp only [allowed, Bool.and_eq_true, Bool.not_eq_true'] at hok
      exact hok.1.1.1.2
    refine ⟨_, List.mem_singleton.mpr rfl, rfl, describes_push hok hd, ?_⟩
    exact hs.keep rfl rfl rfl (fun hsp' => absurd (hsp.symm.trans hsp') (by decide)) rfl rfl
  | pop r =>
    have hsp : n.spSaved = false := by
      simp only [allowed, Bool.and_eq_true, Bool.not_eq_true'] at hok
      exact hok.1.1.1.2
    rw [exec, pop_slot hok hd] at hexec
    simp only [and_self, if_true] at hexec
    cases hexec
    refine ⟨_, List.mem_singleton.mpr rfl, rfl, describes_pop hok hd, ?_⟩
    exact hs.keep rfl rfl rfl (fun hsp' => absurd (hsp.symm.trans hsp') (by decide)) rfl rfl
  | movImm r v =>
    cases hexec
    exact ⟨_, List.mem_singleton.mpr rfl, rfl, describes_movImm hok hd, hs.after_mov (Or.inl ⟨r, v, rfl⟩) rfl rfl⟩
  | mov dst src =>
    cases hexec
    exact ⟨_, List.mem_singleton.mpr rfl, rfl, describes_mov hok hd, hs.after_mov (Or.inr (Or.inl ⟨dst, src, rfl⟩)) rfl rfl⟩
  | load r v =>
    rw [exec] at hexec
    split at hexec
    · cases hexec
      exact ⟨_, List.mem_singleton.mpr rfl, rfl, describes_load hok hd hs, hs.after_mov (Or.inr (Or.inr ⟨r, v, rfl⟩)) rfl rfl⟩
    · cases hexec
  | store v r =>
    rw [exec] at hexec
    split at hexec
    · cases hexec
      refine ⟨_, List.mem_singleton.mpr rfl, rfl, ?_, saved_store hok hd hs⟩
      exact Describes.setSaved (describes_guard .none hd rfl rfl trivial) _ _ _
    · cases hexec
  | set v w =>
    rw [exec] at hexec
    split at hexec
    · cases hexec
      have hfree : SavedBy (after (.set v w) n) f.entered (c.var v w).vars := by
        constructor
        · intro _ hss
          cases hss
        · intro _ hsp
          cases hsp
      refine ⟨_, List.mem_singleton.mpr rfl, rfl, ?_, hfree⟩
      exact Describes.setSaved (describes_guard .none hd rfl rfl trivial) _ _ _
    · cases hexec
  | inc v =>
    rw [exec] at hexec
    split at hexec
    · cases hexec
      have hv : v.isPrivate = false := by
        simp only [allowed, Bool.and_eq_true, Bool.not_eq_true'] at hok
        exact hok.2
      have hvar : ∀ w, w.isPrivate = true → ((c.var v (c.vars v + 1)).zero (c.vars v + 1 = 0)).vars w = c.vars w := by
        intro w hw
        refine Function.update_of_ne ?_ _ _
        rintro rfl
        exact absurd (hv.symm.trans hw) (by decide)
      exact ⟨_, List.mem_singleton.mpr rfl, rfl, describes_guard .none hd rfl rfl trivial,
        hs.keep rfl rfl rfl (fun _ => rfl) (hvar _ rfl) (hvar _ rfl)⟩
    · cases hexec
  | cmp r v =>
    rw [exec] at hexec
    split at hexec
    · cases hexec
      exact ⟨_, List.mem_singleton.mpr rfl, rfl, describes_guard .none hd rfl rfl trivial, hs.keep rfl rfl rfl (fun _ => rfl) rfl rfl⟩
    · cases hexec
  | cmpZero v =>
    rw [exec] at hexec
    split at hexec
    · cases hexec
      obtain ⟨rfl, -⟩ : v = .idleActive ∧ n.ds = true := by simpa [allowed] using hok
      have hguard : Guard.tested.holds nest (c.vars .idleActive = 0) := fun hzero => hidle (of_decide_eq_true hzero)
      have htested : Describes m { n with guard := .tested } f.stack f.entered nest (c.zero (c.vars .idleActive = 0)).snap :=
        describes_guard .tested hd rfl rfl hguard
      exact ⟨_, List.mem_singleton.mpr rfl, rfl, htested, hs.keep rfl rfl rfl (fun _ => rfl) rfl rfl⟩
    · cases hexec
  | jne target =>
    cases hexec
    cases hzero : c.flags.zero with
    | true =>
      have hpassed : (if n.guard = .tested then Guard.passed else .none).holds nest c.flags.zero := by
        split
        · rename_i htested
          have hguard := hd.guard
          rw [htested] at hguard
          exact hguard hzero
        · trivial
      refine ⟨_, List.mem_cons_self, ?_, describes_guard _ hd rfl rfl hpassed, hs.keep rfl rfl rfl (fun _ => rfl) rfl rfl⟩
      simp [Frame.step]
    | false =>
      refine ⟨_, List.mem_cons_of_mem _ (List.mem_singleton.mpr rfl), rfl, describes_guard .none hd rfl rfl trivial, hs.keep rfl rfl rfl (fun _ => rfl) rfl rfl⟩
  | jmp target =>
    cases hexec
    exact ⟨_, List.mem_singleton.mpr rfl, rfl, describes_guard .none hd rfl rfl trivial, hs.keep rfl rfl rfl (fun _ => rfl) rfl rfl⟩
  | clear r =>
    cases hexec
    exact ⟨_, List.mem_singleton.mpr rfl, rfl, describes_clear hok hd, hs.keep rfl rfl rfl (fun _ => rfl) rfl rfl⟩
  | cli =>
    cases hexec
    refine ⟨_, List.mem_singleton.mpr rfl, rfl, ?_, hs.keep rfl rfl rfl (fun _ => rfl) rfl rfl⟩
    exact Describes.setFlags hd (fun _ => rfl) trivial
  | sti =>
    cases hexec
    refine ⟨_, List.mem_singleton.mpr rfl, rfl, ?_, hs.keep rfl rfl rfl (fun _ => rfl) rfl rfl⟩
    exact Describes.setFlags hd (fun ho => by cases ho) trivial
  | cld =>
    cases hexec
    exact ⟨_, List.mem_singleton.mpr rfl, rfl, describes_guard .none hd rfl rfl trivial, hs.keep rfl rfl rfl (fun _ => rfl) rfl rfl⟩
  | pushf =>
    cases hexec
    have hsp : n.spSaved = false := by
      simp only [allowed, Bool.and_eq_true, Bool.not_eq_true'] at hok
      exact hok.2
    refine ⟨_, List.mem_singleton.mpr rfl, rfl, describes_pushf hok hd, ?_⟩
    exact hs.keep rfl rfl rfl (fun hsp' => absurd (hsp.symm.trans hsp') (by decide)) rfl rfl
  | callOld => cases hexec
  | callWorker => cases hexec
  | jmpOld => cases hexec
  | iret => cases hexec

@[simp] theorem Cpu.var_self (c : Cpu) (v : Var) (w : Word) : (c.var v w).vars v = w := Function.update_self _ _ _

theorem exec_frame {m : Segments} {c c' : Cpu} {f f' : Frame} {i : Instr} (hexec : exec m c f i = some (c', f')) :
    f'.hook = f.hook ∧ f'.entered = f.entered ∧ f'.flags = f.flags := by
  cases i
  case pop r =>
    rw [exec] at hexec
    split at hexec
    · split at hexec
      · cases hexec
        exact ⟨rfl, rfl, rfl⟩
      · cases hexec
    · cases hexec
  case jne target =>
    cases hexec
    split <;> exact ⟨rfl, rfl, rfl⟩
  all_goals
    simp only [exec] at hexec
    repeat' split at hexec
    all_goals
      cases hexec
      try exact ⟨rfl, rfl, rfl⟩

/-- The instructions that store into a variable. -/
def Instr.writes : Instr → Bool
  | .store _ _ | .set _ _ | .inc _ => true
  | _ => false

theorem exec_vars {m : Segments} {c c' : Cpu} {f f' : Frame} {i : Instr} (hexec : exec m c f i = some (c', f'))
    (hi : i.writes = false) : c'.vars = c.vars := by
  cases i
  case pop r =>
    rw [exec] at hexec
    split at hexec
    · split at hexec
      · cases hexec
        rfl
      · cases hexec
    · cases hexec
  all_goals
    simp only [exec] at hexec
    repeat' split at hexec
    all_goals
      cases hexec
      try rfl
      try cases hi

/-- Only its owner stores `saved_ss:saved_sp`. -/
theorem exec_saved {m : Segments} {c c' : Cpu} {f f' : Frame} {n : Note} {i : Instr} {h : Hook}
    (hok : allowed h i n = true) (hexec : exec m c f i = some (c', f')) :
    (c'.vars .savedSs = c.vars .savedSs ∧ c'.vars .savedSp = c.vars .savedSp) ∨ n.owner = true := by
  have written : ∀ {v : Var} (w : Word), v ≠ .savedSs → v ≠ .savedSp →
      (c.var v w).vars .savedSs = c.vars .savedSs ∧ (c.var v w).vars .savedSp = c.vars .savedSp := by
    intro v w hss hsp
    exact ⟨Function.update_of_ne (Ne.symm hss) _ _, Function.update_of_ne (Ne.symm hsp) _ _⟩
  cases i with
  | store v r =>
    rw [exec] at hexec
    split at hexec
    · cases hexec
      simp only [allowed, Bool.or_eq_true, Bool.and_eq_true, decide_eq_true_eq] at hok
      rcases hok with ⟨⟨⟨⟨-, howner⟩, -⟩, -⟩, -⟩ | rfl
      · exact Or.inr howner
      · exact Or.inl (written _ (by decide) (by decide))
    · cases hexec
  | set v w =>
    rw [exec] at hexec
    split at hexec
    · cases hexec
      obtain ⟨⟨rfl, -⟩, -⟩ : (v = .idleActive ∧ n.ds = true) ∧ _ := by simpa [allowed] using hok
      exact Or.inl (written _ (by decide) (by decide))
    · cases hexec
  | inc v =>
    rw [exec] at hexec
    split at hexec
    · cases hexec
      have hv : v.isPrivate = false := by
        simp only [allowed, Bool.and_eq_true, Bool.not_eq_true'] at hok
        exact hok.2
      exact Or.inl (written _ (by rintro rfl; cases hv) (by rintro rfl; cases hv))
    · cases hexec
  | _ =>
    rw [exec_vars hexec rfl]
    exact Or.inl ⟨rfl, rfl⟩

/-- Ownership changes only where `idle_active` is set. -/
theorem flows_owner {i : Instr} {pc : Nat} {n : Note} (hi : ∀ v w, i ≠ .set v w) :
    ∀ t ∈ flows i pc n, t.2.owner = n.owner := by
  intro t ht
  cases i
  case set v w => exact absurd rfl (hi v w)
  case jne target =>
    simp only [flows, List.mem_cons, List.not_mem_nil, or_false] at ht
    rcases ht with rfl | rfl <;> rfl
  case jmpOld => cases ht
  case iret => cases ht
  all_goals
    obtain rfl := List.mem_singleton.mp ht
    simp only [after]
    repeat' split
    all_goals rfl

/-- `idle_active` changes with the ownership. -/
theorem exec_idle {m : Segments} {c c' : Cpu} {f f' : Frame} {n : Note} {i : Instr} {h : Hook}
    (hok : allowed h i n = true) (hexec : exec m c f i = some (c', f')) :
    (c'.vars .idleActive = c.vars .idleActive ∧ ∀ t ∈ flows i f.pc n, t.2.owner = n.owner) ∨
      (n.guard = .passed ∧ c'.vars .idleActive = 1 ∧ ∀ t ∈ flows i f.pc n, t.2.owner = true) ∨
      (n.owner = true ∧ c'.vars .idleActive = 0 ∧ ∀ t ∈ flows i f.pc n, t.2.owner = false) := by
  have written : ∀ {v : Var} (w : Word), v ≠ .idleActive → (c.var v w).vars .idleActive = c.vars .idleActive :=
    fun w hv => Function.update_of_ne (Ne.symm hv) _ _
  cases i with
  | set v w =>
    rw [exec] at hexec
    split at hexec
    · cases hexec
      have hset : ∀ {o : Bool}, decide (w ≠ 0) = o → ∀ t ∈ flows (.set v w) f.pc n, t.2.owner = o := by
        intro o ho t ht
        rw [List.mem_singleton.mp ht]
        exact ho
      simp only [allowed, Bool.or_eq_true, Bool.and_eq_true, decide_eq_true_eq] at hok
      obtain ⟨⟨rfl, -⟩, ⟨rfl, hpassed⟩ | ⟨rfl, howner⟩⟩ := hok
      · exact Or.inr (Or.inl ⟨hpassed, c.var_self _ 1, hset (by decide)⟩)
      · exact Or.inr (Or.inr ⟨howner, c.var_self _ 0, hset (by decide)⟩)
    · cases hexec
  | store v r =>
    rw [exec] at hexec
    split at hexec
    · cases hexec
      have hv : v ≠ .idleActive := by
        rintro rfl
        simp [allowed] at hok
      exact Or.inl ⟨written _ hv, flows_owner (by simp)⟩
    · cases hexec
  | inc v =>
    rw [exec] at hexec
    split at hexec
    · cases hexec
      have hv : v.isPrivate = false := by
        simp only [allowed, Bool.and_eq_true, Bool.not_eq_true'] at hok
        exact hok.2
      exact Or.inl ⟨written _ (by rintro rfl; cases hv), flows_owner (by simp)⟩
    · cases hexec
  | _ =>
    rw [exec_vars hexec rfl]
    exact Or.inl ⟨rfl, flows_owner (by simp)⟩

/-! ## The invariant -/

/-- What a context may go on from. -/
def Fits (m : Segments) : Context → List Context → Snap → Prop
  | .handler f, nest, s => Describes m (noteAt f.hook f.pc) f.stack f.entered nest s
  | .worker dosIdle _, nest, _ =>
    ∃ f below, nest = .handler f :: below ∧ (noteAt f.hook f.pc).owner = true ∧ dosIdle = argument f.hook
  | _, _, _ => True

/-- What the context below is resumed with. -/
def Returns : Context → Snap → Prop
  | .handler f, s => s = ⟨popped f.entered 6, f.flags⟩
  | .worker _ called, s => s.regs .ss = called .ss ∧ s.regs .sp = called .sp ∧ s.regs .ds = called .ds
  | .chained resume flags, s => s = ⟨resume, flags⟩
  | .program, _ => True

structure Inv (m : Segments) (s : State) : Prop where
  sound : Nest.Sound (Fits m) Returns s.nest s.cpu.snap
  active : s.cpu.vars .idleActive = if owners s.nest = 0 then 0 else 1
  unique : owners s.nest ≤ 1
  saved : ∀ f, .handler f ∈ s.nest → SavedBy (noteAt f.hook f.pc) f.entered s.cpu.vars
  inCode : ∀ f, .handler f ∈ s.nest → f.pc < (code f.hook).length

theorem checked_at {f : Frame} {i : Instr} (h : f.next = some i) : allowed f.hook i (noteAt f.hook f.pc) = true ∧
    ∀ t ∈ flows i f.pc (noteAt f.hook f.pc), t.1 < (code f.hook).length ∧ t.2.weaker (noteAt f.hook t.1) = true := by
  have hpc : f.pc < (code f.hook).length := (List.getElem?_eq_some_iff.mp h).1
  have hall := List.all_eq_true.mp (checked_all f.hook) f.pc (List.mem_range.mpr hpc)
  have hcode : (code f.hook)[f.pc]? = some i := h
  simp only [hcode, Bool.and_eq_true, List.all_eq_true, decide_eq_true_eq] at hall
  exact hall

theorem owners_handler (f : Frame) (nest : List Context) :
    owners (.handler f :: nest) = owners nest + if (noteAt f.hook f.pc).owner then 1 else 0 := by
  rw [owners, List.countP_cons]
  rfl

theorem owners_other {c : Context} (h : c.isHandler = false) (nest : List Context) : owners (c :: nest) = owners nest := by
  cases c with
  | handler f => cases h
  | _ => simp [owners, Context.owner]

/-- Nobody else owns `idle_active`. -/
theorem SavedBy.of_owners {nest : List Context} (h : owners nest = 0) {f : Frame} (hf : .handler f ∈ nest)
    (vars : Var → Word) : SavedBy (noteAt f.hook f.pc) f.entered vars := by
  have hnot : (noteAt f.hook f.pc).owner = false := by
    simpa [Context.owner] using List.countP_eq_zero.mp h _ hf
  constructor
  · intro ho
    exact absurd (hnot.symm.trans ho) (by decide)
  · intro ho
    exact absurd (hnot.symm.trans ho) (by decide)

theorem inv_exec {m : Segments} {c c' : Cpu} {f f' : Frame} {i : Instr} {below : List Context} (hnext : f.next = some i)
    (hexec : exec m c f i = some (c', f')) (h : Inv m ⟨c, .handler f :: below⟩) : Inv m ⟨c', .handler f' :: below⟩ := by
  obtain ⟨hok, hweak⟩ := checked_at hnext
  obtain ⟨hhook, hentered, hflags⟩ := exec_frame hexec
  have howners := owners_handler f below
  have hunique := h.unique
  have hactive := h.active
  have hidle : c.vars .idleActive = 0 → owners below = 0 := by
    intro h0
    simp only [h0] at hactive
    split at hactive
    · omega
    · cases hactive
  obtain ⟨t, ht, hpc, hd, hs⟩ := exec_describes hok h.sound.1 (h.saved f List.mem_cons_self) hidle hexec
  obtain ⟨hin, hw⟩ := hweak t ht
  rw [← hpc, ← hhook] at hin hw
  have howner : (noteAt f'.hook f'.pc).owner = t.2.owner := (Note.weaker_iff.mp hw).2.2.2.2.2.2.2.1
  have howners' := owners_handler f' below
  rw [howner] at howners'
  have hguard : (noteAt f.hook f.pc).guard = .passed → owners below = 0 := by
    intro hp
    have := h.sound.1.guard
    rwa [hp] at this
  have hothers : ∀ g, .handler g ∈ below → SavedBy (noteAt g.hook g.pc) g.entered c'.vars := by
    intro g hg
    rcases exec_saved hok hexec with ⟨hss, hsp⟩ | hown
    · exact (h.saved g (List.mem_cons_of_mem _ hg)).keep rfl rfl rfl (fun _ => rfl) hss hsp
    · have hnone : owners below = 0 := by
        simp only [howners, hown, if_true] at hunique
        omega
      exact SavedBy.of_owners hnone hg _
  have hcount : (c'.vars .idleActive = if owners (.handler f' :: below) = 0 then 0 else 1) ∧
      owners (.handler f' :: below) ≤ 1 := by
    rw [howners']
    simp only [howners] at hunique hactive
    rcases exec_idle hok hexec with ⟨hsame, ho⟩ | ⟨hp, h1, ho⟩ | ⟨hown, h0, ho⟩
    · rw [hsame, ho t ht]
      exact ⟨hactive, hunique⟩
    · rw [h1, ho t ht, hguard hp]
      exact ⟨rfl, Nat.le_refl 1⟩
    · simp only [hown, if_true] at hunique
      have hnone : owners below = 0 := by omega
      rw [h0, ho t ht, hnone]
      exact ⟨rfl, Nat.zero_le 1⟩
  refine ⟨h.sound.replace (hd.weaken hw) ?_, hcount.1, hcount.2, ?_, ?_⟩
  · intro r hr
    rw [Returns, hentered, hflags] at hr
    exact hr
  · intro g hg
    rcases List.mem_cons.mp hg with heq | hg
    · cases heq
      exact hs.weaken hw
    · exact hothers g hg
  · intro g hg
    rcases List.mem_cons.mp hg with heq | hg
    · cases heq
      exact hin
    · exact h.inCode g (List.mem_cons_of_mem _ hg)

/-- A call of the old handler returns with the flags that were pushed gone from the stack. -/
theorem describes_callOld {m : Segments} {n : Note} {f : Frame} {nest : List Context} {c : Cpu} {h : Hook} {flags : Flags}
    {stack : List Slot} (hok : allowed h .callOld n = true) (hd : Describes m n f.stack f.entered nest c.snap)
    (hstack : f.stack = ⟨c.regs .ss, c.regs .sp, .flags flags⟩ :: stack) :
    Describes m (after .callOld n) stack f.entered nest ⟨popped c.regs 2, flags⟩ := by
  simp only [allowed, Bool.and_eq_true, Bool.not_eq_true', decide_eq_true_eq] at hok
  obtain ⟨⟨hhome, hflagged⟩, -⟩ := hok
  obtain ⟨hcss, hcsp⟩ := hd.home hhome
  have hdepth : n.depth = n.pushed.length + 1 := by simp [Note.depth, hflagged]
  obtain ⟨_, hslots⟩ := hd.flagged hflagged
  rw [hstack] at hslots
  have hrest : stack = slots f.entered n.pushed := (List.cons.inj hslots).2
  have hnew : c.regs .sp + 2 = below f.entered n.pushed.length := by rw [hcsp, hdepth, below_pop]
  have hmove : Describes m { n with flagged := false, guard := .none } stack f.entered nest ⟨popped c.regs 2, c.flags⟩ := by
    apply Describes.move hd (Or.inr rfl)
    · intro _
      exact hrest
    · intro hf
      cases hf
    · show Place.holds m f.entered n.pushed.length _ n.place
      rw [hhome]
      exact ⟨(Function.update_of_ne (by decide) _ _).trans hcss, (Function.update_self _ _ _).trans hnew⟩
  exact hmove.setFlags (fun ho => by cases ho) trivial

/-- The worker leaves the stack and `DS` to its caller. -/
theorem describes_callWorker {m : Segments} {n : Note} {stack : List Slot} {entered : Reg → Word} {nest : List Context}
    {c : Cpu} {s : Snap} (hd : Describes m n stack entered nest c.snap)
    (hss : s.regs .ss = c.regs .ss) (hsp : s.regs .sp = c.regs .sp) (hds : s.regs .ds = c.regs .ds) :
    Describes m (after .callWorker n) stack entered nest s where
  words := hd.words
  flagged := hd.flagged
  place := Place.holds_congr hd.place hss hsp
  kept := by
    intro r hrss hrsp hr
    cases r <;> simp [after] at hr hrss hrsp
  ax := trivial
  ds := fun h => hds.trans (hd.ds h)
  off := fun ho => by cases ho
  guard := trivial

/-- Where a handler leaves, the registers are those it was entered with. -/
theorem Describes.left {m : Segments} {n : Note} {stack : List Slot} {entered : Reg → Word} {nest : List Context} {s : Snap}
    (hd : Describes m n stack entered nest s) (hhome : n.place = .home) (hflagged : n.flagged = false)
    (hpushed : n.pushed = []) (hclobbered : n.clobbered = []) : s.regs = entered := by
  have hplace := hd.place
  have hdepth : n.depth = 0 := by rw [Note.depth_words hflagged, hpushed]; rfl
  rw [hhome, hdepth] at hplace
  funext r
  by_cases hss : r = .ss
  · rw [hss]
    exact hplace.1
  by_cases hsp : r = .sp
  · rw [hsp]
    exact hplace.2.trans (below_zero entered)
  exact hd.kept r hss hsp (by simp [hclobbered])

theorem leaves {h : Hook} {i : Instr} {n : Note} (hi : i = .iret ∨ i = .jmpOld) (hok : allowed h i n = true) :
    n.place = .home ∧ n.flagged = false ∧ n.pushed = [] ∧ n.clobbered = [] ∧ n.owner = false := by
  rcases hi with rfl | rfl <;> simpa [allowed, and_assoc] using hok

/-- A handler that leaves has the registers it was entered with. -/
theorem Inv.left {m : Segments} {c : Cpu} {f : Frame} {below : List Context} (h : Inv m ⟨c, .handler f :: below⟩) {i : Instr}
    (hi : i = .iret ∨ i = .jmpOld) (hnext : f.next = some i) : c.regs = f.entered := by
  obtain ⟨hhome, hflagged, hpushed, hclobbered, -⟩ := leaves hi (checked_at hnext).1
  exact h.sound.1.left hhome hflagged hpushed hclobbered

/-- A call keeps the ownership and the saved words. -/
theorem inv_call {m : Segments} {c c' : Cpu} {f f' : Frame} {i : Instr} {callee : Context} {below : List Context}
    (hi : i = .callOld ∨ i = .callWorker) (hnext : f.next = some i) (h : Inv m ⟨c, .handler f :: below⟩)
    (hhook : f'.hook = f.hook) (hpc : f'.pc = f.pc + 1) (hentered : f'.entered = f.entered) (hvars : c'.vars = c.vars)
    (hcallee : callee.isHandler = false)
    (hsound : (after i (noteAt f.hook f.pc)).weaker (noteAt f'.hook f'.pc) = true →
      Nest.Sound (Fits m) Returns (callee :: .handler f' :: below) c'.snap) :
    Inv m ⟨c', callee :: .handler f' :: below⟩ := by
  obtain ⟨hok, hweak⟩ := checked_at hnext
  have hflow : flows i f.pc (noteAt f.hook f.pc) = [(f.pc + 1, after i (noteAt f.hook f.pc))] := by
    rcases hi with rfl | rfl <;> rfl
  have hto : f'.pc < (code f'.hook).length ∧ (after i (noteAt f.hook f.pc)).weaker (noteAt f'.hook f'.pc) = true := by
    rw [hhook, hpc]
    exact hweak (f.pc + 1, _) (by rw [hflow]; exact List.mem_singleton.mpr rfl)
  obtain ⟨hin, hw⟩ := hto
  have howner : (noteAt f'.hook f'.pc).owner = (noteAt f.hook f.pc).owner := by
    rw [(Note.weaker_iff.mp hw).2.2.2.2.2.2.2.1]
    rcases hi with rfl | rfl <;> rfl
  have howners : owners (callee :: .handler f' :: below) = owners (.handler f :: below) := by
    rw [owners_other hcallee, owners_handler, owners_handler, howner]
  have hsaved : SavedBy (after i (noteAt f.hook f.pc)) f'.entered c'.vars := by
    rw [hentered, hvars]
    have hf := h.saved f List.mem_cons_self
    rcases hi with rfl | rfl
    · have hsp : (noteAt f.hook f.pc).spSaved = false := by
        simp only [allowed, Bool.and_eq_true, Bool.not_eq_true'] at hok
        exact hok.2
      exact hf.keep rfl rfl rfl (fun hsp' => absurd (hsp.symm.trans hsp') (by decide)) rfl rfl
    · exact hf.keep rfl rfl rfl (fun _ => rfl) rfl rfl
  refine ⟨hsound hw, ?_, ?_, ?_, ?_⟩
  · rw [howners, hvars]
    exact h.active
  · rw [howners]
    exact h.unique
  · intro g hg
    rcases List.mem_cons.mp hg with heq | hg
    · rw [← heq] at hcallee
      cases hcallee
    · rcases List.mem_cons.mp hg with heq | hg
      · cases heq
        exact hsaved.weaken hw
      · rw [hvars]
        exact h.saved g (List.mem_cons_of_mem _ hg)
  · intro g hg
    rcases List.mem_cons.mp hg with heq | hg
    · rw [← heq] at hcallee
      cases hcallee
    · rcases List.mem_cons.mp hg with heq | hg
      · cases heq
        exact hin
      · exact h.inCode g (List.mem_cons_of_mem _ hg)

/-- Where the running context is replaced or finishes without owning `idle_active`. -/
theorem inv_leave {m : Segments} {c c' : Cpu} {d : Context} {below nest : List Context} (h : Inv m ⟨c, d :: below⟩)
    (hd : d.owner = false) (hnest : nest = below ∨ ∃ d', d'.isHandler = false ∧ nest = d' :: below)
    (hvars : ∀ v, v.isPrivate = true → c'.vars v = c.vars v) (hsound : Nest.Sound (Fits m) Returns nest c'.snap) :
    Inv m ⟨c', nest⟩ := by
  have hbelow : owners (d :: below) = owners below := by simp [owners, hd]
  have howners : owners nest = owners (d :: below) := by
    rcases hnest with rfl | ⟨d', hd', rfl⟩
    · exact hbelow.symm
    · rw [owners_other hd', hbelow]
  have hmem : ∀ g, .handler g ∈ nest → .handler g ∈ below := by
    intro g hg
    rcases hnest with rfl | ⟨d', hd', rfl⟩
    · exact hg
    · rcases List.mem_cons.mp hg with heq | hg
      · rw [← heq] at hd'
        cases hd'
      · exact hg
  refine ⟨hsound, ?_, ?_, ?_, fun g hg => h.inCode g (List.mem_cons_of_mem _ (hmem g hg))⟩
  · rw [howners, hvars _ rfl]
    exact h.active
  · rw [howners]
    exact h.unique
  · intro g hg
    exact (h.saved g (List.mem_cons_of_mem _ (hmem g hg))).keep rfl rfl rfl (fun _ => rfl) (hvars _ rfl) (hvars _ rfl)

theorem popped_entered (regs : Reg → Word) : popped (Function.update regs .sp (regs .sp - 6)) 6 = regs := by
  have h6 : regs .sp - 6 + 6 = regs .sp := by grind
  rw [popped, Function.update_idem, Function.update_self, h6, Function.update_eq_self]

theorem owner_other {d : Context} (h : d.isHandler = false) : d.owner = false := by
  cases d with
  | handler f => cases h
  | _ => rfl

theorem describes_entry (m : Segments) (entered : Reg → Word) (nest : List Context) (flags : Flags) :
    Describes m Note.entry [] entered nest ⟨entered, flags⟩ where
  words := fun _ => rfl
  flagged := fun hf => by cases hf
  place := ⟨rfl, (below_zero entered).symm⟩
  kept := fun _ _ _ _ => rfl
  ax := trivial
  ds := fun hd => by cases hd
  off := fun ho => by cases ho
  guard := trivial

theorem code_pos (h : Hook) : 0 < (code h).length := by cases h <;> decide

/-- An entry stands on what it interrupted. -/
theorem inv_enter {m : Segments} {c : Cpu} {nest : List Context} {hook : Hook} {i : Bool} (h : Inv m ⟨c, nest⟩) :
    Inv m ⟨(c.reg .sp (c.regs .sp - 6)).interrupts i,
      .handler ⟨hook, 0, [], Function.update c.regs .sp (c.regs .sp - 6), c.flags⟩ :: nest⟩ := by
  have howner : (noteAt hook 0).owner = false := rfl
  have howners := owners_handler ⟨hook, 0, [], Function.update c.regs .sp (c.regs .sp - 6), c.flags⟩ nest
  simp only [howner, Bool.false_eq_true, if_false, Nat.add_zero] at howners
  refine ⟨Nest.Sound.push (describes_entry m _ nest _) ?_, ?_, ?_, ?_, ?_⟩
  · intro r hr
    rw [Returns, popped_entered] at hr
    rw [hr]
    exact h.sound
  · rw [howners]
    exact h.active
  · rw [howners]
    exact h.unique
  · intro g hg
    rcases List.mem_cons.mp hg with heq | hg
    · cases heq
      exact ⟨fun ho => absurd (howner.symm.trans ho) (by decide), fun ho => absurd (howner.symm.trans ho) (by decide)⟩
    · exact h.saved g hg
  · intro g hg
    rcases List.mem_cons.mp hg with heq | hg
    · cases heq
      exact code_pos hook
    · exact h.inCode g hg

theorem inv_step {m : Segments} {s s' : State} (hs : Step m s s') (h : Inv m s) : Inv m s' := by
  cases hs with
  | exec below hnext hexec => exact inv_exec hnext hexec h
  | @callOld c f flags stack below hnext hstack =>
    refine inv_call (Or.inl rfl) hnext h rfl rfl rfl rfl rfl fun hw => ⟨trivial, ?_⟩
    intro r hr
    rw [hr]
    have hd := describes_callOld (checked_at hnext).1 h.sound.1 hstack
    exact h.sound.replace (hd.weaken hw) fun _ hr => hr
  | @callWorker c f below hnext =>
    obtain ⟨hok, -⟩ := checked_at hnext
    simp only [allowed, Bool.and_eq_true, decide_eq_true_eq] at hok
    obtain ⟨⟨⟨-, howner⟩, -⟩, hax⟩ := hok
    refine inv_call (Or.inr rfl) hnext h rfl rfl rfl rfl rfl fun hw => ⟨?_, ?_⟩
    · refine ⟨f.step, below, rfl, (Note.weaker_iff.mp hw).2.2.2.2.2.2.2.1.trans howner, ?_⟩
      have := h.sound.1.ax
      rw [hax] at this
      exact this
    · intro r ⟨hss, hsp, hds⟩
      exact h.sound.replace ((describes_callWorker h.sound.1 hss hsp hds).weaken hw) fun _ hr => hr
  | @jmpOld c f below hnext _ =>
    have hregs := h.left (Or.inr rfl) hnext
    have howner := (leaves (Or.inr rfl) (checked_at hnext).1).2.2.2.2
    refine inv_leave h howner (Or.inr ⟨_, rfl, rfl⟩) (fun _ _ => rfl) (h.sound.replace trivial ?_)
    intro r hr
    rw [Returns, hregs] at hr
    exact hr
  | @iret c f below hnext _ =>
    have hregs := h.left (Or.inl rfl) hnext
    have howner := (leaves (Or.inl rfl) (checked_at hnext).1).2.2.2.2
    refine inv_leave h howner (Or.inl rfl) (fun _ _ => rfl) (h.sound.pop ?_)
    rw [Returns, ← hregs]
    rfl
  | @enter c d hook i below _ => exact inv_enter h
  | @other c c' d below hother hprivate =>
    refine inv_leave h (owner_other hother) (Or.inr ⟨d, hother, rfl⟩) hprivate (h.sound.replace ?_ fun _ hr => hr)
    have hfits := h.sound.1
    cases d with
    | handler f => cases hother
    | _ => exact hfits
  | workerReturn flags below hss hsp hds =>
    exact inv_leave h rfl (Or.inl rfl) (fun _ _ => rfl) (h.sound.pop ⟨hss, hsp, hds⟩)
  | chainedReturn below => exact inv_leave h rfl (Or.inl rfl) (fun _ _ => rfl) (h.sound.pop rfl)

theorem inv_reachable {m : Segments} {s : State} (h : Reachable m s) : Inv m s := by
  induction h with
  | start hidle => exact ⟨⟨trivial, fun _ _ => trivial⟩, hidle, Nat.zero_le 1, by simp, by simp⟩
  | step _ hs ih => exact inv_step hs ih

/-! ## The worker -/

/-- The worker runs on top of an activation that owns `idle_active`. -/
theorem Inv.worker {m : Segments} {s : State} (h : Inv m s) {above below : List Context} {dosIdle : Word}
    {called : Reg → Word} (hnest : s.nest = above ++ .worker dosIdle called :: below) :
    ∃ f rest, below = .handler f :: rest ∧ (noteAt f.hook f.pc).owner = true ∧ dosIdle = argument f.hook := by
  have hsound := h.sound
  rw [hnest] at hsound
  obtain ⟨_, hfits⟩ := hsound.exists_fits (fun c => by
    cases c with
    | handler f => exact ⟨_, rfl⟩
    | worker dosIdle called => exact ⟨⟨called, ⟨false, false⟩⟩, rfl, rfl, rfl⟩
    | chained resume flags => exact ⟨_, rfl⟩
    | program => exact ⟨s.cpu.snap, trivial⟩)
  exact hfits

/-- Each running worker has its own owner right below it. -/
theorem workers_le_owners {nest : List Context}
    (h : ∀ above dosIdle called below, nest = above ++ .worker dosIdle called :: below →
      ∃ f rest, below = .handler f :: rest ∧ (noteAt f.hook f.pc).owner = true) :
    nest.countP Context.isWorker ≤ owners nest ∧
      ∀ f rest, nest = .handler f :: rest → (noteAt f.hook f.pc).owner = true →
        nest.countP Context.isWorker < owners nest := by
  induction nest with
  | nil => exact ⟨Nat.le_refl 0, fun _ _ h => by cases h⟩
  | cons c nest ih =>
    obtain ⟨hle, hlt⟩ := ih fun above dosIdle called below hnest =>
      h (c :: above) dosIdle called below (by rw [hnest]; rfl)
    cases c with
    | handler f =>
      have hworkers : (Context.handler f :: nest).countP Context.isWorker = nest.countP Context.isWorker := by
        simp [Context.isWorker]
      rw [owners_handler, hworkers]
      refine ⟨by omega, ?_⟩
      rintro g rest hg howner
      cases hg
      rw [howner, if_pos rfl]
      omega
    | worker dosIdle called =>
      obtain ⟨f, rest, hnest, howner⟩ := h [] dosIdle called nest rfl
      have := hlt f rest hnest howner
      rw [owners_other rfl, List.countP_cons_of_pos rfl]
      exact ⟨by omega, fun _ _ hg => by cases hg⟩
    | chained resume flags =>
      rw [owners_other rfl, List.countP_cons_of_neg (by simp [Context.isWorker])]
      exact ⟨hle, fun _ _ hg => by cases hg⟩
    | program =>
      rw [owners_other rfl, List.countP_cons_of_neg (by simp [Context.isWorker])]
      exact ⟨hle, fun _ _ hg => by cases hg⟩

/-! ## Progress -/

theorem advance_step {m : Segments} {s s' : State} (h : advance m s = some s') : Step m s s' := by
  obtain ⟨c, nest⟩ := s
  cases nest with
  | nil => cases h
  | cons d below =>
    cases d with
    | handler f =>
      simp only [advance] at h
      split at h
      · rename_i hnext hstack
        split at h
        · rename_i hat
          cases h
          exact Step.callOld below hnext (by rw [hstack, hat.1, hat.2])
        · cases h
      · rename_i hnext
        cases h
        exact Step.callWorker below hnext
      · rename_i hnext
        split at h
        · rename_i hat
          cases h
          exact Step.jmpOld below hnext hat
        · cases h
      · rename_i hnext
        split at h
        · rename_i hat
          cases h
          exact Step.iret below hnext hat
        · cases h
      · rename_i hnext _
        obtain ⟨r, hexec, rfl⟩ := Option.map_eq_some_iff.mp h
        exact Step.exec below hnext hexec
      · cases h
    | worker dosIdle called => cases h
    | chained resume flags => cases h
    | program => cases h

/-- Data an allowed instruction addresses is reached. -/
theorem Describes.reaches {m : Segments} {n : Note} {stack : List Slot} {entered : Reg → Word} {nest : List Context}
    {c : Cpu} (hd : Describes m n stack entered nest c.snap) {v : Var} (h : n.ds = true ∨ v.inCode = true) :
    c.reaches m v = true := by
  rw [Cpu.reaches, Bool.or_eq_true]
  rcases h with hds | hcode
  · exact Or.inr (decide_eq_true (hd.ds hds))
  · exact Or.inl hcode

/-- An allowed instruction executes. -/
theorem exec_isSome {m : Segments} {c : Cpu} {f : Frame} {nest : List Context} {n : Note} {i : Instr} {h : Hook}
    (hok : allowed h i n = true) (hd : Describes m n f.stack f.entered nest c.snap) (hcall : i ≠ .callOld)
    (hworker : i ≠ .callWorker) (hjmp : i ≠ .jmpOld) (hiret : i ≠ .iret) : ∃ r, exec m c f i = some r := by
  cases i with
  | pop r =>
    rw [exec, pop_slot hok hd]
    simp
  | load r v =>
    have hds : n.ds = true := by
      simp only [allowed, Bool.and_eq_true] at hok
      exact hok.1
    rw [exec, if_pos (hd.reaches (Or.inl hds))]
    exact ⟨_, rfl⟩
  | store v r =>
    have hds : n.ds = true ∨ v.inCode = true := by
      simp only [allowed, Bool.or_eq_true, Bool.and_eq_true, decide_eq_true_eq] at hok
      rcases hok with hok | rfl
      · exact Or.inl hok.1.1.1.1
      · exact Or.inr rfl
    rw [exec, if_pos (hd.reaches hds)]
    exact ⟨_, rfl⟩
  | set v w =>
    have hds : n.ds = true := by
      simp only [allowed, Bool.and_eq_true] at hok
      exact hok.1.2
    rw [exec, if_pos (hd.reaches (Or.inl hds))]
    exact ⟨_, rfl⟩
  | inc v =>
    have hds : n.ds = true := by
      simp only [allowed, Bool.and_eq_true] at hok
      exact hok.1
    rw [exec, if_pos (hd.reaches (Or.inl hds))]
    exact ⟨_, rfl⟩
  | cmp r v =>
    have hds : n.ds = true ∨ v.inCode = true := by simpa [allowed] using hok
    rw [exec, if_pos (hd.reaches hds)]
    exact ⟨_, rfl⟩
  | cmpZero v =>
    have hds : n.ds = true := by
      simp only [allowed, Bool.and_eq_true] at hok
      exact hok.2
    rw [exec, if_pos (hd.reaches (Or.inl hds))]
    exact ⟨_, rfl⟩
  | callOld => exact absurd rfl hcall
  | callWorker => exact absurd rfl hworker
  | jmpOld => exact absurd rfl hjmp
  | iret => exact absurd rfl hiret
  | _ => exact ⟨_, rfl⟩

/-- A running handler goes on: it never pops what it did not push, nor addresses data
    through another segment. -/
theorem handler_advances {m : Segments} {c : Cpu} {f : Frame} {below : List Context}
    (h : Reachable m ⟨c, .handler f :: below⟩) : ∃ s', advance m ⟨c, .handler f :: below⟩ = some s' := by
  have hinv := inv_reachable h
  obtain ⟨i, hnext⟩ : ∃ i, f.next = some i := ⟨_, List.getElem?_eq_getElem (hinv.inCode f List.mem_cons_self)⟩
  obtain ⟨hok, -⟩ := checked_at hnext
  have hd := hinv.sound.1
  have hat : i = .iret ∨ i = .jmpOld → f.atEntry c := by
    intro hi
    have hregs := hinv.left hi hnext
    exact ⟨by rw [hregs], by rw [hregs]⟩
  by_cases hcall : i = .callOld
  · subst hcall
    simp only [allowed, Bool.and_eq_true, Bool.not_eq_true', decide_eq_true_eq] at hok
    obtain ⟨⟨hhome, hflagged⟩, -⟩ := hok
    obtain ⟨hcss, hcsp⟩ := hd.home hhome
    obtain ⟨flags, hstack⟩ := hd.flagged hflagged
    rw [← hcss, ← hcsp] at hstack
    simp [advance, hnext, hstack]
  by_cases hworker : i = .callWorker
  · subst hworker
    simp [advance, hnext]
  by_cases hjmp : i = .jmpOld
  · subst hjmp
    simp [advance, hnext, hat (Or.inr rfl)]
  by_cases hiret : i = .iret
  · subst hiret
    simp [advance, hnext, hat (Or.inl rfl)]
  obtain ⟨r, hr⟩ := exec_isSome hok hd hcall hworker hjmp hiret
  refine ⟨⟨r.1, .handler r.2 :: below⟩, ?_⟩
  simp only [advance, hnext]
  split <;> simp_all

/-! ## Exclusion -/

theorem owners_of_idle {nest : List Context} (h : ∀ c ∈ nest, c.isHandler = false) : owners nest = 0 := by
  apply List.countP_eq_zero.mpr
  intro c hc
  rw [owner_other (h c hc)]
  decide

/-- However the entries nest: at most one activation is in the worker; the worker is told
    that DOS is idle by `INT 28h` only; every activation leaves with the `SS:SP` it was
    entered with; `idle_active` is zero when no activation is left. -/
theorem resident_worker_exclusion {m : Segments} {s : State} (h : Reachable m s) :
    s.nest.countP Context.isWorker ≤ 1 ∧
      (∀ above dosIdle called below, s.nest = above ++ .worker dosIdle called :: below →
        ∃ f rest, below = .handler f :: rest ∧ dosIdle = if f.hook = .int28 then 1 else 0) ∧
      (∀ f below, s.nest = .handler f :: below → f.next = some .iret ∨ f.next = some .jmpOld →
        s.cpu.regs .ss = f.entered .ss ∧ s.cpu.regs .sp = f.entered .sp) ∧
      ((∀ c ∈ s.nest, c.isHandler = false) → s.cpu.vars .idleActive = 0) := by
  have hinv := inv_reachable h
  refine ⟨?_, ?_, ?_, ?_⟩
  · have hworkers := (workers_le_owners fun above dosIdle called below hnest => by
      obtain ⟨f, rest, hbelow, howner, -⟩ := hinv.worker hnest
      exact ⟨f, rest, hbelow, howner⟩).1
    exact Nat.le_trans hworkers hinv.unique
  · intro above dosIdle called below hnest
    obtain ⟨f, rest, hbelow, -, harg⟩ := hinv.worker hnest
    refine ⟨f, rest, hbelow, harg.trans ?_⟩
    cases f.hook <;> rfl
  · intro f below hnest hnext
    obtain ⟨cpu, nest⟩ := s
    obtain rfl : nest = .handler f :: below := hnest
    have hregs : cpu.regs = f.entered := by
      rcases hnext with hnext | hnext
      · exact hinv.left (Or.inl rfl) hnext
      · exact hinv.left (Or.inr rfl) hnext
    show cpu.regs .ss = f.entered .ss ∧ cpu.regs .sp = f.entered .sp
    rw [hregs]
    exact ⟨rfl, rfl⟩
  · intro hidle
    have hactive := hinv.active
    rwa [owners_of_idle hidle, if_pos rfl] at hactive

theorem advances_reachable {m : Segments} (n : Nat) {s : State} (h : Reachable m s) : Reachable m (advances m n s) := by
  induction n generalizing s with
  | zero => exact h
  | succ n ih =>
    rw [advances]
    cases hs : advance m s with
    | none => exact ih h
    | some s' => exact ih (Reachable.step h (advance_step hs))

/-- Other code is running, or interrupts are enabled. -/
def State.interruptible (s : State) : Bool := s.nest.head?.any fun d => s.cpu.flags.interrupts || !d.isHandler

theorem interrupted_reachable {m : Segments} {s : State} (h : Reachable m s) (hi : s.interruptible = true) (hook : Hook) :
    Reachable m (interrupted hook s) := by
  obtain ⟨c, nest⟩ := s
  cases nest with
  | nil => cases hi
  | cons d below =>
    refine Reachable.step h (Step.enter hook false below ?_)
    simpa [State.interruptible] using hi

/-- The timer interrupts the program; the old handler calls `INT 1Ch`, and the timer
    interrupts the worker of that activation. -/
def timerInWorker : State :=
  let program : State := ⟨⟨fun _ => 0x2000, ⟨true, false⟩, fun _ => 0⟩, [.program]⟩
  let called := advances ⟨0x1000, 0x8000⟩ 11 (interrupted .int08 program)
  let worker := advances ⟨0x1000, 0x8000⟩ 25 (interrupted .int1c called)
  advances ⟨0x1000, 0x8000⟩ 11 (interrupted .int08 worker)

theorem timerInWorker_reachable : Reachable ⟨0x1000, 0x8000⟩ timerInWorker := by
  have hprogram : Reachable ⟨0x1000, 0x8000⟩ ⟨⟨fun _ => 0x2000, ⟨true, false⟩, fun _ => 0⟩, [.program]⟩ := Reachable.start rfl
  have hcalled := advances_reachable 11 (interrupted_reachable hprogram rfl .int08)
  have hworker := advances_reachable 25 (interrupted_reachable hcalled (by decide +kernel) .int1c)
  exact advances_reachable 11 (interrupted_reachable hworker (by decide +kernel) .int08)

/-- One worker runs there, and no other can. -/
theorem timerInWorker_exclusion : timerInWorker.nest.countP Context.isWorker = 1 ∧
    timerInWorker.nest.countP Context.isWorker ≤ 1 :=
  ⟨by decide +kernel, (resident_worker_exclusion timerInWorker_reachable).1⟩

end DosMcp.Dos.Hooks
