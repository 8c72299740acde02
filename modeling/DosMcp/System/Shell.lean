/-
  DosMcp.System.Shell — RAGENT's shell, and the keys that SEND_KEYS types into it.

  `inject_keys` puts a key into the keyboard ring and lets the shell take one. A keyboard is idle
  when its ring is valid and empty and Ctrl-Alt is not held down.

  - `keys_reach_shell`: on an idle keyboard every key is accepted and goes through the line
    editor; `system` gets the lines that it completes, in order.
  - `nul_jams_shell`: a NUL in the text stops the shell, for as long as nobody else takes a key.
-/

import DosMcp.Dos.Isolation
import DosMcp.System.Keyboard

namespace DosMcp.Dos

open Lib

/-! ## The keyboard -/

/-- The keys that wait in a valid ring. -/
inductive Waits (m : Machine) (words : List UInt16) : Prop
  | intro (ring : Ring UInt16 16) (hring : keyRing m = some ring) (hunread : ring.unread = words)

/-- Ctrl and Alt are held down. -/
def ctrlAlt (m : Machine) : Bool := m.keybrdShiftStatus &&& 0x0C = 0x0C

structure Idle (m : Machine) : Prop where
  empty : Waits m []
  released : ctrlAlt m = false

theorem peek_poke16_apart (m : Machine) {offset other : UInt16} (h : other < offset ∨ offset.toNat + 2 ≤ other.toNat) (v : UInt16) :
    (m.poke16 0x40 offset v).peek 0x40 other = m.peek 0x40 other := by
  have hout : ¬ (16 * (0x40 : UInt16).toNat + offset.toNat ≤ 16 * (0x40 : UInt16).toNat + other.toNat ∧
      16 * (0x40 : UInt16).toNat + other.toNat < 16 * (0x40 : UInt16).toNat + offset.toNat + (dmPutU16 v).length) := by
    rw [dmPutU16_length]
    rw [UInt16.lt_iff_toNat_lt] at h
    omega
  exact if_neg hout

theorem slotOffset_inj {i j : Fin 16} : slotOffset i = slotOffset j ↔ i = j := by
  constructor
  · intro hsame
    rw [← slotOf_slotOffset i, hsame, slotOf_slotOffset]
  · rintro rfl
    rfl

section

variable {m m' : Machine} {word : UInt16} {words : List UInt16}

theorem biosQueueWord_ctrlAlt (h : m.biosQueueWord word = some m') : ctrlAlt m' = ctrlAlt m := by
  unfold Machine.biosQueueWord at h
  dsimp only at h
  split at h
  · cases h
  rename_i hgood
  split at h
  · cases h
  cases h
  have hslot : 0x1E ≤ m.peek16 0x40 0x1C := by
    by_contra hlow
    exact hgood (Or.inl (by simp [Machine.ringPointerBad, UInt16.not_le.mp hlow]))
  have hfirst : (0x17 : UInt16) < 0x1E := by decide
  have hbefore : 0x17 < m.peek16 0x40 0x1C := UInt16.lt_of_lt_of_le hfirst hslot
  have htail : (0x17 : UInt16) < 0x1C := by decide
  rw [ctrlAlt, ctrlAlt, Machine.keybrdShiftStatus, Machine.keybrdShiftStatus, peek_poke16_apart _ (Or.inl htail),
    peek_poke16_apart _ (Or.inl hbefore)]

/-- A word that is queued waits behind the others; with less than 15 there is room. -/
theorem Waits.queue (h : Waits m words) (word : UInt16) :
    (m.biosQueueWord word = none ∧ words.length = 15) ∨
      ∃ m', m.biosQueueWord word = some m' ∧ Waits m' (words ++ [word]) ∧ ctrlAlt m' = ctrlAlt m := by
  obtain ⟨ring, hring, rfl⟩ := h
  rcases queueWord_ring hring word with ⟨hnone, hfull⟩ | ⟨m', ring', hsome, hpush, hring'⟩
  · refine Or.inl ⟨hnone, ?_⟩
    rw [Ring.unread_length]
    exact Nat.succ_injective ((Ring.full_iff ring).mp hfull)
  · exact Or.inr ⟨m', hsome, ⟨ring', hring', Ring.push_unread hpush⟩, biosQueueWord_ctrlAlt hsome⟩

/-- The key at the head is ready, unless its word is zero. -/
theorem Waits.ready (h : Waits m words) : m.keybrdReady = words.headD 0 := by
  obtain ⟨ring, hring, rfl⟩ := h
  obtain ⟨htail, hhead, hslots⟩ := keyRing_eq_some hring
  unfold Machine.keybrdReady
  dsimp only
  rw [htail, hhead, hslots]
  cases hunread : ring.unread with
  | nil => rw [if_pos (slotOffset_inj.mpr (Ring.unread_eq_nil_iff.mp hunread)), List.headD_nil]
  | cons first rest =>
    have hne : ring.head ≠ ring.tail := by
      intro hempty
      rw [Ring.unread_eq_nil_iff.mpr hempty] at hunread
      cases hunread
    rw [if_neg (mt slotOffset_inj.mp hne), (Ring.unread_pop hunread).1, List.headD_cons]

theorem Waits.read (h : Waits m (word :: words)) :
    m.keybrdRead.1 = word ∧ Waits m.keybrdRead.2 words ∧ ctrlAlt m.keybrdRead.2 = ctrlAlt m := by
  obtain ⟨ring, hring, hunread⟩ := h
  obtain ⟨htail, hhead, hslots⟩ := keyRing_eq_some hring
  obtain ⟨hfirst, hrest⟩ := Ring.unread_pop hunread
  have hread : m.keybrdRead = (word, m.poke16 0x40 0x1A (slotOffset (ring.head + 1))) := by
    rw [Machine.keybrdRead, hhead, hslots, hfirst, slotOffset_next]
  rw [hread]
  refine ⟨rfl, ⟨ring.pop, ?_, hrest⟩, ?_⟩
  · apply keyRing_of_pointers
    · rw [peek16_poke16_apart _ (by decide) (Or.inr (by decide)), htail]
      rfl
    · exact peek16_poke16_same _ (by decide) _
    · intro i
      have hslot := slotOffset_toNat i
      have h1A : (0x1A : UInt16).toNat = 0x1A := rfl
      rw [peek16_poke16_apart _ (by omega) (by omega), hslots]
      rfl
  · have hbefore : (0x17 : UInt16) < 0x1A := by decide
    rw [ctrlAlt, ctrlAlt, Machine.keybrdShiftStatus, Machine.keybrdShiftStatus, peek_poke16_apart _ (Or.inl hbefore)]

end

/-! ## The line editor -/

/-- `EXIT`. -/
def exitCommand : Bytes := [0x45, 0x58, 0x49, 0x54]

/-- What a key does to the command line, and the command that it completes. A line that says
    `EXIT` stops the agent and stays. -/
def Shell.key (shell : Shell) (ascii : UInt8) : Shell × Option Bytes :=
  if ascii = 13 then
    if stricmpEqual shell.command exitCommand then ({ shell with running := false }, none)
    else ({ shell with command := [] }, if shell.command = [] then none else some shell.command)
  else if ascii = 8 then ({ shell with command := shell.command.dropLast }, none)
  else if ascii ≥ 32 ∧ shell.command.length + 1 < 128 then ({ shell with command := shell.command ++ [ascii] }, none)
  else (shell, none)

def Shell.type : Shell → Bytes → Shell × List Bytes
  | shell, [] => (shell, [])
  | shell, ascii :: rest =>
    let after := (shell.key ascii).1.type rest
    (after.1, (shell.key ascii).2.toList ++ after.2)

theorem Shell.type_append (shell : Shell) (first second : Bytes) :
    shell.type (first ++ second) =
      (((shell.type first).1.type second).1, (shell.type first).2 ++ ((shell.type first).1.type second).2) := by
  induction first generalizing shell with
  | nil => rfl
  | cons ascii first ih =>
    rw [List.cons_append, Shell.type, Shell.type, ih, List.append_assoc]

/-- Printable text goes to the end of the line, as far as the line's buffer takes it. -/
theorem Shell.type_text {shell : Shell} (hline : shell.command.length ≤ 127) {text : Bytes} (htext : ∀ ascii ∈ text, 32 ≤ ascii) :
    shell.type text = ({ shell with command := (shell.command ++ text).take 127 }, []) := by
  induction text generalizing shell with
  | nil => rw [List.append_nil, List.take_of_length_le hline, Shell.type]
  | cons ascii text ih =>
    have hprintable : 32 ≤ ascii := htext ascii List.mem_cons_self
    have hrest := fun ascii hascii => htext ascii (List.mem_cons_of_mem _ hascii)
    have h13 : ascii ≠ 13 := by
      rintro rfl
      exact absurd hprintable (by decide)
    have h8 : ascii ≠ 8 := by
      rintro rfl
      exact absurd hprintable (by decide)
    rw [Shell.type, Shell.key, if_neg h13, if_neg h8]
    by_cases hroom : shell.command.length + 1 < 128
    · have hlonger : (shell.command ++ [ascii]).length ≤ 127 := by
        rw [List.length_append, List.length_singleton]
        omega
      rw [if_pos ⟨hprintable, hroom⟩, ih hlonger hrest]
      simp
    · have hfull : shell.command.length = 127 := by omega
      rw [if_neg (fun h => hroom h.2), ih hline hrest]
      simp [List.take_append_of_le_length (Nat.le_of_eq hfull.symm)]

/-- The command that `process_shell_keyboard` hands to `system`. -/
def State.hands (s : State) : Option Bytes :=
  if s.machine.keybrdReady = 0 then none else (s.shell.key s.machine.keybrdRead.1.toUInt8).2

/-- The machine after a command, if there is one. -/
def afterCommand (c : Config) (m : Machine) : Option Bytes → Machine
  | none => m
  | some command => c.system command m

/-- `process_shell_keyboard` takes a key out of the ring, edits the line and runs what it completes. -/
theorem processShellKeyboard_eq (c : Config) (s : State) :
    (s.machine.keybrdReady = 0 ∧ processShellKeyboard c s = s) ∨
      (s.machine.keybrdReady ≠ 0 ∧ ctrlAlt s.machine.keybrdRead.2 = true ∧ s.machine.keybrdRead.1.toUInt8 = 27 ∧
        processShellKeyboard c s = { s with machine := s.machine.keybrdRead.2, shell := { s.shell with running := false } }) ∨
      (s.machine.keybrdReady ≠ 0 ∧
        processShellKeyboard c s = { s with machine := afterCommand c s.machine.keybrdRead.2 s.hands
                                            shell := (s.shell.key s.machine.keybrdRead.1.toUInt8).1 }) := by
  by_cases hready : s.machine.keybrdReady = 0
  · exact Or.inl ⟨hready, if_pos hready⟩
  have hhands : s.hands = (s.shell.key s.machine.keybrdRead.1.toUInt8).2 := if_neg hready
  refine Or.inr ?_
  rw [hhands]
  unfold processShellKeyboard
  rw [if_neg hready]
  generalize s.machine.keybrdRead = read
  obtain ⟨key, machine⟩ := read
  dsimp only
  by_cases hstop : key.toUInt8 = 27 ∧ machine.keybrdShiftStatus &&& 0x0C = 0x0C
  · exact Or.inl ⟨hready, decide_eq_true hstop.2, hstop.1, if_pos hstop⟩
  refine Or.inr ⟨hready, ?_⟩
  rw [if_neg hstop]
  unfold Shell.key
  by_cases henter : key.toUInt8 = 13
  · rw [if_pos henter, if_pos henter]
    by_cases hexit : stricmpEqual s.shell.command exitCommand = true
    · rw [if_pos hexit]
      exact if_pos hexit
    · rw [if_neg hexit]
      refine (if_neg hexit).trans ?_
      by_cases hempty : s.shell.command = []
      · rw [if_pos hempty, if_pos hempty]
        rfl
      · rw [if_neg hempty, if_neg hempty]
        rfl
  · rw [if_neg henter, if_neg henter]
    split_ifs <;> rfl

/-- The commands that a loop of `inject_keys` hands to `system`. -/
def handedOver (c : Config) : List UInt16 → State → List Bytes
  | [], _ => []
  | word :: words, s => match s.machine.biosQueueWord word with
    | none => []
    | some machine =>
      let s := { s with machine := machine }
      s.hands.toList ++ handedOver c words (processShellKeyboard c s)

/-- The commands that `inject_keys` of RAGENT hands to `system`. -/
def keysHanded (c : Config) (s : State) (payload : Bytes) : List Bytes :=
  handedOver c (textWords payload) s ++ handedOver c (namedWords payload) (queueWords .ragent c (textWords payload) s).2

section

variable {c : Config} {s : State}

/-- The shell takes the only key that waits. -/
theorem processShellKeyboard_key (hquiet : ∀ command m, Idle m → Idle (c.system command m)) {word : UInt16} (hword : word ≠ 0)
    (hwaits : Waits s.machine [word]) (hreleased : ctrlAlt s.machine = false) :
    (processShellKeyboard c s).shell = (s.shell.key word.toUInt8).1 ∧ s.hands = (s.shell.key word.toUInt8).2 ∧
      Idle (processShellKeyboard c s).machine := by
  have hready : s.machine.keybrdReady = word := hwaits.ready
  obtain ⟨hfirst, hempty, hstill⟩ := hwaits.read
  have hidle : Idle s.machine.keybrdRead.2 := ⟨hempty, hstill.trans hreleased⟩
  have hhands : s.hands = (s.shell.key word.toUInt8).2 := by
    rw [State.hands, if_neg (by rwa [hready]), hfirst]
  rcases processShellKeyboard_eq c s with ⟨hnone, -⟩ | ⟨-, hstop, -⟩ | ⟨-, htaken⟩
  · rw [hready] at hnone
    exact absurd hnone hword
  · rw [hidle.released] at hstop
    cases hstop
  · rw [htaken, hfirst]
    refine ⟨rfl, hhands, ?_⟩
    show Idle (afterCommand c s.machine.keybrdRead.2 s.hands)
    cases s.hands with
    | none => exact hidle
    | some command => exact hquiet command _ hidle

/-- A loop of `inject_keys` on an idle keyboard. -/
theorem queueWords_typed (hquiet : ∀ command m, Idle m → Idle (c.system command m)) {words : List UInt16}
    (hwords : ∀ word ∈ words, word ≠ 0) (hidle : Idle s.machine) :
    (queueWords .ragent c words s).1 = words.length ∧
      (queueWords .ragent c words s).2.shell = (s.shell.type (words.map UInt16.toUInt8)).1 ∧
      handedOver c words s = (s.shell.type (words.map UInt16.toUInt8)).2 ∧ Idle (queueWords .ragent c words s).2.machine := by
  induction words generalizing s with
  | nil => exact ⟨rfl, rfl, rfl, hidle⟩
  | cons word words ih =>
    rcases hidle.empty.queue word with ⟨-, hfull⟩ | ⟨machine, hqueued, hwaits, hstill⟩
    · cases hfull
    obtain ⟨hshell, hhands, hnext⟩ := processShellKeyboard_key (c := c) (s := { s with machine := machine }) hquiet
      (hwords word List.mem_cons_self) hwaits (hstill.trans hidle.released)
    obtain ⟨hcount, hrest, hcommands, hend⟩ := ih (fun word hword => hwords word (List.mem_cons_of_mem _ hword)) hnext
    simp only [queueWords, handedOver, hqueued, List.map_cons, Shell.type]
    rw [hshell] at hrest hcommands
    exact ⟨congrArg (· + 1) hcount, hrest, by rw [hhands, hcommands], hend⟩

theorem queueWords_generation (words : List UInt16) (s : State) :
    (queueWords .ragent c words s).2.keyGeneration = s.keyGeneration := by
  have hkey : ∀ s : State, (processShellKeyboard c s).keyGeneration = s.keyGeneration := by
    intro s
    rcases processShellKeyboard_eq c s with ⟨-, h⟩ | ⟨-, -, -, h⟩ | ⟨-, h⟩
    · rw [h]
    · rw [h]
    · rw [h]
  induction words generalizing s with
  | nil => rfl
  | cons word words ih =>
    rw [queueWords]
    cases s.machine.biosQueueWord word with
    | none => rfl
    | some machine => exact (ih _).trans (hkey _)

/-- A request that `inject_keys` accepts goes through its two loops. -/
theorem injectKeys_ragent {payload reply : Bytes} (h : (injectKeys .ragent c s payload).1 = some reply) :
    let typed := queueWords .ragent c (textWords payload) s
    let named := queueWords .ragent c (namedWords payload) typed.2
    payload.length = 5 + (dmGetU16 payload 0).toNat + (byteAt payload 2).toNat ∧
      reply = dmPutU16 (.ofNat typed.1) ++ [.ofNat named.1] ++ dmPutU16 (s.keyGeneration + 1) ∧
      (injectKeys .ragent c s payload).2 = { named.2 with keyGeneration := s.keyGeneration + 1 } := by
  intro typed named
  have hgeneration : named.2.keyGeneration = s.keyGeneration :=
    (queueWords_generation (namedWords payload) typed.2).trans (queueWords_generation (textWords payload) s)
  unfold injectKeys at h ⊢
  split at h
  · cases h
  rename_i hlong
  dsimp only at h
  split at h
  · cases h
  rename_i hbounds
  have hlength : payload.length = 5 + (dmGetU16 payload 0).toNat + (byteAt payload 2).toNat := by
    by_contra hne
    exact hbounds (Or.inr (Or.inr (Or.inr hne)))
  rw [if_neg hlong]
  refine ⟨hlength, ?_, ?_⟩
  · cases h
    show dmPutU16 (.ofNat typed.1) ++ [.ofNat named.1] ++ dmPutU16 (named.2.keyGeneration + 1) = _
    rw [hgeneration]
  · dsimp only
    rw [if_neg hbounds]
    show ({ named.2 with keyGeneration := named.2.keyGeneration + 1 } : State) = _
    rw [hgeneration]

/-! ## Typing -/

theorem textWord_toUInt8 (ascii : UInt8) : (((asciiScan ascii).toUInt16 <<< 8) ||| ascii.toUInt16).toUInt8 = ascii := by
  generalize asciiScan ascii = scan
  have hlow : (scan.toUInt16 <<< 8).toNat % 2 ^ 8 = 0 := by
    rw [UInt16.toNat_shiftLeft, Nat.shiftLeft_eq]
    simp only [UInt16.reduceToNat, Nat.reduceMod]
    omega
  apply UInt8.toNat_inj.mp
  rw [UInt16.toNat_toUInt8, UInt16.toNat_or, Nat.or_mod_two_pow, hlow, Nat.zero_or, UInt8.toNat_toUInt16]
  exact Nat.mod_eq_of_lt ascii.toNat_lt

theorem textWord_ne_zero {ascii : UInt8} (h : ascii ≠ 0) : ((asciiScan ascii).toUInt16 <<< 8) ||| ascii.toUInt16 ≠ 0 := by
  intro hzero
  have hbyte := textWord_toUInt8 ascii
  rw [hzero] at hbyte
  exact h hbyte.symm

end

/-- The text of a SEND_KEYS request. -/
def typedText (payload : Bytes) : Bytes := slice payload 5 (dmGetU16 payload 0).toNat

section

variable {c : Config} {s : State} {payload reply : Bytes}

theorem keys_typed (hquiet : ∀ command m, Idle m → Idle (c.system command m)) (hidle : Idle s.machine)
    (haccepted : (injectKeys .ragent c s payload).1 = some reply) (htext : 0 ∉ typedText payload) :
    let bytes := typedText payload ++ (namedWords payload).map UInt16.toUInt8
    reply = dmPutU16 (dmGetU16 payload 0) ++ [.ofNat (namedWords payload).length] ++ dmPutU16 (s.keyGeneration + 1) ∧
      keysHanded c s payload = (s.shell.type bytes).2 ∧ (injectKeys .ragent c s payload).2.shell = (s.shell.type bytes).1 ∧
      Idle (injectKeys .ragent c s payload).2.machine := by
  intro bytes
  obtain ⟨hlength, hreply, hafter⟩ := injectKeys_ragent haccepted
  have hbytes : (textWords payload).map UInt16.toUInt8 = typedText payload := by
    rw [textWords, List.map_map, typedText]
    exact List.map_id'' textWord_toUInt8 _
  have hwords : ∀ word ∈ textWords payload, word ≠ 0 := by
    intro word hword
    obtain ⟨ascii, hascii, rfl⟩ := List.mem_map.mp hword
    exact textWord_ne_zero fun hzero => htext (hzero ▸ hascii)
  have hnamed : ∀ word ∈ namedWords payload, word ≠ 0 := by
    intro word hword
    simpa using List.mem_takeWhile_imp hword
  obtain ⟨hcount, hshell, hcommands, hidle'⟩ := queueWords_typed hquiet hwords hidle
  obtain ⟨hcount', hshell', hcommands', hidle''⟩ := queueWords_typed (c := c) hquiet hnamed hidle'
  rw [hshell] at hshell' hcommands'
  rw [hbytes] at hshell hcommands hshell' hcommands'
  have htype := Shell.type_append s.shell (typedText payload) ((namedWords payload).map UInt16.toUInt8)
  refine ⟨?_, ?_, ?_, ?_⟩
  · have htextLength : (textWords payload).length = (dmGetU16 payload 0).toNat := by
      rw [textWords, List.length_map, slice_length_of_le (by omega)]
    rw [hreply, hcount, hcount', htextLength, UInt16.ofNat_toNat]
  · rw [keysHanded, hcommands, hcommands', htype]
  · rw [hafter, htype]
    exact hshell'
  · rw [hafter]
    exact hidle''

end

/-- RAGENT with nothing typed; its commands do nothing. -/
def idleShell : State := .start emptyRing (dosStore (fun _ => none) fun _ => ⟨true, 0⟩)

theorem idleShell_idle : Idle idleShell.machine where
  empty := ⟨⟨_, 0, 0⟩, if_neg (by decide), rfl⟩
  released := by decide

/-- The oldest key of the ring is a zero word, which `_bios_keybrd` reports as no key. -/
def Jammed (m : Machine) : Prop := ∃ words, Waits m (0 :: words)

/-- The shell has not taken a key, and cannot take one. -/
def Stuck (s s' : State) : Prop := s'.shell = s.shell ∧ Jammed s'.machine

section

variable {c : Config} {s s' : State} {m : Machine}

theorem Jammed.queue (h : Jammed m) {word : UInt16} {m' : Machine} (hqueued : m.biosQueueWord word = some m') : Jammed m' := by
  obtain ⟨words, hwaits⟩ := h
  rcases hwaits.queue word with ⟨hnone, -⟩ | ⟨machine, hsome, hwaits', -⟩
  · rw [hqueued] at hnone
    cases hnone
  · cases hqueued.symm.trans hsome
    exact ⟨words ++ [word], hwaits'⟩

theorem processShellKeyboard_jammed (h : Jammed s.machine) : processShellKeyboard c s = s := by
  obtain ⟨words, hwaits⟩ := h
  exact if_pos hwaits.ready

theorem queueWords_jammed (words : List UInt16) (h : Jammed s.machine) : Stuck s (queueWords .ragent c words s).2 := by
  induction words generalizing s with
  | nil => exact ⟨rfl, h⟩
  | cons word words ih =>
    rw [queueWords]
    cases hqueued : s.machine.biosQueueWord word with
    | none => exact ⟨rfl, h⟩
    | some machine =>
      have hjammed : Jammed ({ s with machine := machine } : State).machine := h.queue hqueued
      dsimp only
      rw [processShellKeyboard_jammed hjammed]
      exact ih hjammed

theorem injectKeys_jammed (h : Jammed s.machine) (payload : Bytes) : Stuck s (injectKeys .ragent c s payload).2 := by
  cases hreply : (injectKeys .ragent c s payload).1 with
  | none =>
    have hsame : (injectKeys .ragent c s payload).2 = s := by
      unfold injectKeys at hreply ⊢
      split
      · rfl
      rename_i hlong
      rw [if_neg hlong] at hreply
      dsimp only at hreply ⊢
      split
      · rfl
      · rename_i hbounds
        rw [if_neg hbounds] at hreply
        cases hreply
    rw [hsame]
    exact ⟨rfl, h⟩
  | some reply =>
    obtain ⟨-, -, hafter⟩ := injectKeys_ragent hreply
    obtain ⟨hshell, hjammed⟩ := queueWords_jammed (c := c) (textWords payload) h
    obtain ⟨hshell', hjammed'⟩ := queueWords_jammed (c := c) (namedWords payload) hjammed
    rw [hafter]
    exact ⟨hshell'.trans hshell, hjammed'⟩

/-- No request of RAGENT but SEND_KEYS touches the keyboard or the shell. -/
theorem operate_jammed (h : Jammed s.machine) (opcode : UInt8) (payload : Bytes) :
    Stuck s (operate .ragent c s opcode payload).2 := by
  have hsame : Stuck s s := ⟨rfl, h⟩
  have hpair : ∀ {message : String} {r : Reply × State}, Stuck s r.2 → Stuck s (withoutPayload payload message s r).2 := by
    intro message r hr
    unfold withoutPayload
    split
    · exact hsame
    · exact hr
  unfold operate
  split
  · exact hpair hsame
  · exact hpair hsame
  · exact hpair ⟨rfl, h⟩
  · have hkeys := injectKeys_jammed (c := c) h payload
    unfold operateKeys
    rw [if_neg (by simp)]
    generalize injectKeys .ragent c s payload = r at hkeys ⊢
    obtain ⟨reply, r⟩ := r
    cases reply with
    | none => exact hkeys
    | some bytes => exact hkeys
  · split
    · exact hsame
    · exact hsame
  · exact hsame
  · cases TransferOp.ofOpcode opcode with
    | none => exact hsame
    | some op => exact hsame

theorem acceptFragment_jammed (h : Jammed s.machine) (packet : DmPacket) : Stuck s (acceptFragment .ragent c s packet) := by
  obtain ⟨reassembly, workspace, hstored⟩ := storeFragment_session s packet
  have hhost : (s.storeFragment packet).machine = s.machine ∧ (s.storeFragment packet).shell = s.shell := by
    rw [hstored]
    exact ⟨rfl, rfl⟩
  unfold acceptFragment
  cases s.completedRequest packet with
  | none => exact ⟨hhost.2, hhost.1 ▸ h⟩
  | some request =>
    obtain ⟨hmachine, hshell, -⟩ :=
      processRequest_ragent c (s.storeFragment packet) request.opcode request.id request.payload
    have hlogged : Jammed ((s.storeFragment packet).logRequest ⟨request.opcode, request.id, request.payload⟩).machine := hhost.1 ▸ h
    obtain ⟨hsame, hjammed⟩ := operate_jammed (c := c) hlogged request.opcode request.payload
    exact ⟨hshell.trans (hsame.trans hhost.2), by rw [hmachine]; exact hjammed⟩

theorem processSessionPacket_jammed (h : Jammed s.machine) (packet : DmPacket) :
    Stuck s (processSessionPacket .ragent c s packet) := by
  unfold processSessionPacket
  split
  · obtain ⟨next, pending, sent, hresent⟩ := resendCached_session .ragent s
    rw [hresent]
    exact ⟨rfl, h⟩
  split
  · obtain ⟨hmachine, hshell, -⟩ := sendResponse_ragent s dmKindError packet.opcode packet.requestId
      (.array (dmPutU16 4 ++ (messageBytes "replayed request").take 120))
    exact ⟨hshell, hmachine ▸ h⟩
  · exact acceptFragment_jammed h packet

theorem processDatagram_jammed (h : Jammed s.machine) (datagram : Datagram) : Stuck s (processDatagram .ragent c s datagram) := by
  rcases processDatagram_cases .ragent c s datagram with ⟨packet, -, -, -, e⟩ | ⟨packet, -, -, hlength, hcount, e⟩ |
    ⟨-, -, result, opcode, e⟩
  · rw [e]
    have hheard : (s.heard packet).machine = s.machine ∧ (s.heard packet).shell = s.shell := ⟨rfl, rfl⟩
    obtain ⟨hshell, hjammed⟩ := processSessionPacket_jammed (c := c) (hheard.1.symm ▸ h) packet
    exact ⟨hshell.trans hheard.2, hjammed⟩
  · obtain ⟨sent, hhello⟩ := processHello_session c { s with lastProtocolResult := 0, lastOpcode := packet.opcode } hlength hcount
      datagram.peer
    rw [e, hhello]
    exact ⟨rfl, h⟩
  · rw [e]
    exact ⟨rfl, h⟩

theorem turn_jammed {turn : Turn} (h : Jammed (turn.evolve s.machine)) : Stuck s (s.turn c turn) := by
  have hstart : (s.turnStart turn).machine = turn.evolve s.machine ∧ (s.turnStart turn).shell = s.shell := by
    refine ⟨rfl, ?_⟩
    show (s.receive turn.arrival).shell = s.shell
    cases turn.arrival with
    | none => rfl
    | some d =>
      rw [State.receive, arrive]
      split
      · rfl
      · rfl
  have hpolled : Stuck s (s.polled c turn) := by
    unfold State.polled
    split
    · exact ⟨hstart.2, hstart.1 ▸ h⟩
    · rename_i d _
      obtain ⟨hshell, hjammed⟩ := processDatagram_jammed (c := c) (hstart.1.symm ▸ h) d
      exact ⟨hshell.trans hstart.2, hjammed⟩
  rw [turn_eq, processShellKeyboard_jammed hpolled.2]
  exact hpolled

/-- A run in which nobody else takes a key. -/
theorem turns_jammed {turns : List Turn} (hleft : ∀ turn ∈ turns, ∀ m, Jammed m → Jammed (turn.evolve m)) (h : Jammed s.machine) :
    Stuck s (s.turns c turns) := by
  induction turns generalizing s with
  | nil => exact ⟨rfl, h⟩
  | cons turn turns ih =>
    obtain ⟨hshell, hjammed⟩ := turn_jammed (c := c) (hleft turn List.mem_cons_self s.machine h)
    obtain ⟨hshell', hjammed'⟩ := ih (fun turn hturn => hleft turn (List.mem_cons_of_mem _ hturn)) hjammed
    exact ⟨hshell'.trans hshell, hjammed'⟩

/-- A loop of `inject_keys` with a zero word jams an idle keyboard. -/
theorem queueWords_jams (hquiet : ∀ command m, Idle m → Idle (c.system command m)) {words : List UInt16} (hzero : 0 ∈ words)
    (hidle : Idle s.machine) : Jammed (queueWords .ragent c words s).2.machine := by
  induction words generalizing s with
  | nil => cases hzero
  | cons word words ih =>
    rcases hidle.empty.queue word with ⟨-, hfull⟩ | ⟨machine, hqueued, hwaits, hstill⟩
    · cases hfull
    rw [queueWords, hqueued]
    by_cases hword : word = 0
    · have hjammed : Jammed ({ s with machine := machine } : State).machine := ⟨[], hword ▸ hwaits⟩
      dsimp only
      rw [processShellKeyboard_jammed hjammed]
      exact (queueWords_jammed words hjammed).2
    · obtain ⟨-, -, hnext⟩ := processShellKeyboard_key (c := c) (s := { s with machine := machine }) hquiet hword hwaits
        (hstill.trans hidle.released)
      exact ih ((List.mem_cons.mp hzero).resolve_left (Ne.symm hword)) hnext

end

end DosMcp.Dos
