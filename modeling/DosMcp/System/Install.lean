/-
  DosMcp.System.Install — RA-TSR's loader and its resident core agree on the installation.

  `install_handoff`: whatever the loader was told on its command line and in `MTCPCFG`, the core
  that it spawns reads the loader's record back, and of a text in which one digit is another
  character it reads nothing. The loader's checks imply the core's (`configureInstall_checked`);
  the CRC tells the texts apart (`RatsrInstallConfig.Sealed.not_damaged`).
-/

import DosMcp.Dos.Loader
import DosMcp.Dos.MtcpProofs

namespace DosMcp.Dos

open Lib

/-! ## The network -/

theorem parseU16_ne_zero {text : List Char} {value : UInt16} (h : parseU16 text = some value) : value ≠ 0 := by
  unfold parseU16 at h
  split at h
  · cases h
  dsimp only at h
  split at h
  · cases h
  · rename_i hrange
    simp only [not_or, not_not] at hrange
    cases h
    intro hzero
    apply hrange.2.1
    have hle : (strtoul 0 text).1.toNat ≤ 65535 := UInt32.le_iff_toNat_le.mp (UInt32.not_lt.mp hrange.2.2)
    have hvalue := congrArg UInt16.toNat hzero
    rw [UInt32.toNat_toUInt16, Nat.mod_eq_of_lt (by omega)] at hvalue
    exact UInt32.toNat_inj.mp hvalue

theorem parseU8_ne_zero {text : List Char} {value : UInt8} (h : parseU8 text = some value) : value ≠ 0 := by
  unfold parseU8 at h
  cases hword : parseU16 text with
  | none =>
    rw [hword] at h
    cases h
  | some word =>
    rw [hword] at h
    simp only [Option.bind_eq_bind, Option.bind_some] at h
    split at h
    · cases h
    · rename_i hrange
      cases h
      intro hzero
      apply parseU16_ne_zero hword
      have hle : word.toNat ≤ 255 := UInt16.le_iff_toNat_le.mp (UInt16.not_lt.mp hrange)
      have hvalue := congrArg UInt8.toNat hzero
      rw [UInt16.toNat_toUInt8, Nat.mod_eq_of_lt (by omega)] at hvalue
      exact UInt16.toNat_inj.mp hvalue

/-- A packet interrupt that a configuration is found to have is not 0. -/
theorem dmMtcpConfigLoad_interrupt {fopen : List Char → Option TextFile} {path : Option (List Char)} {out : MtcpOutputs}
    {hostnameCapacity : UInt16} (hok : (dmMtcpConfigLoad fopen path out hostnameCapacity).1 = dmMtcpOk)
    (hfound : (dmMtcpConfigLoad fopen path out hostnameCapacity).2.found.getD 0 &&& dmMtcpHavePacketInt ≠ 0) :
    (dmMtcpConfigLoad fopen path out hostnameCapacity).2.packetInterrupt.getD 0 ≠ 0 := by
  rcases dmMtcpConfigLoad_cases fopen path out hostnameCapacity with ⟨result, hresult, e⟩ | ⟨_, _, s, f, -, -, hloop, -, e⟩
  · rw [e] at hok
    exact absurd hok hresult
  · rw [e] at hfound ⊢
    obtain ⟨lines, hlines⟩ := configLoop_fold hloop
    rw [commit_found] at hfound
    rw [commit_packetInterrupt]
    rcases foldlM_last sets_interrupt hlines with ⟨_, interrupt, -, htext, hget⟩ | ⟨-, hget⟩
    · obtain ⟨_, _, _, -, -, -, hne, -⟩ := htext
      rw [hget]
      exact hne
    · exact absurd hget ((reported_packetInterrupt s).mp hfound)

theorem configureMtcp_interrupt {h : LoaderHost} {explicitIp explicitInterrupt useMtcpHostname : Bool} {n n' : Network}
    (hn : n.packetInterrupt ≠ 0) (hnext : configureMtcp h explicitIp explicitInterrupt useMtcpHostname n = some n') :
    n'.packetInterrupt ≠ 0 ∧ n'.port = n.port := by
  unfold configureMtcp at hnext
  split at hnext
  · cases hnext
    exact ⟨hn, rfl⟩
  rename_i configPath _
  split at hnext
  · cases hnext
    exact ⟨hn, rfl⟩
  dsimp only at hnext
  split at hnext
  · cases hnext
  rename_i hok
  split at hnext
  · cases hnext
  split at hnext
  · cases hnext
  rename_i hfound
  cases hnext
  refine ⟨?_, rfl⟩
  cases hexplicit : explicitInterrupt with
  | true => exact hn
  | false => exact dmMtcpConfigLoad_interrupt (not_not.mp hok) fun hnone => hfound ⟨by simp [hexplicit], hnone⟩

/-- The port and the packet interrupt are not 0: neither the defaults nor the others. -/
theorem configureNetwork_ne_zero {h : LoaderHost} {argv : List CText} {n n' : Network} {useMtcpHostname : Bool}
    (hport : n.port ≠ 0) (hinterrupt : n.packetInterrupt ≠ 0) (hnext : configureNetwork h argv n useMtcpHostname = some n') :
    n'.port ≠ 0 ∧ n'.packetInterrupt ≠ 0 := by
  unfold configureNetwork at hnext
  simp only [Option.bind_eq_bind, Option.bind_eq_some_iff] at hnext
  obtain ⟨m, hmtcp, ip, -, port, hportText, interrupt, hinterruptText, hnew⟩ := hnext
  cases hnew
  obtain ⟨hm, hsame⟩ := configureMtcp_interrupt hinterrupt hmtcp
  constructor
  · cases hexplicit : explicitArg argv 3 with
    | none =>
      rw [hexplicit] at hportText
      cases hportText
      rwa [hsame]
    | some text =>
      rw [hexplicit] at hportText
      exact parseU16_ne_zero hportText
  · cases hexplicit : explicitArg argv 4 with
    | none =>
      rw [hexplicit] at hinterruptText
      cases hinterruptText
      exact hm
    | some text =>
      rw [hexplicit] at hinterruptText
      exact parseU8_ne_zero hinterruptText

/-! ## The root and the name -/

/-- The C string of `length` bytes at the front of an array. -/
structure Terminated {n : Nat} (b : Block n) (length : Nat) : Prop where
  ne_zero : ∀ i < length, byteAt b.val i ≠ 0
  nul : byteAt b.val length = 0

theorem terminated_put {n : Nat} {b : Block n} {text : Bytes} (h : text.length < n) (htext : ∀ x ∈ text, x ≠ 0) :
    Terminated (b.put (text ++ [0])) text.length ∧ ∀ i < text.length, byteAt (b.put (text ++ [0])).val i ∈ text := by
  have hfits : (text ++ [0]).length ≤ n := by rw [List.length_append]; exact h
  have hget : ∀ i < text.length, byteAt (b.put (text ++ [0])).val i ∈ text := by
    intro i hi
    rw [Block.byteAt_put hfits, if_pos (by rw [List.length_append]; omega), byteAt, List.getD_eq_getElem?_getD,
      List.getElem?_append_left hi, List.getElem?_eq_getElem hi]
    exact List.getElem_mem hi
  refine ⟨⟨fun i hi => htext _ (hget i hi), ?_⟩, hget⟩
  rw [Block.byteAt_put hfits, if_pos (by simp), byteAt, List.getD_eq_getElem?_getD, List.getElem?_append_right (Nat.le_refl _),
    Nat.sub_self]
  rfl

/-- What `stripRoot` leaves of a root ends at the new length. -/
theorem stripRoot_terminated {length : Nat} {root : Block 128} (h : Terminated root length) (hlength : length ≤ 127) :
    Terminated (stripRoot length root).2 (stripRoot length root).1 ∧ (stripRoot length root).1 ≤ length ∧
      (length ≠ 0 → (stripRoot length root).1 ≠ 0) := by
  induction length generalizing root with
  | zero => exact ⟨h, Nat.le_refl _, fun hne => hne⟩
  | succ length ih =>
    rw [stripRoot]
    split
    · rename_i hcut
      have hset : Terminated (root.set length 0) length := by
        constructor
        · intro i hi
          rw [Block.byteAt_set (by omega), if_neg (by omega)]
          exact h.ne_zero i (by omega)
        · rw [Block.byteAt_set (by omega), if_pos rfl]
      obtain ⟨hterminated, hle, hne⟩ := ih hset (by omega)
      exact ⟨hterminated, by omega, fun _ => hne (by omega)⟩
    · exact ⟨h, Nat.le_refl _, fun hne => hne⟩

theorem textBytes_ne_zero {text : List Char} (h : ∀ c ∈ text, 0 < c.toNat ∧ c.toNat < 256) : ∀ x ∈ textBytes text, x ≠ 0 := by
  intro x hx
  obtain ⟨c, hc, rfl⟩ := List.mem_map.mp hx
  obtain ⟨hpos, hlt⟩ := h c hc
  intro hzero
  have hvalue := congrArg UInt8.toNat hzero
  rw [UInt8.toNat_ofNat_of_lt' hlt] at hvalue
  exact absurd hvalue (by rw [UInt8.toNat_zero]; omega)

theorem accessFlags_cases (access : List Char) :
    accessFlags access = 0 ∨ accessFlags access = 1 ∨ accessFlags access = 2 ∨ accessFlags access = 3 := by
  unfold accessFlags
  split <;> split
  · exact Or.inr (Or.inr (Or.inr rfl))
  · exact Or.inr (Or.inl rfl)
  · exact Or.inr (Or.inr (Or.inl rfl))
  · exact Or.inl rfl

theorem installFlags_known (access : List Char) (root : Bytes) (openMode : Bool) :
    (0 ||| accessFlags access ||| allDrivesFlag root ||| openModeFlag openMode) &&&
      ~~~(ratsrInstallRead ||| ratsrInstallWrite ||| ratsrInstallAllDrives ||| ratsrInstallOpenMode) = 0 := by
  have hall : allDrivesFlag root = 0 ∨ allDrivesFlag root = 4 := by
    unfold allDrivesFlag
    split
    · exact Or.inr rfl
    · exact Or.inl rfl
  have hopen : openModeFlag openMode = 0 ∨ openModeFlag openMode = 8 := by
    cases openMode
    · exact Or.inl rfl
    · exact Or.inr rfl
  rcases accessFlags_cases access with e | e | e | e <;> rcases hall with e' | e' <;> rcases hopen with e'' | e'' <;>
    rw [e, e', e''] <;> rfl

/-- What `configure_install` has accepted, `load_install_config` accepts. -/
theorem fillInstall_checked {h : LoaderHost} {root name : Bytes} {access : List Char} {openMode : Bool} {c c' : RatsrInstallConfig}
    (hroot : ∀ x ∈ root, x ≠ 0) (hflags : c.flags = 0) (hport : c.port ≠ 0) (hinterrupt : c.packetInterrupt ≠ 0)
    (hnext : fillInstall h root access name openMode c = some c') : c'.finish.checked := by
  unfold fillInstall at hnext
  split at hnext
  · cases hnext
  rename_i current _
  split at hnext
  · cases hnext
  rename_i hlength
  split at hnext
  · cases hnext
  rename_i hname
  dsimp only at hnext
  split at hnext
  · cases hnext
  split at hnext
  · cases hnext
  cases hnext
  simp only [not_or, ratsrPathMax, ratsrNameMax] at hlength
  have hvisible : ∀ value ∈ name, 33 ≤ value ∧ value ≤ 126 := by
    intro value hvalue
    have hrange := fun hbad => hname ⟨value, hvalue, hbad⟩
    exact ⟨UInt8.not_lt.mp fun hlt => hrange (Or.inl hlt), UInt8.not_lt.mp fun hgt => hrange (Or.inr hgt)⟩
  have hnameZero : ∀ value ∈ name, value ≠ 0 := by
    rintro value hvalue rfl
    exact absurd (hvisible 0 hvalue).1 (by decide)
  obtain ⟨hrootPut, -⟩ := terminated_put (b := c.root) (by omega) hroot
  obtain ⟨hrootEnds, hrootLe, hrootNe⟩ := stripRoot_terminated hrootPut (by omega)
  obtain ⟨hnameEnds, hnameMem⟩ := terminated_put (b := c.name) (by omega) hnameZero
  have hrootByte : (UInt8.ofNat (stripRoot root.length (c.root.put (root ++ [0]))).1).toNat =
      (stripRoot root.length (c.root.put (root ++ [0]))).1 := UInt8.toNat_ofNat_of_lt' (by rw [UInt8.size]; omega)
  have hnameByte : (UInt8.ofNat name.length).toNat = name.length := UInt8.toNat_ofNat_of_lt' (by rw [UInt8.size]; omega)
  simp only [RatsrInstallConfig.checked, RatsrInstallConfig.finish, RatsrInstallConfig.headed, decide_eq_true_eq, ratsrPathMax, ratsrNameMax, hrootByte,
    hnameByte]
  refine ⟨trivial, trivial, rfl, hport, hinterrupt, ?_, by omega, ?_, by omega, hrootEnds.nul, hnameEnds.nul, ?_, hrootEnds.ne_zero, ?_⟩
  · intro hzero
    rw [hzero] at hrootByte
    exact hrootNe (by omega) hrootByte.symm
  · intro hzero
    rw [hzero] at hnameByte
    exact hlength.2.2.1 hnameByte.symm
  · rw [hflags]
    exact installFlags_known access root openMode
  · exact fun index hindex => hvisible _ (hnameMem index hindex)

theorem installRoot_ne_zero (argv : List CText) : ∀ x ∈ textBytes (installRoot argv), x ≠ 0 := by
  unfold installRoot
  cases argv[5]? with
  | none => exact textBytes_ne_zero (cText_bytes (by decide))
  | some root => exact textBytes_ne_zero root.property

/-! ## The handoff -/

theorem finish_sealed (c : RatsrInstallConfig) : c.finish.Sealed := by
  have hzero : { c.finish with crc16 := 0 } = c.headed := rfl
  rw [RatsrInstallConfig.Sealed, hzero, RatsrInstallConfig.finish]

theorem loaderMain_spawn {h : LoaderHost} {argv : List CText} {call : SpawnCall} (hspawn : loaderMain h argv = .spawn call) :
    call.environment = [encodeInstallEnvironment call.installConfig] ∧ call.installConfig.checked ∧ call.installConfig.Sealed := by
  unfold loaderMain at hspawn
  split at hspawn
  · cases hspawn
  split at hspawn
  · cases hspawn
  split at hspawn
  · cases hspawn
  split at hspawn
  · cases hspawn
  dsimp only at hspawn
  split at hspawn
  · cases hspawn
  rename_i n hnetwork
  split at hspawn
  · cases hspawn
  rename_i c hinstall
  split at hspawn
  · cases hspawn
  cases hspawn
  obtain ⟨hport, hinterrupt⟩ := configureNetwork_ne_zero (by decide) (by decide) hnetwork
  exact ⟨rfl, fillInstall_checked (installRoot_ne_zero argv) rfl hport hinterrupt hinstall, finish_sealed c⟩

theorem textString_eq_self {text : List Char} (h : (textString text).length = text.length) : textString text = text :=
  (List.takeWhile_sublist _).eq_of_length h

theorem getenv_installEnv (digits : List Char) : getenv [installEnv ++ digits] "RATSR_CONFIG".toList = some (textString digits) := by
  have hprefix : ("RATSR_CONFIG".toList ++ ['=']).isPrefixOf (installEnv ++ digits) = true :=
    List.isPrefixOf_iff_prefix.mpr (List.prefix_append _ _)
  have hdrop : (installEnv ++ digits).drop ("RATSR_CONFIG".toList.length + 1) = digits := List.drop_left' rfl
  rw [getenv, List.findSome?_cons, if_pos hprefix, hdrop]

theorem hexText_notMem (bs : Bytes) : '\x00' ∉ hexText bs := by
  intro hmem
  obtain ⟨b, -, hb⟩ := List.mem_flatMap.mp hmem
  have hdigit : ∀ k < 16, installDigits.getD k '0' ≠ '\x00' := by decide
  obtain ⟨hhigh, hlow, -⟩ := nibbles_of_byte b
  simp only [List.mem_cons, List.not_mem_nil, or_false] at hb
  rcases hb with hb | hb
  · exact hdigit _ hhigh hb.symm
  · exact hdigit _ hlow hb.symm

/-- The core reads what the loader wrote, and nothing where one digit of it is another
    character. -/
theorem install_handoff {h : LoaderHost} {argv : List CText} {call : SpawnCall} (hspawn : loaderMain h argv = .spawn call) :
    loadInstallConfig call.environment = some call.installConfig ∧
      ∃ digits, call.environment = [installEnv ++ digits] ∧ digits.length = 388 ∧
        ∀ i < digits.length, ∀ c : Char, digits[i]? ≠ some c → loadInstallConfig [installEnv ++ digits.set i c] = none := by
  obtain ⟨henvironment, hchecked, hsealed⟩ := loaderMain_spawn hspawn
  rw [henvironment, encodeInstallEnvironment]
  refine ⟨?_, hexText call.installConfig.image.val, rfl, ?_, ?_⟩
  · rw [loadInstallConfig_eq_some, getenv_installEnv, textString_of_notMem (hexText_notMem _)]
    exact ⟨rfl, hchecked, hsealed⟩
  · rw [hexText_length, call.installConfig.image.property]
    rfl
  · intro i hi c hne
    cases hload : loadInstallConfig [installEnv ++ (hexText call.installConfig.image.val).set i c] with
    | none => rfl
    | some other =>
      obtain ⟨hvalue, -, hother⟩ := loadInstallConfig_eq_some.mp hload
      rw [getenv_installEnv] at hvalue
      -- a NUL makes the value shorter than any that is accepted
      have hlength : (textString ((hexText call.installConfig.image.val).set i c)).length =
          ((hexText call.installConfig.image.val).set i c).length := by
        rw [Option.some.inj hvalue, List.length_set, hexText_length, hexText_length, call.installConfig.image.property,
          other.image.property]
      rw [textString_eq_self hlength] at hvalue
      have hdamaged := damaged_set hi hne
      rw [Option.some.inj hvalue] at hdamaged
      exact absurd (damaged_of_hexText hdamaged) (hsealed.not_damaged hother _)

def LoaderOutcome.call? : LoaderOutcome → Option SpawnCall
  | .spawn call => some call
  | _ => none

theorem LoaderOutcome.eq_spawn {o : LoaderOutcome} {call : SpawnCall} (h : o.call? = some call) : o = .spawn call := by
  cases o with
  | spawn other =>
    cases h
    rfl
  | uninstall => cases h
  | status => cases h
  | exit code => cases h

/-- A root with a separator at its end, the rest from the mTCP configuration. -/
theorem install_handoff_mtcp :
    let h : LoaderHost :=
      { resident := false, environment := ["MTCPCFG=M".toList], getcwd := some [0x43], chdir := fun _ _ => true
        fopen := fun _ => some { text := "HOSTNAME lab\nPACKETINT 0x61\nIPADDR 10.0.0.5\n".toList } }
    let argv : List CText :=
      [cText "A:\\RA-TSR.EXE".toList (by decide), cText "key:000102030405060708090A0B0C0D0E0F".toList (by decide),
        cText ['-'] (by decide), cText ['-'] (by decide), cText ['-'] (by decide), cText "C:\\R\\".toList (by decide),
        cText "RW".toList (by decide), cText ['-'] (by decide)]
    ∃ call, loaderMain h argv = .spawn call ∧ call.path = "A:\\RA-RES.EXE".toList ∧ call.installConfig.rootLength = 4 ∧
      call.installConfig.nameLength = 3 ∧ call.installConfig.packetInterrupt = 0x61 ∧ call.installConfig.flags = 3 ∧
      loadInstallConfig call.environment = some call.installConfig ∧
      ∃ digits, call.environment = [installEnv ++ digits] ∧ digits.length = 388 ∧
        ∀ i < digits.length, ∀ c : Char, digits[i]? ≠ some c → loadInstallConfig [installEnv ++ digits.set i c] = none := by
  intro h argv
  have hfields : ((loaderMain h argv).call?.map fun call =>
      (call.path, call.installConfig.rootLength, call.installConfig.nameLength, call.installConfig.packetInterrupt,
        call.installConfig.flags)) = some ("A:\\RA-RES.EXE".toList, 4, 3, 0x61, 3) := by decide +kernel
  obtain ⟨call, hcall, hvalues⟩ := Option.map_eq_some_iff.mp hfields
  simp only [Prod.mk.injEq] at hvalues
  obtain ⟨hpath, hroot, hname, hinterrupt, hflags⟩ := hvalues
  have hspawn := LoaderOutcome.eq_spawn hcall
  exact ⟨call, hspawn, hpath, hroot, hname, hinterrupt, hflags, install_handoff hspawn⟩

end DosMcp.Dos
