/-
  DosMcp.Dos.Loader — `ratsr_loader.c` up to the `spawnve` of the resident core.

  `loaderMain` is `main`: it leaves through one of its exits or spawns the core with the
  record that `configure_install` has filled. What the loader asks of DOS is a `LoaderHost`.
-/

import DosMcp.Dos.Install
import DosMcp.Dos.Transfer

namespace DosMcp.Dos

open Lib

/-- A C string: no NUL, and a byte for each character. -/
abbrev CText := { text : List Char // ∀ c ∈ text, 0 < c.toNat ∧ c.toNat < 256 }

theorem cText_bytes {text : List Char} (h : (text.all fun c => 0 < c.toNat && c.toNat < 256) = true) :
    ∀ c ∈ text, 0 < c.toNat ∧ c.toNat < 256 := by
  simpa using h

def cText (text : List Char) (h : (text.all fun c => 0 < c.toNat && c.toNat < 256) = true) : CText := ⟨text, cText_bytes h⟩

structure LoaderHost where
  /-- `resident_present`. -/
  resident : Bool
  environment : List (List Char)
  fopen : List Char → Option TextFile
  /-- The current directory, if its name fits. -/
  getcwd : Option Bytes
  /-- Whether the call of that number succeeds. -/
  chdir : Nat → Bytes → Bool

def agentPort : UInt16 := 21300

/-! ## Arguments -/

/-- One `%u` of `sscanf`, for an `unsigned` of 16 bits. -/
def scanUnsigned (text : List Char) : Option (UInt16 × List Char) :=
  let (negative, digits) := readSign (text.dropWhile isSpace)
  if (digits.head?.bind (digit? 10)).isNone then none
  else
    let (value, tail) := readNumber 10 0 digits
    some (if negative then 0 - UInt16.ofNat value else UInt16.ofNat value, tail)

def scanDot (text : List Char) : Option (List Char) := if text.head? = some '.' then some text.tail else none

/-- `sscanf` assigns four numbers and finds no character after them. -/
def parseIp (text : List Char) : Option Bytes := do
  let (value0, text) ← scanUnsigned text
  let text ← scanDot text
  let (value1, text) ← scanUnsigned text
  let text ← scanDot text
  let (value2, text) ← scanUnsigned text
  let text ← scanDot text
  let (value3, text) ← scanUnsigned text
  if text ≠ [] ∨ value0 > 255 ∨ value1 > 255 ∨ value2 > 255 ∨ value3 > 255 then none
  else some [value0.toUInt8, value1.toUInt8, value2.toUInt8, value3.toUInt8]

def parseU16 (text : List Char) : Option UInt16 :=
  if text = [] ∨ text.head? = some '-' then none
  else
    let (value, tail) := strtoul 0 text
    if tail ≠ [] ∨ value = 0 ∨ value > 65535 then none else some value.toUInt16

def parseU8 (text : List Char) : Option UInt8 := do
  let value ← parseU16 text
  if value > 255 then none else some value.toUInt8

/-- `argc > i && strcmp(argv[i], "-") != 0`, with the argument. -/
def explicitArg (argv : List CText) (i : Nat) : Option (List Char) := (argv[i]?.map (·.val)).filter (· ≠ ['-'])

/-! ## `configure_network` -/

structure Network where
  ip : Bytes
  port : UInt16
  packetInterrupt : UInt8
  mtcpHostname : List Char

/-- What `MTCPCFG` says, where it is asked. -/
def configureMtcp (h : LoaderHost) (explicitIp explicitInterrupt useMtcpHostname : Bool) (n : Network) : Option Network :=
  match getenv h.environment "MTCPCFG".toList with
  | none => some n
  | some configPath =>
    if configPath = [] ∨ (explicitIp ∧ explicitInterrupt ∧ ¬ useMtcpHostname) then some n
    else
      let configured : MtcpOutputs :=
        { ip := some [0, 0, 0, 0], packetInterrupt := some 0, hostname := some (List.replicate 32 '\x00'), found := some 0 }
      let (result, configured) := dmMtcpConfigLoad h.fopen (some configPath) configured 32
      let found := configured.found.getD 0
      if result ≠ dmMtcpOk then none
      else if ¬ explicitIp ∧ found &&& dmMtcpHaveIp = 0 then none
      else if ¬ explicitInterrupt ∧ found &&& dmMtcpHavePacketInt = 0 then none
      else
        some { n with
          ip := if explicitIp then n.ip else configured.ip.getD []
          packetInterrupt := if explicitInterrupt then n.packetInterrupt else configured.packetInterrupt.getD 0
          mtcpHostname :=
            if useMtcpHostname ∧ found &&& dmMtcpHaveHostname ≠ 0 then textString (configured.hostname.getD []) else n.mtcpHostname }

/-- An explicit argument replaces the value there is. -/
def parsedOr {α : Type} (parse : List Char → Option α) (value : α) : Option (List Char) → Option α
  | none => some value
  | some text => parse text

def configureNetwork (h : LoaderHost) (argv : List CText) (n : Network) (useMtcpHostname : Bool) : Option Network := do
  let explicitIp := explicitArg argv 2
  let explicitInterrupt := explicitArg argv 4
  let n ← configureMtcp h explicitIp.isSome explicitInterrupt.isSome useMtcpHostname n
  let ip ← parsedOr parseIp n.ip explicitIp
  let port ← parsedOr parseU16 n.port (explicitArg argv 3)
  let packetInterrupt ← parsedOr parseU8 n.packetInterrupt explicitInterrupt
  some { n with ip, port, packetInterrupt }

/-! ## `configure_install` -/

/-- Separators at the end of a root are zeroed, down to a length of 3. -/
def stripRoot : Nat → Block 128 → Nat × Block 128
  | 0, root => (0, root)
  | length + 1, root =>
    if length + 1 > 3 ∧ isSeparator (byteAt root.val length) then stripRoot length (root.set length 0)
    else (length + 1, root)

def accessFlags (access : List Char) : UInt8 :=
  (if 'R' ∈ access ∨ 'r' ∈ access then ratsrInstallRead else 0) ||| (if 'W' ∈ access ∨ 'w' ∈ access then ratsrInstallWrite else 0)

def allDrivesFlag (root : Bytes) : UInt8 := if stricmpEqual root (textBytes "ALL".toList) then ratsrInstallAllDrives else 0

def openModeFlag (openMode : Bool) : UInt8 := if openMode then ratsrInstallOpenMode else 0

/-- `configure_install` for its three arguments. -/
def fillInstall (h : LoaderHost) (root : Bytes) (access : List Char) (name : Bytes) (openMode : Bool) (c : RatsrInstallConfig) :
    Option RatsrInstallConfig :=
  match h.getcwd with
  | none => none
  | some current =>
    if root.length = 0 ∨ root.length > ratsrPathMax ∨ name.length = 0 ∨ name.length > ratsrNameMax then none
    else if ∃ value ∈ name, value < 33 ∨ value > 126 then none
    else
      let (length, installRoot) := stripRoot root.length (c.root.put (root ++ [0]))
      let flags := c.flags ||| accessFlags access
      if access ≠ "-".toList ∧ flags &&& (ratsrInstallRead ||| ratsrInstallWrite) = 0 then none
      else
        let flags := flags ||| allDrivesFlag root ||| openModeFlag openMode
        if flags &&& ratsrInstallAllDrives = 0 ∧ flags &&& (ratsrInstallRead ||| ratsrInstallWrite) ≠ 0 ∧
            ¬ (h.chdir 0 (cString installRoot.val) ∧ h.chdir 1 current) then none
        else
          some { c with
            flags, rootLength := UInt8.ofNat length, nameLength := UInt8.ofNat name.length
            root := installRoot, name := c.name.put (name ++ [0]) }

def installRoot (argv : List CText) : List Char := (argv[5]?.map (·.val)).getD "C:\\RATSR".toList

def installAccess (argv : List CText) : List Char := (argv[6]?.map (·.val)).getD "-".toList

def installName (argv : List CText) (mtcpHostname : List Char) : List Char :=
  (explicitArg argv 7).getD (if mtcpHostname ≠ [] then mtcpHostname else "DOS-PC".toList)

def configureInstall (h : LoaderHost) (argv : List CText) (mtcpHostname : List Char) (openMode : Bool) (c : RatsrInstallConfig) :
    Option RatsrInstallConfig :=
  fillInstall h (textBytes (installRoot argv)) (installAccess argv) (textBytes (installName argv mtcpHostname)) openMode c

/-! ## `main` -/

/-- The place of the last `c`. -/
def strrchr (text : List Char) (c : Char) : Option Nat := (text.reverse.findIdx? (· = c)).map (text.length - 1 - ·)

/-- `if (!separator || (other && other > separator)) separator = other;`. -/
def laterSeparator (separator other : Option Nat) : Option Nat := match separator, other with
  | none, other => other
  | some separator, none => some separator
  | some separator, some other => if other > separator then some other else some separator

def corePath (loaderPath : List Char) (capacity : Nat) : Option (List Char) :=
  let separator := laterSeparator (laterSeparator (strrchr loaderPath '\\') (strrchr loaderPath '/')) (strrchr loaderPath ':')
  let before := match separator with
    | none => 0
    | some separator => separator + 1
  if before + ("RA-RES.EXE".length + 1) > capacity then none else some (loaderPath.take before ++ "RA-RES.EXE".toList)

structure SpawnCall where
  path : List Char
  argv : List (List Char)
  environment : List (List Char)
  /-- The loader's own record at the call. -/
  installConfig : RatsrInstallConfig
  deriving DecidableEq

inductive LoaderOutcome where
  | uninstall
  | status
  | exit (code : Nat)
  | spawn (call : SpawnCall)
  deriving DecidableEq

/-- The fields that `main` fills itself, up to the CRC. -/
def RatsrInstallConfig.headed (c : RatsrInstallConfig) : RatsrInstallConfig :=
  { c with magic := ratsrInstallMagic, version := ratsrInstallVersion, size := UInt16.ofNat ratsrInstallSize, crc16 := 0 }

def RatsrInstallConfig.finish (c : RatsrInstallConfig) : RatsrInstallConfig :=
  { c.headed with crc16 := dmCrc16Ccitt c.headed.image.val }

def loaderMain (h : LoaderHost) (argv : List CText) : LoaderOutcome :=
  if argv.length = 2 ∧ argv[1]?.any fun arg => stricmpEqual (textBytes arg.val) (textBytes "/U".toList) then .uninstall
  else if h.resident then .status
  else if argv.length > 8 then .exit 1
  else match parseCredential (argv[1]?.map (·.val)) with
    | none => .exit 3
    | some (key, openMode) =>
      let c := RatsrInstallConfig.zero
      let c := { c with key := c.key.put key }
      match configureNetwork h argv { ip := [10, 0, 2, 15], port := agentPort, packetInterrupt := 0x60, mtcpHostname := [] }
          (explicitArg argv 7).isNone with
      | none => .exit 5
      | some n =>
        let c := { c with ip := c.ip.put n.ip, port := n.port, packetInterrupt := n.packetInterrupt }
        match configureInstall h argv n.mtcpHostname openMode c with
        | none => .exit 5
        | some c => match corePath ((argv[0]?.map (·.val)).getD []) 128 with
          | none => .exit 6
          | some residentPath =>
            let c := c.finish
            .spawn
              { path := residentPath, argv := ["RA-RES".toList], environment := [encodeInstallEnvironment c], installConfig := c }

end DosMcp.Dos
