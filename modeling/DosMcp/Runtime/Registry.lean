/-
  DosMcp.Runtime.Registry — `runtime.py`: the targets of the stdio server and how a selector
  is resolved.

  `Host` is what the process gets from outside its own code: the environment, the library
  functions whose results are not spelled out here (`json.loads`, `int`, `str.casefold`,
  `repr`, SHA-256) and the calls that open a socket or a terminal. `BackendRuntime` is changed
  step by step (`RuntimeM`): what `_configure` has stored when it raises stays stored.
-/

import DosMcp.Lib.Dict
import DosMcp.Lib.Fallible
import DosMcp.Runtime.Discovery

namespace DosMcp

open Lib

/-- What `json.loads` returns, as far as `_add_static_targets` looks into it. -/
inductive Json where
  | object (items : List (String × Json))
  | string (value : String)
  | other

structure Host where
  environ : String → Option String
  /-- `json.loads`, where it does not raise `JSONDecodeError`. -/
  jsonLoads : String → Option Json
  /-- `int(text)`, where it does not raise `ValueError`. -/
  int : String → Option Int
  casefold : String → String
  repr : String → String
  sha256 : Bytes → Bytes
  sha256_length : ∀ data, (sha256 data).length = 32
  /-- `os.getcwd()`. -/
  getcwd : Except Exc String
  /-- The socket calls of `DiscoveryListener`. -/
  bindListener : Nat → Except Exc Unit
  /-- `LinuxTerminalBackend(root, shell)`. -/
  openTerminal : String → String → Except Exc Unit

/-- A backend as the runtime made it. -/
inductive BackendHandle where
  | injected
  | udp (target : Address) (key : Key) (allowFileRead allowFileWrite : Bool)
  | terminal (root shell : String) (allowFileRead allowFileWrite : Bool)

inductive TargetSource where
  | injected
  | static
  | discovery
  | linux
  deriving DecidableEq, Repr

/-- The fields of an advertisement that `list_targets` shows. -/
structure TargetMetadata where
  agentId : String
  protocolVersion : Nat
  openMode : Bool
  capabilities : Nat
  deriving DecidableEq, Repr

/-- `_TargetRecord`. -/
structure TargetRecord where
  selector : String
  name : String
  source : TargetSource
  address : Option Address
  backend : Option BackendHandle
  metadata : Option TargetMetadata
  lastSeen : Option Nat

structure BackendRuntime where
  records : Dict String TargetRecord
  configured : Bool
  key : Option Key
  allowFileRead : Bool
  allowFileWrite : Bool
  /-- The discovery listener is open. -/
  discovery : Bool

/-- `BackendRuntime()`. -/
def BackendRuntime.start : BackendRuntime := ⟨[], false, none, false, false, false⟩

/-- `BackendRuntime(backend)`. -/
def BackendRuntime.withBackend : BackendRuntime :=
  { BackendRuntime.start with
    records := [("default", ⟨"default", "default", .injected, none, some .injected, none, none⟩)], configured := true }

abbrev RuntimeM := Fallible BackendRuntime Exc

/-! ## Configuration -/

def enabled (h : Host) (name : String) : Except Exc Bool :=
  let value := (h.environ name).getD ""
  if value = "" ∨ value = "0" ∨ value = "1" then .ok (value = "1")
  else .error (.runtimeError (name ++ " must be 0 or 1"))

def hexValue? (c : Char) : Option Nat :=
  if '0' ≤ c ∧ c ≤ '9' then some (c.toNat - 0x30)
  else if 'a' ≤ c ∧ c ≤ 'f' then some (c.toNat - 0x61 + 10)
  else if 'A' ≤ c ∧ c ≤ 'F' then some (c.toNat - 0x41 + 10)
  else none

/-- `bytes.fromhex` of digits. -/
def fromHex : List Nat → Bytes
  | high :: low :: rest => UInt8.ofNat (16 * high + low) :: fromHex rest
  | _ => []

def invalidKey : Exc := .valueError "protocol key must be exactly 32 hexadecimal characters"

theorem fromHex_length (ds : List Nat) : (fromHex ds).length = ds.length / 2 := by
  induction ds using fromHex.induct with
  | case1 high low rest ih =>
    simp only [fromHex, List.length_cons, ih]
    omega
  | case2 ds h =>
    match ds, h with
    | [], _ => simp [fromHex]
    | [_], _ => simp [fromHex]
    | a :: b :: rest, h => exact absurd rfl (h a b rest)

def parseKey (value : String) : Except Exc Key :=
  let digits := value.toList.filterMap hexValue?
  if hlen : value.toList.length = 32 ∧ digits.length = 32 then
    let key : Key := ⟨fromHex digits, by rw [fromHex_length, hlen.2]⟩
    if key.bytes.all (· = 0) then .error (.valueError "protocol key must not be all zeroes") else .ok key
  else .error invalidKey

def asciiBytes (text : String) : Bytes := text.toList.map fun c => UInt8.ofNat c.toNat

def passwordDomain : Bytes := asciiBytes "DOS-MCP credential v1" ++ [0]

def openModeDomain : Bytes := asciiBytes "DOS-MCP open mode v1" ++ [0]

/-- The first 16 bytes of a digest. -/
def Host.digestKey (h : Host) (data : Bytes) : Key := ⟨(h.sha256 data).take 16, by simp [h.sha256_length]⟩

def derivePasswordKey (h : Host) (password : String) : Except Exc Key :=
  if password = "" then .error (.valueError "protocol password must not be empty")
  else .ok (h.digestKey (passwordDomain ++ password.toUTF8.toList))

def credentialKey (h : Host) : Except Exc Key :=
  match h.environ "DOS_MCP_KEY", h.environ "DOS_MCP_PASSWORD" with
  | some _, some _ => .error (.runtimeError "set only one of DOS_MCP_KEY and DOS_MCP_PASSWORD")
  | some value, none => parseKey value
  | none, some password => derivePasswordKey h password
  | none, none => .ok (h.digestKey openModeDomain)

/-- The parts around the last separator. -/
def rpartition (separator : Char) : List Char → Option (List Char × List Char)
  | [] => none
  | c :: cs => match rpartition separator cs with
    | some (before, after) => some (c :: before, after)
    | none => if c = separator then some ([], cs) else none

def invalidInt (h : Host) (text : String) : Exc :=
  .valueError ("invalid literal for int() with base 10: " ++ h.repr text)

def parsePort (h : Host) (rawPort : String) : Except Exc Nat :=
  match h.int rawPort with
  | none => .error (invalidInt h rawPort)
  | some port => if 1 ≤ port ∧ port ≤ 0xFFFF then .ok port.toNat else .error (.runtimeError "target port is outside 1-65535")

def defaultPort : Nat := 21300

def parseEndpoint (h : Host) (value : String) : Except Exc Address :=
  let (host, rawPort) := match rpartition ':' value.toList with
    | some (before, after) => (String.ofList before, String.ofList after)
    | none => (value, toString defaultPort)
  if host = "" then .error (.runtimeError "target host must not be empty")
  else (parsePort h rawPort).map fun port => (host, port)

def addStatic (h : Host) (name endpoint : String) : RuntimeM Unit := do
  let address ← Fallible.lift (parseEndpoint h endpoint)
  Fallible.modify fun r => { r with records := r.records.set name ⟨name, name, .static, some address, none, none, none⟩ }

/-- One entry of `DOS_MCP_TARGETS`. -/
def addStaticTarget (h : Host) (name : String) (endpoint : Json) : RuntimeM Unit :=
  match endpoint with
  | .string text => do
    if name = "" then Fallible.raise (.runtimeError "DOS_MCP_TARGETS maps names to host:port strings")
    let r ← Fallible.state
    if r.records.has name then Fallible.raise (.runtimeError ("duplicate target selector " ++ h.repr name))
    addStatic h name text
  | _ => Fallible.raise (.runtimeError "DOS_MCP_TARGETS maps names to host:port strings")

def addItems (h : Host) : List (String × Json) → RuntimeM Unit
  | [] => pure ()
  | (name, endpoint) :: items => do
    addStaticTarget h name endpoint
    addItems h items

def addStaticTargets (h : Host) (value : String) : RuntimeM Unit :=
  match h.jsonLoads value with
  | none => Fallible.raise (.runtimeError "DOS_MCP_TARGETS must be a JSON object")
  | some (.object items) =>
    if items.isEmpty then Fallible.raise (.runtimeError "DOS_MCP_TARGETS must be a nonempty JSON object") else addItems h items
  | some _ => Fallible.raise (.runtimeError "DOS_MCP_TARGETS must be a nonempty JSON object")

/-- A variable that is set and not empty. -/
def Host.given (h : Host) (name : String) : Option String := (h.environ name).filter (· ≠ "")

def openDiscovery (h : Host) : RuntimeM Unit := do
  let port ← Fallible.lift (match h.environ "DOS_MCP_DISCOVERY_PORT" with
    | none => .ok (discoveryPort : Int)
    | some text => match h.int text with
      | none => .error (invalidInt h text)
      | some port => .ok port)
  if ¬ (1 ≤ port ∧ port ≤ 0xFFFF) then Fallible.raise (.valueError "discovery port is outside 1-65535")
  Fallible.lift (h.bindListener port.toNat)
  Fallible.modify fun r => { r with discovery := true }

def addTerminal (h : Host) : RuntimeM Unit := do
  let cwd ← Fallible.lift h.getcwd
  let root := (h.environ "DOS_MCP_ROOT").getD cwd
  let shell := (h.environ "DOS_MCP_SHELL").getD "/bin/sh"
  Fallible.lift (h.openTerminal root shell)
  Fallible.modify fun r =>
    { r with records := r.records.set "local"
               ⟨"local", "local", .linux, none, some (.terminal root shell r.allowFileRead r.allowFileWrite), none, none⟩ }

/-- `if single: self._add_static("dos", single)`. -/
def addSingle (h : Host) : Option String → RuntimeM Unit
  | some endpoint => addStatic h "dos" endpoint
  | none => pure ()

/-- `if multiple: self._add_static_targets(multiple)`. -/
def addMultiple (h : Host) : Option String → RuntimeM Unit
  | some value => addStaticTargets h value
  | none => pure ()

/-- The targets of the environment: one, several, discovered ones. -/
def addTargets (h : Host) (single multiple : Option String) (discovery : Bool) : RuntimeM Unit := do
  let key ← Fallible.lift (credentialKey h)
  Fallible.modify fun r => { r with key := some key }
  addSingle h single
  addMultiple h multiple
  if discovery then openDiscovery h else pure ()

def readEnvironment (h : Host) : RuntimeM Unit := do
  let read ← Fallible.lift (enabled h "DOS_MCP_ALLOW_FILE_READ")
  Fallible.modify fun r => { r with allowFileRead := read }
  let write ← Fallible.lift (enabled h "DOS_MCP_ALLOW_FILE_WRITE")
  Fallible.modify fun r => { r with allowFileWrite := write }
  let single := h.given "DOS_MCP_TARGET"
  let multiple := h.given "DOS_MCP_TARGETS"
  let discovery ← Fallible.lift (enabled h "DOS_MCP_DISCOVERY")
  if single.isSome ∧ multiple.isSome then
    Fallible.raise (.runtimeError "set only one of DOS_MCP_TARGET and DOS_MCP_TARGETS")
  else if single.isSome ∨ multiple.isSome ∨ discovery then addTargets h single multiple discovery
  else addTerminal h

def configure (h : Host) : RuntimeM Unit := do
  let r ← Fallible.state
  if r.configured then pure ()
  else
    Fallible.modify fun r => { r with configured := true }
    readEnvironment h

/-! ## Discovery -/

def DiscoveredTarget.metadata (t : DiscoveredTarget) : TargetMetadata :=
  ⟨t.advertisement.stableId, t.advertisement.protocolVersion, t.advertisement.openMode, t.advertisement.capabilities⟩

/-- A record known under the selector of an advertisement takes over its address. -/
def TargetRecord.refresh (record : TargetRecord) (t : DiscoveredTarget) : TargetRecord :=
  { record with backend := if record.address ≠ some t.address then none else record.backend
                address := some t.address
                metadata := some t.metadata
                lastSeen := some t.lastSeen }

def TargetRecord.discovered (t : DiscoveredTarget) : TargetRecord where
  selector := t.advertisement.selector
  name := asciiString t.advertisement.name
  source := .discovery
  address := some t.address
  backend := none
  metadata := some t.metadata
  lastSeen := some t.lastSeen

def refreshRecords (records : Dict String TargetRecord) (t : DiscoveredTarget) : Dict String TargetRecord :=
  match records.get? t.advertisement.selector with
  | none => records.set t.advertisement.selector (.discovered t)
  | some existing => records.set t.advertisement.selector (existing.refresh t)

/-- `_refresh_discovery` with what the listener has drained. -/
def refreshDiscovery (r : BackendRuntime) (targets : List DiscoveredTarget) : BackendRuntime :=
  if r.discovery then { r with records := targets.foldl refreshRecords r.records } else r

/-! ## Selection -/

def resolve (h : Host) (r : BackendRuntime) (target : Option String) : Except Exc TargetRecord :=
  match target with
  | none => match r.records with
    | [(_, record)] => .ok record
    | [] => .error (.runtimeError "no DOS targets are known; wait for discovery or configure one")
    | _ => .error (.runtimeError "target is required when multiple DOS systems are known")
  | some target => match r.records.get? target with
    | some record => .ok record
    | none => match r.records.values.filter fun record => h.casefold record.name = h.casefold target with
      | [record] => .ok record
      | [] => .error (.runtimeError ("unknown DOS target " ++ h.repr target))
      | _ => .error (.runtimeError ("target name " ++ h.repr target ++ " is ambiguous; use its name@agent-id selector"))

/-- What one call meets outside: the announcements waiting and the outcome of opening a UDP
    socket to an address (`UdpBackend.__init__`). -/
structure Outside where
  announcements : List Announcement
  connect : Address → Except Exc Unit

def connectRecord (h : Host) (o : Outside) (record : TargetRecord) : RuntimeM BackendHandle := do
  match record.backend with
  | some backend => pure backend
  | none =>
    let r ← Fallible.state
    match record.address, r.key with
    | some address, some key =>
      Fallible.lift (o.connect address)
      let backend := BackendHandle.udp address key r.allowFileRead r.allowFileWrite
      Fallible.modify fun r => { r with records := r.records.set record.selector { record with backend := some backend } }
      pure backend
    | _, _ => Fallible.raise (.runtimeError ("target " ++ h.repr record.selector ++ " has no backend"))

def get (h : Host) (o : Outside) (target : Option String) : RuntimeM BackendHandle := do
  configure h
  Fallible.modify fun r => refreshDiscovery r (drain o.announcements)
  let r ← Fallible.state
  let record ← Fallible.lift (resolve h r target)
  connectRecord h o record

/-- `list_targets`, by casefolded selector. -/
def listTargets (h : Host) (o : Outside) : RuntimeM (List TargetRecord) := do
  configure h
  Fallible.modify fun r => refreshDiscovery r (drain o.announcements)
  let r ← Fallible.state
  let selectors := r.records.keys.mergeSort fun a b => decide (h.casefold a ≤ h.casefold b)
  pure (selectors.filterMap r.records.get?)

end DosMcp
