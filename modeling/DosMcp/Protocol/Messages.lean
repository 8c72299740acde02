/-
  DosMcp.Protocol.Messages — `protocol/messages.py` and `protocol/errors.py`: the
  payload codecs of the operations the simulator and the bridge exchange.

  `struct.pack` raises `struct.error` on a value outside its field; fields that hold
  what a backend returned are integers for that reason, fields that only ever hold
  unpacked values or lengths are naturals. Decoders keep the source's checks, their
  order and their messages.
-/

import DosMcp.Lib.Bytes
import DosMcp.Protocol.Constants

namespace DosMcp

open Lib

def maxTransferBlock : Nat := 900
def maxDosPathBytes : Nat := 80

/-- `struct.Struct(...).pack`. -/
def structPack (fields : List (Nat × Int)) : Except Exc Bytes :=
  match pack fields with
  | some bs => .ok bs
  | none => .error .structError

/-- An enumeration's constructor call. -/
def enumOf {ε : Type} (ofValue? : Nat → Option ε) (name : String) (value : Nat) : Except Exc ε :=
  match ofValue? value with
  | some e => .ok e
  | none => .error (.valueError s!"{value} is not a valid {name}")

def requireSize (payload : Bytes) (expected : Nat) (name : String) : Except Exc Unit :=
  raiseIf (payload.length ≠ expected) (.valueError s!"{name} requires exactly {expected} bytes")

def validatePath (path : Bytes) : Except Exc Unit :=
  raiseIf (¬ (1 ≤ path.length ∧ path.length ≤ maxDosPathBytes) ∨ 0 ∈ path)
    (.valueError "DOS path must contain 1 to 80 non-NUL bytes")

/-! ## Handshake -/

structure HelloRequest where
  clientNonce : Nat
  deriving DecidableEq, Repr

def HelloRequest.encode (m : HelloRequest) : Except Exc Bytes := structPack [(4, m.clientNonce)]

def HelloRequest.decode (payload : Bytes) : Except Exc HelloRequest := do
  requireSize payload 4 "hello request"
  return ⟨leNat (slice payload 0 4)⟩

structure HelloResponse where
  clientNonce : Nat
  serverNonce : Nat
  sessionId : Nat
  maxFragmentPayload : Nat
  deriving DecidableEq, Repr

def HelloResponse.encode (m : HelloResponse) : Except Exc Bytes :=
  structPack [(4, m.clientNonce), (4, m.serverNonce), (2, m.sessionId), (2, m.maxFragmentPayload)]

def HelloResponse.decode (payload : Bytes) : Except Exc HelloResponse := do
  requireSize payload 12 "hello response"
  let value : HelloResponse :=
    ⟨leNat (slice payload 0 4), leNat (slice payload 4 4), leNat (slice payload 8 2), leNat (slice payload 10 2)⟩
  raiseIf (¬ (64 ≤ value.maxFragmentPayload ∧ value.maxFragmentPayload ≤ DosMcp.maxFragmentPayload))
    (.valueError "invalid negotiated fragment payload")
  raiseIf (value.sessionId = 0) (.valueError "session ID zero is reserved")
  return value

/-! ## Observation -/

structure StatusMessage where
  agentMajor : Nat
  agentMinor : Nat
  dosMajor : Nat
  dosMinor : Nat
  cpuClass : Nat
  phase : Phase
  conventionalKb : Nat
  biosTicks : Nat
  deriving DecidableEq, Repr

def StatusMessage.encode (m : StatusMessage) : Except Exc Bytes :=
  structPack [(1, m.agentMajor), (1, m.agentMinor), (1, m.dosMajor), (1, m.dosMinor), (1, m.cpuClass),
    (1, m.phase.value), (2, m.conventionalKb), (4, m.biosTicks)]

def StatusMessage.decode (payload : Bytes) : Except Exc StatusMessage := do
  requireSize payload 12 "status"
  let phase ← enumOf Phase.ofValue? "Phase" (leNat (slice payload 5 1))
  return ⟨leNat (slice payload 0 1), leNat (slice payload 1 1), leNat (slice payload 2 1), leNat (slice payload 3 1),
    leNat (slice payload 4 1), phase, leNat (slice payload 6 2), leNat (slice payload 8 4)⟩

/-- A field of the format `h`, as the bits it is stored in; a value outside it does not pack. -/
def shortField (value : Int) : Nat × Int := (2, if -0x8000 ≤ value ∧ value < 0x8000 then value % 0x10000 else -1)

def shortOf (bits : Nat) : Int := if bits < 0x8000 then bits else (bits : Int) - 0x10000

structure ResidentDiagnosticsMessage where
  version : Nat
  flags : Nat
  int08Entries : Nat
  int1cEntries : Nat
  int28Entries : Nat
  workerRuns : Nat
  fallbackRuns : Nat
  busySkips : Nat
  receiveAllocations : Nat
  receiveCompletions : Nat
  receiveDrops : Nat
  sendAttempts : Nat
  sendFailures : Nat
  lastReceiveBiosTick : Nat
  lastWorkerBiosTick : Nat
  workerTicks : Nat
  receiveLength : Nat
  masterPicMask : Nat
  slavePicMask : Nat
  lastProtocolResult : Int
  lastSendResult : Int
  lastOpcode : Nat
  stackSize : Nat
  stackUsed : Nat
  residentParagraphs : Nat
  workspaceSize : Nat
  stackOverflow : Bool
  deriving DecidableEq, Repr

/-- The fields of `_RESIDENT_DIAGNOSTICS`, the reserved byte last. -/
def ResidentDiagnosticsMessage.baseFields (m : ResidentDiagnosticsMessage) : List (Nat × Int) :=
  [(1, m.version), (1, m.flags), (2, m.int08Entries), (2, m.int1cEntries), (2, m.int28Entries), (2, m.workerRuns),
    (2, m.fallbackRuns), (2, m.busySkips), (2, m.receiveAllocations), (2, m.receiveCompletions), (2, m.receiveDrops),
    (2, m.sendAttempts), (2, m.sendFailures), (2, m.lastReceiveBiosTick), (2, m.lastWorkerBiosTick), (2, m.workerTicks),
    (2, m.receiveLength), (1, m.masterPicMask), (1, m.slavePicMask), shortField m.lastProtocolResult,
    shortField m.lastSendResult, (1, m.lastOpcode), (1, 0)]

/-- The fields of `_RESIDENT_MEMORY_DIAGNOSTICS`. -/
def ResidentDiagnosticsMessage.memoryFields (m : ResidentDiagnosticsMessage) : List (Nat × Int) :=
  [(2, m.stackSize), (2, m.stackUsed), (2, m.residentParagraphs), (2, m.workspaceSize),
    (1, if m.stackOverflow then 1 else 0), (1, 0)]

def ResidentDiagnosticsMessage.encode (m : ResidentDiagnosticsMessage) : Except Exc Bytes := do
  raiseIf (m.version ≠ 1 ∧ m.version ≠ 2) (.valueError "unsupported resident diagnostics version")
  let base ← structPack m.baseFields
  if m.version = 1 then
    raiseIf (m.stackSize ≠ 0 ∨ m.stackUsed ≠ 0 ∨ m.residentParagraphs ≠ 0 ∨ m.workspaceSize ≠ 0 ∨ m.stackOverflow)
      (.valueError "version 1 diagnostics cannot carry memory data")
    return base
  else
    let memory ← structPack m.memoryFields
    return base ++ memory

def ResidentDiagnosticsMessage.decode (payload : Bytes) : Except Exc ResidentDiagnosticsMessage := do
  raiseIf (payload.length < 40) (.valueError "truncated resident diagnostics")
  let version := leNat (slice payload 0 1)
  raiseIf (version ≠ 1 ∧ version ≠ 2) (.valueError "unsupported resident diagnostics version")
  requireSize payload (if version = 2 then 50 else 40) "resident diagnostics"
  raiseIf (leNat (slice payload 39 1) ≠ 0) (.valueError "resident diagnostics reserved byte is nonzero")
  raiseIf (version = 2 ∧ (leNat (slice payload 49 1) ≠ 0 ∨ leNat (slice payload 48 1) > 1))
    (.valueError "invalid resident memory diagnostics")
  -- the memory fields are zeros in version 1
  let memory := fun (offset width : Nat) => if version = 2 then leNat (slice payload offset width) else 0
  return { version := version, flags := leNat (slice payload 1 1), int08Entries := leNat (slice payload 2 2),
           int1cEntries := leNat (slice payload 4 2), int28Entries := leNat (slice payload 6 2),
           workerRuns := leNat (slice payload 8 2), fallbackRuns := leNat (slice payload 10 2),
           busySkips := leNat (slice payload 12 2), receiveAllocations := leNat (slice payload 14 2),
           receiveCompletions := leNat (slice payload 16 2), receiveDrops := leNat (slice payload 18 2),
           sendAttempts := leNat (slice payload 20 2), sendFailures := leNat (slice payload 22 2),
           lastReceiveBiosTick := leNat (slice payload 24 2), lastWorkerBiosTick := leNat (slice payload 26 2),
           workerTicks := leNat (slice payload 28 2), receiveLength := leNat (slice payload 30 2),
           masterPicMask := leNat (slice payload 32 1), slavePicMask := leNat (slice payload 33 1),
           lastProtocolResult := shortOf (leNat (slice payload 34 2)), lastSendResult := shortOf (leNat (slice payload 36 2)),
           lastOpcode := leNat (slice payload 38 1), stackSize := memory 40 2, stackUsed := memory 42 2,
           residentParagraphs := memory 44 2, workspaceSize := memory 46 2, stackOverflow := memory 48 1 ≠ 0 }

structure CapabilitiesMessage where
  capabilities : Nat
  columns : Int
  rows : Int
  adapter : Adapter
  maxFragmentPayload : Nat
  maxKeys : Int
  deriving DecidableEq, Repr

def CapabilitiesMessage.encode (m : CapabilitiesMessage) : Except Exc Bytes :=
  structPack [(4, m.capabilities), (1, m.columns), (1, m.rows), (1, m.adapter.value), (2, m.maxFragmentPayload),
    (2, m.maxKeys)]

/-- `_KNOWN_CAPABILITIES`: the twelve flags. -/
def knownCapabilities : Nat := 0xFFF

def CapabilitiesMessage.decode (payload : Bytes) : Except Exc CapabilitiesMessage := do
  requireSize payload 11 "capabilities"
  let flags := leNat (slice payload 0 4)
  raiseIf (flags &&& (0xFFFFFFFF ^^^ knownCapabilities) ≠ 0) (.valueError "unknown capability flags")
  let adapter ← enumOf Adapter.ofValue? "Adapter" (leNat (slice payload 6 1))
  let columns := leNat (slice payload 4 1)
  let rows := leNat (slice payload 5 1)
  let maxFragment := leNat (slice payload 7 2)
  raiseIf (¬ (1 ≤ columns ∧ columns ≤ 255) ∨ ¬ (1 ≤ rows ∧ rows ≤ 255)) (.valueError "invalid screen dimensions")
  raiseIf (¬ (64 ≤ maxFragment ∧ maxFragment ≤ DosMcp.maxFragmentPayload)) (.valueError "invalid maximum fragment payload")
  return ⟨flags, columns, rows, adapter, maxFragment, leNat (slice payload 9 2)⟩

structure ScreenMessage where
  columns : Nat
  rows : Nat
  videoMode : Int
  activePage : Int
  cursorRow : Nat
  cursorColumn : Nat
  cursorStart : Int
  cursorEnd : Int
  adapter : Adapter
  codePage : Nat
  generation : Nat
  cells : Bytes
  deriving DecidableEq, Repr

def ScreenMessage.validate (m : ScreenMessage) : Except Exc Unit := do
  raiseIf (¬ (1 ≤ m.columns ∧ m.columns ≤ 255) ∨ ¬ (1 ≤ m.rows ∧ m.rows ≤ 255)) (.valueError "invalid screen dimensions")
  let expected := m.columns * m.rows * 2
  raiseIf (m.cells.length ≠ expected) (.valueError s!"screen requires exactly {expected} cell bytes")
  raiseIf (m.cursorRow ≥ m.rows ∨ m.cursorColumn ≥ m.columns) (.valueError "cursor is outside screen")

def ScreenMessage.encode (m : ScreenMessage) : Except Exc Bytes := do
  m.validate
  let head ← structPack [(1, m.columns), (1, m.rows), (1, m.videoMode), (1, m.activePage), (1, m.cursorRow),
    (1, m.cursorColumn), (1, m.cursorStart), (1, m.cursorEnd), (1, m.adapter.value), (2, m.codePage), (2, m.generation)]
  return head ++ m.cells

def ScreenMessage.decode (payload : Bytes) : Except Exc ScreenMessage := do
  raiseIf (payload.length < 13) (.valueError "truncated screen message")
  let adapter ← enumOf Adapter.ofValue? "Adapter" (leNat (slice payload 8 1))
  let value : ScreenMessage :=
    { columns := leNat (slice payload 0 1), rows := leNat (slice payload 1 1), videoMode := leNat (slice payload 2 1),
      activePage := leNat (slice payload 3 1), cursorRow := leNat (slice payload 4 1),
      cursorColumn := leNat (slice payload 5 1), cursorStart := leNat (slice payload 6 1),
      cursorEnd := leNat (slice payload 7 1), adapter := adapter, codePage := leNat (slice payload 9 2),
      generation := leNat (slice payload 11 2), cells := payload.drop 13 }
  value.validate
  return value

/-! ## Keyboard -/

structure KeyRequest where
  text : Bytes
  keys : List KeyCode
  interKeyDelayMs : Int
  deriving DecidableEq, Repr

def KeyRequest.encode (m : KeyRequest) : Except Exc Bytes := do
  raiseIf (m.text.length > 4096) (.valueError "key text exceeds 4096 bytes")
  raiseIf (m.keys.length > 128) (.valueError "too many named keys")
  raiseIf (¬ (0 ≤ m.interKeyDelayMs ∧ m.interKeyDelayMs ≤ 1000)) (.valueError "invalid inter-key delay")
  let head ← structPack [(2, m.text.length), (1, m.keys.length), (2, m.interKeyDelayMs)]
  return head ++ m.text ++ m.keys.map fun key => UInt8.ofNat key.value

def KeyRequest.decode (payload : Bytes) : Except Exc KeyRequest := do
  raiseIf (payload.length < 5) (.valueError "truncated key request")
  let textLength := leNat (slice payload 0 2)
  let keyCount := leNat (slice payload 2 1)
  let delay := leNat (slice payload 3 2)
  requireSize payload (5 + textLength + keyCount) "key request"
  let keys ← (payload.drop (5 + textLength)).mapM fun value => enumOf KeyCode.ofValue? "KeyCode" value.toNat
  return ⟨slice payload 5 textLength, keys, delay⟩

structure KeyResponse where
  acceptedTextBytes : Int
  acceptedKeys : Int
  generation : Nat
  deriving DecidableEq, Repr

def KeyResponse.encode (m : KeyResponse) : Except Exc Bytes :=
  structPack [(2, m.acceptedTextBytes), (1, m.acceptedKeys), (2, m.generation)]

def KeyResponse.decode (payload : Bytes) : Except Exc KeyResponse := do
  requireSize payload 5 "key response"
  return ⟨leNat (slice payload 0 2), leNat (slice payload 2 1), leNat (slice payload 3 2)⟩

/-! ## Transfers -/

structure FileReadBeginRequest where
  path : Bytes
  deriving DecidableEq, Repr

def FileReadBeginRequest.encode (m : FileReadBeginRequest) : Except Exc Bytes := do
  validatePath m.path
  return UInt8.ofNat m.path.length :: m.path

def FileReadBeginRequest.decode (payload : Bytes) : Except Exc FileReadBeginRequest := do
  raiseIf (payload.length = 0) (.valueError "truncated file-read request")
  requireSize payload (leNat (slice payload 0 1) + 1) "file-read request"
  validatePath (payload.drop 1)
  return ⟨payload.drop 1⟩

structure FileWriteBeginRequest where
  path : Bytes
  totalSize : Nat
  crc32 : Nat
  overwrite : Bool
  deriving DecidableEq, Repr

def FileWriteBeginRequest.encode (m : FileWriteBeginRequest) : Except Exc Bytes := do
  validatePath m.path
  raiseIf (m.totalSize > 0xFFFFFFFF) (.valueError "invalid file size")
  let head ← structPack [(1, if m.overwrite then 1 else 0), (4, m.totalSize), (4, m.crc32), (1, m.path.length)]
  return head ++ m.path

def FileWriteBeginRequest.decode (payload : Bytes) : Except Exc FileWriteBeginRequest := do
  raiseIf (payload.length < 10) (.valueError "truncated file-write request")
  let overwrite := leNat (slice payload 0 1)
  requireSize payload (10 + leNat (slice payload 9 1)) "file-write request"
  raiseIf (overwrite > 1) (.valueError "invalid overwrite flag")
  validatePath (payload.drop 10)
  return ⟨payload.drop 10, leNat (slice payload 1 4), leNat (slice payload 5 4), overwrite ≠ 0⟩

structure TransferBeginResponse where
  transferId : Nat
  totalSize : Nat
  deriving DecidableEq, Repr

def TransferBeginResponse.encode (m : TransferBeginResponse) : Except Exc Bytes :=
  structPack [(2, m.transferId), (4, m.totalSize)]

def TransferBeginResponse.decode (payload : Bytes) : Except Exc TransferBeginResponse := do
  requireSize payload 6 "transfer-begin response"
  let value : TransferBeginResponse := ⟨leNat (slice payload 0 2), leNat (slice payload 2 4)⟩
  raiseIf (value.transferId = 0) (.valueError "transfer ID zero is reserved")
  return value

structure TransferBlockRequest where
  transferId : Nat
  offset : Nat
  length : Nat
  data : Bytes
  deriving DecidableEq, Repr

def TransferBlockRequest.encode (m : TransferBlockRequest) : Except Exc Bytes := do
  raiseIf (m.transferId = 0) (.valueError "transfer ID zero is reserved")
  raiseIf (¬ (1 ≤ m.length ∧ m.length ≤ maxTransferBlock)) (.valueError "invalid transfer block length")
  raiseIf (m.data ≠ [] ∧ m.data.length ≠ m.length) (.valueError "transfer data length mismatch")
  let head ← structPack [(2, m.transferId), (4, m.offset), (2, m.length)]
  return head ++ m.data

def TransferBlockRequest.decode (payload : Bytes) (hasData : Bool) : Except Exc TransferBlockRequest := do
  raiseIf (payload.length < 8) (.valueError "truncated transfer block")
  let length := leNat (slice payload 6 2)
  requireSize payload (8 + if hasData then length else 0) "transfer block"
  let value : TransferBlockRequest :=
    ⟨leNat (slice payload 0 2), leNat (slice payload 2 4), length, if hasData then payload.drop 8 else []⟩
  let _ ← value.encode
  return value

structure TransferBlockResponse where
  transferId : Nat
  offset : Nat
  data : Bytes
  rollingCrc32 : Nat
  deriving DecidableEq, Repr

def TransferBlockResponse.encode (m : TransferBlockResponse) : Except Exc Bytes := do
  raiseIf (m.data.length > maxTransferBlock) (.valueError "transfer response block is too large")
  let head ← structPack [(2, m.transferId), (4, m.offset), (2, m.data.length), (4, m.rollingCrc32)]
  return head ++ m.data

def TransferBlockResponse.decode (payload : Bytes) : Except Exc TransferBlockResponse := do
  raiseIf (payload.length < 12) (.valueError "truncated transfer-block response")
  let length := leNat (slice payload 6 2)
  requireSize payload (12 + length) "transfer-block response"
  raiseIf (length > maxTransferBlock) (.valueError "transfer response block is too large")
  return ⟨leNat (slice payload 0 2), leNat (slice payload 2 4), payload.drop 12, leNat (slice payload 8 4)⟩

structure TransferEndRequest where
  transferId : Nat
  deriving DecidableEq, Repr

def TransferEndRequest.encode (m : TransferEndRequest) : Except Exc Bytes := do
  raiseIf (m.transferId = 0) (.valueError "transfer ID zero is reserved")
  structPack [(2, m.transferId)]

def TransferEndRequest.decode (payload : Bytes) : Except Exc TransferEndRequest := do
  requireSize payload 2 "transfer-end request"
  return ⟨leNat (slice payload 0 2)⟩

structure TransferEndResponse where
  totalSize : Int
  crc32 : Int
  deriving DecidableEq, Repr

def TransferEndResponse.encode (m : TransferEndResponse) : Except Exc Bytes :=
  structPack [(4, m.totalSize), (4, m.crc32)]

def TransferEndResponse.decode (payload : Bytes) : Except Exc TransferEndResponse := do
  requireSize payload 8 "transfer-end response"
  return ⟨leNat (slice payload 0 4), leNat (slice payload 4 4)⟩

/-! ## Graphics -/

structure GraphicsBeginResponse where
  transferId : Nat
  adapter : Adapter
  videoMode : Int
  layout : GraphicsLayout
  planes : Nat
  width : Nat
  height : Nat
  totalSize : Nat
  bytesPerPlane : Nat
  deriving DecidableEq, Repr

def GraphicsBeginResponse.encode (m : GraphicsBeginResponse) : Except Exc Bytes :=
  structPack [(2, m.transferId), (1, m.adapter.value), (1, m.videoMode), (1, m.layout.value), (1, m.planes),
    (2, m.width), (2, m.height), (4, m.totalSize), (4, m.bytesPerPlane)]

def GraphicsBeginResponse.decode (payload : Bytes) : Except Exc GraphicsBeginResponse := do
  requireSize payload 18 "graphics-begin response"
  let adapter ← enumOf Adapter.ofValue? "Adapter" (leNat (slice payload 2 1))
  let layout ← enumOf GraphicsLayout.ofValue? "GraphicsLayout" (leNat (slice payload 4 1))
  let value : GraphicsBeginResponse :=
    ⟨leNat (slice payload 0 2), adapter, leNat (slice payload 3 1), layout, leNat (slice payload 5 1),
      leNat (slice payload 6 2), leNat (slice payload 8 2), leNat (slice payload 10 4), leNat (slice payload 14 4)⟩
  raiseIf (value.transferId = 0 ∨ ¬ (1 ≤ value.planes ∧ value.planes ≤ 4) ∨ ¬ (1 ≤ value.width ∧ value.width ≤ 2048) ∨
      ¬ (1 ≤ value.height ∧ value.height ≤ 2048) ∨ value.totalSize = 0 ∨ value.bytesPerPlane = 0 ∨
      value.totalSize ≠ value.planes * value.bytesPerPlane ∨
      (value.layout = .planar4bpp ∧ value.planes ≠ 4) ∨ (value.layout ≠ .planar4bpp ∧ value.planes ≠ 1))
    (.valueError "invalid graphics metadata")
  return value

/-! ## Errors (`errors.py`) -/

/-- `message.encode("ascii", errors="replace")`. -/
def asciiReplace (message : String) : Bytes :=
  message.toList.map fun c => if c.toNat < 0x80 then UInt8.ofNat c.toNat else 0x3F

def encodeError (code : ErrorCode) (message : String) : Bytes :=
  leBytes 2 code.value ++ (asciiReplace message).take 120

def decodeError (payload : Bytes) : Except Exc (ErrorCode × String) := do
  raiseIf (payload.length < 2) (.valueError "truncated error payload")
  let code ← enumOf ErrorCode.ofValue? "ErrorCode" (leNat (slice payload 0 2))
  let message := (payload.drop 2).map fun b => if b.toNat < 0x80 then Char.ofNat b.toNat else Char.ofNat 0xFFFD
  return (code, String.ofList message)

end DosMcp
