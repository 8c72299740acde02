/-
  DosMcp.Client.Api — `backends/udp.py`: `get_status`, `capture_screen` and the transfer methods
  of the bridge.

  A method is a program over `_request`, which sends one request and returns its response or
  raises: the section variable `request`, over whatever state that takes. What was asked for
  before an exception stays asked for, so an agent may be left in the middle of a transfer;
  the methods release it with `_abort_transfer`.
-/

import DosMcp.Lib.Crc32
import DosMcp.Lib.Fallible
import DosMcp.Protocol.Packet
import DosMcp.Server.Backend

namespace DosMcp

open Lib
open Fallible (lift raise suppressing onRaise)

def maxFileSize : Nat := 1048576
def maxGraphicsSize : Nat := 262144
def transferBlockSize : Nat := 900

/-- What `suppress(OSError, RuntimeError, TimeoutError)` swallows. -/
def Exc.suppressed : Exc → Bool
  | .runtimeError _ | .agentOperationError _ | .timeoutError _ | .permissionError _ => true
  | .packetError _ | .valueError _ | .structError | .other => false

def encodeDosPath (path : List Char) : Except Exc Bytes :=
  match cp437Encode path with
  | none => .error (.valueError "DOS path contains characters outside CP437")
  | some [] => .error (.valueError "DOS path must not be empty")
  | some encoded => .ok encoded

/-- The `FileContents` a download returns. -/
structure Download where
  path : List Char
  data : Bytes
  crc32 : Nat
  deriving DecidableEq, Repr

/-- The `FileReceipt` an upload returns. -/
structure Upload where
  path : List Char
  size : Int
  crc32 : Int
  deriving DecidableEq, Repr

/-- The `MachineStatus` of `get_status`; `uptime_seconds` is computed from `biosTicks`. -/
structure BridgeStatus where
  connected : Bool
  phase : String
  backend : String
  transport : String
  identity : String
  operatingSystem : String
  architecture : String
  agentVersion : String
  biosTicks : Nat
  deriving DecidableEq, Repr

def Phase.text : Phase → String
  | .starting => "starting"
  | .observeReady => "observe_ready"
  | .agentShellReady => "agent_shell_ready"
  | .childRunning => "child_running"
  | .dosBusy => "dos_busy"
  | .awaitingApproval => "awaiting_approval"
  | .hostUnresponsive => "host_unresponsive"

def bridgeStatus (target : Address) (m : StatusMessage) : BridgeStatus where
  connected := true
  phase := m.phase.text
  backend := "dos-agent"
  transport := "packet-driver-udp"
  identity := s!"{target.1}:{target.2}"
  operatingSystem := s!"DOS {m.dosMajor}.{m.dosMinor}"
  architecture := if m.cpuClass = 0 then "8088" else s!"x86-class-{m.cpuClass}"
  agentVersion := s!"{m.agentMajor}.{m.agentMinor}"
  biosTicks := m.biosTicks

def Adapter.graphicsName : Adapter → String
  | .mda => "MDA"
  | .cga => "CGA"
  | .ega => "EGA"
  | .vga => "VGA"
  | .unknown => "unknown"
  | .linuxPty => "linux-pty"

def GraphicsLayout.name : GraphicsLayout → String
  | .cga2bppInterleaved => "cga-2bpp-interleaved"
  | .cga1bppInterleaved => "cga-1bpp-interleaved"
  | .hercules1bppInterleaved => "hercules-1bpp-interleaved"
  | .planar4bpp => "planar-4bpp"
  | .planar1bpp => "planar-1bpp"
  | .packed8bpp => "packed-8bpp"

/-- `cells[0::2]`. -/
def everySecond : Bytes → Bytes
  | [] => []
  | [b] => [b]
  | b :: _ :: rest => b :: everySecond rest

/-- `TextScreen(..)` from a message and its rows, with the checks of `__post_init__`; the
    attributes are bytes already. -/
def textScreen (m : ScreenMessage) (text : List (List Char)) (attributes : List Bytes) : Except Exc TextScreen :=
  if hdimensions : 1 ≤ m.columns ∧ 1 ≤ m.rows then
    if htext : text.length = m.rows then
      if hattributes : attributes.length = m.rows then
        if htextRows : ∀ row ∈ text, row.length = m.columns then
          if hattributesRows : ∀ row ∈ attributes, row.length = m.columns then
            if hrow : m.cursorRow < m.rows then
              if hcolumn : m.cursorColumn < m.columns then
                .ok { columns := m.columns, rows := m.rows, text := text, attributes := attributes,
                      cursor := ⟨m.cursorRow, m.cursorColumn, m.cursorStart ≤ m.cursorEnd, some m.cursorStart, some m.cursorEnd⟩,
                      generation := m.generation, adapter := m.adapter.graphicsName,
                      videoMode := if m.videoMode = 0xFF then none else some m.videoMode, activePage := m.activePage,
                      codePage := s!"CP{m.codePage}", blinkEnabled := true, dimensions_pos := hdimensions,
                      text_length := htext, attributes_length := hattributes, text_rows := htextRows,
                      attributes_rows := hattributesRows, cursor_row_lt := hrow, cursor_column_lt := hcolumn }
              else .error (.valueError "cursor column is outside the screen")
            else .error (.valueError "cursor row is outside the screen")
          else .error (.valueError "attribute rows must contain exactly columns cells")
        else .error (.valueError "text rows must retain exactly columns characters")
      else .error (.valueError "attribute row count does not match metadata")
    else .error (.valueError "screen row count does not match metadata")
  else .error (.valueError "screen dimensions must be positive")

/-- The bytes of row `i` in the cells of a message. -/
def ScreenMessage.rowCells (m : ScreenMessage) (i : Nat) : Bytes := slice m.cells (i * m.columns * 2) (m.columns * 2)

/-- What `capture_screen` makes of the response. -/
def readScreen (answer : Bytes) : Except Exc TextScreen := do
  let message ← ScreenMessage.decode answer
  let rows := List.range message.rows
  textScreen message (rows.map fun i => cp437Decode (everySecond (message.rowCells i)))
    (rows.map fun i => everySecond ((message.rowCells i).drop 1))

/-- `GraphicsScreen(..)` from the metadata, with the checks of `__post_init__`. -/
def graphicsScreen (m : GraphicsBeginResponse) (data : Bytes) : Except Exc GraphicsScreen :=
  if hdimensions : 1 ≤ m.width ∧ 1 ≤ m.height then
    if hplanes : 1 ≤ m.planes ∧ m.planes ≤ 4 then
      if hbytes : 1 ≤ m.bytesPerPlane then
        if hdata : data.length = m.planes * m.bytesPerPlane then
          .ok { adapter := m.adapter.graphicsName, videoMode := m.videoMode, layout := m.layout.name, width := m.width,
                height := m.height, planes := m.planes, bytesPerPlane := m.bytesPerPlane, data := data,
                dimensions_pos := hdimensions, planes_range := hplanes, bytesPerPlane_pos := hbytes, data_length := hdata }
        else .error (.valueError "graphics data length does not match plane metadata")
      else .error (.valueError "graphics bytes_per_plane must be positive")
    else .error (.valueError "graphics plane count must be between 1 and 4")
  else .error (.valueError "graphics dimensions must be positive")

section

variable {σ : Type} (request : Opcode → Bytes → Fallible σ Exc Bytes)

def getStatus (target : Address) : Fallible σ Exc BridgeStatus := do
  let answer ← request .getStatus []
  let message ← lift (StatusMessage.decode answer)
  return bridgeStatus target message

def captureScreen : Fallible σ Exc TextScreen := do
  let answer ← request .captureTextScreen []
  lift (readScreen answer)

def abortTransfer (transferId : Nat) : Fallible σ Exc Unit :=
  suppressing Exc.suppressed do
    let payload ← lift (TransferEndRequest.encode ⟨transferId⟩)
    request .fileAbort payload

/-- `_download_blocks`. Every turn of the loop adds at least one byte, so `totalSize` turns
    are enough (`downloadBlocks_enough`). -/
def downloadBlocks (opcode : Opcode) (transferId totalSize : Nat) : Nat → Bytes → Nat → Fallible σ Exc (Bytes × Nat)
  | 0, output, rollingCrc => pure (output, rollingCrc)
  | turns + 1, output, rollingCrc =>
    if output.length < totalSize then do
      let length := min transferBlockSize (totalSize - output.length)
      let payload ← lift (TransferBlockRequest.encode ⟨transferId, output.length, length, []⟩)
      let answer ← request opcode payload
      let response ← lift (TransferBlockResponse.decode answer)
      if response.transferId ≠ transferId ∨ response.offset ≠ output.length ∨ response.data = [] ∨
          response.data.length > length then
        raise (.agentOperationError "invalid download block response")
      else if response.rollingCrc32 ≠ crc32 response.data rollingCrc then
        raise (.agentOperationError "download block checksum mismatch")
      else downloadBlocks opcode transferId totalSize turns (output ++ response.data) (crc32 response.data rollingCrc)
    else pure (output, rollingCrc)

/-- More turns change nothing. -/
theorem downloadBlocks_enough {opcode : Opcode} {transferId totalSize turns : Nat} {output : Bytes} {rollingCrc : Nat}
    (h : totalSize ≤ output.length + turns) (more : Nat) :
    downloadBlocks request opcode transferId totalSize (turns + more) output rollingCrc =
      downloadBlocks request opcode transferId totalSize turns output rollingCrc := by
  induction turns generalizing output rollingCrc with
  | zero =>
    cases more with
    | zero => rfl
    | succ more => exact if_neg (by omega)
  | succ turns ih =>
    rw [Nat.succ_add, downloadBlocks, downloadBlocks]
    split
    · refine bind_congr fun payload => bind_congr fun answer => bind_congr fun response => ?_
      split
      · rfl
      · rename_i hvalid
        split
        · rfl
        · apply ih
          have hpos : 0 < response.data.length := List.length_pos_of_ne_nil fun hnil => hvalid (Or.inr (Or.inr (Or.inl hnil)))
          rw [List.length_append]
          omega
    · rfl

/-- A block and END loop of a download, released where it raises. -/
def downloadTransfer (blockOpcode endOpcode : Opcode) (transferId totalSize : Nat) :
    Fallible σ Exc (Bytes × Nat × TransferEndResponse) :=
  onRaise
    (do
      let (data, crc) ← downloadBlocks request blockOpcode transferId totalSize totalSize [] 0
      let payload ← lift (TransferEndRequest.encode ⟨transferId⟩)
      let answer ← request endOpcode payload
      let finish ← lift (TransferEndResponse.decode answer)
      return (data, crc, finish))
    (abortTransfer request transferId)

def captureGraphics : Fallible σ Exc GraphicsScreen := do
  let answer ← request .graphicsBegin []
  let metadata ← lift (GraphicsBeginResponse.decode answer)
  if metadata.totalSize > maxGraphicsSize then do
    abortTransfer request metadata.transferId
    raise (.valueError "graphics capture exceeds the bridge size limit")
  else do
    let (data, crc, finish) ← downloadTransfer request .graphicsBlock .graphicsEnd metadata.transferId metadata.totalSize
    if finish.totalSize ≠ data.length ∨ finish.crc32 ≠ crc then
      raise (.agentOperationError "graphics capture checksum mismatch")
    else lift (graphicsScreen metadata data)

def downloadFile (allowFileRead : Bool) (path : List Char) : Fallible σ Exc Download :=
  if ¬ allowFileRead then raise (.permissionError "DOS file downloads are disabled by bridge policy")
  else do
    let encodedPath ← lift (encodeDosPath path)
    let payload ← lift (FileReadBeginRequest.encode ⟨encodedPath⟩)
    let answer ← request .fileReadBegin payload
    let begin ← lift (TransferBeginResponse.decode answer)
    if begin.totalSize > maxFileSize then do
      abortTransfer request begin.transferId
      raise (.valueError "file exceeds the bridge download limit")
    else do
      let (data, crc, finish) ← downloadTransfer request .fileReadBlock .fileReadEnd begin.transferId begin.totalSize
      if finish.totalSize ≠ data.length ∨ finish.crc32 ≠ crc then raise (.agentOperationError "download checksum mismatch")
      else return ⟨path, data, crc⟩

/-- `range(0, len(data), TRANSFER_BLOCK_SIZE)`. -/
def blockOffsets (data : Bytes) : List Nat :=
  (List.range ((data.length + transferBlockSize - 1) / transferBlockSize)).map (· * transferBlockSize)

/-- The block loop of `upload_file`. -/
def uploadBlocks (transferId : Nat) (data : Bytes) : List Nat → Nat → Fallible σ Exc Unit
  | [], _ => pure ()
  | offset :: offsets, rollingCrc => do
    let block := slice data offset transferBlockSize
    let payload ← lift (TransferBlockRequest.encode ⟨transferId, offset, block.length, block⟩)
    let answer ← request .fileWriteBlock payload
    let response ← lift (TransferBlockResponse.decode answer)
    if response.transferId ≠ transferId ∨ response.offset ≠ offset ∨ response.data ≠ [] ∨
        response.rollingCrc32 ≠ crc32 block rollingCrc then
      raise (.agentOperationError "invalid upload block acknowledgement")
    else uploadBlocks transferId data offsets (crc32 block rollingCrc)

def uploadFile (allowFileWrite : Bool) (path : List Char) (data : Bytes) (overwrite : Bool) : Fallible σ Exc Upload :=
  if ¬ allowFileWrite then raise (.permissionError "DOS file uploads are disabled by bridge policy")
  else if data.length > maxFileSize then raise (.valueError "file exceeds the bridge upload limit")
  else do
    let encodedPath ← lift (encodeDosPath path)
    let payload ← lift (FileWriteBeginRequest.encode ⟨encodedPath, data.length, crc32 data 0, overwrite⟩)
    let answer ← request .fileWriteBegin payload
    let begin ← lift (TransferBeginResponse.decode answer)
    let finish ← onRaise
      (do
        uploadBlocks request begin.transferId data (blockOffsets data) 0
        let payload ← lift (TransferEndRequest.encode ⟨begin.transferId⟩)
        let answer ← request .fileWriteCommit payload
        lift (TransferEndResponse.decode answer))
      (abortTransfer request begin.transferId)
    if finish.totalSize ≠ data.length ∨ finish.crc32 ≠ crc32 data 0 then
      raise (.agentOperationError "upload checksum mismatch")
    else return ⟨path, finish.totalSize, finish.crc32⟩

end

end DosMcp
