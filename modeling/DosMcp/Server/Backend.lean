/-
  DosMcp.Server.Backend — the values of `models.py` a backend hands to the agent server,
  and the backend as the server sees it.

  A value carries what its `__post_init__` checks, so a backend can only return one its
  constructor accepts. The backend itself is not part of the server: `Backend` holds,
  for one call of the server, what each of its methods would return or raise, and a run
  draws a fresh one at every call. `Call` is one invocation as the server makes it.
-/

import DosMcp.Protocol.Cp437
import DosMcp.Protocol.Messages

namespace DosMcp

open Lib

structure MachineStatus where
  phase : String
  /-- `int(status.uptime_seconds * 18.2)`, or what that float conversion raises. -/
  uptimeTicks : Except Exc Int

structure Capabilities where
  backend : String
  status : Bool
  textCapture : Bool
  graphicsCapture : List String
  keyboardInjection : Option String
  screenColumns : Int
  screenRows : Int
  maxKeysPerRequest : Int
  filesystemRead : Bool
  filesystemWrite : Bool
  commandExecution : Bool
  memoryRead : Bool
  memoryWrite : Bool
  portRead : Bool
  portWrite : Bool
  reboot : Bool
  deriving DecidableEq, Repr

structure Cursor where
  row : Nat
  column : Nat
  visible : Bool
  startScanline : Option Int
  endScanline : Option Int
  deriving DecidableEq, Repr

structure TextScreen where
  columns : Nat
  rows : Nat
  text : List (List Char)
  attributes : List Bytes
  cursor : Cursor
  generation : Int
  adapter : String
  videoMode : Option Int
  activePage : Int
  codePage : String
  blinkEnabled : Bool
  dimensions_pos : 1 ≤ columns ∧ 1 ≤ rows
  text_length : text.length = rows
  attributes_length : attributes.length = rows
  text_rows : ∀ row ∈ text, row.length = columns
  attributes_rows : ∀ row ∈ attributes, row.length = columns
  cursor_row_lt : cursor.row < rows
  cursor_column_lt : cursor.column < columns

structure KeyReceipt where
  acceptedTextBytes : Int
  acceptedKeys : Int
  screenGeneration : Int
  deriving DecidableEq, Repr

structure FileContents where
  data : Bytes
  deriving DecidableEq, Repr

structure FileReceipt where
  size : Int
  crc32 : Int
  deriving DecidableEq, Repr

structure GraphicsScreen where
  adapter : String
  videoMode : Int
  layout : String
  width : Nat
  height : Nat
  planes : Nat
  bytesPerPlane : Nat
  data : Bytes
  dimensions_pos : 1 ≤ width ∧ 1 ≤ height
  planes_range : 1 ≤ planes ∧ planes ≤ 4
  bytesPerPlane_pos : 1 ≤ bytesPerPlane
  data_length : data.length = planes * bytesPerPlane

/-- One row, one plane, one byte of a plane. -/
theorem GraphicsScreen.one_pos : 1 ≤ 1 := le_refl 1

/-- One backend method call with its arguments. -/
inductive Call where
  | getStatus
  | getCapabilities
  | captureScreen
  | captureGraphics
  | sendKeys (text : List Char) (keys : List String) (interKeyDelayMs : Int) (settleMs : Nat)
  | downloadFile (path : List Char)
  | uploadFile (path : List Char) (data : Bytes) (overwrite : Bool)
  deriving DecidableEq, Repr

/-- What the backend's methods answer during one call of the server. -/
structure Backend where
  getStatus : Except Exc MachineStatus
  getCapabilities : Except Exc Capabilities
  captureScreen : Except Exc TextScreen
  captureGraphics : Except Exc GraphicsScreen
  sendKeys : List Char → List String → Int → Nat → Except Exc KeyReceipt
  downloadFile : List Char → Except Exc FileContents
  uploadFile : List Char → Bytes → Bool → Except Exc FileReceipt

/-! ## Wire forms of backend values -/

def statusMessage (status : MachineStatus) : Except Exc StatusMessage := do
  let phase : Phase := match status.phase with
    | "starting" => .starting
    | "observe_ready" => .observeReady
    | "agent_shell_ready" => .agentShellReady
    | "child_running" => .childRunning
    | "dos_busy" => .dosBusy
    | "awaiting_approval" => .awaitingApproval
    | "host_unresponsive" => .hostUnresponsive
    | _ => .observeReady
  let ticks ← status.uptimeTicks
  return { agentMajor := 0, agentMinor := 1, dosMajor := 0, dosMinor := 0, cpuClass := 0xFF, phase := phase,
           conventionalKb := 640, biosTicks := (ticks % 0x100000000).toNat }

def capabilitiesMessage (c : Capabilities) : CapabilitiesMessage :=
  let mapping : List (Bool × Capability) :=
    [(c.status, .status), (c.textCapture, .textCapture), (c.filesystemRead, .filesystemRead),
      (c.filesystemWrite, .filesystemWrite), (c.commandExecution, .execution), (c.memoryRead, .memoryRead),
      (c.memoryWrite, .memoryWrite), (c.portRead, .portRead), (c.portWrite, .portWrite), (c.reboot, .reboot),
      -- `keyboard_injection` is a string or None, `graphics_capture` a tuple: empty ones are false
      (c.keyboardInjection.getD "" ≠ "", .keyboard), (c.graphicsCapture ≠ [], .graphicsCapture)]
  { capabilities := mapping.foldl (fun flags m => if m.1 then flags ||| m.2.value else flags) 0
    columns := c.screenColumns
    rows := c.screenRows
    adapter := if c.backend = "linux-terminal" then .linuxPty else .unknown
    maxFragmentPayload := 1024
    maxKeys := c.maxKeysPerRequest }

def screenCells (screen : TextScreen) : Bytes :=
  (screen.text.zip screen.attributes).flatMap fun (row, attributes) =>
    ((cp437EncodeReplace row).zip attributes).flatMap fun (character, value) => [character, value]

def screenMessage (screen : TextScreen) : ScreenMessage where
  columns := screen.columns
  rows := screen.rows
  videoMode := screen.videoMode.getD 0xFF
  activePage := screen.activePage
  cursorRow := screen.cursor.row
  cursorColumn := screen.cursor.column
  cursorStart := screen.cursor.startScanline.getD 0
  cursorEnd := screen.cursor.endScanline.getD 0
  adapter := match screen.adapter with
    | "MDA" => .mda
    | "CGA" => .cga
    | "EGA" => .ega
    | "VGA" => .vga
    | "linux-pty" => .linuxPty
    | _ => .unknown
  codePage := 437
  generation := (screen.generation % 0x10000).toNat
  cells := screenCells screen

def graphicsBeginMessage (graphics : GraphicsScreen) (transferId : Nat) : Except Exc GraphicsBeginResponse :=
  let adapter : Adapter := match graphics.adapter with
    | "MDA" => .mda
    | "CGA" => .cga
    | "EGA" => .ega
    | "VGA" => .vga
    | _ => .unknown
  let layout : Option GraphicsLayout := match graphics.layout with
    | "cga-2bpp-interleaved" => some .cga2bppInterleaved
    | "cga-1bpp-interleaved" => some .cga1bppInterleaved
    | "hercules-1bpp-interleaved" => some .hercules1bppInterleaved
    | "planar-4bpp" => some .planar4bpp
    | "planar-1bpp" => some .planar1bpp
    | "packed-8bpp" => some .packed8bpp
    | _ => none
  match layout with
  | none => .error .other
  | some layout => .ok
      { transferId := transferId, adapter := adapter, videoMode := graphics.videoMode, layout := layout,
        planes := graphics.planes, width := graphics.width, height := graphics.height,
        totalSize := graphics.data.length, bytesPerPlane := graphics.bytesPerPlane }

end DosMcp
