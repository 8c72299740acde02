/-
  DosMcp.Dos.Transfer — the transfer operations of RA-TSR (`ragent.c`): file paths, the
  temporary file, file reads, uploads and graphics captures, over the DOS file calls.

  `Files` is the transfer's statics together with the files they act on. An operation
  takes the request payload and returns the reply, `none` where the source returns 0
  (0xFFFF for `abort_transfer`), with the new `Files`. DOS names files without regard to
  case and takes both slashes (`dosName`); what each DOS call returns is drawn by the
  store. A C string is its bytes before the NUL.
-/

import DosMcp.Dos.Machine
import DosMcp.Lib.Files
import Mathlib.Logic.Function.Iterate

namespace DosMcp.Dos

open Lib

/-- `TRANSFER_*`. -/
inductive TransferKind where
  | none
  | read
  | write
  | graphics
  deriving DecidableEq, Repr

/-- `LAYOUT_*`. -/
inductive Layout where
  | cga2bpp
  | cga1bpp
  | hercules
  | planar4bpp
  | planar1bpp
  | packed8bpp
  deriving DecidableEq, Repr

def Layout.code : Layout → UInt8
  | .cga2bpp => 1
  | .cga1bpp => 2
  | .hercules => 3
  | .planar4bpp => 4
  | .planar1bpp => 5
  | .packed8bpp => 6

def Layout.planar (l : Layout) : Bool := l = .planar4bpp ∨ l = .planar1bpp

/-- The `graphics_*` statics; no layout before the first capture. -/
structure Graphics where
  layout : Option Layout
  planes : UInt8
  width : UInt16
  height : UInt16
  bytesPerPlane : UInt32
  mode : UInt8
  deriving DecidableEq, Repr

/-- The `transfer_*` statics; `handle` is `none` for -1. -/
structure Transfer where
  kind : TransferKind
  id : UInt16
  handle : Option Nat
  size : UInt32
  offset : UInt32
  crc : UInt32
  expectedCrc : UInt32
  overwrite : UInt8
  path : Bytes
  temp : Bytes
  graphics : Graphics
  deriving DecidableEq, Repr

structure Files where
  transfer : Transfer
  store : Store

/-- The statics as the program starts. -/
def Transfer.start : Transfer where
  kind := .none
  id := 0
  handle := none
  size := 0
  offset := 0
  crc := 0
  expectedCrc := 0
  overwrite := 0
  path := []
  temp := []
  graphics := ⟨none, 0, 0, 0, 0, 0⟩

def transferBlockMax : UInt16 := 900
def tsrFileMax : UInt32 := 1048576
def tsrPathMax : Nat := 127

/-! ## CRC-32 -/

def crc32UpdateBit (crc : UInt32) : UInt32 := (crc >>> 1) ^^^ (if crc &&& 1 ≠ 0 then 0xEDB88320 else 0)

def crc32UpdateByte (crc : UInt32) (value : UInt8) : UInt32 := crc32UpdateBit^[8] (crc ^^^ value.toUInt32)

def crc32Update (crc : UInt32) (data : Bytes) : UInt32 := data.foldl crc32UpdateByte (crc ^^^ 0xFFFFFFFF) ^^^ 0xFFFFFFFF

/-! ## Paths -/

def slash : UInt8 := 0x2F
def backslash : UInt8 := 0x5C

def isSeparator (value : UInt8) : Bool := value = backslash ∨ value = slash

/-- The C string at a buffer: its bytes up to the NUL. -/
def cString (bs : Bytes) : Bytes := bs.takeWhile (· ≠ 0)

/-- The characters `":*+,;<=>?[|]`. -/
def reservedCharacters : Bytes := [0x22, 0x3A, 0x2A, 0x2B, 0x2C, 0x3B, 0x3C, 0x3D, 0x3E, 0x3F, 0x5B, 0x7C, 0x5D]

def safeComponent (component : Bytes) : Bool := component ≠ [] ∧ component ≠ [0x2E] ∧ component ≠ [0x2E, 0x2E]

/-- The loop of `safe_relative_path` with the current component read so far. -/
def safeComponents (component : Bytes) : Bytes → Bool
  | [] => safeComponent component
  | value :: rest =>
    if isSeparator value then safeComponent component && safeComponents [] rest
    else if value < 32 ∨ value ∈ reservedCharacters ∨ component.length + 1 > 12 then false
    else safeComponents (component ++ [value]) rest

def safeRelativePath (path : Bytes) : Bool :=
  path ≠ [] ∧ byteAt path 0 ≠ backslash ∧ byteAt path 0 ≠ slash ∧ 0x3A ∉ path ∧ safeComponents [] path

def safeAbsolutePath (path : Bytes) : Bool :=
  let drive := byteAt path 0
  ((0x41 ≤ drive ∧ drive ≤ 0x5A) ∨ (0x61 ≤ drive ∧ drive ≤ 0x7A)) ∧ byteAt path 1 = 0x3A ∧ isSeparator (byteAt path 2) ∧
    byteAt path 3 ≠ 0 ∧ safeRelativePath (path.drop 3)

/-- A directory with a separator at its end, as the paths under it start. -/
def directoryPrefix (directory : Bytes) : Bytes :=
  match directory.getLast? with
  | none => directory
  | some last => if isSeparator last then directory else directory ++ [backslash]

def buildSandboxPath (c : Config) (value : Bytes) : Option Bytes :=
  if value.length = 0 ∨ value.length > 80 then none
  else
    let relative := cString value
    if c.unrestrictedFilesystem then
      if safeAbsolutePath relative then some relative else none
    else if c.sandboxRoot.length + 1 + value.length > tsrPathMax then none
    else if safeRelativePath relative then some (directoryPrefix c.sandboxRoot ++ relative)
    else none

def lowerByte (value : UInt8) : UInt8 := if 0x41 ≤ value ∧ value ≤ 0x5A then value + 0x20 else value

/-- `stricmp(a, b) == 0`. -/
def stricmpEqual (a b : Bytes) : Bool := a.map lowerByte = b.map lowerByte

def nameByte (value : UInt8) : UInt8 :=
  if 0x61 ≤ value ∧ value ≤ 0x7A then value - 0x20 else if value = slash then backslash else value

/-- The name DOS finds a path under. -/
def dosName (path : Bytes) : Bytes := path.map nameByte

/-! ## The temporary file -/

def closeTransfer (f : Files) (removeTemporary : Bool) : Files :=
  let store := if f.transfer.handle.isSome then f.store.close f.transfer.handle else f.store
  let store := if removeTemporary ∧ f.transfer.kind = .write then (store.remove (dosName f.transfer.temp)).2 else store
  { transfer := { f.transfer with handle := none, kind := .none }, store := store }

/-- One digit of `%X`. -/
def hexDigit (n : Nat) : UInt8 := if n < 10 then UInt8.ofNat (0x30 + n) else UInt8.ofNat (0x41 + (n - 10))

/-- `sprintf("DM%04X%X.TMP", id, attempt)`. -/
def tempName (id : UInt16) (attempt : Nat) : Bytes :=
  let n := id.toNat
  [0x44, 0x4D, hexDigit (n / 4096), hexDigit (n / 256 % 16), hexDigit (n / 16 % 16), hexDigit (n % 16), hexDigit attempt,
    0x2E, 0x54, 0x4D, 0x50]

/-- `path` up to and with its last separator, if it has one. -/
def parentPrefix (path : Bytes) : Option Bytes :=
  match (path.reverse.dropWhile (!isSeparator ·)).reverse with
  | [] => none
  | parent => some parent

def tempPrefix (c : Config) (f : Files) : Option Bytes :=
  if c.unrestrictedFilesystem then parentPrefix f.transfer.path else some (directoryPrefix c.sandboxRoot)

/-- The attempts from `attempt` on, `fuel` of them. -/
def tryTransferTemp (directory : Bytes) (id : UInt16) : Nat → Nat → Files → Bool × Files
  | _, 0, f => (false, { f with transfer := { f.transfer with temp := [] } })
  | attempt, fuel + 1, f =>
    let temp := directory ++ tempName id attempt
    let transfer := { f.transfer with temp := temp }
    if stricmpEqual temp f.transfer.path then
      tryTransferTemp directory id (attempt + 1) fuel { f with transfer := transfer }
    else match f.store.create (dosName temp) with
      | (none, store) => tryTransferTemp directory id (attempt + 1) fuel ⟨transfer, store⟩
      | (some handle, store) => (true, ⟨{ transfer with handle := some handle }, store⟩)

def createTransferTemp (c : Config) (id : UInt16) (f : Files) : Bool × Files :=
  match tempPrefix c f with
  | none => (false, f)
  | some directory =>
    if directory.length + 12 > tsrPathMax + 1 then
      (false, { f with transfer := { f.transfer with temp := directory } })
    else tryTransferTemp directory id 0 16 f

def nextTransferId (m : Machine) (id : UInt16) : UInt16 :=
  let value := m.readBiosTicks.toUInt16 ^^^ (id + 1)
  if value = 0 then 1 else value

/-! ## File reads -/

def beginFileRead (c : Config) (m : Machine) (f : Files) (payload : Bytes) : Option Bytes × Files :=
  if ¬ c.allowFileRead ∨ f.transfer.kind ≠ .none ∨ payload.length < 2 ∨
      payload.length ≠ (byteAt payload 0).toNat + 1 then (none, f)
  else match buildSandboxPath c (payload.drop 1) with
    | none => (none, f)
    | some path =>
      let t := { f.transfer with path := path }
      match f.store.openFile (dosName path) with
      | (none, store) => (none, ⟨t, store⟩)
      | (some handle, store) =>
        let t := { t with handle := some handle }
        match store.seekEnd (some handle) with
        | (none, store) => (none, closeTransfer ⟨t, store⟩ false)
        | (some size, store) =>
          if size > tsrFileMax.toNat then (none, closeTransfer ⟨t, store⟩ false)
          else match store.seekStart (some handle) with
            | (false, store) => (none, closeTransfer ⟨t, store⟩ false)
            | (true, store) =>
              let id := nextTransferId m t.id
              (some (dmPutU16 id ++ dmPutU32 (.ofNat size)),
                ⟨{ t with kind := .read, size := .ofNat size, offset := 0, crc := 0, id := id }, store⟩)

/-- The checks that `read_transfer_block` and `read_graphics_block` share: the length to
    read at the transfer's offset. -/
def blockRequest (t : Transfer) (kind : TransferKind) (payload : Bytes) : Option UInt16 :=
  if t.kind ≠ kind ∨ payload.length ≠ 8 ∨ dmGetU16 payload 0 ≠ t.id then none
  else
    let offset := dmGetU32 payload 2
    let requested := dmGetU16 payload 6
    if offset ≠ t.offset ∨ requested = 0 ∨ requested > transferBlockMax ∨ offset ≥ t.size then none
    else some (if requested.toUInt32 > t.size - offset then (t.size - offset).toUInt16 else requested)

/-- The reply to a block that was read, and the transfer after it. -/
def blockRead (t : Transfer) (bytes : Bytes) : Bytes × Transfer :=
  let crc := crc32Update t.crc bytes
  (dmPutU16 t.id ++ dmPutU32 t.offset ++ dmPutU16 (.ofNat bytes.length) ++ dmPutU32 crc ++ bytes,
    { t with crc := crc, offset := t.offset + .ofNat bytes.length })

def readTransferBlock (f : Files) (payload : Bytes) : Option Bytes × Files :=
  match blockRequest f.transfer .read payload with
  | none => (none, f)
  | some requested => match f.store.read f.transfer.handle requested.toNat with
    | (none, store) => (none, { f with store := store })
    | (some bytes, store) =>
      if bytes = [] then (none, { f with store := store })
      else
        let (reply, t) := blockRead f.transfer bytes
        (some reply, ⟨t, store⟩)

def endReadTransfer (f : Files) (payload : Bytes) : Option Bytes × Files :=
  let t := f.transfer
  if (t.kind ≠ .read ∧ t.kind ≠ .graphics) ∨ payload.length ≠ 2 ∨ dmGetU16 payload 0 ≠ t.id ∨ t.offset ≠ t.size then
    (none, f)
  else (some (dmPutU32 t.size ++ dmPutU32 t.crc), closeTransfer f false)

/-! ## Uploads -/

/-- `begin_file_write` after the destination was accepted. -/
def startFileWrite (c : Config) (m : Machine) (f : Files) (payload : Bytes) : Option Bytes × Files :=
  let id := nextTransferId m f.transfer.id
  match createTransferTemp c id { f with transfer := { f.transfer with id := id } } with
  | (false, f) => (none, f)
  | (true, f) =>
    let size := dmGetU32 payload 1
    (some (dmPutU16 id ++ dmPutU32 size),
      { f with transfer := { f.transfer with kind := .write, size := size, expectedCrc := dmGetU32 payload 5, offset := 0,
                                             crc := 0, overwrite := byteAt payload 0 } })

def beginFileWrite (c : Config) (m : Machine) (f : Files) (payload : Bytes) : Option Bytes × Files :=
  if ¬ c.allowFileWrite ∨ f.transfer.kind ≠ .none ∨ payload.length < 10 then (none, f)
  else if byteAt payload 0 > 1 ∨ payload.length ≠ (byteAt payload 9).toNat + 10 ∨ dmGetU32 payload 1 > tsrFileMax then
    (none, f)
  else match buildSandboxPath c (payload.drop 10) with
    | none => (none, f)
    | some path =>
      let f := { f with transfer := { f.transfer with path := path } }
      if byteAt payload 0 ≠ 0 then startFileWrite c m f payload
      else match f.store.openFile (dosName path) with
        | (some existing, store) => (none, { f with store := store.close (some existing) })
        | (none, store) => startFileWrite c m { f with store := store } payload

def writeTransferBlock (f : Files) (payload : Bytes) : Option Bytes × Files :=
  let t := f.transfer
  if t.kind ≠ .write ∨ payload.length < 8 ∨ dmGetU16 payload 0 ≠ t.id then (none, f)
  else
    let offset := dmGetU32 payload 2
    let blockLength := dmGetU16 payload 6
    if blockLength = 0 ∨ blockLength > transferBlockMax ∨ payload.length ≠ blockLength.toNat + 8 ∨ offset ≠ t.offset ∨
        offset + blockLength.toUInt32 > t.size then (none, f)
    else match f.store.write t.handle (payload.drop 8) with
      | (ok, written, store) =>
        if ¬ ok ∨ written ≠ blockLength.toNat then (none, { f with store := store })
        else
          let crc := crc32Update t.crc (payload.drop 8)
          (some (dmPutU16 t.id ++ dmPutU32 offset ++ dmPutU16 0 ++ dmPutU32 crc),
            ⟨{ t with crc := crc, offset := t.offset + blockLength.toUInt32 }, store⟩)

/-- `commit_file_write` from the `rename` on. -/
def renameOntoPath (f : Files) : Option Bytes × Files :=
  let t := f.transfer
  match f.store.rename (dosName t.temp) (dosName t.path) with
  | (false, store) => (none, closeTransfer { f with store := store } true)
  | (true, store) => (some (dmPutU32 t.size ++ dmPutU32 t.crc), ⟨{ t with kind := .none }, store⟩)

def commitFileWrite (f : Files) (payload : Bytes) : Option Bytes × Files :=
  let t := f.transfer
  if t.kind ≠ .write ∨ payload.length ≠ 2 ∨ dmGetU16 payload 0 ≠ t.id ∨ t.offset ≠ t.size ∨ t.crc ≠ t.expectedCrc then
    (none, f)
  else
    let f : Files := ⟨{ t with handle := none }, f.store.close t.handle⟩
    match f.store.openFile (dosName t.path) with
    | (none, store) => renameOntoPath { f with store := store }
    | (some existing, store) =>
      let f := { f with store := store.close (some existing) }
      if t.overwrite = 0 then (none, closeTransfer f true)
      else match f.store.remove (dosName t.path) with
        | (false, store) => (none, closeTransfer { f with store := store } true)
        | (true, store) => renameOntoPath { f with store := store }

def abortTransfer (f : Files) (payload : Bytes) : Option Bytes × Files :=
  if payload.length ≠ 2 ∨ f.transfer.kind = .none ∨ dmGetU16 payload 0 ≠ f.transfer.id then (none, f)
  else (some [], closeTransfer f true)

/-! ## Graphics captures -/

/-- The video modes of `graphics_info`: layout, planes, width, height, bytes a plane. -/
def graphicsMode (m : Machine) (mode : UInt8) : Option (Layout × UInt8 × UInt16 × UInt16 × UInt32) :=
  match mode.toNat with
  | 4 | 5 => some (.cga2bpp, 1, 320, 200, 16384)
  | 6 => some (.cga1bpp, 1, 640, 200, 16384)
  | 7 => if m.inp 0x3B8 &&& 2 = 0 then none else some (.hercules, 1, 720, 348, 32768)
  | 0x0D => some (.planar4bpp, 4, 320, 200, 8000)
  | 0x0E => some (.planar4bpp, 4, 640, 200, 16000)
  | 0x0F => some (.planar1bpp, 1, 640, 350, 28000)
  | 0x10 => some (.planar4bpp, 4, 640, 350, 28000)
  | 0x11 => some (.planar1bpp, 1, 640, 480, 38400)
  | 0x12 => some (.planar4bpp, 4, 640, 480, 38400)
  | 0x13 => some (.packed8bpp, 1, 320, 200, 64000)
  | _ => none

def graphicsInfo (m : Machine) (g : Graphics) : Bool × Graphics :=
  let g := { g with mode := m.videoMode, planes := 1 }
  match graphicsMode m m.videoMode with
  | none => (false, g)
  | some (layout, planes, width, height, bytesPerPlane) =>
    (true, ⟨some layout, planes, width, height, bytesPerPlane, g.mode⟩)

def beginGraphics (c : Config) (m : Machine) (f : Files) : Option Bytes × Files :=
  if f.transfer.kind ≠ .none then (none, f)
  else match graphicsInfo m f.transfer.graphics with
    | (false, g) => (none, { f with transfer := { f.transfer with graphics := g } })
    | (true, g) =>
      let size := g.bytesPerPlane * g.planes.toUInt32
      let id := nextTransferId m f.transfer.id
      let layout := (g.layout.map Layout.code).getD 0
      (some (dmPutU16 id ++ [c.cachedAdapter, g.mode, layout, g.planes] ++ dmPutU16 g.width ++ dmPutU16 g.height ++
          dmPutU32 size ++ dmPutU32 g.bytesPerPlane),
        { f with transfer := { f.transfer with graphics := g, kind := .graphics, offset := 0, crc := 0, size := size,
                                               id := id } })

def Graphics.planar (g : Graphics) : Bool := (g.layout.map Layout.planar).getD false

/-- The byte of the captured screen at `position`, and the machine after reading it. -/
def graphicsByte (g : Graphics) (m : Machine) (position : UInt32) : UInt8 × Machine :=
  if g.planar then
    let m := (m.outp 0x3CE 4).outp 0x3CF (position / g.bytesPerPlane).toUInt8
    (m.peek 0xA000 (position % g.bytesPerPlane).toUInt16, m)
  else
    let segment := if g.layout = some .packed8bpp then 0xA000 else if g.layout = some .hercules then 0xB000 else 0xB800
    (m.peek segment position.toUInt16, m)

/-- The loop of `read_graphics_block`. -/
def graphicsBytes (g : Graphics) : Nat → UInt32 → Machine → Bytes × Machine
  | 0, _, m => ([], m)
  | n + 1, position, m =>
    let (value, m) := graphicsByte g m position
    let (rest, m) := graphicsBytes g n (position + 1) m
    (value :: rest, m)

/-- The loop between saving and restoring the read-map register. -/
def captureBlock (g : Graphics) (m : Machine) (offset : UInt32) (requested : UInt16) : Bytes × Machine :=
  if g.planar then
    let oldIndex := m.inp 0x3CE
    let m := m.outp 0x3CE 4
    let oldPlane := m.inp 0x3CF
    let (bytes, m) := graphicsBytes g requested.toNat offset m
    (bytes, ((m.outp 0x3CE 4).outp 0x3CF oldPlane).outp 0x3CE oldIndex)
  else graphicsBytes g requested.toNat offset m

def readGraphicsBlock (m : Machine) (f : Files) (payload : Bytes) : Option Bytes × Files × Machine :=
  match blockRequest f.transfer .graphics payload with
  | none => (none, f, m)
  | some requested =>
    let (bytes, m) := captureBlock f.transfer.graphics m f.transfer.offset requested
    let (reply, t) := blockRead f.transfer bytes
    (some reply, { f with transfer := t }, m)

/-! ## The operations -/

/-- The transfer branches of `process_request`. -/
inductive TransferOp where
  | fileReadBegin
  | fileReadBlock
  | fileReadEnd
  | fileWriteBegin
  | fileWriteBlock
  | fileWriteCommit
  | fileAbort
  | graphicsBegin
  | graphicsBlock
  | graphicsEnd
  deriving DecidableEq, Repr

/-- `DM_OP_FILE_READ_BEGIN` to `DM_OP_GRAPHICS_END`. -/
def TransferOp.ofOpcode (opcode : UInt8) : Option TransferOp :=
  match opcode.toNat with
  | 8 => some .fileReadBegin
  | 9 => some .fileReadBlock
  | 10 => some .fileReadEnd
  | 11 => some .fileWriteBegin
  | 12 => some .fileWriteBlock
  | 13 => some .fileWriteCommit
  | 14 => some .fileAbort
  | 15 => some .graphicsBegin
  | 16 => some .graphicsBlock
  | 17 => some .graphicsEnd
  | _ => none

/-- The code and text of the error an operation that fails is answered with. -/
def TransferOp.failure : TransferOp → UInt16 × String
  | .fileReadBegin => (6, "file read denied or invalid")
  | .fileReadBlock => (6, "invalid read block")
  | .fileReadEnd => (6, "incomplete read transfer")
  | .fileWriteBegin => (7, "file write denied or invalid")
  | .fileWriteBlock => (6, "invalid write block")
  | .fileWriteCommit => (11, "upload integrity or commit failed")
  | .fileAbort => (6, "invalid transfer")
  | .graphicsBegin => (5, "unsupported graphics mode")
  | .graphicsBlock => (6, "invalid graphics block")
  | .graphicsEnd => (6, "incomplete graphics transfer")

/-- What an operation leaves: its reply, the files and the machine. -/
structure TransferResult where
  reply : Option Bytes
  files : Files
  machine : Machine

def TransferOp.run (op : TransferOp) (c : Config) (m : Machine) (f : Files) (payload : Bytes) : TransferResult :=
  let onFiles := fun (r : Option Bytes × Files) => (⟨r.1, r.2, m⟩ : TransferResult)
  match op with
  | .fileReadBegin => onFiles (beginFileRead c m f payload)
  | .fileReadBlock => onFiles (readTransferBlock f payload)
  | .fileReadEnd => onFiles (endReadTransfer f payload)
  | .fileWriteBegin => onFiles (beginFileWrite c m f payload)
  | .fileWriteBlock => onFiles (writeTransferBlock f payload)
  | .fileWriteCommit => onFiles (commitFileWrite f payload)
  | .fileAbort => onFiles (abortTransfer f payload)
  | .graphicsBegin => onFiles (if payload.length ≠ 0 then (none, f) else beginGraphics c m f)
  | .graphicsBlock =>
    let r := readGraphicsBlock m f payload
    ⟨r.1, r.2.1, r.2.2⟩
  | .graphicsEnd => onFiles (endReadTransfer f payload)

end DosMcp.Dos
