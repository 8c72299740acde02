/-
  DosMcp.Dos.Workspace — `process_request` of RA-TSR as it reads the request buffer and
  writes the screen buffer, byte by byte and in the order of the source.

  In the resident build the two buffers are one memory (`resident_workspace`); `Placement`
  leaves open where they are. A program takes the length of the payload and reads the
  payload from the request buffer when the source does; what it answers it leaves in the
  screen buffer. The calls of DOS are noted with their arguments. A handler returns the
  length of its answer, `none` where the source returns 0 (0xFFFF for `abort_transfer`).

  The buffers are the memory a program is run in; the `State` it passes along comes without
  its workspace.
-/

import DosMcp.Dos.Agent
import DosMcp.Lib.Access

namespace DosMcp.Dos

open Lib

/-- A call of DOS; paths as they are passed, handles as `transfer_handle` has them. -/
inductive DosCall where
  | open (path : Bytes)
  | creatnew (path : Bytes)
  | close (handle : Option Nat)
  | lseek (handle : Option Nat) (fromEnd : Bool)
  | read (handle : Option Nat) (count : UInt16)
  | write (handle : Option Nat) (data : Bytes)
  | remove (path : Bytes)
  | rename (old new : Bytes)
  deriving DecidableEq, Repr

namespace Workspace

open Access

abbrev Program := Access DosCall

/-! ## Words -/

def getU16 (i : Nat) : Program UInt16 := do
  let bytes ← load i 2
  pure (dmGetU16 bytes 0)

def getU32 (i : Nat) : Program UInt32 := do
  let bytes ← load i 4
  pure (dmGetU32 bytes 0)

def putU16 (i : Nat) (value : UInt16) : Program Unit := put i (dmPutU16 value)

def putU32 (i : Nat) (value : UInt32) : Program Unit := put i (dmPutU32 value)

/-! ## DOS -/

def dosOpen (path : Bytes) (store : Store) : Program (Option Nat × Store) := do
  log (.open path)
  pure (store.openFile (dosName path))

def dosCreatnew (path : Bytes) (store : Store) : Program (Option Nat × Store) := do
  log (.creatnew path)
  pure (store.create (dosName path))

def dosClose (handle : Option Nat) (store : Store) : Program Store := do
  log (.close handle)
  pure (store.close handle)

def lseekEnd (handle : Option Nat) (store : Store) : Program (Option Nat × Store) := do
  log (.lseek handle true)
  pure (store.seekEnd handle)

def lseekStart (handle : Option Nat) (store : Store) : Program (Bool × Store) := do
  log (.lseek handle false)
  pure (store.seekStart handle)

/-- `_dos_read` to the output from offset `i` on. A read that fails may leave bytes there
    too, the first of `spill`. -/
def dosRead (spill : Bytes) (handle : Option Nat) (i : Nat) (count : UInt16) (store : Store) :
    Program (Option Nat × Store) := do
  log (.read handle count)
  match store.read handle count.toNat with
  | (none, store) =>
    put i (spill.take count.toNat)
    pure (none, store)
  | (some bytes, store) =>
    put i bytes
    pure (some bytes.length, store)

/-- `_dos_write` from the payload at offset `i`. -/
def dosWrite (handle : Option Nat) (i : Nat) (count : UInt16) (store : Store) : Program (Bool × Nat × Store) := do
  let data ← load i count.toNat
  log (.write handle data)
  pure (store.write handle data)

def remove (path : Bytes) (store : Store) : Program (Bool × Store) := do
  log (.remove path)
  pure (store.remove (dosName path))

def rename (old new : Bytes) (store : Store) : Program (Bool × Store) := do
  log (.rename old new)
  pure (store.rename (dosName old) (dosName new))

/-! ## Paths and the temporary file -/

/-- `build_sandbox_path` of the `length` bytes of the payload at offset `i`. -/
def buildSandboxPath (c : Config) (i length : Nat) : Program (Option Bytes) :=
  if length = 0 ∨ length > 80 then pure none
  else do
    let value ← load i length
    pure (Dos.buildSandboxPath c value)

def closeTransfer (f : Files) (removeTemporary : Bool) : Program Files := do
  let store ← if f.transfer.handle.isSome then dosClose f.transfer.handle f.store else pure f.store
  let store ← if removeTemporary ∧ f.transfer.kind = .write then do
      let r ← remove f.transfer.temp store
      pure r.2
    else pure store
  pure { transfer := { f.transfer with handle := none, kind := .none }, store := store }

def tryTransferTemp (directory : Bytes) (id : UInt16) : Nat → Nat → Files → Program (Bool × Files)
  | _, 0, f => pure (false, { f with transfer := { f.transfer with temp := [] } })
  | attempt, fuel + 1, f =>
    let temp := directory ++ tempName id attempt
    let transfer := { f.transfer with temp := temp }
    if stricmpEqual temp f.transfer.path then
      tryTransferTemp directory id (attempt + 1) fuel { f with transfer := transfer }
    else do
      match ← dosCreatnew temp f.store with
      | (none, store) => tryTransferTemp directory id (attempt + 1) fuel ⟨transfer, store⟩
      | (some handle, store) => pure (true, ⟨{ transfer with handle := some handle }, store⟩)

def createTransferTemp (c : Config) (id : UInt16) (f : Files) : Program (Bool × Files) :=
  match tempPrefix c f with
  | none => pure (false, f)
  | some directory =>
    if directory.length + 12 > tsrPathMax + 1 then
      pure (false, { f with transfer := { f.transfer with temp := directory } })
    else tryTransferTemp directory id 0 16 f

/-! ## File reads -/

def beginFileRead (c : Config) (m : Machine) (f : Files) (length : Nat) : Program (Option Nat × Files) :=
  if ¬ c.allowFileRead ∨ f.transfer.kind ≠ .none ∨ length < 2 then pure (none, f)
  else do
    let pathLength ← byte 0
    if length ≠ pathLength.toNat + 1 then pure (none, f)
    else
      let pathLength ← byte 0
      match ← buildSandboxPath c 1 pathLength.toNat with
      | none => pure (none, f)
      | some path =>
        let t := { f.transfer with path := path }
        match ← dosOpen path f.store with
        | (none, store) => pure (none, ⟨t, store⟩)
        | (some handle, store) =>
          let t := { t with handle := some handle }
          match ← lseekEnd (some handle) store with
          | (none, store) =>
            let f ← closeTransfer ⟨t, store⟩ false
            pure (none, f)
          | (some size, store) =>
            if size > tsrFileMax.toNat then
              let f ← closeTransfer ⟨t, store⟩ false
              pure (none, f)
            else match ← lseekStart (some handle) store with
              | (false, store) =>
                let f ← closeTransfer ⟨t, store⟩ false
                pure (none, f)
              | (true, store) =>
                let id := nextTransferId m t.id
                putU16 0 id
                putU32 2 (.ofNat size)
                pure (some 6, ⟨{ t with kind := .read, size := .ofNat size, offset := 0, crc := 0, id := id }, store⟩)

/-- The checks that `read_transfer_block` and `read_graphics_block` share. -/
def blockRequest (t : Transfer) (kind : TransferKind) (length : Nat) : Program (Option UInt16) :=
  if t.kind ≠ kind ∨ length ≠ 8 then pure none
  else do
    let id ← getU16 0
    if id ≠ t.id then pure none
    else
      let offset ← getU32 2
      let requested ← getU16 6
      if offset ≠ t.offset ∨ requested = 0 ∨ requested > transferBlockMax ∨ offset ≥ t.size then pure none
      else pure (some (if requested.toUInt32 > t.size - offset then (t.size - offset).toUInt16 else requested))

/-- The end of both: the header before a block of `received` bytes. -/
def blockRead (t : Transfer) (received : Nat) : Program (Option Nat × Transfer) := do
  let block ← loadBack 12 received
  let crc := crc32Update t.crc block
  putU16 0 t.id
  putU32 2 t.offset
  putU16 6 (.ofNat received)
  putU32 8 crc
  pure (some (received + 12), { t with crc := crc, offset := t.offset + .ofNat received })

def readTransferBlock (spill : Bytes) (f : Files) (length : Nat) : Program (Option Nat × Files) := do
  match ← blockRequest f.transfer .read length with
  | none => pure (none, f)
  | some requested => match ← dosRead spill f.transfer.handle 12 requested f.store with
    | (none, store) => pure (none, { f with store := store })
    | (some received, store) =>
      if received = 0 then pure (none, { f with store := store })
      else
        let (reply, t) ← blockRead f.transfer received
        pure (reply, ⟨t, store⟩)

def endReadTransfer (f : Files) (length : Nat) : Program (Option Nat × Files) :=
  let t := f.transfer
  if (t.kind ≠ .read ∧ t.kind ≠ .graphics) ∨ length ≠ 2 then pure (none, f)
  else do
    let id ← getU16 0
    if id ≠ t.id ∨ t.offset ≠ t.size then pure (none, f)
    else
      putU32 0 t.size
      putU32 4 t.crc
      let f ← closeTransfer f false
      pure (some 8, f)

/-! ## Uploads -/

/-- `begin_file_write` after the destination was accepted. -/
def startFileWrite (c : Config) (m : Machine) (f : Files) (overwrite : UInt8) : Program (Option Nat × Files) := do
  let id := nextTransferId m f.transfer.id
  match ← createTransferTemp c id { f with transfer := { f.transfer with id := id } } with
  | (false, f) => pure (none, f)
  | (true, f) =>
    let size ← getU32 1
    let expectedCrc ← getU32 5
    putU16 0 id
    putU32 2 size
    pure (some 6,
      { f with transfer := { f.transfer with kind := .write, size := size, expectedCrc := expectedCrc, offset := 0,
                                             crc := 0, overwrite := overwrite } })

def beginFileWrite (c : Config) (m : Machine) (f : Files) (length : Nat) : Program (Option Nat × Files) :=
  if ¬ c.allowFileWrite ∨ f.transfer.kind ≠ .none ∨ length < 10 then pure (none, f)
  else do
    let overwrite ← byte 0
    let pathLength ← byte 9
    if overwrite > 1 ∨ length ≠ pathLength.toNat + 10 then pure (none, f)
    else
      let size ← getU32 1
      if size > tsrFileMax then pure (none, f)
      else match ← buildSandboxPath c 10 pathLength.toNat with
        | none => pure (none, f)
        | some path =>
          let f := { f with transfer := { f.transfer with path := path } }
          if overwrite ≠ 0 then startFileWrite c m f overwrite
          else match ← dosOpen path f.store with
            | (some existing, store) =>
              let store ← dosClose (some existing) store
              pure (none, { f with store := store })
            | (none, store) => startFileWrite c m { f with store := store } overwrite

def writeTransferBlock (f : Files) (length : Nat) : Program (Option Nat × Files) :=
  let t := f.transfer
  if t.kind ≠ .write ∨ length < 8 then pure (none, f)
  else do
    let id ← getU16 0
    if id ≠ t.id then pure (none, f)
    else
      let offset ← getU32 2
      let blockLength ← getU16 6
      if blockLength = 0 ∨ blockLength > transferBlockMax ∨ length ≠ blockLength.toNat + 8 ∨ offset ≠ t.offset ∨
          offset + blockLength.toUInt32 > t.size then pure (none, f)
      else match ← dosWrite t.handle 8 blockLength f.store with
        | (ok, written, store) =>
          if ¬ ok ∨ written ≠ blockLength.toNat then pure (none, { f with store := store })
          else
            -- the block is read a second time, for its CRC
            let block ← load 8 blockLength.toNat
            let crc := crc32Update t.crc block
            putU16 0 t.id
            putU32 2 offset
            putU16 6 0
            putU32 8 crc
            pure (some 12, ⟨{ t with crc := crc, offset := t.offset + blockLength.toUInt32 }, store⟩)

/-- `commit_file_write` from the `rename` on. -/
def renameOntoPath (f : Files) : Program (Option Nat × Files) := do
  let t := f.transfer
  match ← rename t.temp t.path f.store with
  | (false, store) =>
    let f ← closeTransfer { f with store := store } true
    pure (none, f)
  | (true, store) =>
    putU32 0 t.size
    putU32 4 t.crc
    pure (some 8, ⟨{ t with kind := .none }, store⟩)

def commitFileWrite (f : Files) (length : Nat) : Program (Option Nat × Files) :=
  let t := f.transfer
  if t.kind ≠ .write ∨ length ≠ 2 then pure (none, f)
  else do
    let id ← getU16 0
    if id ≠ t.id ∨ t.offset ≠ t.size ∨ t.crc ≠ t.expectedCrc then pure (none, f)
    else
      let store ← dosClose t.handle f.store
      let f : Files := ⟨{ t with handle := none }, store⟩
      match ← dosOpen t.path f.store with
      | (none, store) => renameOntoPath { f with store := store }
      | (some existing, store) =>
        let store ← dosClose (some existing) store
        let f := { f with store := store }
        if t.overwrite = 0 then
          let f ← closeTransfer f true
          pure (none, f)
        else match ← remove t.path f.store with
          | (false, store) =>
            let f ← closeTransfer { f with store := store } true
            pure (none, f)
          | (true, store) => renameOntoPath { f with store := store }

def abortTransfer (f : Files) (length : Nat) : Program (Option Nat × Files) :=
  if length ≠ 2 ∨ f.transfer.kind = .none then pure (none, f)
  else do
    let id ← getU16 0
    if id ≠ f.transfer.id then pure (none, f)
    else
      let f ← closeTransfer f true
      pure (some 0, f)

/-! ## Graphics captures -/

/-- `begin_graphics`: it reads no payload, and its answer is written in one piece. -/
def beginGraphics (c : Config) (m : Machine) (f : Files) : Program (Option Nat × Files) :=
  match Dos.beginGraphics c m f with
  | (none, f) => pure (none, f)
  | (some bytes, f) => do
    put 0 bytes
    pure (some bytes.length, f)

/-- The loop of `read_graphics_block`, `index` bytes in. -/
def graphicsBytes (g : Graphics) : Nat → Nat → UInt32 → Machine → Program Machine
  | _, 0, _, m => pure m
  | index, n + 1, position, m => do
    let (value, m) := graphicsByte g m position
    put (12 + index) [value]
    graphicsBytes g (index + 1) n (position + 1) m

/-- The loop between saving and restoring the read-map register. -/
def captureBlock (g : Graphics) (m : Machine) (offset : UInt32) (requested : UInt16) : Program Machine :=
  if g.planar then do
    let oldIndex := m.inp 0x3CE
    let m := m.outp 0x3CE 4
    let oldPlane := m.inp 0x3CF
    let m ← graphicsBytes g 0 requested.toNat offset m
    pure (((m.outp 0x3CE 4).outp 0x3CF oldPlane).outp 0x3CE oldIndex)
  else graphicsBytes g 0 requested.toNat offset m

def readGraphicsBlock (m : Machine) (f : Files) (length : Nat) : Program (Option Nat × Files × Machine) := do
  match ← blockRequest f.transfer .graphics length with
  | none => pure (none, f, m)
  | some requested =>
    let m ← captureBlock f.transfer.graphics m f.transfer.offset requested
    let (reply, t) ← blockRead f.transfer requested.toNat
    pure (reply, { f with transfer := t }, m)

/-! ## Keyboard -/

/-- A loop of `inject_keys` over the `n` bytes of the payload at offset `i`: a byte that is no
    word, or a word that is not queued, ends it. -/
def queueBytes (word : UInt8 → Option UInt16) : Nat → Nat → Machine → Program (Nat × Machine)
  | _, 0, m => pure (0, m)
  | i, n + 1, m => do
    let value ← byte i
    match (word value).bind m.biosQueueWord with
    | none => pure (0, m)
    | some m =>
      let (accepted, m) ← queueBytes word (i + 1) n m
      pure (accepted + 1, m)

def textWord (ascii : UInt8) : UInt16 := ((asciiScan ascii).toUInt16 <<< 8) ||| ascii.toUInt16

/-- The word of a named key; none for one that has no word. -/
def keyWord (key : UInt8) : Option UInt16 := if namedKeyWord key = 0 then none else some (namedKeyWord key)

def injectKeys (s : State) (length : Nat) : Program (Option Nat × State) :=
  if length < 5 then pure (none, s)
  else do
    let textLength ← getU16 0
    let keyCount ← byte 2
    let interKeyDelay ← getU16 3
    if textLength.toNat > 4096 ∨ keyCount.toNat > 128 ∨ interKeyDelay > 1000 ∨
        length ≠ 5 + textLength.toNat + keyCount.toNat then pure (none, s)
    else
      let (acceptedText, m) ← queueBytes (some ∘ textWord) 5 textLength.toNat s.machine
      let (acceptedKeys, m) ← queueBytes keyWord (5 + textLength.toNat) keyCount.toNat m
      let generation := s.keyGeneration + 1
      putU16 0 (.ofNat acceptedText)
      put 2 [.ofNat acceptedKeys]
      putU16 3 generation
      pure (some 5, { s with machine := m, keyGeneration := generation })

/-! ## Operations -/

/-- An error to answer with, or the length of the answer in the screen buffer. -/
abbrev Answer := Except (UInt16 × String) Nat

/-- An answer that reads no payload. -/
def writeAnswer (bytes : Bytes) (s : State) : Program (Answer × State) := do
  put 0 bytes
  pure (.ok bytes.length, s)

def withoutPayload (length : Nat) (message : String) (s : State) (run : Program (Answer × State)) :
    Program (Answer × State) :=
  if length ≠ 0 then pure (.error (6, message), s) else run

/-- A transfer operation that leaves the machine alone. -/
def onFiles (m : Machine) (handler : Program (Option Nat × Files)) : Program (Option Nat × Files × Machine) := do
  let (reply, f) ← handler
  pure (reply, f, m)

def runTransfer (spill : Bytes) (c : Config) (m : Machine) (f : Files) (length : Nat) :
    TransferOp → Program (Option Nat × Files × Machine)
  | .fileReadBegin => onFiles m (beginFileRead c m f length)
  | .fileReadBlock => onFiles m (readTransferBlock spill f length)
  | .fileReadEnd => onFiles m (endReadTransfer f length)
  | .fileWriteBegin => onFiles m (beginFileWrite c m f length)
  | .fileWriteBlock => onFiles m (writeTransferBlock f length)
  | .fileWriteCommit => onFiles m (commitFileWrite f length)
  | .fileAbort => onFiles m (abortTransfer f length)
  | .graphicsBegin => onFiles m (if length ≠ 0 then pure (none, f) else beginGraphics c m f)
  | .graphicsBlock => readGraphicsBlock m f length
  | .graphicsEnd => onFiles m (endReadTransfer f length)

def operateTransfer (spill : Bytes) (c : Config) (s : State) (op : TransferOp) (length : Nat) :
    Program (Answer × State) := do
  let (reply, f, m) ← runTransfer spill c s.machine s.files length op
  let s := { s with files := f, machine := m }
  match reply with
  | none => pure (.error op.failure, s)
  | some n => pure (.ok n, s)

/-- The test for a key request without text and keys. -/
def emptyKeys (length : Nat) : Program Bool :=
  if length ≠ 5 then pure false
  else do
    let textLength ← getU16 0
    if textLength ≠ 0 then pure false
    else
      let keyCount ← byte 2
      pure (keyCount = 0)

def operateKeys (s : State) (length : Nat) : Program (Answer × State) := do
  if ← emptyKeys length then
    putU16 0 0
    put 2 [0]
    putU16 3 0
    pure (.ok 5, s)
  else match ← injectKeys s length with
    | (none, s) => pure (.error (6, "invalid key request"), s)
    | (some n, s) => pure (.ok n, s)

/-- The switch of `process_request`. -/
def operate (spill : Bytes) (c : Config) (s : State) (opcode : UInt8) (length : Nat) : Program (Answer × State) :=
  match opcode.toNat with
  | 2 => withoutPayload length "status payload must be empty" s (writeAnswer (buildStatus .ratsr c s.machine) s)
  | 3 => withoutPayload length "capability payload must be empty" s (writeAnswer (buildCapabilities .ratsr c s.machine) s)
  | 4 => withoutPayload length "screen payload must be empty" s <|
    let (n, s) := prepareTextCapture c s
    pure (.ok n, s)
  | 5 => operateKeys s length
  | 6 => if length > screenBufferSize then pure (.error (6, "ping payload too large"), s)
    else do
      copy 0 length
      pure (.ok length, s)
  | 18 => withoutPayload length "diagnostic payload must be empty" s (writeAnswer (buildDiagnostics s) s)
  | _ => match TransferOp.ofOpcode opcode with
    | some op => operateTransfer spill c s op length
    | none => pure (.error (5, "unsupported operation"), s)

/-- `send_response`: a payload that is not in the screen buffer is copied there. -/
def sendResponse (s : State) (kind opcode : UInt8) (id : UInt16) (source : Source) : Program State :=
  if (responseFragmentCount .ratsr source.length).toNat > Build.ratsr.maxFragments then pure s
  else do
    match source with
    | .screen _ => pure ()
    | .array bytes => put 0 bytes
    pure (Dos.sendResponse .ratsr s kind opcode id (.screen source.length))

def sendError (s : State) (opcode : UInt8) (id code : UInt16) (message : String) : Program State :=
  sendResponse s dmKindError opcode id (.array (dmPutU16 code ++ (messageBytes message).take 120))

def processRequest (spill : Bytes) (c : Config) (s : State) (opcode : UInt8) (id : UInt16) (length : Nat) :
    Program State := do
  match ← operate spill c s opcode length with
  | (.error (code, message), s) => sendError s opcode id code message
  | (.ok n, s) => sendResponse s dmKindResponse opcode id (.screen n)

end Workspace

/-! ## In memory -/

/-- `process_request` with its buffers placed in the workspace, the payload in the request
    buffer: the state it leaves, and the calls of DOS it made. -/
def processRequestAt (p : Placement) (spill : Bytes) (c : Config) (s : State) (opcode : UInt8) (id : UInt16)
    (length : Nat) : State × List DosCall :=
  let payload := s.workspace.load p.input length
  let started := { s with workspace := fun _ => 0, requests := s.requests ++ [⟨opcode, id, payload⟩] }
  let r := (Workspace.processRequest spill c started opcode id length).run p s.workspace
  ({ r.1 with workspace := r.2.2 }, r.2.1)

/-- The `resident_workspace` union. -/
def residentWorkspace : Placement := ⟨0, Build.ratsr.screenBase⟩

/-- The payload of the response that is sent: the bytes in the screen buffer; under the opcode
    of a text screen, what `fill_text_capture_fragment` puts there. -/
def State.replyPayload (p : Placement) (s : State) : Bytes :=
  let n := s.session.responsePayloadLength
  if s.session.responseOpcode = 4 then fillTextCaptureFragment s.textCapture s.machine 0 n
  else s.workspace.load p.output n

end DosMcp.Dos
