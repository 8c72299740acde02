/-
  DosMcp.Protocol.Constants — the wire constants of protocol version 2
  (`protocol/constants.py`) and the exceptions the Python side raises.

  Every enumeration is an inductive type with its wire value (`value`) and the
  enumeration's constructor call (`ofValue?`), which fails on an unknown value as
  `IntEnum` does.
-/

import DosMcp.Lib.Bytes
import Mathlib.Tactic.IntervalCases

namespace DosMcp

open Lib

/-- `MAGIC = b"DM"`. -/
def magic : Bytes := [0x44, 0x4D]

def version : Nat := 2
def maxDatagram : Nat := 1200
def maxFragmentPayload : Nat := 1024
def maxFragments : Nat := 32
def maxMessageSize : Nat := maxFragmentPayload * maxFragments

inductive MessageKind where
  | request
  | response
  | error
  deriving DecidableEq, Repr

def MessageKind.value : MessageKind → Nat
  | .request => 1
  | .response => 2
  | .error => 3

def MessageKind.ofValue? : Nat → Option MessageKind
  | 1 => some .request
  | 2 => some .response
  | 3 => some .error
  | _ => none

inductive Opcode where
  | hello
  | getStatus
  | getCapabilities
  | captureTextScreen
  | sendKeys
  | ping
  | cancel
  | fileReadBegin
  | fileReadBlock
  | fileReadEnd
  | fileWriteBegin
  | fileWriteBlock
  | fileWriteCommit
  | fileAbort
  | graphicsBegin
  | graphicsBlock
  | graphicsEnd
  | getDiagnostics
  deriving DecidableEq, Repr

def Opcode.value : Opcode → Nat
  | .hello => 1
  | .getStatus => 2
  | .getCapabilities => 3
  | .captureTextScreen => 4
  | .sendKeys => 5
  | .ping => 6
  | .cancel => 7
  | .fileReadBegin => 8
  | .fileReadBlock => 9
  | .fileReadEnd => 10
  | .fileWriteBegin => 11
  | .fileWriteBlock => 12
  | .fileWriteCommit => 13
  | .fileAbort => 14
  | .graphicsBegin => 15
  | .graphicsBlock => 16
  | .graphicsEnd => 17
  | .getDiagnostics => 18

def Opcode.ofValue? : Nat → Option Opcode
  | 1 => some .hello
  | 2 => some .getStatus
  | 3 => some .getCapabilities
  | 4 => some .captureTextScreen
  | 5 => some .sendKeys
  | 6 => some .ping
  | 7 => some .cancel
  | 8 => some .fileReadBegin
  | 9 => some .fileReadBlock
  | 10 => some .fileReadEnd
  | 11 => some .fileWriteBegin
  | 12 => some .fileWriteBlock
  | 13 => some .fileWriteCommit
  | 14 => some .fileAbort
  | 15 => some .graphicsBegin
  | 16 => some .graphicsBlock
  | 17 => some .graphicsEnd
  | 18 => some .getDiagnostics
  | _ => none

inductive ErrorCode where
  | malformed
  | unsupportedVersion
  | authenticationFailed
  | replayedRequest
  | unsupportedOperation
  | invalidArgument
  | denied
  | targetBusy
  | timeout
  | cancelled
  | integrityFailure
  | internalFailure
  deriving DecidableEq, Repr

def ErrorCode.value : ErrorCode → Nat
  | .malformed => 1
  | .unsupportedVersion => 2
  | .authenticationFailed => 3
  | .replayedRequest => 4
  | .unsupportedOperation => 5
  | .invalidArgument => 6
  | .denied => 7
  | .targetBusy => 8
  | .timeout => 9
  | .cancelled => 10
  | .integrityFailure => 11
  | .internalFailure => 12

def ErrorCode.ofValue? : Nat → Option ErrorCode
  | 1 => some .malformed
  | 2 => some .unsupportedVersion
  | 3 => some .authenticationFailed
  | 4 => some .replayedRequest
  | 5 => some .unsupportedOperation
  | 6 => some .invalidArgument
  | 7 => some .denied
  | 8 => some .targetBusy
  | 9 => some .timeout
  | 10 => some .cancelled
  | 11 => some .integrityFailure
  | 12 => some .internalFailure
  | _ => none

def ErrorCode.name : ErrorCode → String
  | .malformed => "MALFORMED"
  | .unsupportedVersion => "UNSUPPORTED_VERSION"
  | .authenticationFailed => "AUTHENTICATION_FAILED"
  | .replayedRequest => "REPLAYED_REQUEST"
  | .unsupportedOperation => "UNSUPPORTED_OPERATION"
  | .invalidArgument => "INVALID_ARGUMENT"
  | .denied => "DENIED"
  | .targetBusy => "TARGET_BUSY"
  | .timeout => "TIMEOUT"
  | .cancelled => "CANCELLED"
  | .integrityFailure => "INTEGRITY_FAILURE"
  | .internalFailure => "INTERNAL_FAILURE"

def Opcode.name : Opcode → String
  | .hello => "HELLO"
  | .getStatus => "GET_STATUS"
  | .getCapabilities => "GET_CAPABILITIES"
  | .captureTextScreen => "CAPTURE_TEXT_SCREEN"
  | .sendKeys => "SEND_KEYS"
  | .ping => "PING"
  | .cancel => "CANCEL"
  | .fileReadBegin => "FILE_READ_BEGIN"
  | .fileReadBlock => "FILE_READ_BLOCK"
  | .fileReadEnd => "FILE_READ_END"
  | .fileWriteBegin => "FILE_WRITE_BEGIN"
  | .fileWriteBlock => "FILE_WRITE_BLOCK"
  | .fileWriteCommit => "FILE_WRITE_COMMIT"
  | .fileAbort => "FILE_ABORT"
  | .graphicsBegin => "GRAPHICS_BEGIN"
  | .graphicsBlock => "GRAPHICS_BLOCK"
  | .graphicsEnd => "GRAPHICS_END"
  | .getDiagnostics => "GET_DIAGNOSTICS"

/-- The bit of one `Capability` flag. -/
inductive Capability where
  | status
  | textCapture
  | keyboard
  | filesystemRead
  | filesystemWrite
  | execution
  | memoryRead
  | memoryWrite
  | portRead
  | portWrite
  | reboot
  | graphicsCapture
  deriving DecidableEq, Repr

def Capability.value : Capability → Nat
  | .status => 1
  | .textCapture => 2
  | .keyboard => 4
  | .filesystemRead => 8
  | .filesystemWrite => 16
  | .execution => 32
  | .memoryRead => 64
  | .memoryWrite => 128
  | .portRead => 256
  | .portWrite => 512
  | .reboot => 1024
  | .graphicsCapture => 2048

inductive Phase where
  | starting
  | observeReady
  | agentShellReady
  | childRunning
  | dosBusy
  | awaitingApproval
  | hostUnresponsive
  deriving DecidableEq, Repr

def Phase.value : Phase → Nat
  | .starting => 1
  | .observeReady => 2
  | .agentShellReady => 3
  | .childRunning => 4
  | .dosBusy => 5
  | .awaitingApproval => 6
  | .hostUnresponsive => 7

def Phase.ofValue? : Nat → Option Phase
  | 1 => some .starting
  | 2 => some .observeReady
  | 3 => some .agentShellReady
  | 4 => some .childRunning
  | 5 => some .dosBusy
  | 6 => some .awaitingApproval
  | 7 => some .hostUnresponsive
  | _ => none

inductive Adapter where
  | unknown
  | mda
  | cga
  | ega
  | vga
  | linuxPty
  deriving DecidableEq, Repr

def Adapter.value : Adapter → Nat
  | .unknown => 0
  | .mda => 1
  | .cga => 2
  | .ega => 3
  | .vga => 4
  | .linuxPty => 254

def Adapter.ofValue? : Nat → Option Adapter
  | 0 => some .unknown
  | 1 => some .mda
  | 2 => some .cga
  | 3 => some .ega
  | 4 => some .vga
  | 254 => some .linuxPty
  | _ => none

inductive GraphicsLayout where
  | cga2bppInterleaved
  | cga1bppInterleaved
  | hercules1bppInterleaved
  | planar4bpp
  | planar1bpp
  | packed8bpp
  deriving DecidableEq, Repr

def GraphicsLayout.value : GraphicsLayout → Nat
  | .cga2bppInterleaved => 1
  | .cga1bppInterleaved => 2
  | .hercules1bppInterleaved => 3
  | .planar4bpp => 4
  | .planar1bpp => 5
  | .packed8bpp => 6

def GraphicsLayout.ofValue? : Nat → Option GraphicsLayout
  | 1 => some .cga2bppInterleaved
  | 2 => some .cga1bppInterleaved
  | 3 => some .hercules1bppInterleaved
  | 4 => some .planar4bpp
  | 5 => some .planar1bpp
  | 6 => some .packed8bpp
  | _ => none

inductive KeyCode where
  | enter
  | esc
  | tab
  | backspace
  | up
  | down
  | right
  | left
  | home
  | end
  | delete
  | pageUp
  | pageDown
  | f1
  | f2
  | f3
  | f4
  | f5
  | f6
  | f7
  | f8
  | f9
  | f10
  | f11
  | f12
  | ctrlC
  | ctrlD
  deriving DecidableEq, Repr

def KeyCode.value : KeyCode → Nat
  | .enter => 1
  | .esc => 2
  | .tab => 3
  | .backspace => 4
  | .up => 5
  | .down => 6
  | .right => 7
  | .left => 8
  | .home => 9
  | .end => 10
  | .delete => 11
  | .pageUp => 12
  | .pageDown => 13
  | .f1 => 14
  | .f2 => 15
  | .f3 => 16
  | .f4 => 17
  | .f5 => 18
  | .f6 => 19
  | .f7 => 20
  | .f8 => 21
  | .f9 => 22
  | .f10 => 23
  | .f11 => 24
  | .f12 => 25
  | .ctrlC => 26
  | .ctrlD => 27

def KeyCode.ofValue? : Nat → Option KeyCode
  | 1 => some .enter
  | 2 => some .esc
  | 3 => some .tab
  | 4 => some .backspace
  | 5 => some .up
  | 6 => some .down
  | 7 => some .right
  | 8 => some .left
  | 9 => some .home
  | 10 => some .end
  | 11 => some .delete
  | 12 => some .pageUp
  | 13 => some .pageDown
  | 14 => some .f1
  | 15 => some .f2
  | 16 => some .f3
  | 17 => some .f4
  | 18 => some .f5
  | 19 => some .f6
  | 20 => some .f7
  | 21 => some .f8
  | 22 => some .f9
  | 23 => some .f10
  | 24 => some .f11
  | 25 => some .f12
  | 26 => some .ctrlC
  | 27 => some .ctrlD
  | _ => none

def KeyCode.name : KeyCode → String
  | .enter => "ENTER"
  | .esc => "ESC"
  | .tab => "TAB"
  | .backspace => "BACKSPACE"
  | .up => "UP"
  | .down => "DOWN"
  | .right => "RIGHT"
  | .left => "LEFT"
  | .home => "HOME"
  | .end => "END"
  | .delete => "DELETE"
  | .pageUp => "PAGE_UP"
  | .pageDown => "PAGE_DOWN"
  | .f1 => "F1"
  | .f2 => "F2"
  | .f3 => "F3"
  | .f4 => "F4"
  | .f5 => "F5"
  | .f6 => "F6"
  | .f7 => "F7"
  | .f8 => "F8"
  | .f9 => "F9"
  | .f10 => "F10"
  | .f11 => "F11"
  | .f12 => "F12"
  | .ctrlC => "CTRL_C"
  | .ctrlD => "CTRL_D"

theorem MessageKind.ofValue?_value (k : MessageKind) : ofValue? k.value = some k := by cases k <;> rfl

theorem MessageKind.value_of_ofValue? {n : Nat} {k : MessageKind} (h : ofValue? n = some k) : k.value = n := by
  unfold ofValue? at h
  split at h <;> simp_all <;> subst h <;> rfl

theorem MessageKind.value_inj {a b : MessageKind} (h : a.value = b.value) : a = b := by
  have ha := a.ofValue?_value
  rw [h, b.ofValue?_value] at ha
  exact (Option.some.inj ha).symm

theorem Opcode.ofValue?_value (o : Opcode) : ofValue? o.value = some o := by cases o <;> rfl

theorem Opcode.value_inj {a b : Opcode} (h : a.value = b.value) : a = b := by
  have ha := a.ofValue?_value
  rw [h, b.ofValue?_value] at ha
  exact (Option.some.inj ha).symm

theorem Opcode.value_of_ofValue? {n : Nat} {o : Opcode} (h : ofValue? n = some o) : o.value = n := by
  unfold ofValue? at h
  split at h <;> simp_all <;> subst h <;> rfl

theorem ErrorCode.ofValue?_value (c : ErrorCode) : ofValue? c.value = some c := by cases c <;> rfl

theorem MessageKind.value_range (k : MessageKind) : 1 ≤ k.value ∧ k.value ≤ 3 := by cases k <;> decide

theorem Opcode.value_range (o : Opcode) : 1 ≤ o.value ∧ o.value ≤ 18 := by cases o <;> decide

theorem MessageKind.ofValue?_isSome_iff (n : Nat) : (ofValue? n).isSome = true ↔ 1 ≤ n ∧ n ≤ 3 := by
  constructor
  · intro h
    obtain ⟨k, hk⟩ := Option.isSome_iff_exists.mp h
    rw [← value_of_ofValue? hk]
    exact k.value_range
  · rintro ⟨h1, h2⟩
    interval_cases n <;> rfl

theorem Opcode.ofValue?_isSome_iff (n : Nat) : (ofValue? n).isSome = true ↔ 1 ≤ n ∧ n ≤ 18 := by
  constructor
  · intro h
    obtain ⟨o, ho⟩ := Option.isSome_iff_exists.mp h
    rw [← value_of_ofValue? ho]
    exact o.value_range
  · rintro ⟨h1, h2⟩
    interval_cases n <;> rfl

/-- What a Python call may raise. `PacketError` is a `ValueError`; `struct.error` and
    the classes under `other` are not. -/
inductive Exc where
  | packetError (message : String)
  | valueError (message : String)
  | structError
  | runtimeError (message : String)
  | agentOperationError (message : String)
  | timeoutError (message : String)
  | permissionError (message : String)
  | other
  deriving DecidableEq, Repr

/-- `if c: raise e`. -/
def raiseIf (c : Prop) [Decidable c] (e : Exc) : Except Exc Unit := if c then .error e else .ok ()

@[simp] theorem raiseIf_eq_ok {c : Prop} [Decidable c] {e : Exc} {u : Unit} : raiseIf c e = .ok u ↔ ¬ c := by
  unfold raiseIf
  split <;> simp [*]

/-- The text of an exception that `except ValueError` catches. -/
def Exc.valueText? : Exc → Option String
  | .packetError message => some message
  | .valueError message => some message
  | _ => none

end DosMcp
