/-
  DosMcp.Dos.MtcpConfig — `dmconfig.c`: what the DOS agents take from the mTCP configuration
  that `MTCPCFG` names.

  Each parser gives what it leaves in its output, `none` where it returns -1. Values are
  staged (`Staged`) while the file is read and reach the caller's outputs after the last line.
-/

import DosMcp.Dos.Number
import DosMcp.Lib.Lines

namespace DosMcp.Dos

open Lib

def dmMtcpHaveIp : UInt8 := 0x01
def dmMtcpHavePacketInt : UInt8 := 0x02
def dmMtcpHaveHostname : UInt8 := 0x04

def dmMtcpHostnameMax : Nat := 31
def dmMtcpLineSize : Nat := 256

def dmMtcpOk : Int := 0
def dmMtcpErrArgument : Int := -1
def dmMtcpErrOpen : Int := -2
def dmMtcpErrLineTooLong : Int := -3
def dmMtcpErrIpaddr : Int := -4
def dmMtcpErrPacketint : Int := -5
def dmMtcpErrHostname : Int := -6

/-- The C string in a buffer. -/
def textString (buffer : List Char) : List Char := buffer.takeWhile (· ≠ '\x00')

/-- `strcpy(buffer, text)`. -/
def strcpy (text buffer : List Char) : List Char := text ++ '\x00' :: buffer.drop (text.length + 1)

/-! ## Values -/

def keyEqual : List Char → List Char → Bool
  | c :: left, d :: right => if c.toUpper ≠ d.toUpper then false else keyEqual left right
  | left, right => left = [] ∧ right = []

def skipSpace (value : List Char) : List Char := value.dropWhile isSpace

def finishToken (value : List Char) : Bool := match value with
  | [] => true
  | c :: _ => isSpace c ∨ c = '#'

/-- One part of an address, and the text after it. -/
def parseIpPart (value : List Char) : Option (UInt8 × List Char) :=
  if ¬ value.head?.any isDigit then none
  else
    let (part, tail) := strtoul 10 value
    if tail = value ∨ part > 255 then none else some (part.toUInt8, tail)

/-- The last `n` of the parts, each but the last with a dot after it. -/
def parseIpParts : Nat → List Char → Option (Bytes × List Char)
  | 0, value => some ([], value)
  | n + 1, value => do
    let (part, tail) ← parseIpPart value
    if n = 0 then some ([part], tail)
    else match tail with
      | '.' :: value => do
        let (parts, tail) ← parseIpParts n value
        some (part :: parts, tail)
      | _ => none

def parseIpValue (value : List Char) : Option Bytes := do
  let (parts, tail) ← parseIpParts 4 value
  if finishToken tail then some parts else none

def parseInterruptValue (value : List Char) : Option UInt8 :=
  if value = [] ∨ value.head? = some '-' then none
  else
    let (number, tail) := strtoul 0 value
    if tail = value ∨ number = 0 ∨ number > 255 ∨ ¬ finishToken tail then none else some number.toUInt8

/-- The characters of a host name after `length` others, and what follows them. -/
def readHostname (length : Nat) : List Char → Option (List Char × List Char)
  | [] => some ([], [])
  | c :: value =>
    if isSpace c ∨ c = '#' then some ([], c :: value)
    else if c.toNat < 33 ∨ c.toNat > 126 ∨ length ≥ dmMtcpHostnameMax then none
    else do
      let (output, tail) ← readHostname (length + 1) value
      some (c :: output, tail)

def parseHostnameValue (value : List Char) : Option (List Char) := do
  let (output, tail) ← readHostname 0 value
  if output.length = 0 ∨ ¬ finishToken tail then none else some output

/-! ## `dm_mtcp_config_load` -/

/-- `parsed_ip`, `parsed_interrupt`, `parsed_hostname`, `assigned_hostname` and `parsed_found`. -/
structure Staged where
  ip : Bytes := []
  interrupt : UInt8 := 0
  hostname : List Char := []
  assigned : List Char := []
  found : UInt8 := 0
  deriving DecidableEq, Repr

/-- What follows a key: blanks, one `=` at most, blanks. -/
def skipAssign (value : List Char) : List Char := match skipSpace value with
  | '=' :: value => skipSpace value
  | value => value

/-- The characters that a key is made of. -/
def inKey (c : Char) : Bool := ¬ isSpace c ∧ c ≠ '='

/-- A line that is not too long. -/
def configLine (s : Staged) (line : List Char) : Except Int Staged :=
  let cursor := skipSpace line
  if cursor = [] ∨ cursor.head? = some '#' then .ok s
  else
    let key := cursor.takeWhile inKey
    let keyEnd := cursor.dropWhile inKey
    if key.length = 0 ∨ key.length ≥ 32 then .ok s
    else
      let cursor := skipAssign keyEnd
      if keyEqual key "IPADDR".toList then match parseIpValue cursor with
        | none => .error dmMtcpErrIpaddr
        | some ip => .ok { s with ip, found := s.found ||| dmMtcpHaveIp }
      else if keyEqual key "PACKETINT".toList then match parseInterruptValue cursor with
        | none => .error dmMtcpErrPacketint
        | some interrupt => .ok { s with interrupt, found := s.found ||| dmMtcpHavePacketInt }
      else if keyEqual key "HOSTNAME".toList then match parseHostnameValue cursor with
        | none => .error dmMtcpErrHostname
        | some hostname => .ok { s with hostname, found := s.found ||| dmMtcpHaveHostname }
      else if keyEqual key "HOSTNAME_ASSIGNED".toList then match parseHostnameValue cursor with
        | none => .error dmMtcpErrHostname
        | some assigned => .ok { s with assigned }
      else .ok s

/-- The `while` loop: `result`, with what is staged where it is `DM_MTCP_OK`. Each turn takes a
    character at least, so `fuel` above the number of characters is enough. -/
def configLoop : Nat → TextStream → Staged → Except Int Staged × TextStream
  | 0, f, s => (.ok s, f)
  | fuel + 1, f, s => match f.fgets dmMtcpLineSize with
    | (none, f) => (.ok s, f)
    | (some buffer, f) =>
      let line := textString buffer
      if '\n' ∉ line ∧ ¬ f.eof then (.error dmMtcpErrLineTooLong, f.skipLine (f.rest.length + 1))
      else match configLine s line with
        | .error result => (.error result, f)
        | .ok s => configLoop fuel f s

/-- What the pointers of the caller point to; `none` is a null pointer. -/
structure MtcpOutputs where
  ip : Option Bytes
  packetInterrupt : Option UInt8
  hostname : Option (List Char)
  found : Option UInt8
  deriving DecidableEq, Repr

/-- The end of `dm_mtcp_config_load`: the staged values go to the outputs. -/
def MtcpOutputs.commit (out : MtcpOutputs) (s : Staged) : MtcpOutputs :=
  let out := if s.found &&& dmMtcpHaveIp ≠ 0 then { out with ip := some s.ip } else out
  let out := if s.found &&& dmMtcpHavePacketInt ≠ 0 then { out with packetInterrupt := some s.interrupt } else out
  if s.found &&& dmMtcpHaveHostname ≠ 0 then
    { out with hostname := out.hostname.map (strcpy s.hostname), found := some s.found }
  else if s.assigned ≠ [] then
    { out with hostname := out.hostname.map (strcpy s.assigned), found := some (s.found ||| dmMtcpHaveHostname) }
  else { out with found := some s.found }

/-- The path is `none` for a null pointer. -/
def dmMtcpConfigLoad (fopen : List Char → Option TextFile) (path : Option (List Char)) (out : MtcpOutputs)
    (hostnameCapacity : UInt16) : Int × MtcpOutputs :=
  if path = none ∨ path = some [] ∨ out.ip = none ∨ out.packetInterrupt = none ∨ out.hostname = none ∨
      hostnameCapacity.toNat < dmMtcpHostnameMax + 1 ∨ out.found = none then (dmMtcpErrArgument, out)
  else match path.bind fopen with
    | none => (dmMtcpErrOpen, out)
    | some file => match configLoop (file.text.length + 1) (TextStream.ofFile file) {} with
      | (.error result, _) => (result, out)
      | (.ok s, f) => if f.error then (dmMtcpErrOpen, out) else (dmMtcpOk, out.commit s)

end DosMcp.Dos
