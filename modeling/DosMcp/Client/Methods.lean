/-
  DosMcp.Client.Methods — `backends/udp.py`: the methods of the bridge that are one request.

  `get_status` and `capture_screen` are in `Client.Api`. What a bridge says of an agent is in the
  agent's words, except that its own policy takes file access away.

  - `bridgeCapabilities_of_backend`: the flags of the message are the backend's, all twelve.
  - `keys_named`: the names of the keys that are sent are those that were asked for, in capitals.
-/

import DosMcp.Client.Api
import DosMcp.Protocol.Codecs

namespace DosMcp

open Lib
open Fallible (lift)

/-- `Capabilities` with the fields that only the bridge fills in. -/
structure BridgeCapabilities extends Capabilities where
  transport : String
  maxTextBytes : Int

/-- `KeyReceipt` with its keys. -/
structure BridgeReceipt where
  acceptedTextBytes : Int
  acceptedKeys : Int
  keys : List String
  screenGeneration : Nat
  deriving DecidableEq, Repr

def Capability.isIn (capability : Capability) (flags : Nat) : Bool := flags &&& capability.value ≠ 0

/-- The `Capabilities` of `get_capabilities`. -/
def bridgeCapabilities (allowFileRead allowFileWrite : Bool) (m : CapabilitiesMessage) : BridgeCapabilities :=
  let flags := m.capabilities
  { backend := "dos-agent"
    transport := "packet-driver-udp"
    status := Capability.status.isIn flags
    textCapture := Capability.textCapture.isIn flags
    graphicsCapture := if Capability.graphicsCapture.isIn flags then ["CGA", "Hercules", "EGA", "VGA"] else []
    keyboardInjection := if Capability.keyboard.isIn flags then some "bios-queue" else none
    screenColumns := m.columns
    screenRows := m.rows
    maxTextBytes := 4096
    maxKeysPerRequest := m.maxKeys
    filesystemRead := Capability.filesystemRead.isIn flags && allowFileRead
    filesystemWrite := Capability.filesystemWrite.isIn flags && allowFileWrite
    commandExecution := Capability.execution.isIn flags
    memoryRead := Capability.memoryRead.isIn flags
    memoryWrite := Capability.memoryWrite.isIn flags
    portRead := Capability.portRead.isIn flags
    portWrite := Capability.portWrite.isIn flags
    reboot := Capability.reboot.isIn flags }

/-- `KeyCode`, in its order. -/
def KeyCode.all : List KeyCode :=
  [.enter, .esc, .tab, .backspace, .up, .down, .right, .left, .home, .end, .delete, .pageUp, .pageDown, .f1, .f2, .f3, .f4, .f5,
    .f6, .f7, .f8, .f9, .f10, .f11, .f12, .ctrlC, .ctrlD]

/-- `KEY_NAMES`. -/
def keyNames : Dict String KeyCode := KeyCode.all.map fun key => (key.name, key)

/-- `text.encode("cp437")` of `send_keys`. -/
def encodeKeyText (text : List Char) : Except Exc Bytes :=
  match cp437Encode text with
  | none => .error (.valueError "text contains characters outside CP437")
  | some encoded => .ok encoded

section

-- `str.upper`
variable (upper : String → String)

/-- `KEY_NAMES[key.upper()]`. -/
def encodeKey (key : String) : Except Exc KeyCode :=
  match keyNames.get? (upper key) with
  | none => .error (.valueError ("unsupported named key: " ++ upper key))
  | some code => .ok code

variable {σ : Type} (request : Opcode → Bytes → Fallible σ Exc Bytes)

def getCapabilities (allowFileRead allowFileWrite : Bool) : Fallible σ Exc BridgeCapabilities := do
  let answer ← request .getCapabilities []
  let message ← lift (CapabilitiesMessage.decode answer)
  return bridgeCapabilities allowFileRead allowFileWrite message

def getResidentDiagnostics : Fallible σ Exc ResidentDiagnosticsMessage := do
  let answer ← request .getDiagnostics []
  lift (ResidentDiagnosticsMessage.decode answer)

def sendKeys (text : List Char) (keys : List String) (interKeyDelayMs : Int) : Fallible σ Exc BridgeReceipt := do
  let encodedText ← lift (encodeKeyText text)
  let encodedKeys ← lift (keys.mapM (encodeKey upper))
  let payload ← lift (KeyRequest.encode ⟨encodedText, encodedKeys, interKeyDelayMs⟩)
  let answer ← request .sendKeys payload
  let response ← lift (KeyResponse.decode answer)
  return ⟨response.acceptedTextBytes, response.acceptedKeys,
    (encodedKeys.take response.acceptedKeys.toNat).map KeyCode.name, response.generation⟩

end

/-! ## Capabilities -/

theorem Capability.disjoint (a b : Capability) : a.value &&& b.value ≠ 0 ↔ a = b := by
  cases a <;> cases b <;> decide

/-- A flag is in what the loop collects when its own entry is set. -/
theorem isIn_flags (capability : Capability) (mapping : List (Bool × Capability)) (flags : Nat) :
    capability.isIn (mapping.foldl (fun flags m => if m.1 then flags ||| m.2.value else flags) flags) = true ↔
      capability.isIn flags = true ∨ ∃ m ∈ mapping, m.1 = true ∧ m.2 = capability := by
  induction mapping generalizing flags with
  | nil => simp
  | cons m mapping ih =>
    rw [List.foldl_cons, ih]
    have hset : capability.isIn (if m.1 then flags ||| m.2.value else flags) = true ↔
        capability.isIn flags = true ∨ m.1 = true ∧ m.2 = capability := by
      by_cases hm : m.1 = true
      · rw [if_pos hm]
        simp only [Capability.isIn, decide_eq_true_eq, hm, true_and]
        rw [Nat.and_or_distrib_right, Ne, Nat.or_eq_zero_iff, not_and_or, ← Ne, ← Ne, Capability.disjoint]
      · rw [if_neg hm]
        simp [hm]
    rw [hset, or_assoc]
    simp [or_and_right, exists_or]

theorem CapabilitiesMessage.decode_of_encode {m : CapabilitiesMessage} {bs : Bytes} (h : m.encode = .ok bs)
    {m' : CapabilitiesMessage} (hdecode : decode bs = .ok m') : m' = m := by
  have hfields := structPack_fieldsAt h []
  simp only [List.map_cons, List.map_nil, fieldsAt, Nat.zero_add, Nat.reduceAdd, List.append_nil, List.cons.injEq,
    Prod.mk.injEq, true_and, and_true, Nat.cast_inj] at hfields
  obtain ⟨h0, h4, h5, h6, h7, h9⟩ := hfields
  simp only [decode, requireSize, bind_eq_ok, raiseIf_eq_ok, enumOf_eq_ok] at hdecode
  obtain ⟨_, -, _, -, adapter, hadapter, _, -, _, -, hm⟩ := hdecode
  obtain rfl := Except.ok.inj hm
  rw [h6, m.adapter.ofValue?_value] at hadapter
  obtain rfl := Option.some.inj hadapter
  rw [h0, h4, h5, h7, h9]

/-- What the bridge says is what the backend said, less what the bridge does not allow. -/
structure Capabilities.Told (c : Capabilities) (allowFileRead allowFileWrite : Bool) (b : BridgeCapabilities) : Prop where
  status : b.status = c.status
  textCapture : b.textCapture = c.textCapture
  graphicsCapture : b.graphicsCapture ≠ [] ↔ c.graphicsCapture ≠ []
  keyboardInjection : b.keyboardInjection.isSome = true ↔ c.keyboardInjection.getD "" ≠ ""
  filesystemRead : b.filesystemRead = (c.filesystemRead && allowFileRead)
  filesystemWrite : b.filesystemWrite = (c.filesystemWrite && allowFileWrite)
  commandExecution : b.commandExecution = c.commandExecution
  memory : b.memoryRead = c.memoryRead ∧ b.memoryWrite = c.memoryWrite
  ports : b.portRead = c.portRead ∧ b.portWrite = c.portWrite
  reboot : b.reboot = c.reboot
  screen : b.screenColumns = c.screenColumns ∧ b.screenRows = c.screenRows
  maxKeysPerRequest : b.maxKeysPerRequest = c.maxKeysPerRequest

theorem bridgeCapabilities_of_backend (c : Capabilities) (allowFileRead allowFileWrite : Bool) :
    c.Told allowFileRead allowFileWrite (bridgeCapabilities allowFileRead allowFileWrite (capabilitiesMessage c)) := by
  have hflag : ∀ capability : Capability, ∀ flag : Bool,
      ((∃ m ∈ [(c.status, Capability.status), (c.textCapture, .textCapture), (c.filesystemRead, .filesystemRead),
        (c.filesystemWrite, .filesystemWrite), (c.commandExecution, .execution), (c.memoryRead, .memoryRead),
        (c.memoryWrite, .memoryWrite), (c.portRead, .portRead), (c.portWrite, .portWrite), (c.reboot, .reboot),
        (decide (c.keyboardInjection.getD "" ≠ ""), .keyboard), (decide (c.graphicsCapture ≠ []), .graphicsCapture)],
          m.1 = true ∧ m.2 = capability) ↔ flag = true) →
        capability.isIn (capabilitiesMessage c).capabilities = flag := by
    intro capability flag hentry
    rw [Bool.eq_iff_iff, ← hentry]
    refine (isIn_flags capability _ 0).trans (or_iff_right ?_)
    simp [Capability.isIn]
  have hkeyboard := hflag .keyboard (decide (c.keyboardInjection.getD "" ≠ "")) (by simp)
  have hgraphics := hflag .graphicsCapture (decide (c.graphicsCapture ≠ [])) (by simp)
  refine ⟨hflag _ _ (by simp), hflag _ _ (by simp), ?_, ?_, ?_, ?_, hflag _ _ (by simp), ⟨hflag _ _ (by simp), hflag _ _ (by simp)⟩,
    ⟨hflag _ _ (by simp), hflag _ _ (by simp)⟩, hflag _ _ (by simp), ⟨rfl, rfl⟩, rfl⟩
  · show (if Capability.graphicsCapture.isIn _ = true then _ else _) ≠ [] ↔ _
    rw [hgraphics]
    by_cases hnone : c.graphicsCapture = []
    · simp [hnone]
    · simp [hnone]
  · show Option.isSome (if Capability.keyboard.isIn _ = true then _ else _) = true ↔ _
    rw [hkeyboard]
    by_cases hnone : c.keyboardInjection.getD "" = ""
    · simp [hnone]
    · simp [hnone]
  · exact congrArg (· && allowFileRead) (hflag .filesystemRead c.filesystemRead (by simp))
  · exact congrArg (· && allowFileWrite) (hflag .filesystemWrite c.filesystemWrite (by simp))

/-! ## Keys -/

theorem encodeKey_eq_ok {upper : String → String} {key : String} {code : KeyCode} (h : encodeKey upper key = .ok code) :
    code.name = upper key := by
  unfold encodeKey at h
  cases hget : keyNames.get? (upper key) with
  | none =>
    rw [hget] at h
    cases h
  | some code' =>
    rw [hget] at h
    cases h
    obtain ⟨k, -, hk⟩ := List.mem_map.mp (Dict.mem_of_get? hget)
    obtain ⟨hname, rfl⟩ := Prod.mk.inj hk
    exact hname

theorem keys_named {upper : String → String} {keys : List String} {codes : List KeyCode}
    (h : keys.mapM (encodeKey upper) = .ok codes) : codes.map KeyCode.name = keys.map upper := by
  have hall := mapM_eq_ok_iff.mp h
  clear h
  induction hall with
  | nil => rfl
  | cons hkey _ ih => rw [List.map_cons, List.map_cons, ih, encodeKey_eq_ok hkey]

theorem KeyCode.ofValue?_byte (key : KeyCode) : ofValue? (UInt8.ofNat key.value).toNat = some key := by
  cases key <;> rfl

theorem KeyRequest.decode_of_encode {m : KeyRequest} {bs : Bytes} (h : m.encode = .ok bs) : decode bs = .ok m := by
  simp only [encode, bind_eq_ok, raiseIf_eq_ok, not_not] at h
  obtain ⟨_, -, _, -, _, hdelay, head, hhead, hbs⟩ := h
  obtain rfl := Except.ok.inj hbs
  have hlen : head.length = 5 := structPack_length hhead
  have hfields := structPack_fieldsAt hhead (m.text ++ m.keys.map fun key => UInt8.ofNat key.value)
  simp only [List.map_cons, List.map_nil, fieldsAt, Nat.zero_add, Nat.reduceAdd, List.cons.injEq, Prod.mk.injEq, true_and,
    and_true, Nat.cast_inj] at hfields
  obtain ⟨htext, hkeys, hms⟩ := hfields
  have hsize : (head ++ (m.text ++ m.keys.map fun key => UInt8.ofNat key.value)).length = 5 + m.text.length + m.keys.length := by
    simp only [List.length_append, List.length_map, hlen]
    omega
  have hdrop : (head ++ (m.text ++ m.keys.map fun key => UInt8.ofNat key.value)).drop (5 + m.text.length) =
      m.keys.map fun key => UInt8.ofNat key.value := by
    rw [← List.append_assoc]
    exact List.drop_left' (by rw [List.length_append, hlen])
  have hslice : slice (head ++ (m.text ++ m.keys.map fun key => UInt8.ofNat key.value)) 5 m.text.length = m.text := by
    rw [slice_append_right _ (show _ + 0 = 5 by rw [hlen]), slice_append_left _ (by omega), slice_zero_eq_take,
      List.take_of_length_le (Nat.le_refl _)]
  have hcodes : ((m.keys.map fun key => UInt8.ofNat key.value).mapM fun value => enumOf KeyCode.ofValue? "KeyCode" value.toNat) =
      .ok m.keys := by
    rw [mapM_eq_ok_iff, List.forall₂_map_left_iff, List.forall₂_same]
    exact fun key _ => enumOf_eq_ok.mpr key.ofValue?_byte
  rw [List.append_assoc]
  simp only [decode, requireSize, htext, hkeys, hdrop, hslice]
  rw [raiseIf_false (by omega), ok_bind, raiseIf_false (not_not.mpr hsize), ok_bind, hcodes, ok_bind, hms]
  rfl

end DosMcp
