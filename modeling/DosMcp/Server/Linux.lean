/-
  DosMcp.Server.Linux — `send_keys` of `LinuxTerminalBackend`, and the key receipts of an agent
  server around it.

  The text of a request is CP437 and goes to the PTY as UTF-8. What the other side of the PTY
  does is `Pty`: one answer a call of `os.write`, and what a drain reads. A call that blocks
  forever answers nothing and is left out.

  - `sendKeys_returns`: a receipt counts the bytes that went to the PTY, all of the text.
  - `key_receipts_in_request_units_iff`: they are the bytes of the request exactly when the text
    is ASCII.
-/

import DosMcp.Protocol.MessageProofs
import DosMcp.Server.ReplyProofs
import DosMcp.Server.Terminal

namespace DosMcp

open Lib
open Fallible (lift raise modify each)

/-- What a call of `os.write` does. -/
inductive OsWrite where
  | wrote (count : Nat)
  | blocked
  | raised (e : Exc)
  deriving DecidableEq, Repr

structure Pty where
  /-- What starting the shell raises. -/
  start : Except Exc Unit
  /-- The answers of `os.write`, in order; after the last all is written at once. -/
  writes : List OsWrite
  /-- What `_drain` decodes after the start, and what while the keys settle. -/
  started : List Terminal.Text
  settled : List Terminal.Text
  /-- All that was written. -/
  written : Bytes

structure LinuxTerminalBackend where
  closed : Bool
  process : Bool
  masterFd : Bool
  terminal : Terminal.TerminalBuffer
  pty : Pty

namespace LinuxTerminalBackend

def maxTextBytes : Nat := 4096
def maxKeys : Nat := 128
def maxSendDelayMs : Int := 30000

def keySequences : Dict String Bytes :=
  [("ENTER", [0x0D]), ("ESC", [0x1B]), ("TAB", [0x09]), ("BACKSPACE", [0x7F]), ("CTRL_C", [0x03]), ("CTRL_D", [0x04]),
    ("UP", [0x1B, 0x5B, 0x41]), ("DOWN", [0x1B, 0x5B, 0x42]), ("RIGHT", [0x1B, 0x5B, 0x43]), ("LEFT", [0x1B, 0x5B, 0x44]),
    ("HOME", [0x1B, 0x5B, 0x48]), ("END", [0x1B, 0x5B, 0x46]), ("DELETE", [0x1B, 0x5B, 0x33, 0x7E]),
    ("PAGE_UP", [0x1B, 0x5B, 0x35, 0x7E]), ("PAGE_DOWN", [0x1B, 0x5B, 0x36, 0x7E]), ("F1", [0x1B, 0x4F, 0x50]),
    ("F2", [0x1B, 0x4F, 0x51]), ("F3", [0x1B, 0x4F, 0x52]), ("F4", [0x1B, 0x4F, 0x53]), ("F5", [0x1B, 0x5B, 0x31, 0x35, 0x7E]),
    ("F6", [0x1B, 0x5B, 0x31, 0x37, 0x7E]), ("F7", [0x1B, 0x5B, 0x31, 0x38, 0x7E]), ("F8", [0x1B, 0x5B, 0x31, 0x39, 0x7E]),
    ("F9", [0x1B, 0x5B, 0x32, 0x30, 0x7E]), ("F10", [0x1B, 0x5B, 0x32, 0x31, 0x7E]), ("F11", [0x1B, 0x5B, 0x32, 0x33, 0x7E]),
    ("F12", [0x1B, 0x5B, 0x32, 0x34, 0x7E])]

abbrev Method (α : Type) := Fallible LinuxTerminalBackend Exc α

/-- `self._terminal.feed_bytes`, with the text that its decoder yields. -/
def feed (u : Terminal.UnicodeDigits) (text : Terminal.Text) : Method Unit := fun b =>
  let (r, terminal) := Terminal.feed u text b.terminal
  (r, { b with terminal := terminal })

/-- `_drain`. -/
def drain (u : Terminal.UnicodeDigits) (output : List Terminal.Text) : Method Unit := fun b =>
  if ¬ b.masterFd then (.ok (), b) else each output (feed u) b

/-- `_ensure_started`. -/
def ensureStarted (u : Terminal.UnicodeDigits) : Method Unit := fun b =>
  if b.closed then (.error (.runtimeError "backend is closed"), b)
  else if b.process then (.ok (), b)
  else match b.pty.start with
    | .error e => (.error e, b)
    | .ok () => drain u b.pty.started { b with process := true, masterFd := true }

/-- The loop of `_write` over the answers of `os.write`: how it ends, the answers that are left
    and what was written. -/
def writeLoop : List OsWrite → Bytes → Except Exc Unit × List OsWrite × Bytes
  | [], value => (.ok (), [], value)
  | answer :: answers, value =>
    if value = [] then (.ok (), answer :: answers, [])
    else match answer with
      | .wrote count =>
        let (r, answers, written) := writeLoop answers (value.drop count)
        (r, answers, value.take count ++ written)
      | .blocked => writeLoop answers value
      | .raised e => (.error e, answers, [])

/-- `_write`. -/
def write (value : Bytes) : Method Unit := fun b =>
  if ¬ b.masterFd then (.error (.runtimeError "backend PTY is not available"), b)
  else
    let (r, answers, written) := writeLoop b.pty.writes value
    (r, { b with pty := { b.pty with writes := answers, written := b.pty.written ++ written } })

/-- `text.encode("utf-8")`. -/
def utf8 (text : List Char) : Bytes := text.flatMap String.utf8EncodeChar

/-- The text of the exception for key names without quotes. -/
def unsupportedKeys (unknown : List String) : String :=
  let shown := ", ".intercalate (unknown.map fun key => "'" ++ key ++ "'")
  let allowed := ", ".intercalate (keySequences.keys.mergeSort fun a b => decide (a ≤ b))
  "unsupported keys [" ++ shown ++ "]; allowed keys: " ++ allowed

/-- The text of `send_keys`: a byte at a time where there is a delay between them. -/
def writeText (encoded : Bytes) (interKeyDelayMs : Int) : Method Unit :=
  if encoded = [] then pure ()
  else if interKeyDelayMs ≠ 0 then each encoded fun byte => write [byte]
  else write encoded

def sendKeys (u : Terminal.UnicodeDigits) (text : List Char) (keys : List String) (interKeyDelayMs : Int) (settleMs : Nat) :
    Method KeyReceipt := do
  ensureStarted u
  let encoded := utf8 text
  lift (raiseIf (encoded.length > maxTextBytes) (.valueError "text exceeds 4096 encoded bytes"))
  lift (raiseIf (keys.length > maxKeys) (.valueError "keys exceeds 128 items"))
  lift (raiseIf (¬ (0 ≤ interKeyDelayMs ∧ interKeyDelayMs ≤ 1000)) (.valueError "inter_key_delay_ms must be between 0 and 1000"))
  lift (raiseIf (¬ settleMs ≤ 2000) (.valueError "settle_ms must be between 0 and 2000"))
  lift (raiseIf ((encoded.length + keys.length : Nat) * interKeyDelayMs > maxSendDelayMs)
    (.valueError "total inter-key delay exceeds 30000 milliseconds"))
  let normalized := keys.map String.toUpper
  let unknown := normalized.filter fun key => !keySequences.has key
  lift (raiseIf (unknown ≠ []) (.valueError (unsupportedKeys unknown)))
  writeText encoded interKeyDelayMs
  each normalized fun key => write ((keySequences.get? key).getD [])
  let b ← Fallible.state
  drain u b.pty.settled
  let b ← Fallible.state
  return ⟨encoded.length, normalized.length, b.terminal.generation⟩

/-- What a server takes from outside when its backend is this one. -/
def around (b : LinuxTerminalBackend) (u : Terminal.UnicodeDigits) (env : Env) : Env :=
  { env with backend := { env.backend with sendKeys := fun text keys delay settle => (sendKeys u text keys delay settle b).1 } }

/-! ## What is written -/

/-- Whenever the method returns, it has written `bs`. -/
def Writes {α : Type} (bs : Bytes) (x : Method α) : Prop :=
  ∀ b a b', x b = (.ok a, b') → b'.pty.written = b.pty.written ++ bs

section

variable {α β : Type} {bs bs' : Bytes} {u : Terminal.UnicodeDigits}

theorem Writes.bind {x : Method α} {f : α → Method β} (hx : Writes bs x) (hf : ∀ a, Writes bs' (f a)) :
    Writes (bs ++ bs') (x >>= f) := by
  intro b a b' h
  obtain ⟨a', between, hfirst, hsecond⟩ := Fallible.bind_eq_ok h
  rw [hf a' _ _ _ hsecond, hx _ _ _ hfirst, List.append_assoc]

theorem writes_pure (a : α) : Writes [] (pure a) := by
  intro b a' b' h
  cases h
  exact (List.append_nil _).symm

theorem writes_each {body : β → Method Unit} {g : β → Bytes} (items : List β) (h : ∀ item, Writes (g item) (body item)) :
    Writes (items.flatMap g) (each items body) := by
  induction items with
  | nil => exact writes_pure ()
  | cons item items ih => exact (h item).bind fun _ => ih

theorem writes_feed (text : Terminal.Text) : Writes [] (feed u text) := by
  intro b a b' h
  have hb := congrArg Prod.snd h
  dsimp only [feed] at hb
  rw [← hb, List.append_nil]

theorem writes_drain (output : List Terminal.Text) : Writes [] (drain u output) := by
  intro b a b' h
  unfold drain at h
  split at h
  · exact writes_pure () b a b' h
  · have hfeed := writes_each output (fun text => writes_feed (u := u) text) b a b' h
    rwa [List.flatMap_eq_nil_iff.mpr fun _ _ => rfl] at hfeed

theorem writes_ensureStarted : Writes [] (ensureStarted u) := by
  intro b a b' h
  unfold ensureStarted at h
  split at h
  · cases h
  split at h
  · exact writes_pure () b a b' h
  split at h
  · cases h
  · exact writes_drain _ { b with process := true, masterFd := true } a b' h

/-- A loop that ends without an exception has written all. -/
theorem writeLoop_ok (answers : List OsWrite) (value : Bytes) (h : (writeLoop answers value).1 = .ok ()) :
    (writeLoop answers value).2.2 = value := by
  induction answers generalizing value with
  | nil => rfl
  | cons answer answers ih =>
    unfold writeLoop at h ⊢
    by_cases hempty : value = []
    · rw [if_pos hempty, hempty]
    · rw [if_neg hempty] at h ⊢
      cases answer with
      | wrote count =>
        have hrest := ih (value.drop count) h
        show value.take count ++ (writeLoop answers (value.drop count)).2.2 = value
        rw [hrest, List.take_append_drop]
      | blocked => exact ih value h
      | raised e => cases h

theorem writes_write (value : Bytes) : Writes value (write value) := by
  intro b a b' h
  unfold write at h
  split at h
  · cases h
  · have hloop := writeLoop_ok b.pty.writes value
    generalize writeLoop b.pty.writes value = ended at h hloop
    simp only [Prod.mk.injEq] at h
    obtain ⟨hok, rfl⟩ := h
    show b.pty.written ++ ended.2.2 = b.pty.written ++ value
    rw [hloop hok]

theorem writes_text (encoded : Bytes) (interKeyDelayMs : Int) : Writes encoded (writeText encoded interKeyDelayMs) := by
  unfold writeText
  by_cases hempty : encoded = []
  · rw [if_pos hempty, hempty]
    exact writes_pure ()
  rw [if_neg hempty]
  by_cases hdelay : interKeyDelayMs ≠ 0
  · rw [if_pos hdelay]
    have hbytes := writes_each encoded fun byte => writes_write [byte]
    rwa [List.flatMap_singleton'] at hbytes
  · rw [if_neg hdelay]
    exact writes_write encoded

theorem sendKeys_returns {text : List Char} {keys : List String} {interKeyDelayMs : Int} {settleMs : Nat}
    {b b' : LinuxTerminalBackend} {receipt : KeyReceipt}
    (h : sendKeys u text keys interKeyDelayMs settleMs b = (.ok receipt, b')) :
    receipt.acceptedTextBytes = (utf8 text).length ∧
      ∃ sequences, b'.pty.written = b.pty.written ++ utf8 text ++ sequences := by
  unfold sendKeys at h
  obtain ⟨⟨⟩, b1, hstart, h⟩ := Fallible.bind_eq_ok h
  obtain ⟨⟨⟩, -, h⟩ := Fallible.lift_bind_eq_ok h
  obtain ⟨⟨⟩, -, h⟩ := Fallible.lift_bind_eq_ok h
  obtain ⟨⟨⟩, -, h⟩ := Fallible.lift_bind_eq_ok h
  obtain ⟨⟨⟩, -, h⟩ := Fallible.lift_bind_eq_ok h
  obtain ⟨⟨⟩, -, h⟩ := Fallible.lift_bind_eq_ok h
  obtain ⟨⟨⟩, -, h⟩ := Fallible.lift_bind_eq_ok h
  obtain ⟨⟨⟩, b2, htext, h⟩ := Fallible.bind_eq_ok h
  obtain ⟨⟨⟩, b3, hkeys, h⟩ := Fallible.bind_eq_ok h
  obtain ⟨settling, b4, hsettling, h⟩ := Fallible.bind_eq_ok h
  obtain ⟨⟨⟩, b5, hdrain, h⟩ := Fallible.bind_eq_ok h
  obtain ⟨drained, b6, hdrained, h⟩ := Fallible.bind_eq_ok h
  cases hsettling
  cases hdrained
  cases h
  have h1 := writes_ensureStarted _ _ _ hstart
  have h2 := writes_text _ _ _ _ _ htext
  have h3 := writes_each _ (fun key => writes_write ((keySequences.get? key).getD [])) _ _ _ hkeys
  have h4 := writes_drain _ _ _ _ hdrain
  refine ⟨rfl, (keys.map String.toUpper).flatMap fun key => (keySequences.get? key).getD [], ?_⟩
  rw [h4, h3, h2, h1, List.append_nil, List.append_nil]

end

/-! ## CP437 as UTF-8 -/

/-- ASCII takes one byte, the other characters of CP437 two or three. -/
theorem utf8Size_cp437Char (byte : UInt8) : 1 ≤ (cp437Char byte).utf8Size ∧ ((cp437Char byte).utf8Size ≤ 1 ↔ byte < 0x80) := by
  have hall : ∀ n < 256, 1 ≤ (cp437Char (UInt8.ofNat n)).utf8Size ∧
      ((cp437Char (UInt8.ofNat n)).utf8Size ≤ 1 ↔ UInt8.ofNat n < 0x80) := by decide +kernel
  rw [← UInt8.ofNat_toNat (x := byte)]
  exact hall _ byte.toNat_lt

theorem utf8_cp437_length (text : Bytes) : text.length ≤ (utf8 (cp437Decode text)).length ∧
    ((utf8 (cp437Decode text)).length ≤ text.length ↔ ∀ byte ∈ text, byte < 0x80) := by
  induction text with
  | nil => exact ⟨Nat.le_refl 0, iff_of_true (Nat.le_refl 0) fun _ h => absurd h List.not_mem_nil⟩
  | cons byte text ih =>
    obtain ⟨hpos, hone⟩ := utf8Size_cp437Char byte
    obtain ⟨hle, hiff⟩ := ih
    have hlength : (utf8 (cp437Decode (byte :: text))).length =
        (cp437Char byte).utf8Size + (utf8 (cp437Decode text)).length := by
      show (String.utf8EncodeChar (cp437Char byte) ++ utf8 (cp437Decode text)).length = _
      rw [List.length_append, String.length_utf8EncodeChar]
    rw [hlength, List.length_cons, List.forall_mem_cons, ← hone, ← hiff]
    omega

/-! ## Receipts -/

variable (u : Terminal.UnicodeDigits) (b : LinuxTerminalBackend)

/-- The whole text of the request has been written to the PTY. -/
def WroteText (request : KeyRequest) : Prop :=
  ∃ sequences, (sendKeys u (cp437Decode request.text) (request.keys.map KeyCode.name) request.interKeyDelayMs 100 b).2.pty.written =
    b.pty.written ++ utf8 (cp437Decode request.text) ++ sequences

/-- The receipt counts bytes of the request. -/
def InRequestUnits (request : KeyRequest) (receipt : KeyResponse) : Prop :=
  receipt.acceptedTextBytes ≤ request.text.length ∧
    (WroteText u b request → receipt.acceptedTextBytes = request.text.length)

end LinuxTerminalBackend

open LinuxTerminalBackend (WroteText InRequestUnits utf8_cp437_length sendKeys_returns)

/-- A key request that an agent server around the Linux backend answers with a response: its
    text was written, and the receipt counts bytes of the request if and only if the text is
    ASCII. -/
theorem key_receipts_in_request_units_iff (u : Terminal.UnicodeDigits) (b : LinuxTerminalBackend) (s : UdpAgentServer) (env : Env)
    (payload response : Bytes) (h : s.answer (b.around u env) .sendKeys payload = (.response, response)) :
    ∃ request receipt, KeyRequest.decode payload = .ok request ∧ KeyResponse.decode response = .ok receipt ∧
      WroteText u b request ∧ (InRequestUnits u b request receipt ↔ ∀ byte ∈ request.text, byte < 0x80) := by
  obtain ⟨outcome, hoperate, hreply⟩ := reply_of_answer h
  cases hoperate
  unfold sendKeysOperation at hreply
  split at hreply
  · cases hreply
  rename_i request hrequest
  obtain ⟨sent, hsent, hencode⟩ := bind_eq_ok.mp hreply
  have hreceipt := KeyResponse.decode_of_encode hencode
  obtain ⟨haccepted, sequences, hwritten⟩ := sendKeys_returns (Prod.ext hsent rfl)
  have hwrote : WroteText u b request := ⟨sequences, hwritten⟩
  obtain ⟨hle, hascii⟩ := utf8_cp437_length request.text
  refine ⟨request, _, hrequest, hreceipt, hwrote, ?_⟩
  rw [← hascii]
  unfold InRequestUnits
  rw [haccepted]
  constructor
  · rintro ⟨hbound, -⟩
    exact Int.ofNat_le.mp hbound
  · intro hbound
    exact ⟨Int.ofNat_le.mpr hbound, fun _ => congrArg Int.ofNat (Nat.le_antisymm hbound hle)⟩

/-- A PTY that takes what it is given and stays silent, with a shell on it. -/
def silentTerminal : LinuxTerminalBackend where
  closed := false
  process := true
  masterFd := true
  terminal := { columns := 1, rows := 1, chars := [[0x20]], attrs := [[7]], row := 0, column := 0, visible := true,
                generation := 0, foreground := 7, background := 0, bold := false, blink := false, state := .normal,
                sequence := [] }
  pty := ⟨.ok (), [], [], [], []⟩

/-- The letter `a`. -/
theorem key_receipts_in_request_units_iff_letter : ∃ request receipt,
    KeyRequest.decode [1, 0, 0, 0, 0, 0x61] = .ok request ∧ KeyResponse.decode [1, 0, 0, 0, 0] = .ok receipt ∧
      WroteText Terminal.UnicodeDigits.unicode15 silentTerminal request ∧
      (InRequestUnits Terminal.UnicodeDigits.unicode15 silentTerminal request receipt ↔ ∀ byte ∈ request.text, byte < 0x80) :=
  key_receipts_in_request_units_iff Terminal.UnicodeDigits.unicode15 silentTerminal freshServer fileEnv [1, 0, 0, 0, 0, 0x61] [1, 0, 0, 0, 0]
    (by decide +kernel)

/-- For the letter Ç, byte 80h, the response counts the two bytes of its UTF-8. -/
theorem receipt_counts_utf8 : ∃ request receipt,
    freshServer.answer (silentTerminal.around Terminal.UnicodeDigits.unicode15 fileEnv) .sendKeys [1, 0, 0, 0, 0, 0x80] =
        (.response, [2, 0, 0, 0, 0]) ∧
      KeyRequest.decode [1, 0, 0, 0, 0, 0x80] = .ok request ∧ KeyResponse.decode [2, 0, 0, 0, 0] = .ok receipt ∧
      request.text = [0x80] ∧ receipt.acceptedTextBytes = 2 ∧
      ¬ InRequestUnits Terminal.UnicodeDigits.unicode15 silentTerminal request receipt := by
  refine ⟨⟨[0x80], [], 0⟩, ⟨2, 0, 0⟩, by decide +kernel, by decide +kernel, by decide +kernel, rfl, rfl, ?_⟩
  rintro ⟨hbound, -⟩
  exact absurd hbound (by decide)

end DosMcp
