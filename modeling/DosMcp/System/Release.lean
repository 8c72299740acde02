/-
  DosMcp.System.Release — what the transfer methods of the bridge leave at the agent server,
  over a network that loses nothing.

  The methods release a transfer from the moment the response to BEGIN is decoded: by END or
  COMMIT, or by ABORT where anything raises. What they miss lies before that.

  - `transfer_released_iff`: `upload_file` always leaves no transfer; `download_file` does
    unless the backend returned a file that BEGIN cannot report; `capture_graphics` does unless
    the backend returned a screen that BEGIN cannot report or the bridge does not accept.
  - `wide_screen_left_behind`: a screen 2049 pixels wide blocks the next transfer.
-/

import DosMcp.Server.ReplyProofs
import DosMcp.System.Link

namespace DosMcp

open Lib
open Fallible (lift raise suppressing onRaise Keeps)

/-! ## Owned transfers -/

/-- The active transfer, if there is one, is `transferId`. -/
def Owns (transferId : Nat) (active : Option Transfer) : Prop := ∀ t, active = some t → t.transferId = transferId

def Opcode.begins : Opcode → Bool
  | .fileReadBegin | .fileWriteBegin | .graphicsBegin => true
  | _ => false

section

variable {transferId : Nat} {active next : Option Transfer} {env : Env}

theorem Owns.released (h : Owns transferId active) (hnext : next = active ∨ next = none) : Owns transferId next := by
  rcases hnext with rfl | rfl
  · exact h
  · nofun

theorem Owns.readBlock (h : Owns transferId active) (request : TransferBlockRequest) (kind : TransferKind) :
    Owns transferId (readTransferBlock active request kind).transfer := by
  unfold readTransferBlock
  split
  · exact h
  rename_i t ht
  split
  · exact h
  · rintro u hu
    obtain rfl := Option.some.inj hu
    exact h t (requireTransfer_eq_ok ht).1

theorem Owns.writeBlock (h : Owns transferId active) (request : TransferBlockRequest) :
    Owns transferId (writeTransferBlock active request).transfer := by
  unfold writeTransferBlock
  split
  · exact h
  rename_i t ht
  split
  · exact h
  · rintro u hu
    obtain rfl := Option.some.inj hu
    exact h t (requireTransfer_eq_ok ht).1

theorem Owns.withRequest {α : Type} (h : Owns transferId active) {request : Except Exc α} {run : α → Outcome}
    (hrun : ∀ r, Owns transferId (run r).transfer) : Owns transferId (withRequest active request run).transfer := by
  unfold DosMcp.withRequest
  split
  · exact h
  · exact hrun _

/-- Only BEGIN starts a transfer. -/
theorem Owns.operate (h : Owns transferId active) {opcode : Opcode} (hbegin : opcode.begins = false) {payload : Bytes}
    {outcome : Outcome} (ho : operate env active opcode payload = some outcome) : Owns transferId outcome.transfer := by
  cases opcode <;> simp only [DosMcp.operate, Option.some.injEq, reduceCtorEq] at ho <;> subst ho
  case fileReadBegin => cases hbegin
  case fileWriteBegin => cases hbegin
  case graphicsBegin => cases hbegin
  case getStatus | getCapabilities | captureTextScreen =>
    rw [observe_transfer]
    exact h
  case sendKeys =>
    rw [sendKeysOperation_transfer]
    exact h
  case ping => exact h
  case fileAbort => exact h.released (fileAbort_transfer _ _)
  case fileReadBlock => exact h.withRequest fun r => h.readBlock r _
  case graphicsBlock => exact h.withRequest fun r => h.readBlock r _
  case fileWriteBlock => exact h.withRequest fun r => h.writeBlock r
  case fileReadEnd => exact h.withRequest fun r => h.released (endReadTransfer_transfer _ r _)
  case graphicsEnd => exact h.withRequest fun r => h.released (endReadTransfer_transfer _ r _)
  case fileWriteCommit => exact h.withRequest fun r => h.released (commitWriteTransfer_transfer _ _ r)

end

/-! ## Requests in a transfer -/

/-- The link in the middle of a transfer, or after its end. -/
structure Link.During (transferId : Nat) (l : Link) : Prop where
  synced : l.Synced
  owns : Owns transferId l.server.transfer

/-- The link between two transfers. -/
structure Link.Idle (l : Link) : Prop where
  synced : l.Synced
  transfer_eq : l.server.transfer = none

theorem replyOf_transfer (env : Env) (active : Option Transfer) (opcode : Opcode) (payload : Bytes) :
    (operate env active opcode payload = none ∧ (replyOf env active opcode payload).transfer = active) ∨
      ∃ outcome, operate env active opcode payload = some outcome ∧
        (replyOf env active opcode payload).transfer = outcome.transfer := by
  unfold replyOf
  split
  · rename_i hnone
    exact Or.inl ⟨hnone, rfl⟩
  · rename_i outcome hsome
    refine Or.inr ⟨outcome, hsome, ?_⟩
    split
    · rfl
    · split <;> rfl

theorem replyOf_short (env : Env) (active : Option Transfer) {opcode : Opcode} (payload : Bytes)
    (hscreen : opcode ≠ .captureTextScreen) (hping : opcode ≠ .ping) :
    (replyOf env active opcode payload).bytes.length ≤ maxFragmentPayload := by
  unfold replyOf
  split
  · exact encodeError_length _ _
  · rename_i outcome hsome
    split
    · rename_i response hr
      exact operate_reply_short hscreen hping hsome hr
    · split <;> exact encodeError_length _ _

section

variable {transferId : Nat} {opcode : Opcode} {payload : Bytes}

theorem keeps_request (hbegin : opcode.begins = false) (hscreen : opcode ≠ .captureTextScreen) (hping : opcode ≠ .ping)
    (hp : payload.length ≤ maxFragmentPayload) : Keeps (Link.During transferId) (Link.request opcode payload) := by
  intro l h
  obtain ⟨l', hrequest, hsynced, htransfer, -⟩ := h.synced.request hp (replyOf_short (l.envs 0) l.server.transfer payload hscreen hping)
  rw [hrequest]
  refine ⟨hsynced, ?_⟩
  rw [htransfer]
  rcases replyOf_transfer (l.envs 0) l.server.transfer opcode payload with ⟨-, e⟩ | ⟨outcome, ho, e⟩
  · rw [e]
    exact h.owns
  · rw [e]
    exact h.owns.operate hbegin ho

/-- END and COMMIT release the transfer where they are answered. -/
theorem released_of_end {env : Env} {active : Option Transfer} {bytes : Bytes}
    (hopcode : opcode = .fileReadEnd ∨ opcode = .graphicsEnd ∨ opcode = .fileWriteCommit) {outcome : Outcome}
    (ho : operate env active opcode payload = some outcome) (hr : outcome.reply = .ok bytes) : outcome.transfer = none := by
  have hread : ∀ kind r, (endReadTransfer active r kind).reply = .ok bytes → (endReadTransfer active r kind).transfer = none := by
    intro kind r
    unfold endReadTransfer
    split
    · nofun
    split
    · nofun
    split
    · nofun
    · exact fun _ => rfl
  have hcommit : ∀ r, (commitWriteTransfer env active r).reply = .ok bytes →
      (commitWriteTransfer env active r).transfer = none := by
    intro r
    unfold commitWriteTransfer
    split
    · nofun
    split
    · nofun
    dsimp only
    split
    · nofun
    split
    · nofun
    · exact fun _ => rfl
  rcases hopcode with rfl | rfl | rfl <;> simp only [operate, Option.some.injEq] at ho <;> subst ho
  · obtain ⟨r, hok, h⟩ := withRequest_reply hr
    simp only [withRequest, hok]
    exact hread _ r h
  · obtain ⟨r, hok, h⟩ := withRequest_reply hr
    simp only [withRequest, hok]
    exact hread _ r h
  · obtain ⟨r, hok, h⟩ := withRequest_reply hr
    simp only [withRequest, hok]
    exact hcommit r h

/-- An answered END or COMMIT. -/
theorem idle_of_end (hopcode : opcode = .fileReadEnd ∨ opcode = .graphicsEnd ∨ opcode = .fileWriteCommit)
    (hp : payload.length ≤ maxFragmentPayload) {l l' : Link} (h : l.During transferId) {bytes : Bytes}
    (hrequest : Link.request opcode payload l = (.ok bytes, l')) : l'.Idle := by
  have hscreen : opcode ≠ .captureTextScreen := by rcases hopcode with rfl | rfl | rfl <;> decide
  have hping : opcode ≠ .ping := by rcases hopcode with rfl | rfl | rfl <;> decide
  obtain ⟨u, he, hsynced, htransfer, -⟩ := h.synced.request hp (replyOf_short (l.envs 0) l.server.transfer payload hscreen hping)
  rw [hrequest] at he
  obtain ⟨hresult, rfl⟩ := Prod.mk.inj he
  refine ⟨hsynced, htransfer.trans ?_⟩
  rcases replyOf_result (l.envs 0) l.server.transfer opcode payload with ⟨bytes', -, outcome, ho, hr⟩ | ⟨text, he⟩
  · rcases replyOf_transfer (l.envs 0) l.server.transfer opcode payload with ⟨hnone, -⟩ | ⟨outcome', ho', e⟩
    · rw [ho] at hnone
      cases hnone
    · rw [ho] at ho'
      obtain rfl := Option.some.inj ho'
      rw [e]
      exact released_of_end hopcode ho hr
  · rw [he] at hresult
    cases hresult

theorem endRequest_length {m : TransferEndRequest} (h : m.encode = .ok payload) : payload.length ≤ maxFragmentPayload := by
  simp only [TransferEndRequest.encode, bind_eq_ok] at h
  obtain ⟨-, -, hpack⟩ := h
  exact structPack_length_le hpack (by simp)

/-- `_abort_transfer` releases the transfer. -/
theorem abortTransfer_idle (hid : 1 ≤ transferId ∧ transferId < 256 ^ 2) {l : Link} (h : l.During transferId) :
    (abortTransfer Link.request transferId l).2.Idle := by
  have hencode : ∃ payload, TransferEndRequest.encode ⟨transferId⟩ = .ok payload := by
    have hpack : ∃ bs, structPack [(2, (transferId : Int))] = .ok bs := by
      rw [structPack_isOk_iff]
      simp only [List.forall_mem_cons, List.not_mem_nil, false_implies, implies_true, and_true]
      norm_cast
      omega
    obtain ⟨bs, hbs⟩ := hpack
    refine ⟨bs, ?_⟩
    rw [TransferEndRequest.encode, raiseIf_false (by simp only; omega), ok_bind]
    exact hbs
  obtain ⟨payload, hpayload⟩ := hencode
  have hlen := endRequest_length hpayload
  have hdecode := TransferEndRequest.decode_of_encode hpayload
  obtain ⟨l', hrequest, hsynced, htransfer, -⟩ := @Link.Synced.request l h.synced .fileAbort payload hlen
    (replyOf_short _ _ payload (by decide) (by decide))
  have hreply : replyOf (l.envs 0) l.server.transfer .fileAbort payload = ⟨.response, [], none⟩ := by
    simp only [replyOf, operate, fileAbort, hdecode]
    cases ht : l.server.transfer with
    | none => rfl
    | some t => simp [h.owns t ht]
  have hrun : abortTransfer Link.request transferId l = (.ok (), l') := by
    simp only [abortTransfer, suppressing, hpayload, Fallible.bind_apply, Fallible.lift_apply, hrequest, hreply, Reply.result]
  rw [hrun]
  exact ⟨hsynced, htransfer.trans (by rw [hreply])⟩

end

/-! ## The loops -/

section

variable {transferId : Nat} {opcode : Opcode} {payload : Bytes}

theorem blockRequest_length {m : TransferBlockRequest} (h : m.encode = .ok payload) : payload.length ≤ maxFragmentPayload := by
  obtain ⟨-, -, hle, hdata, head, hhead, rfl⟩ := TransferBlockRequest.encode_eq_ok h
  have hlen : head.length = 8 := structPack_length hhead
  have hshort : m.data.length ≤ m.length := by
    rcases hdata with e | e
    · simp [e]
    · exact Nat.le_of_eq e
  simp only [List.length_append, maxFragmentPayload, maxTransferBlock] at *
  omega

theorem keeps_downloadBlocks (transferId : Nat) (hbegin : opcode.begins = false) (hscreen : opcode ≠ .captureTextScreen) (hping : opcode ≠ .ping)
    (totalSize turns : Nat) (output : Bytes) (crc : Nat) :
    Keeps (Link.During transferId) (downloadBlocks Link.request opcode transferId totalSize turns output crc) := by
  induction turns generalizing output crc with
  | zero => exact Fallible.keeps_pure _
  | succ turns ih =>
    unfold downloadBlocks
    refine Fallible.keeps_ite (Fallible.keeps_lift_bind fun payload hpayload => ?_) (Fallible.keeps_pure _)
    refine (keeps_request hbegin hscreen hping (blockRequest_length hpayload)).bind fun answer => ?_
    refine Fallible.keeps_lift_bind fun response _ => ?_
    exact Fallible.keeps_ite (Fallible.keeps_raise _) (Fallible.keeps_ite (Fallible.keeps_raise _) (ih _ _))

theorem keeps_uploadBlocks (transferId : Nat) (data : Bytes) (offsets : List Nat) (crc : Nat) :
    Keeps (Link.During transferId) (uploadBlocks Link.request transferId data offsets crc) := by
  induction offsets generalizing crc with
  | nil => exact Fallible.keeps_pure _
  | cons offset offsets ih =>
    unfold uploadBlocks
    refine Fallible.keeps_lift_bind fun payload hpayload => ?_
    refine (keeps_request rfl (by decide) (by decide) (blockRequest_length hpayload)).bind fun answer => ?_
    refine Fallible.keeps_lift_bind fun response _ => ?_
    exact Fallible.keeps_ite (Fallible.keeps_raise _) (ih _)

/-- The blocks and the END of a download, or its ABORT. -/
theorem downloadTransfer_idle (hid : 1 ≤ transferId ∧ transferId < 256 ^ 2) {blockOpcode endOpcode : Opcode}
    (hopcode : (blockOpcode = .fileReadBlock ∧ endOpcode = .fileReadEnd) ∨
      (blockOpcode = .graphicsBlock ∧ endOpcode = .graphicsEnd)) (totalSize : Nat) {l : Link} (h : l.During transferId) :
    (downloadTransfer Link.request blockOpcode endOpcode transferId totalSize l).2.Idle := by
  have hblock : blockOpcode.begins = false ∧ blockOpcode ≠ .captureTextScreen ∧ blockOpcode ≠ .ping := by
    rcases hopcode with ⟨rfl, -⟩ | ⟨rfl, -⟩ <;> decide
  have hend : endOpcode.begins = false ∧ endOpcode ≠ .captureTextScreen ∧ endOpcode ≠ .ping := by
    rcases hopcode with ⟨-, rfl⟩ | ⟨-, rfl⟩ <;> decide
  have hends : endOpcode = .fileReadEnd ∨ endOpcode = .graphicsEnd ∨ endOpcode = .fileWriteCommit := by
    rcases hopcode with ⟨-, rfl⟩ | ⟨-, rfl⟩
    · exact Or.inl rfl
    · exact Or.inr (Or.inl rfl)
  have hblocks := keeps_downloadBlocks transferId hblock.1 hblock.2.1 hblock.2.2 totalSize totalSize [] 0
  refine Fallible.onRaise_establishes (P := Link.During transferId) (hblocks.bind fun (data, crc) => ?_) ?_
    (fun l h => abortTransfer_idle hid h) h
  · refine Fallible.keeps_lift_bind fun payload hpayload => ?_
    refine (keeps_request hend.1 hend.2.1 hend.2.2 (endRequest_length hpayload)).bind fun answer => ?_
    exact Fallible.keeps_lift_bind fun response _ => Fallible.keeps_pure _
  · intro s a t hs hrun
    obtain ⟨⟨data, crc⟩, u, hdownload, hrun⟩ := Fallible.bind_eq_ok hrun
    obtain ⟨payload, v, hpayload, hrun⟩ := Fallible.bind_eq_ok hrun
    obtain ⟨hencode, rfl⟩ := Fallible.lift_eq hpayload
    obtain ⟨answer, w, hrequest, hrun⟩ := Fallible.bind_eq_ok hrun
    obtain ⟨finish, x, hfinish, hrun⟩ := Fallible.bind_eq_ok hrun
    obtain ⟨-, rfl⟩ := Fallible.lift_eq hfinish
    have hu : u.During transferId := by
      have := hblocks s hs
      rwa [hdownload] at this
    obtain rfl : w = t := congrArg Prod.snd hrun
    exact idle_of_end hends (endRequest_length hencode) hu hrequest

end

/-! ## BEGIN -/

/-- The server can report the screen in its BEGIN response, and the bridge accepts it. -/
def GraphicsScreen.reportable (g : GraphicsScreen) : Bool :=
  match g.layout? with
  | none => false
  | some layout =>
    0 ≤ g.videoMode ∧ g.videoMode ≤ 255 ∧ g.width ≤ 2048 ∧ g.height ≤ 2048 ∧ g.data.length < 256 ^ 4 ∧
      (g.planes = if layout = .planar4bpp then 4 else 1)

/-- The BEGIN response of a capture reaches the bridge exactly if the screen is reportable. -/
theorem graphicsBegin_reported (g : GraphicsScreen) {transferId : Nat} (hid : 1 ≤ transferId ∧ transferId < 256 ^ 2) :
    (g.reportable = true → ∃ bytes m, (graphicsBeginMessage g transferId >>= GraphicsBeginResponse.encode) = .ok bytes ∧
        GraphicsBeginResponse.decode bytes = .ok m ∧ m.transferId = transferId) ∧
      (g.reportable = false → ∀ bytes, (graphicsBeginMessage g transferId >>= GraphicsBeginResponse.encode) = .ok bytes →
        ∃ e, GraphicsBeginResponse.decode bytes = .error e) := by
  have hdimensions := g.dimensions_pos
  have hplanes := g.planes_range
  have hbytes := g.bytesPerPlane_pos
  have hdata := g.data_length
  obtain ⟨adapter, hmessage⟩ := graphicsBeginMessage_eq g
  rw [hmessage, GraphicsScreen.reportable]
  cases g.layout? with
  | none => exact ⟨nofun, fun _ bytes h => by cases h⟩
  | some layout =>
    dsimp only
    rw [ok_bind]
    have hadapter : adapter.value < 256 := by cases adapter <;> decide
    have hlayout : layout.value < 256 := by cases layout <;> decide
    have hle : g.bytesPerPlane ≤ g.data.length := by
      rw [hdata]
      exact Nat.le_mul_of_pos_left _ hplanes.1
    constructor
    · intro hreport
      simp only [decide_eq_true_eq] at hreport
      obtain ⟨hmode0, hmode, hwidth, hheight, hsize, hlayoutPlanes⟩ := hreport
      have hencode : ∃ bytes, GraphicsBeginResponse.encode ⟨transferId, adapter, g.videoMode, layout, g.planes, g.width, g.height,
          g.data.length, g.bytesPerPlane⟩ = .ok bytes := by
        rw [GraphicsBeginResponse.encode, structPack_isOk_iff]
        simp only [List.forall_mem_cons, List.not_mem_nil, false_implies, implies_true, and_true]
        omega
      obtain ⟨bytes, hbytes'⟩ := hencode
      refine ⟨bytes, ⟨transferId, adapter, g.videoMode, layout, g.planes, g.width, g.height, g.data.length, g.bytesPerPlane⟩,
        hbytes', ?_, rfl⟩
      rw [GraphicsBeginResponse.decode_of_encode hbytes']
      rw [raiseIf_false, ok_bind]
      · rfl
      · dsimp only
        simp only [not_or, not_not]
        refine ⟨by omega, hplanes, ⟨hdimensions.1, hwidth⟩, ⟨hdimensions.2, hheight⟩, by omega, by omega, hdata, ?_, ?_⟩
        · rintro ⟨hplanar, hne⟩
          rw [if_pos hplanar] at hlayoutPlanes
          exact hne hlayoutPlanes
        · rintro ⟨hplanar, hne⟩
          rw [if_neg hplanar] at hlayoutPlanes
          exact hne hlayoutPlanes
    · intro hno bytes h
      have hfields := structPack_isOk_iff.mp ⟨bytes, h⟩
      simp only [List.forall_mem_cons, List.not_mem_nil, false_implies, implies_true, and_true] at hfields
      rw [GraphicsBeginResponse.decode_of_encode h]
      refine ⟨.valueError "invalid graphics metadata", ?_⟩
      rw [raiseIf, if_pos]
      · rfl
      · dsimp only
        by_contra hok
        simp only [not_or, not_not] at hok
        refine absurd hno ?_
        simp only [decide_eq_false_iff_not, not_not]
        obtain ⟨-, -, hw, hh, -, -, -, h4, h1⟩ := hok
        refine ⟨by omega, by omega, by omega, by omega, by omega, ?_⟩
        split
        · rename_i hplanar
          by_contra hne
          exact h4 ⟨hplanar, hne⟩
        · rename_i hplanar
          by_contra hne
          exact h1 ⟨hplanar, hne⟩

/-- The server's answer to BEGIN when it has no transfer. -/
theorem startTransfer_none (env : Env) (kind : TransferKind) (data : Bytes) :
    ∃ t, startTransfer env none kind data = .ok t ∧ 1 ≤ t.transferId ∧ t.transferId < 256 ^ 2 ∧ t.data = data := by
  have h : startTransfer env none kind data = .ok _ := rfl
  obtain ⟨-, hpos, hlt, -, hdata, -⟩ := startTransfer_eq_ok h
  exact ⟨_, h, hpos, hlt, hdata⟩

/-- A request whose reply is an error of the operation raises. -/
theorem replyOf_error {env : Env} {active : Option Transfer} {opcode : Opcode} {payload : Bytes} {outcome : Outcome} {e : Exc}
    (ho : operate env active opcode payload = some outcome) (he : outcome.reply = .error e) :
    (replyOf env active opcode payload).transfer = outcome.transfer ∧
      ∃ e, (replyOf env active opcode payload).result = .error e := by
  unfold replyOf
  rw [ho]
  dsimp only
  rw [he]
  dsimp only
  split
  · exact ⟨rfl, _, (errorReply_result _ _ _).choose_spec⟩
  · exact ⟨rfl, _, (errorReply_result _ _ _).choose_spec⟩

theorem replyOf_response {env : Env} {active : Option Transfer} {opcode : Opcode} {payload bytes : Bytes} {outcome : Outcome}
    (ho : operate env active opcode payload = some outcome) (hr : outcome.reply = .ok bytes) :
    replyOf env active opcode payload = ⟨.response, bytes, outcome.transfer⟩ := by
  simp only [replyOf, ho, hr]

/-! ## The methods -/

section

variable {l : Link}

/-- A method that has decoded the answer to BEGIN releases the transfer; one that has not leaves
    what BEGIN left. -/
theorem begin_released {α β : Type} (method : Fallible Link Exc β) (decode : Bytes → Except Exc α)
    (body : α → Fallible Link Exc β) (opcode : Opcode) {payload : Bytes}
    (hmethod : method = Link.request opcode payload >>= fun answer => lift (decode answer) >>= body)
    (hready : l.Ready) (hopen : l.client.closed = false) (hnone : l.server.transfer = none)
    (hp : payload.length ≤ maxFragmentPayload) (hscreen : opcode ≠ .captureTextScreen) (hping : opcode ≠ .ping)
    (outcome : Outcome) (ho : operate l.nextEnv none opcode payload = some outcome)
    (hbody : ∀ bytes a l, outcome.reply = .ok bytes → decode bytes = .ok a → l.Synced →
      l.server.transfer = outcome.transfer → (body a l).2.Idle) :
    (method l).2.Ready ∧ ((method l).2.server.transfer = none ↔
      outcome.transfer = none ∨ ∃ bytes, outcome.reply = .ok bytes ∧ ∃ a, decode bytes = .ok a) := by
  obtain ⟨l', hrequest, hsynced, htransfer⟩ := hready.request hopen hnone hp (replyOf_short _ _ _ hscreen hping)
  rw [hmethod, Fallible.bind_apply, hrequest]
  cases hreply : outcome.reply with
  | error e =>
    obtain ⟨hleft, e', hresult⟩ := replyOf_error ho hreply
    rw [hresult]
    refine ⟨Or.inr (Or.inr hsynced), ?_⟩
    simp [htransfer, hleft]
  | ok bytes =>
    have hresponse := replyOf_response ho hreply
    rw [hresponse] at htransfer
    simp only [hresponse, Reply.result, Fallible.bind_apply, Fallible.lift_apply]
    cases hdecode : decode bytes with
    | error e =>
      refine ⟨Or.inr (Or.inr hsynced), ?_⟩
      simp [htransfer, hdecode]
    | ok a =>
      have hidle := hbody bytes a l' hreply hdecode hsynced htransfer
      refine ⟨Or.inr (Or.inr hidle.synced), ?_⟩
      simp [hidle.transfer_eq, hdecode]

/-- A link whose transfer is the one BEGIN started. -/
theorem Link.Synced.during {t : Transfer} (h : l.Synced) (ht : l.server.transfer = some t) : l.During t.transferId := by
  refine ⟨h, fun u hu => ?_⟩
  rw [ht] at hu
  obtain rfl := Option.some.inj hu
  rfl

theorem captureGraphics_released (hready : l.Ready) (hopen : l.client.closed = false) (hnone : l.server.transfer = none) :
    (captureGraphics Link.request l).2.Ready ∧
      ((captureGraphics Link.request l).2.server.transfer = none ↔
        ∀ g, l.nextEnv.backend.captureGraphics = .ok g → g.reportable = true) := by
  have hreleased := begin_released (captureGraphics Link.request) _ _ _ rfl hready hopen hnone (Nat.zero_le _) (by decide)
    (by decide)
  cases hg : l.nextEnv.backend.captureGraphics with
  | error e =>
    have ho : operate l.nextEnv none .graphicsBegin [] = some ⟨.error e, none, [.captureGraphics]⟩ := by
      simp [operate, graphicsBegin, requireEmpty, raiseIf, hg]
    refine (hreleased _ ho fun _ _ _ hreply => (by cases hreply)).imp_right fun hiff => hiff.trans ?_
    simp
  | ok g =>
    obtain ⟨t, ht, hpos, hlt, -⟩ := startTransfer_none l.nextEnv .graphics g.data
    have ho : operate l.nextEnv none .graphicsBegin [] =
        some ⟨graphicsBeginMessage g t.transferId >>= GraphicsBeginResponse.encode, some t, [.captureGraphics]⟩ := by
      simp [operate, graphicsBegin, requireEmpty, raiseIf, hg, ht]
    obtain ⟨hreported, hrefused⟩ := graphicsBegin_reported g ⟨hpos, hlt⟩
    have hcondition : (∃ bytes, (graphicsBeginMessage g t.transferId >>= GraphicsBeginResponse.encode) = .ok bytes ∧
        ∃ m, GraphicsBeginResponse.decode bytes = .ok m) ↔ g.reportable = true := by
      constructor
      · rintro ⟨bytes, hreply, m, hdecode⟩
        by_contra hno
        obtain ⟨e, he⟩ := hrefused (Bool.not_eq_true _ ▸ hno) bytes hreply
        rw [hdecode] at he
        cases he
      · intro hr
        obtain ⟨bytes, m, hreply, hdecode, -⟩ := hreported hr
        exact ⟨bytes, hreply, m, hdecode⟩
    refine (hreleased _ ho ?_).imp_right fun hiff => hiff.trans ?_
    · intro bytes m l' hreply hdecode hsynced htransfer
      obtain ⟨bytes', m', hreply', hdecode', hid⟩ := hreported (hcondition.mp ⟨bytes, hreply, m, hdecode⟩)
      dsimp only at hreply
      obtain rfl := Except.ok.inj (hreply.symm.trans hreply')
      obtain rfl := Except.ok.inj (hdecode.symm.trans hdecode')
      have hduring := hsynced.during htransfer
      rw [← hid] at hduring hpos hlt
      split
      · refine Fallible.holds_bind (abortTransfer_idle ⟨hpos, hlt⟩ hduring) fun _ => ?_
        exact Fallible.keeps_raise _
      · refine Fallible.holds_bind (downloadTransfer_idle ⟨hpos, hlt⟩ (Or.inr ⟨rfl, rfl⟩) m.totalSize hduring) fun result => ?_
        exact Fallible.keeps_ite (Fallible.keeps_raise _) (Fallible.keeps_lift _)
    · simp [hcondition]

/-- What `download_file` sends as BEGIN, where it sends one. -/
def readBeginPayload (path : List Char) : Except Exc Bytes := do
  let encodedPath ← encodeDosPath path
  FileReadBeginRequest.encode ⟨encodedPath⟩

def writeBeginPayload (path : List Char) (data : Bytes) (overwrite : Bool) : Except Exc Bytes := do
  let encodedPath ← encodeDosPath path
  FileWriteBeginRequest.encode ⟨encodedPath, data.length, crc32 data 0, overwrite⟩

theorem encodeDosPath_eq_ok {path : List Char} {encoded : Bytes} (h : encodeDosPath path = .ok encoded) :
    cp437Encode path = some encoded := by
  unfold encodeDosPath at h
  split at h
  · cases h
  · cases h
  · rename_i bytes _ heq
    rw [heq, Except.ok.inj h]

theorem downloadFile_released (hready : l.Ready) (hopen : l.client.closed = false) (hnone : l.server.transfer = none)
    {path : List Char} {payload : Bytes} (hpayload : readBeginPayload path = .ok payload) :
    (downloadFile Link.request true path l).2.Ready ∧
      ((downloadFile Link.request true path l).2.server.transfer = none ↔
        ∀ contents, l.nextEnv.backend.downloadFile path = .ok contents → contents.data.length < 256 ^ 4) := by
  obtain ⟨encoded, hencoded, hbegin⟩ := bind_eq_ok.mp hpayload
  have hdecode := FileReadBeginRequest.decode_of_encode hbegin
  have hpath := cp437Decode_encode (encodeDosPath_eq_ok hencoded)
  have hlen : payload.length ≤ maxFragmentPayload := by
    obtain ⟨u, hvalid, hbs⟩ := bind_eq_ok.mp hbegin
    obtain rfl := Except.ok.inj hbs
    have := validatePath_eq_ok hvalid
    simp only [List.length_cons, maxFragmentPayload, maxDosPathBytes] at *
    omega
  simp only [downloadFile, not_true_eq_false, if_false, hencoded, hbegin, Fallible.lift_ok_bind]
  have hreleased := fun {β body} => begin_released (β := β) _ TransferBeginResponse.decode body .fileReadBegin rfl hready hopen
    hnone hlen (by decide) (by decide)
  cases hd : l.nextEnv.backend.downloadFile path with
  | error e =>
    have ho : operate l.nextEnv none .fileReadBegin payload = some ⟨.error e, none, [.downloadFile path]⟩ := by
      simp [operate, fileReadBegin, hdecode, hpath, hd]
    refine (hreleased _ ho fun _ _ _ hreply => (by cases hreply)).imp_right fun hiff => hiff.trans ?_
    simp
  | ok contents =>
    obtain ⟨t, ht, hpos, hlt, hdata⟩ := startTransfer_none l.nextEnv .fileRead contents.data
    have ho : operate l.nextEnv none .fileReadBegin payload =
        some ⟨TransferBeginResponse.encode ⟨t.transferId, contents.data.length⟩, some t, [.downloadFile path]⟩ := by
      simp [operate, fileReadBegin, hdecode, hpath, hd, ht, hdata]
    have hreply : ∀ bytes, TransferBeginResponse.encode ⟨t.transferId, contents.data.length⟩ = .ok bytes →
        TransferBeginResponse.decode bytes = .ok ⟨t.transferId, contents.data.length⟩ :=
      fun bytes h => TransferBeginResponse.decode_of_encode h (Nat.ne_of_gt hpos)
    refine (hreleased _ ho ?_).imp_right fun hiff => hiff.trans ?_
    · intro bytes m l' hencode hm hsynced htransfer
      obtain rfl := Except.ok.inj (hm.symm.trans (hreply bytes hencode))
      have hduring := hsynced.during htransfer
      split
      · refine Fallible.holds_bind (abortTransfer_idle ⟨hpos, hlt⟩ hduring) fun _ => ?_
        exact Fallible.keeps_raise _
      · refine Fallible.holds_bind (downloadTransfer_idle ⟨hpos, hlt⟩ (Or.inl ⟨rfl, rfl⟩) _ hduring) fun result => ?_
        exact Fallible.keeps_ite (Fallible.keeps_raise _) (Fallible.keeps_pure _)
    · have hisOk := TransferBeginResponse.encode_isOk_iff (m := ⟨t.transferId, contents.data.length⟩)
      constructor
      · rintro (hsome | ⟨bytes, hencode, -⟩) contents' hcontents
        · cases hsome
        · cases hcontents
          exact (hisOk.mp ⟨bytes, hencode⟩).2
      · intro hsize
        obtain ⟨bytes, hencode⟩ := hisOk.mpr ⟨hlt, hsize contents rfl⟩
        exact Or.inr ⟨bytes, hencode, _, hreply bytes hencode⟩

/-- The blocks and the COMMIT of an upload, or its ABORT. -/
theorem uploadTransfer_idle {transferId : Nat} (hid : 1 ≤ transferId ∧ transferId < 256 ^ 2) (data : Bytes)
    (h : l.During transferId) :
    (onRaise
      (do
        uploadBlocks Link.request transferId data (blockOffsets data) 0
        let payload ← lift (TransferEndRequest.encode ⟨transferId⟩)
        let answer ← Link.request .fileWriteCommit payload
        lift (TransferEndResponse.decode answer))
      (abortTransfer Link.request transferId) l).2.Idle := by
  have hblocks := keeps_uploadBlocks transferId data (blockOffsets data) 0
  refine Fallible.onRaise_establishes (P := Link.During transferId) (hblocks.bind fun _ => ?_) ?_
    (fun l h => abortTransfer_idle hid h) h
  · refine Fallible.keeps_lift_bind fun payload hpayload => ?_
    refine (keeps_request rfl (by decide) (by decide) (endRequest_length hpayload)).bind fun answer => ?_
    exact Fallible.keeps_lift _
  · intro s a t hs hrun
    obtain ⟨_, u, hupload, hrun⟩ := Fallible.bind_eq_ok hrun
    obtain ⟨payload, v, hpayload, hrun⟩ := Fallible.bind_eq_ok hrun
    obtain ⟨hencode, rfl⟩ := Fallible.lift_eq hpayload
    obtain ⟨answer, w, hrequest, hrun⟩ := Fallible.bind_eq_ok hrun
    obtain ⟨-, rfl⟩ := Fallible.lift_eq hrun
    have hu : u.During transferId := by
      have := hblocks s hs
      rwa [hupload] at this
    exact idle_of_end (Or.inr (Or.inr rfl)) (endRequest_length hencode) hu hrequest

theorem uploadFile_released (hready : l.Ready) (hopen : l.client.closed = false) (hnone : l.server.transfer = none)
    {path : List Char} {data : Bytes} (hsize : data.length ≤ maxFileSize) {overwrite : Bool} {payload : Bytes}
    (hpayload : writeBeginPayload path data overwrite = .ok payload) :
    (uploadFile Link.request true path data overwrite l).2.Ready ∧
      (uploadFile Link.request true path data overwrite l).2.server.transfer = none := by
  obtain ⟨encoded, hencoded, hbegin⟩ := bind_eq_ok.mp hpayload
  have hdecode := FileWriteBeginRequest.decode_of_encode hbegin
  have hlen : payload.length ≤ maxFragmentPayload := by
    obtain ⟨_, hvalid, hrest⟩ := bind_eq_ok.mp hbegin
    obtain ⟨_, -, hrest⟩ := bind_eq_ok.mp hrest
    obtain ⟨head, hhead, hbs⟩ := bind_eq_ok.mp hrest
    obtain rfl := Except.ok.inj hbs
    have hten : head.length = 10 := structPack_length hhead
    have := validatePath_eq_ok hvalid
    simp only [List.length_append, maxFragmentPayload, maxDosPathBytes] at *
    omega
  simp only [uploadFile, not_true_eq_false, if_false, Nat.not_lt.mpr hsize, hencoded, hbegin, Fallible.lift_ok_bind]
  obtain ⟨t, ht, hpos, hlt, -⟩ := startTransfer_none l.nextEnv .fileWrite []
  obtain ⟨bytes, hencode⟩ := (TransferBeginResponse.encode_isOk_iff (m := ⟨t.transferId, data.length⟩)).mpr
    ⟨hlt, Nat.lt_of_le_of_lt hsize (by decide)⟩
  have hreply := TransferBeginResponse.decode_of_encode hencode (Nat.ne_of_gt hpos)
  have ho : operate l.nextEnv none .fileWriteBegin payload =
      some ⟨.ok bytes, some { t with path := cp437Decode encoded, expectedSize := data.length,
                                     expectedCrc32 := crc32 data 0, overwrite := overwrite }, []⟩ := by
    have hlimit : ¬ maxUploadSize < data.length := Nat.not_lt.mpr hsize
    simp [operate, fileWriteBegin, hdecode, hlimit, ht, hencode]
  refine (begin_released _ _ _ _ rfl hready hopen hnone hlen (by decide) (by decide) _ ho ?_).imp_right fun hiff => hiff.mpr ?_
  · intro bytes' m l' hbytes hm hsynced htransfer
    obtain rfl := Except.ok.inj hbytes
    obtain rfl := Except.ok.inj (hm.symm.trans hreply)
    have hduring := hsynced.during htransfer
    refine Fallible.holds_bind (uploadTransfer_idle ⟨hpos, hlt⟩ data hduring) fun finish => ?_
    exact Fallible.keeps_ite (Fallible.keeps_raise _) (Fallible.keeps_pure _)
  · exact Or.inr ⟨bytes, rfl, _, hreply⟩

/-! ## Calls in a row -/

/-- The transfer methods with their arguments. -/
inductive TransferCall where
  | captureGraphics
  | downloadFile (path : List Char)
  | uploadFile (path : List Char) (data : Bytes) (overwrite : Bool)

/-- The link once the call has returned or raised. -/
def Link.finish (l : Link) : TransferCall → Link
  | .captureGraphics => (captureGraphics Link.request l).2
  | .downloadFile path => (downloadFile Link.request l.client.allowFileRead path l).2
  | .uploadFile path data overwrite => (uploadFile Link.request l.client.allowFileWrite path data overwrite l).2

/-- The server has no transfer, and starts the next one. -/
def Link.Released (l : Link) : Prop :=
  l.server.transfer = none ∧ ∀ env kind data, ∃ t, startTransfer env l.server.transfer kind data = .ok t

/-- What the backend answers to BEGIN, if one is sent, can be reported to the bridge. -/
def TransferCall.Reportable (l : Link) : TransferCall → Prop
  | .captureGraphics => l.client.closed = false →
    ∀ g, l.nextEnv.backend.captureGraphics = .ok g → g.reportable = true
  | .downloadFile path => l.client.closed = false → l.client.allowFileRead = true → (readBeginPayload path).isOk = true →
    ∀ contents, l.nextEnv.backend.downloadFile path = .ok contents → contents.data.length < 256 ^ 4
  | .uploadFile _ _ _ => True

theorem released_iff : l.Released ↔ l.server.transfer = none := by
  refine ⟨And.left, fun h => ⟨h, fun env kind data => ?_⟩⟩
  obtain ⟨t, ht, -⟩ := startTransfer_none env kind data
  exact ⟨t, h ▸ ht⟩

/-- A closed client sends nothing. -/
theorem request_closed {β : Type} (h : l.client.closed = true) (opcode : Opcode) (payload : Bytes)
    (rest : Bytes → Fallible Link Exc β) : ((Link.request opcode payload >>= rest) l).2 = l := by
  rw [Fallible.bind_apply, Link.request, if_pos h]

/-- `download_file` raises before BEGIN, or its BEGIN has the payload of the path. -/
theorem downloadFile_sends (allowFileRead : Bool) (path : List Char) :
    ((downloadFile Link.request allowFileRead path l).2 = l ∧
        (allowFileRead = true → (readBeginPayload path).isOk = false)) ∨
      ∃ payload, allowFileRead = true ∧ readBeginPayload path = .ok payload ∧
        ∃ rest, downloadFile Link.request allowFileRead path = Link.request .fileReadBegin payload >>= rest := by
  cases allowFileRead with
  | false => exact Or.inl ⟨rfl, nofun⟩
  | true =>
    cases hencoded : encodeDosPath path with
    | error e =>
      refine Or.inl ⟨?_, fun _ => by rw [readBeginPayload, hencoded]; rfl⟩
      simp [downloadFile, hencoded, Fallible.lift_error_bind]
    | ok encoded =>
      cases hbegin : FileReadBeginRequest.encode ⟨encoded⟩ with
      | error e =>
        refine Or.inl ⟨?_, fun _ => by rw [readBeginPayload, hencoded, ok_bind, hbegin]; rfl⟩
        simp [downloadFile, hencoded, hbegin, Fallible.lift_ok_bind, Fallible.lift_error_bind]
      | ok payload =>
        refine Or.inr ⟨payload, rfl, by rw [readBeginPayload, hencoded, ok_bind, hbegin], ?_⟩
        simp only [downloadFile, not_true_eq_false, if_false, hencoded, hbegin, Fallible.lift_ok_bind]
        exact ⟨_, rfl⟩

/-- `upload_file` raises before BEGIN, or its BEGIN has the payload of its arguments. -/
theorem uploadFile_sends (allowFileWrite : Bool) (path : List Char) (data : Bytes) (overwrite : Bool) :
    (uploadFile Link.request allowFileWrite path data overwrite l).2 = l ∨
      ∃ payload, allowFileWrite = true ∧ data.length ≤ maxFileSize ∧ writeBeginPayload path data overwrite = .ok payload ∧
        ∃ rest, uploadFile Link.request allowFileWrite path data overwrite = Link.request .fileWriteBegin payload >>= rest := by
  cases allowFileWrite with
  | false => exact Or.inl rfl
  | true =>
    by_cases hsize : data.length > maxFileSize
    · left
      simp [uploadFile, hsize]
    cases hencoded : encodeDosPath path with
    | error e =>
      left
      simp [uploadFile, hsize, hencoded, Fallible.lift_error_bind]
    | ok encoded =>
      cases hbegin : FileWriteBeginRequest.encode ⟨encoded, data.length, crc32 data 0, overwrite⟩ with
      | error e =>
        left
        simp [uploadFile, hsize, hencoded, hbegin, Fallible.lift_ok_bind, Fallible.lift_error_bind]
      | ok payload =>
        refine Or.inr ⟨payload, rfl, Nat.not_lt.mp hsize, by rw [writeBeginPayload, hencoded]; exact hbegin, ?_⟩
        simp only [uploadFile, not_true_eq_false, if_false, hsize, hencoded, hbegin, Fallible.lift_ok_bind]
        exact ⟨_, rfl⟩

/-- One call. -/
theorem finish_released_iff (hready : l.Ready) (hnone : l.server.transfer = none) (call : TransferCall) :
    (l.finish call).Ready ∧ ((l.finish call).server.transfer = none ↔ call.Reportable l) := by
  -- a call that sends nothing
  have hunsent : l.finish call = l → call.Reportable l →
      (l.finish call).Ready ∧ ((l.finish call).server.transfer = none ↔ call.Reportable l) := by
    intro hsame hreport
    rw [hsame]
    exact ⟨hready, iff_of_true hnone hreport⟩
  cases call with
  | captureGraphics =>
    cases hopen : l.client.closed with
    | true => exact hunsent (request_closed hopen _ _ _) (by simp [TransferCall.Reportable, hopen])
    | false =>
      refine (captureGraphics_released hready hopen hnone).imp_right fun hiff => hiff.trans ?_
      simp [TransferCall.Reportable, hopen]
  | downloadFile path =>
    rcases downloadFile_sends (l := l) l.client.allowFileRead path with ⟨hsame, hno⟩ | ⟨payload, hallow, hpayload, rest, hsends⟩
    · refine hunsent hsame fun _ hallow hok => ?_
      rw [hno hallow] at hok
      cases hok
    · cases hopen : l.client.closed with
      | true =>
        refine hunsent ?_ (by simp [TransferCall.Reportable, hopen])
        rw [Link.finish, hsends]
        exact request_closed hopen _ _ _
      | false =>
        rw [Link.finish, hallow]
        refine (downloadFile_released hready hopen hnone hpayload).imp_right fun hiff => hiff.trans ?_
        simp [TransferCall.Reportable, hopen, hallow, hpayload, Except.isOk, Except.toBool]
  | uploadFile path data overwrite =>
    rcases uploadFile_sends (l := l) l.client.allowFileWrite path data overwrite with
      hsame | ⟨payload, hallow, hsize, hpayload, rest, hsends⟩
    · exact hunsent hsame trivial
    · cases hopen : l.client.closed with
      | true =>
        refine hunsent ?_ trivial
        rw [Link.finish, hsends]
        exact request_closed hopen _ _ _
      | false =>
        rw [Link.finish, hallow]
        exact (uploadFile_released hready hopen hnone hsize hpayload).imp_right fun h => iff_of_true h trivial

/-- The link after some calls in a row. -/
def Link.finishAll (l : Link) (calls : List TransferCall) : Link := calls.foldl Link.finish l

theorem finishAll_succ {calls : List TransferCall} {n : Nat} {call : TransferCall} (h : calls[n]? = some call) :
    l.finishAll (calls.take (n + 1)) = (l.finishAll (calls.take n)).finish call := by
  rw [List.take_add_one, h, Link.finishAll, List.foldl_append]
  rfl

/-- A run of the transfer methods leaves no transfer behind, after any of its calls, exactly if
    what the backend answers to every BEGIN can be reported. -/
theorem transfer_released_iff (hready : l.Ready) (hnone : l.server.transfer = none) (calls : List TransferCall) :
    (∀ n ≤ calls.length, (l.finishAll (calls.take n)).Released) ↔
      ∀ (n : Nat) (call : TransferCall), calls[n]? = some call → call.Reportable (l.finishAll (calls.take n)) := by
  simp only [released_iff]
  have hcallAt : ∀ n < calls.length, ∃ call, calls[n]? = some call := fun n hn => ⟨_, List.getElem?_eq_getElem hn⟩
  constructor
  · intro h
    -- the links between the calls are ready: a call made without a transfer leaves one that is
    have hreadyAt : ∀ n ≤ calls.length, (l.finishAll (calls.take n)).Ready := by
      intro n hn
      induction n with
      | zero => exact hready
      | succ n ih =>
        obtain ⟨call, hcall⟩ := hcallAt n (by omega)
        rw [finishAll_succ hcall]
        exact (finish_released_iff (ih (by omega)) (h n (by omega)) call).1
    intro n call hcall
    have hn : n < calls.length := (List.getElem?_eq_some_iff.mp hcall).1
    have hnext := h (n + 1) hn
    rw [finishAll_succ hcall] at hnext
    exact (finish_released_iff (hreadyAt n (by omega)) (h n (by omega)) call).2.mp hnext
  · intro h
    suffices hboth : ∀ n ≤ calls.length,
        (l.finishAll (calls.take n)).Ready ∧ (l.finishAll (calls.take n)).server.transfer = none from
      fun n hn => (hboth n hn).2
    intro n hn
    induction n with
    | zero => exact ⟨hready, hnone⟩
    | succ n ih =>
      obtain ⟨hbefore, hnoneBefore⟩ := ih (by omega)
      obtain ⟨call, hcall⟩ := hcallAt n (by omega)
      rw [finishAll_succ hcall]
      have hfinish := finish_released_iff hbefore hnoneBefore call
      exact ⟨hfinish.1, hfinish.2.mpr (h n call hcall)⟩

end

/-! ## Narrow and wide screens -/

/-- A screen of one row, which `GraphicsScreen` accepts whatever its width. -/
def rowScreen (width : Nat) (h : 1 ≤ width) : GraphicsScreen where
  adapter := "VGA"
  videoMode := 0
  layout := "packed-8bpp"
  width := width
  height := 1
  planes := 1
  bytesPerPlane := 1
  data := [0]
  dimensions_pos := ⟨h, GraphicsScreen.one_pos⟩
  planes_range := by decide
  bytesPerPlane_pos := GraphicsScreen.one_pos
  data_length := rfl

/-- A bridge and a server that have just been constructed, over a backend with this screen. -/
def screenLink (screen : GraphicsScreen) : Link where
  client := ⟨("10.0.0.1", 21300), zeroKey, 3, true, true, 0, none, 1, false⟩
  address := ("10.0.0.2", 40000)
  server := .start zeroKey false
  serving := true
  inbox := []
  envs := fun _ => ⟨{ quietBackend with captureGraphics := .ok screen }, 7, 0⟩
  nonces := fun _ => 0

theorem screenLink_ready (screen : GraphicsScreen) : (screenLink screen).Ready :=
  Or.inr (Or.inl ⟨rfl, rfl, rfl, nofun, rfl, rfl⟩)

theorem screenLink_reportable {screen : GraphicsScreen} :
    TransferCall.captureGraphics.Reportable (screenLink screen) ↔ screen.reportable = true := by
  refine ⟨fun h => h rfl screen rfl, fun h _ g hg => ?_⟩
  obtain rfl := Except.ok.inj hg
  exact h

/-- A capture 2048 pixels wide and an upload. -/
theorem transfer_released_narrow :
    (rowScreen 2048 (by decide)).reportable = true ∧
      ∀ n ≤ 2, ((screenLink (rowScreen 2048 (by decide))).finishAll
        (List.take n [.captureGraphics, .uploadFile ['A'] [1, 2] true])).Released := by
  refine ⟨by decide, (transfer_released_iff (screenLink_ready _) rfl
    [.captureGraphics, .uploadFile ['A'] [1, 2] true]).mpr ?_⟩
  intro n call hcall
  match n with
  | 0 =>
    obtain rfl := Option.some.inj hcall
    exact screenLink_reportable.mpr (by decide)
  | 1 =>
    obtain rfl := Option.some.inj hcall
    trivial
  | n + 2 => cases hcall

/-- A capture 2049 pixels wide leaves its transfer behind, and the next BEGIN is refused. -/
theorem wide_screen_left_behind :
    (screenLink (rowScreen 2049 (by decide))).Ready ∧ (screenLink (rowScreen 2049 (by decide))).server.transfer = none ∧
      ((screenLink (rowScreen 2049 (by decide))).finish .captureGraphics).server.transfer ≠ none ∧
      ∀ env kind data, startTransfer env ((screenLink (rowScreen 2049 (by decide))).finish .captureGraphics).server.transfer
        kind data = .error (.runtimeError "another transfer is active") := by
  have hready := screenLink_ready (rowScreen 2049 (by decide))
  have hleft : ((screenLink (rowScreen 2049 (by decide))).finish .captureGraphics).server.transfer ≠ none := by
    rw [Ne, (finish_released_iff hready rfl .captureGraphics).2, screenLink_reportable]
    decide
  refine ⟨hready, rfl, hleft, fun env kind data => ?_⟩
  obtain ⟨t, ht⟩ := Option.ne_none_iff_exists'.mp hleft
  rw [ht]
  rfl

end DosMcp
