/-
  DosMcp.System.FileTransfer — files between a bridge and an agent server over a lossy,
  reordering, duplicating network.

  A run is one of `Wire`: any requests of the client, and then a call of `upload_file` or
  `download_file`.

  - `stale_begin_uploads_other_file`: a refused replay lets late copies of ABORT and BEGIN run
    again. Where the second transfer draws the ID of the first, `upload_file` returns, and the
    backend has been given another path.
  - `files_arrive`: in every run without refused replays an upload that returns was handed to
    the backend with its path, data and flag, and a download that returns has the bytes the
    backend returned for its path.
-/

import DosMcp.System.Wire

namespace DosMcp

open Lib
open Fallible (lift raise onRaise)

/-! ## Operations that reply -/

section

variable {env : Env} {active : Option Transfer} {payload answer : Bytes} {outcome : Outcome}

/-- BEGIN of an upload that is answered: there was no transfer, and there is this one. -/
theorem fileWriteBegin_reply {request : FileWriteBeginRequest} {begin : TransferBeginResponse}
    (hencode : request.encode = .ok payload) (hoperate : operate env active .fileWriteBegin payload = some outcome)
    (hreply : outcome.reply = .ok answer) (hdecode : TransferBeginResponse.decode answer = .ok begin) :
    ∃ t, outcome.transfer = some t ∧ t.kind = .fileWrite ∧ t.transferId = begin.transferId ∧ t.data = [] ∧
      t.path = cp437Decode request.path ∧ t.overwrite = request.overwrite := by
  obtain rfl := Option.some.inj hoperate
  simp only [fileWriteBegin, FileWriteBeginRequest.decode_of_encode hencode] at hreply ⊢
  split at hreply
  · cases hreply
  rename_i hsize
  cases hstart : startTransfer env active .fileWrite [] with
  | error e =>
    rw [hstart] at hreply
    cases hreply
  | ok t =>
    obtain ⟨-, hpos, -, hkind, hdata, -⟩ := startTransfer_eq_ok hstart
    rw [hstart] at hreply
    rw [TransferBeginResponse.decode_of_encode hreply (by simp only; omega)] at hdecode
    obtain rfl := Except.ok.inj hdecode
    simp only [hsize, if_false]
    exact ⟨_, rfl, hkind, rfl, hdata, rfl, rfl⟩

/-- A block that is answered has been added to the upload. -/
theorem fileWriteBlock_reply {request : TransferBlockRequest} (hencode : request.encode = .ok payload)
    (hdata : request.data.length = request.length) (hoperate : operate env active .fileWriteBlock payload = some outcome)
    (hreply : outcome.reply = .ok answer) :
    ∃ t t', active = some t ∧ outcome.transfer = some t' ∧ t'.kind = t.kind ∧ t'.transferId = t.transferId ∧
      t'.data = t.data ++ request.data ∧ t'.path = t.path ∧ t'.overwrite = t.overwrite := by
  have hnonempty : request.data ≠ [] := by
    rintro hnil
    have := (TransferBlockRequest.encode_eq_ok hencode).2.1
    rw [← hdata, hnil] at this
    cases this
  have hdecode := TransferBlockRequest.decode_of_encode hencode
  rw [decide_eq_true hnonempty] at hdecode
  obtain rfl := Option.some.inj hoperate
  simp only [hdecode, withRequest, writeTransferBlock] at hreply ⊢
  cases hrequire : requireTransfer active request.transferId .fileWrite with
  | error e =>
    rw [hrequire] at hreply
    cases hreply
  | ok t =>
    obtain ⟨rfl, -, -⟩ := requireTransfer_eq_ok hrequire
    rw [hrequire] at hreply
    dsimp only at hreply ⊢
    split at hreply
    · cases hreply
    · rename_i hbad
      simp only [hbad, if_false]
      exact ⟨t, _, rfl, rfl, rfl, rfl, rfl, rfl, rfl⟩

/-- A COMMIT that is answered has called `upload_file`. -/
theorem fileWriteCommit_reply {request : TransferEndRequest} (hencode : request.encode = .ok payload)
    (hoperate : operate env active .fileWriteCommit payload = some outcome) (hreply : outcome.reply = .ok answer) :
    ∃ t, active = some t ∧ .uploadFile t.path t.data t.overwrite ∈ outcome.calls := by
  obtain rfl := Option.some.inj hoperate
  simp only [TransferEndRequest.decode_of_encode hencode, withRequest, commitWriteTransfer] at hreply ⊢
  cases hrequire : requireTransfer active request.transferId .fileWrite with
  | error e =>
    rw [hrequire] at hreply
    cases hreply
  | ok t =>
    obtain ⟨rfl, -, -⟩ := requireTransfer_eq_ok hrequire
    rw [hrequire] at hreply
    dsimp only at hreply ⊢
    split at hreply
    · cases hreply
    · rename_i hbad
      refine ⟨t, rfl, ?_⟩
      simp only [hbad, if_false]
      repeat' split
      all_goals exact List.mem_singleton_self _

/-- BEGIN of a download that is answered: the backend has returned the file. -/
theorem fileReadBegin_reply {request : FileReadBeginRequest} {begin : TransferBeginResponse}
    (hencode : request.encode = .ok payload) (hoperate : operate env active .fileReadBegin payload = some outcome)
    (hreply : outcome.reply = .ok answer) (hdecode : TransferBeginResponse.decode answer = .ok begin) :
    ∃ contents t, env.backend.downloadFile (cp437Decode request.path) = .ok contents ∧ outcome.transfer = some t ∧
      t.data = contents.data ∧ t.offset = 0 ∧ begin.totalSize = contents.data.length ∧
      outcome.calls = [.downloadFile (cp437Decode request.path)] := by
  obtain rfl := Option.some.inj hoperate
  simp only [fileReadBegin, FileReadBeginRequest.decode_of_encode hencode] at hreply ⊢
  cases hfile : env.backend.downloadFile (cp437Decode request.path) with
  | error e =>
    rw [hfile] at hreply
    cases hreply
  | ok contents =>
    rw [hfile] at hreply
    dsimp only at hreply ⊢
    cases hstart : startTransfer env active .fileRead contents.data with
    | error e =>
      rw [hstart] at hreply
      cases hreply
    | ok t =>
      obtain ⟨-, hpos, -, -, hdata, hoffset, -⟩ := startTransfer_eq_ok hstart
      rw [hstart] at hreply
      rw [TransferBeginResponse.decode_of_encode hreply (by simp only; omega)] at hdecode
      obtain rfl := Except.ok.inj hdecode
      exact ⟨contents, t, rfl, rfl, hdata, hoffset, congrArg List.length hdata, rfl⟩

/-- A block that is answered is the next one of what is read. -/
theorem readBlock_reply {opcode : Opcode} (hopcode : opcode = .fileReadBlock ∨ opcode = .graphicsBlock)
    {request : TransferBlockRequest} {response : TransferBlockResponse} (hnil : request.data = [])
    (hencode : request.encode = .ok payload) (hoperate : operate env active opcode payload = some outcome)
    (hreply : outcome.reply = .ok answer) (hdecode : TransferBlockResponse.decode answer = .ok response) :
    ∃ t t', active = some t ∧ outcome.transfer = some t' ∧ t'.data = t.data ∧ t'.offset = t.offset + response.data.length ∧
      response.data = slice t.data t.offset request.length := by
  have hrequest := TransferBlockRequest.decode_of_encode hencode
  rw [decide_eq_false (not_not.mpr hnil)] at hrequest
  obtain ⟨kind, hrun⟩ : ∃ kind, outcome = readTransferBlock active request kind := by
    rcases hopcode with rfl | rfl
    · obtain rfl := Option.some.inj hoperate
      exact ⟨.fileRead, by rw [hrequest]; rfl⟩
    · obtain rfl := Option.some.inj hoperate
      exact ⟨.graphics, by rw [hrequest]; rfl⟩
  subst hrun
  simp only [readTransferBlock] at hreply ⊢
  cases hrequire : requireTransfer active request.transferId kind with
  | error e =>
    rw [hrequire] at hreply
    cases hreply
  | ok t =>
    obtain ⟨rfl, -, -⟩ := requireTransfer_eq_ok hrequire
    rw [hrequire] at hreply
    dsimp only at hreply ⊢
    split at hreply
    · cases hreply
    · rename_i hoffset
      rw [TransferBlockResponse.decode_of_encode hreply] at hdecode
      obtain rfl := Except.ok.inj hdecode
      simp only [hoffset, if_false]
      exact ⟨t, _, rfl, rfl, rfl, rfl, rfl⟩

end

/-! ## Programs that return -/

/-- A later state of the session. -/
structure Wire.Reaches (o : Opening) (w w' : Wire) : Prop where
  grows : w.Grows w'
  sound : w'.Sound o

section

variable {o : Opening} {u w w' : Wire} {t : Transfer}

theorem Wire.Reaches.trans (h : u.Reaches o w) (k : w.Reaches o w') : u.Reaches o w' := ⟨h.grows.trans k.grows, k.sound⟩

theorem Wire.Sound.reaches (h : w.Sound o) {opcode : Opcode} {payload : Bytes} {r : Except Exc Bytes}
    (hrequest : Wire.request o opcode payload w = (r, w')) : w.Reaches o w' := by
  have hgrows := Wire.grows_request o opcode payload w
  have hsound := h.request opcode payload
  rw [hrequest] at hgrows hsound
  exact ⟨hgrows, hsound⟩

theorem Wire.Reaches.clean (h : w.Reaches o w') (hsound : w.Sound o) (hclean : w'.Clean o) : w.Clean o :=
  h.grows.clean hsound.toLinked h.sound.toLinked hclean

/-- Everything issued was served, and left the transfer. -/
structure Wire.Holds (w : Wire) (t : Transfer) : Prop where
  caughtUp : w.CaughtUp
  transfer_eq : w.net.server.transfer = some t

/-- The block loop adds its blocks to the upload. -/
theorem uploadBlocks_returns {transferId crc : Nat} {data : Bytes} {offsets : List Nat} (h : w.Sound o)
    (hreturn : uploadBlocks (Wire.request o) transferId data offsets crc w = (.ok (), w')) :
    w.Reaches o w' ∧ (w'.Clean o → ∀ t, w.Holds t → ∃ t', w'.Holds t' ∧ t'.path = t.path ∧ t'.overwrite = t.overwrite ∧
      t'.data = t.data ++ (offsets.map fun offset => slice data offset transferBlockSize).flatten) := by
  induction offsets generalizing w crc with
  | nil =>
    obtain rfl : w = w' := congrArg Prod.snd hreturn
    exact ⟨⟨.refl w, h⟩, fun _ t ht => ⟨t, ht, rfl, rfl, (List.append_nil _).symm⟩⟩
  | cons offset offsets ih =>
    rw [uploadBlocks] at hreturn
    obtain ⟨payload, hpayload, hreturn⟩ := Fallible.lift_bind_eq_ok hreturn
    obtain ⟨answer, w₁, hrequest, hreturn⟩ := Fallible.bind_eq_ok hreturn
    obtain ⟨response, -, hreturn⟩ := Fallible.lift_bind_eq_ok hreturn
    split at hreturn
    · cases hreturn
    have hfirst := h.reaches hrequest
    obtain ⟨hrest, hadds⟩ := ih hfirst.sound hreturn
    refine ⟨hfirst.trans hrest, fun hclean t ht => ?_⟩
    obtain ⟨e, outcome, hr⟩ := h.returned (by decide) hrequest (hrest.clean hfirst.sound hclean)
    obtain ⟨t₀, t₁, hactive, hnext, -, -, hdata, hpath, hoverwrite⟩ := fileWriteBlock_reply hpayload rfl hr.operated hr.reply_eq
    obtain rfl : t = t₀ := Option.some.inj (by rw [← ht.transfer_eq, ← hr.active ht.caughtUp, hactive])
    obtain ⟨t', ht', hpath', hoverwrite', hdata'⟩ := hadds hclean t₁ ⟨hr.caughtUp, hr.transfer_eq.trans hnext⟩
    refine ⟨t', ht', hpath'.trans hpath, hoverwrite'.trans hoverwrite, ?_⟩
    rw [hdata', hdata, List.append_assoc]
    rfl

/-- The blocks of a file are the file. -/
theorem blockOffsets_flatten (data : Bytes) :
    ((blockOffsets data).map fun offset => slice data offset transferBlockSize).flatten = data := by
  rw [blockOffsets, List.map_map]
  refine (flatten_slices data transferBlockSize _).trans (List.take_of_length_le ?_)
  simp only [transferBlockSize]
  omega

/-- The client has the file up to the transfer's offset. -/
structure Transfer.HandedOut (t : Transfer) (totalSize : Nat) (output : Bytes) : Prop where
  length_eq : t.data.length = totalSize
  offset_eq : t.offset = output.length
  output_eq : output = t.data.take t.offset

theorem Transfer.HandedOut.all {totalSize : Nat} {output : Bytes} (h : t.HandedOut totalSize output)
    (hfull : totalSize ≤ output.length) : output = t.data := by
  have hlength := h.length_eq
  have hoffset := h.offset_eq
  rw [h.output_eq, List.take_of_length_le (by omega)]

/-- The download loop reads the rest of the file. -/
theorem downloadBlocks_returns {opcode : Opcode} (hopcode : opcode = .fileReadBlock ∨ opcode = .graphicsBlock)
    {transferId totalSize turns crc crc' : Nat} {output data : Bytes} (h : w.Sound o) (hturns : totalSize ≤ output.length + turns)
    (hreturn : downloadBlocks (Wire.request o) opcode transferId totalSize turns output crc w = (.ok (data, crc'), w')) :
    w.Reaches o w' ∧ (w'.Clean o → ∀ t, w.Holds t → t.HandedOut totalSize output → data = t.data) := by
  induction turns generalizing w output crc with
  | zero =>
    obtain ⟨hresult, rfl⟩ := Prod.mk.inj hreturn
    obtain ⟨rfl, -⟩ := Prod.mk.inj (Except.ok.inj hresult)
    exact ⟨⟨.refl w, h⟩, fun _ t _ hout => hout.all hturns⟩
  | succ turns ih =>
    rw [downloadBlocks] at hreturn
    split at hreturn
    · obtain ⟨payload, hpayload, hreturn⟩ := Fallible.lift_bind_eq_ok hreturn
      obtain ⟨answer, w₁, hrequest, hreturn⟩ := Fallible.bind_eq_ok hreturn
      obtain ⟨response, hresponse, hreturn⟩ := Fallible.lift_bind_eq_ok hreturn
      split at hreturn
      · cases hreturn
      rename_i hvalid
      split at hreturn
      · cases hreturn
      have hpos : 0 < response.data.length := List.length_pos_of_ne_nil fun hnil => hvalid (Or.inr (Or.inr (Or.inl hnil)))
      have hfirst := h.reaches hrequest
      have hlonger : totalSize ≤ (output ++ response.data).length + turns := by
        rw [List.length_append]
        omega
      obtain ⟨hrest, hreads⟩ := ih hfirst.sound hlonger hreturn
      refine ⟨hfirst.trans hrest, fun hclean t ht hout => ?_⟩
      have hhello : opcode ≠ .hello := by
        rcases hopcode with rfl | rfl
        · decide
        · decide
      obtain ⟨e, outcome, hr⟩ := h.returned hhello hrequest (hrest.clean hfirst.sound hclean)
      obtain ⟨t₀, t₁, hactive, hnext, hsame, hoffset, hdata⟩ := readBlock_reply hopcode rfl hpayload hr.operated hr.reply_eq hresponse
      obtain rfl : t = t₀ := Option.some.inj (by rw [← ht.transfer_eq, ← hr.active ht.caughtUp, hactive])
      rw [← hsame]
      refine hreads hclean t₁ ⟨hr.caughtUp, hr.transfer_eq.trans hnext⟩ ⟨hsame ▸ hout.length_eq, ?_, ?_⟩
      · rw [hoffset, hout.offset_eq, List.length_append]
      · rw [hsame, hoffset, hdata, ← take_append_slice, ← hout.output_eq]
    · rename_i hfull
      obtain ⟨hresult, rfl⟩ := Prod.mk.inj hreturn
      obtain ⟨rfl, -⟩ := Prod.mk.inj (Except.ok.inj hresult)
      exact ⟨⟨.refl w, h⟩, fun _ t _ hout => hout.all (Nat.not_lt.mp hfull)⟩

/-! ## The methods -/

theorem cp437Decode_encodeDosPath {path : List Char} {encoded : Bytes} (h : encodeDosPath path = .ok encoded) :
    cp437Decode encoded = path := by
  unfold encodeDosPath at h
  split at h
  · cases h
  · cases h
  · rename_i heq
    obtain rfl := Except.ok.inj h
    exact cp437Decode_encode heq

/-- An upload that returns has been handed to the backend. -/
theorem uploadFile_returns {allowFileWrite overwrite : Bool} {path : List Char} {data : Bytes} {receipt : Upload} (h : w.Sound o)
    (hreturn : uploadFile (Wire.request o) allowFileWrite path data overwrite w = (.ok receipt, w')) (hclean : w'.Clean o) :
    ∃ calls, w'.calls = w.calls ++ calls ∧ .uploadFile path data overwrite ∈ calls := by
  unfold uploadFile at hreturn
  split at hreturn
  · cases hreturn
  split at hreturn
  · cases hreturn
  obtain ⟨encoded, hencoded, hreturn⟩ := Fallible.lift_bind_eq_ok hreturn
  obtain ⟨payload, hpayload, hreturn⟩ := Fallible.lift_bind_eq_ok hreturn
  obtain ⟨answer, w₁, hbegin, hreturn⟩ := Fallible.bind_eq_ok hreturn
  obtain ⟨begin, hdecode, hreturn⟩ := Fallible.lift_bind_eq_ok hreturn
  obtain ⟨finish, w₄, htransfer, hreturn⟩ := Fallible.bind_eq_ok hreturn
  split at hreturn
  · cases hreturn
  obtain rfl : w₄ = w' := congrArg Prod.snd hreturn
  obtain ⟨⟨⟩, w₂, hblocks, hreturn⟩ := Fallible.bind_eq_ok (Fallible.onRaise_eq_ok htransfer)
  obtain ⟨endPayload, hendPayload, hreturn⟩ := Fallible.lift_bind_eq_ok hreturn
  obtain ⟨endAnswer, w₃, hcommit, hreturn⟩ := Fallible.bind_eq_ok hreturn
  obtain rfl : w₃ = w₄ := congrArg Prod.snd hreturn
  -- BEGIN, the blocks, COMMIT
  have hfirst := h.reaches hbegin
  obtain ⟨hrest, hadds⟩ := uploadBlocks_returns hfirst.sound hblocks
  have hlast := hrest.sound.reaches hcommit
  have hclean₂ := hlast.clean hrest.sound hclean
  obtain ⟨e₁, outcome₁, hr₁⟩ := h.returned (by decide) hbegin (hrest.clean hfirst.sound hclean₂)
  obtain ⟨t₁, hnext, -, -, hempty, hpath, hoverwrite⟩ := fileWriteBegin_reply hpayload hr₁.operated hr₁.reply_eq hdecode
  obtain ⟨t₂, ht₂, hpath', hoverwrite', hdata⟩ := hadds hclean₂ t₁ ⟨hr₁.caughtUp, hr₁.transfer_eq.trans hnext⟩
  obtain ⟨e₃, outcome₃, hr₃⟩ := hrest.sound.returned (by decide) hcommit hclean
  obtain ⟨t₃, hactive, hcall⟩ := fileWriteCommit_reply hendPayload hr₃.operated hr₃.reply_eq
  obtain rfl : t₂ = t₃ := Option.some.inj (by rw [← ht₂.transfer_eq, ← hr₃.active ht₂.caughtUp, hactive])
  rw [hpath', hpath, cp437Decode_encodeDosPath hencoded, hoverwrite', hoverwrite, hdata, hempty, List.nil_append,
    blockOffsets_flatten] at hcall
  obtain ⟨calls, hcalls⟩ := (hfirst.trans hrest).grows.calls
  obtain ⟨earlier, hcalls'⟩ := hr₃.calls
  refine ⟨calls ++ earlier ++ outcome₃.calls, ?_, List.mem_append_right _ hcall⟩
  rw [hcalls', ← hcalls]
  simp

/-- A download that returns has the bytes the backend returned at its BEGIN. -/
theorem downloadFile_returns {allowFileRead : Bool} {path : List Char} {contents : Download} (h : w.Sound o)
    (hreturn : downloadFile (Wire.request o) allowFileRead path w = (.ok contents, w')) (hclean : w'.Clean o) :
    ∃ served e file, w'.served = w.served ++ served ∧ e ∈ served ∧ e.opcode = .fileReadBegin ∧ .downloadFile path ∈ e.calls ∧
      e.env.backend.downloadFile path = .ok file ∧ contents.data = file.data := by
  unfold downloadFile at hreturn
  split at hreturn
  · cases hreturn
  obtain ⟨encoded, hencoded, hreturn⟩ := Fallible.lift_bind_eq_ok hreturn
  obtain ⟨payload, hpayload, hreturn⟩ := Fallible.lift_bind_eq_ok hreturn
  obtain ⟨answer, w₁, hbegin, hreturn⟩ := Fallible.bind_eq_ok hreturn
  obtain ⟨begin, hdecode, hreturn⟩ := Fallible.lift_bind_eq_ok hreturn
  split at hreturn
  · obtain ⟨_, _, -, hreturn⟩ := Fallible.bind_eq_ok hreturn
    cases hreturn
  obtain ⟨⟨data, crc, finish⟩, w₄, htransfer, hreturn⟩ := Fallible.bind_eq_ok hreturn
  dsimp only at hreturn
  split at hreturn
  · cases hreturn
  obtain ⟨hresult, rfl⟩ := Prod.mk.inj hreturn
  obtain rfl := Except.ok.inj hresult
  obtain ⟨⟨data', crc'⟩, w₂, hblocks, hreturn⟩ := Fallible.bind_eq_ok (Fallible.onRaise_eq_ok htransfer)
  obtain ⟨endPayload, -, hreturn⟩ := Fallible.lift_bind_eq_ok hreturn
  obtain ⟨endAnswer, w₃, hend, hreturn⟩ := Fallible.bind_eq_ok hreturn
  obtain ⟨finish', -, hreturn⟩ := Fallible.lift_bind_eq_ok hreturn
  obtain ⟨hresult, rfl⟩ := Prod.mk.inj hreturn
  obtain ⟨rfl, -⟩ := Prod.mk.inj (Except.ok.inj hresult)
  -- BEGIN, the blocks, END
  have hfirst := h.reaches hbegin
  obtain ⟨hrest, hreads⟩ := downloadBlocks_returns (Or.inl rfl) hfirst.sound (Nat.le_add_left _ _) hblocks
  have hlast := hrest.sound.reaches hend
  have hclean₂ := hlast.clean hrest.sound hclean
  obtain ⟨e, outcome, hr⟩ := h.returned (by decide) hbegin (hrest.clean hfirst.sound hclean₂)
  obtain ⟨file, t, hfile, hnext, hdata, hoffset, hsize, hcalls⟩ := fileReadBegin_reply hpayload hr.operated hr.reply_eq hdecode
  have hall := hreads hclean₂ t ⟨hr.caughtUp, hr.transfer_eq.trans hnext⟩
    ⟨by rw [hdata, hsize], hoffset, by rw [hoffset, List.take_zero]⟩
  rw [cp437Decode_encodeDosPath hencoded] at hfile hcalls
  obtain ⟨earlier, hserved⟩ := hr.served
  obtain ⟨later, hlater⟩ := (hrest.trans hlast).grows.served
  refine ⟨earlier ++ [e] ++ later, e, file, ?_, by simp, hr.opcode_eq, ?_, hfile, hall.trans hdata⟩
  · rw [← hlater, hserved]
    simp
  · rw [Served.calls, hr.opcode_eq, hr.payload_eq, hr.operated, Option.map_some, Option.getD_some, hcalls]
    exact List.mem_singleton_self _

end

/-- Where no replay is refused files arrive: an upload that returns was handed to the backend
    with its path, data and flag; a download that returns has what the backend returned. -/
theorem files_arrive (o : Opening) {client : UdpBackend} (hclient : o.Client client) (script : List Action)
    (history : List (Opcode × Bytes)) :
    let w := (Wire.start o client script).after o history
    (∀ path data overwrite receipt w', uploadFile (Wire.request o) client.allowFileWrite path data overwrite w = (.ok receipt, w') →
        cleanRun o o.start w'.events = true → w'.net.issued < 0x8000 →
          ∃ calls, w'.calls = w.calls ++ calls ∧ .uploadFile path data overwrite ∈ calls) ∧
      ∀ path contents w', downloadFile (Wire.request o) client.allowFileRead path w = (.ok contents, w') →
        cleanRun o o.start w'.events = true → w'.net.issued < 0x8000 →
          ∃ served e file, w'.served = w.served ++ served ∧ e ∈ served ∧ e.opcode = .fileReadBegin ∧
            .downloadFile path ∈ e.calls ∧ e.env.backend.downloadFile path = .ok file ∧ contents.data = file.data := by
  intro w
  have hsound : w.Sound o := (Wire.sound_start hclient script).after history
  exact ⟨fun path data overwrite receipt w' hreturn hclean hfew => uploadFile_returns hsound hreturn ⟨hclean, hfew⟩,
    fun path contents w' hreturn hclean hfew => downloadFile_returns hsound hreturn ⟨hclean, hfew⟩⟩

/-! ## Late copies -/

def fileClient : UdpBackend :=
  ⟨("10.0.0.1", 21300), ⟨List.replicate 16 0, zeros_length⟩, 1, true, true, keyboardOpening.sessionId, some keyboardOpening.key, 1, false⟩

/-- The first BEGIN is lost, and the second arrives twice. -/
def retriedScript : List Action :=
  [.deadline, .deliver fileEnv 0, .deliver fileEnv 0, .answer 1, .deliver fileEnv 1, .answer 3, .deliver fileEnv 2, .answer 4]

theorem files_arrive_letter :
    ∃ receipt w', uploadFile (Wire.request keyboardOpening) true ['A'] [0x61] false
        (Wire.start keyboardOpening fileClient retriedScript) = (.ok receipt, w') ∧
      .uploadFile ['A'] [0x61] false ∈ w'.calls := by
  have hrun : (match uploadFile (Wire.request keyboardOpening) true ['A'] [0x61] false
      (Wire.start keyboardOpening fileClient retriedScript) with
    | (.ok _, w') => cleanRun keyboardOpening keyboardOpening.start w'.events && decide (w'.net.issued < 0x8000)
    | (.error _, _) => false) = true := by decide +kernel
  split at hrun
  · rename_i receipt w' hreturn
    rw [Bool.and_eq_true, decide_eq_true_eq] at hrun
    obtain ⟨calls, hcalls, hmem⟩ := (files_arrive keyboardOpening
      (show keyboardOpening.Client fileClient from ⟨rfl, rfl, rfl, rfl⟩) retriedScript []).1
      ['A'] [0x61] false receipt w' hreturn hrun.1 hrun.2
    exact ⟨receipt, w', hreturn, hcalls ▸ List.mem_append_right _ hmem⟩
  · cases hrun

/-- The same server, with a backend that refuses uploads. -/
def refusingEnv : Env := ⟨{ fileBackend with uploadFile := fun _ _ _ => .error .other }, 1, 5⟩

/-- BEGIN of an empty file with a name of one letter. -/
def emptyBegin (name : UInt8) : Opcode × Bytes := (.fileWriteBegin, [0, 0, 0, 0, 0, 0, 0, 0, 0, 1, name])

/-- The uploads of `X`, which the backend refuses, and of `P`. -/
def twoUploads : List (Opcode × Bytes) :=
  [emptyBegin 0x58, (.fileWriteCommit, [5, 0]), (.fileAbort, [5, 0]), emptyBegin 0x50, (.fileWriteCommit, [5, 0])]

/-- Every datagram arrives once, in order; before the last COMMIT also copies of the first
    BEGIN, of ABORT and of the second BEGIN. -/
def staleScript : List Action :=
  [.deliver fileEnv 0, .answer 1, .deliver refusingEnv 1, .answer 2, .deliver fileEnv 2, .answer 3, .deliver fileEnv 3, .answer 4,
    .deliver fileEnv 4, .answer 5, .deliver fileEnv 5, .answer 6, .deliver fileEnv 0, .deliver fileEnv 2, .deliver fileEnv 3,
    .deliver fileEnv 6, .answer 10]

/-- The copy of BEGIN that is refused lets the other two run again: the upload of `Q` returns,
    and the backend was given `P` for the second time. -/
theorem stale_begin_uploads_other_file :
    ∃ receipt w', uploadFile (Wire.request keyboardOpening) true ['Q'] [] false
        ((Wire.start keyboardOpening fileClient staleScript).after keyboardOpening twoUploads) = (.ok receipt, w') ∧
      w'.net.issued < 0x8000 ∧
      w'.calls = [.uploadFile ['X'] [] false, .uploadFile ['P'] [] false, .uploadFile ['P'] [] false] ∧
      .uploadFile ['Q'] [] false ∉ w'.calls := by
  have hrun : (match uploadFile (Wire.request keyboardOpening) true ['Q'] [] false
      ((Wire.start keyboardOpening fileClient staleScript).after keyboardOpening twoUploads) with
    | (.ok _, w') => decide (w'.net.issued < 0x8000) &&
        decide (w'.calls = [.uploadFile ['X'] [] false, .uploadFile ['P'] [] false, .uploadFile ['P'] [] false])
    | (.error _, _) => false) = true := by decide +kernel
  split at hrun
  · rename_i receipt w' hreturn
    rw [Bool.and_eq_true, decide_eq_true_eq, decide_eq_true_eq] at hrun
    refine ⟨receipt, w', hreturn, hrun.1, hrun.2, ?_⟩
    rw [hrun.2]
    decide
  · cases hrun

end DosMcp
