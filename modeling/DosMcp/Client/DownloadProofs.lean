/-
  DosMcp.Client.DownloadProofs — `_download_blocks` against a responder that may answer
  anything.

  - `Turns`: where the loop can be after some turns. Each asked for one block and took it.
  - `Turns.downloaded`: the loop has the blocks in offset order, no more than it was to get,
    and their CRC.
  - `download_bounded`: the loop ends, after at most one request a byte.
-/

import DosMcp.Client.Api

namespace DosMcp

open Lib
open Fallible (lift raise Counts counts_lift counts_ite)

section

variable {σ : Type} (request : Opcode → Bytes → Fallible σ Exc Bytes) (opcode : Opcode) (transferId totalSize : Nat)

/-- The body of the loop: one request, and the checks of its response. -/
def downloadTurn (output : Bytes) (rollingCrc : Nat) : Fallible σ Exc TransferBlockResponse := do
  let length := min transferBlockSize (totalSize - output.length)
  let payload ← lift (TransferBlockRequest.encode ⟨transferId, output.length, length, []⟩)
  let answer ← request opcode payload
  let response ← lift (TransferBlockResponse.decode answer)
  if response.transferId ≠ transferId ∨ response.offset ≠ output.length ∨ response.data = [] ∨
      response.data.length > length then
    raise (.agentOperationError "invalid download block response")
  else if response.rollingCrc32 ≠ crc32 response.data rollingCrc then
    raise (.agentOperationError "download block checksum mismatch")
  else pure response

theorem downloadBlocks_succ (turns : Nat) (output : Bytes) (rollingCrc : Nat) :
    downloadBlocks request opcode transferId totalSize (turns + 1) output rollingCrc =
      if output.length < totalSize then
        downloadTurn request opcode transferId totalSize output rollingCrc >>= fun response =>
          downloadBlocks request opcode transferId totalSize turns (output ++ response.data) (crc32 response.data rollingCrc)
      else pure (output, rollingCrc) := by
  rw [downloadBlocks]
  split
  · simp only [downloadTurn, Fallible.bind_assoc]
    refine bind_congr fun payload => bind_congr fun answer => bind_congr fun response => ?_
    split
    · rfl
    · split <;> rfl
  · rfl

/-- The blocks taken so far, the output and the rolling CRC that the loop has made of them. -/
inductive Turns (s : σ) : List TransferBlockResponse → Bytes → Nat → σ → Prop
  | start : Turns s [] [] 0 s
  | turn {blocks : List TransferBlockResponse} {output : Bytes} {rollingCrc : Nat} {t u : σ} {response : TransferBlockResponse} :
    Turns s blocks output rollingCrc t → output.length < totalSize →
    downloadTurn request opcode transferId totalSize output rollingCrc t = (.ok response, u) →
    Turns s (blocks ++ [response]) (output ++ response.data) (crc32 response.data rollingCrc) u

/-- What the loop has after some turns. -/
structure Downloaded (blocks : List TransferBlockResponse) (output : Bytes) (rollingCrc : Nat) : Prop where
  output_eq : output = (blocks.map (·.data)).flatten
  length_le : output.length ≤ totalSize
  turns_le : blocks.length ≤ output.length
  offset_eq : ∀ before block after, blocks = before ++ block :: after → block.offset = (before.map (·.data)).flatten.length
  crc_eq : rollingCrc = crc32 output 0
  last_crc : ∀ block, blocks.getLast? = some block → block.rollingCrc32 = rollingCrc

variable {request opcode transferId totalSize}

/-- What a turn that returns has checked. -/
theorem downloadTurn_eq_ok {output : Bytes} {rollingCrc : Nat} {t u : σ} {response : TransferBlockResponse}
    (h : downloadTurn request opcode transferId totalSize output rollingCrc t = (.ok response, u)) :
    response.offset = output.length ∧ response.data ≠ [] ∧ response.data.length ≤ totalSize - output.length ∧
      response.rollingCrc32 = crc32 response.data rollingCrc := by
  obtain ⟨payload, -, h⟩ := Fallible.lift_bind_eq_ok h
  obtain ⟨answer, v, -, h⟩ := Fallible.bind_eq_ok h
  obtain ⟨block, -, h⟩ := Fallible.lift_bind_eq_ok h
  split at h
  · cases h
  rename_i hvalid
  split at h
  · cases h
  rename_i hcrc
  cases h
  simp only [not_or, not_not, not_lt] at hvalid hcrc
  obtain ⟨-, hoffset, hnonempty, hlength⟩ := hvalid
  exact ⟨hoffset, hnonempty, hlength.trans (Nat.min_le_right _ _), hcrc⟩

theorem Downloaded.turn {blocks : List TransferBlockResponse} {output : Bytes} {rollingCrc : Nat} {response : TransferBlockResponse}
    (h : Downloaded totalSize blocks output rollingCrc) (hoffset : response.offset = output.length) (hdata : response.data ≠ [])
    (hlength : response.data.length ≤ totalSize - output.length) (hcrc : response.rollingCrc32 = crc32 response.data rollingCrc) :
    Downloaded totalSize (blocks ++ [response]) (output ++ response.data) (crc32 response.data rollingCrc) where
  output_eq := by
    rw [List.map_append, List.flatten_append, ← h.output_eq]
    simp
  length_le := by
    have hle := h.length_le
    rw [List.length_append]
    omega
  turns_le := by
    have hle := h.turns_le
    have hpos := List.length_pos_of_ne_nil hdata
    rw [List.length_append, List.length_append, List.length_singleton]
    omega
  offset_eq := by
    intro before block after heq
    rcases List.eq_nil_or_concat after with rfl | ⟨rest, last, rfl⟩
    · obtain ⟨rfl, hlast⟩ := List.append_inj' heq rfl
      cases hlast
      rw [hoffset, ← h.output_eq]
    · rw [List.concat_eq_append, ← List.cons_append, ← List.append_assoc] at heq
      exact h.offset_eq before block rest (List.append_inj' heq rfl).1
  crc_eq := by rw [crc32_append, ← h.crc_eq]
  last_crc := by
    intro block hblock
    rw [List.getLast?_concat] at hblock
    cases hblock
    exact hcrc

theorem Turns.downloaded {s t : σ} {blocks : List TransferBlockResponse} {output : Bytes} {rollingCrc : Nat}
    (h : Turns request opcode transferId totalSize s blocks output rollingCrc t) :
    Downloaded totalSize blocks output rollingCrc := by
  induction h with
  | start =>
    refine ⟨rfl, Nat.zero_le _, Nat.le_refl _, fun before block after heq => ?_, rfl, nofun⟩
    exact absurd heq (by simp)
  | turn _ hlt hturn ih =>
    obtain ⟨hoffset, hdata, hlength, hcrc⟩ := downloadTurn_eq_ok hturn
    exact ih.turn hoffset hdata hlength hcrc

/-- How the loop ends: with all bytes, or with a turn that raises. -/
inductive Ends (request : Opcode → Bytes → Fallible σ Exc Bytes) (opcode : Opcode) (transferId totalSize : Nat) (s : σ) :
    Except Exc (Bytes × Nat) × σ → Prop
  | returns {blocks : List TransferBlockResponse} {output : Bytes} {rollingCrc : Nat} {t : σ} :
    Turns request opcode transferId totalSize s blocks output rollingCrc t → output.length = totalSize →
    Ends request opcode transferId totalSize s (.ok (output, rollingCrc), t)
  | raises {blocks : List TransferBlockResponse} {output : Bytes} {rollingCrc : Nat} {t u : σ} {e : Exc} :
    Turns request opcode transferId totalSize s blocks output rollingCrc t → output.length < totalSize →
    downloadTurn request opcode transferId totalSize output rollingCrc t = (.error e, u) →
    Ends request opcode transferId totalSize s (.error e, u)

/-- By induction on the turns that are left: every one of them takes a byte at least. -/
theorem downloadBlocks_ends {s t : σ} {blocks : List TransferBlockResponse} {output : Bytes} {rollingCrc turns : Nat}
    (h : Turns request opcode transferId totalSize s blocks output rollingCrc t) (hturns : totalSize ≤ output.length + turns) :
    Ends request opcode transferId totalSize s (downloadBlocks request opcode transferId totalSize turns output rollingCrc t) := by
  induction turns generalizing blocks output rollingCrc t with
  | zero => exact .returns h (Nat.le_antisymm h.downloaded.length_le hturns)
  | succ turns ih =>
    rw [downloadBlocks_succ]
    by_cases hlt : output.length < totalSize
    · rw [if_pos hlt, Fallible.bind_apply]
      cases hturn : downloadTurn request opcode transferId totalSize output rollingCrc t with
      | mk result u =>
        cases result with
        | error e => exact .raises h hlt hturn
        | ok response =>
          obtain ⟨-, hdata, -⟩ := downloadTurn_eq_ok hturn
          have hpos := List.length_pos_of_ne_nil hdata
          apply ih (.turn h hlt hturn)
          rw [List.length_append]
          omega
    · rw [if_neg hlt]
      exact .returns h (Nat.le_antisymm h.downloaded.length_le (not_lt.mp hlt))

/-! ## Requests -/

/-- The responder, with the number of requests it has been sent. -/
def counting (request : Opcode → Bytes → Fallible σ Exc Bytes) (opcode : Opcode) (payload : Bytes) :
    Fallible (σ × Nat) Exc Bytes := fun s =>
  match request opcode payload s.1 with
  | (answer, t) => (answer, t, s.2 + 1)

variable (request opcode transferId totalSize)

theorem counts_downloadTurn (output : Bytes) (rollingCrc : Nat) :
    Counts 1 (downloadTurn (counting request) opcode transferId totalSize output rollingCrc)
      (downloadTurn request opcode transferId totalSize output rollingCrc) := by
  have hrequest : ∀ payload, Counts 1 (counting request opcode payload) (request opcode payload) :=
    fun payload s n => ⟨1, Nat.le_refl 1, rfl⟩
  show Counts (0 + (1 + (0 + 0))) _ _
  refine (counts_lift _).bind fun payload => (hrequest payload).bind fun answer => (counts_lift _).bind fun response => ?_
  exact counts_ite (counts_lift _) (counts_ite (counts_lift _) (counts_lift _))

theorem counts_downloadBlocks (turns : Nat) (output : Bytes) (rollingCrc : Nat) :
    Counts turns (downloadBlocks (counting request) opcode transferId totalSize turns output rollingCrc)
      (downloadBlocks request opcode transferId totalSize turns output rollingCrc) := by
  induction turns generalizing output rollingCrc with
  | zero => exact counts_lift (.ok (output, rollingCrc))
  | succ turns ih =>
    rw [downloadBlocks_succ, downloadBlocks_succ]
    apply counts_ite
    · rw [Nat.add_comm]
      exact (counts_downloadTurn request opcode transferId totalSize output rollingCrc).bind fun response => ih _ _
    · exact fun s n => ⟨0, Nat.zero_le _, rfl⟩

/-- Whatever the responder does, the loop ends and more turns change nothing; it sends a request
    a byte at most; it never has more bytes than it was to get, and what it has are the blocks
    in order, with their CRC; and it returns only with all of them. -/
theorem download_bounded (s : σ) :
    (∀ more, downloadBlocks request opcode transferId totalSize (totalSize + more) [] 0 s =
        downloadBlocks request opcode transferId totalSize totalSize [] 0 s) ∧
      (∃ requests ≤ totalSize, downloadBlocks (counting request) opcode transferId totalSize totalSize [] 0 (s, 0) =
        ((downloadBlocks request opcode transferId totalSize totalSize [] 0 s).1,
          (downloadBlocks request opcode transferId totalSize totalSize [] 0 s).2, requests)) ∧
      (∀ blocks output rollingCrc t, Turns request opcode transferId totalSize s blocks output rollingCrc t →
        Downloaded totalSize blocks output rollingCrc) ∧
      Ends request opcode transferId totalSize s (downloadBlocks request opcode transferId totalSize totalSize [] 0 s) := by
  refine ⟨fun more => ?_, ?_, fun blocks output rollingCrc t h => h.downloaded, downloadBlocks_ends .start (Nat.le_add_left _ _)⟩
  · rw [downloadBlocks_enough request (Nat.le_add_left totalSize _) more]
  · obtain ⟨requests, hle, heq⟩ := counts_downloadBlocks request opcode transferId totalSize totalSize [] 0 s 0
    exact ⟨requests, hle, by rw [heq, Nat.zero_add]⟩

end

end DosMcp
