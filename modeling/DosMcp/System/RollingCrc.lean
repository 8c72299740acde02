/-
  DosMcp.System.RollingCrc — the three CRCs of a transfer.

  The DOS agent keeps a running CRC of the blocks it reads or writes, the bridge one of the
  blocks it gets or sends, and the CRC of the whole file is declared once. Each call of the
  CRC complements its value on the way in and on the way out, so the values can be chained.

  - `crc32Update_blocks`: chained over blocks, the CRC of the DOS agent is the standard CRC-32
    of all of them, however they are cut.
  - `served_crc`: the CRC in every block of a download is the CRC of what was sent so far.
  - `rolling_crc_agrees`: both sides and the whole file.
-/

import DosMcp.Client.DownloadProofs
import DosMcp.Dos.ProtoProofs
import DosMcp.Dos.Upload
import DosMcp.Lib.Crc
import DosMcp.System.FileTransfer

namespace DosMcp.Dos

open Lib

/-! ## Blocks -/

theorem crc32_blocks (blocks : List Bytes) (value : Nat) :
    blocks.foldl (fun crc block => crc32 block crc) value = crc32 blocks.flatten value := by
  induction blocks generalizing value with
  | nil => rw [List.foldl_nil, List.flatten_nil, crc32_nil]
  | cons block blocks ih => rw [List.foldl_cons, ih, List.flatten_cons, crc32_append]

theorem crc32Update_blocks (blocks : List Bytes) (crc : UInt32) :
    (blocks.foldl crc32Update crc).toNat = crc32 blocks.flatten crc.toNat := by
  rw [← crc32_blocks]
  induction blocks generalizing crc with
  | nil => rfl
  | cons block blocks ih => rw [List.foldl_cons, List.foldl_cons, ih, crc32Update_toNat]

/-! ## Reading a file -/

/-- What a block request does to the transfer, and what it answers. -/
theorem readTransferBlock_cases (f : Files) (payload : Bytes) :
    ((readTransferBlock f payload).1 = none ∧ (readTransferBlock f payload).2.transfer = f.transfer) ∨
      ∃ bytes, (readTransferBlock f payload).1 = some (blockRead f.transfer bytes).1 ∧
        (readTransferBlock f payload).2.transfer = (blockRead f.transfer bytes).2 := by
  unfold readTransferBlock
  split
  · exact Or.inl ⟨rfl, rfl⟩
  · split
    · exact Or.inl ⟨rfl, rfl⟩
    · rename_i bytes store _
      split
      · exact Or.inl ⟨rfl, rfl⟩
      · exact Or.inr ⟨bytes, rfl, rfl⟩

/-- The blocks sent for these requests, and the files after them. -/
def serveBlocks (f : Files) : List Bytes → List Bytes × Files
  | [] => ([], f)
  | payload :: payloads =>
    let served := serveBlocks (readTransferBlock f payload).2 payloads
    ((readTransferBlock f payload).1.toList ++ served.1, served.2)

/-- The file data in the blocks. -/
def servedData (replies : List Bytes) : Bytes := (replies.map (·.drop 12)).flatten

theorem blockRead_data (t : Transfer) (bytes : Bytes) : (blockRead t bytes).1.drop 12 = bytes := by
  rw [blockRead]
  exact List.drop_left' rfl

theorem blockRead_crc (t : Transfer) (bytes : Bytes) : leNat (slice (blockRead t bytes).1 8 4) = crc32 bytes t.crc.toNat := by
  have hfield : slice (blockRead t bytes).1 8 4 = dmPutU32 (crc32Update t.crc bytes) := by
    rw [blockRead]
    rfl
  rw [hfield, dmPutU32_eq, leNat_leBytes (crc32Update t.crc bytes).toNat_lt, crc32Update_toNat]

/-- By induction on the requests: the running CRC continues over the data of every block sent. -/
theorem served_crc (f : Files) (payloads : List Bytes) :
    (serveBlocks f payloads).2.transfer.crc.toNat = crc32 (servedData (serveBlocks f payloads).1) f.transfer.crc.toNat ∧
      ∀ before reply after, (serveBlocks f payloads).1 = before ++ reply :: after →
        leNat (slice reply 8 4) = crc32 (servedData (before ++ [reply])) f.transfer.crc.toNat := by
  induction payloads generalizing f with
  | nil =>
    refine ⟨(crc32_nil _).symm, ?_⟩
    intro before reply after h
    exact absurd h (by simp [serveBlocks])
  | cons payload payloads ih =>
    obtain ⟨hrest, hreplies⟩ := ih (readTransferBlock f payload).2
    rw [serveBlocks]
    rcases readTransferBlock_cases f payload with ⟨hnone, hsame⟩ | ⟨bytes, hsome, hread⟩
    · rw [hsame] at hrest hreplies
      rw [hnone]
      exact ⟨hrest, hreplies⟩
    · have hcrc : (readTransferBlock f payload).2.transfer.crc.toNat = crc32 bytes f.transfer.crc.toNat := by
        rw [hread, blockRead, crc32Update_toNat]
      have hcons : ∀ replies, crc32 (servedData ((blockRead f.transfer bytes).1 :: replies)) f.transfer.crc.toNat =
          crc32 (servedData replies) (crc32 bytes f.transfer.crc.toNat) := by
        intro replies
        rw [servedData, List.map_cons, List.flatten_cons, blockRead_data, crc32_append]
        rfl
      rw [hcrc] at hrest hreplies
      rw [hsome]
      refine ⟨hrest.trans (hcons _).symm, ?_⟩
      intro before reply after h
      cases before with
      | nil =>
        obtain ⟨rfl, -⟩ := List.cons.inj h
        rw [blockRead_crc, List.nil_append, hcons]
        exact (crc32_nil _).symm
      | cons first before =>
        obtain ⟨rfl, htail⟩ := List.cons.inj h
        rw [List.cons_append, hcons]
        exact hreplies before reply after htail

end DosMcp.Dos

namespace DosMcp

open Lib Dos

/-! ## The three sides -/

/-- Chained from 0 over the blocks, the CRC of the DOS agent is the standard CRC-32 of their
    concatenation, as the chained `zlib.crc32` of the bridge is. So the blocks of a download carry
    the CRC of the data so far, `_download_blocks` returns the CRC of its data, and the blocks of
    an upload end with the CRC declared for the whole file. -/
theorem rolling_crc_agrees :
    (∀ blocks : List Bytes, IsCrc32 blocks.flatten (blocks.foldl crc32Update 0).toNat ∧
      IsCrc32 blocks.flatten (blocks.foldl (fun crc block => crc32 block crc) 0) ∧
      (blocks.foldl crc32Update 0).toNat = crc32 blocks.flatten 0) ∧
    (∀ f payloads, f.transfer.crc = 0 →
      (serveBlocks f payloads).2.transfer.crc.toNat = crc32 (servedData (serveBlocks f payloads).1) 0 ∧
        ∀ before reply after, (serveBlocks f payloads).1 = before ++ reply :: after →
          leNat (slice reply 8 4) = crc32 (servedData (before ++ [reply])) 0) ∧
    (∀ {σ : Type} (request : Opcode → Bytes → Fallible σ Exc Bytes) opcode transferId totalSize (s t : σ) output rollingCrc,
      downloadBlocks request opcode transferId totalSize totalSize [] 0 s = (.ok (output, rollingCrc), t) →
        rollingCrc = crc32 output 0) ∧
    ∀ data, (blockOffsets data).foldl (fun crc offset => crc32 (slice data offset transferBlockSize) crc) 0 = crc32 data 0 := by
  refine ⟨?_, ?_, ?_, ?_⟩
  · intro blocks
    have hdos := crc32Update_blocks blocks 0
    have hstandard := crc32_isCrc32 blocks.flatten
    rw [crc32_blocks, hdos]
    exact ⟨hstandard, hstandard, rfl⟩
  · intro f payloads hzero
    have hserved := served_crc f payloads
    rw [hzero] at hserved
    exact hserved
  · intro σ request opcode transferId totalSize s t output rollingCrc h
    have hends : Ends request opcode transferId totalSize s _ := downloadBlocks_ends .start (Nat.le_add_left totalSize _)
    rw [h] at hends
    cases hends with
    | returns hturns _ => exact hturns.downloaded.crc_eq
  · intro data
    have hflat := crc32_blocks ((blockOffsets data).map fun offset => slice data offset transferBlockSize) 0
    rwa [List.foldl_map, blockOffsets_flatten] at hflat

end DosMcp
