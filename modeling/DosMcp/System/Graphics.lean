/-
  DosMcp.System.Graphics — the frame buffer, read through `GRAPHICS_BLOCK`.

  A block is read byte by byte. In the planar modes each byte is preceded by the selection of
  its plane in the graphics controller, whose index and read-map register are put back after
  the block.

  - `captureBlock_eq`: a block is a stretch of the aperture, and the machine is as before.
  - `Captured.exchange`: one exchange with the bridge.
  - `graphics_transfer_faithful`: exchanges that reach the end return the aperture, each with
    the CRC of the bytes so far.
-/

import DosMcp.Dos.Upload
import DosMcp.System.Layouts

namespace DosMcp.Dos

open Lib

/-! ## The aperture -/

/-- The planes one after the other, or the memory of the modes that have one. -/
def aperture (g : Graphics) (m : Machine) : Bytes :=
  if g.planar then
    (List.range g.planes.toNat).flatMap fun plane => (List.range g.bytesPerPlane.toNat).map (m.window (.ofNat plane))
  else if g.layout = some .packed8bpp then (List.range g.bytesPerPlane.toNat).map (m.window (m.gcRegisters 4))
  else if g.layout = some .hercules then (List.range g.bytesPerPlane.toNat).map fun i => m.memory (0xB0000 + i)
  else (List.range g.bytesPerPlane.toNat).map fun i => m.memory (0xB8000 + i)

/-- The byte of the aperture at a position. -/
def apertureByte (g : Graphics) (m : Machine) (position : Nat) : UInt8 :=
  if g.planar then m.window (.ofNat (position / g.bytesPerPlane.toNat)) (position % g.bytesPerPlane.toNat)
  else if g.layout = some .packed8bpp then m.window (m.gcRegisters 4) position
  else if g.layout = some .hercules then m.memory (0xB0000 + position)
  else m.memory (0xB8000 + position)

/-- The measures of a video mode. -/
structure Graphics.Measured (g : Graphics) : Prop where
  planes_range : 1 ≤ g.planes.toNat ∧ g.planes.toNat ≤ 4
  planes_eq : g.planar = false → g.planes.toNat = 1
  bytes_range : 1 ≤ g.bytesPerPlane.toNat ∧ g.bytesPerPlane.toNat ≤ 64000

theorem map_range_mul {α : Type} (f : Nat → α) (n k : Nat) :
    (List.range (n * k)).map f = (List.range n).flatMap fun i => (List.range k).map fun j => f (i * k + j) := by
  induction n with
  | zero => simp
  | succ n ih =>
    rw [Nat.succ_mul, List.range_add, List.map_append, ih, List.range_succ, List.flatMap_append, List.flatMap_singleton,
      List.map_map]
    rfl

theorem aperture_eq {g : Graphics} (hg : g.Measured) (m : Machine) :
    aperture g m = (List.range (g.planes.toNat * g.bytesPerPlane.toNat)).map (apertureByte g m) := by
  unfold aperture apertureByte
  by_cases hplanar : g.planar = true
  · simp only [if_pos hplanar, map_range_mul]
    apply List.flatMap_congr
    intro plane _
    apply List.map_congr_left
    intro i hi
    have hlt : i < g.bytesPerPlane.toNat := List.mem_range.mp hi
    rw [Nat.add_comm, Nat.add_mul_div_right _ _ hg.bytes_range.1, Nat.div_eq_of_lt hlt, Nat.zero_add, Nat.add_mul_mod_self_right,
      Nat.mod_eq_of_lt hlt]
  · simp only [if_neg hplanar, hg.planes_eq (eq_false_of_ne_true hplanar), Nat.one_mul]
    split_ifs <;> rfl

theorem aperture_length {g : Graphics} (hg : g.Measured) (m : Machine) :
    (aperture g m).length = g.planes.toNat * g.bytesPerPlane.toNat := by
  rw [aperture_eq hg, List.length_map, List.length_range]

/-- `m'` shows the pictures of `m`. -/
structure SameVideo (m m' : Machine) : Prop where
  window_eq : m'.window = m.window
  registers_eq : m'.gcRegisters = m.gcRegisters
  mono_eq : ∀ i < 0x10000, m'.memory (0xB0000 + i) = m.memory (0xB0000 + i)
  color_eq : ∀ i < 0x10000, m'.memory (0xB8000 + i) = m.memory (0xB8000 + i)

theorem apertureByte_same {g : Graphics} {m m' : Machine} (h : SameVideo m m') {position : Nat} (hposition : position < 0x10000 ∨ g.planar = true) :
    apertureByte g m' position = apertureByte g m position := by
  unfold apertureByte
  rw [h.window_eq, h.registers_eq]
  by_cases hplanar : g.planar = true
  · rw [if_pos hplanar, if_pos hplanar]
  · have hlt := hposition.resolve_right hplanar
    rw [h.mono_eq _ hlt, h.color_eq _ hlt]

/-! ## A block -/

/-- The byte of a plane, whatever plane was selected before. -/
theorem graphicsByte_planar {g : Graphics} (hg : g.Measured) (hplanar : g.planar = true) (m : Machine) (position : UInt32) :
    graphicsByte g m position =
      (apertureByte g m position.toNat,
        { m with gcIndex := 4
                 gcRegisters := Function.update m.gcRegisters 4 (.ofNat (position.toNat / g.bytesPerPlane.toNat)) }) := by
  have hbytes := hg.bytes_range
  have hselect : (position / g.bytesPerPlane).toUInt8 = .ofNat (position.toNat / g.bytesPerPlane.toNat) := by
    apply UInt8.toNat_inj.mp
    rw [UInt32.toNat_toUInt8, UInt32.toNat_div, UInt8.toNat_ofNat']
  have hoffset : (position % g.bytesPerPlane).toUInt16.toNat = position.toNat % g.bytesPerPlane.toNat := by
    have hlt := Nat.mod_lt position.toNat hbytes.1
    rw [UInt32.toNat_toUInt16, UInt32.toNat_mod, Nat.mod_eq_of_lt]
    omega
  unfold graphicsByte apertureByte
  rw [if_pos hplanar, if_pos hplanar, hselect]
  simp [Machine.outp, Machine.peek, hoffset]

/-- The byte of a mode without planes. -/
theorem graphicsByte_linear {g : Graphics} (hg : g.Measured) (hplanar : g.planar = false) (m : Machine) {position : UInt32}
    (hposition : position.toNat < g.planes.toNat * g.bytesPerPlane.toNat) :
    graphicsByte g m position = (apertureByte g m position.toNat, m) := by
  have hbytes := hg.bytes_range
  have hoffset : position.toUInt16.toNat = position.toNat := by
    rw [hg.planes_eq hplanar] at hposition
    rw [UInt32.toNat_toUInt16, Nat.mod_eq_of_lt]
    omega
  unfold graphicsByte apertureByte
  by_cases hpacked : g.layout = some .packed8bpp
  · simp [hplanar, hpacked, Machine.peek, hoffset]
  by_cases hhercules : g.layout = some .hercules
  · simp [hplanar, hhercules, Machine.peek, hoffset]
  · simp [hplanar, hpacked, hhercules, Machine.peek, hoffset]

theorem u32_toNat_succ {x : UInt32} {n : Nat} (h : x.toNat < n) (hn : n < 2 ^ 32) : (x + 1).toNat = x.toNat + 1 := by
  rw [UInt32.toNat_add]
  exact Nat.mod_eq_of_lt (by simp only [UInt32.reduceToNat]; omega)

/-- The loop reads a stretch of the aperture; in a planar mode it leaves the read-map register
    selected, at some plane. -/
theorem graphicsBytes_eq {g : Graphics} (hg : g.Measured) (n : Nat) (position : UInt32) (m : Machine)
    (hposition : position.toNat + n ≤ g.planes.toNat * g.bytesPerPlane.toNat) :
    (graphicsBytes g n position m).1 = (List.range n).map (fun i => apertureByte g m (position.toNat + i)) ∧
      ((graphicsBytes g n position m).2 = m ∨
        g.planar = true ∧ ∃ plane, (graphicsBytes g n position m).2 =
          { m with gcIndex := 4, gcRegisters := Function.update m.gcRegisters 4 plane }) := by
  have hbytes := hg.bytes_range
  have htotal : g.planes.toNat * g.bytesPerPlane.toNat ≤ 4 * 64000 := Nat.mul_le_mul hg.planes_range.2 hbytes.2
  induction n generalizing position m with
  | zero => exact ⟨rfl, Or.inl rfl⟩
  | succ n ih =>
    have hnext : (position + 1).toNat = position.toNat + 1 :=
      u32_toNat_succ (show position.toNat < 4 * 64000 + 1 by omega) (by decide)
    have hrange : ∀ f : Nat → UInt8, (List.range (n + 1)).map (fun i => f (position.toNat + i)) =
        f position.toNat :: (List.range n).map fun i => f ((position + 1).toNat + i) := by
      intro f
      rw [List.range_succ_eq_map, List.map_cons, List.map_map, hnext]
      simp only [Function.comp_def, Nat.succ_eq_add_one, Nat.add_zero, Nat.add_assoc, Nat.add_comm 1]
    rw [graphicsBytes, hrange]
    cases hplanar : g.planar with
    | false =>
      rw [graphicsByte_linear hg hplanar m (by omega)]
      obtain ⟨hdata, hmachine⟩ := ih (position + 1) m (by omega)
      refine ⟨by rw [← hdata], Or.inl ?_⟩
      exact hmachine.resolve_right (by simp [hplanar])
    | true =>
      rw [graphicsByte_planar hg hplanar m position]
      generalize UInt8.ofNat (position.toNat / g.bytesPerPlane.toNat) = plane
      obtain ⟨hdata, hmachine⟩ := ih (position + 1)
        { m with gcIndex := 4, gcRegisters := Function.update m.gcRegisters 4 plane } (by omega)
      have hsame : apertureByte g { m with gcIndex := 4, gcRegisters := Function.update m.gcRegisters 4 plane } =
          apertureByte g m := by
        funext position
        unfold apertureByte
        rw [if_pos hplanar, if_pos hplanar]
      rw [hsame] at hdata
      refine ⟨by rw [← hdata], Or.inr ⟨rfl, ?_⟩⟩
      rcases hmachine with hmachine | ⟨-, plane', hmachine⟩
      · exact ⟨plane, hmachine⟩
      · refine ⟨plane', hmachine.trans ?_⟩
        simp only [Function.update_idem]

/-- A block is a stretch of the aperture, and the registers are put back. -/
theorem captureBlock_eq {g : Graphics} (hg : g.Measured) (m : Machine) (offset : UInt32) (requested : UInt16)
    (hend : offset.toNat + requested.toNat ≤ g.planes.toNat * g.bytesPerPlane.toNat) :
    captureBlock g m offset requested =
      ((List.range requested.toNat).map fun i => apertureByte g m (offset.toNat + i), m) := by
  unfold captureBlock
  cases hplanar : g.planar with
  | false =>
    rw [if_neg (by simp)]
    obtain ⟨hdata, hmachine⟩ := graphicsBytes_eq hg requested.toNat offset m hend
    exact Prod.ext hdata (hmachine.resolve_right (by simp [hplanar]))
  | true =>
    rw [if_pos rfl]
    obtain ⟨hdata, hmachine⟩ := graphicsBytes_eq hg requested.toNat offset (m.outp 0x3CE 4) hend
    have hsame : apertureByte g (m.outp 0x3CE 4) = apertureByte g m := rfl
    rw [hsame] at hdata
    dsimp only
    refine Prod.ext hdata ?_
    dsimp only
    -- the plane and the index that were selected before
    have hplane : (m.outp 0x3CE 4).inp 0x3CF = m.gcRegisters 4 := rfl
    rw [hplane]
    rcases hmachine with hmachine | ⟨-, plane, hmachine⟩
    · rw [hmachine]
      simp [Machine.outp, Machine.inp]
    · rw [hmachine]
      simp [Machine.outp, Machine.inp]

/-! ## Exchanges -/

/-- The bridge has received the first bytes of the aperture, and the agent stands after them. -/
structure Captured (g : Graphics) (m : Machine) (received : Bytes) (f : Files) : Prop where
  measured : g.Measured
  kind_eq : f.transfer.kind = .graphics
  id_ne : f.transfer.id ≠ 0
  graphics_eq : f.transfer.graphics = g
  size_eq : f.transfer.size.toNat = g.planes.toNat * g.bytesPerPlane.toNat
  offset_eq : f.transfer.offset.toNat = received.length
  received_le : received.length ≤ g.planes.toNat * g.bytesPerPlane.toNat
  received_eq : received = (List.range received.length).map (apertureByte g m)
  crc_eq : f.transfer.crc.toNat = crc32 received 0

/-- `GRAPHICS_BLOCK`: the bridge asks for `length` bytes after those that it has. -/
def graphicsExchange (f : Files) (received : Bytes) (m : Machine) (length : Nat) :
    Option (TransferBlockResponse × Files × Machine) :=
  match TransferBlockRequest.encode ⟨f.transfer.id.toNat, received.length, length, []⟩ with
  | .error _ => none
  | .ok request => match readGraphicsBlock m f request with
    | (none, _) => none
    | (some reply, f, m) => match TransferBlockResponse.decode reply with
      | .error _ => none
      | .ok block => some (block, f, m)

/-- The request is one that the bridge can encode. -/
theorem blockRequest_encode {id offset length : Nat} (hid : id ≠ 0 ∧ id < 2 ^ 16) (hoffset : offset < 2 ^ 32)
    (hlength : 1 ≤ length ∧ length ≤ 900) :
    ∃ bs, TransferBlockRequest.encode ⟨id, offset, length, []⟩ = .ok bs := by
  have hpack : ∃ head, structPack [(2, (id : Int)), (4, (offset : Int)), (2, (length : Int))] = .ok head := by
    rw [structPack_isOk_iff]
    simp only [List.forall_mem_cons, List.not_mem_nil, false_implies, implies_true, and_true]
    norm_cast
    omega
  obtain ⟨head, hhead⟩ := hpack
  refine ⟨head, ?_⟩
  rw [TransferBlockRequest.encode, raiseIf_false hid.1, ok_bind, raiseIf_false (show ¬ ¬ (1 ≤ length ∧ length ≤ maxTransferBlock) from not_not.mpr hlength), ok_bind,
    raiseIf_false (by simp), ok_bind, hhead]
  simp [pure, Except.pure]

/-- An exchange before the end brings the next stretch of the aperture, up to its end. -/
theorem Captured.exchange {g : Graphics} {m m' : Machine} {received : Bytes} {f : Files} (h : Captured g m received f)
    (hvideo : SameVideo m m') {length : Nat} (hlength : 1 ≤ length ∧ length ≤ 900)
    (hbefore : received.length < g.planes.toNat * g.bytesPerPlane.toNat) :
    ∃ block f', graphicsExchange f received m' length = some (block, f', m') ∧
      Captured g m (received ++ block.data) f' ∧
      block.data.length = min length (g.planes.toNat * g.bytesPerPlane.toNat - received.length) ∧
      block.rollingCrc32 = crc32 (received ++ block.data) 0 := by
  have hg := h.measured
  have htotal : g.planes.toNat * g.bytesPerPlane.toNat ≤ 4 * 64000 := Nat.mul_le_mul hg.planes_range.2 hg.bytes_range.2
  have hid : f.transfer.id.toNat ≠ 0 := fun hzero => h.id_ne (UInt16.toNat_inj.mp hzero)
  obtain ⟨request, hrequest⟩ := blockRequest_encode ⟨hid, f.transfer.id.toNat_lt⟩
    (show received.length < 2 ^ 32 by omega) hlength
  obtain ⟨n, hn⟩ : ∃ n, min length (g.planes.toNat * g.bytesPerPlane.toNat - received.length) = n := ⟨_, rfl⟩
  have hsmall : (UInt16.ofNat n).toNat = n := UInt16.toNat_ofNat_of_lt' (show n < 65536 by omega)
  have hgranted : blockRequestOf f.transfer .graphics ⟨f.transfer.id.toNat, received.length, length, []⟩ = some (.ofNat n) := by
    rw [blockRequestOf, if_neg, ← hn, h.size_eq]
    simp only [h.kind_eq, h.offset_eq, h.size_eq, ne_eq, not_true, false_or, ge_iff_le, not_le]
    exact hbefore
  have hdata := captureBlock_eq hg m' f.transfer.offset (.ofNat n) (by rw [h.offset_eq, hsmall]; omega)
  rw [h.offset_eq, hsmall] at hdata
  have hlengths : ((List.range n).map fun i => apertureByte g m' (received.length + i)).length = n := by
    rw [List.length_map, List.length_range]
  generalize hbytes : ((List.range n).map fun i => apertureByte g m' (received.length + i)) = data at hdata hlengths
  have hcrc : (crc32Update f.transfer.crc data).toNat = crc32 (received ++ data) 0 := by
    rw [crc32Update_toNat, h.crc_eq, crc32_append]
  have hread : readGraphicsBlock m' f request =
      (some (blockRead f.transfer data).1, { f with transfer := (blockRead f.transfer data).2 }, m') := by
    rw [readGraphicsBlock_of_reads (readsBlock_of_encode hrequest), readGraphicsBlockOf, hgranted]
    dsimp only
    rw [h.graphics_eq, hdata]
  have hdecode : TransferBlockResponse.decode (blockRead f.transfer data).1 =
      .ok ⟨f.transfer.id.toNat, f.transfer.offset.toNat, data, (crc32Update f.transfer.crc data).toNat⟩ :=
    decode_block _ _ _ (by omega)
  refine ⟨⟨f.transfer.id.toNat, f.transfer.offset.toNat, data, (crc32Update f.transfer.crc data).toNat⟩,
    { f with transfer := (blockRead f.transfer data).2 }, ?_, ?_, by rw [hn]; exact hlengths, hcrc⟩
  · rw [graphicsExchange, hrequest]
    dsimp only
    rw [hread]
    dsimp only
    rw [hdecode]
  refine ⟨hg, h.kind_eq, h.id_ne, h.graphics_eq, h.size_eq, ?_, ?_, ?_, hcrc⟩
  · show (f.transfer.offset + UInt32.ofNat data.length).toNat = (received ++ data).length
    rw [UInt32.toNat_add, h.offset_eq, UInt32.toNat_ofNat', List.length_append]
    omega
  · show (received ++ data).length ≤ _
    rw [List.length_append]
    omega
  · have hsame : data = (List.range data.length).map fun i => apertureByte g m (received.length + i) := by
      rw [hlengths, ← hbytes]
      apply List.map_congr_left
      intro i hi
      refine apertureByte_same hvideo ?_
      have hlt := List.mem_range.mp hi
      cases hplanar : g.planar with
      | true => exact Or.inr rfl
      | false =>
        have hone := hg.planes_eq hplanar
        have hmost := hg.bytes_range.2
        rw [hone] at hn hbefore
        exact Or.inl (by omega)
    rw [List.length_append, List.range_add, List.map_append, List.map_map, ← h.received_eq]
    exact congrArg (received ++ ·) hsame

/-! ## A transfer -/

/-- `GRAPHICS_BLOCK` after `GRAPHICS_BLOCK`, each on its machine: the blocks, and the machines
    after them. -/
def graphicsDownload (f : Files) (received : Bytes) : List (Machine × Nat) → Option (List (TransferBlockResponse × Machine))
  | [] => some []
  | (m, length) :: turns => match graphicsExchange f received m length with
    | none => none
    | some (block, f, m) => (graphicsDownload f (received ++ block.data) turns).map ((block, m) :: ·)

/-- What the blocks bring. -/
def blockBytes (blocks : List (TransferBlockResponse × Machine)) : Bytes := blocks.flatMap (·.1.data)

/-- The exchanges that are left bring the rest of the aperture. -/
theorem Captured.download {g : Graphics} {m : Machine} {received : Bytes} {f : Files} (h : Captured g m received f)
    (turns : List (Machine × Nat)) (hturns : ∀ turn ∈ turns, SameVideo m turn.1 ∧ 1 ≤ turn.2 ∧ turn.2 ≤ 900)
    (hbefore : turns ≠ [] → received.length + (turns.dropLast.map (·.2)).sum < g.planes.toNat * g.bytesPerPlane.toNat)
    (hend : g.planes.toNat * g.bytesPerPlane.toNat ≤ received.length + (turns.map (·.2)).sum) :
    ∃ blocks, graphicsDownload f received turns = some blocks ∧ received ++ blockBytes blocks = aperture g m ∧
      blocks.map (·.2) = turns.map (·.1) ∧
      ∀ k block, blocks[k]? = some block →
        block.1.rollingCrc32 = crc32 (received ++ blockBytes (blocks.take (k + 1))) 0 := by
  induction turns generalizing received f with
  | nil =>
    refine ⟨[], rfl, ?_, rfl, by simp⟩
    have hlength : received.length = g.planes.toNat * g.bytesPerPlane.toNat := h.received_le.antisymm (by simpa using hend)
    rw [aperture_eq h.measured, ← hlength, ← h.received_eq]
    exact List.append_nil _
  | cons turn turns ih =>
    obtain ⟨hvideo, hlength⟩ := hturns turn List.mem_cons_self
    have hstarts := hbefore (by simp)
    obtain ⟨block, f', hexchange, hcaptured, hbytes, hcrc⟩ := h.exchange hvideo hlength (by omega)
    rw [List.map_cons, List.sum_cons] at hend
    have hgrown : (received ++ block.data).length = received.length + block.data.length := List.length_append
    obtain ⟨blocks, hblocks, hall, hmachines, hcrcs⟩ := ih hcaptured
      (fun turn' hturn' => hturns turn' (List.mem_cons_of_mem _ hturn')) (by
        intro hne
        rw [List.dropLast_cons_of_ne_nil hne, List.map_cons, List.sum_cons] at hstarts
        omega) (by omega)
    refine ⟨(block, turn.1) :: blocks, ?_, ?_, ?_, ?_⟩
    · rw [graphicsDownload, hexchange]
      dsimp only
      rw [hblocks]
      rfl
    · rw [blockBytes, List.flatMap_cons, ← List.append_assoc]
      exact hall
    · rw [List.map_cons, List.map_cons, hmachines]
    · intro k block' hblock'
      cases k with
      | zero =>
        cases hblock'
        simpa [blockBytes] using hcrc
      | succ k =>
        have htail := hcrcs k block' hblock'
        rw [List.take_succ_cons, blockBytes, List.flatMap_cons, ← List.append_assoc]
        exact htail

theorem captured_beginGraphics {c : Config} {m : Machine} {f f' : Files} {reply : Bytes}
    (h : beginGraphics c m f = (some reply, f')) : Captured f'.transfer.graphics m [] f' := by
  unfold beginGraphics at h
  split at h
  · cases h
  split at h
  · cases h
  rename_i g hinfo
  simp only [graphicsInfo] at hinfo
  split at hinfo
  · cases hinfo
  rename_i layout planes width height bytesPerPlane hmode
  obtain rfl := (Prod.mk.inj hinfo).2
  simp only [Prod.mk.injEq, Option.some.injEq] at h
  obtain ⟨-, rfl⟩ := h
  obtain ⟨hplanes, -, -, hlow, hhigh⟩ := graphicsMode_bounds hmode
  have hrange : 1 ≤ planes.toNat ∧ planes.toNat ≤ 4 := by
    rw [hplanes]
    split <;> decide
  refine
    { measured := ⟨hrange, ?_, hlow, hhigh⟩
      kind_eq := rfl
      id_ne := nextTransferId_ne_zero m _
      graphics_eq := rfl
      size_eq := captureSize_toNat hrange.2 hhigh
      offset_eq := rfl
      received_le := Nat.zero_le _
      received_eq := rfl
      crc_eq := rfl }
  intro hplanar
  have hlayout : layout ≠ .planar4bpp := by
    rintro rfl
    cases hplanar
  exact hplanes.trans (if_neg hlayout)

/-- A capture of any mode that is accepted, then blocks of 1 to 900 bytes, the last of them the
    one that reaches the end, while the pictures stay what they were: every block is granted, the
    blocks bring the aperture, each with the CRC of the bytes so far, and after each the machine
    is as it was, its graphics controller too. -/
theorem graphics_transfer_faithful (c : Config) (m : Machine) (f f' : Files) (reply : Bytes)
    (hbegin : beginGraphics c m f = (some reply, f')) (turns : List (Machine × Nat))
    (hturns : ∀ turn ∈ turns, SameVideo m turn.1 ∧ 1 ≤ turn.2 ∧ turn.2 ≤ 900)
    (hreaches : (turns.dropLast.map (·.2)).sum < (aperture f'.transfer.graphics m).length ∧
      (aperture f'.transfer.graphics m).length ≤ (turns.map (·.2)).sum) :
    ∃ blocks, graphicsDownload f' [] turns = some blocks ∧ blockBytes blocks = aperture f'.transfer.graphics m ∧
      blocks.map (·.2) = turns.map (·.1) ∧
      ∀ k block, blocks[k]? = some block → block.1.rollingCrc32 = crc32 (blockBytes (blocks.take (k + 1))) 0 := by
  have hcaptured := captured_beginGraphics hbegin
  rw [aperture_length hcaptured.measured] at hreaches
  obtain ⟨blocks, hblocks, hall, hmachines, hcrcs⟩ := hcaptured.download turns hturns
    (fun _ => by simpa using hreaches.1) (by simpa using hreaches.2)
  exact ⟨blocks, hblocks, hall, hmachines, hcrcs⟩

/-- A machine in mode 0Dh, with the plane number in the bytes of a plane. -/
def planarMachine : Machine :=
  { blankMachine with memory := Memory.store (fun _ => 0) 0x449 [0x0D], window := fun plane i => plane + .ofNat i }

def planarBegun : Option Bytes × Files :=
  beginGraphics sampleConfig planarMachine ⟨.start, dosStore (fun _ => none) fun _ => ⟨true, 0⟩⟩

/-- Four planes of 8000 bytes, in 36 blocks. -/
theorem graphics_transfer_faithful_planar :
    ∃ blocks, graphicsDownload planarBegun.2 [] (List.replicate 36 (planarMachine, 900)) = some blocks ∧
      blockBytes blocks = aperture planarBegun.2.transfer.graphics planarMachine ∧
      blocks.map (·.2) = (List.replicate 36 (planarMachine, 900)).map (·.1) ∧
      ∀ k block, blocks[k]? = some block → block.1.rollingCrc32 = crc32 (blockBytes (blocks.take (k + 1))) 0 := by
  have hbegin : beginGraphics sampleConfig planarMachine ⟨.start, dosStore (fun _ => none) fun _ => ⟨true, 0⟩⟩ =
      (some (planarBegun.1.getD []), planarBegun.2) := rfl
  have hlength := aperture_length (captured_beginGraphics hbegin).measured planarMachine
  refine graphics_transfer_faithful sampleConfig planarMachine _ planarBegun.2 _ hbegin (List.replicate 36 (planarMachine, 900))
    ?_ ?_
  · intro turn hturn
    obtain rfl := List.eq_of_mem_replicate hturn
    exact ⟨⟨rfl, rfl, fun _ _ => rfl, fun _ _ => rfl⟩, by decide⟩
  · rw [hlength]
    decide

end DosMcp.Dos
