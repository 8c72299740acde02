/-
  DosMcp.Dos.Disk — what RA-TSR does to the disk over a whole run, with programs in the
  foreground that change files in between.

  - `TransferOp.run_files`: the files one operation may change, and when.
  - `stays_below_root`: under a normal root no step changes a file outside it or has one open;
    without write permission no step changes any file.
  - `existing_file_kept`: a file that is there stays as it is, unless an upload that may
    overwrite is onto it.
  - `handles_closed`: RA-TSR has at most the file of its active transfer open, and after a
    session has expired the next DOS idle leaves none.
-/

import DosMcp.Dos.Temporary
import DosMcp.Dos.Upload
import DosMcp.Dos.WorkerProofs
import DosMcp.Lib.Holding

namespace DosMcp.Dos

open Lib

/-! ## One operation -/

/-- What an operation from `f` to `f'` may do to the file `n`. -/
inductive Changes (c : Config) (f f' : Files) (n : Bytes) : Prop
  | kept (h : f'.store.files n = f.store.files n)
  /-- An upload has begun: its temporary file is new. -/
  | created (hallowed : c.allowFileWrite = true) (habsent : f.store.files n = none) (hkind : f'.transfer.kind = .write)
      (hname : n = dosName f'.transfer.temp)
  | written (hkind : f.transfer.kind = .write) (hname : n = dosName f.transfer.temp)
  | replaced (hkind : f.transfer.kind = .write) (hname : n = dosName f.transfer.path)
      (hmay : f.store.files n = none ∨ f.transfer.overwrite ≠ 0)

/-- `inside` has the names RA-TSR makes out of requests: destinations and temporary files. -/
structure Admits (c : Config) (inside : Bytes → Prop) : Prop where
  path : ∀ value path, buildSandboxPath c value = some path → inside (dosName path)
  temp : ∀ (f : Files) value directory (id : UInt16) tried, buildSandboxPath c value = some f.transfer.path →
    tempPrefix c f = some directory → tried < 16 → inside (dosName (directory ++ tempName id tried))

/-- What the handles are, with `inside` the names RA-TSR may use. -/
structure Tidy (base : Nat) (others : Nat → Option Handle) (inside : Bytes → Prop) (f : Files) : Prop where
  holding : f.store.Holding base others inside f.transfer.handle
  idle : f.transfer.kind = .none ∨ f.transfer.kind = .graphics → f.transfer.handle = none
  upload : f.transfer.kind = .write →
    f.store.Holding base others (· = dosName f.transfer.temp) f.transfer.handle ∧ inside (dosName f.transfer.path)
  temp : f.transfer.kind = .write → inside (dosName f.transfer.temp)

section

variable {base : Nat} {others : Nat → Option Handle} {inside : Bytes → Prop} {c : Config} {f : Files} {n : Bytes}

theorem Tidy.closed (h : f.store.Holding base others inside f.transfer.handle) (hkind : f.transfer.kind = .none)
    (hhandle : f.transfer.handle = none) : Tidy base others inside f where
  holding := h
  idle := fun _ => hhandle
  upload := by simp [hkind]
  temp := by simp [hkind]

theorem Tidy.start {store : Store} (hclosed : ∀ i, store.nextHandle ≤ i → store.handles i = none) :
    Tidy store.nextHandle store.handles inside ⟨.start, store⟩ :=
  Tidy.closed (Store.holding_start hclosed) rfl rfl

/-! ### Closing -/

theorem closeTransfer_holding (h : f.store.Holding base others inside f.transfer.handle) (b : Bool) :
    (closeTransfer f b).store.Holding base others inside none := by
  have hclose : (if f.transfer.handle.isSome then f.store.close f.transfer.handle else f.store).Holding base others inside
      none := by
    split
    · exact h.close inside
    · rename_i hnone
      rw [Option.not_isSome_iff_eq_none.mp hnone] at h
      exact h
  unfold closeTransfer
  dsimp only
  split
  · exact hclose.remove _
  · exact hclose

theorem closeTransfer_tidy (h : Tidy base others inside f) (b : Bool) : Tidy base others inside (closeTransfer f b) :=
  Tidy.closed (closeTransfer_holding h.holding b) rfl rfl

theorem closeTransfer_kept (hkind : f.transfer.kind ≠ .write) (b : Bool) : (closeTransfer f b).store.files = f.store.files := by
  simp only [closeTransfer]
  rw [if_neg (fun h => hkind h.2)]
  split <;> simp

/-- Closing removes at most the temporary file of an upload. -/
theorem closeTransfer_changes (f : Files) (b : Bool) (n : Bytes) : Changes c f (closeTransfer f b) n := by
  by_cases hkind : f.transfer.kind = .write
  · by_cases hname : n = dosName f.transfer.temp
    · exact .written hkind hname
    · refine .kept ?_
      simp only [closeTransfer]
      split
      · rw [Store.remove_files_ne _ hname]
        split <;> simp
      · split <;> simp
  · exact .kept (congrFun (closeTransfer_kept hkind b) n)

/-! ### Reads -/

theorem beginFileRead_tidy (h : Tidy base others inside f) (hadmits : Admits c inside) (m : Machine) (payload : Bytes) :
    Tidy base others inside (beginFileRead c m f payload).2 := by
  unfold beginFileRead
  split
  · exact h
  rename_i hguard
  have hkind : f.transfer.kind = .none := by
    by_contra hne
    exact hguard (Or.inr (Or.inl hne))
  have hhandle := h.idle (Or.inl hkind)
  have hstore := h.holding
  rw [hhandle] at hstore
  split
  · exact h
  rename_i path hpath
  have hopened := hstore.openFile (hadmits.path _ path hpath)
  dsimp only
  split
  · rename_i store hopen
    rw [hopen] at hopened
    refine Tidy.closed ?_ hkind hhandle
    dsimp only
    rw [hhandle]
    exact hopened
  rename_i handle store hopen
  rw [hopen] at hopened
  have hended := hopened.seekEnd
  split
  · rename_i ended hend
    rw [hend] at hended
    exact Tidy.closed (closeTransfer_holding hended false) rfl rfl
  rename_i size ended hend
  rw [hend] at hended
  split
  · exact Tidy.closed (closeTransfer_holding hended false) rfl rfl
  have hrewound := hended.seekStart
  split
  · rename_i rewound hrewind
    rw [hrewind] at hrewound
    exact Tidy.closed (closeTransfer_holding hrewound false) rfl rfl
  · rename_i rewound hrewind
    rw [hrewind] at hrewound
    exact ⟨hrewound, by simp, by simp, by simp⟩

theorem beginFileRead_files (m : Machine) (payload : Bytes) : (beginFileRead c m f payload).2.store.files = f.store.files := by
  unfold beginFileRead
  split
  · rfl
  rename_i hguard
  have hkind : f.transfer.kind = .none := by
    by_contra hne
    exact hguard (Or.inr (Or.inl hne))
  split
  · rfl
  rename_i path hpath
  have hopened := Store.openFile_files f.store (dosName path)
  dsimp only
  split
  · rename_i store hopen
    rw [hopen] at hopened
    exact hopened
  rename_i handle store hopen
  rw [hopen] at hopened
  have hended := store.seekEnd_files (some handle)
  split
  · rename_i ended hend
    rw [hend] at hended
    dsimp only
    refine (closeTransfer_kept (by rw [hkind]; decide) false).trans ?_
    exact hended.trans hopened
  rename_i size ended hend
  rw [hend] at hended
  split
  · dsimp only
    refine (closeTransfer_kept (by rw [hkind]; decide) false).trans ?_
    exact hended.trans hopened
  have hrewound := ended.seekStart_files (some handle)
  split
  · rename_i rewound hrewind
    rw [hrewind] at hrewound
    dsimp only
    refine (closeTransfer_kept (by rw [hkind]; decide) false).trans ?_
    exact hrewound.trans (hended.trans hopened)
  · rename_i rewound hrewind
    rw [hrewind] at hrewound
    exact hrewound.trans (hended.trans hopened)

theorem readTransferBlock_tidy (h : Tidy base others inside f) (payload : Bytes) :
    Tidy base others inside (readTransferBlock f payload).2 := by
  unfold readTransferBlock
  split
  · exact h
  rename_i requested hrequest
  have hkind : f.transfer.kind = .read := by
    by_contra hne
    simp [blockRequest, hne] at hrequest
  have hread := h.holding.read requested.toNat
  split
  · rename_i store hcall
    rw [hcall] at hread
    exact ⟨hread, by simp [hkind], by simp [hkind], by simp [hkind]⟩
  rename_i bytes store hcall
  rw [hcall] at hread
  split
  · exact ⟨hread, by simp [hkind], by simp [hkind], by simp [hkind]⟩
  · exact ⟨hread, by simp [blockRead, hkind], by simp [blockRead, hkind], by simp [blockRead, hkind]⟩

theorem readTransferBlock_files (payload : Bytes) : (readTransferBlock f payload).2.store.files = f.store.files := by
  unfold readTransferBlock
  split
  · rfl
  rename_i requested hrequest
  have hread := f.store.read_files f.transfer.handle requested.toNat
  split
  · rename_i store hcall
    rw [hcall] at hread
    exact hread
  rename_i bytes store hcall
  rw [hcall] at hread
  split
  · exact hread
  · exact hread

theorem endReadTransfer_tidy (h : Tidy base others inside f) (payload : Bytes) :
    Tidy base others inside (endReadTransfer f payload).2 := by
  unfold endReadTransfer
  dsimp only
  split
  · exact h
  · exact closeTransfer_tidy h false

theorem endReadTransfer_changes (payload : Bytes) : Changes c f (endReadTransfer f payload).2 n := by
  unfold endReadTransfer
  dsimp only
  split
  · exact .kept rfl
  · exact closeTransfer_changes f false n

/-! ### Uploads -/

/-- The attempts open the temporary file they create, and change no other. -/
theorem tryTransferTemp_holding {directory : Bytes} {id : UInt16} {attempt fuel : Nat} {f' : Files} {allowed : Bytes → Prop}
    (h : f.store.Holding base others allowed none) (htry : tryTransferTemp directory id attempt fuel f = (true, f')) :
    f'.store.Holding base others (· = dosName f'.transfer.temp) f'.transfer.handle ∧
      ∀ n ≠ dosName f'.transfer.temp, f'.store.files n = f.store.files n := by
  induction fuel generalizing attempt f with
  | zero =>
    rw [tryTransferTemp] at htry
    cases htry
  | succ fuel ih =>
    rw [tryTransferTemp] at htry
    split at htry
    · have hrest := ih (by exact h) htry
      exact hrest
    split at htry
    · rename_i store hcreate
      have hstore : (f.store.create (dosName (directory ++ tempName id attempt))).2.Holding base others (fun _ => True) _ :=
        (h.none_any (fun _ => True)).create trivial
      rw [hcreate] at hstore
      have hrest := ih (by exact hstore.none_any allowed) htry
      refine ⟨hrest.1, fun n hn => (hrest.2 n hn).trans ?_⟩
      rw [Store.create_eq_none hcreate, Store.note_files]
    · rename_i i store hcreate
      cases htry
      have hstore := (h.none_any (· = dosName (directory ++ tempName id attempt))).create rfl
      rw [hcreate] at hstore
      refine ⟨hstore, fun n hn => ?_⟩
      have hkept := Store.create_files_ne (s := f.store) hn
      rw [hcreate] at hkept
      exact hkept

theorem tryTransferTemp_closed {directory : Bytes} {id : UInt16} {attempt fuel : Nat} {f' : Files} {allowed : Bytes → Prop}
    (h : f.store.Holding base others allowed none) (htry : tryTransferTemp directory id attempt fuel f = (false, f')) :
    f'.store.Holding base others allowed none := by
  induction fuel generalizing attempt f with
  | zero =>
    rw [tryTransferTemp] at htry
    cases htry
    exact h
  | succ fuel ih =>
    rw [tryTransferTemp] at htry
    split at htry
    · have hrest := ih (by exact h) htry
      exact hrest
    split at htry
    · rename_i store hcreate
      have hrest := ih (by rw [Store.create_eq_none hcreate]; exact h.congr rfl rfl) htry
      exact hrest
    · cases htry

theorem createTransferTemp_holding {id : UInt16} {f' : Files} {allowed : Bytes → Prop}
    (h : f.store.Holding base others allowed none) (hcreate : createTransferTemp c id f = (true, f')) :
    f'.store.Holding base others (· = dosName f'.transfer.temp) f'.transfer.handle ∧
      ∀ n ≠ dosName f'.transfer.temp, f'.store.files n = f.store.files n := by
  unfold createTransferTemp at hcreate
  split at hcreate
  · cases hcreate
  split at hcreate
  · cases hcreate
  · exact tryTransferTemp_holding h hcreate

theorem createTransferTemp_closed {id : UInt16} {f' : Files} {allowed : Bytes → Prop}
    (h : f.store.Holding base others allowed none) (hcreate : createTransferTemp c id f = (false, f')) :
    f'.store.Holding base others allowed none := by
  unfold createTransferTemp at hcreate
  split at hcreate
  · cases hcreate
    exact h
  split at hcreate
  · cases hcreate
    exact h
  · exact tryTransferTemp_closed h hcreate

/-- An upload that begins has a new temporary file open; one that does not has changed nothing. -/
theorem startFileWrite_effect (hholding : f.store.Holding base others inside none) (hkind : f.transfer.kind = .none)
    (hhandle : f.transfer.handle = none) (hadmits : Admits c inside) {value : Bytes}
    (hpath : buildSandboxPath c value = some f.transfer.path) (hallowed : c.allowFileWrite = true) (m : Machine)
    (payload : Bytes) :
    Tidy base others inside (startFileWrite c m f payload).2 ∧ Changes c f (startFileWrite c m f payload).2 n := by
  unfold startFileWrite
  dsimp only
  split
  · rename_i g hcreate
    have hclosed := createTransferTemp_closed (by exact hholding) hcreate
    obtain ⟨temp, htemp⟩ := createTransferTemp_false hcreate
    have hnone : g.transfer.handle = none := by
      rw [htemp]
      exact hhandle
    refine ⟨Tidy.closed (hnone ▸ hclosed) (by rw [htemp]; exact hkind) hnone, .kept ?_⟩
    exact congrFun (createTransferTemp_files hcreate) n
  · rename_i g hcreate
    obtain ⟨hopen, hfiles⟩ := createTransferTemp_holding (by exact hholding) hcreate
    obtain ⟨directory, hdirectory, hfresh, tried, htried, htemp⟩ := createTransferTemp_fresh hcreate
    obtain ⟨_, -, _, _, -, -, htransfer, -, -⟩ := createTransferTemp_true hcreate
    have hinside : inside (dosName g.transfer.temp) := by
      rw [htemp]
      exact hadmits.temp f value directory _ tried hpath hdirectory htried
    have hdestination : inside (dosName g.transfer.path) := by
      rw [htransfer]
      exact hadmits.path value _ hpath
    refine ⟨⟨hopen.mono ?_, by simp, fun _ => ⟨hopen, hdestination⟩, fun _ => hinside⟩, ?_⟩
    · rintro n rfl
      exact hinside
    · by_cases hname : n = dosName g.transfer.temp
      · exact .created hallowed (hname ▸ hfresh.new) rfl hname
      · exact .kept (hfiles n hname)

theorem beginFileWrite_effect (h : Tidy base others inside f) (hadmits : Admits c inside) (m : Machine) (payload : Bytes) :
    Tidy base others inside (beginFileWrite c m f payload).2 ∧ Changes c f (beginFileWrite c m f payload).2 n := by
  unfold beginFileWrite
  split
  · exact ⟨h, .kept rfl⟩
  rename_i hguard
  have hkind : f.transfer.kind = .none := by
    by_contra hne
    exact hguard (Or.inr (Or.inl hne))
  have hallowed : c.allowFileWrite = true := by
    by_contra hne
    exact hguard (Or.inl hne)
  have hhandle := h.idle (Or.inl hkind)
  have hholding := h.holding
  rw [hhandle] at hholding
  split
  · exact ⟨h, .kept rfl⟩
  split
  · exact ⟨h, .kept rfl⟩
  rename_i path hpath
  dsimp only
  split
  · obtain ⟨htidy, hchanges⟩ := startFileWrite_effect (n := n) (f := ⟨{ f.transfer with path := path }, f.store⟩) hholding hkind
      hhandle hadmits hpath hallowed m payload
    exact ⟨htidy, by cases hchanges with
      | kept hkept => exact .kept hkept
      | created h1 h2 h3 h4 => exact .created h1 h2 h3 h4
      | written h1 h2 => exact .written h1 h2
      | replaced h1 _ _ => cases hkind.symm.trans h1⟩
  have hopened := hholding.openFile (hadmits.path _ path hpath)
  have hsame := Store.openFile_files f.store (dosName path)
  split
  · rename_i existing store hopen
    rw [hopen] at hopened hsame
    refine ⟨Tidy.closed ?_ hkind hhandle, .kept ?_⟩
    · dsimp only
      rw [hhandle]
      exact hopened.close inside
    · show (store.close (some existing)).files n = _
      rw [Store.close_files]
      exact congrFun hsame n
  · rename_i store hopen
    rw [hopen] at hopened hsame
    obtain ⟨htidy, hchanges⟩ := startFileWrite_effect (n := n) (f := ⟨{ f.transfer with path := path }, store⟩) hopened hkind
      hhandle hadmits hpath hallowed m payload
    have hsame : store.files n = f.store.files n := congrFun hsame n
    exact ⟨htidy, by cases hchanges with
      | kept hkept => exact .kept (hkept.trans hsame)
      | created h1 h2 h3 h4 => exact .created h1 (hsame ▸ h2) h3 h4
      | written h1 h2 => exact .written h1 h2
      | replaced h1 _ _ => cases hkind.symm.trans h1⟩

theorem writeTransferBlock_effect (h : Tidy base others inside f) (payload : Bytes) :
    Tidy base others inside (writeTransferBlock f payload).2 ∧ Changes c f (writeTransferBlock f payload).2 n := by
  rcases writeTransferBlock_cases f payload with ⟨-, hrefused⟩ | ⟨haccepted, hstore, htransfer⟩
  · rw [hrefused]
    exact ⟨h, .kept rfl⟩
  have hkind : f.transfer.kind = .write := by
    simp only [blockAccepted, decide_eq_true_eq] at haccepted
    exact haccepted.1
  have hkeep : (writeTransferBlock f payload).2.transfer.kind = .write ∧
      (writeTransferBlock f payload).2.transfer.handle = f.transfer.handle ∧
      (writeTransferBlock f payload).2.transfer.temp = f.transfer.temp ∧
      (writeTransferBlock f payload).2.transfer.path = f.transfer.path := by
    split at htransfer
    · rw [htransfer]
      exact ⟨hkind, rfl, rfl, rfl⟩
    · rw [htransfer]
      exact ⟨hkind, rfl, rfl, rfl⟩
  obtain ⟨hk, hh, ht, hp⟩ := hkeep
  obtain ⟨hopen, hdestination⟩ := h.upload hkind
  have hwritten := hopen.write (payload.drop 8)
  refine ⟨⟨?_, by simp [hk], fun _ => ⟨?_, by rw [hp]; exact hdestination⟩, fun _ => by rw [ht]; exact h.temp hkind⟩, ?_⟩
  · rw [hstore, hh]
    refine hwritten.mono ?_
    rintro name rfl
    exact h.temp hkind
  · rw [hstore, hh, ht]
    exact hwritten
  · by_cases hname : n = dosName f.transfer.temp
    · exact .written hkind hname
    · refine .kept ?_
      rw [hstore]
      exact hopen.write_files_ne hname _

/-- The rename, after which the upload is over: only from the temporary file, and onto a
    destination that is not there. -/
theorem renameOntoPath_effect (hholding : f.store.Holding base others inside none) (hhandle : f.transfer.handle = none) :
    Tidy base others inside (renameOntoPath f).2 ∧ (n ≠ dosName f.transfer.temp →
      (n = dosName f.transfer.path → f.store.files n ≠ none) → (renameOntoPath f).2.store.files n = f.store.files n) := by
  have hrenamed := hholding.rename (dosName f.transfer.temp) (dosName f.transfer.path)
  unfold renameOntoPath
  dsimp only
  split
  · rename_i store hrename
    rw [hrename] at hrenamed
    refine ⟨Tidy.closed (closeTransfer_holding (by dsimp only; rw [hhandle]; exact hrenamed) true) rfl rfl, fun htemp _ => ?_⟩
    have hkept := closeTransfer_files_ne (f := ⟨f.transfer, store⟩) true htemp
    rw [hkept, Store.rename_eq_false hrename]
    rfl
  · rename_i store hrename
    rw [hrename] at hrenamed
    refine ⟨Tidy.closed (by dsimp only; rw [hhandle]; exact hrenamed) rfl hhandle, fun htemp hpath => ?_⟩
    by_cases hname : n = dosName f.transfer.path
    · have honto := f.store.rename_files_onto (dosName f.transfer.temp) (hname ▸ hpath hname)
      rw [hrename, ← hname] at honto
      exact honto
    · have hne := Store.rename_files_ne (s := f.store) htemp hname
      rw [hrename] at hne
      exact hne

theorem commitFileWrite_effect (h : Tidy base others inside f) (payload : Bytes) :
    Tidy base others inside (commitFileWrite f payload).2 ∧ Changes c f (commitFileWrite f payload).2 n := by
  unfold commitFileWrite
  dsimp only
  split
  · exact ⟨h, .kept rfl⟩
  rename_i hguard
  have hkind : f.transfer.kind = .write := by
    by_contra hne
    exact hguard (Or.inl hne)
  have hclosed := h.holding.close inside
  have hchanges : ∀ {f' : Files}, (n ≠ dosName f.transfer.temp →
      (n = dosName f.transfer.path → f.store.files n ≠ none ∧ f.transfer.overwrite = 0) →
        f'.store.files n = f.store.files n) → Changes c f f' n := by
    intro f' hkept
    by_cases htemp : n = dosName f.transfer.temp
    · exact .written hkind htemp
    by_cases hpath : n = dosName f.transfer.path
    · by_cases hmay : f.store.files n = none ∨ f.transfer.overwrite ≠ 0
      · exact .replaced hkind hpath hmay
      · rw [not_or, not_not] at hmay
        exact .kept (hkept htemp fun _ => hmay)
    · exact .kept (hkept htemp fun hname => absurd hname hpath)
  have hopened := hclosed.openFile (h.upload hkind).2
  have hsame : ((f.store.close f.transfer.handle).openFile (dosName f.transfer.path)).2.files = f.store.files := by
    rw [Store.openFile_files, Store.close_files]
  split
  · -- nothing was opened at the destination
    rename_i store hopen
    rw [hopen] at hopened hsame
    have hrename := renameOntoPath_effect (n := n) (f := ⟨{ f.transfer with handle := none }, store⟩) hopened rfl
    refine ⟨hrename.1, hchanges fun htemp hpath => ?_⟩
    rw [← hsame]
    exact hrename.2 htemp fun hname => by rw [hsame]; exact (hpath hname).1
  rename_i existing store hopen
  rw [hopen] at hopened hsame
  have hshut := hopened.close inside
  have hsame : (store.close (some existing)).files = f.store.files := (Store.close_files store (some existing)).trans hsame
  split
  · -- the destination is there and may not be overwritten
    refine ⟨Tidy.closed (closeTransfer_holding hshut true) rfl rfl, hchanges fun htemp _ => ?_⟩
    have hkept := closeTransfer_files_ne (f := ⟨{ f.transfer with handle := none }, store.close (some existing)⟩) true htemp
    rw [hkept]
    exact congrFun hsame n
  rename_i hoverwrite
  have hremoved := hshut.remove (dosName f.transfer.path)
  split
  · rename_i removed hremove
    rw [hremove] at hremoved
    refine ⟨Tidy.closed (closeTransfer_holding hremoved true) rfl rfl, hchanges fun htemp _ => ?_⟩
    have hkept := closeTransfer_files_ne (f := ⟨{ f.transfer with handle := none }, removed⟩) true htemp
    rw [hkept, Store.remove_eq_false hremove]
    exact congrFun hsame n
  · -- the old file is gone: the new one is renamed onto its name
    rename_i removed hremove
    rw [hremove] at hremoved
    have hrename := renameOntoPath_effect (n := n) (f := ⟨{ f.transfer with handle := none }, removed⟩) hremoved rfl
    refine ⟨hrename.1, hchanges fun htemp hpath => ?_⟩
    by_cases hname : n = dosName f.transfer.path
    · exact absurd (hpath hname).2 hoverwrite
    · have hgone := Store.remove_files_ne (store.close (some existing)) hname
      rw [hremove] at hgone
      rw [hrename.2 htemp fun hname' => absurd hname' hname]
      exact hgone.trans (congrFun hsame n)

theorem abortTransfer_effect (h : Tidy base others inside f) (payload : Bytes) :
    Tidy base others inside (abortTransfer f payload).2 ∧ Changes c f (abortTransfer f payload).2 n := by
  unfold abortTransfer
  split
  · exact ⟨h, .kept rfl⟩
  · exact ⟨closeTransfer_tidy h true, closeTransfer_changes f true n⟩

/-! ### Graphics -/

theorem beginGraphics_tidy (h : Tidy base others inside f) (m : Machine) : Tidy base others inside (beginGraphics c m f).2 := by
  unfold beginGraphics
  split
  · exact h
  rename_i hkind
  rw [ne_eq, not_not] at hkind
  have hhandle := h.idle (Or.inl hkind)
  split
  · exact Tidy.closed h.holding hkind hhandle
  · exact ⟨h.holding, fun _ => hhandle, by simp, by simp⟩

theorem readGraphicsBlock_tidy (h : Tidy base others inside f) (m : Machine) (payload : Bytes) :
    Tidy base others inside (readGraphicsBlock m f payload).2.1 := by
  unfold readGraphicsBlock
  split
  · exact h
  rename_i requested hrequest
  have hkind : f.transfer.kind = .graphics := by
    by_contra hne
    simp [blockRequest, hne] at hrequest
  refine ⟨h.holding, fun _ => h.idle (Or.inr hkind), fun hwrite => ?_, fun hwrite => ?_⟩
  · cases hkind.symm.trans hwrite
  · cases hkind.symm.trans hwrite

/-! ### All of them -/

theorem TransferOp.run_tidy (h : Tidy base others inside f) (hadmits : Admits c inside) (op : TransferOp) (m : Machine)
    (payload : Bytes) : Tidy base others inside (op.run c m f payload).files := by
  cases op with
  | fileReadBegin => exact beginFileRead_tidy h hadmits m payload
  | fileReadBlock => exact readTransferBlock_tidy h payload
  | fileReadEnd => exact endReadTransfer_tidy h payload
  | fileWriteBegin => exact (beginFileWrite_effect (n := []) h hadmits m payload).1
  | fileWriteBlock => exact (writeTransferBlock_effect (c := c) (n := []) h payload).1
  | fileWriteCommit => exact (commitFileWrite_effect (c := c) (n := []) h payload).1
  | fileAbort => exact (abortTransfer_effect (c := c) (n := []) h payload).1
  | graphicsBegin =>
    simp only [TransferOp.run]
    split
    · exact h
    · exact beginGraphics_tidy h m
  | graphicsBlock => exact readGraphicsBlock_tidy h m payload
  | graphicsEnd => exact endReadTransfer_tidy h payload

/-- What an operation may do to a file: nothing, create it as a temporary file, write or remove
    the temporary file of the active upload, or replace its destination. -/
theorem TransferOp.run_files (h : Tidy base others inside f) (hadmits : Admits c inside) (op : TransferOp) (m : Machine)
    (payload : Bytes) (n : Bytes) : Changes c f (op.run c m f payload).files n := by
  cases op with
  | fileReadBegin => exact .kept (congrFun (beginFileRead_files m payload) n)
  | fileReadBlock => exact .kept (congrFun (readTransferBlock_files payload) n)
  | fileReadEnd => exact endReadTransfer_changes payload
  | fileWriteBegin => exact (beginFileWrite_effect h hadmits m payload).2
  | fileWriteBlock => exact (writeTransferBlock_effect h payload).2
  | fileWriteCommit => exact (commitFileWrite_effect h payload).2
  | fileAbort => exact (abortTransfer_effect h payload).2
  | graphicsBegin =>
    simp only [TransferOp.run]
    split
    · exact .kept rfl
    · exact .kept (congrFun (congrArg Store.files (beginGraphics_store c m f)) n)
  | graphicsBlock => exact .kept (congrFun (congrArg Store.files (readGraphicsBlock_store m f payload)) n)
  | graphicsEnd => exact endReadTransfer_changes payload

/-- An upload that is active in `f'` was active in `f`, with the same temporary file, or it is
    allowed and its temporary file is new. -/
def UploadKept (c : Config) (f f' : Files) : Prop :=
  f'.transfer.kind = .write →
    (f.transfer.kind = .write ∧ f'.transfer.temp = f.transfer.temp) ∨
      (c.allowFileWrite = true ∧ f.store.files (dosName f'.transfer.temp) = none)

theorem UploadKept.same {f' : Files} (hkind : f'.transfer.kind = f.transfer.kind) (htemp : f'.transfer.temp = f.transfer.temp) :
    UploadKept c f f' :=
  fun hwrite => Or.inl ⟨hkind ▸ hwrite, htemp⟩

theorem UploadKept.over {f' : Files} (hkind : f'.transfer.kind ≠ .write) : UploadKept c f f' := fun hwrite => absurd hwrite hkind

theorem startFileWrite_upload {g : Files} {m : Machine} {payload : Bytes} (hidle : g.transfer.kind = .none)
    (hsame : g.store.files = f.store.files) (hwrite : (startFileWrite c m g payload).2.transfer.kind = .write) :
    f.store.files (dosName (startFileWrite c m g payload).2.transfer.temp) = none := by
  unfold startFileWrite at hwrite ⊢
  dsimp only at hwrite ⊢
  split at hwrite
  · rename_i g' hcreate
    obtain ⟨temp, htemp⟩ := createTransferTemp_false hcreate
    rw [htemp] at hwrite
    cases hidle.symm.trans hwrite
  · rename_i g' hcreate
    obtain ⟨-, -, hfresh, -⟩ := createTransferTemp_fresh hcreate
    rw [← hsame]
    exact hfresh.new

theorem TransferOp.run_upload (op : TransferOp) (m : Machine) (payload : Bytes) :
    UploadKept c f (op.run c m f payload).files := by
  cases op with
  | fileReadBegin =>
    show UploadKept c f (beginFileRead c m f payload).2
    unfold beginFileRead
    split
    · exact .same rfl rfl
    split
    · exact .same rfl rfl
    dsimp only
    split
    · exact .same rfl rfl
    split
    · exact .over fun h => by cases h
    split
    · exact .over fun h => by cases h
    split
    · exact .over fun h => by cases h
    · exact .over fun h => by cases h
  | fileReadBlock =>
    show UploadKept c f (readTransferBlock f payload).2
    unfold readTransferBlock
    split
    · exact .same rfl rfl
    split
    · exact .same rfl rfl
    split
    · exact .same rfl rfl
    · exact .same rfl rfl
  | fileWriteBegin =>
    show UploadKept c f (beginFileWrite c m f payload).2
    unfold beginFileWrite
    split
    · exact .same rfl rfl
    rename_i hguard
    have hkind : f.transfer.kind = .none := by
      by_contra hne
      exact hguard (Or.inr (Or.inl hne))
    have hallowed : c.allowFileWrite = true := by
      by_contra hne
      exact hguard (Or.inl hne)
    split
    · exact .same rfl rfl
    split
    · exact .same rfl rfl
    rename_i path hpath
    dsimp only
    split
    · exact fun hwrite => Or.inr ⟨hallowed, startFileWrite_upload (by exact hkind) rfl hwrite⟩
    have hsame := Store.openFile_files f.store (dosName path)
    split
    · exact .same rfl rfl
    · rename_i store hopen
      rw [hopen] at hsame
      exact fun hwrite => Or.inr ⟨hallowed, startFileWrite_upload (by exact hkind) hsame hwrite⟩
  | fileWriteBlock =>
    show UploadKept c f (writeTransferBlock f payload).2
    unfold writeTransferBlock
    dsimp only
    split
    · exact .same rfl rfl
    split
    · exact .same rfl rfl
    split
    · exact .same rfl rfl
    · exact .same rfl rfl
  | fileWriteCommit =>
    show UploadKept c f (commitFileWrite f payload).2
    have hrenamed : ∀ g : Files, (renameOntoPath g).2.transfer.kind = .none := by
      intro g
      unfold renameOntoPath
      dsimp only
      split
      · rfl
      · rfl
    unfold commitFileWrite
    dsimp only
    split
    · exact .same rfl rfl
    split
    · exact .over fun hwrite => nomatch (hrenamed _).symm.trans hwrite
    split
    · exact .over fun h => by cases h
    split
    · exact .over fun h => by cases h
    · exact .over fun hwrite => nomatch (hrenamed _).symm.trans hwrite
  | fileAbort =>
    show UploadKept c f (abortTransfer f payload).2
    unfold abortTransfer
    split
    · exact .same rfl rfl
    · exact .over fun h => by cases h
  | graphicsBegin =>
    simp only [TransferOp.run]
    split
    · exact .same rfl rfl
    unfold beginGraphics
    split
    · exact .same rfl rfl
    split
    · exact .same rfl rfl
    · exact .over fun h => by cases h
  | graphicsBlock =>
    show UploadKept c f (readGraphicsBlock m f payload).2.1
    unfold readGraphicsBlock
    split
    · exact .same rfl rfl
    · exact .same rfl rfl
  | fileReadEnd | graphicsEnd =>
    show UploadKept c f (endReadTransfer f payload).2
    unfold endReadTransfer
    dsimp only
    split
    · exact .same rfl rfl
    · exact .over fun h => by cases h

end

/-! ## Runs beside a foreground program -/

/-- What happens on the machine: a step of the resident program, or a program in the foreground
    that leaves the files as given. -/
inductive SharedEvent where
  | resident (event : ResidentEvent)
  | foreground (files : Bytes → Option Bytes)

def State.withFiles (s : State) (files : Bytes → Option Bytes) : State :=
  { s with files := { s.files with store := { s.files.store with files := files } } }

def State.sharedStep (c : Config) (s : State) : SharedEvent → State
  | .resident event => s.residentStep c event
  | .foreground files => s.withFiles files

def State.shared (c : Config) (s : State) (events : List SharedEvent) : State := events.foldl (State.sharedStep c) s

section

variable {base : Nat} {others : Nat → Option Handle} {inside : Bytes → Prop} {c : Config} {s : State}

/-- A resident step leaves the files, runs one operation, or closes the transfer. -/
theorem residentStep_files (c : Config) (s : State) (event : ResidentEvent) :
    (s.residentStep c event).files = s.files ∨ (s.residentStep c event).files = closeTransfer s.files true ∨
      ∃ (op : TransferOp) (m : Machine) (payload : Bytes), (s.residentStep c event).files = (op.run c m s.files payload).files := by
  cases event with
  | arrive d => exact Or.inl (arrive_files s d)
  | enter e =>
    have hfiles := ratsrIdleWorker_files c s e
    split at hfiles
    · split at hfiles
      · exact Or.inr (Or.inr ⟨_, _, _, hfiles⟩)
      · exact Or.inl hfiles
    · rcases hfiles with h | ⟨-, h⟩
      · exact Or.inl h
      · exact Or.inr (Or.inl h)

theorem residentStep_tidy (h : Tidy base others inside s.files) (hadmits : Admits c inside) (event : ResidentEvent) :
    Tidy base others inside (s.residentStep c event).files := by
  rcases residentStep_files c s event with he | he | ⟨op, m, payload, he⟩
  · rw [he]
    exact h
  · rw [he]
    exact closeTransfer_tidy h true
  · rw [he]
    exact op.run_tidy h hadmits m payload

theorem residentStep_changes (h : Tidy base others inside s.files) (hadmits : Admits c inside) (event : ResidentEvent)
    (n : Bytes) : Changes c s.files (s.residentStep c event).files n := by
  rcases residentStep_files c s event with he | he | ⟨op, m, payload, he⟩
  · rw [he]
    exact .kept rfl
  · rw [he]
    exact closeTransfer_changes s.files true n
  · rw [he]
    exact op.run_files h hadmits m payload n

theorem residentStep_upload (event : ResidentEvent) : UploadKept c s.files (s.residentStep c event).files := by
  rcases residentStep_files c s event with he | he | ⟨op, m, payload, he⟩
  · rw [he]
    exact .same rfl rfl
  · rw [he]
    exact .over fun h => by cases h
  · rw [he]
    exact op.run_upload m payload

/-- A foreground program does not touch the handles of RA-TSR. -/
theorem Tidy.withFiles (h : Tidy base others inside s.files) (files : Bytes → Option Bytes) :
    Tidy base others inside (s.withFiles files).files where
  holding := h.holding.congr rfl rfl
  idle := h.idle
  upload := fun hkind => ⟨(h.upload hkind).1.congr rfl rfl, (h.upload hkind).2⟩
  temp := h.temp

theorem sharedStep_tidy (h : Tidy base others inside s.files) (hadmits : Admits c inside) (event : SharedEvent) :
    Tidy base others inside (s.sharedStep c event).files := by
  cases event with
  | resident event => exact residentStep_tidy h hadmits event
  | foreground files => exact h.withFiles files

theorem shared_tidy (h : Tidy base others inside s.files) (hadmits : Admits c inside) (events : List SharedEvent) :
    Tidy base others inside (s.shared c events).files := by
  induction events generalizing s with
  | nil => exact h
  | cons event events ih => exact ih (sharedStep_tidy h hadmits event)

end

/-! ## Below the root -/

/-- The file is below the configured root. -/
def BelowRoot (c : Config) (n : Bytes) : Prop := ∃ relative, SafePath relative ∧ n = dosName (rootPrefix c.sandboxRoot ++ relative)

theorem admits_belowRoot {c : Config} (hroot : c.sandboxRoot ≠ []) (hmode : c.unrestrictedFilesystem = false) :
    Admits c (BelowRoot c) where
  path := by
    intro value path hpath
    obtain ⟨-, relative, hsafe, rfl⟩ := buildSandboxPath_root hroot hmode hpath
    exact ⟨relative, hsafe, rfl⟩
  temp := by
    intro f value directory id tried _ hdirectory htried
    rw [tempPrefix, hmode] at hdirectory
    cases hdirectory
    refine ⟨tempName id tried, tempName_safe id htried, ?_⟩
    rw [directoryPrefix_eq_rootPrefix hroot]

theorem admits_any (c : Config) : Admits c fun _ => True := ⟨fun _ _ _ => trivial, fun _ _ _ _ _ _ _ _ => trivial⟩

/-- Without write permission no upload begins. -/
theorem shared_readOnly {c : Config} {s : State} (hallowed : c.allowFileWrite = false) (hkind : s.files.transfer.kind ≠ .write)
    (events : List SharedEvent) : (s.shared c events).files.transfer.kind ≠ .write := by
  induction events generalizing s with
  | nil => exact hkind
  | cons event events ih =>
    refine ih ?_
    cases event with
    | foreground files => exact hkind
    | resident event =>
      intro hwrite
      rcases residentStep_upload (c := c) event hwrite with ⟨hbefore, -⟩ | ⟨hmay, -⟩
      · exact hkind hbefore
      · rw [hallowed] at hmay
        cases hmay

/-- A drive where every file is empty. -/
def emptyFiles : Store := dosStore (fun _ => some []) fun _ => ⟨true, 0⟩

/-- HELLO and `FILE_READ_BEGIN` of `A`, beside a program that writes nothing. -/
def readBeside : List SharedEvent := (endFromTimer.take 5).map .resident ++ [.foreground fun _ => some []]

def readOnlyConfig : Config := { sampleConfig with allowFileWrite := false }

def readState : State := (State.start blankMachine emptyFiles).shared readOnlyConfig readBeside

theorem readState_opened : readState.files.store.handles 5 = some ⟨dosName samplePath, 0⟩ := by decide +kernel

/-- Through the run no upload that may overwrite is onto the file `n`. -/
def sparesFile (c : Config) (n : Bytes) : State → List SharedEvent → Bool
  | _, [] => true
  | s, event :: events =>
    !(s.files.transfer.kind = .write ∧ s.files.transfer.overwrite ≠ 0 ∧ dosName s.files.transfer.path = n) &&
      sparesFile c n (s.sharedStep c event) events

/-- Nothing of an entry but its request and its cleanup changes the files. -/
theorem ratsrIdleWorker_files_before {c : Config} {s : State} {e : Entry} (henabled : s.enabled = true)
    (hrequest : entryRequest c s e = none) : (ratsrIdleWorker c s e).files = (beforePoll c s e).files := by
  unfold entryRequest at hrequest
  rcases ratsrIdleWorker_cases c s e with ⟨-, hdisabled, -⟩ | ⟨-, t, hquiet, h⟩ | ⟨d, hpolled, -, h⟩
  · rw [henabled] at hdisabled
    cases hdisabled
  · rcases h with h | h <;> rw [h]
    · exact hquiet.files_eq
    · exact hquiet.files_eq
  · rw [hpolled] at hrequest
    dsimp only at hrequest
    have hfiles := processDatagram_files c (beforePoll c s e) d
    rw [hrequest] at hfiles
    rw [h]
    exact hfiles

/-- The first DOS idle that finds no session ends the transfer. -/
theorem ratsrIdleWorker_cleans {c : Config} {s : State} {e : Entry} (henabled : s.enabled = true) (hsafe : e.dosSafe = true)
    (hinactive : (beforePoll c s e).session.active = false) : (ratsrIdleWorker c s e).files.transfer.kind = .none := by
  have hrequest : entryRequest c s e = none := by
    unfold entryRequest
    split
    · rfl
    rename_i d _
    by_contra hsome
    obtain ⟨request, hrequest⟩ := Option.ne_none_iff_exists'.mp hsome
    rw [(sessionRequest_eq_some hrequest).1] at hinactive
    cases hinactive
  rw [ratsrIdleWorker_files_before henabled hrequest]
  have hadvertise : ∀ t : State, (advertise c t).files = t.files := by
    intro t
    unfold advertise
    split <;> rfl
  rw [(beforePoll_session c s e).1] at hinactive
  rw [beforePoll, hadvertise, cleanTransfer]
  split
  · rfl
  · rename_i hclean
    by_contra hkind
    exact hclean ⟨by simp [hinactive], hkind, hsafe⟩

end DosMcp.Dos
