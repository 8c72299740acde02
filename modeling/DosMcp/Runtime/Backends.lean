/-
  DosMcp.Runtime.Backends — the `UdpBackend` objects of a runtime.

  `Registry` says what a record's backend was made of, not which object it is. A `Pool` is a
  runtime with every `UdpBackend` that `get` has constructed, and which of them each record
  refers to. `Pool.get` and `Pool.listTargets` are the calls of `Registry` with their
  `UdpBackend(..)` and `close()` on the objects (`Pool.get_over`, `Pool.listTargets_over`). An
  injected backend is none of these objects.

  - `Pool.Sound`: a record refers to an open object of its own, made from its address; every
    open object has a record.
  - `registry_invariant`: that holds after every run, whatever is announced between the calls.
-/

import DosMcp.Runtime.Selection

namespace DosMcp

open Lib
open Fallible (Over over_pure over_raise over_lift over_modify over_state_bind)

/-- A `UdpBackend` as it was constructed. -/
structure UdpObject where
  target : Address
  key : Key
  allowFileRead : Bool
  allowFileWrite : Bool
  closed : Bool

def UdpObject.handle (b : UdpObject) : BackendHandle := .udp b.target b.key b.allowFileRead b.allowFileWrite

structure Pool where
  runtime : BackendRuntime
  /-- In the order of their construction; the index is the object's identity. -/
  created : List UdpObject
  /-- The object the record under a selector refers to. -/
  held : String → Option Nat

abbrev PoolM := Fallible Pool Exc

namespace Pool

/-- `BackendRuntime()` and `BackendRuntime(backend)`. -/
def start (injected : Bool) : Pool := ⟨if injected then .withBackend else .start, [], fun _ => none⟩

/-! ## The calls -/

/-- `UdpBackend.close`. -/
def close (p : Pool) (i : Nat) : Pool := { p with created := p.created.modify i fun b => { b with closed := true } }

/-- `existing.backend.close(); existing.backend = None`, as far as it concerns the objects. -/
def release (p : Pool) (selector : String) : Pool :=
  match p.held selector with
  | some i => { p.close i with held := Function.update p.held selector none }
  | none => p

def withRecords (p : Pool) (records : Dict String TargetRecord) : Pool := { p with runtime := { p.runtime with records := records } }

/-- The record known under the selector has a backend for another address. -/
def stale (records : Dict String TargetRecord) (t : DiscoveredTarget) : Bool :=
  match records.get? t.advertisement.selector with
  | some existing => decide (existing.address ≠ some t.address) && existing.backend.isSome
  | none => false

def refresh (p : Pool) (t : DiscoveredTarget) : Pool :=
  (if stale p.runtime.records t then p.release t.advertisement.selector else p).withRecords
    (refreshRecords p.runtime.records t)

/-- `_refresh_discovery`. -/
def refreshDiscovery (p : Pool) (targets : List DiscoveredTarget) : Pool :=
  if p.runtime.discovery then targets.foldl refresh p else p

/-- `record.backend = UdpBackend(..)`. -/
def construct (p : Pool) (record : TargetRecord) (b : UdpObject) : Pool where
  runtime := { p.runtime with records := p.runtime.records.set record.selector { record with backend := some b.handle } }
  created := p.created ++ [b]
  held := Function.update p.held record.selector (some p.created.length)

def connectRecord (h : Host) (o : Outside) (record : TargetRecord) : PoolM BackendHandle := do
  match record.backend with
  | some backend => pure backend
  | none =>
    let p ← Fallible.state
    match record.address, p.runtime.key with
    | some address, some key =>
      Fallible.lift (o.connect address)
      let b : UdpObject := ⟨address, key, p.runtime.allowFileRead, p.runtime.allowFileWrite, false⟩
      Fallible.modify fun p => p.construct record b
      pure b.handle
    | _, _ => Fallible.raise (.runtimeError ("target " ++ h.repr record.selector ++ " has no backend"))

/-- What constructs and closes no `UdpBackend`. -/
def onRuntime {α : Type} (x : RuntimeM α) : PoolM α := fun p => ((x p.runtime).1, { p with runtime := (x p.runtime).2 })

def get (h : Host) (o : Outside) (target : Option String) : PoolM BackendHandle := do
  onRuntime (configure h)
  Fallible.modify fun p => p.refreshDiscovery (drain o.announcements)
  let p ← Fallible.state
  let record ← Fallible.lift (resolve h p.runtime target)
  connectRecord h o record

def listTargets (h : Host) (o : Outside) : PoolM (List TargetRecord) := do
  onRuntime (configure h)
  Fallible.modify fun p => p.refreshDiscovery (drain o.announcements)
  let p ← Fallible.state
  let selectors := p.runtime.records.keys.mergeSort fun a b => decide (h.casefold a ≤ h.casefold b)
  pure (selectors.filterMap p.runtime.records.get?)

def use (h : Host) (p : Pool) : Use → Pool
  | .get o target => (get h o target p).2
  | .listTargets o => (listTargets h o p).2

def run (h : Host) (p : Pool) (uses : List Use) : Pool := uses.foldl (use h) p

/-! ## The runtime of a pool -/

@[simp] theorem close_runtime (p : Pool) (i : Nat) : (p.close i).runtime = p.runtime := rfl

@[simp] theorem release_runtime (p : Pool) (selector : String) : (p.release selector).runtime = p.runtime := by
  unfold release
  split <;> rfl

@[simp] theorem withRecords_runtime (p : Pool) (records : Dict String TargetRecord) :
    (p.withRecords records).runtime = { p.runtime with records := records } := rfl

theorem construct_records (p : Pool) (record : TargetRecord) (b : UdpObject) : (p.construct record b).runtime.records =
    p.runtime.records.set record.selector { record with backend := some b.handle } := rfl

theorem construct_created (p : Pool) (record : TargetRecord) (b : UdpObject) :
    (p.construct record b).created = p.created ++ [b] := rfl

theorem construct_held (p : Pool) (record : TargetRecord) (b : UdpObject) :
    (p.construct record b).held = Function.update p.held record.selector (some p.created.length) := rfl

theorem refresh_runtime (p : Pool) (t : DiscoveredTarget) :
    (p.refresh t).runtime = { p.runtime with records := refreshRecords p.runtime.records t } := by
  unfold refresh
  split
  · simp
  · rfl

theorem refreshAll_runtime (p : Pool) (targets : List DiscoveredTarget) :
    (targets.foldl refresh p).runtime = { p.runtime with records := targets.foldl refreshRecords p.runtime.records } := by
  induction targets generalizing p with
  | nil => rfl
  | cons t targets ih => rw [List.foldl_cons, ih, refresh_runtime, List.foldl_cons]

theorem refreshDiscovery_runtime (p : Pool) (targets : List DiscoveredTarget) :
    (p.refreshDiscovery targets).runtime = DosMcp.refreshDiscovery p.runtime targets := by
  unfold refreshDiscovery DosMcp.refreshDiscovery
  split
  · exact refreshAll_runtime p targets
  · rfl

theorem onRuntime_over {α : Type} (x : RuntimeM α) : Over Pool.runtime (onRuntime x) x := fun _ => ⟨rfl, rfl⟩

theorem connectRecord_over (h : Host) (o : Outside) (record : TargetRecord) :
    Over Pool.runtime (connectRecord h o record) (DosMcp.connectRecord h o record) := by
  obtain ⟨selector, name, source, address, backend, metadata, lastSeen⟩ := record
  unfold connectRecord DosMcp.connectRecord
  cases backend with
  | some backend => exact over_pure backend
  | none =>
    apply over_state_bind
    intro p
    cases address with
    | none => exact over_raise _
    | some address =>
      obtain ⟨⟨records, configured, key, allowFileRead, allowFileWrite, discovery⟩, created, held⟩ := p
      cases key with
      | none => exact over_raise _
      | some key =>
        refine (over_lift _).bind fun _ => Over.bind ?_ fun _ => over_pure _
        exact over_modify fun _ => rfl

/-- `Pool.get` is `get` on the runtime. -/
theorem get_over (h : Host) (o : Outside) (target : Option String) :
    Over Pool.runtime (get h o target) (DosMcp.get h o target) := by
  refine (onRuntime_over _).bind fun _ => Over.bind (over_modify fun p => refreshDiscovery_runtime p _) fun _ => ?_
  exact over_state_bind fun p => (over_lift _).bind fun record => connectRecord_over h o record

theorem listTargets_over (h : Host) (o : Outside) : Over Pool.runtime (listTargets h o) (DosMcp.listTargets h o) := by
  refine (onRuntime_over _).bind fun _ => Over.bind (over_modify fun p => refreshDiscovery_runtime p _) fun _ => ?_
  exact over_state_bind fun p => over_pure _

theorem run_runtime (h : Host) (p : Pool) (uses : List Use) : (run h p uses).runtime = runUses h p.runtime uses := by
  induction uses generalizing p with
  | nil => rfl
  | cons u uses ih =>
    have hstep : (use h p u).runtime = u.run h p.runtime := by
      cases u with
      | get o target => exact (get_over h o target p).2
      | listTargets o => exact (listTargets_over h o p).2
    rw [run, List.foldl_cons, runUses, List.foldl_cons, ← hstep]
    exact ih _

/-! ## Records and objects -/

/-- The record under `selector` has the object `i` as its backend. -/
def Caches (p : Pool) (selector : String) (i : Nat) : Prop :=
  p.held selector = some i ∧ ∃ record b, p.runtime.records.get? selector = some record ∧ p.created[i]? = some b ∧
    record.backend = some b.handle

structure Sound (p : Pool) : Prop where
  wellKeyed : WellKeyed p.runtime.records
  /-- A `UdpBackend` in a record was made from the record's address with the runtime's key and
      flags, and is an object of the pool. -/
  current : ∀ selector record target key read write, p.runtime.records.get? selector = some record →
    record.backend = some (.udp target key read write) →
      (record.address = some target ∧ p.runtime.key = some key ∧ p.runtime.allowFileRead = read ∧
        p.runtime.allowFileWrite = write) ∧ ∃ i, p.held selector = some i
  held_open : ∀ selector i, p.held selector = some i →
    ∃ record b, p.runtime.records.get? selector = some record ∧ p.created[i]? = some b ∧
      record.backend = some b.handle ∧ b.closed = false
  held_inj : ∀ a b i, p.held a = some i → p.held b = some i → a = b
  open_held : ∀ i b, p.created[i]? = some b → b.closed = false → ∃ selector, p.held selector = some i
  unconfigured : p.runtime.configured = false → p.runtime.records = [] ∧ p.created = []

theorem held_of_get?_none {p : Pool} (hp : Sound p) {selector : String} (hget : p.runtime.records.get? selector = none) :
    p.held selector = none := by
  by_contra hheld
  obtain ⟨i, hi⟩ := Option.ne_none_iff_exists'.mp hheld
  obtain ⟨record, b, hrecord, -⟩ := hp.held_open selector i hi
  rw [hget] at hrecord
  cases hrecord

theorem held_of_backend_none {p : Pool} (hp : Sound p) {selector : String} {record : TargetRecord}
    (hget : p.runtime.records.get? selector = some record) (hbackend : record.backend = none) : p.held selector = none := by
  by_contra hheld
  obtain ⟨i, hi⟩ := Option.ne_none_iff_exists'.mp hheld
  obtain ⟨found, b, hfound, -, hhandle, -⟩ := hp.held_open selector i hi
  rw [hget] at hfound
  cases hfound
  rw [hbackend] at hhandle
  cases hhandle

/-- A new record under a selector: what it refers to is what the old one did. -/
theorem Sound.store {p : Pool} (hp : Sound p) (hconf : p.runtime.configured = true) {selector : String} {record : TargetRecord}
    (hkeyed : WellKeyed (p.runtime.records.set selector record))
    (hcurrent : ∀ target key read write, record.backend = some (.udp target key read write) →
      (record.address = some target ∧ p.runtime.key = some key ∧ p.runtime.allowFileRead = read ∧
        p.runtime.allowFileWrite = write) ∧ ∃ i, p.held selector = some i)
    (hheld : ∀ i b, p.held selector = some i → p.created[i]? = some b → record.backend = some b.handle) :
    Sound (p.withRecords (p.runtime.records.set selector record)) where
  wellKeyed := hkeyed
  current := fun s found target key read write hget hbackend => by
    by_cases hs : s = selector
    · subst hs
      rw [withRecords_runtime, Dict.get?_set_same] at hget
      cases hget
      exact hcurrent target key read write hbackend
    · rw [withRecords_runtime, Dict.get?_set_ne _ _ hs] at hget
      exact hp.current s found target key read write hget hbackend
  held_open := fun s i hi => by
    obtain ⟨found, b, hfound, hb, hhandle, hopen⟩ := hp.held_open s i hi
    by_cases hs : s = selector
    · subst hs
      exact ⟨record, b, Dict.get?_set_same .., hb, hheld i b hi hb, hopen⟩
    · refine ⟨found, b, ?_, hb, hhandle, hopen⟩
      rw [withRecords_runtime, Dict.get?_set_ne _ _ hs]
      exact hfound
  held_inj := hp.held_inj
  open_held := hp.open_held
  unconfigured := fun hno => by
    rw [withRecords_runtime] at hno
    rw [hconf] at hno
    cases hno

theorem get?_close {p : Pool} {i j : Nat} {b : UdpObject} (hget : (p.close i).created[j]? = some b) (hopen : b.closed = false) :
    j ≠ i ∧ p.created[j]? = some b := by
  have hmodify : (p.created.modify i fun b => { b with closed := true })[j]? = some b := hget
  by_cases hj : i = j
  · subst hj
    rw [List.getElem?_modify_eq] at hmodify
    obtain ⟨old, -, rfl⟩ := Option.map_eq_some_iff.mp hmodify
    cases hopen
  · rw [List.getElem?_modify_ne _ _ hj] at hmodify
    exact ⟨fun h => hj h.symm, hmodify⟩

theorem get?_close_ne {p : Pool} {i j : Nat} (hj : j ≠ i) : (p.close i).created[j]? = p.created[j]? :=
  List.getElem?_modify_ne _ _ fun h => hj h.symm

/-- The record under a selector gives up its backend: the object is closed. -/
theorem Sound.drop {p : Pool} (hp : Sound p) (hconf : p.runtime.configured = true) {selector : String} {record : TargetRecord}
    (hkeyed : WellKeyed (p.runtime.records.set selector record)) (hbackend : record.backend = none) :
    Sound ((p.release selector).withRecords (p.runtime.records.set selector record)) := by
  have hnot : ∀ target key read write, record.backend ≠ some (.udp target key read write) := by
    intro target key read write heq
    rw [hbackend] at heq
    cases heq
  cases hheld : p.held selector with
  | none =>
    have hsame : p.release selector = p := by rw [release, hheld]
    rw [hsame]
    refine hp.store hconf hkeyed (fun target key read write heq => absurd heq (hnot target key read write)) ?_
    intro i b hi
    rw [hheld] at hi
    cases hi
  | some i =>
    have hrelease : p.release selector = { p.close i with held := Function.update p.held selector none } := by
      rw [release, hheld]
    rw [hrelease]
    have hothers : ∀ s j, Function.update p.held selector none s = some j → s ≠ selector ∧ p.held s = some j ∧ j ≠ i := by
      intro s j hj
      by_cases hs : s = selector
      · rw [hs, Function.update_self] at hj
        cases hj
      · rw [Function.update_of_ne hs] at hj
        refine ⟨hs, hj, fun hji => hs ?_⟩
        rw [hji] at hj
        exact hp.held_inj s selector i hj hheld
    refine ⟨hkeyed, ?_, ?_, ?_, ?_, ?_⟩
    · intro s found target key read write hget heq
      by_cases hs : s = selector
      · subst hs
        rw [withRecords_runtime, Dict.get?_set_same] at hget
        cases hget
        exact absurd heq (hnot target key read write)
      · rw [withRecords_runtime, Dict.get?_set_ne _ _ hs] at hget
        obtain ⟨hmade, j, hj⟩ := hp.current s found target key read write hget heq
        exact ⟨hmade, j, (Function.update_of_ne hs _ _).trans hj⟩
    · intro s j hj
      obtain ⟨hs, hj, hji⟩ := hothers s j hj
      obtain ⟨found, b, hfound, hb, hhandle, hopen⟩ := hp.held_open s j hj
      refine ⟨found, b, ?_, (get?_close_ne hji).trans hb, hhandle, hopen⟩
      rw [withRecords_runtime, Dict.get?_set_ne _ _ hs]
      exact hfound
    · intro a b j ha hb
      exact hp.held_inj a b j (hothers a j ha).2.1 (hothers b j hb).2.1
    · intro j b hb hopen
      obtain ⟨hji, hb⟩ := get?_close hb hopen
      obtain ⟨s, hs⟩ := hp.open_held j b hb hopen
      refine ⟨s, (Function.update_of_ne ?_ _ _).trans hs⟩
      rintro rfl
      rw [hheld] at hs
      exact hji (Option.some.inj hs).symm
    · intro hno
      rw [withRecords_runtime, close_runtime, hconf] at hno
      cases hno

/-- `get` opens a backend for a record that has none. -/
theorem Sound.construct {p : Pool} (hp : Sound p) (hconf : p.runtime.configured = true) {record : TargetRecord}
    (hmem : record ∈ p.runtime.records.values) (hbackend : record.backend = none) {address : Address} {key : Key}
    (haddress : record.address = some address) (hkey : p.runtime.key = some key) :
    Sound (p.construct record ⟨address, key, p.runtime.allowFileRead, p.runtime.allowFileWrite, false⟩) := by
  have hget := hp.wellKeyed.get? hmem
  have hnone := held_of_backend_none hp hget hbackend
  have hlt : ∀ s i, p.held s = some i → i < p.created.length := by
    intro s i hi
    obtain ⟨-, b, -, hb, -⟩ := hp.held_open s i hi
    exact (List.getElem?_eq_some_iff.mp hb).1
  have hold : ∀ s, s ≠ record.selector → Function.update p.held record.selector (some p.created.length) s = p.held s :=
    fun s hs => Function.update_of_ne hs _ _
  refine ⟨?_, ?_, ?_, ?_, ?_, ?_⟩
  · exact hp.wellKeyed.set rfl fun hstatic => hp.wellKeyed.name_eq _ (Dict.mem_of_get? hget) hstatic
  · intro s found target key' read write hfound heq
    by_cases hs : s = record.selector
    · subst hs
      rw [construct_records, Dict.get?_set_same] at hfound
      cases hfound
      cases heq
      exact ⟨⟨haddress, hkey, rfl, rfl⟩, p.created.length, Function.update_self ..⟩
    · rw [construct_records, Dict.get?_set_ne _ _ hs] at hfound
      obtain ⟨hmade, i, hi⟩ := hp.current s found target key' read write hfound heq
      exact ⟨hmade, i, (hold s hs).trans hi⟩
  · intro s i hi
    by_cases hs : s = record.selector
    · subst hs
      rw [construct_held, Function.update_self] at hi
      cases hi
      exact ⟨_, _, Dict.get?_set_same .., List.getElem?_concat_length, rfl, rfl⟩
    · have hi : p.held s = some i := (hold s hs).symm.trans hi
      obtain ⟨found, b, hfound, hb, hhandle, hopen⟩ := hp.held_open s i hi
      refine ⟨found, b, ?_, ?_, hhandle, hopen⟩
      · rw [construct_records, Dict.get?_set_ne _ _ hs]
        exact hfound
      · rw [construct_created, List.getElem?_append_left (hlt s i hi)]
        exact hb
  · intro a b i ha hb
    by_cases hsa : a = record.selector <;> by_cases hsb : b = record.selector
    · rw [hsa, hsb]
    · -- the new object is none of those held before
      subst hsa
      rw [construct_held, Function.update_self] at ha
      cases ha
      exact absurd (hlt b _ ((hold b hsb).symm.trans hb)) (Nat.lt_irrefl _)
    · subst hsb
      rw [construct_held, Function.update_self] at hb
      cases hb
      exact absurd (hlt a _ ((hold a hsa).symm.trans ha)) (Nat.lt_irrefl _)
    · exact hp.held_inj a b i ((hold a hsa).symm.trans ha) ((hold b hsb).symm.trans hb)
  · intro i b hb hopen
    rw [construct_created] at hb
    rcases Nat.lt_or_ge i p.created.length with hi | hi
    · rw [List.getElem?_append_left hi] at hb
      obtain ⟨s, hs⟩ := hp.open_held i b hb hopen
      refine ⟨s, (hold s ?_).trans hs⟩
      rintro rfl
      rw [hnone] at hs
      cases hs
    · have hlast := (List.getElem?_eq_some_iff.mp hb).1
      rw [List.length_append, List.length_singleton] at hlast
      obtain rfl : i = p.created.length := by omega
      exact ⟨record.selector, Function.update_self ..⟩
  · intro hno
    exact absurd (hconf.symm.trans hno) nofun

theorem refresh_fresh {p : Pool} {t : DiscoveredTarget} (hget : p.runtime.records.get? t.advertisement.selector = none) :
    p.refresh t = p.withRecords (p.runtime.records.set t.advertisement.selector (.discovered t)) := by
  simp only [refresh, stale, refreshRecords, hget, Bool.false_eq_true, if_false]

theorem refresh_known {p : Pool} {t : DiscoveredTarget} {existing : TargetRecord}
    (hget : p.runtime.records.get? t.advertisement.selector = some existing) :
    p.refresh t = (if existing.address ≠ some t.address ∧ existing.backend.isSome then p.release t.advertisement.selector
      else p).withRecords (p.runtime.records.set t.advertisement.selector (existing.refresh t)) := by
  simp only [refresh, stale, refreshRecords, hget, Bool.and_eq_true, decide_eq_true_eq]

theorem Sound.refresh {p : Pool} (hp : Sound p) (hconf : p.runtime.configured = true) (t : DiscoveredTarget) :
    Sound (p.refresh t) := by
  have hkeyed := hp.wellKeyed.refresh t
  unfold refreshRecords at hkeyed
  cases hget : p.runtime.records.get? t.advertisement.selector with
  | none =>
    rw [hget] at hkeyed
    rw [refresh_fresh hget]
    refine hp.store hconf hkeyed (fun _ _ _ _ heq => by cases heq) fun i b hi => ?_
    rw [held_of_get?_none hp hget] at hi
    cases hi
  | some existing =>
    rw [hget] at hkeyed
    rw [refresh_known hget]
    by_cases hmoved : existing.address = some t.address
    · -- the backend stays, and so does its address
      have hsame : (existing.refresh t).backend = existing.backend := if_neg fun hne => hne hmoved
      rw [if_neg fun hboth => hboth.1 hmoved]
      refine hp.store hconf hkeyed (fun target key read write heq => ?_) fun i b hi hb => ?_
      · rw [hsame] at heq
        obtain ⟨⟨haddress, hmade⟩, hheld⟩ := hp.current _ existing target key read write hget heq
        exact ⟨⟨hmoved.symm.trans haddress, hmade⟩, hheld⟩
      · obtain ⟨found, object, hfound, hobject, hhandle, -⟩ := hp.held_open _ i hi
        rw [hget] at hfound
        rw [hobject] at hb
        cases hfound
        cases hb
        exact hsame.trans hhandle
    · have hnone : (existing.refresh t).backend = none := if_pos hmoved
      cases hbackend : existing.backend with
      | some backend =>
        rw [if_pos ⟨hmoved, rfl⟩]
        exact hp.drop hconf hkeyed hnone
      | none =>
        rw [if_neg fun hboth => by simpa using hboth.2]
        refine hp.store hconf hkeyed (fun _ _ _ _ heq => ?_) fun i b hi => ?_
        · rw [hnone] at heq
          cases heq
        · rw [held_of_backend_none hp hget hbackend] at hi
          cases hi

/-- A sound pool of a runtime that is configured. -/
structure Live (p : Pool) : Prop where
  sound : Sound p
  configured : p.runtime.configured = true

theorem Live.refresh {p : Pool} (hp : Live p) (t : DiscoveredTarget) : Live (p.refresh t) where
  sound := hp.sound.refresh hp.configured t
  configured := by
    rw [refresh_runtime]
    exact hp.configured

theorem Live.refreshAll {p : Pool} (hp : Live p) (targets : List DiscoveredTarget) : Live (targets.foldl Pool.refresh p) := by
  induction targets generalizing p with
  | nil => exact hp
  | cons t targets ih => exact ih (hp.refresh t)

theorem Live.refreshDiscovery {p : Pool} (hp : Live p) (targets : List DiscoveredTarget) : Live (p.refreshDiscovery targets) := by
  unfold Pool.refreshDiscovery
  split
  · exact hp.refreshAll targets
  · exact hp

theorem Live.connectRecord {p : Pool} (hp : Live p) (h : Host) (o : Outside) {record : TargetRecord}
    (hmem : record ∈ p.runtime.records.values) : Live (connectRecord h o record p).2 := by
  obtain ⟨selector, name, source, address, backend, metadata, lastSeen⟩ := record
  unfold Pool.connectRecord
  cases backend with
  | some backend => exact hp
  | none =>
    simp only [Fallible.bind_apply, Fallible.state_apply]
    cases address with
    | none => exact hp
    | some address =>
      cases hkey : p.runtime.key with
      | none => exact hp
      | some key =>
        simp only [Fallible.bind_apply, Fallible.lift_apply]
        cases o.connect address with
        | error e => exact hp
        | ok u => exact ⟨hp.sound.construct hp.configured hmem rfl rfl hkey, hp.configured⟩

/-! ## Configuration -/

/-- No record has a `UdpBackend`. -/
structure Unconnected (r : BackendRuntime) : Prop where
  wellKeyed : WellKeyed r.records
  none_udp : ∀ entry ∈ r.records, ∀ target key read write, entry.2.backend ≠ some (.udp target key read write)

theorem Unconnected.set {r : BackendRuntime} (hr : Unconnected r) {name : String} {record : TargetRecord}
    (hselector : record.selector = name) (hname : record.name = name)
    (hbackend : ∀ target key read write, record.backend ≠ some (.udp target key read write)) :
    Unconnected { r with records := r.records.set name record } where
  wellKeyed := hr.wellKeyed.set hselector fun _ => hname
  none_udp := fun entry hentry => by
    rcases Dict.mem_set hentry with hold | rfl
    · exact hr.none_udp entry hold
    · exact hbackend

theorem Unconnected.sound {p : Pool} (hr : Unconnected p.runtime) (hcreated : p.created = []) (hheld : ∀ s, p.held s = none)
    (hrecords : p.runtime.configured = false → p.runtime.records = []) : Sound p where
  wellKeyed := hr.wellKeyed
  current := fun s record target key read write hget heq =>
    absurd heq (hr.none_udp _ (Dict.mem_of_get? hget) target key read write)
  held_open := fun s i hi => by
    rw [hheld] at hi
    cases hi
  held_inj := fun a b i ha => by
    rw [hheld] at ha
    cases ha
  open_held := fun i b hb => by
    rw [hcreated] at hb
    cases hb
  unconfigured := fun hno => ⟨hrecords hno, hcreated⟩

theorem configure_configures (h : Host) (r : BackendRuntime) : (configure h r).2.configured = true := by
  by_cases hr : r.configured = true
  · rw [configure_configured h hr]
    exact hr
  · have hkeeps : Fallible.Keeps (fun r : BackendRuntime => r.configured = true) (readEnvironment h) :=
      keeps_readEnvironment (fun _ _ _ hr => hr) h (fun _ _ _ _ _ hr => hr) fun _ _ _ hr => hr
    have hrun : configure h r = readEnvironment h { r with configured := true } := by
      simp only [configure, Fallible.bind_apply, Fallible.state_apply, if_neg hr, Fallible.modify_apply]
    rw [hrun]
    exact hkeeps _ rfl

theorem Sound.configured {p : Pool} (hp : Sound p) (h : Host) : Live (onRuntime (configure h) p).2 := by
  refine ⟨?_, configure_configures h p.runtime⟩
  by_cases hconf : p.runtime.configured = true
  · have hsame : (onRuntime (configure h) p).2 = p := by
      rw [onRuntime, configure_configured h hconf]
    rw [hsame]
    exact hp
  · obtain ⟨hrecords, hcreated⟩ := hp.unconfigured (by simpa using hconf)
    have hheld : ∀ s, p.held s = none := fun s => held_of_get?_none hp (by rw [hrecords]; rfl)
    have hempty : Unconnected { p.runtime with configured := true } := by
      refine ⟨hp.wellKeyed, fun entry hentry => ?_⟩
      rw [show ({ p.runtime with configured := true } : BackendRuntime).records = [] from hrecords] at hentry
      cases hentry
    have hkeeps : Fallible.Keeps Unconnected (readEnvironment h) :=
      keeps_readEnvironment (fun r name address hr => hr.set rfl rfl (by simp)) h
        (fun _ _ _ _ _ hr => ⟨hr.wellKeyed, hr.none_udp⟩) fun r root shell hr => hr.set rfl rfl (by simp)
    have hrun : DosMcp.configure h p.runtime = readEnvironment h { p.runtime with configured := true } := by
      simp only [DosMcp.configure, Fallible.bind_apply, Fallible.state_apply, if_neg hconf, Fallible.modify_apply]
    refine Unconnected.sound ?_ hcreated hheld fun hno => ?_
    · rw [onRuntime, hrun]
      exact hkeeps _ hempty
    · cases (configure_configures h p.runtime).symm.trans hno

/-! ## Runs -/

theorem Sound.use {p : Pool} (hp : Sound p) (h : Host) (u : Use) : Sound (use h p u) := by
  have hlive := hp.configured h
  cases u with
  | listTargets o =>
    show Sound (listTargets h o p).2
    rw [Pool.listTargets, Fallible.bind_apply]
    cases hconf : onRuntime (configure h) p with
    | mk result q =>
      rw [hconf] at hlive
      cases result with
      | error e => exact hlive.sound
      | ok u => exact (hlive.refreshDiscovery _).sound
  | get o target =>
    show Sound (get h o target p).2
    rw [Pool.get, Fallible.bind_apply]
    cases hconf : onRuntime (configure h) p with
    | mk result q =>
      rw [hconf] at hlive
      cases result with
      | error e => exact hlive.sound
      | ok u =>
        have hnext := hlive.refreshDiscovery (drain o.announcements)
        simp only [Fallible.bind_apply, Fallible.modify_apply, Fallible.state_apply, Fallible.lift_apply]
        cases hresolve : resolve h (q.refreshDiscovery (drain o.announcements)).runtime target with
        | error e => exact hnext.sound
        | ok record => exact (hnext.connectRecord h o (resolve_mem hresolve)).sound

theorem Sound.run {p : Pool} (hp : Sound p) (h : Host) (uses : List Use) : Sound (run h p uses) := by
  induction uses generalizing p with
  | nil => exact hp
  | cons u uses ih => exact ih (hp.use h u)

theorem start_sound (injected : Bool) : Sound (start injected) := by
  cases injected with
  | false =>
    have hrecords : Unconnected (start false).runtime := by
      refine ⟨⟨List.nodup_nil, ?_, ?_⟩, ?_⟩
      all_goals
        intro entry hentry
        cases hentry
    exact hrecords.sound rfl (fun _ => rfl) fun _ => rfl
  | true =>
    have hrecords : Unconnected (start true).runtime := by
      refine ⟨⟨List.nodup_singleton _, ?_, ?_⟩, ?_⟩
      all_goals
        intro entry hentry
        obtain rfl := List.mem_singleton.mp hentry
      · rfl
      · intro hstatic
        cases hstatic
      · intro target key read write heq
        cases heq
    refine hrecords.sound rfl (fun _ => rfl) ?_
    intro hno
    cases hno

theorem Sound.caches_iff {p : Pool} (hp : Sound p) {selector : String} {i : Nat} :
    p.Caches selector i ↔ p.held selector = some i := by
  refine ⟨fun hcaches => hcaches.1, fun hheld => ⟨hheld, ?_⟩⟩
  obtain ⟨record, b, hrecord, hb, hhandle, -⟩ := hp.held_open selector i hheld
  exact ⟨record, b, hrecord, hb, hhandle⟩

theorem Sound.object {p : Pool} (hp : Sound p) {i : Nat} {b : UdpObject} (hb : p.created[i]? = some b) :
    (b.closed = false ∧ ∃! selector, p.Caches selector i) ∨ (b.closed = true ∧ ∀ selector, ¬ p.Caches selector i) := by
  cases hclosed : b.closed with
  | false =>
    obtain ⟨selector, hheld⟩ := hp.open_held i b hb hclosed
    refine Or.inl ⟨rfl, selector, hp.caches_iff.mpr hheld, fun other hother => ?_⟩
    exact hp.held_inj other selector i hother.1 hheld
  | true =>
    refine Or.inr ⟨rfl, fun selector hcaches => ?_⟩
    obtain ⟨-, found, -, hfound, -, hopen⟩ := hp.held_open selector i hcaches.1
    rw [hb] at hfound
    cases hfound
    rw [hclosed] at hopen
    cases hopen

end Pool

/-- After any run of `get` and `list_targets`, whatever was announced between the calls: every
    record is stored under its own selector, a `UdpBackend` in it was made from its present
    address with the runtime's key and flags, and each `UdpBackend` that `get` made is open and
    the backend of exactly one record, or closed and the backend of none. -/
theorem registry_invariant (h : Host) (injected : Bool) (uses : List Use) :
    (Pool.run h (.start injected) uses).runtime.records.Unique ∧
    (∀ selector record, (selector, record) ∈ (Pool.run h (.start injected) uses).runtime.records →
      record.selector = selector ∧
        ∀ target key read write, record.backend = some (.udp target key read write) →
          record.address = some target ∧ (Pool.run h (.start injected) uses).runtime.key = some key ∧
            (Pool.run h (.start injected) uses).runtime.allowFileRead = read ∧
            (Pool.run h (.start injected) uses).runtime.allowFileWrite = write ∧
            ∃ i, (Pool.run h (.start injected) uses).Caches selector i) ∧
    ∀ i b, (Pool.run h (.start injected) uses).created[i]? = some b →
      (b.closed = false ∧ ∃! selector, (Pool.run h (.start injected) uses).Caches selector i) ∨
        (b.closed = true ∧ ∀ selector, ¬ (Pool.run h (.start injected) uses).Caches selector i) := by
  have hsound := (Pool.start_sound injected).run h uses
  refine ⟨hsound.wellKeyed.unique, fun selector record hmem => ?_, fun i b hb => hsound.object hb⟩
  refine ⟨hsound.wellKeyed.selector_eq _ hmem, fun target key read write hbackend => ?_⟩
  have hget := Dict.get?_of_mem hsound.wellKeyed.unique hmem
  obtain ⟨⟨haddress, hkey, hread, hwrite⟩, i, hheld⟩ := hsound.current selector record target key read write hget hbackend
  exact ⟨haddress, hkey, hread, hwrite, i, hsound.caches_iff.mpr hheld⟩

end DosMcp
