/-
  DosMcp.Runtime.Selection — static targets under discovery.

  Static names and the `name@adapter-id` selectors of advertisements share one dictionary, and
  a selector that is no key is compared with the casefolded names.

  `_configure` runs once, so the runs here start at the registry it leaves.

  - `discovery_keeps_static_targets`: as long as no advertisement's selector equals a static
    name up to case, every static target keeps its address, and a selector that resolved to one
    resolves to it after a refresh, or to nothing.
  - `announcement_redirects_static_target`: a static target named like a selector is moved to
    the sender of an announcement.
-/

import DosMcp.Runtime.Configuration

namespace DosMcp

open Lib

/-! ## Runs -/

/-- The advertisement's selector is, up to case, the name of a static target. -/
def collides (h : Host) (records : Dict String TargetRecord) (t : DiscoveredTarget) : Bool :=
  records.any fun entry => entry.2.source = .static && h.casefold entry.1 = h.casefold t.advertisement.selector

def Use.announcements : Use → List Announcement
  | .get o _ => o.announcements
  | .listTargets o => o.announcements

/-- No announcement that a refresh reads collides with a static target. -/
def avoids (h : Host) (r : BackendRuntime) (announcements : List Announcement) : Bool :=
  !r.discovery || (drain announcements).all fun t => !collides h r.records t

/-- No call of the run reads an announcement that collides. -/
def avoidsAll (h : Host) : BackendRuntime → List Use → Bool
  | _, [] => true
  | r, use :: uses => avoids h r use.announcements && avoidsAll h (use.run h r) uses

/-! ## Keys and records -/

structure WellKeyed (records : Dict String TargetRecord) : Prop where
  unique : records.Unique
  selector_eq : ∀ entry ∈ records, entry.2.selector = entry.1
  name_eq : ∀ entry ∈ records, entry.2.source = .static → entry.2.name = entry.1

theorem WellKeyed.set {records : Dict String TargetRecord} (hr : WellKeyed records) {name : String} {record : TargetRecord}
    (hselector : record.selector = name) (hname : record.source = .static → record.name = name) :
    WellKeyed (records.set name record) where
  unique := Dict.unique_set hr.unique name record
  selector_eq := fun entry hentry => by
    rcases Dict.mem_set hentry with hold | rfl
    · exact hr.selector_eq entry hold
    · exact hselector
  name_eq := fun entry hentry => by
    rcases Dict.mem_set hentry with hold | rfl
    · exact hr.name_eq entry hold
    · exact hname

theorem WellKeyed.get? {records : Dict String TargetRecord} (hr : WellKeyed records) {record : TargetRecord}
    (hmem : record ∈ records.values) : records.get? record.selector = some record := by
  obtain ⟨⟨name, value⟩, hentry, rfl⟩ := List.mem_map.mp hmem
  rw [hr.selector_eq _ hentry]
  exact Dict.get?_of_mem hr.unique hentry

theorem WellKeyed.refresh {records : Dict String TargetRecord} (hr : WellKeyed records) (t : DiscoveredTarget) :
    WellKeyed (refreshRecords records t) := by
  unfold refreshRecords
  split
  · exact hr.set rfl fun h => by cases h
  · rename_i existing hget
    have hmem := Dict.mem_of_get? hget
    exact hr.set (hr.selector_eq _ hmem) fun hstatic => hr.name_eq _ hmem hstatic

/-! ## One refresh -/

/-- The two registries have the same static records. -/
def SameStatic (a b : Dict String TargetRecord) : Prop :=
  ∀ name record, record.source = .static → ((name, record) ∈ a ↔ (name, record) ∈ b)

theorem collides_eq_false_iff {h : Host} {records : Dict String TargetRecord} {t : DiscoveredTarget} :
    collides h records t = false ↔ ∀ name record, (name, record) ∈ records → record.source = .static →
      h.casefold name ≠ h.casefold t.advertisement.selector := by
  simp only [collides, List.any_eq_false, Bool.and_eq_true, decide_eq_true_eq, not_and, Prod.forall]

theorem SameStatic.collides {a b : Dict String TargetRecord} (hab : SameStatic a b) {h : Host} {t : DiscoveredTarget}
    (havoid : collides h a t = false) : DosMcp.collides h b t = false := by
  rw [collides_eq_false_iff] at havoid ⊢
  exact fun name record hmem hstatic => havoid name record ((hab name record hstatic).mpr hmem) hstatic

theorem refreshRecords_keys {records : Dict String TargetRecord} {t : DiscoveredTarget} {name : String}
    (hname : name ∈ (refreshRecords records t).keys) : name ∈ records.keys ∨ name = t.advertisement.selector := by
  have hset : ∃ record, refreshRecords records t = records.set t.advertisement.selector record := by
    unfold refreshRecords
    split <;> exact ⟨_, rfl⟩
  obtain ⟨next, hnext⟩ := hset
  rw [hnext] at hname
  obtain ⟨entry, hentry, rfl⟩ := List.mem_map.mp hname
  rcases Dict.mem_set hentry with hold | rfl
  · exact Or.inl (List.mem_map.mpr ⟨entry, hold, rfl⟩)
  · exact Or.inr rfl

/-- An advertisement that collides with no static record leaves them all as they are, and
    adds none. -/
theorem refreshRecords_static {h : Host} {records : Dict String TargetRecord} {t : DiscoveredTarget}
    (havoid : collides h records t = false) : SameStatic records (refreshRecords records t) := by
  rw [collides_eq_false_iff] at havoid
  intro name record hstatic
  unfold refreshRecords
  split
  · constructor
    · intro hmem
      exact Dict.mem_set_of_ne _ hmem fun heq => havoid name record hmem hstatic (congrArg h.casefold heq)
    · intro hmem
      rcases Dict.mem_set hmem with hold | heq
      · exact hold
      · cases heq
        cases hstatic
  · rename_i existing hget
    constructor
    · intro hmem
      exact Dict.mem_set_of_ne _ hmem fun heq => havoid name record hmem hstatic (congrArg h.casefold heq)
    · intro hmem
      rcases Dict.mem_set hmem with hold | heq
      · exact hold
      · -- the record refreshed would itself be static, under the selector
        cases heq
        exact absurd rfl (havoid _ existing (Dict.mem_of_get? hget) hstatic)

theorem refreshAll_static {h : Host} {records : Dict String TargetRecord} {targets : List DiscoveredTarget}
    (hr : WellKeyed records) (havoid : ∀ t ∈ targets, collides h records t = false) :
    WellKeyed (targets.foldl refreshRecords records) ∧ SameStatic records (targets.foldl refreshRecords records) ∧
      ∀ name ∈ (targets.foldl refreshRecords records).keys,
        name ∈ records.keys ∨ ∃ t ∈ targets, name = t.advertisement.selector := by
  induction targets generalizing records with
  | nil => exact ⟨hr, fun _ _ _ => Iff.rfl, fun _ hname => Or.inl hname⟩
  | cons t targets ih =>
    have hstep := refreshRecords_static (havoid t List.mem_cons_self)
    obtain ⟨hkeyed, hsame, hkeys⟩ := ih (hr.refresh t) fun u hu => hstep.collides (havoid u (List.mem_cons_of_mem _ hu))
    refine ⟨hkeyed, fun name record hstatic => (hstep name record hstatic).trans (hsame name record hstatic), ?_⟩
    intro name hname
    rcases hkeys name hname with hold | ⟨u, hu, rfl⟩
    · rcases refreshRecords_keys hold with hold | rfl
      · exact Or.inl hold
      · exact Or.inr ⟨t, List.mem_cons_self, rfl⟩
    · exact Or.inr ⟨u, List.mem_cons_of_mem _ hu, rfl⟩

/-! ## Selectors across a refresh -/

theorem mem_values {records : Dict String TargetRecord} {name : String} {record : TargetRecord}
    (hmem : (name, record) ∈ records) : record ∈ records.values := List.mem_map.mpr ⟨_, hmem, rfl⟩

/-- A selector that resolved to a static record resolves to it again, or raises. -/
theorem resolve_static {h : Host} {r s : BackendRuntime} (hr : WellKeyed r.records) (hs : WellKeyed s.records)
    (hsame : SameStatic r.records s.records)
    (hkeys : ∀ name record key, (name, record) ∈ r.records → record.source = .static → key ∈ s.records.keys →
      key ∈ r.records.keys ∨ h.casefold name ≠ h.casefold key)
    {target : Option String} {record : TargetRecord} (hresolve : resolve h r target = .ok record)
    (hstatic : record.source = .static) :
    resolve h s target = .ok record ∨ ∃ e, resolve h s target = .error e := by
  cases hafter : resolve h s target with
  | error e => exact Or.inr ⟨e, rfl⟩
  | ok found =>
    refine Or.inl (congrArg Except.ok ?_)
    cases target with
    | none =>
      -- the only record before is among the records after
      simp only [resolve] at hresolve hafter
      split at hresolve
      · rename_i name value hone
        cases hresolve
        split at hafter
        · rename_i name' value' hone'
          cases hafter
          have hmem := (hsame name record hstatic).mp (by simp [hone])
          rw [hone', List.mem_singleton] at hmem
          exact (congrArg Prod.snd hmem).symm
        · cases hafter
        · cases hafter
      · cases hresolve
      · cases hresolve
    | some target =>
      simp only [resolve] at hresolve hafter
      split at hresolve
      · -- an exact key
        rename_i value hget
        cases hresolve
        have hmem := (hsame target record hstatic).mp (Dict.mem_of_get? hget)
        rw [Dict.get?_of_mem hs.unique hmem] at hafter
        exact (Except.ok.inj hafter).symm
      · rename_i hnone
        split at hresolve
        · rename_i value hone
          cases hresolve
          have hin : record ∈ r.records.values.filter fun record => h.casefold record.name = h.casefold target := by
            rw [hone]
            exact List.mem_singleton_self _
          obtain ⟨hvalue, hfold⟩ := List.mem_filter.mp hin
          obtain ⟨⟨name, value⟩, hmem, heq⟩ := List.mem_map.mp hvalue
          obtain rfl : value = record := heq
          have hname : value.name = name := hr.name_eq _ hmem hstatic
          have hfold : h.casefold name = h.casefold target := by simpa [hname] using hfold
          split at hafter
          · -- the selector has become a key: then it was announced, and collides
            rename_i other hget
            have hkey : target ∈ s.records.keys := List.mem_map.mpr ⟨_, Dict.mem_of_get? hget, rfl⟩
            rcases hkeys name value target hmem hstatic hkey with hold | hne
            · exact absurd hold (Dict.get?_eq_none_iff.mp hnone)
            · exact absurd hfold hne
          · have hafterIn : value ∈ s.records.values.filter fun record => h.casefold record.name = h.casefold target :=
              List.mem_filter.mpr ⟨mem_values ((hsame name value hstatic).mp hmem), by simpa [hname] using hfold⟩
            split at hafter
            · rename_i found' hone'
              cases hafter
              rw [hone', List.mem_singleton] at hafterIn
              exact hafterIn.symm
            · cases hafter
            · cases hafter
        · cases hresolve
        · cases hresolve

/-! ## The calls -/

/-- A configured runtime with a well-keyed registry. -/
structure Configured (r : BackendRuntime) : Prop where
  wellKeyed : WellKeyed r.records
  configured : r.configured = true

theorem Configured.storeStatic (r : BackendRuntime) (name : String) (address : Address) (hr : Configured r) :
    Configured (r.storeStatic name address) := ⟨hr.wellKeyed.set rfl fun _ => rfl, hr.configured⟩

/-- The registry as `_configure` leaves it. -/
theorem configure_start (h : Host) : Configured (configure h .start).2 := by
  have hstart : Configured { BackendRuntime.start with configured := true } :=
    ⟨⟨List.nodup_nil, by simp [BackendRuntime.start], by simp [BackendRuntime.start]⟩, rfl⟩
  exact keeps_readEnvironment Configured.storeStatic h (fun _ _ _ _ _ hr => ⟨hr.wellKeyed, hr.configured⟩)
    (fun _ _ _ hr => ⟨hr.wellKeyed.set rfl (fun hno => by cases hno), hr.configured⟩) _ hstart

theorem refreshDiscovery_static {h : Host} {r : BackendRuntime} {targets : List DiscoveredTarget}
    (hr : WellKeyed r.records) (havoid : r.discovery = true → ∀ t ∈ targets, collides h r.records t = false) :
    (refreshDiscovery r targets).configured = r.configured ∧ WellKeyed (refreshDiscovery r targets).records ∧
      SameStatic r.records (refreshDiscovery r targets).records ∧
        ∀ name ∈ (refreshDiscovery r targets).records.keys,
          name ∈ r.records.keys ∨ ∃ t ∈ targets, name = t.advertisement.selector := by
  unfold refreshDiscovery
  split
  · rename_i hopen
    exact ⟨rfl, refreshAll_static hr (havoid hopen)⟩
  · exact ⟨rfl, hr, fun _ _ _ => Iff.rfl, fun _ hname => Or.inl hname⟩

theorem avoids_iff {h : Host} {r : BackendRuntime} {announcements : List Announcement} :
    avoids h r announcements = true ↔
      (r.discovery = true → ∀ t ∈ drain announcements, collides h r.records t = false) := by
  cases hopen : r.discovery <;> simp [avoids, hopen]

theorem resolve_mem {h : Host} {r : BackendRuntime} {target : Option String} {record : TargetRecord}
    (hresolve : resolve h r target = .ok record) : record ∈ r.records.values := by
  cases target with
  | none =>
    simp only [resolve] at hresolve
    split at hresolve
    · rename_i name value hone
      cases hresolve
      exact mem_values (show (name, record) ∈ r.records by simp [hone])
    · cases hresolve
    · cases hresolve
  | some target =>
    simp only [resolve] at hresolve
    split at hresolve
    · rename_i value hget
      cases hresolve
      exact mem_values (Dict.mem_of_get? hget)
    · split at hresolve
      · rename_i value hone
        cases hresolve
        have hin : record ∈ r.records.values.filter fun record => h.casefold record.name = h.casefold target := by
          rw [hone]
          exact List.mem_singleton_self _
        exact (List.mem_filter.mp hin).1
      · cases hresolve
      · cases hresolve

/-- Every static record of `a` is in `b` under the same name, with the same address. -/
def StaticKept (a b : Dict String TargetRecord) : Prop :=
  ∀ name record, (name, record) ∈ a → record.source = .static →
    ∃ record', (name, record') ∈ b ∧ record'.source = .static ∧ record'.address = record.address

theorem StaticKept.trans {a b c : Dict String TargetRecord} (hab : StaticKept a b) (hbc : StaticKept b c) : StaticKept a c := by
  intro name record hmem hstatic
  obtain ⟨record', hmem', hstatic', haddress'⟩ := hab name record hmem hstatic
  obtain ⟨record'', hmem'', hstatic'', haddress''⟩ := hbc name record' hmem' hstatic'
  exact ⟨record'', hmem'', hstatic'', haddress''.trans haddress'⟩

theorem SameStatic.kept {a b : Dict String TargetRecord} (hab : SameStatic a b) : StaticKept a b :=
  fun name record hmem hstatic => ⟨record, (hab name record hstatic).mp hmem, hstatic, rfl⟩

/-- `get` stores the backend it opens in the record it resolved, and nothing else. -/
theorem connectRecord_state (h : Host) (o : Outside) (record : TargetRecord) (r : BackendRuntime) :
    (connectRecord h o record r).2 = r ∨ ∃ backend, (connectRecord h o record r).2 =
      { r with records := r.records.set record.selector { record with backend := some backend } } := by
  obtain ⟨selector, name, source, address, backend, metadata, lastSeen⟩ := record
  obtain ⟨records, configured, key, allowFileRead, allowFileWrite, discovery⟩ := r
  unfold connectRecord
  cases backend with
  | some backend => exact Or.inl rfl
  | none =>
    simp only [Fallible.bind_apply, Fallible.state_apply]
    cases address with
    | none => exact Or.inl rfl
    | some address =>
      cases key with
      | none => exact Or.inl rfl
      | some key =>
        simp only [Fallible.bind_apply, Fallible.lift_apply]
        cases o.connect address with
        | error e => exact Or.inl rfl
        | ok u => exact Or.inr ⟨_, rfl⟩

theorem connectRecord_static {h : Host} {o : Outside} {r : BackendRuntime} (hr : Configured r) {record : TargetRecord}
    (hmem : record ∈ r.records.values) :
    Configured (connectRecord h o record r).2 ∧ StaticKept r.records (connectRecord h o record r).2.records := by
  rcases connectRecord_state h o record r with e | ⟨backend, e⟩
  · rw [e]
    exact ⟨hr, fun name record hmem hstatic => ⟨record, hmem, hstatic, rfl⟩⟩
  rw [e]
  have hget := hr.wellKeyed.get? hmem
  have hentry := Dict.mem_of_get? hget
  refine ⟨⟨hr.wellKeyed.set rfl fun hstatic => hr.wellKeyed.name_eq _ hentry hstatic, hr.configured⟩, ?_⟩
  intro name static hstatic_mem hstatic
  by_cases heq : name = record.selector
  · subst heq
    have hsame := (Dict.get?_of_mem hr.wellKeyed.unique hstatic_mem).symm.trans hget
    obtain rfl := Option.some.inj hsame
    exact ⟨_, Dict.mem_of_get? (Dict.get?_set_same r.records static.selector _), hstatic, rfl⟩
  · exact ⟨static, Dict.mem_set_of_ne _ hstatic_mem heq, hstatic, rfl⟩

theorem Use.run_static {h : Host} {r : BackendRuntime} (hr : Configured r) {use : Use}
    (havoid : avoids h r use.announcements = true) :
    Configured (use.run h r) ∧ StaticKept r.records (use.run h r).records := by
  obtain ⟨hconf, hkeyed, hsame, -⟩ := refreshDiscovery_static hr.wellKeyed (avoids_iff.mp havoid)
  have hnext : Configured (refreshDiscovery r (drain use.announcements)) := ⟨hkeyed, hconf.trans hr.configured⟩
  cases use with
  | listTargets o =>
    have hrun : (Use.listTargets o).run h r = refreshDiscovery r (drain o.announcements) := by
      simp [Use.run, DosMcp.listTargets, Fallible.bind_apply, configure_configured h hr.configured]
    rw [hrun]
    exact ⟨hnext, hsame.kept⟩
  | get o target =>
    cases hresolve : resolve h (refreshDiscovery r (drain o.announcements)) target with
    | error e =>
      have hrun : (Use.get o target).run h r = refreshDiscovery r (drain o.announcements) := by
        simp only [Use.run, DosMcp.get, Fallible.bind_apply, configure_configured h hr.configured, Fallible.modify_apply,
          Fallible.state_apply, Fallible.lift_apply, hresolve]
      rw [hrun]
      exact ⟨hnext, hsame.kept⟩
    | ok record =>
      have hrun : (Use.get o target).run h r = (connectRecord h o record (refreshDiscovery r (drain o.announcements))).2 := by
        simp only [Use.run, DosMcp.get, Fallible.bind_apply, configure_configured h hr.configured, Fallible.modify_apply,
          Fallible.state_apply, Fallible.lift_apply, hresolve]
      rw [hrun]
      obtain ⟨hc, hk⟩ := connectRecord_static (h := h) (o := o) hnext (resolve_mem hresolve)
      exact ⟨hc, hsame.kept.trans hk⟩

theorem runUses_static {h : Host} {r : BackendRuntime} (hr : Configured r) {uses : List Use}
    (havoid : avoidsAll h r uses = true) :
    Configured (runUses h r uses) ∧ StaticKept r.records (runUses h r uses).records := by
  induction uses generalizing r with
  | nil => exact ⟨hr, fun name record hmem hstatic => ⟨record, hmem, hstatic, rfl⟩⟩
  | cons use uses ih =>
    simp only [avoidsAll, Bool.and_eq_true] at havoid
    obtain ⟨hc, hk⟩ := Use.run_static hr havoid.1
    obtain ⟨hc', hk'⟩ := ih hc havoid.2
    exact ⟨hc', hk.trans hk'⟩

/-- Whatever is announced, as long as no announcement collides with a static name: the static
    targets keep their addresses, and a selector of one still selects it after a refresh, or
    raises. -/
theorem discovery_keeps_static_targets (h : Host) (uses : List Use)
    (havoid : avoidsAll h (configure h .start).2 uses = true) :
    StaticKept (configure h .start).2.records (runUses h (configure h .start).2 uses).records ∧
      ∀ (announcements : List Announcement) (target : Option String) (record : TargetRecord),
        avoids h (runUses h (configure h .start).2 uses) announcements = true →
          resolve h (runUses h (configure h .start).2 uses) target = .ok record → record.source = .static →
            resolve h (refreshDiscovery (runUses h (configure h .start).2 uses) (drain announcements)) target = .ok record ∨
              ∃ e, resolve h (refreshDiscovery (runUses h (configure h .start).2 uses) (drain announcements)) target =
                .error e := by
  obtain ⟨hconf, hkept⟩ := runUses_static (configure_start h) havoid
  refine ⟨hkept, fun announcements target record havoids hresolve hstatic => ?_⟩
  by_cases hopen : (runUses h (configure h .start).2 uses).discovery = true
  · have hfree := avoids_iff.mp havoids
    obtain ⟨-, hkeyed, hsame, hkeys⟩ := refreshDiscovery_static hconf.wellKeyed hfree
    refine resolve_static hconf.wellKeyed hkeyed hsame (fun name record key hmem hstatic hkey => ?_) hresolve hstatic
    rcases hkeys key hkey with hold | ⟨t, ht, rfl⟩
    · exact Or.inl hold
    · exact Or.inr (collides_eq_false_iff.mp (hfree hopen t ht) name record hmem hstatic)
  · rw [refreshDiscovery, if_neg hopen]
    exact Or.inl hresolve

/-! ## A static target named like a selector -/

def selectorText : String := "\x7b\"dos@020000000001\": \"192.0.2.8:21300\"\x7d"

/-- One static target, and discovery. -/
def discoveringHost : Host :=
  { hostWith "DOS_MCP_DISCOVERY" "1" with
    environ := fun key =>
      if key = "DOS_MCP_TARGETS" then some selectorText else if key = "DOS_MCP_DISCOVERY" then some "1" else none
    jsonLoads := fun text =>
      if text = selectorText then some (.object [("dos@020000000001", .string "192.0.2.8:21300")]) else none }

/-- The advertisement of the adapter 02:00:00:00:00:01 under a name of three letters. -/
def advertisementBytes (name crc : Bytes) : Bytes :=
  [0x44, 0x4D, 0x44, 0x32, 1, 2, 0, 3, 0x34, 0x53, 0, 0, 0, 0, 2, 0, 0, 0, 0, 1] ++ name ++ crc

def dosAnnouncement : Announcement := ⟨advertisementBytes [0x64, 0x6F, 0x73] [0xF3, 0x24], "198.51.100.7", 0⟩

def labAnnouncement : Announcement := ⟨advertisementBytes [0x6C, 0x61, 0x62] [0x4D, 0xAC], "198.51.100.7", 0⟩

/-- The addresses of a registry. -/
def BackendRuntime.addresses (r : BackendRuntime) : List (String × Option Address) :=
  r.records.map fun entry => (entry.1, entry.2.address)

theorem toOption_eq_some {x : Except Exc TargetRecord} {record : TargetRecord} (hx : x.toOption = some record) : x = .ok record := by
  cases x with
  | error e => cases hx
  | ok value => exact congrArg Except.ok (Option.some.inj hx)

/-- Another agent is announced: the static target stays where it was configured, and its name
    selects it. -/
theorem discovery_keeps_static_targets_lab :
    StaticKept (configure discoveringHost .start).2.records
        (runUses discoveringHost (configure discoveringHost .start).2 [.listTargets ⟨[labAnnouncement], fun _ => .ok ()⟩]).records ∧
      ∃ record, resolve discoveringHost
          (runUses discoveringHost (configure discoveringHost .start).2 [.listTargets ⟨[labAnnouncement], fun _ => .ok ()⟩])
          (some "dos@020000000001") = .ok record ∧
        (resolve discoveringHost (refreshDiscovery
          (runUses discoveringHost (configure discoveringHost .start).2 [.listTargets ⟨[labAnnouncement], fun _ => .ok ()⟩])
          (drain [labAnnouncement])) (some "dos@020000000001") = .ok record ∨
          ∃ e, resolve discoveringHost (refreshDiscovery
            (runUses discoveringHost (configure discoveringHost .start).2 [.listTargets ⟨[labAnnouncement], fun _ => .ok ()⟩])
            (drain [labAnnouncement])) (some "dos@020000000001") = .error e) := by
  obtain ⟨hkept, hresolve⟩ := discovery_keeps_static_targets discoveringHost
    [.listTargets ⟨[labAnnouncement], fun _ => .ok ()⟩] (by decide +kernel)
  have hsource : ((resolve discoveringHost
      (runUses discoveringHost (configure discoveringHost .start).2 [.listTargets ⟨[labAnnouncement], fun _ => .ok ()⟩])
      (some "dos@020000000001")).toOption.map TargetRecord.source) = some .static := by decide +kernel
  obtain ⟨record, hfound, hstatic⟩ := Option.map_eq_some_iff.mp hsource
  have hbefore := toOption_eq_some hfound
  exact ⟨hkept, record, hbefore, hresolve [labAnnouncement] _ _ (by decide +kernel) hbefore hstatic⟩

/-- The sender of one announcement takes the place of the static target. -/
theorem announcement_redirects_static_target :
    (configure discoveringHost .start).2.addresses = [("dos@020000000001", some ("192.0.2.8", 21300))] ∧
      (runUses discoveringHost (configure discoveringHost .start).2
        [.listTargets ⟨[dosAnnouncement], fun _ => .ok ()⟩]).addresses =
          [("dos@020000000001", some ("198.51.100.7", 21300))] ∧
      ((get discoveringHost ⟨[dosAnnouncement], fun _ => .ok ()⟩ (some "dos@020000000001")
        (configure discoveringHost .start).2).1.toOption.bind BackendHandle.udpTarget?) = some ("198.51.100.7", 21300) := by
  refine ⟨?_, ?_, ?_⟩ <;> decide +kernel

end DosMcp
