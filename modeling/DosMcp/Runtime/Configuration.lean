/-
  DosMcp.Runtime.Configuration — what a runtime does after its configuration has failed.

  `_configure` marks the runtime as configured before it reads the environment, and stores
  each target as it goes. A later call does not configure again and uses what was stored.

  - `failed_configuration_stays_failed_iff`: after a failed `_configure` every later `get`
    raises exactly when the failure came before the first target was stored.
  - `malformed_entry_selects_the_other`: two targets, the second malformed; the second `get`
    without a selector returns a backend for the first.
-/

import DosMcp.Runtime.Registry

namespace DosMcp

open Lib

/-- The endpoint parses. -/
def endpointOk (h : Host) (endpoint : String) : Bool := (parseEndpoint h endpoint).toBool

/-- The first entry of `DOS_MCP_TARGETS` is a named endpoint that parses. -/
def firstEntryOk (h : Host) (value : String) : Bool :=
  match h.jsonLoads value with
  | some (.object ((name, .string endpoint) :: _)) => name ≠ "" && endpointOk h endpoint
  | _ => false

/-- One of the two variables is set, and its first target is sound. -/
def staticStored (h : Host) (single multiple : Option String) : Bool :=
  match single, multiple with
  | some endpoint, none => endpointOk h endpoint
  | none, some value => firstEntryOk h value
  | _, _ => false

/-- The environment is sound up to and including its first static target. -/
def storesFirstTarget (h : Host) : Bool :=
  (enabled h "DOS_MCP_ALLOW_FILE_READ").toBool && (enabled h "DOS_MCP_ALLOW_FILE_WRITE").toBool &&
    (enabled h "DOS_MCP_DISCOVERY").toBool && (credentialKey h).toBool &&
      staticStored h (h.given "DOS_MCP_TARGET") (h.given "DOS_MCP_TARGETS")

/-- A later call on the runtime. -/
inductive Use where
  | get (o : Outside) (target : Option String)
  | listTargets (o : Outside)

def Use.run (h : Host) (r : BackendRuntime) : Use → BackendRuntime
  | .get o target => (DosMcp.get h o target r).2
  | .listTargets o => (DosMcp.listTargets h o r).2

def runUses (h : Host) (r : BackendRuntime) (uses : List Use) : BackendRuntime := uses.foldl (Use.run h) r

/-! ## A runtime without targets -/

/-- A configured runtime that knows no target and does not listen. -/
structure Barren (r : BackendRuntime) : Prop where
  configured : r.configured = true
  records_eq : r.records = []
  discovery_eq : r.discovery = false

theorem configure_configured (h : Host) {r : BackendRuntime} (hr : r.configured = true) : configure h r = (.ok (), r) := by
  simp [configure, Fallible.bind_apply, hr]

theorem refreshDiscovery_closed {r : BackendRuntime} (hr : r.discovery = false) (targets : List DiscoveredTarget) :
    refreshDiscovery r targets = r := by
  simp [refreshDiscovery, hr]

theorem Barren.get_raises {r : BackendRuntime} (hr : Barren r) (h : Host) (o : Outside) (target : Option String) :
    ∃ e, get h o target r = (.error e, r) := by
  have hresolve : ∃ e, resolve h r target = .error e := by
    cases target with
    | none =>
      refine ⟨.runtimeError "no DOS targets are known; wait for discovery or configure one", ?_⟩
      simp [resolve, hr.records_eq]
    | some target =>
      refine ⟨.runtimeError ("unknown DOS target " ++ h.repr target), ?_⟩
      simp [resolve, hr.records_eq, Dict.get?, Dict.values]
  obtain ⟨e, he⟩ := hresolve
  refine ⟨e, ?_⟩
  simp [get, Fallible.bind_apply, configure_configured h hr.configured, refreshDiscovery_closed hr.discovery_eq, he]

theorem Barren.use {r : BackendRuntime} (hr : Barren r) (h : Host) (use : Use) : use.run h r = r := by
  cases use with
  | get o target =>
    obtain ⟨e, he⟩ := hr.get_raises h o target
    simp [Use.run, he]
  | listTargets o =>
    simp [Use.run, listTargets, Fallible.bind_apply, configure_configured h hr.configured,
      refreshDiscovery_closed hr.discovery_eq]

theorem Barren.run {r : BackendRuntime} (hr : Barren r) (h : Host) (uses : List Use) : runUses h r uses = r := by
  induction uses with
  | nil => rfl
  | cons use uses ih =>
    rw [runUses, List.foldl_cons, hr.use h use]
    exact ih

/-! ## What `_configure` stores -/

/-- The effect of `_add_static` on an endpoint that parses. -/
def BackendRuntime.storeStatic (r : BackendRuntime) (name : String) (address : Address) : BackendRuntime :=
  { r with records := r.records.set name ⟨name, name, .static, some address, none, none, none⟩ }

/-- The effect of `addTerminal` on a terminal that opens. -/
def BackendRuntime.storeLocal (r : BackendRuntime) (root shell : String) : BackendRuntime :=
  { r with records := r.records.set "local"
             ⟨"local", "local", .linux, none, some (.terminal root shell r.allowFileRead r.allowFileWrite), none, none⟩ }

theorem keeps_addTerminal {P : BackendRuntime → Prop} (hlocal : ∀ r root shell, P r → P (r.storeLocal root shell)) (h : Host) :
    Fallible.Keeps P (addTerminal h) := by
  refine (Fallible.keeps_lift _).bind fun cwd => (Fallible.keeps_lift _).bind fun _ => ?_
  exact Fallible.keeps_modify fun r hr => hlocal r _ _ hr

section Keeps

variable {P : BackendRuntime → Prop} (hstore : ∀ r name address, P r → P (r.storeStatic name address)) (h : Host)

include hstore

theorem keeps_addStatic (name endpoint : String) : Fallible.Keeps P (addStatic h name endpoint) :=
  (Fallible.keeps_lift _).bind fun address => Fallible.keeps_modify fun r hr => hstore r name address hr

theorem keeps_addStaticTarget (name : String) (endpoint : Json) : Fallible.Keeps P (addStaticTarget h name endpoint) := by
  cases endpoint with
  | string text =>
    have hadd := keeps_addStatic hstore h name text
    refine Fallible.keeps_ite ((Fallible.keeps_raise _).bind fun _ => ?_) ?_
    all_goals
      refine Fallible.keeps_state.bind fun r => ?_
      exact Fallible.keeps_ite ((Fallible.keeps_raise _).bind fun _ => hadd) hadd
  | object items => exact Fallible.keeps_raise _
  | other => exact Fallible.keeps_raise _

theorem keeps_addItems (items : List (String × Json)) : Fallible.Keeps P (addItems h items) := by
  induction items with
  | nil => exact Fallible.keeps_pure _
  | cons item items ih => exact (keeps_addStaticTarget hstore h item.1 item.2).bind fun _ => ih

theorem keeps_addStaticTargets (value : String) : Fallible.Keeps P (addStaticTargets h value) := by
  unfold addStaticTargets
  split
  · exact Fallible.keeps_raise _
  · exact Fallible.keeps_ite (Fallible.keeps_raise _) (keeps_addItems hstore h _)
  · exact Fallible.keeps_raise _

variable (hfields : ∀ r key read write discovery, P r →
    P { r with key := key, allowFileRead := read, allowFileWrite := write, discovery := discovery })

include hfields

theorem keeps_addTargets (single multiple : Option String) (discovery : Bool) :
    Fallible.Keeps P (addTargets h single multiple discovery) := by
  refine (Fallible.keeps_lift _).bind fun key => ?_
  refine Fallible.Keeps.bind ?_ fun _ => Fallible.Keeps.bind ?_ fun _ => Fallible.Keeps.bind ?_ fun _ => ?_
  · exact Fallible.keeps_modify fun r hr => hfields r _ r.allowFileRead r.allowFileWrite r.discovery hr
  · cases single with
    | none => exact Fallible.keeps_pure _
    | some endpoint => exact keeps_addStatic hstore h "dos" endpoint
  · cases multiple with
    | none => exact Fallible.keeps_pure _
    | some value => exact keeps_addStaticTargets hstore h value
  · refine Fallible.keeps_ite ((Fallible.keeps_lift _).bind fun port => ?_) (Fallible.keeps_pure _)
    refine Fallible.keeps_ite ((Fallible.keeps_raise _).bind fun _ => ?_) ?_
    all_goals
      refine (Fallible.keeps_lift _).bind fun _ => ?_
      exact Fallible.keeps_modify fun r hr => hfields r r.key r.allowFileRead r.allowFileWrite _ hr

variable (hlocal : ∀ r root shell, P r → P (r.storeLocal root shell))

include hlocal

theorem keeps_readEnvironment : Fallible.Keeps P (readEnvironment h) := by
  refine (Fallible.keeps_lift _).bind fun read => Fallible.Keeps.bind ?_ fun _ => ?_
  · exact Fallible.keeps_modify fun r hr => hfields r r.key _ r.allowFileWrite r.discovery hr
  refine (Fallible.keeps_lift _).bind fun write => Fallible.Keeps.bind ?_ fun _ => ?_
  · exact Fallible.keeps_modify fun r hr => hfields r r.key r.allowFileRead _ r.discovery hr
  refine (Fallible.keeps_lift _).bind fun discovery => Fallible.keeps_ite (Fallible.keeps_raise _) ?_
  exact Fallible.keeps_ite (keeps_addTargets hstore h hfields _ _ discovery) (keeps_addTerminal hlocal h)

end Keeps

theorem storeStatic_records_ne_nil (r : BackendRuntime) (name : String) (address : Address) :
    (r.storeStatic name address).records ≠ [] := by
  cases hr : r.records with
  | nil => simp [BackendRuntime.storeStatic, hr, Dict.set]
  | cons e records =>
    simp only [BackendRuntime.storeStatic, hr, Dict.set]
    split <;> simp

/-- The static targets of a runtime whose key is known; no listener yet. -/
structure Stocked (r : BackendRuntime) : Prop where
  configured : r.configured = true
  key_some : ∃ key, r.key = some key
  discovery_eq : r.discovery = false
  records_static : ∀ entry ∈ r.records, entry.2.selector = entry.1 ∧ entry.2.backend = none ∧
    ∃ address, entry.2.address = some address

theorem Stocked.storeStatic (r : BackendRuntime) (name : String) (address : Address) (hr : Stocked r) :
    Stocked (r.storeStatic name address) where
  configured := hr.configured
  key_some := hr.key_some
  discovery_eq := hr.discovery_eq
  records_static := fun entry hentry => by
    rcases Dict.mem_set hentry with hold | rfl
    · exact hr.records_static entry hold
    · exact ⟨rfl, rfl, address, rfl⟩

theorem addStatic_apply (h : Host) (name endpoint : String) (r : BackendRuntime) :
    addStatic h name endpoint r = match parseEndpoint h endpoint with
      | .error e => (.error e, r)
      | .ok address => (.ok (), r.storeStatic name address) := by
  simp only [addStatic, Fallible.bind_apply, Fallible.lift_apply]
  cases parseEndpoint h endpoint <;> rfl

/-- The first entry of `DOS_MCP_TARGETS` is stored exactly if its name is not empty and its
    endpoint parses. -/
theorem addStaticTarget_first (h : Host) (name endpoint : String) {r : BackendRuntime} (hr : r.records = []) :
    ((name ≠ "" && endpointOk h endpoint) = true ∧
        ∃ address, addStaticTarget h name (.string endpoint) r = (.ok (), r.storeStatic name address)) ∨
      ((name ≠ "" && endpointOk h endpoint) = false ∧ ∃ e, addStaticTarget h name (.string endpoint) r = (.error e, r)) := by
  by_cases hname : name = ""
  · exact Or.inr ⟨by simp [hname], _, by simp [addStaticTarget, hname, Fallible.bind_apply]; rfl⟩
  have hhas : ¬ r.records.has name = true := by simp [hr, Dict.has, Dict.get?]
  have hrun : addStaticTarget h name (.string endpoint) r = addStatic h name endpoint r := by
    simp only [addStaticTarget, if_neg hname, Fallible.bind_apply, Fallible.state_apply, if_neg hhas]
  rw [hrun, addStatic_apply, endpointOk]
  cases parseEndpoint h endpoint with
  | error e => exact Or.inr ⟨by simp [Except.toBool], e, rfl⟩
  | ok address => exact Or.inl ⟨by simp [Except.toBool, hname], address, rfl⟩

/-- The first entry decides whether `DOS_MCP_TARGETS` stores anything. -/
theorem addStaticTargets_first (h : Host) (value : String) {r : BackendRuntime} (hr : r.records = []) :
    (addStaticTargets h value r).2.records ≠ [] ↔ firstEntryOk h value = true := by
  unfold addStaticTargets firstEntryOk
  cases h.jsonLoads value with
  | none => simp [hr]
  | some json =>
    cases json with
    | string text => simp [hr]
    | other => simp [hr]
    | object items =>
      cases items with
      | nil => simp [hr]
      | cons item items =>
        obtain ⟨name, endpoint⟩ := item
        have hrest : Fallible.Keeps (fun r => r.records ≠ []) (addItems h items) :=
          keeps_addItems (fun r name address _ => storeStatic_records_ne_nil r name address) h items
        simp only [List.isEmpty_cons, Bool.false_eq_true, if_false, addItems, Fallible.bind_apply]
        cases endpoint with
        | object _ => simp [addStaticTarget, hr]
        | other => simp [addStaticTarget, hr]
        | string endpoint =>
          rcases addStaticTarget_first h name endpoint hr with ⟨hok, address, hrun⟩ | ⟨hbad, e, hrun⟩
          · simp only [hrun, hok, iff_true]
            exact hrest _ (storeStatic_records_ne_nil r name address)
          · simp only [hrun, hbad, hr]
            simp

/-- A listener that cannot be opened changes nothing. -/
theorem openDiscovery_error {h : Host} {r t : BackendRuntime} {e : Exc} (hrun : openDiscovery h r = (.error e, t)) :
    t = r := by
  rcases Fallible.bind_eq_error hrun with hport | ⟨port, u, hport, hrest⟩
  · exact (Fallible.lift_eq hport).2.symm
  obtain ⟨-, rfl⟩ := Fallible.lift_eq hport
  split at hrest
  · rcases Fallible.bind_eq_error hrest with hrange | ⟨_, u, hrange, -⟩
    · cases hrange
      rfl
    · cases hrange
  · rcases Fallible.bind_eq_error hrest with hbind | ⟨_, u, -, hmodify⟩
    · exact (Fallible.lift_eq hbind).2.symm
    · cases hmodify

theorem openListed_error {h : Host} {discovery : Bool} {r t : BackendRuntime} {e : Exc}
    (hrun : (if discovery then openDiscovery h else pure () : RuntimeM Unit) r = (.error e, t)) : t = r := by
  cases discovery with
  | false => cases hrun
  | true => exact openDiscovery_error hrun

theorem addSingle_multiple {h : Host} {single multiple : Option String} {r : BackendRuntime}
    (hboth : single = none ∨ multiple = none) (hr : Stocked r) (hrecords : r.records = []) :
    Stocked ((addSingle h single >>= fun _ => addMultiple h multiple) r).2 ∧
      (((addSingle h single >>= fun _ => addMultiple h multiple) r).2.records ≠ [] ↔ staticStored h single multiple = true) := by
  rw [Fallible.bind_apply]
  cases single with
  | none =>
    simp only [addSingle, Fallible.pure_apply]
    cases multiple with
    | none => simp [addMultiple, hr, hrecords, staticStored]
    | some value =>
      exact ⟨keeps_addStaticTargets Stocked.storeStatic h value r hr, addStaticTargets_first h value hrecords⟩
  | some endpoint =>
    obtain rfl : multiple = none := by simpa using hboth
    simp only [addSingle, addStatic_apply, staticStored, endpointOk]
    cases parseEndpoint h endpoint with
    | error e => simp [hr, hrecords, Except.toBool]
    | ok address =>
      simp [addMultiple, Except.toBool, storeStatic_records_ne_nil, Stocked.storeStatic r "dos" address hr]

/-- Where `_configure` fails among the targets. -/
theorem addTargets_error {h : Host} {single multiple : Option String} {discovery : Bool} {r t : BackendRuntime} {e : Exc}
    (hboth : single = none ∨ multiple = none) (hr : Barren r)
    (hrun : addTargets h single multiple discovery r = (.error e, t)) :
    (t.records = [] ∧ Barren t ∨ t.records ≠ [] ∧ Stocked t) ∧
      (t.records ≠ [] ↔ ((credentialKey h).toBool && staticStored h single multiple) = true) := by
  rcases Fallible.bind_eq_error hrun with hkey | ⟨key, u, hkey, hrest⟩
  · obtain ⟨hraised, rfl⟩ := Fallible.lift_eq hkey
    simp [hraised, Except.toBool, hr, hr.records_eq]
  obtain ⟨hknown, rfl⟩ := Fallible.lift_eq hkey
  rcases Fallible.bind_eq_error hrest with hmodify | ⟨_, u, hmodify, htargets⟩
  · cases hmodify
  obtain ⟨-, rfl⟩ := Prod.mk.inj hmodify
  have hstock : Stocked { r with key := some key } :=
    ⟨hr.configured, ⟨key, rfl⟩, hr.discovery_eq, fun entry hentry => by simp [hr.records_eq] at hentry⟩
  obtain ⟨hafter, hstored⟩ := addSingle_multiple (h := h) hboth hstock hr.records_eq
  -- the state in which the static targets have been read is the one in which it fails
  have ht : t = ((addSingle h single >>= fun _ => addMultiple h multiple) { r with key := some key }).2 := by
    rw [Fallible.bind_apply]
    rcases Fallible.bind_eq_error htargets with hsingle | ⟨_, u, hsingle, hmore⟩
    · rw [hsingle]
    · rw [hsingle]
      rcases Fallible.bind_eq_error hmore with hmultiple | ⟨_, v, hmultiple, hlisten⟩
      · simp only [hmultiple]
      · simp only [hmultiple]
        exact openListed_error hlisten
  rw [← ht] at hafter hstored
  refine ⟨?_, by simpa [hknown, Except.toBool] using hstored⟩
  by_cases hempty : t.records = []
  · exact Or.inl ⟨hempty, hafter.configured, hempty, hafter.discovery_eq⟩
  · exact Or.inr ⟨hempty, hafter⟩

theorem addTerminal_error {h : Host} {r t : BackendRuntime} {e : Exc} (hrun : addTerminal h r = (.error e, t)) : t = r := by
  rcases Fallible.bind_eq_error hrun with hcwd | ⟨cwd, u, hcwd, hrest⟩
  · exact (Fallible.lift_eq hcwd).2.symm
  obtain ⟨-, rfl⟩ := Fallible.lift_eq hcwd
  rcases Fallible.bind_eq_error hrest with hopen | ⟨_, u, -, hmodify⟩
  · exact (Fallible.lift_eq hopen).2.symm
  · cases hmodify

/-- What a failed `_configure` leaves: nothing, or static targets that a later call can use. -/
theorem readEnvironment_error {h : Host} {r t : BackendRuntime} {e : Exc} (hr : Barren r)
    (hrun : readEnvironment h r = (.error e, t)) :
    (Barren t ∧ storesFirstTarget h = false) ∨ (Stocked t ∧ t.records ≠ [] ∧ storesFirstTarget h = true) := by
  simp only [storesFirstTarget]
  rcases Fallible.bind_eq_error hrun with hread | ⟨read, u, hread, hrun1⟩
  · obtain ⟨hbad, rfl⟩ := Fallible.lift_eq hread
    exact Or.inl ⟨hr, by simp [hbad, Except.toBool]⟩
  obtain ⟨hreadok, rfl⟩ := Fallible.lift_eq hread
  rcases Fallible.bind_eq_error hrun1 with hmodify | ⟨_, u, hmodify, hrun2⟩
  · cases hmodify
  obtain ⟨-, rfl⟩ := Prod.mk.inj hmodify
  rcases Fallible.bind_eq_error hrun2 with hwrite | ⟨write, u, hwrite, hrun3⟩
  · obtain ⟨hbad, rfl⟩ := Fallible.lift_eq hwrite
    exact Or.inl ⟨⟨hr.configured, hr.records_eq, hr.discovery_eq⟩, by simp [hbad, Except.toBool]⟩
  obtain ⟨hwriteok, rfl⟩ := Fallible.lift_eq hwrite
  rcases Fallible.bind_eq_error hrun3 with hmodify | ⟨_, u, hmodify, hrun4⟩
  · cases hmodify
  obtain ⟨-, rfl⟩ := Prod.mk.inj hmodify
  rcases Fallible.bind_eq_error hrun4 with hdisc | ⟨discovery, u, hdisc, hrun5⟩
  · obtain ⟨hbad, rfl⟩ := Fallible.lift_eq hdisc
    exact Or.inl ⟨⟨hr.configured, hr.records_eq, hr.discovery_eq⟩, by simp [hbad, Except.toBool]⟩
  obtain ⟨hdiscok, rfl⟩ := Fallible.lift_eq hdisc
  have hflags : (enabled h "DOS_MCP_ALLOW_FILE_READ").toBool = true ∧ (enabled h "DOS_MCP_ALLOW_FILE_WRITE").toBool = true ∧
      (enabled h "DOS_MCP_DISCOVERY").toBool = true := by
    rw [hreadok, hwriteok, hdiscok]
    exact ⟨rfl, rfl, rfl⟩
  simp only [hflags, Bool.true_and]
  have hbarren : Barren { r with allowFileRead := read, allowFileWrite := write } :=
    ⟨hr.configured, hr.records_eq, hr.discovery_eq⟩
  generalize h.given "DOS_MCP_TARGET" = single at hrun5 ⊢
  generalize h.given "DOS_MCP_TARGETS" = multiple at hrun5 ⊢
  split at hrun5
  · -- both variables are set
    rename_i hboth
    obtain ⟨-, rfl⟩ := Prod.mk.inj hrun5
    refine Or.inl ⟨hbarren, ?_⟩
    cases single <;> cases multiple <;> simp_all [staticStored]
  rename_i hboth
  split at hrun5
  · have hnone : single = none ∨ multiple = none := by
      cases single <;> cases multiple <;> simp_all
    obtain ⟨hstate, hstored⟩ := addTargets_error hnone hbarren hrun5
    rcases hstate with ⟨hempty, hleft⟩ | ⟨hsome, hleft⟩
    · exact Or.inl ⟨hleft, by simpa [hempty] using hstored⟩
    · exact Or.inr ⟨hleft, hsome, hstored.mp hsome⟩
  · rename_i hneither
    have ht := addTerminal_error hrun5
    subst ht
    refine Or.inl ⟨hbarren, ?_⟩
    cases single <;> cases multiple <;> simp_all [staticStored]

/-! ## After a failed configuration -/

theorem configure_start_error {h : Host} {e : Exc} (hfail : (configure h .start).1 = .error e) :
    (Barren (configure h .start).2 ∧ storesFirstTarget h = false) ∨
      (Stocked (configure h .start).2 ∧ (configure h .start).2.records ≠ [] ∧ storesFirstTarget h = true) := by
  have hrun : configure h .start = readEnvironment h { BackendRuntime.start with configured := true } := rfl
  rw [hrun] at hfail ⊢
  exact readEnvironment_error ⟨rfl, rfl, rfl⟩ (Prod.ext hfail rfl)

/-- A first call whose configuration fails leaves what `_configure` left. -/
theorem Use.run_failed {h : Host} {e : Exc} (hfail : (configure h .start).1 = .error e) (first : Use) :
    first.run h .start = (configure h .start).2 := by
  have hrun : configure h .start = (.error e, (configure h .start).2) := Prod.ext hfail rfl
  cases first with
  | get o target => rw [Use.run, DosMcp.get, Fallible.bind_apply, hrun]
  | listTargets o => rw [Use.run, DosMcp.listTargets, Fallible.bind_apply, hrun]

/-- A stored target is handed out. -/
theorem Stocked.get_returns {r : BackendRuntime} (hr : Stocked r) (hsome : r.records ≠ []) (h : Host) :
    ∃ target backend, (get h ⟨[], fun _ => .ok ()⟩ target r).1 = .ok backend := by
  obtain ⟨⟨name, record⟩, records, hrecords⟩ := List.exists_cons_of_ne_nil hsome
  obtain ⟨-, hbackend, address, haddress⟩ := hr.records_static (name, record) (by simp [hrecords])
  obtain ⟨key, hkey⟩ := hr.key_some
  have hresolve : resolve h r (some name) = .ok record := by simp [resolve, hrecords, Dict.get?]
  dsimp only at hbackend haddress
  refine ⟨some name, .udp address key r.allowFileRead r.allowFileWrite, ?_⟩
  simp [get, Fallible.bind_apply, configure_configured h hr.configured, refreshDiscovery_closed hr.discovery_eq, hresolve,
    connectRecord, hbackend, haddress, hkey]

/-- After a first call that raised out of `_configure`, every later `get` raises exactly if
    the environment was unsound before its first static target. -/
theorem failed_configuration_stays_failed_iff (h : Host) (e : Exc) (hfail : (configure h .start).1 = .error e)
    (first : Use) :
    (∀ (uses : List Use) (o : Outside) (target : Option String),
        ∃ e', (get h o target (runUses h .start (first :: uses))).1 = .error e') ↔ storesFirstTarget h = false := by
  have hafter : ∀ uses, runUses h .start (first :: uses) = runUses h (configure h .start).2 uses := fun uses => by
    rw [runUses, List.foldl_cons, Use.run_failed hfail]
    rfl
  simp only [hafter]
  rcases configure_start_error hfail with ⟨hbarren, hstored⟩ | ⟨hstock, hsome, hstored⟩
  · refine iff_of_true (fun uses o target => ?_) hstored
    rw [hbarren.run h uses]
    obtain ⟨e', he'⟩ := hbarren.get_raises h o target
    exact ⟨e', congrArg Prod.fst he'⟩
  · refine iff_of_false (fun hall => ?_) (by simp [hstored])
    obtain ⟨target, backend, hget⟩ := hstock.get_returns hsome h
    obtain ⟨e', he'⟩ := hall [] ⟨[], fun _ => .ok ()⟩ target
    rw [runUses, List.foldl_nil, hget] at he'
    cases he'

/-! ## One malformed entry -/

/-- `DOS_MCP_TARGETS` of two entries; the port of the second is `x`. -/
def mixedText : String := "\x7b\"a\": \"192.0.2.8:21300\", \"b\": \"192.0.2.38:x\"\x7d"

def mixedTargets : Json := .object [("a", .string "192.0.2.8:21300"), ("b", .string "192.0.2.38:x")]

/-- The SHA-256 digest of the open-mode domain. -/
def openModeDigest : Bytes :=
  [0xB1, 0x51, 0xCB, 0x0F, 0x3C, 0xDC, 0x52, 0x7F, 0x03, 0xED, 0x9A, 0xA5, 0x37, 0x13, 0x6A, 0xDE,
    0x5C, 0xFA, 0xA6, 0xC6, 0xBD, 0xEE, 0xFD, 0x25, 0x59, 0xF4, 0xCD, 0xEA, 0xAB, 0xBA, 0x5E, 0x18]

/-- A process with one environment variable. -/
def hostWith (name value : String) : Host where
  environ := fun key => if key = name then some value else none
  jsonLoads := fun text => if text = mixedText then some mixedTargets else none
  int := fun text => if text = "21300" then some 21300 else none
  casefold := fun text => text
  repr := fun text => "'" ++ text ++ "'"
  sha256 := fun _ => openModeDigest
  sha256_length := fun _ => rfl
  getcwd := .ok "/"
  bindListener := fun _ => .ok ()
  openTerminal := fun _ _ => .ok ()

/-- No announcements; every host name resolves. -/
def quietOutside : Outside := ⟨[], fun _ => .ok ()⟩

/-- The address of a UDP backend. -/
def BackendHandle.udpTarget? : BackendHandle → Option Address
  | .udp target _ _ _ => some target
  | _ => none

/-- A flag that is neither 0 nor 1 fails for good. -/
theorem failed_configuration_bad_flag :
    ∃ e, (get (hostWith "DOS_MCP_DISCOVERY" "2") quietOutside none
      (runUses (hostWith "DOS_MCP_DISCOVERY" "2") .start [.get quietOutside none])).1 = .error e := by
  have hfail : (configure (hostWith "DOS_MCP_DISCOVERY" "2") .start).1 =
      .error (.runtimeError "DOS_MCP_DISCOVERY must be 0 or 1") := by rfl
  exact (failed_configuration_stays_failed_iff _ _ hfail (.get quietOutside none)).mpr (by decide +kernel) [] _ _

/-- The second `get` without a selector returns a backend for the sound entry. -/
theorem malformed_entry_selects_the_other :
    (configure (hostWith "DOS_MCP_TARGETS" mixedText) .start).1.toBool = false ∧
      ((get (hostWith "DOS_MCP_TARGETS" mixedText) quietOutside none
        (runUses (hostWith "DOS_MCP_TARGETS" mixedText) .start [.get quietOutside none])).1.toOption.bind
          BackendHandle.udpTarget?) = some ("192.0.2.8", 21300) := by
  constructor <;> decide +kernel

end DosMcp
