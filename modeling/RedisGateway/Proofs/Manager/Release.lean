import RedisGateway.Proofs.Manager.Initialization

/-!
Handles that are released more than once. A pool knows a handle only by its client, so a second
release is ignored exactly as long as the client was not handed out again.
-/

namespace RedisGateway

/-- What callers do with a manager, one call after another. -/
inductive Action where
  | obtain
  /-- Releases the handle with a number, whether or not it was released before. -/
  | release (n : Nat)
  /-- Releases nothing, or a handle around something that is no client. -/
  | releaseOther (h : Option Handle)
  /-- Sends a command through the handle with a number. -/
  | use (n : Nat) (call : Call)
  /-- Calls a method of an executor. -/
  | command (category : Value) (name : String) (args : List Value) (named : Fields)
  | init (hosts : String) (password : Value) (options : Options)
  | closePool
  | close
  /-- The remote side changes its answers. -/
  | answers (refusal : Option Failure) (scripts : List (ClientId × ClientScript))
      (replies : List (String × List Outcome))

/-- A manager with the handles that callers got from it. -/
structure HandleTable where
  site : Site
  /-- The handles in the order in which they were obtained. -/
  handles : List Handle := []
  /-- The numbers of the handles that were released, once for every time. -/
  released : List Nat := []
  /-- When clients were handed out with a handle (`true`) and given back with one, latest first. -/
  dealings : List (ClientId × Bool) := []

namespace HandleTable

/-- What an action makes of a handle table. -/
def after (d : HandleTable) : Action → HandleTable
  | .obtain => match Manager.handle.run d.site with
    | (.ok h, site) =>
      { d with site, handles := d.handles ++ [h], dealings := (h.client, true) :: d.dealings }
    | (.error _, site) => { d with site }
  | .release n => match d.handles[n]? with
    | some h =>
      { d with
        site := ((Manager.release (some h)).run d.site).2
        released := n :: d.released, dealings := (h.client, false) :: d.dealings }
    | none => d
  | .releaseOther h =>
    if h.all fun h => d.site.world.remote.opened ≤ h.client then
      { d with site := ((Manager.release h).run d.site).2 }
    else d
  | .use n call => match d.handles[n]? with
    | some h => { d with site := ((Manager.send h call).run d.site).2 }
    | none => d
  | .command category name args named =>
    { d with site := ((Manager.command category name args named).run d.site).2 }
  | .init hosts password options =>
    { d with site := ((Manager.init hosts password options).run d.site).2 }
  | .closePool => { d with site := (Manager.closePool.run d.site).2 }
  | .close => { d with site := (Manager.close.run d.site).2 }
  | .answers refusal scripts replies =>
    let remote := { d.site.world.remote with refusal, scripts, replies }
    { d with site := { d.site with world := { d.site.world with remote } } }

/-- What actions can make of a manager with a pool from its initialization on. -/
def Reached (d : HandleTable) : Prop :=
  ∃ before hosts password options site, before.manager.plan.pooling = true ∧
    (Manager.init hosts password options).run before = (.ok (), site) ∧
    ∃ actions : List Action, d = actions.foldl after { site }

/-- The last that became of a client is that it was handed out. -/
def Lent (d : HandleTable) (c : ClientId) : Prop := d.dealings.lookup c = some true

/-- A release of a handle comes to nothing: the manager with its pool and all accounts is as it was,
and nothing is closed or otherwise asked of a client. -/
def Ignores (d : HandleTable) (h : Handle) : Prop :=
  ((Manager.release (some h)).run d.site).1 = .ok () ∧
    ((Manager.release (some h)).run d.site).2.manager = d.site.manager ∧
    ((Manager.release (some h)).run d.site).2.world.remote = d.site.world.remote

/-- A handle that holds a client: it was not released, and was obtained later than any handle on
that client that was. -/
def Holds (d : HandleTable) (m : Nat) (c : ClientId) : Prop :=
  (∃ h, d.handles[m]? = some h ∧ h.client = c) ∧ m ∉ d.released ∧
    ∀ n ∈ d.released, ∀ h, d.handles[n]? = some h → h.client = c → n < m

/-- Clients are lent exactly as the dealings say, and each one that is lent has a holder. -/
structure Kept (d : HandleTable) : Prop where
  lends : Manager.Lends d.Lent d.site
  numbers : ∀ n ∈ d.released, n < d.handles.length
  holders : ∀ c, d.Lent c → ∃ m, d.Holds m c

theorem lookup_handed_out (c a : ClientId) (l : List (ClientId × Bool)) :
    ((a, true) :: l).lookup c = some true ↔ l.lookup c = some true ∨ c = a := by
  rw [List.lookup_cons]
  by_cases h : c = a
  · simp [h]
  · simp [h, beq_eq_false_iff_ne.mpr h]

theorem lookup_given_back (c a : ClientId) (l : List (ClientId × Bool)) :
    ((a, false) :: l).lookup c = some true ↔ l.lookup c = some true ∧ c ≠ a := by
  rw [List.lookup_cons]
  by_cases h : c = a
  · simp [h]
  · simp [h, beq_eq_false_iff_ne.mpr h]

variable {d : HandleTable}

theorem Kept.elsewhere (hd : Kept d) {site : Site} (hs : Manager.Lends d.Lent site) :
    Kept { d with site } :=
  ⟨hs, hd.numbers, hd.holders⟩

theorem Kept.obtain (hd : Kept d) : Kept (d.after .obtain) := by
  simp only [after]
  rcases hd.lends.handle with ⟨h, s, hr, -, hs⟩ | ⟨f, s, hr, hs⟩
  · rw [hr]
    refine ⟨hs.congr fun c => (lookup_handed_out c h.client d.dealings).symm, ?_, ?_⟩
    · intro n hn
      rw [List.length_append]
      exact Nat.lt_add_right _ (hd.numbers n hn)
    · intro c hc
      rcases (lookup_handed_out c h.client d.dealings).mp hc with hc | rfl
      · obtain ⟨m, ⟨h', hm, hh⟩, hr, hlast⟩ := hd.holders c hc
        refine ⟨m, ⟨h', ?_, hh⟩, hr, fun n hn g hg hgc => ?_⟩
        · show (d.handles ++ [h])[m]? = some h'
          rw [List.getElem?_append_left (List.getElem?_eq_some_iff.mp hm).1, hm]
        · replace hg : (d.handles ++ [h])[n]? = some g := hg
          rw [List.getElem?_append_left (hd.numbers n hn)] at hg
          exact hlast n hn g hg hgc
      · -- the new handle is the latest of all
        refine ⟨d.handles.length, ⟨h, by simp, rfl⟩, fun hm => ?_, fun n hn _ _ _ => ?_⟩
        · exact Nat.lt_irrefl _ (hd.numbers _ hm)
        · exact hd.numbers n hn
  · rw [hr]
    exact hd.elsewhere hs

theorem Kept.release (hd : Kept d) (n : Nat) : Kept (d.after (.release n)) := by
  simp only [after]
  split
  · rename_i h hn
    refine ⟨?_, ?_, ?_⟩
    · have he : ∀ c, (d.Lent c ∧ c ≠ h.client) ↔
          ((h.client, false) :: d.dealings).lookup c = some true := fun c =>
        (lookup_given_back c h.client d.dealings).symm
      -- the pool looks at the client only: it is taken back if it is lent, with whatever handle
      by_cases hl : d.Lent h.client
      · exact (hd.lends.release hl).congr he
      · obtain ⟨s, hr, -, -, hs⟩ := hd.lends.release_ignored hl
        rw [hr]
        refine hs.congr fun c => Iff.trans ?_ (he c)
        exact ⟨fun hc => ⟨hc, fun hch => hl (hch ▸ hc)⟩, fun hc => hc.1⟩
    · intro m hm
      rcases List.mem_cons.mp hm with rfl | hm
      · exact (List.getElem?_eq_some_iff.mp hn).1
      · exact hd.numbers m hm
    · intro c hc
      obtain ⟨hc, hne⟩ := (lookup_given_back c h.client d.dealings).mp hc
      obtain ⟨m, ⟨h', hm, hh⟩, hr, hlast⟩ := hd.holders c hc
      refine ⟨m, ⟨h', hm, hh⟩, fun hmem => ?_, fun k hk g hg hgc => ?_⟩
      · rcases List.mem_cons.mp hmem with rfl | hmem
        · cases hm.symm.trans hn
          exact hne hh.symm
        · exact hr hmem
      · rcases List.mem_cons.mp hk with rfl | hk
        · cases hg.symm.trans hn
          exact absurd hgc.symm hne
        · exact hlast k hk g hg hgc
  · exact hd

theorem Kept.after (hd : Kept d) (action : Action) : Kept (d.after action) := by
  cases action with
  | obtain => exact hd.obtain
  | release n => exact hd.release n
  | releaseOther h =>
    simp only [HandleTable.after]
    split
    · rename_i hf
      refine hd.elsewhere ?_
      cases h with
      | none =>
        rw [hd.lends.release_none]
        exact hd.lends
      | some h =>
        have hn : ¬d.Lent h.client := fun hl =>
          Nat.not_lt_of_le (of_decide_eq_true hf) (hd.lends.opened hl)
        obtain ⟨s, hr, -, -, hs⟩ := hd.lends.release_ignored hn
        rw [hr]
        exact hs
    · exact hd
  | use n call =>
    simp only [HandleTable.after]
    split
    · exact hd.elsewhere (Manager.stable_lends.send _ _ call _ hd.lends)
    · exact hd
  | command category name args named =>
    exact hd.elsewhere (Manager.stable_lends.command _ category name args named _ hd.lends)
  | init hosts password options =>
    exact hd.elsewhere (Manager.init_keeps hosts password options _ hd.lends)
  | closePool => exact hd.elsewhere (Manager.closePool_keeps _ hd.lends)
  | close => exact hd.elsewhere (Manager.close_keeps _ hd.lends)
  | answers => exact hd.elsewhere (hd.lends.elsewhere rfl rfl rfl)

theorem Reached.kept (hd : d.Reached) : Kept d := by
  obtain ⟨before, hosts, password, options, site, hp, hi, actions, rfl⟩ := hd
  have hk : Kept { site } := by
    refine ⟨(Manager.init_lends hp hi).congr fun c => ?_, nofun, nofun⟩
    exact ⟨nofun, nofun⟩
  clear hi
  generalize ({ site } : HandleTable) = start at hk
  induction actions generalizing start with
  | nil => exact hk
  | cons action actions ih => exact ih _ (hk.after action)

/-- The clients in use at a manager's pool. -/
def inUse (m : Manager) : List ClientId :=
  match m.pool? with
  | some p => p.core.inUse
  | none => []

theorem mem_inUse {lent : ClientId → Prop} {s : Site} (hs : Manager.Lends lent s) {c : ClientId} :
    c ∈ inUse s.manager ↔ lent c := by
  obtain ⟨-, t, p, hf, -, hl⟩ := hs
  rw [← hl c, inUse, Manager.pool?, hf]
  rfl

/-- A release of a handle that was released before is ignored exactly as long as its client was not
handed out again. Otherwise it takes the client from a later handle that was not released. -/
theorem release_again_ignored_iff (hd : d.Reached) {n : Nat} {h : Handle}
    (hn : d.handles[n]? = some h) (hr : n ∈ d.released) :
    (d.Ignores h ↔ ¬d.Lent h.client) ∧
    (d.Lent h.client →
      (∃ m h', n < m ∧ d.handles[m]? = some h' ∧ h'.client = h.client ∧ m ∉ d.released) ∧
      h.client ∈ inUse d.site.manager ∧
      h.client ∉ inUse ((Manager.release (some h)).run d.site).2.manager) := by
  have hk := hd.kept
  have taken : d.Lent h.client → h.client ∈ inUse d.site.manager ∧
      h.client ∉ inUse ((Manager.release (some h)).run d.site).2.manager := by
    intro hl
    refine ⟨(mem_inUse hk.lends).mpr hl, fun hm => ?_⟩
    exact ((mem_inUse (hk.lends.release hl)).mp hm).2 rfl
  refine ⟨⟨?_, ?_⟩, ?_⟩
  · rintro ⟨-, hm, -⟩ hl
    obtain ⟨h1, h2⟩ := taken hl
    rw [hm] at h2
    exact h2 h1
  · intro hl
    obtain ⟨s, hrun, hm, hw, -⟩ := hk.lends.release_ignored hl
    rw [Ignores, hrun]
    exact ⟨rfl, hm, hw⟩
  · intro hl
    obtain ⟨m, ⟨h', hm, hc⟩, hnot, hlast⟩ := hk.holders _ hl
    exact ⟨⟨m, h', hlast n hr h hn rfl, hm, hc, hnot⟩, taken hl⟩

/-- A manager with a pool before its initialization. -/
def unready : Site := ⟨{ plan := { pooling := true } }, {}⟩

/-- The handle table of a manager for one server after some actions. -/
def oneServer (actions : List Action) : HandleTable :=
  actions.foldl after { site := ((Manager.init "h:1" (.text "") .absent).run unready).2 }

theorem oneServer_reached (actions : List Action) : (oneServer actions).Reached := by
  refine ⟨unready, "h:1", .text "", .absent, _, rfl, ?_, actions, rfl⟩
  have hok : ((Manager.init "h:1" (.text "") .absent).run unready).1.isOk = true := by
    decide +kernel
  cases hr : ((Manager.init "h:1" (.text "") .absent).run unready).1 with
  | ok u => exact Prod.ext hr rfl
  | error f =>
    rw [hr] at hok
    cases hok

/-- The client of a handle is handed out again and comes back before the handle is released for the
second time. -/
theorem release_again_ignored_iff_of_oneServer :
    ∃ d : HandleTable, d.Reached ∧ d.handles[0]? = some ⟨.standalone, 0, true⟩ ∧ 0 ∈ d.released ∧
      ¬d.Lent 0 ∧ (d.Ignores ⟨.standalone, 0, true⟩ ↔ ¬d.Lent 0) ∧
      (d.Lent 0 →
        (∃ m h', 0 < m ∧ d.handles[m]? = some h' ∧ h'.client = 0 ∧ m ∉ d.released) ∧
        0 ∈ inUse d.site.manager ∧
        0 ∉ inUse ((Manager.release (some ⟨.standalone, 0, true⟩)).run d.site).2.manager) := by
  have hd := oneServer_reached [.obtain, .release 0, .obtain, .release 1]
  have hn : (oneServer [.obtain, .release 0, .obtain, .release 1]).handles[0]? =
      some ⟨.standalone, 0, true⟩ := by decide +kernel
  have hr : 0 ∈ (oneServer [.obtain, .release 0, .obtain, .release 1]).released := by
    decide +kernel
  have hl : ¬(oneServer [.obtain, .release 0, .obtain, .release 1]).Lent 0 := by
    unfold Lent
    decide +kernel
  exact ⟨_, hd, hn, hr, hl, release_again_ignored_iff hd hn hr⟩

/-- The client of a handle is handed out again and is still out when the handle is released for the
second time: the pool has it back although the second holder did not release it. -/
theorem release_again_takes_away :
    ¬∀ d : HandleTable, d.Reached → ∀ n h, d.handles[n]? = some h → n ∈ d.released →
      d.Ignores h := by
  intro claim
  obtain ⟨-, hm, -⟩ := claim _ (oneServer_reached [.obtain, .release 0, .obtain]) 0
    ⟨.standalone, 0, true⟩ (by decide +kernel) (by decide +kernel)
  have h := congrArg inUse hm
  exact absurd h (by decide +kernel)

end HandleTable
end RedisGateway
