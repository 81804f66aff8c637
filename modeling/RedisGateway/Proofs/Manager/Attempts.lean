import RedisGateway.Proofs.Manager.Ledger
import RedisGateway.Proofs.Manager.Release
import RedisGateway.Proofs.Manager.Renumbering

/-!
What callers get from a manager for what they do one after another, and from one whose clients are
numbered further on; and what becomes of an attempt to initialize a manager.
-/

namespace RedisGateway

open Event (openedIn closedIn)

/-- A remote side that answers from now on as the other one does, for clients numbered `k` further
on. What was asked of them before may differ. -/
structure Remote.AnswersAs (k : Nat) (r r' : Remote) : Prop where
  refusal : r'.refusal = r.refusal
  upcoming : r'.upcoming = r.upcoming
  opened : r'.opened = r.opened + k
  script : ∀ c, r'.script (c + k) = r.script c
  replies : r'.replies = r.replies

/-! ## Actions and their replies -/

/-- The action with the clients that it names moved up. -/
def Action.moved (k : Nat) : Action → Action
  | .releaseOther h => .releaseOther (h.map (Handle.moved k))
  | .answers refusal scripts replies =>
    .answers refusal (scripts.map fun p => (movedUp k p.1, p.2)) replies
  | action => action

/-- What an action comes to. -/
inductive Reply where
  | handle (r : Except Fault Handle)
  | done (r : Except Fault Unit)
  | sent (r : Except Fault Outcome)
  | value (r : Except Fault Value)
  | nothing

/-- The reply with clients moved up. -/
def Reply.moved (k : Nat) : Reply → Reply
  | .handle r => .handle (renumberedBy (movedUp k) (Handle.moved k) r)
  | .done r => .done (renumberedBy (movedUp k) id r)
  | .sent r => .sent (renumberedBy (movedUp k) id r)
  | .value r => .value (renumberedBy (movedUp k) id r)
  | .nothing => .nothing

namespace HandleTable

/-- What a caller gets for an action. -/
def reply (d : HandleTable) : Action → Reply
  | .obtain => .handle (Manager.handle.run d.site).1
  | .release n => match d.handles[n]? with
    | some h => .done ((Manager.release (some h)).run d.site).1
    | none => .nothing
  | .releaseOther h =>
    if h.all fun h => d.site.world.remote.opened ≤ h.client then
      .done ((Manager.release h).run d.site).1
    else .nothing
  | .use n call => match d.handles[n]? with
    | some h => .sent ((Manager.send h call).run d.site).1
    | none => .nothing
  | .command category name args named =>
    .value ((Manager.command category name args named).run d.site).1
  | .init hosts password options => .done ((Manager.init hosts password options).run d.site).1
  | .closePool => .done (Manager.closePool.run d.site).1
  | .close => .done (Manager.close.run d.site).1
  | .answers .. => .nothing

/-- What callers get for actions, one after another. -/
def replies (d : HandleTable) : List Action → List Reply
  | [] => []
  | action :: actions => d.reply action :: (d.after action).replies actions

/-- Two handle tables of which the second is the first with clients moved up. -/
structure Mirrors (k : Nat) (old old' : List Event) (d d' : HandleTable) : Prop where
  site : d.site.Mirrors k old old' d'.site
  handles : d'.handles = d.handles.map (Handle.moved k)

variable {k : Nat} {old old' : List Event} {d d' : HandleTable}

theorem lookup_movedUp (scripts : List (ClientId × ClientScript)) (c : ClientId) :
    (scripts.map fun p => (movedUp k p.1, p.2)).lookup (c + k) = scripts.lookup c := by
  induction scripts with
  | nil => rfl
  | cons p rest ih =>
    have hb : (c + k == movedUp k p.1) = (c == p.1) := by
      rw [Bool.eq_iff_iff, beq_iff_eq, beq_iff_eq]
      exact Nat.add_left_inj
    rw [List.map_cons, List.lookup_cons, List.lookup_cons, hb, ih]

theorem Mirrors.handle? (hd : d.Mirrors k old old' d') (n : Nat) :
    d'.handles[n]? = d.handles[n]?.map (Handle.moved k) := by
  rw [hd.handles, List.getElem?_map]

/-- A handle around something that is no client is moved up to one around something that is none. -/
theorem Mirrors.foreign (hd : d.Mirrors k old old' d') (h : Option Handle) :
    ((h.map (Handle.moved k)).all fun h => decide (d'.site.world.remote.opened ≤ h.client)) =
      h.all fun h => decide (d.site.world.remote.opened ≤ h.client) := by
  cases h with
  | none => rfl
  | some h =>
    show decide (d'.site.world.remote.opened ≤ h.client + k) = decide (_ ≤ h.client)
    rw [hd.site.remote.opened]
    exact decide_eq_decide.mpr Nat.add_le_add_iff_right

theorem renumberedBy_eq {α : Type} {x y : Except Fault α} (h : Mirrored k Eq x y) :
    y = renumberedBy (movedUp k) id x := by
  cases h with
  | ok h => exact congrArg Except.ok h.symm
  | error => rfl

theorem Mirrors.reply (hd : d.Mirrors k old old' d') (action : Action) :
    d'.reply (action.moved k) = (d.reply action).moved k := by
  cases action with
  | obtain => exact congrArg Reply.handle (Manager.handle_mirrors _ _ hd.site).1.eq
  | release n =>
    simp only [Action.moved, HandleTable.reply, hd.handle? n]
    cases d.handles[n]? with
    | none => rfl
    | some h =>
      exact congrArg Reply.done (renumberedBy_eq (Manager.release_mirrors (some h) _ _ hd.site).1)
  | releaseOther h =>
    simp only [Action.moved, HandleTable.reply, hd.foreign h]
    split
    · exact congrArg Reply.done (renumberedBy_eq (Manager.release_mirrors h _ _ hd.site).1)
    · rfl
  | use n call =>
    simp only [Action.moved, HandleTable.reply, hd.handle? n]
    cases d.handles[n]? with
    | none => rfl
    | some h =>
      exact congrArg Reply.sent (renumberedBy_eq (Manager.send_mirrors h call _ _ hd.site).1)
  | command category name args named =>
    exact congrArg Reply.value
      (renumberedBy_eq (Manager.command_mirrors category name args named _ _ hd.site).1)
  | init hosts password options =>
    exact congrArg Reply.done
      (renumberedBy_eq (Manager.init_mirrors hosts password options _ _ hd.site).1)
  | closePool =>
    exact congrArg Reply.done (renumberedBy_eq (Manager.closePool_mirrors _ _ hd.site).1)
  | close => exact congrArg Reply.done (renumberedBy_eq (Manager.close_mirrors _ _ hd.site).1)
  | answers => rfl

theorem Mirrors.after (hd : d.Mirrors k old old' d') (action : Action) :
    (d.after action).Mirrors k old old' (d'.after (action.moved k)) := by
  cases action with
  | obtain =>
    obtain ⟨h1, h2⟩ := Manager.handle_mirrors _ _ hd.site
    simp only [Action.moved, HandleTable.after]
    generalize Manager.handle.run d.site = out at h1 h2
    generalize Manager.handle.run d'.site = out' at h1 h2
    obtain ⟨r, site⟩ := out
    obtain ⟨r', site'⟩ := out'
    cases h1 with
    | ok h =>
      subst h
      refine ⟨h2, ?_⟩
      show d'.handles ++ _ = (d.handles ++ _).map _
      rw [hd.handles, List.map_append, List.map_singleton]
    | error => exact ⟨h2, hd.handles⟩
  | release n =>
    simp only [Action.moved, HandleTable.after, hd.handle? n]
    cases d.handles[n]? with
    | none => exact hd
    | some h => exact ⟨(Manager.release_mirrors (some h) _ _ hd.site).2, hd.handles⟩
  | releaseOther h =>
    simp only [Action.moved, HandleTable.after, hd.foreign h]
    split
    · exact ⟨(Manager.release_mirrors h _ _ hd.site).2, hd.handles⟩
    · exact hd
  | use n call =>
    simp only [Action.moved, HandleTable.after, hd.handle? n]
    cases d.handles[n]? with
    | none => exact hd
    | some h => exact ⟨(Manager.send_mirrors h call _ _ hd.site).2, hd.handles⟩
  | command category name args named =>
    exact ⟨(Manager.command_mirrors category name args named _ _ hd.site).2, hd.handles⟩
  | init hosts password options =>
    exact ⟨(Manager.init_mirrors hosts password options _ _ hd.site).2, hd.handles⟩
  | closePool => exact ⟨(Manager.closePool_mirrors _ _ hd.site).2, hd.handles⟩
  | close => exact ⟨(Manager.close_mirrors _ _ hd.site).2, hd.handles⟩
  | answers refusal scripts replies =>
    have hr := hd.site.remote
    refine ⟨⟨hd.site.plan, hd.site.closed, hd.site.facade, rfl, hr.upcoming, hr.opened, ?_, rfl,
      hr.events⟩, hd.handles⟩
    exact fun c => congrArg (fun s : Option ClientScript => s.getD {}) (lookup_movedUp scripts c)

theorem Mirrors.replies (hd : d.Mirrors k old old' d') (actions : List Action) :
    d'.replies (actions.map (Action.moved k)) = (d.replies actions).map (Reply.moved k) ∧
      (actions.foldl HandleTable.after d).Mirrors k old old'
        ((actions.map (Action.moved k)).foldl HandleTable.after d') := by
  induction actions generalizing d d' with
  | nil => exact ⟨rfl, hd⟩
  | cons action actions ih =>
    obtain ⟨h1, h2⟩ := ih (hd.after action)
    refine ⟨?_, h2⟩
    show _ :: _ = _ :: _
    rw [hd.reply action, h1]

end HandleTable

/-! ## Attempts -/

namespace Manager

/-- A manager that is neither closed nor initialized tries to establish the facade. -/
theorem init_open (hosts : String) (password : Value) (options : Options) {s : Site}
    (hc : s.manager.closed = false) (hn : s.manager.facade = none) :
    (init hosts password options).run s =
      match (establish s.manager.plan hosts password options).run s.world with
      | (.error f, w) => (.error f, { s with world := w })
      | (.ok (facade, n), w) => (.ok (),
        { manager := { s.manager with facade := some facade }
          world := w.note
            (.managerInitialized n s.manager.plan.topology s.manager.plan.pooling) }) := by
  obtain ⟨⟨plan, facade, closed, registry⟩, world⟩ := s
  cases hc
  cases hn
  have hi : (init hosts password options).run ⟨⟨plan, none, false, registry⟩, world⟩ =
    (onWorld (establish plan hosts password options) >>= fun a => do
      modify fun s => { s with manager := { s.manager with facade := some a.1 } }
      note (.managerInitialized a.2 plan.topology plan.pooling)).run
      ⟨⟨plan, none, false, registry⟩, world⟩ := rfl
  have hw : (onWorld (establish plan hosts password options)).run
      ⟨⟨plan, none, false, registry⟩, world⟩ =
    (((establish plan hosts password options).run world).1,
      ⟨⟨plan, none, false, registry⟩,
        ((establish plan hosts password options).run world).2⟩) := rfl
  rw [hi, Act.run_bind, hw]
  cases (establish plan hosts password options).run world with
  | mk r w => cases r <;> rfl

/-- What an initialization comes to that is tried: before anything is asked of the world the manager
turns it down, or it establishes the facade. -/
theorem init_run (hosts : String) (password : Value) (options : Options) (s : Site) :
    (∃ f, (init hosts password options).run s = (.error f, s)) ∨
    (s.manager.closed = false ∧ s.manager.facade = none ∧
      (init hosts password options).run s =
        match (establish s.manager.plan hosts password options).run s.world with
        | (.error f, w) => (.error f, { s with world := w })
        | (.ok (facade, n), w) => (.ok (),
          { manager := { s.manager with facade := some facade }
            world := w.note
              (.managerInitialized n s.manager.plan.topology s.manager.plan.pooling) })) := by
  cases hc : s.manager.closed with
  | true =>
    obtain ⟨⟨plan, facade, closed, registry⟩, world⟩ := s
    cases hc
    exact .inl ⟨_, rfl⟩
  | false =>
    cases hn : s.manager.facade with
    | some facade =>
      obtain ⟨⟨plan, facade, closed, registry⟩, world⟩ := s
      cases hc
      cases hn
      exact .inl ⟨_, rfl⟩
    | none => exact .inr ⟨rfl, rfl, init_open hosts password options hc hn⟩

/-- A failing initialization leaves the manager as it was, and closes every client that it opened,
once, if the plan sees to that. -/
theorem init_fails {hosts : String} {password : Value} {options : Options} {s s' : Site} {f : Fault}
    (h : (init hosts password options).run s = (.error f, s')) :
    s'.manager = s.manager ∧ ∃ news, s.world.remote.Becomes news s'.world.remote ∧
      (s.manager.plan.RollsBack → ∀ c, (closedIn news).count c = (openedIn news).count c) := by
  rcases init_run hosts password options s with ⟨g, hr⟩ | ⟨-, -, hr⟩
  · cases h.symm.trans hr
    exact ⟨rfl, [], .refl _, fun _ _ => rfl⟩
  · obtain ⟨news, hb, he⟩ := @establish_tells s.manager.plan hosts password options s.world
    rw [hr] at h
    generalize (establish s.manager.plan hosts password options).run s.world = out at h hb he
    obtain ⟨r, w⟩ := out
    cases r with
    | ok a => cases h
    | error g =>
      cases h
      cases he with
      | failed hc => exact ⟨rfl, news, hb, hc⟩

end Manager
end RedisGateway
