import LazyHub.Proofs.Delivery.Turns
import LazyHub.Proofs.Session.Operations

/-!
# What a read and a subscription can come to

A request fails only because a provider refuses a call or a payload cannot be decoded
(`stemsFrom_of_fulfil`). Whether a pull does is up to the provider's current payload (`pull_eq`), and so it
is for a subscription that activates its feed (`activate_eq`). A subscription that does not fail leaves the
provider with a callback (`isRegistered_of_subscribed`).

The values that a hub knows are the same before and after what happens at a site, if the outlets are
(`cached?_after`).
-/

namespace LazyHub

variable {V H R X : Type}

/-- What fails is what the answer says has failed. -/
theorem Answer.failed_of_toExcept {α : Type} {a : Answer} {b : α} {failure : HubFailure}
    (failed : (a.toExcept.map fun _ => b) = .error failure) : a = .failed failure := by
  cases a with
  | failed =>
    cases failed
    rfl
  | done | unknownToken => cases failed

/-- A failure for which the provider of a kind is to blame, or what it says. -/
inductive HubFailure.StemsFrom (kind : Kind) : HubFailure → Prop where
  /-- The provider refused a query. -/
  | query (failure : ProviderFailure) : StemsFrom kind (.queryFailed kind failure)
  /-- The provider refused a registration. -/
  | register (failure : ProviderFailure) : StemsFrom kind (.registerFailed kind failure)
  /-- The payload cannot be decoded. -/
  | decode (failure : DecodeFailure) : StemsFrom kind (.decodeFailed kind failure)

namespace Site

variable {thread : Thread} {x : Site V H R} {failure : HubFailure} {o : Answer × Site V H R}
  {next : Site V H R → Answer × Site V H R}

/-- What goes on fails where it began, or further on. -/
theorem thenDo_failed (failed : (thenDo o next).1 = .failed failure) : o.1 = .failed failure ∨ (next o.2).1 = .failed failure := by
  obtain ⟨answer, y⟩ := o
  cases answer with
  | failed => exact .inl failed
  | done | unknownToken => exact .inr failed

/-- What does not fail in the end did not fail before, and went on. -/
theorem thenDo_unfailed (unfailed : ∀ failure, (thenDo o next).1 ≠ .failed failure) :
    (∀ failure, o.1 ≠ .failed failure) ∧ thenDo o next = next o.2 := by
  obtain ⟨answer, y⟩ := o
  cases answer with
  | failed failure => exact absurd rfl (unfailed failure)
  | done | unknownToken => exact ⟨nofun, rfl⟩

/-- What does not change whether or not one goes on. -/
theorem thenDo_keeps {α : Type} {g : Site V H R → α} (same : g (next o.2).2 = g o.2) : g (thenDo o next).2 = g o.2 := by
  obtain ⟨answer, y⟩ := o
  cases answer with
  | failed => rfl
  | done | unknownToken => exact same

/-- A registration fails only because the provider refuses it. -/
theorem refused_of_register (failed : x.register.1 = .failed failure) : ∃ refusal, failure = .registerFailed x.feed.kind refusal := by
  unfold register at failed
  dsimp only at failed
  split at failed <;> cases failed
  exact ⟨_, rfl⟩

theorem refused_of_complete {purpose : Purpose H} (failed : (x.complete purpose).1 = .failed failure) :
    ∃ refusal, failure = .registerFailed x.feed.kind refusal := by
  cases purpose with
  | refresh => cases failed
  | activate => exact refused_of_register failed
  | subscribe signal token handler =>
    rcases thenDo_failed failed with failed | failed
    · exact refused_of_register failed
    · cases failed

theorem withdraw_fst (x : Site V H R) : (x.withdraw thread).1 = .done := by
  unfold withdraw
  split <;> rfl

/-- A registration does not change what is known. -/
theorem outlets_register (x : Site V H R) : x.register.2.feed.outlets = x.feed.outlets := by
  unfold register
  dsimp only
  split <;> rfl

theorem cached?_complete (purpose : Purpose H) (signal : SignalId) :
    (x.complete purpose).2.feed.cached? signal = x.feed.cached? signal := by
  have registered : x.register.2.feed.cached? signal = x.feed.cached? signal := by
    rw [Feed.cached?, Feed.outlet?, outlets_register]
    rfl
  cases purpose with
  | refresh => rfl
  | activate => exact registered
  | subscribe s token handler =>
    exact (thenDo_keeps (g := fun y => y.feed.cached? signal) (Feed.cached?_attach _ s token handler signal)).trans registered

/-- A provider whose callback is installed is registered. -/
theorem isRegistered_register (unfailed : ∀ failure, x.register.1 ≠ .failed failure) :
    x.register.2.source.provider.isRegistered := by
  have installed : (x.source.provider.register x.feed.epoch).2.isRegistered := by
    cases accepted : (x.source.provider.register x.feed.epoch).1 with
    | error failure => exact absurd (by simp only [register, accepted]) (unfailed (.registerFailed x.feed.kind failure))
    | ok registration =>
      cases before : x.source.provider.callback with
      | none =>
        rcases LocalProvider.register_of_none before x.feed.epoch with ⟨failure, refused, -⟩ | ⟨other, -, installed⟩
        · cases refused.symm.trans accepted
        · rw [LocalProvider.isRegistered, installed]
          rfl
      | some old =>
        obtain ⟨failure, refuses⟩ := LocalProvider.register_of_some before
        cases (refuses _).1.symm.trans accepted
  unfold register
  dsimp only
  split <;> exact installed

theorem isRegistered_complete {purpose : Purpose H} (registers : purpose ≠ .refresh)
    (unfailed : ∀ failure, (x.complete purpose).1 ≠ .failed failure) : (x.complete purpose).2.source.provider.isRegistered := by
  cases purpose with
  | refresh => exact absurd rfl registers
  | activate => exact isRegistered_register unfailed
  | subscribe signal token handler =>
    obtain ⟨unfailed, went⟩ := thenDo_unfailed unfailed
    rw [complete, went]
    exact isRegistered_register unfailed

variable [SignalValue V] {dec : R → Except DecodeFailure (Emissions V)}

/-! ### Pulls -/

/-- The provider after a pull that it answers. -/
def queried (x : Site V H R) : Source R := { x.source with provider := x.source.provider.query.2.takeBack }

/-- **A pull** comes to what the provider's current payload is decoded to. -/
theorem pull_eq (dec : R → Except DecodeFailure (Emissions V)) (unrefused : x.source.provider.refuseQuery = none) :
    x.pull dec = match x.feed.admissible (dec x.source.provider.current) with
      | .error failure => (.failed (.decodeFailed x.feed.kind failure), { x with source := x.queried })
      | .ok values => (.done, { feed := x.feed.written values, source := x.queried }) := by
  have answer : x.source.provider.query.1 = .ok x.source.provider.current := by simp [LocalProvider.query, unrefused]
  simp only [pull, answer]
  cases x.feed.admissible (dec x.source.provider.current) <;> rfl

theorem stemsFrom_of_pull (failed : (x.pull dec).1 = .failed failure) : failure.StemsFrom x.feed.kind := by
  unfold pull at failed
  dsimp only at failed
  split at failed
  · cases failed
    exact .query _
  · split at failed <;> cases failed
    exact .decode _

theorem kind_pull : (x.pull dec).2.feed.kind = x.feed.kind := by
  unfold pull
  dsimp only
  split
  · rfl
  · split
    · rfl
    · dsimp only
      rw [Feed.written_eq]

/-! ### Activations -/

/-- A site whose feed begins an activation. -/
def risen (x : Site V H R) : Site V H R := { x with feed := { x.feed with epoch := x.feed.epoch + 1 } }

/-- **An activation** comes to what the provider's current payload is decoded to, as far as its pull is concerned. -/
theorem activate_eq (dec : R → Except DecodeFailure (Emissions V)) (unrefused : x.source.provider.refuseQuery = none)
    (purpose : Purpose H) :
    x.activate dec purpose = match x.feed.admissible (dec x.source.provider.current) with
      | .error failure => (.failed (.decodeFailed x.feed.kind failure), { x.risen with source := x.queried })
      | .ok values => Site.complete { feed := x.risen.feed.written values, source := x.queried } purpose := by
  have same : x.risen.feed.admissible (dec x.source.provider.current) = x.feed.admissible (dec x.source.provider.current) :=
    Feed.admissible_of_outlets (f := x.feed) (g := x.risen.feed) rfl _
  have pulls := pull_eq dec (x := x.risen) unrefused
  rw [activate]
  change thenDo (x.risen.pull dec) _ = _
  rw [pulls]
  change (thenDo (match x.risen.feed.admissible (dec x.source.provider.current) with | .error failure => _ | .ok values => _) _) = _
  rw [same]
  cases x.feed.admissible (dec x.source.provider.current) <;> rfl

theorem stemsFrom_of_activate {purpose : Purpose H} (failed : (x.activate dec purpose).1 = .failed failure) :
    failure.StemsFrom x.feed.kind := by
  rcases thenDo_failed failed with failed | failed
  · exact stemsFrom_of_pull (x := x.risen) failed
  · obtain ⟨refusal, rfl⟩ := refused_of_complete failed
    rw [kind_pull]
    exact .register refusal

/-! ### Requests -/

/-- **A request fails only on account of its feed's provider.** -/
theorem stemsFrom_of_fulfil {request : FeedRequest H} (failed : (x.fulfil dec thread request).1 = .failed failure) :
    failure.StemsFrom x.feed.kind := by
  cases request with
  | activate | subscribe =>
    simp only [fulfil] at failed
    split at failed
    · cases failed
    · exact stemsFrom_of_activate failed
  | refresh =>
    simp only [fulfil] at failed
    split at failed
    · cases failed
    · exact stemsFrom_of_pull failed
  | deactivate => cases (withdraw_fst x).symm.trans failed
  | shutdown => cases (withdraw_fst _).symm.trans failed
  | unsubscribe signal token =>
    simp only [fulfil] at failed
    split at failed
    · split at failed
      · cases (withdraw_fst _).symm.trans failed
      · cases failed
    · cases failed

/-- **Whoever is subscribed has a provider that is registered.** -/
theorem isRegistered_of_subscribed (agreed : x.IsAgreed) {signal : SignalId} {token : Token} {handler : H}
    (unfailed : ∀ failure, (x.fulfil dec thread (.subscribe signal token handler)).1 ≠ .failed failure) :
    (x.fulfil dec thread (.subscribe signal token handler)).2.source.provider.isRegistered := by
  by_cases active : x.feed.isActive = true
  · obtain ⟨registration, held⟩ := Option.isSome_iff_exists.1 active
    simp only [fulfil, active, if_true, LocalProvider.isRegistered, agreed.active registration held, Option.isSome_some]
  · rw [fulfil, if_neg active] at unfailed ⊢
    obtain ⟨-, went⟩ := thenDo_unfailed unfailed
    rw [activate, went] at unfailed ⊢
    exact isRegistered_complete (fun same => by cases same) unfailed

/-- **The first subscription** to a feed whose provider has no callback and refuses nothing. -/
theorem exists_subscribed (thread : Thread) (inactive : x.feed.registration = none) (vacant : x.source.provider.callback = none)
    (unrefused : x.source.provider.refuseQuery = none) (accepts : x.source.provider.refuseRegister = none)
    {values : List (Emission V)} (admitted : x.feed.admissible (dec x.source.provider.current) = .ok values)
    (signal : SignalId) (token : Token) (handler : H) :
    ∃ y, x.fulfil dec thread (.subscribe signal token handler) = (.done, y) ∧ y.IsAgreed ∧ y.feed.isActive = true ∧
      y.feed.outlets = ((x.feed.written values).attach signal token handler).outlets := by
  have idle : x.feed.isActive = false := by rw [Feed.isActive, inactive, Option.isSome_none]
  have vacant' : x.queried.provider.callback = none := by
    refine Eq.trans ?_ vacant
    exact LocalProvider.callback_query x.source.provider
  have accepts' : x.queried.provider.refuseRegister = none := by
    refine Eq.trans ?_ accepts
    simp [queried, LocalProvider.query, LocalProvider.takeBack, unrefused]
  have registers : ∀ epoch, x.queried.provider.register epoch = (.ok ⟨x.queried.provider.nextRegistration⟩,
      { x.queried.provider with
        registers := x.queried.provider.registers + 1
        callback := some (⟨x.queried.provider.nextRegistration⟩, epoch)
        nextRegistration := x.queried.provider.nextRegistration + 1 }) := fun epoch => by
    simp only [LocalProvider.register, accepts', vacant']
  have activates := activate_eq dec unrefused (.subscribe signal token handler)
  rw [admitted] at activates
  dsimp only at activates
  simp only [complete, register, registers, thenDo] at activates
  have fulfils : x.fulfil dec thread (.subscribe signal token handler) = x.activate dec (.subscribe signal token handler) := by
    simp only [fulfil, idle, Bool.false_eq_true, if_false]
  rw [fulfils, activates]
  refine ⟨_, rfl, ⟨?_, fun inactive => by cases inactive⟩, rfl, ?_⟩
  · rintro registration ⟨⟩
    rfl
  · have same : (x.risen.feed.written values).outlets = (x.feed.written values).outlets :=
      Feed.written_congr (f := x.feed) (g := x.risen.feed) rfl values
    simp only [Feed.attach, Feed.modifyOutlet, same]

/-! ### Pushes -/

/-- A provider that is told something may take a payload back, and nothing else happens to it. -/
theorem source_receive (dec : R → Except DecodeFailure (Emissions V)) (payload : R) :
    (x.receive dec payload).1.source = x.source ∨
    (x.receive dec payload).1.source = { x.source with provider := x.source.provider.takeBack } := by
  unfold receive
  split
  · exact .inl rfl
  · exact .inr rfl

/-- **A push through the callback of an active feed** is written, and owed to subscribers, if it is decoded. -/
theorem receive_of_active {payload : R} {values : List (Emission V)} (agreed : x.IsAgreed) (active : x.feed.isActive = true)
    (admitted : x.feed.admissible (dec payload) = .ok values) :
    x.receive dec payload =
      (⟨({ x.feed with pushCount := x.feed.pushCount + 1 } : Feed V H R).written values,
        { x.source with provider := x.source.provider.takeBack }⟩, x.feed.owes values) := by
  obtain ⟨registration, held⟩ := Option.isSome_iff_exists.1 active
  have callback : x.source.provider.callback? = some x.feed.epoch := by
    rw [LocalProvider.callback?, agreed.active registration held, Option.map_some]
  let f : Feed V H R := { x.feed with pushCount := x.feed.pushCount + 1 }
  have admitted' : f.admissible (dec payload) = .ok values := (Feed.admissible_of_outlets (f := x.feed) (g := f) rfl _).trans admitted
  have owes : f.owes values = x.feed.owes values := Feed.owes_congr (f := x.feed) (g := f) rfl values
  have received : f.received x.feed.epoch (dec payload) = (f.written values, x.feed.owes values) := by
    rw [Feed.received, admitted', ← owes]
    exact if_pos rfl
  simp only [receive, callback]
  exact Prod.ext (Site.ext (congrArg Prod.fst received :) rfl) (congrArg Prod.snd received :)

/-- **A push to an inactive feed, or one that cannot be decoded,** is counted if it gets to the feed at all. -/
theorem receive_of_idle (dec : R → Except DecodeFailure (Emissions V)) (payload : R) (agreed : x.IsAgreed)
    (idle : x.feed.isActive = false ∨ ∃ failure, x.feed.admissible (dec payload) = .error failure) :
    (∃ n, (x.receive dec payload).1.feed = { x.feed with pushCount := n }) ∧ (x.receive dec payload).2 = [] := by
  unfold receive
  split
  · exact ⟨⟨x.feed.pushCount, rfl⟩, rfl⟩
  · rename_i epoch callback
    let f : Feed V H R := { x.feed with pushCount := x.feed.pushCount + 1 }
    have same : f.admissible (dec payload) = x.feed.admissible (dec payload) :=
      Feed.admissible_of_outlets (f := x.feed) (g := f) rfl _
    have unused : f.received epoch (dec payload) = (f, []) := by
      rw [Feed.received, same]
      rcases idle with inactive | ⟨failure, refused⟩
      · obtain ⟨installed, there, rfl⟩ := Option.map_eq_some_iff.1 callback
        have none : x.feed.registration = none := Option.isNone_iff_eq_none.1 (by simpa [Feed.isActive] using inactive)
        have stale : installed.2 ≠ f.epoch := Nat.ne_of_lt (agreed.inactive none installed there)
        split
        · rfl
        · rw [if_neg stale]
      · rw [refused]
    exact ⟨⟨x.feed.pushCount + 1, congrArg Prod.fst unused⟩, congrArg Prod.snd unused⟩

end Site

/-! ### Worlds -/

namespace World

variable {w : World V H R} {i : Nat} {x y : Site V H R}

/-- A world that was just assembled is still. -/
theorem isStill_of_assemble {settings : Settings} {plans : List (FeedPlan V × R)} (assembled : assemble settings plans = .ok w) :
    w.IsStill := by
  obtain ⟨-, eq⟩ := Hub.eq_of_assemble (hub_of_assemble assembled)
  have planned : ∀ f ∈ w.hub.feeds, f.holder = none ∧ f.pushes = [] := by
    rw [eq]
    intro f mem
    obtain ⟨plan, -, rfl⟩ := List.mem_map.1 mem
    exact ⟨rfl, rfl⟩
  exact
    { held := ⟨1, congrArg Hub.life eq⟩
      undrawn := congrArg Hub.requests eq
      free := fun f mem => (planned f mem).1
      pushless := fun f mem => (planned f mem).2 }

theorem queue_of_assemble {settings : Settings} {plans : List (FeedPlan V × R)} (assembled : assemble settings plans = .ok w)
    (k : Nat) : w.hub.pool.queue k = [] := by
  rw [(Hub.eq_of_assemble (hub_of_assemble assembled)).2]
  exact WorkerPool.queue_ofSize _ _ k

theorem isReady_of_assemble {settings : Settings} {plans : List (FeedPlan V × R)} (assembled : assemble settings plans = .ok w) :
    w.hub.pool.IsReady := by
  rw [(Hub.eq_of_assemble (hub_of_assemble assembled)).2]
  exact WorkerPool.isReady_ofSize _ _

/-- What a hub knows of its signals stays the same where a site's outlets do. -/
theorem cached?_after {owed : List (Emission V)} (at' : w.HasSite i x) (kind : y.feed.kind = x.feed.kind)
    (outlets : y.feed.outlets = x.feed.outlets) (signal : SignalId) :
    (w.after i y owed).hub.cached? signal = w.hub.cached? signal := by
  -- the outlets of a hub are those of its feeds, each with its feed's number and kind
  have listed : ∀ h : Hub V H R, h.outlets =
      (h.feeds.map fun f => (f.kind, f.outlets)).zipIdx.flatMap fun p => p.1.2.map fun o => (p.2, p.1.1, o) := fun h => by
    rw [List.zipIdx_map, List.flatMap_map]
    rfl
  have same : (w.hub.feeds.set i y.feed).map (fun f => (f.kind, f.outlets)) = w.hub.feeds.map fun f => (f.kind, f.outlets) := by
    rw [List.map_set, set_of_getElem?]
    rw [List.getElem?_map, at'.feed, Option.map_some, kind, outlets]
  rw [Hub.cached?, Hub.find?, listed, World.after, same, ← listed]
  rfl

end World

end LazyHub
