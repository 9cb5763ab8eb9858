import LazyHub.Proofs.Session.Renewal
import LazyHub.Proofs.Session.Separation
import LazyHub.Proofs.World.Faith

/-!
# A shutdown starts over

After a shutdown nobody is subscribed, no feed is active, and no provider has a callback, provided that none of them
ever refused to end a registration. What the hub keeps of its history are its feeds' last known values, their epochs
and the number of the next token. Nothing of that shows but the values: the world is a new one over the same providers
in later days, whose signals begin with these values (`World.later_of_idle`), and goes on like it, whoever is at work in
it (`World.IsIdle.goesOnLike`). Whatever script is played then has the scenes that it has at the new hub
(`Session.shutdown_starts_over`). Tokens that were drawn before the shutdown are of no use, and another shutdown
changes nothing.
-/

namespace LazyHub

variable {V H R : Type}

/-- The plan of a feed whose signals begin with the values that are known now. -/
def Feed.planNow (f : Feed V H R) : FeedPlan V := ⟨f.kind, f.outlets.map fun o => ⟨o.key, o.gate.value⟩⟩

namespace Site

/-- Nobody is subscribed at a site, and the provider has not been given a callback. -/
structure IsIdle (x : Site V H R) : Prop where
  /-- The feed is not active. -/
  inactive : x.feed.registration = none
  /-- No subscription is counted. -/
  uncounted : x.feed.subscriptionCount = 0
  /-- Nobody is subscribed to any signal. -/
  unwatched : ∀ o ∈ x.feed.outlets, o.subscribers = .empty
  /-- The provider has no callback. -/
  uncalled : x.source.provider.callback = none

section Shut

variable (thread : Thread) (x : Site V H R)

theorem outlets_shut : (x.shut thread).feed.outlets = x.feed.outlets.map Outlet.wiped := by
  unfold shut withdraw
  split <;> rfl

theorem kind_shut : (x.shut thread).feed.kind = x.feed.kind := by
  unfold shut withdraw
  split <;> rfl

theorem registration_shut : (x.shut thread).feed.registration = none := by
  unfold shut withdraw
  split
  · assumption
  · rfl

theorem subscriptionCount_shut : (x.shut thread).feed.subscriptionCount = 0 := by
  unfold shut withdraw
  split <;> rfl

theorem planNow_shut : (x.shut thread).feed.planNow = x.feed.planNow := by
  rw [Feed.planNow, kind_shut, outlets_shut, List.map_map]
  rfl

variable {x}

/-- A provider that ends the registration has no callback then. -/
theorem callback_shut (agreed : x.IsAgreed) (complies : x.feed.isActive = true → x.source.provider.refuseUnregister = none)
    (ended : x.feed.registration = none → x.source.provider.callback = none) : (x.shut thread).source.provider.callback = none := by
  unfold shut withdraw
  cases active : x.feed.registration with
  | none =>
    have inactive : x.feed.cleared.registration = none := active
    rw [inactive]
    exact ended active
  | some registration =>
    have active' : x.feed.cleared.registration = some registration := active
    have willing := complies (by rw [Feed.isActive, active]; rfl)
    rw [active']
    simp [LocalProvider.unregister, agreed.active registration active, willing]

/-- **A site is idle once it is shut.** -/
theorem isIdle_shut (agreed : x.IsAgreed) (complies : x.feed.isActive = true → x.source.provider.refuseUnregister = none)
    (ended : x.feed.registration = none → x.source.provider.callback = none) : (x.shut thread).IsIdle where
  inactive := registration_shut thread x
  uncounted := subscriptionCount_shut thread x
  unwatched o mem := by
    rw [outlets_shut] at mem
    obtain ⟨p, -, rfl⟩ := List.mem_map.1 mem
    rfl
  uncalled := callback_shut thread agreed complies ended

/-- Nothing happens to an idle site that is shut. -/
theorem IsIdle.shut_eq (idle : x.IsIdle) : x.shut thread = x := by
  have cleared : x.feed.cleared = x.feed := by
    have outlets : x.feed.outlets.map Outlet.wiped = x.feed.outlets := by
      refine (List.map_congr_left fun o mem => ?_).trans (List.map_id _)
      rw [Outlet.wiped, ← idle.unwatched o mem]
      rfl
    rw [Feed.cleared, outlets, ← idle.uncounted]
  rw [shut, cleared, withdraw]
  simp only [idle.inactive]

/-- **An idle site is like a new one** over the same provider whose signals begin with the known values. -/
theorem IsIdle.resembles (idle : x.IsIdle) (τ : ℕ ↪o ℕ) :
    Resembles τ x.feed.epoch ⟨.ofPlan x.feed.planNow, x.source⟩ x where
  kind := rfl
  outlets := by
    rw [Feed.ofPlan, Feed.planNow, List.map_map, List.map_map]
    refine (List.map_id _).symm.trans (List.map_congr_left fun o mem => ?_)
    have unwatched := idle.unwatched o mem
    obtain ⟨key, gate, subscribers⟩ := o
    obtain rfl : subscribers = .empty := unwatched
    rfl
  registration := idle.inactive
  count := idle.uncounted
  epoch := (Nat.zero_add _).symm
  provider := by
    rw [LocalProvider.map, idle.uncalled, Option.map_none, ← idle.uncalled]

end Shut

end Site

/-! ### Worlds in which everything is idle -/

/-- Nothing is under way in a world, and nothing waits to be told. -/
structure World.IsSettled (w : World V H R) : Prop where
  /-- No operation is under way. -/
  still : w.IsStill
  /-- No worker is telling anything. -/
  idle : ∀ k, w.hub.pool.current? k = none
  /-- Nothing waits for a worker. -/
  drained : ∀ k, w.hub.pool.queue k = []
  /-- No flush is under way. -/
  unflushed : w.hub.pool.flushes = []

/-- Every site is idle. -/
def World.IsIdle (w : World V H R) : Prop := ∀ i x, w.HasSite i x → x.IsIdle

variable [SignalValue V] {settings settings' : Settings} {plans : List (FeedPlan V)} {v w : World V H R}

omit [SignalValue V] in
theorem World.IsIdle.unwatched (idle : v.IsIdle) (sited : v.hub.feeds.length ≤ v.sources.length) {i : Nat} {f : Feed V H R}
    {signal : SignalId} {o : Outlet V H} (there : v.hub.feeds[i]? = some f) (known : f.outlet? signal = some o) :
    o.subscribers = .empty := by
  have lt := Nat.lt_of_lt_of_le (List.getElem?_eq_some_iff.1 there).1 sited
  exact (idle i ⟨f, v.sources[i]⟩ ⟨there, List.getElem?_eq_getElem lt⟩).unwatched o (Feed.mem_of_outlet? known)

omit [SignalValue V] in
theorem World.IsIdle.subscribersOf (idle : v.IsIdle) (sited : v.hub.feeds.length ≤ v.sources.length) (i : Nat) (signal : SignalId) :
    v.hub.subscribersOf i signal = [] := by
  refine List.eq_nil_iff_forall_not_mem.2 fun e mem => ?_
  obtain ⟨f, there, o, known, listed⟩ := Hub.mem_subscribersOf.1 mem
  rw [idle.unwatched sited there known] at listed
  cases listed

omit [SignalValue V] in
theorem World.IsIdle.subscriberCount (idle : v.IsIdle) (sited : v.hub.feeds.length ≤ v.sources.length) (signal : SignalId) :
    v.hub.subscriberCount signal = 0 := by
  unfold Hub.subscriberCount
  cases found : v.hub.find? signal with
  | none => rfl
  | some e =>
    obtain ⟨i, kind, o⟩ := e
    obtain ⟨f, there, known⟩ := Hub.outlet?_of_find? found
    exact congrArg Subscribers.size (idle.unwatched sited there known)

/-- Where everything is idle, all the tokens that were drawn have lapsed. -/
theorem World.IsIdle.lapsed (idle : v.IsIdle) (calm : v.IsCalm settings plans) {token : Token} (old : token.serial < v.hub.nextToken) :
    v.hub.Lapsed token := by
  refine ⟨⟨old, ?_⟩, fun i signal handler mem => ?_⟩
  · rintro (⟨q, mem, -⟩ | ⟨f, mem, awaits⟩)
    · rw [calm.undrawn] at mem
      cases mem
    · obtain ⟨i, there⟩ := List.mem_iff_getElem?.1 mem
      obtain ⟨y, has⟩ := calm.exists_site (List.getElem?_eq_some_iff.1 there).1
      obtain rfl := Option.some.inj (has.feed.symm.trans there)
      simp [Feed.awaited?, Feed.pull?, (calm.rest i y has).free] at awaits
  · rw [idle.subscribersOf calm.sited] at mem
    cases mem

/-- Whoever can assemble a hub can assemble it once more, whatever is known of its signals then. -/
theorem Hub.exists_assemble_again {g : Hub V H R} (reachable : Hub.Reachable settings plans g) :
    ∃ h : Hub V H R, Hub.assemble settings (g.feeds.map Feed.planNow) = .ok h := by
  have once : ∃ h : Hub V H R, Hub.assemble settings plans = .ok h := by
    induction reachable with
    | assembled start => exact ⟨_, start⟩
    | step _ _ _ ih => exact ih
  have keyed : ∀ ps : List (FeedPlan V), declared ps = (ps.map fun p => p.signals.map (·.key)).flatten.map (·.id) := fun ps => by
    simp [declared, List.flatMap, List.map_flatten, Function.comp_def]
  have same : declared (g.feeds.map Feed.planNow) = declared plans := by
    rw [keyed, keyed, ← reachable.keys_eq, List.map_map]
    simp [Feed.planNow, Feed.keys, Function.comp_def]
  obtain ⟨h, assembled⟩ := once
  have distinct := (Hub.eq_of_assemble assembled).1
  unfold assemble at assembled ⊢
  rw [same]
  rw [distinct] at assembled ⊢
  cases runs : settings.requireRuntime with
  | error => rw [runs] at assembled; cases assembled
  | ok => exact ⟨_, rfl⟩

theorem Hub.Reachable.nextToken_pos {g : Hub V H R} (reachable : Hub.Reachable settings plans g) : 0 < g.nextToken := by
  induction reachable with
  | assembled start => rw [(Hub.eq_of_assemble start).2]; exact Nat.one_pos
  | step _ _ made ih => exact Nat.lt_of_lt_of_le ih (Hub.transition_of_step made).nextToken_le

/-- **Where everything is idle it is as if the hub were new.** -/
theorem Session.tied_of_idle {journal : List Entry} (steady : Steady settings plans [] { opening v with journal })
    (drained : ∀ k, v.hub.pool.queue k = []) (idle : v.IsIdle) {h : Hub V H R} (assembled : Hub.assemble settings' (v.hub.feeds.map Feed.planNow) = .ok h) :
    Tied (fun _ => true) (fun token => token.serial < v.hub.nextToken) h (fun i => (v.hub.feeds[i]?.map (·.epoch)).getD 0)
      settings' settings (v.hub.feeds.map Feed.planNow) plans [] [] (opening ⟨h, v.sources⟩) { opening v with journal } := by
  obtain ⟨-, hub⟩ := Hub.eq_of_assemble assembled
  have calm := steady.calm
  have sited : v.hub.feeds.length ≤ v.sources.length := calm.sited
  -- each site of the new hub has a site of the old one in its place
  have site : ∀ i x, (⟨h, v.sources⟩ : World V H R).HasSite i x →
      ∃ y, v.HasSite i y ∧ x = ⟨.ofPlan y.feed.planNow, y.source⟩ := by
    rintro i ⟨f, source⟩ ⟨feed, there⟩
    rw [hub, List.map_map, List.getElem?_map] at feed
    obtain ⟨g, old, rfl⟩ := Option.map_eq_some_iff.1 feed
    exact ⟨⟨g, source⟩, ⟨old, there⟩, rfl⟩
  have keys : v.hub.feeds.map Feed.keys = h.feeds.map Feed.keys := by
    rw [hub, List.map_map, List.map_map]
    simp [Feed.planNow, Feed.keys, Feed.ofPlan, Function.comp_def]
  have empty : ∀ k, h.pool.queue k = [] := fun k => by
    rw [hub]
    exact WorkerPool.queue_ofSize _ _ k
  have first : h.nextToken = 1 := by rw [hub]
  have later := calm.reachable.nextToken_pos
  have mirrors : Mirrors (fun _ => true) (fun token => token.serial < v.hub.nextToken) h
      (fun i => (v.hub.feeds[i]?.map (·.epoch)).getD 0) (shift (v.hub.nextToken - 1)) [] [] (opening ⟨h, v.sources⟩)
      { opening v with journal } := by
    refine ⟨rfl, fun i x _ has => ?_, fun i signal _ => ?_, fun i signal _ _ => rfl, rfl, fun n => ?_, fun token old =>
      idle.lapsed calm old⟩
    · obtain ⟨y, there, rfl⟩ := site i x has
      refine ⟨y, there, ?_⟩
      rw [there.feed]
      exact (idle i y there).resembles _
    · exact (Hub.waiting_of_drained drained i signal).trans (Hub.waiting_of_drained empty i signal).symm
    · change h.nextToken + n + (v.hub.nextToken - 1) = v.hub.nextToken + n
      change 0 < v.hub.nextToken at later
      omega
  refine ⟨⟨_, mirrors⟩, ⟨⟨.assembled assembled, ⟨1, by rw [opening, hub]⟩, by rw [opening, hub], ?_, fun i x has => ?_⟩, ?_, ?_,
    List.forall_mem_nil _, List.forall_mem_nil _⟩, steady, rfl, keys⟩
  · change h.feeds.length ≤ v.sources.length
    rw [hub]
    simpa using sited
  · obtain ⟨y, there, rfl⟩ := site i x has
    refine ⟨rfl, rfl, rfl, Nat.one_ne_zero, rfl, (calm.rest i y there).silent, fun epoch known => ?_⟩
    have uncalled := (idle i y there).uncalled
    rw [LocalProvider.callback?, uncalled] at known
    cases known
  · rw [opening, hub]
    exact WorkerPool.isReady_ofSize _ _
  · rw [opening, hub]
    rfl

/-! ### Idle worlds are new ones in later days -/

/-- What is over in a hub that has been in use. -/
def Hub.bygones (h : Hub V H R) : Bygones where
  tokens := h.nextToken - 1
  epochs i := (h.feeds[i]?.map (·.epoch)).getD 0
  pushes i := (h.feeds[i]?.map (·.pushCount)).getD 0
  callbacks i := (h.feeds[i]?.map (·.callbacks)).getD []
  flushes := h.pool.flushCount

omit [SignalValue V] in
theorem Hub.bygones_at {h : Hub V H R} {i : ℕ} {f : Feed V H R} (there : h.feeds[i]? = some f) :
    h.bygones.epochs i = f.epoch ∧ h.bygones.pushes i = f.pushCount ∧ h.bygones.callbacks i = f.callbacks := by
  simp [bygones, there]

omit [SignalValue V] in
/-- **An idle feed is a new one in later days.** -/
theorem Site.IsIdle.later_planNow {b : Bygones} {i : ℕ} {x : Site V H R} (idle : x.IsIdle) (rest : x.IsAtRest)
    (handles : x.feed.handles = 1) (epoch : b.epochs i = x.feed.epoch) (pushes : b.pushes i = x.feed.pushCount)
    (callbacks : b.callbacks i = x.feed.callbacks) : (Feed.ofPlan x.feed.planNow).later b i = x.feed := by
  have outlets := (idle.resembles (shift b.tokens)).outlets
  obtain ⟨⟨kind, os, registration, count, e, holder, writer, ps, n, cs, hs, retiring⟩, source⟩ := x
  obtain rfl : registration = none := idle.inactive
  obtain rfl : count = 0 := idle.uncounted
  obtain rfl : holder = none := rest.free
  obtain rfl : writer = none := rest.unwritten
  obtain rfl : ps = [] := rest.pushless
  obtain rfl : hs = 1 := handles
  obtain rfl : retiring = false := rest.unretired
  refine (Feed.mk.injEq ..).mpr ⟨rfl, outlets.symm, rfl, rfl, ?_, rfl, rfl, rfl, ?_, ?_, rfl, rfl⟩
  · exact (Nat.zero_add _).trans epoch
  · exact (Nat.zero_add _).trans pushes
  · exact (List.append_nil _).trans callbacks

omit [SignalValue V] in
/-- Workers that have nothing to do are new ones. -/
theorem WorkerPool.IsReady.eq_ofSize {J D : Type} {p : WorkerPool J D} (ready : p.IsReady) (drained : ∀ k, p.queue k = [])
    (unflushed : p.flushes = []) : p = (ofSize p.size p.catches).seasoned p.flushCount := by
  have new : p.workers = List.replicate p.size {} := by
    refine List.eq_replicate_iff.2 ⟨rfl, fun x mem => ?_⟩
    obtain ⟨k, there⟩ := List.mem_iff_getElem?.1 mem
    have serving := ready.serving k (List.getElem?_eq_some_iff.1 there).1
    have idle := ready.idle k
    have drained := drained k
    rw [isServing, there] at serving
    rw [current?, there] at idle
    rw [queue, there] at drained
    exact (Worker.mk.injEq ..).mpr ⟨drained, idle, serving⟩
  refine (WorkerPool.mk.injEq ..).mpr ⟨?_, rfl, ?_, (Nat.zero_add _).symm⟩
  · rw [new, ofSize, List.map_replicate]
    rfl
  · exact unflushed

/-- **A world in which everything is idle is a new one in later days**, over the same providers, whose signals begin with
the values that are known. -/
theorem World.later_of_idle (calm : v.IsCalm settings plans) (ready : v.hub.pool.IsReady) (drained : ∀ k, v.hub.pool.queue k = [])
    (unflushed : v.hub.pool.flushes = []) (idle : v.IsIdle) {h : Hub V H R}
    (assembled : Hub.assemble settings (v.hub.feeds.map Feed.planNow) = .ok h) :
    (⟨{ h with life := v.hub.life }, v.sources⟩ : World V H R).later v.hub.bygones = v := by
  obtain ⟨-, rfl⟩ := Hub.eq_of_assemble assembled
  obtain ⟨n, held⟩ := calm.held
  have owned := (Hub.owns_of_held held).1 calm.reachable.sound.owns
  refine (World.mk.injEq ..).mpr ⟨(Hub.mk.injEq ..).mpr ⟨List.ext_getElem? fun i => ?_, ?_, ?_, calm.undrawn.symm, rfl⟩,
    List.ext_getElem? fun i => ?_⟩
  · refine (Hub.getElem?_later _ i).trans ?_
    rw [List.getElem?_map, List.getElem?_map]
    rcases Nat.lt_or_ge i v.hub.feeds.length with lt | le
    · obtain ⟨x, has⟩ := calm.exists_site lt
      obtain ⟨epoch, pushes, callbacks⟩ := Hub.bygones_at has.feed
      rw [has.feed]
      exact congrArg some ((idle i x has).later_planNow (calm.rest i x has) (owned _ (List.mem_of_getElem? has.feed)) epoch
        pushes callbacks)
    · rw [List.getElem?_eq_none le]
      rfl
  · have staffed := calm.reachable.staffed
    refine .trans ?_ (ready.eq_ofSize drained unflushed).symm
    rw [staffed.size, staffed.catches]
    exact congrArg (WorkerPool.seasoned _) (WorkerPool.mapCurrent_ofSize ..)
  · have later := calm.reachable.nextToken_pos
    exact (Nat.add_comm _ _).trans (Nat.sub_add_cancel later)
  · refine (World.getElem?_later _ i).trans ?_
    cases there : v.sources[i]? with
    | none => rfl
    | some s =>
      have uncalled : s.provider.map (· + v.hub.bygones.epochs i) = s.provider := by
        rcases Nat.lt_or_ge i v.hub.feeds.length with lt | le
        · obtain ⟨x, has⟩ := calm.exists_site lt
          obtain rfl := Option.some.inj (has.source.symm.trans there)
          rw [LocalProvider.map, (idle i x has).uncalled, Option.map_none, ← (idle i x has).uncalled]
        · have none : v.hub.bygones.epochs i = 0 := by simp [Hub.bygones, List.getElem?_eq_none le]
          rw [none]
          exact s.provider.map_id'
      exact congrArg some ((Source.mk.injEq ..).mpr ⟨uncalled, rfl⟩)

/-- The callbacks that were given are of epochs that are over, where everything is idle. -/
theorem World.IsIdle.areOver {start : World V H R} {given : List (FeedPlan V × R)} (idle : v.IsIdle) (calm : v.IsCalm settings plans)
    (assembled : World.assemble settings' given = .ok start) (comes : start.Comes v) : v.hub.bygones.AreOver := by
  intro i epoch mem
  obtain ⟨labels, es, own, ran⟩ := comes
  obtain ⟨ranHub, -, allows⟩ := World.run_hub ran
  cases there : v.hub.feeds[i]? with
  | none => simp [Hub.bygones, there] at mem
  | some f =>
    obtain ⟨now, -, callbacks⟩ := Hub.bygones_at there
    obtain ⟨x, has⟩ := calm.exists_site (List.getElem?_eq_some_iff.1 there).1
    obtain rfl := Option.some.inj (has.feed.symm.trans there)
    have fenced := (Hub.Opens.assembled (World.hub_of_assemble assembled)).fenced (allows .hub own) ranHub
      (World.keepsFaith_of_run (.assembled assembled) own ran i) there
    have standing : x.feed.standing = none := by simp [Feed.standing, (idle i x has).inactive, (calm.rest i x has).free]
    exact now ▸ (fenced.past standing).1 epoch (callbacks ▸ mem)

/-- **A world in which everything is idle goes on like a new one** over the same providers, whose signals begin with the
values that are known. -/
theorem World.IsIdle.goesOnLike {start : World V H R} {given : List (FeedPlan V × R)} (idle : v.IsIdle)
    (calm : v.IsCalm settings plans) (ready : v.hub.pool.IsReady) (drained : ∀ k, v.hub.pool.queue k = [])
    (unflushed : v.hub.pool.flushes = []) (assembled : World.assemble settings' given = .ok start) (comes : start.Comes v)
    {h : Hub V H R} (assembled' : Hub.assemble settings (v.hub.feeds.map Feed.planNow) = .ok h) :
    GoesOnLike v.hub.bygones ⟨{ h with life := v.hub.life }, v.sources⟩ v := by
  have same := later_of_idle calm ready drained unflushed idle assembled'
  have outlives : v.Outlives settings plans v.hub.bygones :=
    ⟨calm.reachable, fun _ old => idle.lapsed calm (Nat.lt_of_le_of_lt old (Nat.sub_one_lt calm.reachable.nextToken_pos.ne'))⟩
  have past := idle.areOver calm assembled comes
  generalize v.hub.bygones = b at same outlives past ⊢
  rw [← same] at outlives
  have alike := goesOnLike_later past outlives
  rwa [same] at alike

/-! ### Shutdowns -/

omit [SignalValue V] in
/-- A provider refuses nothing but what it is asked for. -/
theorem World.label_of_refuses {i : Nat} {m : Moment (World V H R) (WorldLabel V H R) (HubEffect V H)} (refuses : Refuses i m) :
    ∃ thread, m.label = .unregister i thread := by
  obtain ⟨failure, asked⟩ := refuses
  cases label : m.label with
  | unregister j thread =>
    rw [label, hubLabel?] at asked
    split at asked
    · obtain ⟨rfl, -⟩ := HubLabel.hear.inj (Option.some.inj asked)
      exact ⟨thread, rfl⟩
    · cases asked
  | query j | registered j | push j payload | announce j payload =>
    rw [label, hubLabel?] at asked
    obtain ⟨_, -, eq⟩ := Option.map_eq_some_iff.1 asked
    cases eq
  | move | use | register | set | refuse =>
    rw [label, hubLabel?] at asked
    cases asked

/-- **Everything is idle after a shutdown**, if every provider complies with it and did so before. -/
theorem World.isIdle_of_shuts {start : World V H R} {given : List (FeedPlan V × R)} {labels : List (WorldLabel V H R)}
    {es : List (HubEffect V H)} {thread : Thread} (assembled : assemble settings given = .ok start) (own : ∀ l ∈ labels, l.IsOwn)
    (ran : run World.step labels start = some (w, es)) (faithful : ∀ i, ∀ m ∈ trail World.step labels start, ¬ Refuses i m)
    (still : w.IsStill) (complies : ∀ i x, w.HasSite i x → x.feed.isActive = true → x.source.provider.refuseUnregister = none)
    (shuts : Act.Shuts settings (given.map (·.1)) thread (List.range w.hub.feeds.length) w v) : v.IsIdle := by
  obtain ⟨calm, agreed⟩ := calm_of_still assembled ⟨labels, es, own, ran⟩ still
  intro i y has
  have lt : i < w.hub.feeds.length := shuts.length ▸ (List.getElem?_eq_some_iff.1 has.feed).1
  obtain ⟨x, before⟩ := calm.exists_site lt
  have after := shuts.sites i x before
  rw [if_pos (List.mem_range.2 lt)] at after
  obtain rfl := has.unique after
  refine Site.isIdle_shut thread (agreed i x before) (complies i x before) fun inactive => ?_
  -- a provider that never refused has no callback that its feed does not know of
  obtain ⟨-, s, known, outcome⟩ := (Opens.assembled assembled).agrees_of_run own ran before.feed
  obtain rfl := Option.some.inj (before.source.symm.trans known)
  obtain ⟨-, agrees⟩ | ⟨⟨m, mem, refuses⟩, -⟩ := outcome
  · have callback := agrees.callback
    have between : x.feed.stage = .between x.feed.registration := by
      rw [Feed.stage, still.free x.feed (List.mem_of_getElem? before.feed)]
    rw [between, inactive] at callback
    exact callback
  · exact absurd refuses (faithful i m mem)

/-- A shutdown does not change what is known. -/
theorem Act.Shuts.planNow_eq {thread : Thread} {is : List Nat} (calm : w.IsCalm settings plans)
    (shuts : Act.Shuts settings plans thread is w v) : v.hub.feeds.map Feed.planNow = w.hub.feeds.map Feed.planNow := by
  refine List.ext_getElem? fun i => ?_
  rw [List.getElem?_map, List.getElem?_map]
  rcases Nat.lt_or_ge i w.hub.feeds.length with lt | le
  · obtain ⟨x, before⟩ := calm.exists_site lt
    rw [(shuts.sites i x before).feed, before.feed]
    split
    · exact congrArg some (x.planNow_shut thread)
    · rfl
  · rw [List.getElem?_eq_none le, List.getElem?_eq_none (shuts.length ▸ le)]

/-- Another shutdown changes nothing. -/
theorem World.IsIdle.eq_of_shuts (idle : v.IsIdle) (calm : v.IsCalm settings plans) {thread : Thread}
    (shuts : Act.Shuts settings plans thread (List.range v.hub.feeds.length) v w) : w = v := by
  have site : ∀ i < v.hub.feeds.length, w.hub.feeds[i]? = v.hub.feeds[i]? ∧ w.sources[i]? = v.sources[i]? := by
    intro i lt
    obtain ⟨x, before⟩ := calm.exists_site lt
    have after := shuts.sites i x before
    rw [if_pos (List.mem_range.2 lt), (idle i x before).shut_eq] at after
    exact ⟨after.feed.trans before.feed.symm, after.source.trans before.source.symm⟩
  have feeds : w.hub.feeds = v.hub.feeds := by
    refine List.ext_getElem? fun i => ?_
    rcases Nat.lt_or_ge i v.hub.feeds.length with lt | le
    · exact (site i lt).1
    · rw [List.getElem?_eq_none le, List.getElem?_eq_none (shuts.length ▸ le)]
  have sources : w.sources = v.sources := by
    refine List.ext_getElem? fun i => ?_
    rcases Nat.lt_or_ge i v.hub.feeds.length with lt | le
    · exact (site i lt).2
    · exact shuts.others i fun mem => absurd (List.mem_range.1 mem) (Nat.not_lt.2 le)
  have hub := shuts.hub
  rw [feeds] at hub
  exact congrArg₂ World.mk hub sources

namespace Session

theorem steady_of_settled {start : World V H R} {given : List (FeedPlan V × R)} (assembled : World.assemble settings given = .ok start)
    (comes : start.Comes w) (settled : w.IsSettled) (catches : settings.catches = true) :
    Steady settings (given.map (·.1)) [] (opening w) := by
  obtain ⟨calm, -⟩ := World.calm_of_still assembled comes settled.still
  obtain ⟨n, held⟩ := settled.still.held
  exact ⟨calm, ⟨calm.reachable.staffed.serving catches (fun closed => by cases held.symm.trans closed), settled.idle⟩,
    settled.unflushed, List.forall_mem_nil _, List.forall_mem_nil _⟩

/-- **A shutdown starts over.** In whatever state a hub is in which nothing is under way, and whose providers never
refused to end a registration and do not do so now: after a shutdown no feed is active, no subscription is counted, and
no provider has a callback. Another shutdown changes nothing. Whatever is done then, by whomever and in whatever order,
can be done by earlier numbers at a new hub over the same providers whose signals begin with the values that were known at
the shutdown, and the other way round, apart from ends of subscriptions from before; and these change nothing at any
time. So whatever script is played has the scenes that it has at the new hub, and the same tokens under other numbers. -/
theorem shutdown_starts_over {start : World V H R} {given : List (FeedPlan V × R)} {labels : List (WorldLabel V H R)}
    {es : List (HubEffect V H)} (assembled : World.assemble settings given = .ok start) (own : ∀ l ∈ labels, l.IsOwn)
    (ran : run World.step labels start = some (w, es)) (catches : settings.catches = true) (settled : w.IsSettled)
    (faithful : ∀ i, ∀ m ∈ trail World.step labels start, ¬ World.Refuses i m)
    (complies : ∀ i x, w.HasSite i x → x.feed.isActive = true → x.source.provider.refuseUnregister = none)
    (dec : Nat → R → Except DecodeFailure (Emissions V)) (panics panics' : List (Heard V H) → Heard V H → Bool) :
    ∃ v journal, Act.shutdown (Client.hearing dec panics) (opening w) = some ((), { opening v with journal }) ∧
      (∀ i x, v.HasSite i x → x.feed.isActive = false ∧ x.feed.subscriptionCount = 0 ∧ x.source.provider.callback = none) ∧
      (∀ signal, v.hub.subscriberCount signal = 0) ∧
      (∃ again, Act.shutdown (Client.hearing dec panics) { opening v with journal } =
        some ((), { opening v with journal := again })) ∧
      ∃ fresh, Hub.assemble settings (w.hub.feeds.map Feed.planNow) = .ok fresh ∧
        (∃ b : Bygones, b.tokens + 1 = w.hub.nextToken ∧
          World.GoesOnLike b ⟨{ fresh with life := w.hub.life }, v.sources⟩ v) ∧
        ∀ script : List (Deed R H),
          (∀ signal token, .unsubscribe signal (.old token) ∈ script → token.serial < w.hub.nextToken) →
          ∃ scenes scenes' issued t t', ∃ τ : ℕ ↪o ℕ,
            Ends (fun n => Deed.playAll (Client.hearing dec panics') n (script.filter (!·.looksBack)) [])
              (opening ⟨fresh, v.sources⟩) (scenes, issued) t ∧
            Ends (fun n => Deed.playAll (Client.hearing dec panics) n script []) { opening v with journal }
              (scenes', issued.renumber τ) t' ∧
            scenes'.filter (!·.deed.looksBack) = scenes ∧ (∀ i, t'.sights (issued.renumber τ) i = t.sights issued i) ∧
            ∀ signal token, token.serial < w.hub.nextToken →
              ∃ more, Act.unsubscribe (Client.hearing dec panics) signal token t' = some ((), { t' with journal := more }) := by
  have steady := steady_of_settled assembled ⟨labels, es, own, ran⟩ settled catches
  obtain ⟨journal, v, shut, shuts⟩ := Act.shutdown_at (c := Client.hearing dec panics) (fun _ => rfl) steady.calm
  have steady' : Steady settings (given.map (·.1)) [] { opening v with journal } := steady.shuts shuts
  have idle := World.isIdle_of_shuts assembled own ran faithful settled.still complies shuts
  have sited : v.hub.feeds.length ≤ v.sources.length := steady'.calm.sited
  have pool : v.hub.pool = w.hub.pool := congrArg (·.pool) shuts.hub
  have next : v.hub.nextToken = w.hub.nextToken := congrArg (·.nextToken) shuts.hub
  have known : v.hub.feeds.map Feed.planNow = w.hub.feeds.map Feed.planNow := shuts.planNow_eq steady.calm
  refine ⟨v, journal, shut, fun i x has => ?_, fun signal => ?_, ?_, ?_⟩
  · have idle := idle i x has
    exact ⟨by rw [Feed.isActive, idle.inactive]; rfl, idle.uncounted, idle.uncalled⟩
  · exact idle.subscriberCount sited signal
  · obtain ⟨again, v', shut', shuts'⟩ := Act.shutdown_at (c := Client.hearing dec panics) (fun _ => rfl) steady'.calm
    obtain rfl := idle.eq_of_shuts steady'.calm shuts'
    exact ⟨again, shut'⟩
  · obtain ⟨fresh, assembled'⟩ := Hub.exists_assemble_again (R := R) (H := H) steady'.calm.reachable
    have tied := tied_of_idle steady' (fun k => pool ▸ settled.drained k) idle assembled'
    have life : v.hub.life = w.hub.life := congrArg (·.life) shuts.hub
    rw [← known, ← next, ← life]
    refine ⟨fresh, assembled', ⟨v.hub.bygones, Nat.sub_add_cancel steady'.calm.reachable.nextToken_pos, ?_⟩, fun script old => ?_⟩
    · exact idle.goesOnLike steady'.calm steady'.ready (fun k => pool ▸ settled.drained k) steady'.unflushed assembled
        (.trans ⟨labels, es, own, ran⟩ shuts.comes) assembled'
    have fair : ∀ deed ∈ script, deed.IsFair (fun _ => true) (fun token => token.serial < v.hub.nextToken) fresh := by
      intro deed mem
      cases deed with
      | unsubscribe signal ticket =>
        cases ticket with
        | made feed number => exact fun _ => rfl
        | old token => exact fun _ => old signal token mem
      | _ => trivial
    have concerned : ∀ deed : Deed R H, deed.concerns (fun _ => true) fresh = !deed.looksBack := by
      intro deed
      cases deed <;> simp [Deed.concerns, Deed.isGeneral, Deed.looksBack]
    obtain ⟨scenes, scenes', issued, issued', t, t', ends, ends', alike, tied⟩ :=
      tied.playAll panics' panics catches catches (fun i _ => rfl (a := dec i)) fair
    obtain ⟨τ, mirrors⟩ := tied.mirrors
    obtain rfl : issued' = issued.renumber τ := (List.filter_eq_self.2 fun _ _ => rfl).symm.trans mirrors.issued
    simp only [concerned] at ends alike
    have all : ∀ scene : Scene V H R, scene.only (fun _ => true) = scene := fun _ => rfl
    simp only [all, List.map_id'] at alike
    exact ⟨scenes, scenes', issued, t, t', τ, ends, ends', alike, fun i => tied.sights_eq rfl, fun signal token before =>
      Act.unsubscribe_lapsed (fun i => Deed.isPlain_hearing i) tied.steady'.calm (mirrors.stale token before) signal⟩

/-- A hub over the lamp, which shines when the hub is shut down, is like a new hub over a lamp that shines at first, and the
token from before is of no use. -/
theorem lamp_is_new_again :
    ∃ w es v journal fresh, run World.step Lamp.registration Lamp.world = some (w, es) ∧
      Act.shutdown (Client.hearing (fun _ _ => .ok ⟨[Lamp.emission false]⟩) fun _ _ => true) (opening w) =
        some ((), { opening v with journal }) ∧
      v.hub.subscriberCount Lamp.key.id = 0 ∧
      Hub.assemble {} [⟨⟨"lamp"⟩, [⟨Lamp.key, .truth true⟩]⟩] = .ok fresh ∧
      ∃ scenes scenes' issued t t', ∃ τ : ℕ ↪o ℕ,
        Ends (fun n => Deed.playAll (Client.hearing (fun _ _ => .ok ⟨[Lamp.emission false]⟩) fun _ _ => false) n
          [.subscribe Lamp.key (), .push 0 (), .flush] []) (opening ⟨fresh, v.sources⟩) (scenes, issued) t ∧
        Ends (fun n => Deed.playAll (Client.hearing (fun _ _ => .ok ⟨[Lamp.emission false]⟩) fun _ _ => true) n
          [.subscribe Lamp.key (), .unsubscribe Lamp.key.id (.old ⟨1⟩), .push 0 (), .flush] []) { opening v with journal }
            (scenes', issued.renumber τ) t' ∧
        scenes'.filter (!·.deed.looksBack) = scenes := by
  have start : World.assemble {} [(Lamp.plan, ())] = .ok Lamp.world := rfl
  obtain ⟨w, es, ran, pool, requests, life, holders, pushes, known, next, armed⟩ : ∃ w es,
      run World.step Lamp.registration Lamp.world = some (w, es) ∧ w.hub.pool = .ofSize 1 true ∧ w.hub.requests = [] ∧
      w.hub.life = .held 1 ∧ w.hub.feeds.map (·.holder) = [none] ∧ w.hub.feeds.map (·.pushes) = [[]] ∧
      w.hub.feeds.map Feed.planNow = [⟨⟨"lamp"⟩, [⟨Lamp.key, .truth true⟩]⟩] ∧ w.hub.nextToken = 2 ∧
      w.sources.map (·.provider.refuseUnregister) = [none] :=
    ⟨_, _, rfl, rfl, rfl, rfl, rfl, rfl, rfl, rfl, rfl⟩
  have settled : w.IsSettled :=
    { still :=
        { held := ⟨1, life⟩
          undrawn := requests
          free := fun f mem => List.mem_singleton.1 (holders ▸ List.mem_map_of_mem mem)
          pushless := fun f mem => List.mem_singleton.1 (pushes ▸ List.mem_map_of_mem mem) }
      idle := fun k => pool ▸ WorkerPool.current?_ofSize 1 true k
      drained := fun k => pool ▸ WorkerPool.queue_ofSize 1 true k
      unflushed := by rw [pool]; rfl }
  have complies : ∀ i x, w.HasSite i x → x.feed.isActive = true → x.source.provider.refuseUnregister = none := fun i x has _ =>
    List.mem_singleton.1 (armed ▸ List.mem_map_of_mem (List.mem_of_getElem? has.source))
  have faithful : ∀ i, ∀ m ∈ trail World.step Lamp.registration Lamp.world, ¬ World.Refuses i m := by
    intro i m mem refuses
    obtain ⟨thread, label⟩ := World.label_of_refuses refuses
    have given := List.mem_map_of_mem (f := (·.label)) mem
    rw [map_label_trail ran, label] at given
    simp [Lamp.registration] at given
  obtain ⟨v, journal, shut, -, unwatched, -, fresh, assembled, -, plays⟩ :=
    shutdown_starts_over start (by simp [Lamp.registration, WorldLabel.IsOwn]) ran rfl settled faithful complies
      (fun _ _ => .ok ⟨[Lamp.emission false]⟩) (fun _ _ => true) fun _ _ => false
  obtain ⟨scenes, scenes', issued, t, t', τ, ends, ends', same, -⟩ :=
    plays [.subscribe Lamp.key (), .unsubscribe Lamp.key.id (.old ⟨1⟩), .push 0 (), .flush] (by simp [next])
  exact ⟨w, es, v, journal, fresh, ran, shut, unwatched _, known ▸ assembled, scenes, scenes', issued, t, t', τ, ends, ends', same⟩

end Session

end LazyHub
