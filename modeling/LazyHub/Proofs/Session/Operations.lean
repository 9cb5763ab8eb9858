import LazyHub.Proofs.Hub.Routing
import LazyHub.Proofs.Session.Serving
import LazyHub.Proofs.World.Leases

/-!
# The operations of clients, at rest

What the operations of a hub's clients come to in a session in which nothing is under way at the site
concerned. A read, a subscription and its end are a request to one site (`operate_at`), once the hub has
found the site; a shutdown is a request to each site in turn (`shutdown_at`); what a client does to a
provider is done at the provider's site (`does_push` and so on). A site is at rest again after each of
them (`IsAtRest.fulfil`, `IsAtRest.receive`).
-/

namespace LazyHub

variable {V H R X : Type}

namespace Site

variable [SignalValue V] {dec : R → Except DecodeFailure (Emissions V)} {thread : Thread} {x y : Site V H R}

/-! ### At rest again -/

omit [SignalValue V] in
/-- What is under way at a site, and what the provider knows of it. -/
theorem IsAtRest.like (rest : x.IsAtRest) (holder : y.feed.holder = x.feed.holder) (writer : y.feed.writer = x.feed.writer)
    (pushes : y.feed.pushes = x.feed.pushes) (handles : y.feed.handles = x.feed.handles)
    (retiring : y.feed.retiring = x.feed.retiring) (reply : y.source.reply = x.source.reply)
    (known : ∀ epoch, y.source.provider.callback? = some epoch → epoch ∈ y.feed.callbacks) : y.IsAtRest where
  free := holder.trans rest.free
  unwritten := writer.trans rest.unwritten
  pushless := pushes.trans rest.pushless
  kept := handles ▸ rest.kept
  unretired := retiring.trans rest.unretired
  silent := reply.trans rest.silent
  known := known

theorem IsAtRest.written (rest : x.IsAtRest) (values : List (Emission V)) :
    IsAtRest { x with feed := x.feed.written values } := by
  rw [Feed.written_eq]
  exact rest.like rfl rfl rfl rfl rfl rfl rest.known

omit [SignalValue V] in
/-- A provider may change, as long as it keeps its callback. -/
theorem IsAtRest.provider (rest : x.IsAtRest) {p : LocalProvider R Nat}
    (same : p.callback = x.source.provider.callback) :
    IsAtRest { x with source := { x.source with provider := p } } :=
  rest.like rfl rfl rfl rfl rfl rfl fun epoch installed => rest.known epoch (by
    rw [LocalProvider.callback?, ← same]
    exact installed)

theorem IsAtRest.pull (rest : x.IsAtRest) : (x.pull dec).2.IsAtRest := by
  have queried := LocalProvider.callback_query x.source.provider
  unfold Site.pull
  dsimp only
  split
  · exact rest.provider queried
  · split
    · exact rest.provider (p := x.source.provider.query.2.takeBack) queried
    · exact (rest.provider (p := x.source.provider.query.2.takeBack) queried).written _

omit [SignalValue V] in
theorem IsAtRest.register (rest : x.IsAtRest) : x.register.2.IsAtRest := by
  let callbacks := x.feed.callbacks ++ [x.feed.epoch]
  -- a callback that the provider has stays the feed's, and so does the new one if the provider installs it
  have kept : ∀ epoch ∈ x.feed.callbacks, epoch ∈ callbacks.erase x.feed.epoch := by
    intro epoch mem
    have more : 0 < x.feed.callbacks.count epoch := List.count_pos_iff.2 mem
    rw [← List.count_pos_iff, List.count_erase, List.count_append]
    by_cases same : epoch = x.feed.epoch <;> simp [same, List.count_singleton] <;> simp_all
  have installed : ∀ epoch, (x.source.provider.register x.feed.epoch).2.callback? = some epoch →
      epoch ∈ x.feed.callbacks ∨ epoch = x.feed.epoch ∧ ∃ registration,
        (x.source.provider.register x.feed.epoch).1 = .ok registration := by
    intro epoch known
    obtain ⟨c, there, rfl⟩ := Option.map_eq_some_iff.1 known
    cases before : x.source.provider.callback with
    | none =>
      rcases LocalProvider.register_of_none before x.feed.epoch with ⟨-, -, none⟩ | ⟨registration, accepted, some⟩
      · cases none.symm.trans there
      · cases some.symm.trans there
        exact .inr ⟨rfl, registration, accepted⟩
    | some old =>
      obtain ⟨failure, refuses⟩ := LocalProvider.register_of_some before
      obtain rfl := Option.some.inj ((refuses _).2.symm.trans there)
      exact .inl (rest.known _ (congrArg (Option.map Prod.snd) before))
  unfold Site.register
  dsimp only
  split
  · rename_i failure refused
    refine rest.like rfl rfl rfl rfl rfl rfl fun epoch there => ?_
    rcases installed epoch there with old | ⟨-, registration, accepted⟩
    · exact kept epoch old
    · cases refused.symm.trans accepted
  · refine rest.like rfl rfl rfl rfl rfl rfl fun epoch there => ?_
    rcases installed epoch there with old | ⟨rfl, -⟩
    · exact List.mem_append_left _ old
    · exact List.mem_append_right _ (List.mem_singleton_self _)

omit [SignalValue V] in
theorem IsAtRest.thenDo {o : Answer × Site V H R} {next : Site V H R → Answer × Site V H R} (rest : o.2.IsAtRest)
    (onward : ∀ {y : Site V H R}, y.IsAtRest → (next y).2.IsAtRest) : (thenDo o next).2.IsAtRest := by
  obtain ⟨answer, y⟩ := o
  cases answer with
  | failed => exact rest
  | _ => exact onward rest

omit [SignalValue V] in
theorem IsAtRest.withdraw (rest : x.IsAtRest) : (x.withdraw thread).2.IsAtRest := by
  unfold Site.withdraw
  split
  · exact rest
  · refine rest.like rfl rfl rfl rfl rfl rfl fun epoch known => ?_
    obtain ⟨c, there, rfl⟩ := Option.map_eq_some_iff.1 known
    exact rest.known _ (congrArg (Option.map Prod.snd) (LocalProvider.callback_unregister _ there))

/-- **A site is at rest again once a request is fulfilled.** -/
theorem IsAtRest.fulfil (rest : x.IsAtRest) (request : FeedRequest H) : (x.fulfil dec thread request).2.IsAtRest := by
  have attached : ∀ {y : Site V H R} (signal : SignalId) (token : Token) (handler : H), y.IsAtRest →
      IsAtRest { y with feed := y.feed.attach signal token handler } := fun _ _ _ rest =>
    rest.like rfl rfl rfl rfl rfl rfl rest.known
  have completed : ∀ {y : Site V H R} (purpose : Purpose H), y.IsAtRest → (y.complete purpose).2.IsAtRest := by
    intro y purpose rest
    cases purpose with
    | refresh => exact rest
    | activate => exact rest.register
    | subscribe signal token handler => exact rest.register.thenDo fun rest => attached signal token handler rest
  have activated : ∀ purpose, (x.activate dec purpose).2.IsAtRest := by
    intro purpose
    have next : IsAtRest { x with feed := { x.feed with epoch := x.feed.epoch + 1 } } :=
      rest.like rfl rfl rfl rfl rfl rfl rest.known
    exact next.pull.thenDo fun rest => completed purpose rest
  cases request with
  | activate =>
    unfold Site.fulfil
    dsimp only
    split
    · exact rest
    · exact activated .activate
  | deactivate => exact rest.withdraw
  | refresh =>
    unfold Site.fulfil
    dsimp only
    split
    · exact rest
    · exact rest.pull
  | subscribe signal token handler =>
    unfold Site.fulfil
    dsimp only
    split
    · exact attached signal token handler rest
    · exact activated (.subscribe signal token handler)
  | unsubscribe signal token =>
    have detached : IsAtRest { x with feed := x.feed.detach signal token } :=
      rest.like rfl rfl rfl rfl rfl rfl rest.known
    unfold Site.fulfil
    dsimp only
    split
    · split
      · exact detached.withdraw
      · exact detached
    · exact rest
  | shutdown =>
    have cleared : IsAtRest { x with feed := x.feed.cleared } := rest.like rfl rfl rfl rfl rfl rfl rest.known
    exact cleared.withdraw

/-- **A site is at rest again once a payload that its provider told has come to its end.** -/
theorem IsAtRest.receive (rest : x.IsAtRest) (payload : R) : (x.receive dec payload).1.IsAtRest := by
  unfold Site.receive
  split
  · exact rest
  · have counted : IsAtRest (⟨{ x.feed with pushCount := x.feed.pushCount + 1 },
        { x.source with provider := x.source.provider.takeBack }⟩ : Site V H R) :=
      rest.like rfl rfl rfl rfl rfl rfl rest.known
    dsimp only [Feed.received]
    split
    · exact counted
    · split
      · exact counted.written _
      · exact counted

/-- The callback that a provider has is the current one of its feed, if the feed is active, and otherwise an old one. -/
structure IsAgreed (x : Site V H R) : Prop where
  /-- The callback of an active feed is its current one. -/
  active : ∀ registration, x.feed.registration = some registration →
    x.source.provider.callback = some (registration, x.feed.epoch)
  /-- A callback of an inactive feed is an old one. -/
  inactive : x.feed.registration = none → ∀ installed, x.source.provider.callback = some installed →
    installed.2 < x.feed.epoch

/-- The site after a shutdown: nobody is subscribed, and the registration is ended if there was one. -/
def shut (thread : Thread) (x : Site V H R) : Site V H R :=
  (Site.withdraw thread { x with feed := x.feed.cleared }).2

end Site

/-! ### Worlds in which nothing is under way -/

/-- Nothing is under way in a world that somebody holds a handle on. -/
structure World.IsStill (w : World V H R) : Prop where
  /-- Somebody holds a handle. -/
  held : w.hub.IsHeld
  /-- No subscription is between its token and its feed. -/
  undrawn : w.hub.requests = []
  /-- No operation is under way in a feed. -/
  free : ∀ f ∈ w.hub.feeds, f.holder = none
  /-- No push is under way in a feed. -/
  pushless : ∀ f ∈ w.hub.feeds, f.pushes = []

/-- A world in which nothing is under way, and that has come to be what it is step by step. -/
structure World.IsCalm [SignalValue V] (settings : Settings) (plans : List (FeedPlan V)) (w : World V H R) : Prop where
  /-- The hub has come to be what it is step by step. -/
  reachable : Hub.Reachable settings plans w.hub
  /-- Somebody holds a handle. -/
  held : w.hub.IsHeld
  /-- No subscription is between its token and its feed. -/
  undrawn : w.hub.requests = []
  /-- Every feed has its provider. -/
  sited : w.hub.feeds.length ≤ w.sources.length
  /-- Every site is at rest. -/
  rest : ∀ i x, w.HasSite i x → x.IsAtRest

namespace World

/-- The world after so many tokens more are drawn. -/
def drawing (w : World V H R) (more : Nat) : World V H R :=
  { w with hub := { w.hub with nextToken := w.hub.nextToken + more } }

variable [SignalValue V] {settings : Settings} {plans : List (FeedPlan V)} {w : World V H R} {i : Nat} {x y : Site V H R}

theorem IsCalm.exists_site (calm : w.IsCalm settings plans) (lt : i < w.hub.feeds.length) : ∃ x, w.HasSite i x :=
  have lt' := Nat.lt_of_lt_of_le lt calm.sited
  ⟨⟨w.hub.feeds[i], w.sources[i]⟩, List.getElem?_eq_getElem lt, List.getElem?_eq_getElem lt'⟩

theorem IsCalm.exists_site_of_feedOf? (calm : w.IsCalm settings plans) {signal : SignalId} (served : w.hub.feedOf? signal = some i) :
    ∃ x, w.HasSite i x := by
  obtain ⟨⟨j, kind, o⟩, found, rfl⟩ := Option.map_eq_some_iff.1 served
  obtain ⟨f, feed, -⟩ := Hub.outlet?_of_find? found
  exact calm.exists_site (List.getElem?_eq_some_iff.1 feed).1

/-- What is done at one site to its end leaves the world calm. -/
theorem IsCalm.after (calm : w.IsCalm settings plans) {n : Nat} {owed : List (Emission V)}
    (comes : w.Comes ((w.drawing n).after i y owed)) (rest : y.IsAtRest) :
    ((w.drawing n).after i y owed).IsCalm settings plans where
  reachable := comes.reachable calm.reachable
  held := calm.held
  undrawn := calm.undrawn
  sited := by simpa [World.after, drawing] using calm.sited
  rest j z at' := by
    by_cases eq : j = i
    · subst eq
      obtain ⟨lt, lt'⟩ := at'.lt
      have lt : j < w.hub.feeds.length := by simpa [World.after, drawing] using lt
      have lt' : j < w.sources.length := by simpa [World.after, drawing] using lt'
      have here : (w.drawing n).HasSite j ⟨w.hub.feeds[j], w.sources[j]⟩ :=
        ⟨List.getElem?_eq_getElem _, List.getElem?_eq_getElem _⟩
      rw [at'.unique here.after]
      exact rest
    · have there := (hasSite_after_of_ne eq).1 at'
      exact calm.rest j z ⟨there.feed, there.source⟩

/-- **Where nothing is under way every site is at rest**, and the feeds agree with their providers. -/
theorem calm_of_still {start : World V H R} {plans : List (FeedPlan V × R)} (assembled : assemble settings plans = .ok start)
    (comes : start.Comes w) (still : w.IsStill) :
    w.IsCalm settings (plans.map (·.1)) ∧ ∀ i x, w.HasSite i x → x.IsAgreed := by
  have opens : Opens plans .hub start := .assembled assembled
  have reachable : Hub.Reachable settings (plans.map (·.1)) w.hub :=
    comes.reachable (.assembled (hub_of_assemble assembled))
  obtain ⟨labels, es, own, ran⟩ := comes
  have site : ∀ (i : Nat) (f : Feed V H R), w.hub.feeds[i]? = some f → ∃ s : Source R, w.sources[i]? = some s ∧ (⟨f, s⟩ : Site V H R).IsAtRest ∧
      (⟨f, s⟩ : Site V H R).IsAgreed := by
    intro i f there
    obtain ⟨arises, s, known, outcome⟩ := opens.agrees_of_run own ran there
    obtain ⟨orderly, tidy, -⟩ := arises.kept there
    have mem := List.mem_of_getElem? there
    have free := still.free f mem
    have pushless := still.pushless f mem
    have between : f.stage = .between f.registration := by rw [Feed.stage, free]
    have unasked : f.stage ≠ .registering := by
      rw [between]
      cases f.registration <;> exact fun same => by cases same
    obtain ⟨n, held⟩ := still.held
    have handles := (Hub.owns_of_held held).1 reachable.sound.owns f mem
    have invocable := opens.invocable_of_run own ran there known
    have idle : (s.reply = none) ∧ (⟨f, s⟩ : Site V H R).IsAgreed := by
      rcases outcome with ⟨-, agrees⟩ | ⟨-, installed, orphaned⟩
      · refine ⟨?_, fun registration active => ?_, fun inactive installed callback => ?_⟩
        · exact not_not.1 (mt agrees.awaited unasked)
        · have callback := agrees.callback
          rwa [between, active] at callback
        · have none := agrees.callback
          rw [between, inactive] at none
          cases none.symm.trans callback
      · refine ⟨?_, fun registration active => ?_, fun _ c callback => ?_⟩
        · by_contra travels
          obtain ⟨answer, travels⟩ := Option.ne_none_iff_exists'.1 travels
          exact unasked (orphaned.refuses answer travels).1
        · exact absurd (by rw [between, active]; rfl) (orphaned.unregistered registration).1
        · obtain rfl := Option.some.inj (orphaned.callback.symm.trans callback)
          exact orphaned.outdated.resolve_right fun client => by cases client.1
    have unwritten := orderly.writer_eq_none free (by simp [pushless])
    refine ⟨s, known, ⟨free, unwritten, pushless, by simp [handles], reachable.sound.retained f mem, idle.1, ?_⟩, idle.2⟩
    intro epoch current
    obtain ⟨installed, callback, rfl⟩ := Option.map_eq_some_iff.1 current
    exact invocable.installed installed callback
  refine ⟨⟨reachable, still.held, still.undrawn, ?_, fun i x at' => ?_⟩, fun i x at' => ?_⟩
  · refine Nat.le_of_not_lt fun fewer => ?_
    obtain ⟨s, known, -⟩ := site _ _ (List.getElem?_eq_getElem fewer)
    exact absurd (List.getElem?_eq_some_iff.1 known).1 (Nat.lt_irrefl _)
  · obtain ⟨s, known, rest, -⟩ := site i _ at'.feed
    exact at'.unique (y := ⟨x.feed, s⟩) ⟨at'.feed, known⟩ ▸ rest
  · obtain ⟨s, known, -, agreed⟩ := site i _ at'.feed
    exact at'.unique (y := ⟨x.feed, s⟩) ⟨at'.feed, known⟩ ▸ agreed

end World

namespace Act

variable [SignalValue V] {settings : Settings} {plans : List (FeedPlan V)} {c : Client V H R X} {i : Nat}
  {dec : R → Except DecodeFailure (Emissions V)} {s : Session V H R X} {x : Site V H R} {key : Key}

theorem perform_of_step {label : WorldLabel V H R} {r : World.Result V H R} (step : s.world.step label = some r) :
    perform label s = some (r.answer, { s with world := r.state, journal := notedEntries r.effects ++ s.journal }) := by
  rw [perform, step]

/-- **A request to a feed is carried to its answer**, and nothing else happens to the world. -/
theorem operate_at {label : HubMove V H} {request : FeedRequest H} {g : Hub V H R} {o : Answer × Site V H R}
    (at' : s.world.HasSite i x) (serving : Act.Serves c s.thread i x request o)
    (serves : s.world.hub.Serves (.move label) i (.enter request) g) (held : g.IsHeld) :
    let w := ({ s.world with hub := g } : World V H R).after i o.2 []
    (∃ journal, operate c i (.move label) s = some (o.1, { s with world := w, journal })) ∧ s.world.Comes w := by
  intro w
  obtain ⟨fr, entered, unreleased, owesNothing, serving⟩ := serving
  obtain ⟨r, step, answer, state⟩ := World.onHub_here at' serves entered
  rw [Source.takeBack_of_none _ unreleased, owesNothing] at state
  have made : s.world.step (.move label) = some r := step
  have enters := perform_of_step made
  rw [answer] at enters
  have there : ({ s.world with hub := g } : World V H R).HasSite i x := ⟨serves.feeds_eq ▸ at'.feed, at'.source⟩
  obtain ⟨⟨journal, ran⟩, comes⟩ := serving { s with world := r.state, journal := notedEntries r.effects ++ s.journal } rfl
    (state ▸ held) (state ▸ there.after)
  rw [state, World.after_after] at ran comes
  refine ⟨⟨journal, ?_⟩, (World.Comes.step (l := .move label) trivial made).trans (state ▸ comes)⟩
  rw [operate, bind_at enters, state]
  exact ran

/-- **A read** answers with the value that its feed holds in the end, or fails as the pull does. -/
theorem read_at (plain : c.IsPlain i dec) (calm : s.world.IsCalm settings plans) (routed : s.world.hub.route key = .ok i)
    (at' : s.world.HasSite i x) {o : Answer × Site V H R} (fulfilled : x.fulfil dec s.thread .refresh = o) :
    s.world.Comes (s.world.after i o.2 []) ∧ ∃ journal v, o.2.feed.cached? key.id = some v ∧
      read c key s = some (o.1.toExcept.map fun _ => v, { s with world := s.world.after i o.2 [], journal }) := by
  obtain ⟨⟨journal, ran⟩, comes⟩ := operate_at at'
    (fulfilled ▸ serves_fulfil plain (calm.rest i x at') .refresh trivial) (.refresh calm.held) calm.held
  have reached := comes.reachable calm.reachable
  obtain ⟨f, there, known⟩ := reached.exists_feed_of_route (calm.reachable.route_eq reached routed)
  have here : (s.world.after i o.2 []).HasSite i o.2 := at'.after
  obtain rfl := Option.some.inj (there.symm.trans here.feed)
  have cached := reached.cached?_eq there known
  obtain ⟨v, hv⟩ : ∃ v, o.2.feed.cached? key.id = some v := by
    obtain ⟨p, hp⟩ := Option.isSome_iff_exists.1 known
    exact ⟨p.gate.value, by rw [Feed.cached?, hp, Option.map_some]⟩
  refine ⟨comes, journal, v, hv, ?_⟩
  rw [read, bind_at (hub_at s), routed]
  dsimp only
  rw [bind_at ran]
  cases o.1.toExcept with
  | error failure => rfl
  | ok =>
    dsimp only
    rw [bind_at (hub_at _)]
    dsimp only
    rw [cached, hv]
    rfl

/-- A read of a key that the hub does not route fails at once. -/
theorem read_unrouted {failure : HubFailure} (unrouted : s.world.hub.route key = .error failure) :
    read c key s = some (.error failure, s) := by
  rw [read, bind_at (hub_at s), unrouted]
  rfl

/-- **A subscription** draws a token, and is made under it if its feed is active or can be activated. -/
theorem subscribe_at (plain : c.IsPlain i dec) (calm : s.world.IsCalm settings plans) (routed : s.world.hub.route key = .ok i)
    (at' : s.world.HasSite i x) {handler : H} {o : Answer × Site V H R}
    (fulfilled : x.fulfil dec s.thread (.subscribe key.id ⟨s.world.hub.nextToken⟩ handler) = o) :
    s.world.Comes ((s.world.drawing 1).after i o.2 []) ∧ ∃ journal,
      subscribe c key handler s = some (o.1.toExcept.map fun _ => ⟨s.world.hub.nextToken⟩,
        { s with world := (s.world.drawing 1).after i o.2 [], journal }) := by
  obtain ⟨⟨h, sources⟩, journal, thread, memory⟩ := s
  obtain ⟨feeds, pool, nextToken, requests, life⟩ := h
  obtain ⟨n, held⟩ := calm.held
  obtain rfl : requests = [] := calm.undrawn
  obtain rfl : life = .held n := held
  let token : Token := ⟨nextToken⟩
  let g : Hub V H R := ⟨feeds, pool, nextToken + 1, [⟨token, key, handler⟩], .held n⟩
  have moves : Hub.step ⟨feeds, pool, nextToken, [], .held n⟩ (.move (.draw key handler)) = some { state := g } := by
    dsimp only at routed
    simp only [Hub.step, Hub.act, routed]
    rfl
  have draws : World.step ⟨⟨feeds, pool, nextToken, [], .held n⟩, sources⟩ (.move (.draw key handler)) =
      some { state := ⟨g, sources⟩ } :=
    World.onHub_of_step (w := ⟨⟨feeds, pool, nextToken, [], .held n⟩, sources⟩) moves
  have drawn : (performOn (.move (.draw key handler)) : Act V H R X Unit)
      ⟨⟨⟨feeds, pool, nextToken, [], .held n⟩, sources⟩, journal, thread, memory⟩ =
      some ((), ⟨⟨g, sources⟩, journal, thread, memory⟩) := by
    rw [performOn, bind_at (perform_of_step draws)]
    rfl
  have known : (x.feed.outlet? key.id).isSome := by
    obtain ⟨f, there, known⟩ := calm.reachable.exists_feed_of_route routed
    rwa [Option.some.inj (at'.feed.symm.trans there)]
  have serves : g.Serves (.move (.subscribe token)) i (.enter (.subscribe key.id token handler))
      ⟨feeds, pool, nextToken + 1, [], .held n⟩ := by
    have drawn : g.requests.find? (·.token = token) = some ⟨token, key, handler⟩ := by simp [g]
    have enters := Hub.Serves.subscribe (h := g) drawn rfl (Hub.feedOf?_of_route routed)
    have none : [(⟨token, key, handler⟩ : Request H)].filter (·.token ≠ token) = [] := by simp
    rwa [none] at enters
  obtain ⟨⟨journal', ran⟩, comes⟩ := operate_at (s := ⟨⟨g, sources⟩, journal, thread, memory⟩)
    ⟨at'.feed, at'.source⟩ (fulfilled ▸ serves_fulfil plain (calm.rest i x at') (.subscribe key.id token handler) known)
    serves ⟨n, rfl⟩
  refine ⟨(World.Comes.step (l := .move (.draw key handler)) trivial draws).trans comes, ?_⟩
  rw [subscribe, bind_at (hub_at _)]
  dsimp only at routed ⊢
  rw [routed]
  dsimp only
  rw [bind_at (hub_at _), bind_at drawn]
  dsimp only
  rw [bind_at ran]
  cases o.1.toExcept with
  | error failure => exact ⟨journal', rfl⟩
  | ok => exact ⟨.subscribed token key :: journal', rfl⟩

/-- A subscription to a key that the hub does not route fails at once, and draws no token. -/
theorem subscribe_unrouted {failure : HubFailure} (unrouted : s.world.hub.route key = .error failure) (handler : H) :
    subscribe c key handler s = some (.error failure, s) := by
  rw [subscribe, bind_at (hub_at s), unrouted]
  rfl

/-- **The end of a subscription.** -/
theorem unsubscribe_at {signal : SignalId} {token : Token} (plain : c.IsPlain i dec) (calm : s.world.IsCalm settings plans)
    (routes : s.world.hub.feedOf? signal = some i) (at' : s.world.HasSite i x) {o : Answer × Site V H R}
    (fulfilled : x.fulfil dec s.thread (.unsubscribe signal token) = o) :
    s.world.Comes (s.world.after i o.2 []) ∧
      ∃ journal, unsubscribe c signal token s = some ((), { s with world := s.world.after i o.2 [], journal }) := by
  have known : (x.feed.outlet? signal).isSome := by
    obtain ⟨⟨j, kind, p⟩, found, rfl⟩ := Option.map_eq_some_iff.1 routes
    obtain ⟨f, there, outlet⟩ := Hub.outlet?_of_find? found
    obtain rfl := Option.some.inj (at'.feed.symm.trans there)
    exact Option.isSome_of_eq_some outlet
  obtain ⟨⟨journal, ran⟩, comes⟩ := operate_at at'
    (fulfilled ▸ serves_fulfil plain (calm.rest i x at') (.unsubscribe signal token) known)
    (.unsubscribe calm.held routes) calm.held
  refine ⟨comes, ?_⟩
  rw [unsubscribe, bind_at (hub_at s), routes]
  dsimp only
  rw [bind_at ran]
  cases o.1 with
  | unknownToken => exact ⟨_, rfl⟩
  | done | failed => exact ⟨_, rfl⟩

/-- The end of a subscription to a signal that the hub does not have is none. -/
theorem unsubscribe_unrouted {signal : SignalId} (unrouted : s.world.hub.feedOf? signal = none) (token : Token) :
    unsubscribe c signal token s = some ((), { s with journal := .unsubscribeUnknownSignal token signal :: s.journal }) := by
  rw [unsubscribe, bind_at (hub_at s), unrouted]
  rfl

/-! ### Shutdowns -/

/-- What a shutdown of some feeds makes of a world. -/
structure Shuts (settings : Settings) (plans : List (FeedPlan V)) (thread : Thread) (is : List Nat) (w v : World V H R) : Prop where
  /-- It is made step by step. -/
  comes : w.Comes v
  /-- Nothing is under way afterwards. -/
  calm : v.IsCalm settings plans
  /-- Nothing in the hub changes but the feeds. -/
  hub : v.hub = { w.hub with feeds := v.hub.feeds }
  /-- There are as many feeds as before. -/
  length : v.hub.feeds.length = w.hub.feeds.length
  /-- What is left behind at each site. -/
  sites : ∀ i x, w.HasSite i x → v.HasSite i (if i ∈ is then x.shut thread else x)
  /-- Other providers are left alone. -/
  others : ∀ i, i ∉ is → v.sources[i]? = w.sources[i]?

theorem forM_shutdown (ends : ∀ i, c.onUnregister i = pure ()) {is : List Nat} (nodup : is.Nodup)
    (within : ∀ i ∈ is, i < s.world.hub.feeds.length) (calm : s.world.IsCalm settings plans) :
    ∃ journal v, (is.forM fun i => do let _ ← operate c i (.move (.shutdown i))) s = some ((), { s with world := v, journal }) ∧
      Shuts settings plans s.thread is s.world v := by
  induction is generalizing s with
  | nil => exact ⟨s.journal, s.world, rfl, .refl _, calm, rfl, rfl, fun _ _ at' => by simpa using at', fun _ _ => rfl⟩
  | cons i rest ih =>
    obtain ⟨x, at'⟩ := calm.exists_site (within i List.mem_cons_self)
    obtain ⟨fresh, nodup⟩ := List.nodup_cons.1 nodup
    have serving : Serves c s.thread i x .shutdown _ := serves_shutdown (ends i) (calm.rest i x at')
    obtain ⟨⟨journal, ran⟩, comes⟩ := operate_at at' serving (.shutdown calm.held) calm.held
    let w := s.world.after i (x.shut s.thread) []
    have calm' : w.IsCalm settings plans := by
      have cleared : Site.IsAtRest { x with feed := x.feed.cleared } :=
        (calm.rest i x at').like rfl rfl rfl rfl rfl rfl (calm.rest i x at').known
      exact calm.after (n := 0) comes cleared.withdraw
    have length : w.hub.feeds.length = s.world.hub.feeds.length := by simp [w, World.after]
    obtain ⟨journal', v, onward, shuts⟩ := ih (s := { s with world := w, journal }) nodup
      (fun j mem => length ▸ within j (List.mem_cons_of_mem _ mem)) calm'
    refine ⟨journal', v, ?_, comes.trans shuts.comes, shuts.calm, shuts.hub, shuts.length.trans length, fun j y at'' => ?_,
      fun j other => ?_⟩
    · have first : (do let _ ← operate c i (.move (.shutdown i)) : Act V H R X Unit) s = some ((), { s with world := w, journal }) :=
        (bind_at ran).trans rfl
      exact (bind_at first).trans onward
    · by_cases eq : j = i
      · subst eq
        obtain rfl := at'.unique at''
        have here : w.HasSite j (x.shut s.thread) := at'.after
        have done := shuts.sites j _ here
        rw [if_neg fresh] at done
        rwa [if_pos List.mem_cons_self]
      · have done := shuts.sites j y ((World.hasSite_after_of_ne eq).2 at'')
        have same : j ∈ i :: rest ↔ j ∈ rest := by simp [eq]
        simpa only [same] using done
    · obtain ⟨ne, other⟩ := not_or.1 (mt List.mem_cons.2 other)
      exact (shuts.others j other).trans (List.getElem?_set_ne (Ne.symm ne))

/-- **A shutdown** drops all subscriptions and ends all registrations. -/
theorem shutdown_at (ends : ∀ i, c.onUnregister i = pure ()) (calm : s.world.IsCalm settings plans) :
    ∃ journal v, shutdown c s = some ((), { s with world := v, journal }) ∧
      Shuts settings plans s.thread (List.range s.world.hub.feeds.length) s.world v := by
  rw [shutdown, bind_at (hub_at s)]
  exact forM_shutdown ends List.nodup_range (fun _ => List.mem_range.1) calm

/-! ### Providers -/

theorem does_push {thread : Thread} (plain : c.IsPlain i dec) (rest : x.IsAtRest) (payload : R) :
    let y : Site V H R := { x with source := { x.source with provider := x.source.provider.set payload } }
    (push c i payload).Does thread i x () (y.receive dec payload).1 (y.receive dec payload).2 :=
  does_invoking (l := .push i payload) (y := ⟨x.feed, _⟩) plain rest trivial rfl rfl fun w at' => by
    rw [← World.modifyProvider_at at'.source (·.set payload)]
    rfl

theorem does_announce {thread : Thread} (plain : c.IsPlain i dec) (rest : x.IsAtRest) (payload : R) :
    (announce c i payload).Does thread i x () (x.receive dec payload).1 (x.receive dec payload).2 :=
  does_invoking (l := .announce i payload) plain rest trivial rfl rfl fun w at' => by
    rw [World.set_of_getElem? at'.source]
    rfl

theorem does_set {thread : Thread} (x : Site V H R) (payload : R) :
    (setPayload i payload : Act V H R X Unit).Does thread i x ()
      { x with source := { x.source with provider := x.source.provider.set payload } } [] :=
  does_change (f := (·.set payload)) trivial fun _ => rfl

theorem does_refuse {thread : Thread} (x : Site V H R) (call : ProviderCall) (message : String) :
    (refuseNext i call message : Act V H R X Unit).Does thread i x ()
      { x with source := { x.source with provider := x.source.provider.refuse call message } } [] :=
  does_change (f := (·.refuse call message)) trivial fun _ => rfl

end Act

end LazyHub
