import LazyHub.Hub.Step
import LazyHub.Proofs.Feed.Transition

/-!
# What a step of a hub can do

A hub's step is the step of one of its feeds, a step of its workers, or one of the few steps of
its own: a token is drawn, handles are copied and dropped, and the feeds are let go of.
`Hub.Serves` says which step of which feed a label stands for, and `Hub.Transition` lists all
that a step can do. `Hub.transition_of_step` says that the list is complete.

`Hub.Reachable` is every state that a hub over some plans comes to by steps that a hub's clients,
workers, decoders and providers make (`HubLabel.IsOwn`). Its feeds are nobody's but the hub's.
-/

namespace LazyHub

variable {V H R : Type}

/-- The step of a feed that a client makes who holds the feed itself. -/
def FeedUse.label : FeedUse → FeedLabel V H R
  | activate => .enter .activate
  | deactivate => .enter .deactivate
  | refresh => .enter .refresh
  | clone => .clone
  | drop => .drop

/-- The steps that can be made where nobody but the hub holds a feed. -/
def HubLabel.IsOwn : HubLabel V H R → Prop
  | .use .. => False
  | _ => True

namespace Hub

/-- Clients still hold the hub. -/
def IsHeld (h : Hub V H R) : Prop := ∃ n, h.life = .held n

/-- **The step of a feed that a hub's step stands for**: the feed, its label, and the hub from
which the feed makes its step. -/
inductive Serves (h : Hub V H R) : HubLabel V H R → Nat → FeedLabel V H R → Hub V H R → Prop where
  /-- A subscription that has its token enters its feed. -/
  | subscribe {i : Nat} {request : Request H} {token : Token}
      (drawn : h.requests.find? (·.token = token) = some request) (named : request.token = token)
      (routes : h.feedOf? request.key.id = some i) :
      Serves h (.move (.subscribe token)) i (.enter (.subscribe request.key.id token request.handler))
        { h with requests := h.requests.filter (·.token ≠ token) }
  /-- A subscription is to end. -/
  | unsubscribe {i : Nat} {signal : SignalId} {token : Token} (held : h.IsHeld)
      (routes : h.feedOf? signal = some i) :
      Serves h (.move (.unsubscribe signal token)) i (.enter (.unsubscribe signal token)) h
  /-- A read enters a feed. -/
  | refresh {i : Nat} (held : h.IsHeld) : Serves h (.move (.refresh i)) i (.enter .refresh) h
  /-- A shutdown enters a feed. -/
  | shutdown {i : Nat} (held : h.IsHeld) : Serves h (.move (.shutdown i)) i (.enter .shutdown) h
  /-- What is under way in a feed moves on. -/
  | advance {i : Nat} {move : FeedMove V} : Serves h (.move (.advance i move)) i (.advance move) h
  /-- The closing of the hub shuts its next feed down. -/
  | close {i : Nat} (closing : h.life = .closing i) (quiet : h.isQuiet) (more : i < h.feeds.length) :
      Serves h (.move .close) i (.enter .shutdown) { h with life := .closing (i + 1) }
  /-- A provider answers. -/
  | hear {i : Nat} {reply : ProviderReply R} : Serves h (.hear i reply) i (.hear reply) h
  /-- A provider invokes a callback. -/
  | invoke {i epoch : Nat} {payload : R} : Serves h (.invoke i epoch payload) i (.invoke epoch payload) h
  /-- A client makes a step who holds the feed itself. -/
  | use {i : Nat} {u : FeedUse} {fl : FeedLabel V H R} (made : fl = u.label) : Serves h (.use i u) i fl h

/-- What is left behind where a feed makes a step: the feed is in its new state, and the step's
effects are taken over. -/
def afterFeed (h : Hub V H R) (i : Nat) (fr : Feed.Result V H R) : Result V H R :=
  let (g, effects) := ({ h with feeds := h.feeds.set i fr.state } : Hub V H R).absorbAll i fr.effects
  { state := g, effects, answer := fr.answer }

variable [SignalValue V]

/-- **What a step of a hub can do.** -/
inductive Transition (h : Hub V H R) : HubLabel V H R → Result V H R → Prop where
  /-- One of the feeds makes a step. -/
  | feed {l : HubLabel V H R} {i : Nat} {fl : FeedLabel V H R} {g : Hub V H R} {f : Feed V H R}
      {fr : Feed.Result V H R} (serves : h.Serves l i fl g) (there : h.feeds[i]? = some f)
      (step : f.step fl = some fr) : Transition h l (g.afterFeed i fr)
  /-- A subscription draws its token. -/
  | draw {key : Key} {handler : H} {i : Nat} (held : h.IsHeld) (routes : h.route key = .ok i) :
      Transition h (.move (.draw key handler))
        { state :=
            { h with
              nextToken := h.nextToken + 1
              requests := h.requests ++ [⟨⟨h.nextToken⟩, key, handler⟩] } }
  /-- A worker takes up what is next in its queue. -/
  | take {w : Nat} {pool : WorkerPool (Notice V) (Delivery V H)}
      (taken : (h.pool.take w fun signal notice =>
        { signal, value := notice.value, waiting := h.subscribersOf notice.feed signal }) = some pool) :
      Transition h (.move (.take w)) { state := { h with pool } }
  /-- A worker calls the next subscriber of its delivery. -/
  | call {w : Nat} {signal : SignalId} {value : V} {token : Token} {handler : H}
      {rest : List (Token × H)}
      (current : h.pool.current? w = some ⟨signal, value, (token, handler) :: rest, none⟩) :
      Transition h (.move (.call w))
        { state := { h with pool := h.pool.setCurrent w ⟨signal, value, rest, some (token, handler)⟩ }
          effects := [.called token handler signal value] }
  /-- The subscriber called returns, or its panic is caught. -/
  | returned {w : Nat} {panicked : Bool} {signal : SignalId} {value : V} {rest : List (Token × H)}
      {token : Token} {handler : H}
      (current : h.pool.current? w = some ⟨signal, value, rest, some (token, handler)⟩)
      (caught : panicked = true → h.pool.catches = true) :
      Transition h (.move (.returned w panicked))
        { state := { h with pool := h.pool.setCurrent w ⟨signal, value, rest, none⟩ }
          effects := if panicked then [.noted (.subscriberPanicked token signal)] else [] }
  /-- The subscriber called panics, which ends the worker. -/
  | collapsed {w : Nat} {d : Delivery V H} (current : h.pool.current? w = some d)
      (uncaught : h.pool.catches = false) :
      Transition h (.move (.returned w true)) { state := { h with pool := h.pool.collapse w } }
  /-- A worker ends its delivery. -/
  | finish {w : Nat} {signal : SignalId} {value : V}
      (current : h.pool.current? w = some ⟨signal, value, [], none⟩) :
      Transition h (.move (.finish w)) { state := { h with pool := h.pool.finish w } }
  /-- A worker ends because nobody can send to it any more. -/
  | stop {w : Nat} (abandoned : h.isAbandoned) (idle : h.pool.isIdle w) :
      Transition h (.move (.stop w))
        { state := { h with pool := h.pool.collapse w }, effects := [.noted (.workerStopped w)] }
  /-- A flush starts. -/
  | startFlush : Transition h (.move .startFlush) { state := { h with pool := h.pool.startFlush } }
  /-- A flush sends its next marker. -/
  | mark {n : Nat} {pool : WorkerPool (Notice V) (Delivery V H)} (marked : h.pool.mark n = some pool) :
      Transition h (.move (.mark n)) { state := { h with pool } }
  /-- A flush that is resolved ends. -/
  | resolve {n : Nat} {pool : WorkerPool (Notice V) (Delivery V H)}
      (resolved : h.pool.resolve n = some pool) :
      Transition h (.move (.resolve n)) { state := { h with pool } }
  /-- A handle is copied. -/
  | clone {n : Nat} (held : h.life = .held (n + 1)) :
      Transition h (.move .clone) { state := { h with life := .held (n + 2) } }
  /-- A handle is dropped, and others are left. -/
  | drop {n : Nat} (held : h.life = .held (n + 2)) :
      Transition h (.move .drop) { state := { h with life := .held (n + 1) } }
  /-- The last handle is dropped, and the hub closes. -/
  | dropLast (held : h.life = .held 1) (undrawn : h.requests = []) (quiet : h.isQuiet) :
      Transition h (.move .drop)
        { state := { h with life := .closing 0 }, effects := [.noted .tornDown] }
  /-- The feeds of a hub that is closed are let go of. -/
  | letGo {next : Nat} (closing : h.life = .closing next) (quiet : h.isQuiet)
      (all : h.feeds.length ≤ next) : Transition h (.move .close) { state := h.letGo }

theorem transition_of_onFeed {h g : Hub V H R} {l : HubLabel V H R} {i : Nat} {fl : FeedLabel V H R}
    {r : Result V H R} (serves : h.Serves l i fl g) (feeds : g.feeds = h.feeds)
    (step : g.onFeed i (·.step fl) = some r) : h.Transition l r := by
  unfold onFeed at step
  split at step
  · cases step
  rename_i f there
  obtain ⟨fr, made, rfl⟩ := Option.map_eq_some_iff.1 step
  exact .feed serves (feeds ▸ there) made

theorem transition_of_act {h : Hub V H R} {m : HubMove V H} {r : Result V H R} (step : h.act m = some r) :
    h.Transition (.move m) r := by
  cases m with
  | draw key handler =>
    simp only [act] at step
    split at step
    · rename_i n i held routes
      cases step
      exact .draw ⟨n, held⟩ routes
    · cases step
  | subscribe token =>
    simp only [act] at step
    split at step
    · rename_i request drawn
      have named : request.token = token := by simpa using List.find?_some drawn
      split at step
      · rename_i i routes
        exact transition_of_onFeed (.subscribe drawn named routes) rfl step
      · cases step
    · cases step
  | unsubscribe signal token =>
    simp only [act] at step
    split at step
    · rename_i n i held routes
      exact transition_of_onFeed (.unsubscribe ⟨n, held⟩ routes) rfl step
    · cases step
  | refresh i =>
    simp only [act] at step
    split at step
    · rename_i n held
      exact transition_of_onFeed (.refresh ⟨n, held⟩) rfl step
    · cases step
  | shutdown i =>
    simp only [act] at step
    split at step
    · rename_i n held
      exact transition_of_onFeed (.shutdown ⟨n, held⟩) rfl step
    · cases step
  | advance i move => exact transition_of_onFeed .advance rfl step
  | take w =>
    obtain ⟨pool, taken, rfl⟩ := Option.map_eq_some_iff.1 step
    exact .take taken
  | call w =>
    simp only [act, callNext] at step
    split at step
    · rename_i signal value token handler rest current
      cases step
      exact .call current
    · cases step
  | returned w panicked =>
    simp only [act, callReturned] at step
    split at step
    · rename_i signal value rest token handler current
      cases panicked with
      | false =>
        cases step
        exact .returned current (by simp)
      | true =>
        simp only [Bool.not_true, Bool.false_eq_true, if_false] at step
        split at step
        · rename_i catches
          cases step
          exact .returned current fun _ => catches
        · rename_i uncaught
          cases step
          exact .collapsed current (by simpa using uncaught)
    · cases step
  | finish w =>
    simp only [act] at step
    split at step
    · rename_i signal value current
      cases step
      exact .finish current
    · cases step
  | stop w =>
    simp only [act] at step
    split at step
    · rename_i stops
      simp only [Bool.and_eq_true] at stops
      cases step
      exact .stop stops.1 stops.2
    · cases step
  | startFlush =>
    cases step
    exact .startFlush
  | mark n =>
    obtain ⟨pool, marked, rfl⟩ := Option.map_eq_some_iff.1 step
    exact .mark marked
  | resolve n =>
    obtain ⟨pool, resolved, rfl⟩ := Option.map_eq_some_iff.1 step
    exact .resolve resolved
  | clone =>
    simp only [act] at step
    split at step
    · rename_i n held
      cases step
      exact .clone held
    · cases step
  | drop =>
    simp only [act] at step
    split at step
    · rename_i n held
      cases step
      exact .drop held
    · rename_i held
      split at step
      · rename_i idle
        simp only [Bool.and_eq_true, List.isEmpty_iff] at idle
        cases step
        exact .dropLast held idle.1 idle.2
      · cases step
    · cases step
  | close =>
    simp only [act] at step
    split at step
    · rename_i next closing
      split at step
      · cases step
      rename_i quiet
      have quiet : h.isQuiet := by simpa using quiet
      split at step
      · rename_i more
        exact transition_of_onFeed (.close closing quiet more) rfl step
      · rename_i all
        cases step
        exact .letGo closing quiet (Nat.le_of_not_lt all)
    · cases step

/-- **The list is complete**: every step of a hub is one of the cases of `Transition`. -/
theorem transition_of_step {h : Hub V H R} {l : HubLabel V H R} {r : Result V H R}
    (step : h.step l = some r) : h.Transition l r := by
  cases l with
  | move m => exact transition_of_act step
  | hear i reply => exact transition_of_onFeed .hear rfl step
  | invoke i epoch payload => exact transition_of_onFeed .invoke rfl step
  | use i u => cases u <;> exact transition_of_onFeed (.use rfl) rfl step

/-- A step of a feed that a label stands for is what the hub does. -/
theorem Serves.step {h g : Hub V H R} {l : HubLabel V H R} {i : Nat} {fl : FeedLabel V H R} {f : Feed V H R}
    {fr : Feed.Result V H R} (serves : h.Serves l i fl g) (there : h.feeds[i]? = some f)
    (made : f.step fl = some fr) : h.step l = some (g.afterFeed i fr) := by
  have onFeed : ∀ {k : Hub V H R} {step : Feed V H R → Option (Feed.Result V H R)}, k.feeds = h.feeds →
      step f = some fr → k.onFeed i step = some (k.afterFeed i fr) := by
    intro k step same made
    have there' : k.feeds[i]? = some f := same ▸ there
    simp only [Hub.onFeed, there', made]
    rfl
  cases serves with
  | subscribe drawn named routes =>
    simp only [Hub.step, act, drawn, routes]
    exact onFeed rfl made
  | unsubscribe held routes =>
    obtain ⟨n, held⟩ := held
    simp only [Hub.step, act, held, routes]
    exact onFeed rfl made
  | refresh held | shutdown held =>
    obtain ⟨n, held⟩ := held
    simp only [Hub.step, act, held]
    exact onFeed rfl made
  | advance | hear | invoke => exact onFeed rfl made
  | close closing quiet more =>
    simp only [Hub.step, act, closing, quiet, more, Bool.not_true, Bool.false_eq_true, if_false, if_true]
    exact onFeed rfl made
  | @use _ u _ eq =>
    subst eq
    cases u <;> exact onFeed rfl made

/-- The states that a hub over some plans comes to. -/
inductive Reachable (settings : Settings) (plans : List (FeedPlan V)) : Hub V H R → Prop where
  /-- The hub is assembled. -/
  | assembled {h : Hub V H R} (start : assemble settings plans = .ok h) : Reachable settings plans h
  /-- The hub makes a step. -/
  | step {h : Hub V H R} {l : HubLabel V H R} {r : Result V H R} (before : Reachable settings plans h)
      (own : l.IsOwn) (made : h.step l = some r) : Reachable settings plans r.state

theorem Reachable.run {settings : Settings} {plans : List (FeedPlan V)} {h k : Hub V H R}
    {labels : List (HubLabel V H R)} {effects : List (HubEffect V H)} (before : Reachable settings plans h)
    (own : ∀ l ∈ labels, l.IsOwn) (ran : run Hub.step labels h = some (k, effects)) :
    Reachable settings plans k :=
  run_keeps (fun l hl _ _ hp made => hp.step (own l hl) made) ran before

end Hub

end LazyHub
