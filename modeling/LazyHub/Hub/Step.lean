import LazyHub.Hub.Basic

/-!
# The steps of a hub

A hub moves by the steps of its feeds and of its workers, and by its own: drawing a token, and
copying and dropping handles. The labels come in four sorts, according to who has a say in the
step. A `HubMove` is made by the hub's clients, workers and decoders; a provider's answer and a
provider's callback come from outside; and a `FeedUse` is made by a client that holds a feed
itself, which nobody does whose feeds belong to a hub.

A subscription takes two steps of its own: its token is drawn when the key has been found to be
well typed, and its feed is entered when the state lock is free. Between them other
subscriptions can do the same in any order.

A delivery starts by looking up who is subscribed, and from then on calls those it found, one
after another; between the start and the end of a call anything can happen.
-/

namespace LazyHub

variable {V H R : Type}

/-- A step made by a hub's clients, workers or decoders. -/
inductive HubMove (V H : Type) where
  /-- A subscription to a well-typed key draws its token. -/
  | draw (key : Key) (handler : H)
  /-- A subscription that has its token enters its feed. -/
  | subscribe (token : Token)
  /-- A subscription is to end. -/
  | unsubscribe (signal : SignalId) (token : Token)
  /-- A read enters the feed of its signal. -/
  | refresh (feed : Nat)
  /-- A shutdown enters a feed. -/
  | shutdown (feed : Nat)
  /-- What is under way in a feed moves on. -/
  | advance (feed : Nat) (move : FeedMove V)
  /-- A worker takes up what is next in its queue. Whom a notification is for is looked up now, and it
  counts as queued until then: nobody else sees the worker pick it. -/
  | take (worker : Nat)
  /-- A worker calls the next subscriber of its delivery. -/
  | call (worker : Nat)
  /-- The subscriber called returns or panics. -/
  | returned (worker : Nat) (panicked : Bool)
  /-- A worker ends its delivery, having called everyone. -/
  | finish (worker : Nat)
  /-- A worker ends because nobody can send to it any more. -/
  | stop (worker : Nat)
  /-- A flush starts. -/
  | startFlush
  /-- A flush sends its next marker. -/
  | mark (flush : Nat)
  /-- A flush that is resolved ends. -/
  | resolve (flush : Nat)
  /-- A handle is copied. -/
  | clone
  /-- A handle is dropped. -/
  | drop
  /-- The closing of a hub that nobody holds goes on. -/
  | close

/-- A step made by a client that holds a feed itself. -/
inductive FeedUse where
  /-- The feed is to be active. -/
  | activate
  /-- The feed is to be inactive. -/
  | deactivate
  /-- The provider's payload is to be pulled, unless the feed is active. -/
  | refresh
  /-- The handle is copied. -/
  | clone
  /-- A handle is dropped. -/
  | drop
deriving DecidableEq

/-- A step of a hub. -/
inductive HubLabel (V H R : Type) where
  /-- A step made by the hub's clients, workers or decoders. -/
  | move (m : HubMove V H)
  /-- The answer of a feed's provider. -/
  | hear (feed : Nat) (reply : ProviderReply R)
  /-- A callback invoked by a feed's provider. -/
  | invoke (feed : Nat) (epoch : Nat) (payload : R)
  /-- A step made by a client that holds a feed itself. -/
  | use (feed : Nat) (u : FeedUse)

/-- What a step of a hub does outside of it. -/
inductive HubEffect (V H : Type) where
  /-- A call to a feed's provider begins. -/
  | asked (feed : Nat) (call : FeedCall)
  /-- The lease of a payload of a feed's provider ends. -/
  | released (feed : Nat)
  /-- A subscriber is called. -/
  | called (token : Token) (handler : H) (signal : SignalId) (value : V)
  /-- An entry for the journal. -/
  | noted (entry : Entry)

namespace Hub

/-- The result of a step of a hub. -/
abbrev Result (V H R : Type) := Stepped (Hub V H R) (HubEffect V H)

/-- What an effect of a feed is for the hub. A value that is owed is posted to the pool. -/
def absorb (h : Hub V H R) (feed : Nat) : FeedEffect V → Hub V H R × List (HubEffect V H)
  | .asked call => (h, [.asked feed call])
  | .released => (h, [.released feed])
  | .noted entry => (h, [.noted entry])
  | .owed signal value =>
    let (accepted, pool) := h.pool.post signal ⟨feed, value⟩
    ({ h with pool }, if accepted then [] else [.noted (.workerGone signal)])

/-- Take over the effects of a feed's step in order. -/
def absorbAll (h : Hub V H R) (feed : Nat) : List (FeedEffect V) → Hub V H R × List (HubEffect V H)
  | [] => (h, [])
  | e :: rest =>
    let (g, first) := h.absorb feed e
    let (k, later) := g.absorbAll feed rest
    (k, first ++ later)

/-- Let one feed make a step. -/
def onFeed (h : Hub V H R) (feed : Nat) (step : Feed V H R → Option (Feed.Result V H R)) :
    Option (Result V H R) :=
  match h.feeds[feed]? with
  | none => none
  | some f =>
    (step f).map fun r =>
      let (g, effects) := ({ h with feeds := h.feeds.set feed r.state } : Hub V H R).absorbAll feed r.effects
      { state := g, effects, answer := r.answer }

/-- A step without effects. -/
def quietly (h : Hub V H R) : Result V H R := { state := h }

/-- Let a delivery call its next subscriber. -/
def callNext (h : Hub V H R) (worker : Nat) : Option (Result V H R) :=
  match h.pool.current? worker with
  | some ⟨signal, value, (token, handler) :: rest, none⟩ =>
    some
      { state := { h with pool := h.pool.setCurrent worker ⟨signal, value, rest, some (token, handler)⟩ }
        effects := [.called token handler signal value] }
  | _ => none

/-- The subscriber called returns or panics. A panic is caught and noted, or ends the worker. -/
def callReturned (h : Hub V H R) (worker : Nat) (panicked : Bool) : Option (Result V H R) :=
  match h.pool.current? worker with
  | some ⟨signal, value, rest, some (token, _)⟩ =>
    let pool := h.pool.setCurrent worker ⟨signal, value, rest, none⟩
    if !panicked then some { state := { h with pool } }
    else if h.pool.catches then
      some { state := { h with pool }, effects := [.noted (.subscriberPanicked token signal)] }
    else some { state := { h with pool := h.pool.collapse worker } }
  | _ => none

/-- Let go of every feed. The feeds are inactive by then. -/
def letGo (h : Hub V H R) : Hub V H R :=
  { h with feeds := h.feeds.map fun f => { f with handles := f.handles - 1 }, life := .closed }

/-- One step made by the hub's clients, workers or decoders. -/
def act [SignalValue V] (h : Hub V H R) : HubMove V H → Option (Result V H R)
  | .draw key handler =>
    match h.life, h.route key with
    | .held _, .ok _ =>
      some
        { state :=
            { h with
              nextToken := h.nextToken + 1
              requests := h.requests ++ [⟨⟨h.nextToken⟩, key, handler⟩] } }
    | _, _ => none
  | .subscribe token =>
    match h.requests.find? (·.token = token) with
    | some request =>
      match h.feedOf? request.key.id with
      | some feed =>
        ({ h with requests := h.requests.filter (·.token ≠ token) } : Hub V H R).onFeed feed
          (·.enter (.subscribe request.key.id token request.handler))
      | none => none
    | none => none
  | .unsubscribe signal token =>
    match h.life, h.feedOf? signal with
    | .held _, some feed => h.onFeed feed (·.enter (.unsubscribe signal token))
    | _, _ => none
  | .refresh feed =>
    match h.life with
    | .held _ => h.onFeed feed (·.enter .refresh)
    | _ => none
  | .shutdown feed =>
    match h.life with
    | .held _ => h.onFeed feed (·.enter .shutdown)
    | _ => none
  | .advance feed move => h.onFeed feed (·.advance move)
  | .take worker =>
    (h.pool.take worker fun signal notice =>
      { signal, value := notice.value, waiting := h.subscribersOf notice.feed signal }).map
      fun pool => quietly { h with pool }
  | .call worker => h.callNext worker
  | .returned worker panicked => h.callReturned worker panicked
  | .finish worker =>
    match h.pool.current? worker with
    | some ⟨_, _, [], none⟩ => some (quietly { h with pool := h.pool.finish worker })
    | _ => none
  | .stop worker =>
    if h.isAbandoned && h.pool.isIdle worker then
      some { state := { h with pool := h.pool.collapse worker }, effects := [.noted (.workerStopped worker)] }
    else none
  | .startFlush => some (quietly { h with pool := h.pool.startFlush })
  | .mark flush => (h.pool.mark flush).map fun pool => quietly { h with pool }
  | .resolve flush => (h.pool.resolve flush).map fun pool => quietly { h with pool }
  | .clone =>
    match h.life with
    | .held (n + 1) => some (quietly { h with life := .held (n + 2) })
    | _ => none
  | .drop =>
    match h.life with
    | .held (n + 2) => some (quietly { h with life := .held (n + 1) })
    | .held 1 =>
      if h.requests.isEmpty && h.isQuiet then
        some { state := { h with life := .closing 0 }, effects := [.noted .tornDown] }
      else none
    | _ => none
  | .close =>
    match h.life with
    | .closing next =>
      if !h.isQuiet then none
      else if next < h.feeds.length then
        ({ h with life := .closing (next + 1) } : Hub V H R).onFeed next (·.enter .shutdown)
      else some (quietly h.letGo)
    | _ => none

/-- One step made by a client that holds a feed itself. -/
def use (h : Hub V H R) (feed : Nat) : FeedUse → Option (Result V H R)
  | .activate => h.onFeed feed (·.enter .activate)
  | .deactivate => h.onFeed feed (·.enter .deactivate)
  | .refresh => h.onFeed feed (·.enter .refresh)
  | .clone => h.onFeed feed Feed.clone
  | .drop => h.onFeed feed Feed.drop

/-- One step of a hub. -/
def step [SignalValue V] (h : Hub V H R) : HubLabel V H R → Option (Result V H R)
  | .move m => h.act m
  | .hear feed reply => h.onFeed feed (·.hear reply)
  | .invoke feed epoch payload => h.onFeed feed (·.invoke epoch payload)
  | .use feed u => h.use feed u

end Hub

end LazyHub
