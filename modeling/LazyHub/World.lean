import LazyHub.Hub.Step

/-!
# Hubs over in-process providers

A hub leaves open what its providers answer. In a `World` every feed has an in-process provider,
so the answers are determined: a label says that a provider is called, and the step carries the
provider's answer to the feed. What stays open is what lies with clients: which operations they
start, what decoders make of payloads, what subscribers do, and in which order all this happens.

The answer to a registration travels separately from the registration itself, since a provider
may invoke a callback before the call that installs it has returned.
-/

namespace LazyHub

variable {V H R : Type}

/-- A feed's provider. Its callbacks are known by the epoch they carry. -/
structure Source (R : Type) where
  /-- The provider. -/
  provider : LocalProvider R Nat
  /-- The answer to a registration, while it travels to the feed. -/
  reply : Option (Except ProviderFailure Registration) := none

/-- A hub and the providers of its feeds, feed by feed. -/
structure World (V H R : Type) where
  /-- The hub. -/
  hub : Hub V H R
  /-- The providers. -/
  sources : List (Source R)

/-- A step of a hub over in-process providers. -/
inductive WorldLabel (V H R : Type) where
  /-- A step made by the hub's clients, workers or decoders. -/
  | move (m : HubMove V H)
  /-- A step made by a client that holds a feed itself. -/
  | use (feed : Nat) (u : FeedUse)
  /-- A provider answers the query that its feed waits for. -/
  | query (feed : Nat)
  /-- A provider carries out, or refuses, the registration that its feed waits for. -/
  | register (feed : Nat)
  /-- The answer to a registration reaches the feed. -/
  | registered (feed : Nat)
  /-- A provider carries out, or refuses, the end of a registration that its feed waits for. -/
  | unregister (feed : Nat) (thread : Thread)
  /-- A provider's payload changes, and its callback is invoked. -/
  | push (feed : Nat) (payload : R)
  /-- A provider's callback is invoked with a payload that queries do not show. -/
  | announce (feed : Nat) (payload : R)
  /-- A provider's payload changes without anyone being told. -/
  | set (feed : Nat) (payload : R)
  /-- A provider is armed to refuse its next call of one sort. -/
  | refuse (feed : Nat) (call : ProviderCall) (message : String)

namespace World

/-- The result of a step of a world. -/
abbrev Result (V H R : Type) := Stepped (World V H R) (HubEffect V H)

/-- A hub assembled from plans over providers, which are left as they are. -/
def assembleOver (settings : Settings) (plans : List (FeedPlan V × LocalProvider R Nat)) :
    Except HubFailure (World V H R) :=
  (Hub.assemble settings (plans.map (·.1))).map fun hub => { hub, sources := plans.map fun p => { provider := p.2 } }

/-- A hub assembled from plans over new providers with their first payloads. -/
def assemble (settings : Settings) (plans : List (FeedPlan V × R)) : Except HubFailure (World V H R) :=
  assembleOver settings (plans.map fun p => (p.1, .ofInitial p.2))

/-- A single feed over a new provider, held by its clients themselves. -/
def lone (settings : Settings) (plan : FeedPlan V) (payload : R) : Except HubFailure (World V H R) :=
  (Hub.lone settings plan).map fun hub => { hub, sources := [{ provider := .ofInitial payload }] }

/-- Change the provider of a feed. -/
def modifyProvider (w : World V H R) (feed : Nat) (f : LocalProvider R Nat → LocalProvider R Nat) :
    World V H R :=
  { w with sources := w.sources.modify feed fun s => { s with provider := f s.provider } }

/-- The leases that a hub's step ends come back to the providers. -/
def takeBack (w : World V H R) : List (HubEffect V H) → World V H R
  | [] => w
  | .released feed :: rest => (w.modifyProvider feed LocalProvider.takeBack).takeBack rest
  | _ :: rest => w.takeBack rest

/-- Let the hub make a step. -/
def onHub [SignalValue V] (w : World V H R) (label : HubLabel V H R) : Option (Result V H R) :=
  (w.hub.step label).map fun r =>
    { state := { w with hub := r.state }.takeBack r.effects, effects := r.effects, answer := r.answer }

/-- Invoke the callback of a provider, if it has one. -/
def invokeCallback [SignalValue V] (w : World V H R) (feed : Nat) (payload : R) : Option (Result V H R) :=
  match (w.sources[feed]?).bind (·.provider.callback?) with
  | some epoch => w.onHub (.invoke feed epoch payload)
  | none => some { state := w }

/-- What the holder of a feed's state lock is doing. -/
def holder? (w : World V H R) (feed : Nat) : Option (Section V H R) := (w.hub.feeds[feed]?).bind (·.holder)

/-- One step of a hub over in-process providers. -/
def step [SignalValue V] (w : World V H R) : WorldLabel V H R → Option (Result V H R)
  | .move m => w.onHub (.move m)
  | .use feed u => w.onHub (.use feed u)
  | .query feed =>
    match w.sources[feed]? with
    | some s =>
      let (answer, provider) := s.provider.query
      (w.modifyProvider feed fun _ => provider).onHub (.hear feed (.queried answer))
    | none => none
  | .register feed =>
    match w.sources[feed]?, w.hub.feeds[feed]?, w.holder? feed with
    | some ⟨provider, none⟩, some f, some (.registering _) =>
      let (reply, provider) := provider.register f.epoch
      some { state := { w with sources := w.sources.set feed ⟨provider, some reply⟩ } }
    | _, _, _ => none
  | .registered feed =>
    match w.sources[feed]? with
    | some ⟨provider, some reply⟩ =>
      ({ w with sources := w.sources.set feed ⟨provider, none⟩ } : World V H R).onHub
        (.hear feed (.registered reply))
    | _ => none
  | .unregister feed thread =>
    match w.sources[feed]?, w.holder? feed with
    | some s, some (.unregistering registration place) =>
      let made := match place with
        | .inPlace => thread
        | .pool => .pool
      let (answer, provider) := s.provider.unregister registration made
      (w.modifyProvider feed fun _ => provider).onHub (.hear feed (.unregistered answer))
    | _, _ => none
  | .push feed payload => (w.modifyProvider feed (·.set payload)).invokeCallback feed payload
  | .announce feed payload => w.invokeCallback feed payload
  | .set feed payload => some { state := w.modifyProvider feed (·.set payload) }
  | .refuse feed call message => some { state := w.modifyProvider feed (·.refuse call message) }

end World

end LazyHub
