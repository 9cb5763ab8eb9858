import LazyHub.Feed.Basic
import LazyHub.Journal
import LazyHub.Step

/-!
# The steps of a feed

Every change of a feed is one of the steps below, each of which is atomic: what it does to the
feed shows to everyone at once. A client's request takes the state lock (`Feed.enter`); the
provider answers the calls made for it (`Feed.hear`) or invokes a callback (`Feed.invoke`); and
what is under way moves on (`Feed.advance`), where a label carries what the decoder made of the
payload it was given. Handles are copied and dropped (`Feed.clone`, `Feed.drop`).

A step that is not enabled is `none`: a client that finds a lock taken waits for another step.
Since decoders and subscribers are the clients' own code, nothing is said about what happens
between the steps of one operation; any steps of other operations may come in between.

An activation goes

    querying → decoding → seeding → writing → registering,

bumping the epoch first; a pull for a read stops after the writing. The end of a registration goes
`withdrawing → unregistering` and bumps the epoch in between. A push goes
`decoding → ready → writing → leaving`, and compares epochs when it takes the update lock.

A value that a push writes takes up to three steps under the update lock: it is offered to its
signal's gate; if that lets it through, the push looks whether anyone is subscribed; and if so it
posts the value. The update lock does not keep clients from subscribing, so they may in between.
-/

namespace LazyHub

variable {V H R : Type}

/-- What a client asks of a feed. -/
inductive FeedRequest (H : Type) where
  /-- To be active. -/
  | activate
  /-- To be inactive. -/
  | deactivate
  /-- To have the provider's payload in its outlets, unless pushes keep them current. -/
  | refresh
  /-- To add a subscription, and be active. -/
  | subscribe (signal : SignalId) (token : Token) (handler : H)
  /-- To end a subscription, and be inactive if it was the last. -/
  | unsubscribe (signal : SignalId) (token : Token)
  /-- To drop all subscriptions and be inactive. -/
  | shutdown
deriving DecidableEq

/-- What a provider answers to a call. -/
inductive ProviderReply (R : Type) where
  /-- The answer to a query. -/
  | queried (answer : Except ProviderFailure R)
  /-- The answer to a registration. -/
  | registered (answer : Except ProviderFailure Registration)
  /-- The answer to the end of a registration. -/
  | unregistered (answer : Except ProviderFailure Unit)

/-- How what is under way in a feed moves on. -/
inductive FeedMove (V : Type) where
  /-- The holder of the state lock hears from the decoder. -/
  | decoded (outcome : Except DecodeFailure (Emissions V))
  /-- The holder of the state lock takes the update lock. -/
  | seed
  /-- The holder of the update lock offers one value to its signal's gate. -/
  | write
  /-- A push that has changed a signal looks whether anyone is subscribed to it. -/
  | look
  /-- A push that has changed a signal and found subscribers posts the change. -/
  | post
  /-- The holder of the update lock, with nothing left to do, lets go of it. -/
  | settle
  /-- The holder of the state lock drops the subscribers of one more outlet. -/
  | clear
  /-- The holder of the state lock asks the provider to end the registration. -/
  | withdraw
  /-- A push hears from the decoder. -/
  | pushDecoded (number : Nat) (outcome : Except DecodeFailure (Emissions V))
  /-- A push takes the update lock, and finds its epoch current or not. -/
  | enter (number : Nat)
  /-- A push lets go of the feed. -/
  | leave (number : Nat)
  /-- The pool for blocking work ends a registration that the last owner left behind. -/
  | retire

/-- A call that a feed makes to its provider. -/
inductive FeedCall where
  /-- The query of the current payload. -/
  | query
  /-- The registration of a callback that carries an epoch. -/
  | register (epoch : Nat)
  /-- The end of a registration. -/
  | unregister (registration : Registration) (place : Place)
deriving DecidableEq

/-- What a step of a feed does outside of it. -/
inductive FeedEffect (V : Type) where
  /-- A call to the provider begins. -/
  | asked (call : FeedCall)
  /-- The lease of a payload ends. -/
  | released
  /-- The subscribers of a signal are owed a value. -/
  | owed (signal : SignalId) (value : V)
  /-- An entry for the journal. -/
  | noted (entry : Entry)

namespace Feed

/-- The result of a step of a feed. -/
abbrev Result (V H R : Type) := Stepped (Feed V H R) (FeedEffect V)

/-- The state lock is let go of with an answer. -/
def release (f : Feed V H R) (answer : Answer) (effects : List (FeedEffect V) := []) : Result V H R :=
  { state := { f with holder := none }, effects, answer := some answer }

/-- A subscription is added and counted. -/
def attach (f : Feed V H R) (signal : SignalId) (token : Token) (handler : H) : Feed V H R :=
  { f.modifyOutlet signal fun o => { o with subscribers := o.subscribers.insert token handler } with
    subscriptionCount := f.subscriptionCount + 1 }

/-- A subscription is ended and no longer counted. -/
def detach (f : Feed V H R) (signal : SignalId) (token : Token) : Feed V H R :=
  { f.modifyOutlet signal fun o => { o with subscribers := o.subscribers.erase token } with
    subscriptionCount := f.subscriptionCount - 1 }

/-- The state lock is taken for a pull. -/
def startPull (f : Feed V H R) (purpose : Purpose H) : Result V H R :=
  { state := { f with holder := some (.querying purpose) }, effects := [.asked .query] }

/-- The state lock is taken for an activation: a pull in a new epoch. -/
def startActivation (f : Feed V H R) (purpose : Purpose H) : Result V H R :=
  ({ f with epoch := f.epoch + 1 } : Feed V H R).startPull purpose

/-- A registration, if there is one, is to be ended; the state lock stays taken for it. -/
def startWithdrawal (f : Feed V H R) : Result V H R :=
  if f.registration.isSome then { state := { f with holder := some .withdrawing } }
  else f.release .done

/-- A client's request takes the state lock. A request that finds the feed as it wants it, or
has a single change to make, is answered at once. -/
def enter (f : Feed V H R) (request : FeedRequest H) : Option (Result V H R) :=
  if f.holder.isSome || f.handles = 0 then none
  else
    match request with
    | .activate => some (if f.isActive then f.release .done else f.startActivation .activate)
    | .deactivate => some f.startWithdrawal
    | .refresh => some (if f.isActive then f.release .done else f.startPull .refresh)
    | .subscribe signal token handler =>
      if (f.outlet? signal).isNone then none
      else if f.isActive then some ((f.attach signal token handler).release .done)
      else some (f.startActivation (.subscribe signal token handler))
    | .unsubscribe signal token =>
      match f.outlet? signal with
      | none => none
      | some o =>
        if !o.subscribers.contains token then some (f.release .unknownToken)
        else
          let g := f.detach signal token
          if g.subscriptionCount = 0 then some g.startWithdrawal else some (g.release .done)
    | .shutdown => some { state := { f with holder := some (.clearing 0 0) } }

/-- The provider answers the call that the holder of the state lock waits for. -/
def hear (f : Feed V H R) : ProviderReply R → Option (Result V H R)
  | .queried answer =>
    match f.holder with
    | some (.querying purpose) =>
      match answer with
      | .error failure => some (f.release (.failed (.queryFailed f.kind failure)))
      | .ok payload => some { state := { f with holder := some (.decoding purpose payload) } }
    | _ => none
  | .registered answer =>
    match f.holder with
    | some (.registering purpose) =>
      match answer with
      | .error failure =>
        some (({ f with callbacks := f.callbacks.erase f.epoch } : Feed V H R).release
          (.failed (.registerFailed f.kind failure)))
      | .ok registration =>
        let g : Feed V H R := { f with registration := some registration }
        let noted := [.noted (.activated f.kind registration)]
        match purpose with
        | .subscribe signal token handler => some ((g.attach signal token handler).release .done noted)
        | _ => some (g.release .done noted)
    | _ => none
  | .unregistered answer =>
    match f.holder with
    | some (.unregistering registration _) =>
      match answer with
      | .ok () => some (f.release .done [.noted (.deactivated f.kind registration)])
      | .error failure => some (f.release .done [.noted (.abandoned f.kind registration failure)])
    | _ => none

/-- The provider invokes a callback it was given. If nobody owns the feed any more the payload
goes straight back; otherwise a push is under way, and owns the feed until it leaves. -/
def invoke (f : Feed V H R) (epoch : Nat) (payload : R) : Option (Result V H R) :=
  if epoch ∉ f.callbacks then none
  else if f.owners = 0 then some { state := f, effects := [.released] }
  else
    some
      { state :=
          { f with
            pushes := f.pushes ++ [⟨f.pushCount, epoch, .decoding payload⟩]
            pushCount := f.pushCount + 1 } }

/-- Write one value through the gate of the outlet that answers to its signal. -/
def writeGate [SignalValue V] (f : Feed V H R) (e : Emission V) : Feed V H R :=
  f.modifyOutlet e.signal fun o => { o with gate := (o.gate.offer e.value).2 }

/-- Whether a value would change its signal. -/
def isChange [SignalValue V] (f : Feed V H R) (e : Emission V) : Bool :=
  match f.outlet? e.signal with
  | some o => (o.gate.offer e.value).1
  | none => false

/-- Whether anyone is subscribed to a signal. -/
def isWatched (f : Feed V H R) (signal : SignalId) : Bool :=
  match f.outlet? signal with
  | some o => !o.subscribers.isEmpty
  | none => false

/-- The holder of the update lock lets go of it. A push has nothing more to do with the values;
the holder of the state lock is done, or goes on to register a callback for the epoch. -/
def settleWriter (f : Feed V H R) (writer : Writer V) : Option (Result V H R) :=
  let g : Feed V H R := { f with writer := none }
  match writer.push with
  | some number => some { state := g.setPhase number .leaving }
  | none =>
    match f.holder with
    | some (.writing .refresh) => some (g.release .done)
    | some (.writing purpose) =>
      some
        { state := { g with holder := some (.registering purpose), callbacks := f.callbacks ++ [f.epoch] }
          effects := [.asked (.register f.epoch)] }
    | _ => none

/-- The provider is asked to end a registration, which the feed forgets at once. -/
def startUnregister (f : Feed V H R) (registration : Registration) (place : Place) : Result V H R :=
  { state := { f with registration := none, holder := some (.unregistering registration place) }
    effects := [.asked (.unregister registration place)] }

/-- What is under way moves on. -/
def advance [SignalValue V] (f : Feed V H R) : FeedMove V → Option (Result V H R)
  | .decoded outcome =>
    match f.holder with
    | some (.decoding purpose _) =>
      match f.admissible outcome with
      | .error failure => some (f.release (.failed (.decodeFailed f.kind failure)) [.released])
      | .ok values =>
        some { state := { f with holder := some (.seeding purpose values) }, effects := [.released] }
    | _ => none
  | .seed =>
    match f.holder, f.writer with
    | some (.seeding purpose values), none =>
      some { state := { f with holder := some (.writing purpose), writer := some { push := none, rest := values } } }
    | _, _ => none
  | .write =>
    match f.writer with
    | some ⟨push, e :: rest, .none⟩ =>
      let news := if push.isSome && f.isChange e then .fresh e else .none
      some { state := { f.writeGate e with writer := some { push, rest, news } } }
    | _ => none
  | .look =>
    match f.writer with
    | some ⟨push, rest, .fresh e⟩ =>
      let news := if f.isWatched e.signal then .wanted e else .none
      some { state := { f with writer := some { push, rest, news } } }
    | _ => none
  | .post =>
    match f.writer with
    | some ⟨push, rest, .wanted e⟩ =>
      some { state := { f with writer := some { push, rest } }, effects := [.owed e.signal e.value] }
    | _ => none
  | .settle =>
    match f.writer with
    | some ⟨push, [], .none⟩ => f.settleWriter { push, rest := [] }
    | _ => none
  | .clear =>
    match f.holder with
    | some (.clearing next dropped) =>
      match f.outlets[next]? with
      | some o =>
        some
          { state :=
              { f with
                outlets := f.outlets.modify next fun o => { o with subscribers := .empty }
                holder := some (.clearing (next + 1) (dropped + o.subscribers.size)) } }
      | none =>
        let r := ({ f with subscriptionCount := 0 } : Feed V H R).startWithdrawal
        some { r with effects := if dropped > 0 then [.noted (.shuttingDown f.kind dropped)] else [] }
    | _ => none
  | .withdraw =>
    match f.holder, f.registration with
    | some .withdrawing, some registration =>
      some (({ f with epoch := f.epoch + 1 } : Feed V H R).startUnregister registration .inPlace)
    | _, _ => none
  | .pushDecoded number outcome =>
    match f.push? number with
    | some ⟨_, _, .decoding _⟩ =>
      match f.admissible outcome with
      | .error failure =>
        some { state := f.setPhase number .leaving, effects := [.noted (.undecodable f.kind failure), .released] }
      | .ok values => some { state := f.setPhase number (.ready values), effects := [.released] }
    | _ => none
  | .enter number =>
    match f.push? number, f.writer with
    | some ⟨_, epoch, .ready values⟩, none =>
      if epoch = f.epoch then
        some { state := { f.setPhase number .writing with writer := some { push := some number, rest := values } } }
      else some { state := f.setPhase number .leaving, effects := [.noted (.stale f.kind)] }
    | _, _ => none
  | .leave number =>
    match f.push? number with
    | some ⟨_, _, .leaving⟩ =>
      let g : Feed V H R := { f with pushes := f.pushes.filter (·.number ≠ number) }
      some { state := { g with retiring := g.owners = 0 && g.registration.isSome } }
    | _ => none
  | .retire =>
    match f.retiring, f.registration with
    | true, some registration => some (({ f with retiring := false } : Feed V H R).startUnregister registration .pool)
    | _, _ => none

/-- A handle is copied. -/
def clone (f : Feed V H R) : Option (Result V H R) :=
  if f.handles = 0 then none else some { state := { f with handles := f.handles + 1 } }

/-- A handle is dropped; an operation under way keeps the last one. If the feed loses its last
owner, a registration it holds is ended there and then. -/
def drop (f : Feed V H R) : Option (Result V H R) :=
  if f.handles = 0 || (f.handles = 1 && f.holder.isSome) then none
  else
    let g : Feed V H R := { f with handles := f.handles - 1 }
    match g.owners, g.registration with
    | 0, some registration => some (g.startUnregister registration .inPlace)
    | _, _ => some { state := g }

end Feed

end LazyHub
