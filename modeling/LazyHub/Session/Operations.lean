import LazyHub.Session.Serve

/-!
# The operations of a hub

What clients ask of a hub, of a feed that they hold themselves, and of an in-process provider,
each from its beginning to its answer.

A read pulls from the provider while nobody listens to its kind, so the value is never older
than the read; otherwise pushes keep the value current and a read asks nobody. A subscription
whose feed cannot be activated fails and does not exist. The last handle dropped, and the last
subscription ended, leave no registration behind.
-/

namespace LazyHub.Act

variable {V H R X : Type} [SignalValue V]

/-- Start an operation on a feed, and carry it to its answer. -/
def operate (c : Client V H R X) (i : Nat) (label : WorldLabel V H R) : Act V H R X Answer := do
  serve c i (← perform label)

/-- The current value of a signal. -/
def read (c : Client V H R X) (key : Key) : Act V H R X (Except HubFailure V) := do
  match (← hub).route key with
  | .error failure => pure (.error failure)
  | .ok i =>
    match (← operate c i (.move (.refresh i))).toExcept with
    | .error failure => pure (.error failure)
    | .ok () =>
      match (← hub).cached? key.id with
      | some value => pure (.ok value)
      | none => stuck

/-- Subscribe to a signal. -/
def subscribe (c : Client V H R X) (key : Key) (handler : H) : Act V H R X (Except HubFailure Token) := do
  match (← hub).route key with
  | .error failure => pure (.error failure)
  | .ok i =>
    let token : Token := ⟨(← hub).nextToken⟩
    performOn (.move (.draw key handler))
    match (← operate c i (.move (.subscribe token))).toExcept with
    | .error failure => pure (.error failure)
    | .ok () =>
      note (.subscribed token key)
      pure (.ok token)

/-- End a subscription. A token that names none is ignored. -/
def unsubscribe (c : Client V H R X) (signal : SignalId) (token : Token) : Act V H R X Unit := do
  match (← hub).feedOf? signal with
  | none => note (.unsubscribeUnknownSignal token signal)
  | some i =>
    match ← operate c i (.move (.unsubscribe signal token)) with
    | .unknownToken => note (.unsubscribeUnknownToken token signal)
    | _ => note (.unsubscribed token signal)

/-- Drop every subscription, and end every registration. -/
def shutdown (c : Client V H R X) : Act V H R X Unit := do
  (List.range (← hub).feeds.length).forM fun i => do
    let _ ← operate c i (.move (.shutdown i))

/-- Take one more handle on the hub. -/
def cloneHandle : Act V H R X Unit := performOn (.move .clone)

/-- Shut down the feeds of a hub that nobody holds, one after another, and let go of them. -/
def closeHub (c : Client V H R X) : Act V H R X Unit := do
  (List.range (← hub).feeds.length).forM fun i => do
    let _ ← operate c i (.move .close)
  performOn (.move .close)

/-- Drop a handle on the hub. The last one closes the hub. -/
def dropHandle (c : Client V H R X) : Act V H R X Unit := do
  performOn (.move .drop)
  match (← hub).life with
  | .closing _ => closeHub c
  | _ => pure ()

/-- Act with a handle of one's own, which is dropped in the end. -/
def withHandle {α : Type} (c : Client V H R X) (act : Act V H R X α) : Act V H R X α := do
  cloneHandle
  let answer ← act
  dropHandle c
  pure answer

/-- Have everything delivered that was detected before, in at most so many turns of the workers. -/
def flush (c : Client V H R X) (turns : Nat) : Act V H R X Unit := do
  let number := (← hub).pool.flushCount
  performOn (.move .startFlush)
  (List.range (← hub).pool.size).forM fun _ => performOn (.move (.mark number))
  drain c turns
  performOn (.move (.resolve number))

/-- Let the workers work although nobody waits for them. If nobody can send to them any more
they end. -/
def idle (c : Client V H R X) (turns : Nat) : Act V H R X Unit := do
  drain c turns
  (List.range (← hub).pool.size).forM fun worker => do
    let h ← hub
    if h.isAbandoned && h.pool.isIdle worker then performOn (.move (.stop worker))

/-- Make a feed active. -/
def activate (c : Client V H R X) (i : Nat) : Act V H R X (Except HubFailure Unit) := do
  pure (← operate c i (.use i .activate)).toExcept

/-- Make a feed inactive. -/
def deactivate (c : Client V H R X) (i : Nat) : Act V H R X Unit := do
  let _ ← operate c i (.use i .deactivate)

/-- Pull the provider's payload into a feed, unless it is active. -/
def refresh (c : Client V H R X) (i : Nat) : Act V H R X (Except HubFailure Unit) := do
  pure (← operate c i (.use i .refresh)).toExcept

/-- Take one more handle on a feed. -/
def cloneFeed (i : Nat) : Act V H R X Unit := performOn (.use i .clone)

/-- Drop a handle on a feed. If it loses its last owner, a registration it holds is ended; that
an end is under way already is another's doing. -/
def dropFeed (c : Client V H R X) (i : Nat) : Act V H R X Unit := do
  let wasFree := (← feed i).holder.isNone
  performOn (.use i .drop)
  if wasFree && (← feed i).holder.isSome then
    let _ ← endRegistration c i

/-- Act with a handle on a feed of one's own, which is dropped in the end. -/
def withFeed {α : Type} (c : Client V H R X) (i : Nat) (act : Act V H R X α) : Act V H R X α := do
  cloneFeed i
  let answer ← act
  dropFeed c i
  pure answer

/-- Change a provider's payload without telling anyone. -/
def setPayload (i : Nat) (payload : R) : Act V H R X Unit := performOn (.set i payload)

/-- Arm a provider to refuse its next call of one sort. -/
def refuseNext (i : Nat) (call : ProviderCall) (message : String) : Act V H R X Unit :=
  performOn (.refuse i call message)

/-- Change a provider's payload, and tell its callback. -/
def push (c : Client V H R X) (i : Nat) (payload : R) : Act V H R X Unit :=
  invoking c i payload (.push i payload)

/-- Tell a provider's callback a payload that queries do not show. -/
def announce (c : Client V H R X) (i : Nat) (payload : R) : Act V H R X Unit :=
  invoking c i payload (.announce i payload)

end LazyHub.Act
