import LazyHub.Session.Basic

/-!
# Serving what is under way

Once an operation has entered a feed, or a provider has invoked a callback, the rest is a fixed
succession of steps in which the provider is called, the decoder runs, and values are written.
`Act.serve` carries an operation that holds a feed's state lock to its answer; `Act.receive`
carries a pushed payload to its end; `Act.runWorker` carries out the next delivery of a worker.
-/

namespace LazyHub.Act

variable {V H R X : Type} [SignalValue V]

/-- Look who is subscribed to a signal that was changed, and post the change if anyone is. -/
def report (i : Nat) : Act V H R X Unit := do
  match (← feed i).writer with
  | some ⟨_, _, .fresh _⟩ =>
    let _ ← advance i .look
    match (← feed i).writer with
    | some ⟨_, _, .wanted _⟩ =>
      let _ ← advance i .post
      pure ()
    | _ => pure ()
  | _ => pure ()

/-- Write the values that the holder of the update lock has left, report each change, and let go
of the lock. -/
def writeOut (i : Nat) : List (Emission V) → Act V H R X (Option Answer)
  | [] => advance i .settle
  | _ :: rest => do
    let _ ← advance i .write
    report i
    writeOut i rest

/-- Write everything the holder of the update lock has to write, and let go of the lock. -/
def writeAll (i : Nat) : Act V H R X (Option Answer) := do
  match (← feed i).writer with
  | some writer => writeOut i writer.rest
  | none => stuck

/-- Have the provider end the registration that the holder of the state lock gave up. -/
def endRegistration (c : Client V H R X) (i : Nat) : Act V H R X Answer := do
  c.onUnregister i
  performLast (.unregister i (← get).thread)

/-- Give the registration up and have the provider end it. -/
def withdraw (c : Client V H R X) (i : Nat) : Act V H R X Answer := do
  let _ ← advance i .withdraw
  endRegistration c i

/-- Have the provider install a callback, and hear its answer. -/
def register (c : Client V H R X) (i : Nat) : Act V H R X Answer := do
  performOn (.register i)
  match (← source i).reply with
  | some (.ok _) => c.onRegister i
  | _ => pure ()
  performLast (.registered i)

/-- Have the payload that the holder of the state lock has on loan decoded. -/
def decodeLoan (c : Client V H R X) (i : Nat) : Act V H R X (Option Answer) := do
  match (← feed i).holder with
  | some (.decoding _ payload) =>
    let outcome ← c.decode i payload
    advance i (.decoded outcome)
  | _ => stuck

/-- Pull the provider's payload, and register if the pull was for an activation. -/
def pull (c : Client V H R X) (i : Nat) : Act V H R X Answer := do
  match ← perform (.query i) with
  | some answer => pure answer
  | none =>
    match ← decodeLoan c i with
    | some answer => pure answer
    | none =>
      let _ ← advance i .seed
      match ← writeAll i with
      | some answer => pure answer
      | none => register c i

/-- Drop the subscribers of outlets, as many as are left, and finish. -/
def clearOut (i : Nat) : Nat → Act V H R X (Option Answer)
  | 0 => advance i .clear
  | n + 1 => do
    let _ ← advance i .clear
    clearOut i n

/-- Drop all subscribers, and end the registration if there is one. -/
def clearAll (c : Client V H R X) (i : Nat) : Act V H R X Answer := do
  match ← clearOut i (← feed i).outlets.length with
  | some answer => pure answer
  | none => withdraw c i

/-- Carry an operation that has entered a feed to its answer. -/
def serve (c : Client V H R X) (i : Nat) : Option Answer → Act V H R X Answer
  | some answer => pure answer
  | none => do
    match (← feed i).holder with
    | some (.querying _) => pull c i
    | some .withdrawing => withdraw c i
    | some (.clearing ..) => clearAll c i
    | some (.unregistering ..) => endRegistration c i
    | _ => stuck

/-- Have a pushed payload's values written, if it was decoded and its epoch is current. -/
def applyPush (i number : Nat) : Act V H R X Unit := do
  match (← feed i).push? number with
  | some ⟨_, _, .ready _⟩ =>
    let _ ← advance i (.enter number)
    match (← feed i).push? number with
    | some ⟨_, _, .writing⟩ =>
      let _ ← writeAll i
      pure ()
    | _ => pure ()
  | _ => pure ()

/-- Carry a pushed payload to its end. If that leaves a feed that nobody owns, the pool for
blocking work ends the registration left behind. -/
def receive (c : Client V H R X) (i number : Nat) (payload : R) : Act V H R X Unit := do
  let outcome ← c.decode i payload
  let _ ← advance i (.pushDecoded number outcome)
  applyPush i number
  let _ ← advance i (.leave number)
  if (← feed i).retiring then
    let _ ← advance i .retire
    let _ ← endRegistration c i

/-- Make a provider's step that may invoke its callback, and carry the push to its end. -/
def invoking (c : Client V H R X) (i : Nat) (payload : R) (label : WorldLabel V H R) :
    Act V H R X Unit := do
  let number := (← feed i).pushCount
  let _ ← perform label
  if number < (← feed i).pushCount then receive c i number payload

/-- Call one subscriber of a worker's delivery, and tell whether it panicked. -/
def callOne (c : Client V H R X) (worker : Nat) (signal : SignalId) (value : V)
    (token : Token) (handler : H) : Act V H R X Bool := do
  let _ ← perform (.move (.call worker))
  let panicked ← c.call signal token handler value
  let _ ← perform (.move (.returned worker panicked))
  pure panicked

/-- Carry out the delivery that a worker has taken up. Where panics are not caught, the first
one ends it. -/
def runDelivery (c : Client V H R X) (worker : Nat) (d : Delivery V H) : Act V H R X Unit := do
  let call := callOne c worker d.signal d.value
  if (← hub).pool.catches then
    let _ ← deliverIsolated call d.waiting
    performOn (.move (.finish worker))
  else
    if ← deliver call d.waiting then pure () else performOn (.move (.finish worker))

/-- Let a worker take up what is next in its queue, and do it. -/
def runWorker (c : Client V H R X) (worker : Nat) : Act V H R X Unit := do
  performOn (.move (.take worker))
  match (← hub).pool.current? worker with
  | some d => runDelivery c worker d
  | none => pure ()

/-- Let the workers work until no queue holds anything, in at most so many turns. -/
def drain (c : Client V H R X) : Nat → Act V H R X Unit
  | 0 => stuck
  | n + 1 => do
    match (← hub).pool.firstReady? with
    | some worker =>
      runWorker c worker
      drain c n
    | none => pure ()

end LazyHub.Act
