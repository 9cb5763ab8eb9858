import LazyHub.Failure

/-!
# Settings

What can be chosen when a hub is assembled: how many delivery workers it has, whether they
survive a panicking subscriber, and the runtime they run on.
-/

namespace LazyHub

/-- Where the delivery workers run. -/
inductive Runtime where
  /-- On the runtime in whose context the hub is assembled. -/
  | ambient
  /-- On a runtime named in the settings. -/
  | named
  /-- Nowhere: none is named and there is no context. -/
  | absent
deriving DecidableEq

/-- The settings of a hub. -/
structure Settings where
  /-- The number of workers asked for. -/
  workers : Nat := 1
  /-- Whether panics of subscribers are caught. -/
  catches : Bool := true
  /-- Where the workers run. -/
  runtime : Runtime := .ambient
deriving DecidableEq

namespace Settings

/-- The number of workers there will be: at least one. -/
def workerCount (s : Settings) : Nat := max s.workers 1

/-- Fail if there is no runtime to run the workers on. -/
def requireRuntime (s : Settings) : Except HubFailure Unit :=
  match s.runtime with
  | .absent => .error .noRuntime
  | _ => .ok ()

end Settings

end LazyHub
