import LazyHub.Failure

/-!
# Journal

What a hub tells the people who run it. An `Entry` is an occurrence worth a line in the journal;
its severity and its wording are functions of the occurrence, so that the rest of the library
says what happened and never how it reads.
-/

namespace LazyHub

/-- How much attention an entry deserves. -/
inductive Severity where
  /-- Something failed that a client relied on. -/
  | error
  /-- Something was given up. -/
  | warn
  /-- A milestone. -/
  | info
  /-- A detail. -/
  | debug
deriving DecidableEq

/-- The name shown for a severity. -/
def Severity.display : Severity → String
  | error => "ERROR"
  | warn => "WARN"
  | info => "INFO"
  | debug => "DEBUG"

/-- An occurrence worth a line in the journal. -/
inductive Entry where
  /-- A hub was assembled from this many feeds and signals, with this many delivery workers. -/
  | assembled (feeds signals workers : Nat)
  /-- The last handle of a hub was dropped. -/
  | tornDown
  /-- A feed became active under a registration. -/
  | activated (kind : Kind) (registration : Registration)
  /-- A feed's registration was given back. -/
  | deactivated (kind : Kind) (registration : Registration)
  /-- A feed's registration could not be given back and was forgotten. -/
  | abandoned (kind : Kind) (registration : Registration) (failure : ProviderFailure)
  /-- A pushed payload could not be decoded. -/
  | undecodable (kind : Kind) (failure : DecodeFailure)
  /-- A payload was pushed through a registration that is no longer current. -/
  | stale (kind : Kind)
  /-- A feed drops this many subscribers because its hub shuts down. -/
  | shuttingDown (kind : Kind) (subscribers : Nat)
  /-- A subscription began. -/
  | subscribed (token : Token) (key : Key)
  /-- A subscription ended. -/
  | unsubscribed (token : Token) (signal : SignalId)
  /-- A token was handed in for a signal that the hub does not have. -/
  | unsubscribeUnknownSignal (token : Token) (signal : SignalId)
  /-- A token was handed in that names no subscription to the signal. -/
  | unsubscribeUnknownToken (token : Token) (signal : SignalId)
  /-- A subscriber panicked while it was called. -/
  | subscriberPanicked (token : Token) (signal : SignalId)
  /-- A delivery panicked. -/
  | deliveryPanicked (signal : SignalId)
  /-- A delivery was dropped because its worker has ended. -/
  | workerGone (signal : SignalId)
  /-- A worker ended because nobody can send to it any more. -/
  | workerStopped (worker : Nat)
  /-- The power monitor was given no provider of a kind. -/
  | kindAbsent (kind : Kind)
  /-- The power monitor started with this many of its kinds. -/
  | monitorStarted (kinds total : Nat)
deriving DecidableEq

namespace Entry

/-- How much attention an entry deserves. -/
def severity : Entry → Severity
  | abandoned .. | undecodable .. => .warn
  | subscriberPanicked .. | deliveryPanicked .. => .error
  | monitorStarted .. => .info
  | _ => .debug

/-- The line written for an entry. -/
def message : Entry → String
  | assembled feeds signals workers =>
    s!"NotificationHub built with {feeds} provider kinds, {signals} signals, {workers} dispatcher workers"
  | tornDown => "NotificationHub torn down"
  | activated kind registration =>
    s!"ProviderBinding({kind.display}) activated with registration {registration.number}"
  | deactivated kind registration =>
    s!"ProviderBinding({kind.display}) deactivated registration {registration.number}"
  | abandoned kind registration failure =>
    s!"ProviderBinding({kind.display}) failed to unregister {registration.number}, dropping it anyway: {failure.message}"
  | undecodable kind failure =>
    s!"ProviderBinding({kind.display}) dropping undecodable payload: {failure.message}"
  | stale kind => s!"ProviderBinding({kind.display}) dropping push from a stale registration"
  | shuttingDown kind subscribers =>
    s!"ProviderBinding({kind.display}) shutting down with {subscribers} handlers"
  | subscribed token key => s!"Subscribed {token.display} to {key.display}"
  | unsubscribed token signal => s!"Unsubscribed {token.display} from {signal.display}"
  | unsubscribeUnknownSignal token signal =>
    s!"Unsubscribe {token.display} from unknown signal {signal.display}"
  | unsubscribeUnknownToken token signal =>
    s!"Unsubscribe with unknown token {token.display} for {signal.display}, ignoring"
  | subscriberPanicked token signal =>
    s!"Change handler {token.display} for signal {signal.display} panicked"
  | deliveryPanicked signal => s!"Change handler for signal {signal.display} panicked"
  | workerGone signal =>
    s!"Dispatcher worker for signal {signal.display} is gone, dropping notification"
  | workerStopped worker => s!"Dispatcher worker {worker} stopped"
  | kindAbsent kind => s!"PowerManager: no provider for {kind.display}"
  | monitorStarted kinds total => s!"PowerManager started with {kinds} of {total} provider kinds"

end Entry

end LazyHub
