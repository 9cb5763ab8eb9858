import LazyHub.Power.Catalog
import LazyHub.Session.Operations

/-!
# The power monitor

A power monitor is a hub over those of the nine kinds for which its client has a provider. The
signals of a kind left out are unknown to it. Its operations are those of the hub at the keys of
the catalog.
-/

namespace LazyHub.Power

open Text

/-- The providers handed over, each with its first payload. -/
abbrev Sources := SourceKind → Option Report

namespace Sources

/-- The providers of a list; the first of several of one kind counts. -/
def ofList (given : List (SourceKind × Report)) : Sources := fun k => given.lookup k

/-- The form used in diagnostics: for each kind, whether there is a provider. -/
def inspect (s : Sources) : String :=
  Diagnostic.record "PowerProviders" (SourceKind.all.map fun k => (k.slot, Diagnostic.flag (s k).isSome))

/-- The kinds for which there is a provider. -/
def present (s : Sources) : List SourceKind := SourceKind.all.filter fun k => (s k).isSome

/-- The feeds of the kinds for which there is a provider, with the first payloads. -/
def plans (s : Sources) : List (FeedPlan Value × Report) :=
  SourceKind.all.filterMap fun k => (s k).map fun report => (k.plan, report)

/-- The number of a kind's feed. -/
def feedOf? (s : Sources) (k : SourceKind) : Option Nat := s.present.findIdx? (· = k)

/-- The journal entries for the kinds without a provider. -/
def absences (s : Sources) : List Entry :=
  (SourceKind.all.filter fun k => (s k).isNone).map fun k => .kindAbsent k.kind

/-- The journal entry of a monitor's start. -/
def startedEntry (s : Sources) : Entry := .monitorStarted s.present.length SourceKind.all.length

end Sources

namespace Monitor

variable {H X : Type}

/-- A monitor over some providers. -/
def assemble (settings : Settings) (s : Sources) : Except HubFailure (World Value H Report) :=
  World.assemble settings s.plans

/-- The monitor's client code, given what subscribers do: every kind decodes as the catalog says. -/
def client (call : SignalId → Token → H → Value → Act Value H Report X Bool) : Client Value H Report X where
  decode _ report := pure report.decode
  call := call

/-- The current value of a signal. -/
def get (c : Client Value H Report X) (s : PowerSignal) : Act Value H Report X (Except HubFailure Value) :=
  Act.read c s.key

/-- Subscribe to the changes of a signal. -/
def onChange (c : Client Value H Report X) (s : PowerSignal) (handler : H) :
    Act Value H Report X (Except HubFailure Token) :=
  Act.subscribe c s.key handler

/-- End a subscription to the changes of a signal. -/
def removeChange (c : Client Value H Report X) (s : PowerSignal) (token : Token) :
    Act Value H Report X Unit :=
  Act.unsubscribe c s.key.id token

/-- The form used in diagnostics. -/
def inspect (h : Hub Value H Report) : String := Diagnostic.record "PowerManager" [("hub", h.inspect)]

end Monitor

end LazyHub.Power
