import LazyHub.Journal
import LazyHub.Provider.Local
import LazyHub.Value

/-!
# Replies and transcripts

A scenario is a script of operations that are carried out one after another. Each yields a
`Reply`; a `Transcript` is what a whole scenario yields, with the journal entries written and
the provider counters moved by each operation.
-/

namespace LazyHub.Scenario

/-- Why an operation could not be carried out at all. -/
inductive Refusal where
  /-- No handle on the hub is left. -/
  | noHub
  /-- No handle on the feed is left. -/
  | noFeed
  /-- The label names no subscription. -/
  | noToken
  /-- The label names no channel. -/
  | noChannel
  /-- The document does not have the form asked for. -/
  | unreadable
  /-- A subscriber panicked. -/
  | panicked
deriving DecidableEq

/-- What an operation yields. -/
inductive Reply where
  /-- Nothing to say. -/
  | nothing
  /-- A truth value. -/
  | truth (b : Bool)
  /-- A number. -/
  | number (n : Nat)
  /-- A text. -/
  | text (s : String)
  /-- A value of a signal. -/
  | value (v : Value)
  /-- Replies in order. -/
  | list (items : List Reply)
  /-- Replies with names. -/
  | record (fields : List (String × Reply))
  /-- A hub operation failed. -/
  | hubFailure (failure : HubFailure)
  /-- Decoding failed. -/
  | decodeFailure (failure : DecodeFailure)
  /-- A provider refused a call. -/
  | providerFailure (failure : ProviderFailure)
  /-- The operation could not be carried out. -/
  | refused (reason : Refusal)

namespace Reply

/-- A result whose success has nothing to say. -/
def ofUnit : Except HubFailure Unit → Reply
  | .ok () => nothing
  | .error failure => hubFailure failure

/-- A result whose success is a value. -/
def ofValue : Except HubFailure Value → Reply
  | .ok v => value v
  | .error failure => hubFailure failure

/-- A number that may be missing. -/
def ofNumber? : Option Nat → Reply
  | some n => number n
  | none => nothing

end Reply

/-- What one operation of a scenario yields. -/
structure Line where
  /-- The operation's reply. -/
  reply : Reply
  /-- The providers whose counters it moved, with the counters after it. -/
  moved : List (String × LocalProvider.Counters) := []
  /-- The journal entries written during it. -/
  journal : List Entry := []

/-- What a scenario yields. -/
structure Transcript where
  /-- A line for each operation, unless what the scenario is about could not be set up. -/
  outcome : Except HubFailure (List Line)
  /-- The journal entries written while setting it up. -/
  opening : List Entry := []
  /-- What is said about the setting besides, by name. -/
  extras : List (String × Reply) := []

/-- The providers whose counters differ, by name and with the later counters. -/
def movedCounters (before after : List (String × LocalProvider.Counters)) :
    List (String × LocalProvider.Counters) :=
  ((before.zip after).filter fun p => p.1.2 ≠ p.2.2).map (·.2)

end LazyHub.Scenario
