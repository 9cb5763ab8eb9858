import LazyHub.Identity

/-!
# Failures

Three layers can fail. A provider refuses a call (`ProviderFailure`), a payload cannot be turned
into signal values (`DecodeFailure`), and a hub operation reports either of these for the kind
concerned, or a mistake of its caller (`HubFailure`). Each failure is a cause; its wording is
the function `message`, and `cause?` is the wording of the failure underneath, if there is one.
-/

namespace LazyHub

open Text

/-- A provider refused a call. -/
structure ProviderFailure where
  /-- What the provider says about it. -/
  message : String
deriving DecidableEq, Inhabited

/-- The form used in diagnostics. -/
def ProviderFailure.inspect (e : ProviderFailure) : String :=
  Diagnostic.tuple "ProviderError" [Quoted.quote e.message]

/-- A payload could not be turned into signal values. -/
inductive DecodeFailure where
  /-- The payload holds a code that stands for no value. -/
  | unrecognized (what value : String)
  /-- The payload has the wrong form. -/
  | malformed (reason : String)
  /-- A value was emitted for a signal that the feed does not have. -/
  | foreignSignal (signal : SignalId)
  /-- A value was emitted whose type is not the signal's, which is named. -/
  | wrongType (signal : SignalId) (expected : TypeName)
deriving DecidableEq, Inhabited

namespace DecodeFailure

/-- The wording of the failure. -/
def message : DecodeFailure → String
  | unrecognized what value => s!"unrecognized {what} value {value}"
  | malformed reason => s!"malformed payload: {reason}"
  | foreignSignal signal => s!"signal {signal.display} is not fed by this provider kind"
  | wrongType signal expected => s!"signal {signal.display} does not hold values of type {expected.text}"

/-- The form used in diagnostics. -/
def inspect : DecodeFailure → String
  | unrecognized what value =>
    Diagnostic.record "Unrecognized" [("what", Quoted.quote what), ("value", Quoted.quote value)]
  | malformed reason => Diagnostic.tuple "Malformed" [Quoted.quote reason]
  | foreignSignal signal => Diagnostic.tuple "ForeignSignal" [signal.inspect]
  | wrongType signal expected =>
    Diagnostic.record "WrongType" [("signal", signal.inspect), ("expected", Quoted.quote expected.text)]

end DecodeFailure

/-- A hub operation could not be carried out. -/
inductive HubFailure where
  /-- The provider did not answer a query. -/
  | queryFailed (kind : Kind) (source : ProviderFailure)
  /-- The provider did not accept a registration. -/
  | registerFailed (kind : Kind) (source : ProviderFailure)
  /-- A queried payload could not be decoded. -/
  | decodeFailed (kind : Kind) (source : DecodeFailure)
  /-- No feed of the hub has the signal. -/
  | unknownSignal (signal : SignalId)
  /-- The signal carries another type than the one asked for, which is named. -/
  | typeMismatch (signal : SignalId) (expected : TypeName)
  /-- Two declarations give one identity to a signal. -/
  | duplicateSignal (signal : SignalId)
  /-- There is nothing to run the delivery workers on. -/
  | noRuntime
deriving DecidableEq, Inhabited

namespace HubFailure

/-- The wording of the failure. -/
def message : HubFailure → String
  | queryFailed kind source => s!"{kind.display}: provider query failed: {source.message}"
  | registerFailed kind source => s!"{kind.display}: provider registration failed: {source.message}"
  | decodeFailed kind source => s!"{kind.display}: payload decode failed: {source.message}"
  | unknownSignal signal => s!"signal {signal.display} is not registered with this hub"
  | typeMismatch signal expected => s!"signal {signal.display} is not of type {expected.text}"
  | duplicateSignal signal => s!"signal {signal.display} is declared more than once"
  | noRuntime => "no tokio runtime available to run the notification dispatcher"

/-- The wording of the failure underneath, for the failures that pass one on. -/
def cause? : HubFailure → Option String
  | queryFailed _ source | registerFailed _ source => some source.message
  | decodeFailed _ source => some source.message
  | _ => none

/-- The form used in diagnostics. -/
def inspect : HubFailure → String
  | queryFailed kind source =>
    Diagnostic.record "ProviderQueryFailed" [("kind", kind.inspect), ("source", source.inspect)]
  | registerFailed kind source =>
    Diagnostic.record "ProviderRegisterFailed" [("kind", kind.inspect), ("source", source.inspect)]
  | decodeFailed kind source =>
    Diagnostic.record "DecodeFailed" [("kind", kind.inspect), ("source", source.inspect)]
  | unknownSignal signal => Diagnostic.tuple "UnknownSignal" [signal.inspect]
  | typeMismatch signal expected =>
    Diagnostic.record "SignalTypeMismatch"
      [("signal", signal.inspect), ("expected", Quoted.quote expected.text)]
  | duplicateSignal signal => Diagnostic.tuple "DuplicateSignal" [signal.inspect]
  | noRuntime => "NoRuntime"

end HubFailure

end LazyHub
