import LazyHub.Scenario.Reply
import LazyHub.Session.Operations

/-!
# Scenarios with many threads

Providers push from threads of their own while other threads subscribe and unsubscribe, and at
the end everything is delivered. What is reported does not depend on how the threads interleave,
so `Crowd.play` follows the order in which one thread acts after the other.
-/

namespace LazyHub.Scenario.Crowd

/-- What the crowd's subscribers remember: the values they were told, latest first, and the
threads on which they were told them. -/
structure Memory where
  /-- The values told, with their signals. -/
  told : List (SignalId × Value) := []
  /-- Whether a subscriber was called on a thread that pushes. -/
  calledByPusher : Bool := false

/-- An act of the crowd. -/
abbrev Scene := Act Value Unit Value Memory

/-- The clients: a payload is the value of its feed's one signal, and subscribers remember. The
thread numbered nought runs the workers. -/
def client : Client Value Unit Value Memory where
  decode i payload := pure (.ok ((Emissions.empty).emit ⟨i⟩ payload))
  call signal _ _ value := do
    modify fun s =>
      { s with
        memory :=
          { s.memory with
            told := (signal, value) :: s.memory.told
            calledByPusher := s.memory.calledByPusher || s.thread ≠ .client 0 } }
    pure false

/-- The key of a feed's one signal. -/
def key (i : Nat) : Key := ⟨⟨i⟩, "feed", ValueType.word.name⟩

/-- Feeds of one signal each, all of one kind, with their first payloads. -/
def plans (count : Nat) : List (FeedPlan Value × Value) :=
  (List.range count).map fun i => (⟨⟨"feed"⟩, [⟨key i, .word 0⟩]⟩, .word 0)

/-- Push values one after another from a thread of their own. -/
def pushAll (i : Nat) (values : List Value) : Scene Unit := do
  modify fun s => { s with thread := .client (i + 1) }
  values.forM fun v => Act.push client i v
  modify fun s => { s with thread := .client 0 }

/-- Subscribe and unsubscribe, so many times. -/
def churn (i : Nat) : Nat → Scene Unit
  | 0 => pure ()
  | n + 1 => do
    match ← Act.subscribe client (key i) () with
    | .ok token => Act.unsubscribe client ⟨i⟩ token
    | .error _ => pure ()
    churn i n

/-- What a provider's counters say. -/
def countersReply (c : LocalProvider.Counters) : Reply :=
  .list [.number c.queries, .number c.registers, .number c.unregisters, .number c.released, .truth c.registered]

/-- What a crowd did, with one feed for each list of values and one more to churn on. -/
def act (pushed : List (List Value)) (churners : Nat) : Scene Reply := do
  let count := pushed.length
  (List.range count).forM fun i => do
    let _ ← Act.subscribe client (key i) ()
  pushed.zipIdx.forM fun (values, i) => pushAll i values
  churn count (50 * churners)
  Act.flush client ((pushed.map List.length).foldr (· + ·) 0 + (← Act.hub).pool.size + 1)
  let reads ← (List.range count).mapM fun i => do pure (Reply.ofValue (← Act.read client (key i)))
  let told := (← get).memory.told.reverse
  let counters := (← get).world.sources.map (·.provider.counters)
  let h ← Act.hub
  let seen := (List.range count).map fun i =>
    Reply.list ((told.filter fun t => t.1 = ⟨i⟩).map fun t => .value t.2)
  let churned := match counters[count]? with
    | some c => [.truth (c.registers = c.unregisters), .truth c.registered, .truth (h.isActive ⟨count⟩)]
    | none => []
  pure
    (.record
      [("seen", .list seen), ("reads", .list reads), ("off_pusher", .truth (!(← get).memory.calledByPusher)),
        ("stats", .list ((counters.take count).map countersReply)), ("churn", .list churned),
        ("churn_listeners", .number (h.subscriberCount ⟨count⟩))])

/-- Carry out a scenario with many threads. -/
def play (settings : Settings) (pushed : List (List Value)) (churners : Nat) : Option Reply :=
  match World.assemble settings (plans (pushed.length + 1)) with
  | .error failure => some (.hubFailure failure)
  | .ok world => ((act pushed churners).run { world, memory := {} }).map (·.1)

end LazyHub.Scenario.Crowd
