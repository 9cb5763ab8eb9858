import LazyHub.Feed.Step
import LazyHub.Proofs.Run
import LazyHub.Value

/-!
# What a step of a feed can do

`Feed.step` is one step of a feed, whoever makes it: a client that enters, the provider that
answers or invokes a callback, what is under way, and those who copy and drop handles. A feed of a
hub makes these steps and no others, and so does a feed that its clients hold themselves.

`Feed.Transition` lists all that a step can do, each case with the conditions under which it
arises and the state, effects and answer that it leaves behind. `transition_of_step` says that the
list is complete. What a step keeps is proved by going through the list, and nothing else looks
into the functions that make the steps.
-/

namespace LazyHub

variable {V H R : Type}

/-- A step of a feed, by who makes it. -/
inductive FeedLabel (V H R : Type) where
  /-- A client's request takes the state lock. -/
  | enter (request : FeedRequest H)
  /-- The provider answers. -/
  | hear (reply : ProviderReply R)
  /-- The provider invokes a callback. -/
  | invoke (epoch : Nat) (payload : R)
  /-- What is under way moves on. -/
  | advance (move : FeedMove V)
  /-- A handle is copied. -/
  | clone
  /-- A handle is dropped. -/
  | drop

namespace Feed

variable [SignalValue V]

/-- One step of a feed. -/
def step (f : Feed V H R) : FeedLabel V H R → Option (Result V H R)
  | .enter request => f.enter request
  | .hear reply => f.hear reply
  | .invoke epoch payload => f.invoke epoch payload
  | .advance move => f.advance move
  | .clone => f.clone
  | .drop => f.drop

/-- A request that finds the feed as it wants it. -/
def IsContent (f : Feed V H R) : FeedRequest H → Prop
  | .activate | .refresh => f.isActive
  | .deactivate => ¬ f.isActive
  | _ => False

/-- **What a step of a feed can do.** -/
inductive Transition (f : Feed V H R) : FeedLabel V H R → Result V H R → Prop where
  /-- A request finds the feed as it wants it. -/
  | content {request : FeedRequest H} (free : f.holder = none) (kept : f.handles ≠ 0) (content : f.IsContent request) :
      Transition f (.enter request) { state := f, answer := some .done }
  /-- An activation starts. -/
  | activate (free : f.holder = none) (kept : f.handles ≠ 0) (inactive : f.registration = none) :
      Transition f (.enter .activate)
        { state := { f with epoch := f.epoch + 1, holder := some (.querying .activate) }
          effects := [.asked .query] }
  /-- A deactivation starts. -/
  | deactivate (free : f.holder = none) (kept : f.handles ≠ 0) (active : f.registration.isSome) :
      Transition f (.enter .deactivate) { state := { f with holder := some .withdrawing } }
  /-- A pull starts. -/
  | refresh (free : f.holder = none) (kept : f.handles ≠ 0) (inactive : f.registration = none) :
      Transition f (.enter .refresh)
        { state := { f with holder := some (.querying .refresh) }, effects := [.asked .query] }
  /-- A subscription is added to an active feed. -/
  | attach {signal : SignalId} {token : Token} {handler : H} (free : f.holder = none) (kept : f.handles ≠ 0)
      (known : (f.outlet? signal).isSome) (active : f.registration.isSome) :
      Transition f (.enter (.subscribe signal token handler))
        { state := f.attach signal token handler, answer := some .done }
  /-- A subscription starts an activation. -/
  | subscribe {signal : SignalId} {token : Token} {handler : H} (free : f.holder = none) (kept : f.handles ≠ 0)
      (known : (f.outlet? signal).isSome) (inactive : f.registration = none) :
      Transition f (.enter (.subscribe signal token handler))
        { state :=
            { f with epoch := f.epoch + 1, holder := some (.querying (.subscribe signal token handler)) }
          effects := [.asked .query] }
  /-- A token names no subscription to a signal. -/
  | unknown {signal : SignalId} {token : Token} {o : Outlet V H} (free : f.holder = none) (kept : f.handles ≠ 0)
      (known : f.outlet? signal = some o) (absent : o.subscribers.contains token = false) :
      Transition f (.enter (.unsubscribe signal token)) { state := f, answer := some .unknownToken }
  /-- A subscription is ended, and the feed needs no more than that. -/
  | detach {signal : SignalId} {token : Token} {o : Outlet V H} (free : f.holder = none) (kept : f.handles ≠ 0)
      (known : f.outlet? signal = some o) (present : o.subscribers.contains token)
      (rest : f.subscriptionCount - 1 ≠ 0 ∨ f.registration = none) :
      Transition f (.enter (.unsubscribe signal token))
        { state := f.detach signal token, answer := some .done }
  /-- The last subscription is ended, and the registration is to follow. -/
  | detachLast {signal : SignalId} {token : Token} {o : Outlet V H} (free : f.holder = none) (kept : f.handles ≠ 0)
      (known : f.outlet? signal = some o) (present : o.subscribers.contains token)
      (last : f.subscriptionCount - 1 = 0) (active : f.registration.isSome) :
      Transition f (.enter (.unsubscribe signal token))
        { state := { f.detach signal token with holder := some .withdrawing } }
  /-- A shutdown starts. -/
  | shutdown (free : f.holder = none) (kept : f.handles ≠ 0) :
      Transition f (.enter .shutdown) { state := { f with holder := some (.clearing 0 0) } }
  /-- The provider refuses a query. -/
  | queryFailed {purpose : Purpose H} {failure : ProviderFailure}
      (held : f.holder = some (.querying purpose)) :
      Transition f (.hear (.queried (.error failure)))
        { state := { f with holder := none }, answer := some (.failed (.queryFailed f.kind failure)) }
  /-- The provider answers a query. -/
  | queried {purpose : Purpose H} {payload : R} (held : f.holder = some (.querying purpose)) :
      Transition f (.hear (.queried (.ok payload)))
        { state := { f with holder := some (.decoding purpose payload) } }
  /-- The provider refuses a registration. -/
  | registerFailed {purpose : Purpose H} {failure : ProviderFailure}
      (held : f.holder = some (.registering purpose)) :
      Transition f (.hear (.registered (.error failure)))
        { state := { f with callbacks := f.callbacks.erase f.epoch, holder := none }
          answer := some (.failed (.registerFailed f.kind failure)) }
  /-- The provider accepts the registration made for a subscription, which is added. -/
  | subscribed {signal : SignalId} {token : Token} {handler : H} {registration : Registration}
      (held : f.holder = some (.registering (.subscribe signal token handler))) :
      Transition f (.hear (.registered (.ok registration)))
        { state := { f.attach signal token handler with registration := some registration, holder := none }
          effects := [.noted (.activated f.kind registration)]
          answer := some .done }
  /-- The provider accepts a registration made for its own sake. -/
  | activated {purpose : Purpose H} {registration : Registration}
      (held : f.holder = some (.registering purpose))
      (plain : ∀ signal token handler, purpose ≠ .subscribe signal token handler) :
      Transition f (.hear (.registered (.ok registration)))
        { state := { f with registration := some registration, holder := none }
          effects := [.noted (.activated f.kind registration)]
          answer := some .done }
  /-- The provider answers the end of a registration. -/
  | unregistered {registration : Registration} {place : Place} {answer : Except ProviderFailure Unit}
      (held : f.holder = some (.unregistering registration place)) :
      Transition f (.hear (.unregistered answer))
        { state := { f with holder := none }
          effects :=
            [.noted (match answer with
              | .ok () => .deactivated f.kind registration
              | .error failure => .abandoned f.kind registration failure)]
          answer := some .done }
  /-- The provider invokes a callback of a feed that nobody owns. -/
  | invokeUnowned {epoch : Nat} {payload : R} (given : epoch ∈ f.callbacks) (unowned : f.owners = 0) :
      Transition f (.invoke epoch payload) { state := f, effects := [.released] }
  /-- The provider invokes a callback, and a push is under way. -/
  | invoke {epoch : Nat} {payload : R} (given : epoch ∈ f.callbacks) (owned : f.owners ≠ 0) :
      Transition f (.invoke epoch payload)
        { state :=
            { f with
              pushes := f.pushes ++ [⟨f.pushCount, epoch, .decoding payload⟩]
              pushCount := f.pushCount + 1 } }
  /-- A pulled payload is refused. -/
  | decodeFailed {purpose : Purpose H} {payload : R} {outcome : Except DecodeFailure (Emissions V)}
      {failure : DecodeFailure} (held : f.holder = some (.decoding purpose payload))
      (refused : f.admissible outcome = .error failure) :
      Transition f (.advance (.decoded outcome))
        { state := { f with holder := none }
          effects := [.released]
          answer := some (.failed (.decodeFailed f.kind failure)) }
  /-- A pulled payload is decoded. -/
  | decoded {purpose : Purpose H} {payload : R} {outcome : Except DecodeFailure (Emissions V)}
      {values : List (Emission V)} (held : f.holder = some (.decoding purpose payload))
      (admitted : f.admissible outcome = .ok values) :
      Transition f (.advance (.decoded outcome))
        { state := { f with holder := some (.seeding purpose values) }, effects := [.released] }
  /-- The holder of the state lock takes the update lock. -/
  | seed {purpose : Purpose H} {values : List (Emission V)}
      (held : f.holder = some (.seeding purpose values)) (free : f.writer = none) :
      Transition f (.advance .seed)
        { state := { f with holder := some (.writing purpose), writer := some ⟨none, values, .none⟩ } }
  /-- The holder of the update lock writes a value. -/
  | write {push : Option Nat} {e : Emission V} {rest : List (Emission V)}
      (writing : f.writer = some ⟨push, e :: rest, .none⟩) :
      Transition f (.advance .write)
        { state :=
            { f.writeGate e with
              writer := some ⟨push, rest, if push.isSome && f.isChange e then .fresh e else .none⟩ } }
  /-- The holder of the update lock looks who is subscribed to a signal that it has changed. -/
  | look {push : Option Nat} {e : Emission V} {rest : List (Emission V)}
      (looking : f.writer = some ⟨push, rest, .fresh e⟩) :
      Transition f (.advance .look)
        { state :=
            { f with writer := some ⟨push, rest, if f.isWatched e.signal then .wanted e else .none⟩ } }
  /-- The holder of the update lock posts a change. -/
  | post {push : Option Nat} {e : Emission V} {rest : List (Emission V)}
      (posting : f.writer = some ⟨push, rest, .wanted e⟩) :
      Transition f (.advance .post)
        { state := { f with writer := some ⟨push, rest, .none⟩ }, effects := [.owed e.signal e.value] }
  /-- A push lets go of the update lock. -/
  | settlePush {number : Nat} (writing : f.writer = some ⟨some number, [], .none⟩) :
      Transition f (.advance .settle)
        { state := ({ f with writer := none } : Feed V H R).setPhase number .leaving }
  /-- A pull made for the values alone is done. -/
  | settleRefresh (held : f.holder = some (.writing .refresh))
      (writing : f.writer = some ⟨none, [], .none⟩) :
      Transition f (.advance .settle)
        { state := { f with writer := none, holder := none }, answer := some .done }
  /-- A pull made for an activation goes on to register a callback. -/
  | settle {purpose : Purpose H} (held : f.holder = some (.writing purpose)) (more : purpose ≠ .refresh)
      (writing : f.writer = some ⟨none, [], .none⟩) :
      Transition f (.advance .settle)
        { state :=
            { f with
              writer := none
              holder := some (.registering purpose)
              callbacks := f.callbacks ++ [f.epoch] }
          effects := [.asked (.register f.epoch)] }
  /-- The subscribers of one more outlet are dropped. -/
  | clear {next dropped : Nat} {o : Outlet V H} (held : f.holder = some (.clearing next dropped))
      (more : f.outlets[next]? = some o) :
      Transition f (.advance .clear)
        { state :=
            { f with
              outlets := f.outlets.modify next fun o => { o with subscribers := .empty }
              holder := some (.clearing (next + 1) (dropped + o.subscribers.size)) } }
  /-- All subscribers are dropped, and the registration is to follow. -/
  | cleared {next dropped : Nat} (held : f.holder = some (.clearing next dropped))
      (all : f.outlets[next]? = none) (active : f.registration.isSome) :
      Transition f (.advance .clear)
        { state := { f with subscriptionCount := 0, holder := some .withdrawing }
          effects := if dropped > 0 then [.noted (.shuttingDown f.kind dropped)] else [] }
  /-- All subscribers are dropped, and there is no registration. -/
  | clearedInactive {next dropped : Nat} (held : f.holder = some (.clearing next dropped))
      (all : f.outlets[next]? = none) (inactive : f.registration = none) :
      Transition f (.advance .clear)
        { state := { f with subscriptionCount := 0, holder := none }
          effects := if dropped > 0 then [.noted (.shuttingDown f.kind dropped)] else []
          answer := some .done }
  /-- The provider is asked to end the registration, and the epoch is over. -/
  | withdraw {registration : Registration} (held : f.holder = some .withdrawing)
      (active : f.registration = some registration) :
      Transition f (.advance .withdraw)
        { state :=
            { f with
              epoch := f.epoch + 1
              registration := none
              holder := some (.unregistering registration .inPlace) }
          effects := [.asked (.unregister registration .inPlace)] }
  /-- A pushed payload is refused. -/
  | pushRefused {number epoch : Nat} {payload : R} {outcome : Except DecodeFailure (Emissions V)}
      {failure : DecodeFailure} (known : f.push? number = some ⟨number, epoch, .decoding payload⟩)
      (refused : f.admissible outcome = .error failure) :
      Transition f (.advance (.pushDecoded number outcome))
        { state := f.setPhase number .leaving
          effects := [.noted (.undecodable f.kind failure), .released] }
  /-- A pushed payload is decoded. -/
  | pushDecoded {number epoch : Nat} {payload : R} {outcome : Except DecodeFailure (Emissions V)}
      {values : List (Emission V)} (known : f.push? number = some ⟨number, epoch, .decoding payload⟩)
      (admitted : f.admissible outcome = .ok values) :
      Transition f (.advance (.pushDecoded number outcome))
        { state := f.setPhase number (.ready values), effects := [.released] }
  /-- A push takes the update lock in the epoch of its callback. -/
  | pushAccepted {number : Nat} {values : List (Emission V)}
      (known : f.push? number = some ⟨number, f.epoch, .ready values⟩) (free : f.writer = none) :
      Transition f (.advance (.enter number))
        { state := { f.setPhase number .writing with writer := some ⟨some number, values, .none⟩ } }
  /-- A push takes the update lock in another epoch than that of its callback, and gives up. -/
  | pushStale {number epoch : Nat} {values : List (Emission V)}
      (known : f.push? number = some ⟨number, epoch, .ready values⟩) (free : f.writer = none)
      (stale : epoch ≠ f.epoch) :
      Transition f (.advance (.enter number))
        { state := f.setPhase number .leaving, effects := [.noted (.stale f.kind)] }
  /-- A push lets go of the feed. -/
  | leave {number epoch : Nat} (known : f.push? number = some ⟨number, epoch, .leaving⟩) :
      Transition f (.advance (.leave number))
        { state :=
            { f with
              pushes := f.pushes.filter (·.number ≠ number)
              retiring :=
                f.handles + (f.pushes.filter (·.number ≠ number)).length = 0 && f.registration.isSome } }
  /-- The pool asks the provider to end the registration of a feed that nobody owns. -/
  | retire {registration : Registration} (retiring : f.retiring = true)
      (active : f.registration = some registration) :
      Transition f (.advance .retire)
        { state :=
            { f with
              retiring := false
              registration := none
              holder := some (.unregistering registration .pool) }
          effects := [.asked (.unregister registration .pool)] }
  /-- A handle is copied. -/
  | clone (kept : f.handles ≠ 0) : Transition f .clone { state := { f with handles := f.handles + 1 } }
  /-- A handle is dropped, and nothing more needs to be done. -/
  | drop (kept : f.handles ≠ 0) (free : f.handles = 1 → f.holder = none)
      (more : f.handles - 1 + f.pushes.length ≠ 0 ∨ f.registration = none) :
      Transition f .drop { state := { f with handles := f.handles - 1 } }
  /-- The last owner is gone, and the provider is asked to end the registration. -/
  | dropLast {registration : Registration} (last : f.handles = 1) (unpushed : f.pushes = [])
      (free : f.holder = none) (active : f.registration = some registration) :
      Transition f .drop
        { state :=
            { f with
              handles := 0
              registration := none
              holder := some (.unregistering registration .inPlace) }
          effects := [.asked (.unregister registration .inPlace)] }

omit [SignalValue V] in
theorem number_of_push? {f : Feed V H R} {number : Nat} {p : Push V R} (h : f.push? number = some p) :
    p.number = number := by
  simpa using List.find?_some h

omit [SignalValue V] in
/-- A feed whose state lock is free is left as it is by letting go of the lock. -/
theorem free_eq {f : Feed V H R} (free : f.holder = none) : { f with holder := none } = f := by
  rw [← free]

theorem transition_of_enter {f : Feed V H R} {request : FeedRequest H} {r : Result V H R}
    (h : f.enter request = some r) : f.Transition (.enter request) r := by
  unfold enter at h
  split at h
  · cases h
  rename_i entered
  simp only [Bool.or_eq_true, decide_eq_true_eq, not_or, Bool.not_eq_true, Option.isSome_eq_false_iff,
    Option.isNone_iff_eq_none] at entered
  obtain ⟨free, kept⟩ := entered
  have idle : ∀ answer, f.release answer = { state := f, answer := some answer } := fun answer => by
    simp only [release, free_eq free]
  cases request with
  | activate =>
    cases active : f.isActive with
    | true =>
      simp only [active, if_true, idle, Option.some.injEq] at h
      exact h ▸ .content free kept active
    | false =>
      simp only [active, Bool.false_eq_true, if_false, Option.some.injEq] at h
      exact h ▸ .activate free kept (by simpa [isActive] using active)
  | deactivate =>
    simp only [startWithdrawal, Option.some.injEq] at h
    split at h
    · rename_i active
      exact h ▸ .deactivate free kept active
    · rename_i inactive
      rw [idle] at h
      exact h ▸ .content free kept inactive
  | refresh =>
    cases active : f.isActive with
    | true =>
      simp only [active, if_true, idle, Option.some.injEq] at h
      exact h ▸ .content free kept active
    | false =>
      simp only [active, Bool.false_eq_true, if_false, Option.some.injEq] at h
      exact h ▸ .refresh free kept (by simpa [isActive] using active)
  | subscribe signal token handler =>
    dsimp only at h
    split at h
    · cases h
    rename_i known
    have known : (f.outlet? signal).isSome := by simpa [Option.isSome_iff_ne_none] using known
    cases active : f.isActive with
    | true =>
      simp only [active, if_true, Option.some.injEq] at h
      subst h
      rw [release, free_eq (f := f.attach signal token handler) free]
      exact .attach free kept known active
    | false =>
      simp only [active, Bool.false_eq_true, if_false, Option.some.injEq] at h
      exact h ▸ .subscribe free kept known (by simpa [isActive] using active)
  | unsubscribe signal token =>
    dsimp only at h
    split at h
    · cases h
    rename_i o known
    split at h
    · rename_i absent
      rw [idle, Option.some.injEq] at h
      exact h ▸ .unknown free kept known (by simpa using absent)
    rename_i present
    have present : o.subscribers.contains token := by simpa using present
    have done : (f.detach signal token).release .done =
        { state := f.detach signal token, answer := some .done } := by
      rw [release, free_eq (f := f.detach signal token) free]
    split at h
    · rename_i last
      simp only [startWithdrawal, Option.some.injEq] at h
      split at h
      · rename_i active
        exact h ▸ .detachLast free kept known present last active
      · rename_i inactive
        rw [done] at h
        refine h ▸ .detach free kept known present (.inr ?_)
        simpa [detach, modifyOutlet] using inactive
    · rename_i more
      rw [done, Option.some.injEq] at h
      exact h ▸ .detach free kept known present (.inl more)
  | shutdown =>
    cases h
    exact .shutdown free kept

theorem transition_of_hear {f : Feed V H R} {reply : ProviderReply R} {r : Result V H R}
    (h : f.hear reply = some r) : f.Transition (.hear reply) r := by
  cases reply with
  | queried answer =>
    simp only [hear] at h
    split at h
    · rename_i purpose held
      cases answer with
      | error failure => cases h; exact .queryFailed held
      | ok payload => cases h; exact .queried held
    · cases h
  | registered answer =>
    simp only [hear] at h
    split at h
    · rename_i purpose held
      cases answer with
      | error failure => cases h; exact .registerFailed held
      | ok registration =>
        cases purpose with
        | subscribe signal token handler => cases h; exact .subscribed held
        | refresh => cases h; exact .activated held (by simp)
        | activate => cases h; exact .activated held (by simp)
    · cases h
  | unregistered answer =>
    simp only [hear] at h
    split at h
    · rename_i registration place held
      cases answer <;> cases h <;> exact .unregistered held
    · cases h

theorem transition_of_invoke {f : Feed V H R} {epoch : Nat} {payload : R} {r : Result V H R}
    (h : f.invoke epoch payload = some r) : f.Transition (.invoke epoch payload) r := by
  unfold invoke at h
  split at h
  · cases h
  rename_i given
  have given : epoch ∈ f.callbacks := by simpa using given
  split at h
  · rename_i unowned
    cases h
    exact .invokeUnowned given unowned
  · rename_i owned
    cases h
    exact .invoke given owned

theorem transition_of_advance {f : Feed V H R} {move : FeedMove V} {r : Result V H R}
    (h : f.advance move = some r) : f.Transition (.advance move) r := by
  cases move with
  | decoded outcome =>
    simp only [advance] at h
    split at h
    · rename_i purpose payload held
      split at h
      · rename_i failure refused
        cases h
        exact .decodeFailed held refused
      · rename_i values admitted
        cases h
        exact .decoded held admitted
    · cases h
  | seed =>
    simp only [advance] at h
    split at h
    · rename_i purpose values held free
      cases h
      exact .seed held free
    · cases h
  | write =>
    simp only [advance] at h
    split at h
    · rename_i push e rest writing
      cases h
      exact .write writing
    · cases h
  | look =>
    simp only [advance] at h
    split at h
    · rename_i push rest e looking
      cases h
      exact .look looking
    · cases h
  | post =>
    simp only [advance] at h
    split at h
    · rename_i push rest e posting
      cases h
      exact .post posting
    · cases h
  | settle =>
    simp only [advance] at h
    split at h
    · rename_i push writing
      cases push with
      | some number => cases h; exact .settlePush writing
      | none =>
        simp only [settleWriter] at h
        split at h
        · rename_i held
          cases h
          exact .settleRefresh held writing
        · rename_i purpose more held
          cases h
          exact .settle held more writing
        · cases h
    · cases h
  | clear =>
    simp only [advance] at h
    split at h
    · rename_i next dropped held
      split at h
      · rename_i o more
        cases h
        exact .clear held more
      · rename_i all
        simp only [startWithdrawal, Option.some.injEq] at h
        split at h
        · rename_i active
          exact h ▸ .cleared held all active
        · rename_i inactive
          exact h ▸ .clearedInactive held all (by simpa using inactive)
    · cases h
  | withdraw =>
    simp only [advance] at h
    split at h
    · rename_i registration held active
      cases h
      exact .withdraw held active
    · cases h
  | pushDecoded number outcome =>
    simp only [advance] at h
    split at h
    · rename_i n epoch payload known
      obtain rfl : n = number := number_of_push? known
      split at h
      · rename_i failure refused
        cases h
        exact .pushRefused known refused
      · rename_i values admitted
        cases h
        exact .pushDecoded known admitted
    · cases h
  | enter number =>
    simp only [advance] at h
    split at h
    · rename_i n epoch values known free
      obtain rfl : n = number := number_of_push? known
      split at h
      · rename_i current
        subst current
        cases h
        exact .pushAccepted known free
      · rename_i stale
        cases h
        exact .pushStale known free stale
    · cases h
  | leave number =>
    simp only [advance] at h
    split at h
    · rename_i n epoch known
      obtain rfl : n = number := number_of_push? known
      cases h
      exact .leave known
    · cases h
  | retire =>
    simp only [advance] at h
    split at h
    · rename_i registration retiring active
      cases h
      exact .retire retiring active
    · cases h

theorem transition_of_clone {f : Feed V H R} {r : Result V H R} (h : f.clone = some r) :
    f.Transition .clone r := by
  unfold Feed.clone at h
  split at h
  · cases h
  · rename_i kept
    cases h
    exact .clone kept

theorem transition_of_drop {f : Feed V H R} {r : Result V H R} (h : f.drop = some r) :
    f.Transition .drop r := by
  unfold Feed.drop at h
  split at h
  · cases h
  rename_i kept
  simp only [Bool.or_eq_true, decide_eq_true_eq, Bool.and_eq_true, not_or, not_and, Bool.not_eq_true,
    Option.isSome_eq_false_iff, Option.isNone_iff_eq_none] at kept
  obtain ⟨kept, free⟩ := kept
  dsimp only at h
  split at h
  · rename_i registration unowned active
    simp only [owners, Nat.add_eq_zero_iff, List.length_eq_zero_iff] at unowned
    obtain ⟨handles, unpushed⟩ := unowned
    have last : f.handles = 1 := by omega
    cases h
    have := Transition.dropLast (f := f) last unpushed (free last) active
    simpa [startUnregister, handles] using this
  · rename_i more
    cases h
    refine .drop kept free ?_
    by_cases unowned : f.handles - 1 + f.pushes.length = 0
    · right
      cases active : f.registration with
      | none => rfl
      | some registration => exact (more registration unowned active).elim
    · exact .inl unowned

/-- **The list is complete**: every step of a feed is one of the cases of `Transition`. -/
theorem transition_of_step {f : Feed V H R} {l : FeedLabel V H R} {r : Result V H R}
    (h : f.step l = some r) : f.Transition l r := by
  cases l with
  | enter request => exact transition_of_enter h
  | hear reply => exact transition_of_hear h
  | invoke epoch payload => exact transition_of_invoke h
  | advance move => exact transition_of_advance h
  | clone => exact transition_of_clone h
  | drop => exact transition_of_drop h

end Feed

/-! ### A lamp

A feed with a single signal, on which what is proved of all feeds is looked at. -/

namespace Lamp

/-- The signal of a lamp: whether it shines. -/
def key : Key := ⟨⟨1⟩, "lamp", ValueType.truth.name⟩

/-- A lamp, dark at first. -/
def plan : FeedPlan Value := ⟨⟨"lamp"⟩, [⟨key, .truth false⟩]⟩

/-- The value of a lamp that shines or not. -/
def emission (shines : Bool) : Emission Value := ⟨key.id, .truth shines⟩

end Lamp

end LazyHub
