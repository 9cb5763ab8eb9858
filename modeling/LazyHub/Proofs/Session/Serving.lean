import LazyHub.Proofs.Feed.Alone
import LazyHub.Proofs.Session.Sites

/-!
# Operations from beginning to end

What an operation does that finds its site at rest (`Site.IsAtRest`) and that nothing comes in between is
a function of the site: `Site.refresh`, `Site.subscribe` and so on say what it answers and what it leaves
behind, in one piece, where the acts go through one atomic step after another. The theorems
`does_refresh`, `does_subscribe` and so on say that the acts do this. They are about clients whose
decoder looks at the payload only, and whose providers do nothing of their own (`Client.IsPlain`).
-/

namespace LazyHub

variable {V H R X : Type}

/-- A client whose decoder for a feed looks at nothing but the payload, and whose provider of the feed
does nothing of its own when it is called. -/
structure Client.IsPlain (c : Client V H R X) (i : Nat) (dec : R → Except DecodeFailure (Emissions V)) : Prop where
  /-- What the decoder makes of a payload. -/
  decodes : ∀ payload, c.decode i payload = pure (dec payload)
  /-- The provider answers a registration at once. -/
  registers : c.onRegister i = pure ()
  /-- The provider ends a registration at once. -/
  unregisters : c.onUnregister i = pure ()

namespace Site

/-- Nothing is under way at a site, and nothing has been left undone. -/
structure IsAtRest (x : Site V H R) : Prop where
  /-- The state lock is free. -/
  free : x.feed.holder = none
  /-- The update lock is free. -/
  unwritten : x.feed.writer = none
  /-- No push is under way. -/
  pushless : x.feed.pushes = []
  /-- Somebody holds the feed. -/
  kept : x.feed.handles ≠ 0
  /-- No registration is left for the pool to end. -/
  unretired : x.feed.retiring = false
  /-- No answer travels. -/
  silent : x.source.reply = none
  /-- The callback that is installed is one of the feed's. -/
  known : ∀ epoch, x.source.provider.callback? = some epoch → epoch ∈ x.feed.callbacks

section Outcomes

variable [SignalValue V] (dec : R → Except DecodeFailure (Emissions V)) (thread : Thread)

/-- Go on with what comes next, unless an operation failed. -/
def thenDo (o : Answer × Site V H R) (next : Site V H R → Answer × Site V H R) : Answer × Site V H R :=
  match o with
  | (.failed failure, y) => (.failed failure, y)
  | (_, y) => next y

/-- The provider is asked for its payload, and what the decoder makes of it is written. -/
def pull (x : Site V H R) : Answer × Site V H R :=
  let source : Source R := { x.source with provider := x.source.provider.query.2 }
  match x.source.provider.query.1 with
  | .error failure => (.failed (.queryFailed x.feed.kind failure), { x with source })
  | .ok payload =>
    let source : Source R := { source with provider := source.provider.takeBack }
    match x.feed.admissible (dec payload) with
    | .error failure => (.failed (.decodeFailed x.feed.kind failure), { x with source })
    | .ok values => (.done, { feed := x.feed.written values, source })

/-- A callback of the feed's epoch is registered. -/
def register (x : Site V H R) : Answer × Site V H R :=
  let source : Source R := { x.source with provider := (x.source.provider.register x.feed.epoch).2 }
  let callbacks := x.feed.callbacks ++ [x.feed.epoch]
  match (x.source.provider.register x.feed.epoch).1 with
  | .error failure =>
    (.failed (.registerFailed x.feed.kind failure),
      { feed := { x.feed with callbacks := callbacks.erase x.feed.epoch }, source })
  | .ok registration => (.done, { feed := { x.feed with callbacks, registration := some registration }, source })

/-- What is left to be done once the values that were pulled are written. -/
def complete (x : Site V H R) : Purpose H → Answer × Site V H R
  | .refresh => (.done, x)
  | .activate => x.register
  | .subscribe signal token handler =>
    thenDo x.register fun y => (.done, { y with feed := y.feed.attach signal token handler })

theorem thenDo_complete_refresh (x : Site V H R) : thenDo (x.pull dec) (·.complete .refresh) = x.pull dec := by
  unfold pull
  dsimp only
  split
  · rfl
  · split <;> rfl

/-- Pull the provider's payload in a new epoch, and register. -/
def activate (purpose : Purpose H) (x : Site V H R) : Answer × Site V H R :=
  thenDo (pull dec { x with feed := { x.feed with epoch := x.feed.epoch + 1 } }) (·.complete purpose)

/-- End the registration, if there is one. -/
def withdraw (x : Site V H R) : Answer × Site V H R :=
  match x.feed.registration with
  | none => (.done, x)
  | some registration =>
    (.done,
      { feed := { x.feed with registration := none, epoch := x.feed.epoch + 1 }
        source := { x.source with provider := (x.source.provider.unregister registration thread).2 } })

/-- **What comes of a request** that finds its site at rest. -/
def fulfil (x : Site V H R) : FeedRequest H → Answer × Site V H R
  | .activate => if x.feed.isActive then (.done, x) else x.activate dec .activate
  | .deactivate => x.withdraw thread
  | .refresh => if x.feed.isActive then (.done, x) else x.pull dec
  | .subscribe signal token handler =>
    if x.feed.isActive then (.done, { x with feed := x.feed.attach signal token handler })
    else x.activate dec (.subscribe signal token handler)
  | .unsubscribe signal token =>
    if ((x.feed.outlet? signal).map (·.subscribers.contains token)).getD false then
      let y : Site V H R := { x with feed := x.feed.detach signal token }
      if y.feed.subscriptionCount = 0 then y.withdraw thread else (.done, y)
    else (.unknownToken, x)
  | .shutdown => withdraw thread { x with feed := x.feed.cleared }

/-- **What comes of a payload that the provider tells its callback** while the site is at rest: the site, and
what the feed then owes. -/
def receive (x : Site V H R) (payload : R) : Site V H R × List (Emission V) :=
  match x.source.provider.callback? with
  | none => (x, [])
  | some epoch =>
    let o := ({ x.feed with pushCount := x.feed.pushCount + 1 } : Feed V H R).received epoch (dec payload)
    (⟨o.1, { x.source with provider := x.source.provider.takeBack }⟩, o.2)

end Outcomes

end Site

namespace Act

variable [SignalValue V] {c : Client V H R X} {thread : Thread} {i : Nat}
  {dec : R → Except DecodeFailure (Emissions V)}

/-! ### Writing -/

/-- A change is looked after, and posted if anyone is subscribed to its signal. -/
theorem does_report {push : Option Nat} {e : Emission V} {rest : List (Emission V)} {f : Feed V H R} {source : Source R}
    (change : Bool) :
    (report i : Act V H R X Unit).Does thread i
      ⟨{ f with writer := some ⟨push, rest, if change then .fresh e else .none⟩ }, source⟩ ()
      ⟨{ f with writer := some ⟨push, rest, .none⟩ }, source⟩ (if change && f.isWatched e.signal then [e] else []) := by
  cases change with
  | false => exact (does_feed _).andThen (does_pure _ ())
  | true =>
    have looked := does_advance (X := X) (t := thread) (i := i) (x := ⟨_, source⟩) (Feed.advance_look f push e rest)
    have posted := does_advance (X := X) (t := thread) (i := i) (x := ⟨_, source⟩) (Feed.advance_post f push e rest)
    cases watched : f.isWatched e.signal with
    | false =>
      rw [watched] at looked
      exact (does_feed _).andThen (looked.andThen ((does_feed _).andThen (does_pure _ ())))
    | true =>
      rw [watched] at looked
      exact (does_feed _).andThen (looked.andThen ((does_feed _).andThen (posted.andEnd (does_pure _ ()))))

/-- The holder of the update lock writes its values, and then lets go of the lock. -/
theorem does_writeOut {values : List (Emission V)} {push : Option Nat} {f : Feed V H R} {source : Source R}
    {answer : Option Answer} {y : Site V H R}
    (settles : (advance i .settle : Act V H R X _).Does thread i
      ⟨{ f.written values with writer := some ⟨push, [], .none⟩ }, source⟩ answer y []) :
    (writeOut i values : Act V H R X _).Does thread i ⟨{ f with writer := some ⟨push, values, .none⟩ }, source⟩ answer y
      (if push.isSome then f.owes values else []) := by
  induction values generalizing f with
  | nil =>
    simp only [Feed.owes, ite_self]
    exact settles
  | cons e rest ih =>
    have owes : (if push.isSome then f.owes (e :: rest) else []) =
        f.owed push.isSome e ++ if push.isSome then (f.writeGate e).owes rest else [] := by
      cases push <;> rfl
    rw [owes, Feed.owed, ← Feed.isWatched_writeGate f e]
    exact (does_advance (Feed.advance_write rfl)).andThen ((does_report _).bind (ih settles))

theorem does_writeAll {values : List (Emission V)} {push : Option Nat} {f : Feed V H R} {source : Source R}
    {answer : Option Answer} {y : Site V H R}
    (settles : (advance i .settle : Act V H R X _).Does thread i
      ⟨{ f.written values with writer := some ⟨push, [], .none⟩ }, source⟩ answer y []) :
    (writeAll i : Act V H R X _).Does thread i ⟨{ f with writer := some ⟨push, values, .none⟩ }, source⟩ answer y
      (if push.isSome then f.owes values else []) :=
  (does_feed _).andThen (does_writeOut settles)

/-! ### Pulling and registering -/

open Site (thenDo)

variable {x : Site V H R}

/-- The provider is asked to install a callback, and the feed hears its answer. -/
theorem does_registration (plain : c.IsPlain i dec) (free : x.feed.holder = none) (silent : x.source.reply = none)
    {purpose : Purpose H} (registers : purpose ≠ .refresh) :
    (Act.register c i).Does thread i
      ⟨({ x.feed with callbacks := x.feed.callbacks ++ [x.feed.epoch] } : Feed V H R).busy (.registering purpose), x.source⟩
      (x.complete purpose).1 (x.complete purpose).2 [] := by
  obtain ⟨f, provider, reply⟩ := x
  obtain rfl : reply = none := silent
  have free : f.holder = none := free
  let g : Feed V H R := { f with callbacks := f.callbacks ++ [f.epoch] }
  obtain ⟨answer, provider', asked⟩ : ∃ answer provider', provider.register f.epoch = (answer, provider') := ⟨_, _, rfl⟩
  let x : Site V H R := ⟨g.busy (.registering purpose), provider', some answer⟩
  have asks : (performOn (.register i) : Act V H R X _).Does thread i ⟨g.busy (.registering purpose), provider, none⟩ () x [] :=
    does_register asked rfl rfl
  refine asks.andThen ((does_source x).andThen ?_)
  suffices known : ∃ fr : Feed.Result V H R, x.feed.hear (.registered answer) = some fr ∧
      some (Site.complete ⟨f, provider, none⟩ purpose).1 = fr.answer ∧
      (Site.complete ⟨f, provider, none⟩ purpose).2 = ⟨fr.state, provider', none⟩ ∧
      fr.effects.countP (·.isReleased) = 0 ∧ Feed.dues fr.effects = [] by
    obtain ⟨fr, made, answers, site, unreleased, owesNothing⟩ := known
    have hears := does_registered (X := X) (t := thread) (i := i) (x := x) rfl made
    rw [← answers, Source.takeBack_of_none _ unreleased, owesNothing] at hears
    rw [site]
    cases answer with
    | error failure => exact hears.performLast
    | ok registration =>
      have returns : (c.onRegister i).Does thread i x () x [] := plain.registers ▸ does_pure x ()
      exact returns.andThen hears.performLast
  cases answer with
  | error failure =>
    refine ⟨_, congrArg some (Feed.release_busy (f := { f with callbacks := (f.callbacks ++ [f.epoch]).erase f.epoch })
      free (.registering purpose) (.failed (.registerFailed f.kind failure)) []), ?_⟩
    cases purpose with
    | refresh => exact absurd rfl registers
    | activate => simp [Site.complete, Site.register, asked, Feed.dues]
    | subscribe => simp [Site.complete, Site.register, asked, Site.thenDo, Feed.dues]
  | ok registration =>
    let k : Feed V H R := { g with registration := some registration }
    let noted : List (FeedEffect V) := [.noted (.activated f.kind registration)]
    cases purpose with
    | refresh => exact absurd rfl registers
    | activate =>
      refine ⟨_, congrArg some (Feed.release_busy (f := k) free (.registering .activate) .done noted), ?_⟩
      simp [Site.complete, Site.register, asked, Feed.dues, k, g, noted, FeedEffect.isReleased]
    | subscribe signal token handler =>
      refine ⟨_, congrArg some (Feed.release_busy (f := k.attach signal token handler) free
        (.registering (.subscribe signal token handler)) .done noted), ?_⟩
      simp [Site.complete, Site.register, asked, Site.thenDo, Feed.dues, k, g, noted, FeedEffect.isReleased]

/-- The payload on loan is decoded. -/
theorem does_decodeLoan (plain : c.IsPlain i dec) {f : Feed V H R} {purpose : Purpose H} {payload : R} {source : Source R}
    {fr : Feed.Result V H R}
    (made : (f.busy (.decoding purpose payload)).advance (.decoded (dec payload)) = some fr) :
    (decodeLoan c i).Does thread i ⟨f.busy (.decoding purpose payload), source⟩ fr.answer
      ⟨fr.state, source.takeBack fr.effects⟩ (Feed.dues fr.effects) := by
  refine (does_feed _).andThen ?_
  have decodes : (c.decode i payload).Does thread i ⟨f.busy (.decoding purpose payload), source⟩ (dec payload)
      ⟨f.busy (.decoding purpose payload), source⟩ [] := plain.decodes payload ▸ does_pure _ _
  exact decodes.andThen (does_advance made)

/-- A pull is carried to its end, and with it the operation that it is for. -/
theorem does_pull (plain : c.IsPlain i dec) (free : x.feed.holder = none) (unwritten : x.feed.writer = none)
    (silent : x.source.reply = none) (purpose : Purpose H) :
    let o := thenDo (x.pull dec) (·.complete purpose)
    (Act.pull c i).Does thread i { x with feed := x.feed.busy (.querying purpose) } o.1 o.2 [] := by
  obtain ⟨f, provider, reply⟩ := x
  obtain rfl : reply = none := silent
  have free : f.holder = none := free
  obtain ⟨answer, provider', asked⟩ : ∃ answer provider', provider.query = (answer, provider') := ⟨_, _, rfl⟩
  cases answer with
  | error failure =>
    have made := does_query (X := X) (t := thread) (i := i) (x := ⟨f.busy (.querying purpose), provider, none⟩) asked
      (congrArg some (Feed.release_busy free (.querying purpose) (.failed (.queryFailed f.kind failure)) []))
    simp only [Site.pull, asked, thenDo]
    exact made.andThen (does_pure _ _)
  | ok payload =>
    have heard : (f.busy (.querying purpose)).hear (.queried (.ok payload)) = some { state := f.busy (.decoding purpose payload) } :=
      rfl
    have made := does_query (X := X) (t := thread) (i := i) (x := ⟨f.busy (.querying purpose), provider, none⟩) asked heard
    refine made.andThen ?_
    cases admitted : f.admissible (dec payload) with
    | error failure =>
      simp only [Site.pull, asked, admitted, thenDo]
      exact (does_decodeLoan plain (Feed.advance_decoded_error free admitted)).andThen (does_pure _ _)
    | ok values =>
      let source : Source R := { provider := provider'.takeBack }
      refine (does_decodeLoan plain (Feed.advance_decoded_ok admitted)).andThen
        ((does_advance (x := ⟨_, source⟩) (Feed.advance_seed unwritten)).andThen ?_)
      simp only [Site.pull, asked, admitted, thenDo]
      have unwritten' : (f.written values).writer = none := by rw [Feed.written_eq]; exact unwritten
      have free' : (f.written values).holder = none := by rw [Feed.written_eq]; exact free
      have writes : ∀ {fr : Feed.Result V H R},
          ({ (f.written values).busy (.writing purpose) with writer := some ⟨none, [], .none⟩ } : Feed V H R).advance .settle =
            some fr → fr.effects.countP (·.isReleased) = 0 → Feed.dues fr.effects = [] →
          (writeAll i : Act V H R X _).Does thread i ⟨{ f.busy (.writing purpose) with writer := some ⟨none, values, .none⟩ }, source⟩
            fr.answer ⟨fr.state, source⟩ [] := by
        intro fr made unreleased owesNothing
        rw [← Feed.written_busy] at made
        have settles := does_advance (X := X) (t := thread) (i := i)
          (x := ⟨{ (f.busy (.writing purpose)).written values with writer := some ⟨none, [], .none⟩ }, source⟩) made
        rw [Source.takeBack_of_none _ unreleased, owesNothing] at settles
        exact does_writeAll settles
      by_cases ends : purpose = .refresh
      · subst ends
        exact (writes (Feed.settle_refresh free' unwritten') rfl rfl).andThen (does_pure _ _)
      · exact (writes (Feed.settle_activation unwritten' ends) rfl rfl).andThen
          (does_registration (x := ⟨f.written values, source⟩) plain free' rfl ends)

/-! ### Ending a registration -/

/-- The provider ends a registration, or refuses to; the feed is done with it all the same. -/
theorem does_endRegistration (ends : c.onUnregister i = pure ()) (free : x.feed.holder = none) (registration : Registration) :
    (endRegistration c i).Does thread i { x with feed := x.feed.busy (.unregistering registration .inPlace) } .done
      { x with source := { x.source with provider := (x.source.provider.unregister registration thread).2 } } [] := by
  obtain ⟨answer, provider, asked⟩ : ∃ answer provider, x.source.provider.unregister registration thread = (answer, provider) :=
    ⟨_, _, rfl⟩
  rw [endRegistration, ends, asked]
  refine (does_pure _ ()).andThen (does_thread (k := fun t => performLast (.unregister i t)) (Does.performLast ?_))
  cases answer with
  | ok =>
    exact does_unregister (X := X) (x := { x with feed := x.feed.busy (.unregistering registration .inPlace) }) asked rfl
      (congrArg some (Feed.release_busy free _ .done [.noted (.deactivated x.feed.kind registration)]))
  | error failure =>
    exact does_unregister (X := X) (x := { x with feed := x.feed.busy (.unregistering registration .inPlace) }) asked rfl
      (congrArg some (Feed.release_busy free _ .done [.noted (.abandoned x.feed.kind registration failure)]))

/-- The feed gives a registration up, and the provider ends it. -/
theorem does_withdraw (ends : c.onUnregister i = pure ()) (free : x.feed.holder = none) {registration : Registration}
    (active : x.feed.registration = some registration) :
    (Act.withdraw c i).Does thread i { x with feed := x.feed.busy .withdrawing } (x.withdraw thread).1
      (x.withdraw thread).2 [] := by
  let g : Feed V H R := { x.feed with registration := none, epoch := x.feed.epoch + 1 }
  have gives : (x.feed.busy .withdrawing).advance .withdraw =
      some
        { state := g.busy (.unregistering registration .inPlace)
          effects := [.asked (.unregister registration .inPlace)] } := by
    simp only [Feed.advance, Feed.busy, active]
    rfl
  simp only [Site.withdraw, active]
  exact (does_advance (x := ⟨_, x.source⟩) gives).andThen
    (does_endRegistration (x := ⟨g, x.source⟩) ends free registration)

/-- What is left to be done of an operation after which the registration is to be ended, if there is one. -/
theorem does_startWithdrawal (ends : c.onUnregister i = pure ()) (free : x.feed.holder = none) {act : Act V H R X Answer}
    (answered : ∀ a, x.feed.startWithdrawal.answer = some a → act = pure a)
    (goesOn : x.feed.startWithdrawal.answer = none → ∀ {y : Site V H R} {a : Answer} {z : Site V H R},
      y.feed.holder = some .withdrawing → (Act.withdraw c i).Does thread i y a z [] → act.Does thread i y a z []) :
    act.Does thread i { x with feed := x.feed.startWithdrawal.state } (x.withdraw thread).1 (x.withdraw thread).2 [] := by
  cases active : x.feed.registration with
  | none =>
    have settled : x.feed.startWithdrawal = { state := x.feed, answer := some .done } := by
      rw [Feed.startWithdrawal, if_neg (by rw [active]; exact Bool.false_ne_true), Feed.release_free free]
    rw [answered .done (by rw [settled]), settled]
    simp only [Site.withdraw, active]
    exact does_pure _ _
  | some registration =>
    have starts : x.feed.startWithdrawal = { state := x.feed.busy .withdrawing } := by
      rw [Feed.startWithdrawal, if_pos (by rw [active]; rfl)]
      rfl
    rw [starts]
    exact goesOn (by rw [starts]) rfl (does_withdraw ends free active)

/-! ### Dropping all subscribers -/

theorem does_clearOut {f : Feed V H R} {s : Source R} {n k d : Nat} (left : k + n = f.outlets.length) :
    let r := ({ f with outlets := Outlet.wipedFrom k f.outlets, subscriptionCount := 0 } : Feed V H R).startWithdrawal
    (clearOut i n : Act V H R X _).Does thread i ⟨f.busy (.clearing k d), s⟩ r.answer ⟨r.state, s⟩ [] := by
  induction n generalizing f k d with
  | zero =>
    have all : f.outlets.length ≤ k := left.ge
    obtain ⟨effects, unreleased, owesNothing, clears⟩ := Feed.advance_cleared (d := d) all
    have done := does_advance (X := X) (t := thread) (i := i) (x := ⟨_, s⟩) clears
    rw [Source.takeBack_of_none _ unreleased, owesNothing] at done
    rw [Outlet.wipedFrom_of_le all]
    exact done
  | succ n ih =>
    have lt : k < f.outlets.length := by omega
    have clears := Feed.advance_clear (d := d) (List.getElem?_eq_getElem lt)
    have onward := ih (f := { f with outlets := f.outlets.modify k Outlet.wiped }) (k := k + 1)
      (d := d + f.outlets[k].subscribers.size) (by simp only [List.length_modify]; omega)
    dsimp only at onward
    rw [Outlet.wipedFrom_modify lt] at onward
    exact (does_advance (x := ⟨_, s⟩) clears).andThen onward

/-- All subscribers are dropped, and the registration is ended if there is one. -/
theorem does_clearAll (ends : c.onUnregister i = pure ()) (free : x.feed.holder = none) :
    let o := Site.withdraw thread { x with feed := x.feed.cleared }
    (clearAll c i).Does thread i { x with feed := x.feed.busy (.clearing 0 0) } o.1 o.2 [] := by
  have clears : (clearOut i x.feed.outlets.length : Act V H R X _).Does thread i ⟨x.feed.busy (.clearing 0 0), x.source⟩
      x.feed.cleared.startWithdrawal.answer ⟨x.feed.cleared.startWithdrawal.state, x.source⟩ [] :=
    does_clearOut (Nat.zero_add _)
  refine (does_feed _).andThen (clears.andThen ?_)
  refine does_startWithdrawal (x := { x with feed := x.feed.cleared }) ends free (fun a answered => ?_) fun unanswered _ _ _ _ goesOn => ?_
  · rw [answered]
  · rw [unanswered]
    exact goesOn

/-! ### Requests -/

/-- A request enters the feed, and serving it ends with an answer and leaves a site behind. -/
def Serves (c : Client V H R X) (thread : Thread) (i : Nat) (x : Site V H R) (request : FeedRequest H)
    (o : Answer × Site V H R) : Prop :=
  ∃ fr, x.feed.enter request = some fr ∧ fr.effects.countP (·.isReleased) = 0 ∧ Feed.dues fr.effects = [] ∧
    (serve c i fr.answer).Does thread i ⟨fr.state, x.source⟩ o.1 o.2 []

/-- A shutdown does not depend on what the decoder makes of payloads. -/
theorem serves_shutdown (ends : c.onUnregister i = pure ()) (rest : x.IsAtRest) :
    Serves c thread i x .shutdown (Site.withdraw thread { x with feed := x.feed.cleared }) := by
  have entered : x.feed.enter .shutdown = _ := if_neg (by simp [rest.free, rest.kept])
  exact ⟨_, entered, rfl, rfl, (does_feed _).andThen (does_clearAll ends rest.free)⟩

/-- **A request that finds its site at rest is fulfilled**: it enters the feed, and serving it does what
`Site.fulfil` says. -/
theorem serves_fulfil (plain : c.IsPlain i dec) (rest : x.IsAtRest) (request : FeedRequest H)
    (answers : x.feed.Answers request) :
    Serves c thread i x request (x.fulfil dec thread request) := by
  rw [Serves]
  have entered : x.feed.enter request = _ := if_neg (by simp [rest.free, rest.kept])
  rw [entered]
  have content : ∀ {y : Site V H R} {a : Answer}, y.feed.holder = none →
      (serve c i (y.feed.release a).answer).Does thread i ⟨(y.feed.release a).state, y.source⟩ a y [] := by
    intro y a free
    rw [Feed.release_free free]
    exact does_pure _ _
  have pulls : ∀ {y : Site V H R} (purpose : Purpose H), y.feed.holder = none → y.feed.writer = none → y.source.reply = none →
      (serve c i none).Does thread i ⟨y.feed.busy (.querying purpose), y.source⟩
        (thenDo (y.pull dec) (·.complete purpose)).1 (thenDo (y.pull dec) (·.complete purpose)).2 [] := by
    intro y purpose free unwritten silent
    exact (does_feed _).andThen (does_pull plain free unwritten silent purpose)
  have ends : ∀ {y : Site V H R}, y.feed.holder = none →
      (serve c i y.feed.startWithdrawal.answer).Does thread i ⟨y.feed.startWithdrawal.state, y.source⟩ (y.withdraw thread).1
        (y.withdraw thread).2 [] ∧
      y.feed.startWithdrawal.effects.countP (·.isReleased) = 0 ∧ Feed.dues y.feed.startWithdrawal.effects = [] := by
    intro y free
    refine ⟨does_startWithdrawal plain.unregisters free (fun a answered => ?_) fun unanswered _ _ _ held goesOn => ?_, ?_, ?_⟩
    · rw [answered]
      rfl
    · rw [unanswered]
      refine (does_feed _).andThen ?_
      rw [held]
      exact goesOn
    · rw [Feed.startWithdrawal]
      split <;> rfl
    · rw [Feed.startWithdrawal]
      split <;> rfl
  cases request with
  | activate =>
    by_cases active : x.feed.isActive
    · simp only [Site.fulfil, active, if_true]
      exact ⟨_, rfl, rfl, rfl, content rest.free⟩
    · simp only [Site.fulfil, active, Bool.false_eq_true, if_false]
      exact ⟨_, rfl, rfl, rfl,
        pulls (y := { x with feed := { x.feed with epoch := x.feed.epoch + 1 } }) .activate rest.free rest.unwritten rest.silent⟩
  | deactivate =>
    obtain ⟨does, unreleased, owesNothing⟩ := ends rest.free
    exact ⟨_, rfl, unreleased, owesNothing, does⟩
  | refresh =>
    by_cases active : x.feed.isActive
    · simp only [Site.fulfil, active, if_true]
      exact ⟨_, rfl, rfl, rfl, content rest.free⟩
    · simp only [Site.fulfil, active, Bool.false_eq_true, if_false]
      refine ⟨_, rfl, rfl, rfl, ?_⟩
      exact Site.thenDo_complete_refresh dec x ▸ pulls (y := x) .refresh rest.free rest.unwritten rest.silent
  | subscribe signal token handler =>
    have known : (x.feed.outlet? signal).isNone = false := by
      rw [Option.isNone_eq_false_iff]
      exact answers
    by_cases active : x.feed.isActive
    · simp only [Site.fulfil, known, active, if_true, Bool.false_eq_true, if_false]
      exact ⟨_, rfl, rfl, rfl, content (y := { x with feed := x.feed.attach signal token handler }) rest.free⟩
    · simp only [Site.fulfil, known, active, Bool.false_eq_true, if_false]
      exact ⟨_, rfl, rfl, rfl, pulls (y := { x with feed := { x.feed with epoch := x.feed.epoch + 1 } })
        (.subscribe signal token handler) rest.free rest.unwritten rest.silent⟩
  | unsubscribe signal token =>
    obtain ⟨o, known⟩ := Option.isSome_iff_exists.1 answers
    by_cases present : o.subscribers.contains token
    · by_cases last : (x.feed.detach signal token).subscriptionCount = 0
      · simp only [Site.fulfil, known, present, last, Option.map_some, Option.getD_some, if_true, Bool.not_true,
          Bool.false_eq_true, if_false]
        obtain ⟨does, unreleased, owesNothing⟩ := ends (y := { x with feed := x.feed.detach signal token }) rest.free
        exact ⟨_, rfl, unreleased, owesNothing, does⟩
      · simp only [Site.fulfil, known, present, last, Option.map_some, Option.getD_some, if_true, Bool.not_true,
          Bool.false_eq_true, if_false]
        exact ⟨_, rfl, rfl, rfl, content (y := { x with feed := x.feed.detach signal token }) rest.free⟩
    · simp only [Site.fulfil, known, present, Option.map_some, Option.getD_some, if_true, Bool.not_false,
        Bool.false_eq_true, if_false]
      exact ⟨_, rfl, rfl, rfl, content rest.free⟩
  | shutdown =>
    rw [← entered]
    exact serves_shutdown plain.unregisters rest

/-! ### Pushes -/

theorem does_applyPush {f : Feed V H R} {number epoch : Nat} {values : List (Emission V)} {source : Source R}
    (unwritten : f.writer = none) :
    (applyPush i number : Act V H R X _).Does thread i ⟨f.pushing number epoch (.ready values), source⟩ ()
      ⟨(if epoch = f.epoch then f.written values else f).pushing number epoch .leaving, source⟩
      (if epoch = f.epoch then f.owes values else []) := by
  refine (does_feed _).andThen ?_
  rw [Feed.push?_pushing]
  by_cases current : epoch = f.epoch
  · rw [if_pos current, if_pos current]
    refine (does_advance (x := ⟨_, source⟩) (Feed.advance_enter_current unwritten current)).andThen ((does_feed _).andThen ?_)
    have unwritten' : (f.written values).writer = none := by rw [Feed.written_eq]; exact unwritten
    have settles := does_advance (X := X) (t := thread) (i := i)
      (x := ⟨{ (f.written values).pushing number epoch .writing with writer := some ⟨some number, [], .none⟩ }, source⟩)
      (Feed.settle_pushing unwritten')
    rw [← Feed.written_pushing] at settles
    have writes := (does_writeAll settles).andEnd (k := fun _ => pure ()) (does_pure _ ())
    rw [Option.isSome_some, if_pos rfl, Feed.owes_congr (f := f) (g := f.pushing number epoch .writing) rfl]
      at writes
    have phase : ({ f.pushing number epoch .writing with writer := some ⟨some number, values, .none⟩ } : Feed V H R).push? number =
        some ⟨number, epoch, .writing⟩ := Feed.push?_pushing (f := f) .writing
    simp only [phase]
    exact writes
  · rw [if_neg current, if_neg current]
    refine (does_advance (x := ⟨_, source⟩) (Feed.advance_enter_stale unwritten current)).andThen ((does_feed _).andThen ?_)
    simp only [Feed.push?_pushing]
    exact does_pure _ _

/-- A pushed payload is carried to its end. -/
theorem does_receive (plain : c.IsPlain i dec) {f : Feed V H R} {source : Source R} (unwritten : f.writer = none)
    (pushless : f.pushes = []) (kept : f.handles ≠ 0) (unretired : f.retiring = false) {number epoch : Nat} {payload : R} :
    let source' : Source R := { source with provider := source.provider.takeBack }
    let o := f.received epoch (dec payload)
    (Act.receive c i number payload).Does thread i ⟨f.pushing number epoch (.decoding payload), source⟩ () ⟨o.1, source'⟩
      o.2 := by
  intro source' o
  have decodes : (c.decode i payload).Does thread i ⟨f.pushing number epoch (.decoding payload), source⟩ (dec payload)
      ⟨f.pushing number epoch (.decoding payload), source⟩ [] := plain.decodes payload ▸ does_pure _ _
  have leaves : ∀ {g : Feed V H R}, g.pushes = [] → g.handles ≠ 0 → g.retiring = false →
      (do
        let _ ← advance i (.leave number)
        if (← feed i).retiring then
          let _ ← advance i .retire
          let _ ← endRegistration c i : Act V H R X Unit).Does thread i ⟨g.pushing number epoch .leaving, source'⟩ () ⟨g, source'⟩ [] := by
    intro g pushless kept unretired
    refine (does_advance (x := ⟨_, source'⟩) (Feed.advance_leave pushless kept unretired)).andThen ((does_feed _).andThen ?_)
    rw [if_neg (by rw [unretired]; exact Bool.false_ne_true)]
    exact does_pure _ _
  refine decodes.andThen ?_
  cases admitted : f.admissible (dec payload) with
  | error failure =>
    have stays : (applyPush i number : Act V H R X _).Does thread i ⟨f.pushing number epoch .leaving, source'⟩ ()
        ⟨f.pushing number epoch .leaving, source'⟩ [] := by
      refine (does_feed _).andThen ?_
      rw [Feed.push?_pushing]
      exact does_pure _ _
    simp only [o, Feed.received, admitted]
    exact (does_advance (x := ⟨_, source⟩) (Feed.advance_pushDecoded_error admitted)).andThen
      (stays.andThen (leaves pushless kept unretired))
  | ok values =>
    have same := Feed.written_eq f values
    have applied : o = (if epoch = f.epoch then f.written values else f, if epoch = f.epoch then f.owes values else []) := by
      simp only [o, Feed.received, admitted]
      split <;> rfl
    rw [applied]
    refine (does_advance (x := ⟨_, source⟩) (Feed.advance_pushDecoded_ok admitted)).andThen
      ((does_applyPush unwritten).andEnd (leaves ?_ ?_ ?_))
    · split
      · rw [same]
        exact pushless
      · exact pushless
    · split
      · rw [same]
        exact kept
      · exact kept
    · split
      · rw [same]
        exact unretired
      · exact unretired

/-- **A payload that the provider tells its callback** while the site is at rest is carried to its end. -/
theorem does_invoking (plain : c.IsPlain i dec) (rest : x.IsAtRest) {l : WorldLabel V H R} (own : l.IsOwn)
    {payload : R} {y : Site V H R} (source : y.source.provider.callback? = x.source.provider.callback?) (feed : y.feed = x.feed)
    (made : ∀ w : World V H R, w.HasSite i x → w.step l =
      ({ w with sources := w.sources.set i y.source } : World V H R).invokeCallback i payload) :
    (invoking c i payload l).Does thread i x () (y.receive dec payload).1 (y.receive dec payload).2 := by
  obtain ⟨g, s⟩ := y
  obtain rfl : g = x.feed := feed
  refine (does_feed x).andThen ?_
  cases installed : s.provider.callback? with
  | none =>
    have performs : (perform l : Act V H R X _).Does thread i x none ⟨x.feed, s⟩ [] := by
      refine does_perform own fun w _ at' => ⟨{ state := { w with sources := w.sources.set i s } }, ?_, rfl, ?_⟩
      · rw [made w at', World.invokeCallback]
        simp only [List.getElem?_set_self at'.lt.2, Option.bind_some, installed]
      · rw [World.after, World.set_of_getElem? at'.feed]
        rfl
    refine performs.andThen ((does_feed _).andThen ?_)
    simp only [Site.receive, installed, Nat.lt_irrefl, if_false]
    exact does_pure _ _
  | some epoch =>
    have there := rest.known epoch (source ▸ installed)
    let f : Feed V H R := { x.feed with pushCount := x.feed.pushCount + 1 }
    have invokes : x.feed.invoke epoch payload = some { state := f.pushing x.feed.pushCount epoch (.decoding payload) } := by
      have owned : ¬ x.feed.owners = 0 := fun none => rest.kept (Nat.eq_zero_of_add_eq_zero_right none)
      simp only [Feed.invoke, if_neg (not_not.2 there), if_neg owned, rest.pushless]
      rfl
    have performs : (perform l : Act V H R X _).Does thread i x none
        ⟨f.pushing x.feed.pushCount epoch (.decoding payload), s⟩ [] := by
      refine does_perform own fun w _ at' => ?_
      rw [made w at', World.invokeCallback]
      simp only [List.getElem?_set_self at'.lt.2, Option.bind_some, installed]
      exact World.onHub_at at' s .invoke invokes
    refine performs.andThen ((does_feed _).andThen ?_)
    have more : x.feed.pushCount < (f.pushing x.feed.pushCount epoch (.decoding payload)).pushCount := Nat.lt_succ_self _
    rw [if_pos more]
    simp only [Site.receive, installed]
    exact does_receive (f := f) plain rest.unwritten rest.pushless rest.kept rest.unretired

end Act

end LazyHub
