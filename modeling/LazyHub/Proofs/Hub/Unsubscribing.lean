import LazyHub.Proofs.Hub.Calls
import LazyHub.Proofs.Hub.Operations
import LazyHub.Proofs.Hub.Tokens

/-!
# What an unsubscription does

An unsubscription takes a signal and a token. It ends the subscription that the token was drawn for, if this is to the
signal and still there (`Hub.EndsOne`), and otherwise it changes nothing at all (`Hub.Ignores`). That is so for every
token that a hub has drawn, however long ago (`TokenBook.endsOwnOnly`). The provider is called only if nobody else is
subscribed to any signal of the feed, and then only to end the registration.
-/

namespace LazyHub

variable {V H R : Type}

namespace Hub

/-- What a hub knows of its signals its feeds' keys and gates tell. -/
theorem cached?_congr {g h : Hub V H R}
    (same : g.feeds.map (fun f => f.outlets.map fun o => (o.key, o.gate)) =
      h.feeds.map fun f => f.outlets.map fun o => (o.key, o.gate)) (signal : SignalId) :
    g.cached? signal = h.cached? signal := by
  have listed : ∀ k : Hub V H R, k.cached? signal =
      ((k.feeds.map fun f => f.outlets.map fun o => (o.key, o.gate)).flatten.find? (·.1.id = signal)).map (·.2.value) := by
    intro k
    have outlets : k.outlets.map (fun e => (e.2.2.key, e.2.2.gate)) =
        (k.feeds.map fun f => f.outlets.map fun o => (o.key, o.gate)).flatten := by
      have numbered := List.flatMap_map (l := k.feeds.zipIdx) Prod.fst fun f => f.outlets.map fun o => (o.key, o.gate)
      rw [List.zipIdx_map_fst] at numbered
      rw [outlets, List.map_flatMap, ← List.flatMap_def, numbered]
      simp [Function.comp_def]
    rw [← outlets, List.find?_map, Option.map_map]
    rfl
  rw [listed, listed, same]

/-- The hub without one of its subscriptions. If nobody else is subscribed to any signal of the feed, the end of the
registration is to follow. -/
def without (h : Hub V H R) (i : Nat) (f : Feed V H R) (signal : SignalId) (token : Token) : Hub V H R :=
  { h with
    feeds := h.feeds.set i
      { f.detach signal token with holder := if f.totalSubscribers = 1 then some .withdrawing else none } }

variable [SignalValue V]

/-- **An unsubscription that changes nothing**: it is over in one step, which leaves the hub as it is. -/
def Ignores (h : Hub V H R) (signal : SignalId) (token : Token) : Prop :=
  h.step (.move (.unsubscribe signal token)) = some { state := h, answer := some .unknownToken }

/-- **An unsubscription that ends one subscription** to a signal of a feed, and changes nothing else. -/
structure EndsOne (h : Hub V H R) (i : Nat) (f : Feed V H R) (signal : SignalId) (token : Token) : Prop where
  /-- It takes the subscription out of its outlet and the count, and unless it was the feed's last it is done. -/
  step : h.step (.move (.unsubscribe signal token)) =
    some { state := h.without i f signal token, answer := if f.totalSubscribers = 1 then none else some .done }
  /-- Whoever else is subscribed stays so, to whatever signal of whatever feed. -/
  subscribers : ∀ j s, (h.without i f signal token).subscribersOf j s = (h.subscribersOf j s).filter (·.1 ≠ token)
  /-- The last known values stay as they are. -/
  values : ∀ s, (h.without i f signal token).cached? s = h.cached? s
  /-- One subscription less is counted, and there is one less. -/
  counts : (f.detach signal token).subscriptionCount + 1 = f.subscriptionCount ∧
    (f.detach signal token).totalSubscribers + 1 = f.totalSubscribers
  /-- If it was the feed's last, then whatever else happens in the hub until it returns, all that the provider is
  asked is to end the registration, and the feed is inactive in the end. -/
  last : f.totalSubscribers = 1 → ∃ registration, f.registration = some registration ∧
    ∀ labels k es a, (∀ l ∈ labels, l.IsOwn) → Finishes i h (.move (.unsubscribe signal token) :: labels) k es a →
      a = .done ∧ callsTo i es = [.unregister registration .inPlace] ∧ ∃ g, k.feeds[i]? = some g ∧ g.IsBare
  /-- If nothing else happens until it returns, nothing else has changed. -/
  alone : f.totalSubscribers = 1 → ∀ registration answer, f.registration = some registration → ∃ entry,
    Finishes i h [.move (.unsubscribe signal token), .move (.advance i .withdraw), .hear i (.unregistered answer)]
      { h with feeds := h.feeds.set i { f.detach signal token with epoch := f.epoch + 1, registration := none } }
      [.asked i (.unregister registration .inPlace), .noted entry] .done

/-- **A token is good for one subscription**, the one that it was drawn for. An unsubscription with any signal whatever
waits for the state lock of the signal's feed. It ends this subscription if it is to the signal and there, and
otherwise it changes nothing. -/
def EndsOwnOnly (h : Hub V H R) (q : Request H) : Prop :=
  ∀ signal,
    (h.feedOf? signal = none → h.step (.move (.unsubscribe signal q.token)) = none) ∧
    ∀ i, h.feedOf? signal = some i → ∃ f, h.feeds[i]? = some f ∧
      (f.holder ≠ none → h.step (.move (.unsubscribe signal q.token)) = none) ∧
      (f.holder = none → q.key.id = signal ∧ h.Has q → h.EndsOne i f signal q.token) ∧
      (f.holder = none → ¬ (q.key.id = signal ∧ h.Has q) → h.Ignores signal q.token)

section Unsubscribe

variable {settings : Settings} {plans : List (FeedPlan V)} {h k : Hub V H R} {i : Nat} {f : Feed V H R} {signal : SignalId}
  {token : Token} {handler : H} {labels : List (HubLabel V H R)} {es : List (HubEffect V H)} {a : Answer}

/-- An operation that ends a registration asks its provider for nothing else, and leaves the feed inactive. -/
theorem Finishes.unregisters (fin : Finishes i h labels k es a) (reachable : Reachable settings plans h)
    (own : ∀ l ∈ labels, l.IsOwn) (there : h.feeds[i]? = some f) (kept : f.handles ≠ 0) {registration : Registration}
    {asked : List FeedCall} (ending : f.IsEnding registration asked) :
    a = .done ∧ asked ++ callsTo i es = [.unregister registration .inPlace] ∧ ∃ g, k.feeds[i]? = some g ∧ g.IsBare := by
  obtain ⟨steps, g, fes, final, finFeed, mirrors⟩ := fin.mirrors reachable.arises own there
  obtain ⟨done, all, inactive⟩ := Feed.unregisters_of_finishes (reachable.orderly there) kept ending finFeed
  have same : callsTo i es = calls fes := by
    rw [← flatMap_effects_trail fin.run, ← flatMap_effects_trail finFeed.run]
    exact mirrors.calls_eq
  have balanced := (reachable.run own fin.run).sound.balanced g (List.mem_of_getElem? final)
  exact ⟨done, same ▸ all, g, final, balanced.bare finFeed.free inactive⟩

/-- If nothing else happens meanwhile, the end of a registration changes nothing else. -/
theorem exists_unregisters (there : h.feeds[i]? = some f) (held : f.holder = some .withdrawing)
    {registration : Registration} (active : f.registration = some registration) (answer : Except ProviderFailure Unit) :
    ∃ entry, Finishes i h [.move (.advance i .withdraw), .hear i (.unregistered answer)]
      { h with feeds := h.feeds.set i { f with epoch := f.epoch + 1, registration := none, holder := none } }
      [.asked i (.unregister registration .inPlace), .noted entry] .done := by
  let waiting : Feed V H R :=
    { f with epoch := f.epoch + 1, registration := none, holder := some (.unregistering registration .inPlace) }
  let ended : Feed V H R := { f with epoch := f.epoch + 1, registration := none, holder := none }
  have asks : f.step (.advance .withdraw) =
      some { state := waiting, effects := [.asked (.unregister registration .inPlace)] } := by
    simp only [Feed.step, Feed.advance, held, active]
    rfl
  obtain ⟨entry, hears⟩ : ∃ entry, waiting.step (.hear (.unregistered answer)) =
      some { state := ended, effects := [.noted entry], answer := some .done } := by
    cases answer <;> exact ⟨_, rfl⟩
  obtain ⟨asking, -, -, there'⟩ := step_inHub .advance there asks
  obtain ⟨hearing, serves, -, there''⟩ := step_inHub .hear there' hears
  have fin := Finishes.more asking there' (Option.some_ne_none _) (.last hearing serves there'' rfl rfl)
  have same : (h.feeds.set i waiting).set i ended = h.feeds.set i ended := List.set_set ..
  have final := congrArg (fun feeds => ({ h with feeds } : Hub V H R)) same
  exact ⟨entry, final ▸ fin⟩

omit [SignalValue V] in
theorem getElem?_without (there : h.feeds[i]? = some f) (signal : SignalId) (token : Token) :
    (h.without i f signal token).feeds[i]? = some
      { f.detach signal token with holder := if f.totalSubscribers = 1 then some .withdrawing else none } := by
  rw [without, List.getElem?_set_self', there]
  rfl

omit [SignalValue V] in
theorem outlet?_without (there : h.feeds[i]? = some f) (signal s : SignalId) (token : Token) :
    ((h.without i f signal token).feeds[i]?.bind (·.outlet? s)) =
      if s = signal then (f.outlet? signal).map fun o => { o with subscribers := o.subscribers.erase token }
      else f.outlet? s := by
  rw [getElem?_without there]
  exact Feed.outlet?_modifyOutlet f signal (c := fun o => { o with subscribers := o.subscribers.erase token })
    (fun _ => rfl) s

/-- Whoever is subscribed under another token stays so. -/
theorem Reachable.subscribersOf_without (reachable : Reachable settings plans h) (there : h.feeds[i]? = some f)
    (mem : (token, handler) ∈ h.subscribersOf i signal) (j : Nat) (s : SignalId) :
    (h.without i f signal token).subscribersOf j s = (h.subscribersOf j s).filter (·.1 ≠ token) := by
  have elsewhere : ¬ (i = j ∧ signal = s) → (h.subscribersOf j s).filter (·.1 ≠ token) = h.subscribersOf j s := by
    intro other
    refine List.filter_eq_self.2 fun e mem' => ?_
    have apart : e.1 ≠ token := fun same => other (reachable.single mem mem' same.symm)
    simpa using apart
  by_cases here : i = j
  · subst here
    rw [subscribersOf, outlet?_without there]
    by_cases same : s = signal
    · subst same
      obtain ⟨f', there', o, known, -⟩ := mem_subscribersOf.1 mem
      obtain rfl := Option.some.inj (there.symm.trans there')
      simp only [if_true, known, Option.map_some, subscribersOf, there, Option.bind_some]
      rfl
    · rw [if_neg same, elsewhere fun both => same both.2.symm, subscribersOf, there, Option.bind_some]
  · rw [elsewhere fun both => here both.1, subscribersOf, without, List.getElem?_set_ne here, subscribersOf]

/-- **An unsubscription ends the subscription that it names.** -/
theorem Reachable.endsOne (reachable : Reachable settings plans h) (held : h.IsHeld) (routes : h.feedOf? signal = some i)
    (there : h.feeds[i]? = some f) (free : f.holder = none) (mem : (token, handler) ∈ h.subscribersOf i signal) :
    h.EndsOne i f signal token := by
  obtain ⟨n, life⟩ := held
  have inHub := List.mem_of_getElem? there
  have kept : f.handles ≠ 0 := by simp [(owns_of_held life).1 reachable.sound.owns f inHub]
  obtain ⟨f', there', o, known, listed⟩ := mem_subscribersOf.1 mem
  obtain rfl := Option.some.inj (there.symm.trans there')
  have present : o.subscribers.contains token := Subscribers.contains_iff.2 (List.mem_map_of_mem (f := (·.1)) listed)
  have total := Feed.totalSubscribers_detach known present
  obtain ⟨count, active, less⟩ := (reachable.sound.balanced f inHub).settled free
  have serves : h.Serves (.move (.unsubscribe signal token)) i (.enter (.unsubscribe signal token)) h :=
    .unsubscribe ⟨n, life⟩ routes
  have unchanged : (f.detach signal token).outlets.map (fun o => (o.key, o.gate)) = f.outlets.map fun o => (o.key, o.gate) :=
    Feed.map_modifyFirst (c := fun o => { o with subscribers := o.subscribers.erase token }) (fun _ => rfl) f.outlets
  have step : h.step (.move (.unsubscribe signal token)) =
      some { state := h.without i f signal token, answer := if f.totalSubscribers = 1 then none else some .done } := by
    by_cases last : f.totalSubscribers = 1
    · have entered := Feed.step_unsubscribe_last free kept known present (by omega) (active.2 (by omega))
      rw [serves.step there entered, without, if_pos last, if_pos last]
      rfl
    · have entered := Feed.step_unsubscribe_more free kept known present (by omega)
      have same : ({ f.detach signal token with holder := none } : Feed V H R) = f.detach signal token :=
        Feed.free_eq (f := f.detach signal token) free
      rw [serves.step there entered, without, if_neg last, if_neg last, same]
      rfl
  refine ⟨step, reachable.subscribersOf_without there mem, fun s => cached?_congr (map_set_of_same there unchanged) s,
    ⟨less signal token o known present, total⟩, fun last => ?_, fun last registration answer registered => ?_⟩
  · obtain ⟨registration, registered⟩ := Option.isSome_iff_exists.1 (active.2 (by omega))
    refine ⟨registration, registered, fun labels k es a own fin => ?_⟩
    have after := getElem?_without there signal token
    rw [if_pos last] at after
    cases fin with
    | last made _ there' free' =>
      cases step.symm.trans made
      cases after.symm.trans there'
      cases free'
    | more made there' busy onward =>
      cases step.symm.trans made
      exact onward.unregisters (reachable.step (l := .move (.unsubscribe signal token)) trivial made) own after kept
        (.withdrawing rfl registered)
  · have after := getElem?_without there signal token
    rw [if_pos last] at after
    obtain ⟨entry, fin⟩ := exists_unregisters after rfl registered answer
    rw [if_pos last] at step
    have same : (h.without i f signal token).feeds.set i
        { f.detach signal token with epoch := f.epoch + 1, registration := none, holder := none } =
          h.feeds.set i { f.detach signal token with epoch := f.epoch + 1, registration := none } := by
      rw [without, List.set_set]
      exact congrArg (h.feeds.set i)
        (Feed.free_eq (f := { f.detach signal token with epoch := f.epoch + 1, registration := none }) free)
    refine ⟨entry, .more step after (by simp) ?_⟩
    have final := congrArg (fun feeds => ({ h with feeds } : Hub V H R)) same
    exact final ▸ fin

/-- **An unsubscription that names no subscription changes nothing.** -/
theorem Reachable.ignores (reachable : Reachable settings plans h) (held : h.IsHeld) (routes : h.feedOf? signal = some i)
    (there : h.feeds[i]? = some f) (free : f.holder = none)
    (absent : ∀ handler, (token, handler) ∉ h.subscribersOf i signal) : h.Ignores signal token := by
  obtain ⟨n, life⟩ := held
  have kept : f.handles ≠ 0 := by simp [(owns_of_held life).1 reachable.sound.owns f (List.mem_of_getElem? there)]
  obtain ⟨⟨j, kind, o⟩, found, rfl⟩ := Option.map_eq_some_iff.1 routes
  obtain ⟨f', there', known⟩ := outlet?_of_find? found
  obtain rfl := Option.some.inj (there.symm.trans there')
  have unlisted : o.subscribers.contains token = false := by
    by_contra present
    obtain ⟨⟨t, handler⟩, mem, rfl⟩ := List.mem_map.1 (Subscribers.contains_iff.1 (by simpa using present))
    exact absent handler (mem_subscribersOf.2 ⟨f, there, o, known, mem⟩)
  have entered := Feed.step_unsubscribe_unknown free kept known unlisted
  have same : h.feeds.set j f = h.feeds := by
    obtain ⟨lt, rfl⟩ := List.getElem?_eq_some_iff.1 there
    exact List.set_getElem_self lt
  have final := congrArg (fun feeds => ({ h with feeds } : Hub V H R)) same
  rw [Ignores, (Serves.unsubscribe ⟨n, life⟩ routes).step there entered]
  exact congrArg (fun state => some ({ state, answer := some .unknownToken } : Result V H R)) final

/-- An unsubscription enters the feed of its signal, when the state lock is free. -/
theorem feed_of_unsubscribe {r : Result V H R} (made : h.step (.move (.unsubscribe signal token)) = some r) :
    ∃ i f, h.feedOf? signal = some i ∧ h.feeds[i]? = some f ∧ f.holder = none := by
  cases transition_of_step made with
  | feed serves there step =>
    cases serves with
    | unsubscribe held routes => exact ⟨_, _, routes, there, (Feed.transition_of_step step).free_of_enter⟩

/-- **A token ends its own subscription and no other**, at every hub that has drawn it and is still held. -/
theorem TokenBook.endsOwnOnly {past : List (Moment (Hub V H R) (HubLabel V H R) (HubEffect V H))} (book : TokenBook past h)
    (reachable : Reachable settings plans h) (held : h.IsHeld) {q : Request H} (drew : q ∈ drawn past) : h.EndsOwnOnly q := by
  intro signal
  constructor
  · intro unrouted
    refine Option.eq_none_iff_forall_ne_some.2 fun r made => ?_
    obtain ⟨i, f, routes, -⟩ := feed_of_unsubscribe made
    cases unrouted.symm.trans routes
  · intro i routes
    obtain ⟨⟨i, kind, o⟩, found, rfl⟩ := Option.map_eq_some_iff.1 routes
    obtain ⟨f, there, -⟩ := outlet?_of_find? found
    refine ⟨f, there, fun busy => ?_, fun free own => ?_, fun free other => ?_⟩
    · refine Option.eq_none_iff_forall_ne_some.2 fun r made => ?_
      obtain ⟨j, g, routes', there', free⟩ := feed_of_unsubscribe made
      obtain rfl := Option.some.inj (routes.symm.trans routes')
      obtain rfl := Option.some.inj (there.symm.trans there')
      exact busy free
    · obtain ⟨rfl, j, mem⟩ := own
      have here : j = i := by
        by_contra elsewhere
        rw [reachable.subscribersOf_elsewhere routes elsewhere] at mem
        cases mem
      exact reachable.endsOne held routes there free (here ▸ mem)
    · refine reachable.ignores held routes there free fun handler mem => other ?_
      obtain ⟨rfl, rfl⟩ := book.has_of_mem drew mem
      exact ⟨rfl, i, mem⟩

end Unsubscribe

end Hub

end LazyHub
