import LazyHub.Proofs.Feed.Activations
import LazyHub.Proofs.Hub.Calls
import LazyHub.Proofs.Hub.Delivery
import LazyHub.Proofs.Hub.Operations

/-!
# What a read returns

A read asks nobody while somebody listens to one of the feed's signals, since pushes keep the caches current
then; otherwise it asks the provider first. `Hub.Reads` is a read from the step that enters the
key's feed to the step that lets go of it, with whatever happens in between, and `lazy_read` says what comes
of it.

What a read finds in the cache of an active feed is traced back to the state in which the feed's current
activation began (`Hub.ActiveSince`): the cache has been through what a push was still writing then, what the
activation pulled, and what pushes wrote since.
-/

namespace LazyHub

variable {V H R : Type}

namespace Hub

/-! ### Reading the history of a feed off its hub's -/

theorem Mirrors.atFeed_eq {α : Type} {i : Nat} {past : List (Moment (Hub V H R) (HubLabel V H R) (HubEffect V H))}
    {own : List (Moment (Feed V H R) (FeedLabel V H R) (FeedEffect V))} (m : Mirrors i past own)
    {what : Feed V H R → FeedLabel V H R → List α} (none : ∀ f fl, (∀ move, fl ≠ .advance move) → what f fl = []) :
    (past.flatMap fun m => m.before.atFeed i what m.label) = gather what own := by
  change _ = own.flatMap fun m => what m.before m.label
  refine m.flatMap_eq ?_ ?_ (fun _ => rfl) fun f _ _ => none f _ nofun
  · intro h g l f fl fr serves there
    rw [atFeed_of_serves serves there fun fl => none f fl, if_pos rfl]
  · intro m passes
    unfold atFeed
    split
    · rename_i j move label
      exact if_neg fun eq => passes.unserved _ _ (by rw [label, eq]; exact .advance)
    · rfl

theorem Mirrors.pushedTo_eq {i : Nat} {past : List (Moment (Hub V H R) (HubLabel V H R) (HubEffect V H))}
    {own : List (Moment (Feed V H R) (FeedLabel V H R) (FeedEffect V))} (m : Mirrors i past own) :
    pushedTo i past = gather Feed.pushed own := m.atFeed_eq fun _ _ other => Feed.pushed_eq_nil (other _)

theorem Mirrors.acceptedBy_eq {i : Nat} {past : List (Moment (Hub V H R) (HubLabel V H R) (HubEffect V H))}
    {own : List (Moment (Feed V H R) (FeedLabel V H R) (FeedEffect V))} (m : Mirrors i past own) :
    acceptedBy i past = gather Feed.accepted own := m.atFeed_eq fun _ _ other => Feed.accepted_eq_nil fun _ => other _

variable [SignalValue V]

/-- The values that pulls take from their payloads at a feed in the course of a run. -/
def takenBy (i : Nat) (trail : List (Moment (Hub V H R) (HubLabel V H R) (HubEffect V H))) : List (Emission V) :=
  trail.flatMap fun m => m.before.atFeed i Feed.taken m.label

theorem Mirrors.takenBy_eq {i : Nat} {past : List (Moment (Hub V H R) (HubLabel V H R) (HubEffect V H))}
    {own : List (Moment (Feed V H R) (FeedLabel V H R) (FeedEffect V))} (m : Mirrors i past own) :
    takenBy i past = gather Feed.taken own := by
  refine m.atFeed_eq fun f fl other => ?_
  unfold Feed.taken
  split
  · exact absurd rfl (other _)
  · rfl

/-! ### The current activation -/

section Since

variable {plans : List (FeedPlan V)} {tenure : Tenure} {start h : Hub V H R} {labels : List (HubLabel V H R)}
  {es : List (HubEffect V H)} {i : Nat} {f : Feed V H R}

/-- A feed is of the kind that was planned. -/
theorem Opens.kind_eq (opens : Opens plans tenure start) (allowed : ∀ l ∈ labels, tenure.Allows l)
    (ran : run Hub.step labels start = some (h, es)) (there : h.feeds[i]? = some f) {plan : FeedPlan V}
    (planned : plans[i]? = some plan) : f.kind = plan.kind := by
  obtain ⟨plan', own, fes, planned', ranOwn, -⟩ := opens.mirrors allowed ran there
  obtain rfl := Option.some.inj (planned.symm.trans planned')
  exact run_keeps (P := fun g : Feed V H R => g.kind = plan.kind)
    (fun _ _ _ _ same made => (Feed.transition_of_step made).kind_eq.trans same) ranOwn rfl

/-- **Since when a feed is active**: a run that leaves a feed active, or about to be, comes to a state `u`
in which the feed is inactive and its current activation starts. -/
theorem Opens.exists_activation (opens : Opens plans tenure start) (allowed : ∀ l ∈ labels, tenure.Allows l)
    (ran : run Hub.step labels start = some (h, es)) (there : h.feeds[i]? = some f) (live : f.IsLive) :
    ∃ first since u e₁ e₂ g own fes, labels = first ++ since ∧ run Hub.step first start = some (u, e₁) ∧
      run Hub.step since u = some (h, e₂) ∧ u.feeds[i]? = some g ∧ g.holder = none ∧ g.registration = none ∧
      run Feed.step own g = some (f, fes) ∧ Mirrors i (trail Hub.step since u) (trail Feed.step own g) ∧
      Feed.Activation g (trail Feed.step own g) f := by
  induction labels using List.reverseRecOn generalizing h es f with
  | nil =>
    cases ran
    obtain ⟨plan, -, rfl⟩ := opens.ofPlan there
    rcases live with ⟨s, held, -⟩ | stands
    · cases held
    · cases stands
  | append_singleton ls l ih =>
    obtain ⟨u, before, after, ranBefore, last, rfl⟩ := run_append.1 ran
    obtain ⟨r, later, made, done, rfl⟩ := run_cons.1 last
    clear ran
    cases done
    have allowed' : ∀ l ∈ ls, tenure.Allows l := fun l hl => allowed l (List.mem_append_left _ hl)
    have arises := (Arises.opened opens).run allowed' ranBefore
    have many := (transition_of_step made).length_feeds
    have lt : i < u.feeds.length := many ▸ (List.getElem?_eq_some_iff.1 there).1
    have there₀ : u.feeds[i]? = some u.feeds[i] := List.getElem?_eq_getElem lt
    generalize u.feeds[i] = f₀ at there₀
    obtain ⟨orderly, tidy, past, books⟩ := arises.kept there₀
    rcases (transition_of_step made).mirrors arises there₀ with ⟨fl, fr, there', step, extend, -⟩ | ⟨there', passes⟩
    · obtain rfl := Option.some.inj (there.symm.trans there')
      have t := Feed.transition_of_step step
      rcases t.isLive live with live₀ | starts
      · obtain ⟨first, since, v, e₁, e₂, g, own, fes, rfl, ranFirst, ranSince, at', free, inactive, ranOwn, mirrors,
          activation⟩ := ih allowed' ranBefore there₀ live₀
        refine ⟨first, since ++ [l], v, e₁, _, g, own ++ [fl], _, List.append_assoc .., ranFirst,
          run_append.2 ⟨_, _, _, ranSince, run_singleton made, rfl⟩, at', free, inactive,
          run_append.2 ⟨_, _, _, ranOwn, run_singleton step, rfl⟩, ?_, ?_⟩
        · rw [trail_append ranSince, trail_append ranOwn, trail_cons made, trail_cons step]
          exact mirrors.append (extend .nil)
        · rw [trail_append ranOwn, trail_cons step]
          exact activation.step books orderly tidy live₀ t live
      · refine ⟨ls, [l], u, _, _, f₀, [fl], _, rfl, ranBefore, run_singleton made, there₀, starts.1, starts.2.1,
          run_singleton step, ?_, ?_⟩
        · rw [trail_cons made, trail_cons step]
          exact extend .nil
        · rw [trail_cons step]
          exact starts.activation t
    · obtain rfl := Option.some.inj (there.symm.trans there')
      obtain ⟨first, since, v, e₁, e₂, g, own, fes, rfl, ranFirst, ranSince, at', free, inactive, ranOwn, mirrors,
        activation⟩ := ih allowed' ranBefore there₀ live
      refine ⟨first, since ++ [l], v, e₁, _, g, own, fes, List.append_assoc .., ranFirst,
        run_append.2 ⟨_, _, _, ranSince, run_singleton made, rfl⟩, at', free, inactive, ranOwn, ?_, activation⟩
      rw [trail_append ranSince, trail_cons made]
      simpa using mirrors.append (.passed passes .nil)

end Since

/-! ### Caches -/

/-- The caches of a feed are in `k` what they were in `h`, after some values were offered to their gates. -/
def Settles (i : Nat) (h k : Hub V H R) (values : List (Emission V)) : Prop :=
  ∀ f signal, h.feeds[i]? = some f → (f.outlet? signal).isSome →
    k.cached? signal = (h.cached? signal).map (settled · (valuesFor signal values))

section Reads

variable {settings : Settings} {plans : List (FeedPlan V)} {h k : Hub V H R} {labels : List (HubLabel V H R)}
  {es : List (HubEffect V H)} {i : Nat} {f g : Feed V H R}

/-- **The caches of a hub's feed have been through what was written to the feed.** -/
theorem Reachable.settles (before : Reachable settings plans h) (after : Reachable settings plans k)
    (there : h.feeds[i]? = some f) (there' : k.feeds[i]? = some g) {own : List (FeedLabel V H R)}
    {fes : List (FeedEffect V)} (ran : LazyHub.run Feed.step own f = some (g, fes)) :
    Settles i h k (gather Feed.wrote (trail Feed.step own f)) := by
  intro f' signal hf known
  obtain rfl := Option.some.inj (there.symm.trans hf)
  have cached := Feed.cached?_of_run ran signal
  obtain ⟨o, ho⟩ := Option.isSome_iff_exists.1 known
  have known' : (g.outlet? signal).isSome := by
    have some : (g.cached? signal).isSome := by
      rw [cached, Feed.cached?, ho]
      rfl
    simpa [Feed.cached?] using some
  rw [before.cached?_eq there known, after.cached?_eq there' known', cached, Feed.gather_wrote]

/-! ### Where nobody listens -/

/-- **A read of a key.** It is refused where no feed serves the key. Otherwise it goes from the step that
enters the key's feed to the one that lets go of it, and unless it failed it returns the signal's last known
value then. -/
inductive Reads (h : Hub V H R) (key : Key) :
    List (HubLabel V H R) → Hub V H R → List (HubEffect V H) → Except HubFailure V → Prop where
  /-- No feed serves the key. -/
  | refused {failure : HubFailure} (unrouted : h.route key = .error failure) : Reads h key [] h [] (.error failure)
  /-- A feed serves the key. The value is looked up as soon as the state lock is let go of, and nothing comes in
  between. -/
  | routed {i : Nat} {rest : List (HubLabel V H R)} {k : Hub V H R} {es : List (HubEffect V H)} {a : Answer} {v : V}
      (routed : h.route key = .ok i) (fin : Finishes i h (.move (.refresh i) :: rest) k es a)
      (known : k.cached? key.id = some v) : Reads h key (.move (.refresh i) :: rest) k es (a.toExcept.map fun _ => v)

/-- **What comes of a read that asks the provider**, given the steps made in its course: what passed between
the feed and its provider is one query and what became of it, and the caches have been through what was
pushed meanwhile and then through the values of the payload, if there are any. -/
inductive Outcome (i : Nat) (kind : Kind) (signal : SignalId) (h k : Hub V H R)
    (past : List (Moment (Hub V H R) (HubLabel V H R) (HubEffect V H))) : Except HubFailure V → Prop where
  /-- The query failed. -/
  | queryFailed {failure : ProviderFailure}
      (said : past.flatMap (eventsAt i) = [.asked .query, .heard (.queried (.error failure))])
      (caches : Settles i h k (pushedTo i past)) : Outcome i kind signal h k past (.error (.queryFailed kind failure))
  /-- The payload was not decoded. -/
  | decodeFailed {payload : R} {failure : DecodeFailure}
      (said : past.flatMap (eventsAt i) =
        [.asked .query, .heard (.queried (.ok payload)), .decoded (.error failure)])
      (caches : Settles i h k (pushedTo i past)) : Outcome i kind signal h k past (.error (.decodeFailed kind failure))
  /-- The values were written, and the signal's is returned. -/
  | pulled {payload : R} {v : V} (said : past.flatMap (eventsAt i) = LazyHub.pulled payload)
      (caches : Settles i h k (pushedTo i past ++ takenBy i past)) (value : k.cached? signal = some v) :
      Outcome i kind signal h k past (.ok v)

/-- A step of an operation on a feed changes nothing in the hub but the feed's caches and locks: it posts
nothing, subscribes nobody, and asks no provider but the feed's. -/
def IsDiscreet (i : Nat) (m : Moment (Hub V H R) (HubLabel V H R) (HubEffect V H)) : Prop :=
  ∀ f fl g, m.before.feeds[i]? = some f → m.before.Serves m.label i fl g → f.ByHolder fl →
    (∃ outlets holder writer,
      m.after.state = { m.before with feeds := m.before.feeds.set i { f with outlets, holder, writer } } ∧
      outlets.map (·.key) = f.outlets.map (·.key) ∧ outlets.map (·.subscribers) = f.outlets.map (·.subscribers)) ∧
    ∀ j call, .asked j call ∈ m.after.effects → j = i

omit [SignalValue V] in
theorem absorbAll_of_unowed (h : Hub V H R) (i : Nat) {es : List (FeedEffect V)}
    (unowed : ∀ signal value, .owed signal value ∉ es) : (h.absorbAll i es).1 = h := by
  induction es generalizing h with
  | nil => rfl
  | cons e rest ih =>
    have onward := ih (h.absorb i e).1 fun signal value mem => unowed signal value (List.mem_cons_of_mem _ mem)
    cases e with
    | owed signal value => exact absurd List.mem_cons_self (unowed signal value)
    | asked | released | noted => exact onward

/-- A read enters a feed, and begins an operation on the feed. -/
theorem Finishes.mirrors_refresh {rest : List (HubLabel V H R)} {a : Answer}
    (fin : Finishes i h (.move (.refresh i) :: rest) k es a) (reachable : Reachable settings plans h)
    (own : ∀ l ∈ HubLabel.move (.refresh i) :: rest, l.IsOwn) (there : h.feeds[i]? = some f) :
    ∃ own g fes, k.feeds[i]? = some g ∧ Feed.Finishes f (.enter .refresh :: own) g fes a ∧
      Mirrors i (trail Hub.step (.move (.refresh i) :: rest) h) (trail Feed.step (.enter .refresh :: own) f) := by
  obtain ⟨r, later, made, -, -⟩ := run_cons.1 fin.run
  have held : h.IsHeld := by
    cases transition_of_step made with
    | feed serves =>
      cases serves with
      | refresh held => exact held
  exact fin.mirrors_of_serves reachable.arises own there (.refresh held)

/-- What comes of the feed's operation is what comes of the read. -/
theorem Outcome.of_refreshed {past : List (Moment (Hub V H R) (HubLabel V H R) (HubEffect V H))}
    {own : List (Moment (Feed V H R) (FeedLabel V H R) (FeedEffect V))} {kind : Kind} {a : Answer}
    (refreshed : Feed.Refreshed kind own a) (mirrors : Mirrors i past own)
    (settles : Settles i h k (gather Feed.wrote own)) {signal : SignalId} {v : V} (known : k.cached? signal = some v) :
    Outcome i kind signal h k past (a.toExcept.map fun _ => v) := by
  cases refreshed with
  | queryFailed said written =>
    rw [written, ← mirrors.pushedTo_eq] at settles
    exact .queryFailed (mirrors.events_eq.trans said) settles
  | decodeFailed said written =>
    rw [written, ← mirrors.pushedTo_eq] at settles
    exact .decodeFailed (mirrors.events_eq.trans said) settles
  | pulled said written =>
    rw [written, ← mirrors.pushedTo_eq, ← mirrors.takenBy_eq] at settles
    exact .pulled (mirrors.events_eq.trans said) settles known

omit [SignalValue V] in
/-- **The steps of a read that asks the provider change nothing** but the feed's caches and locks. -/
theorem Mirrors.isDiscreet {past : List (Moment (Hub V H R) (HubLabel V H R) (HubEffect V H))}
    {own : List (Moment (Feed V H R) (FeedLabel V H R) (FeedEffect V))} (mirrors : Mirrors i past own)
    (discreet : ∀ m ∈ own, Feed.IsDiscreet m) : ∀ m ∈ past, IsDiscreet i m := by
  intro m mem f fl g there serves byHolder
  obtain ⟨f', fr, there', after, mem'⟩ := mirrors.served_of_mem mem serves
  obtain rfl := Option.some.inj (there.symm.trans there')
  obtain ⟨⟨⟨outlets, holder, writer, same, keys, subscribers⟩, unowed⟩, entered⟩ := discreet _ mem' byHolder
  -- a read's feed is entered by nobody else
  have same' : g = m.before := by
    obtain ⟨h, l, r⟩ := m
    change h.Serves l i fl g at serves
    cases serves with
    | subscribe | close => cases entered _ rfl
    | _ => rfl
  rw [after, same']
  refine ⟨⟨outlets, holder, writer, ?_, keys, subscribers⟩, fun j call asked => (asked_absorbAll asked).1.symm⟩
  rw [← same]
  exact absorbAll_of_unowed _ _ unowed

/-- **Where nobody listens, a read asks the provider.** -/
theorem Finishes.outcome {rest : List (HubLabel V H R)} {a : Answer}
    (fin : Finishes i h (.move (.refresh i) :: rest) k es a) (reachable : Reachable settings plans h)
    (own : ∀ l ∈ HubLabel.move (.refresh i) :: rest, l.IsOwn) (there : h.feeds[i]? = some f) (orderly : f.Orderly)
    (tidy : f.Tidy) (inactive : f.registration = none) {signal : SignalId} {v : V} (known : k.cached? signal = some v) :
    (∃ g, k.feeds[i]? = some g ∧ g.holder = none ∧ g.registration = none) ∧
      Outcome i f.kind signal h k (trail Hub.step (.move (.refresh i) :: rest) h) (a.toExcept.map fun _ => v) ∧
      ∀ m ∈ trail Hub.step (.move (.refresh i) :: rest) h, IsDiscreet i m := by
  obtain ⟨ownFeed, g, fes, final, finFeed, mirrors⟩ := fin.mirrors_refresh reachable own there
  have after := reachable.run own fin.run
  obtain ⟨left, refreshed⟩ := Feed.refreshed_of_finishes orderly tidy inactive finFeed
  have settles := reachable.settles after there final finFeed.run
  exact ⟨⟨g, final, finFeed.free, left⟩, .of_refreshed refreshed mirrors settles known,
    mirrors.isDiscreet (Feed.isDiscreet_of_finishes orderly tidy inactive finFeed)⟩

/-! ### Where somebody listens -/

/-- **What the caches of an active feed have been through since its current activation began**, which was in
the state `u`. -/
structure ActiveSince (i : Nat) (u : Hub V H R) (past : List (Moment (Hub V H R) (HubLabel V H R) (HubEffect V H)))
    (h : Hub V H R) : Prop where
  /-- The feed was inactive, and no operation was under way. -/
  inactive : ∃ g, u.feeds[i]? = some g ∧ g.holder = none ∧ g.registration = none
  /-- It was activated once. -/
  said : ∃ payload epoch registration, past.flatMap (eventsAt i) =
    LazyHub.pulled payload ++ [.asked (.register epoch), .heard (.registered (.ok registration))]
  /-- The gates were offered what a push was still writing, then what was pulled, then what pushes wrote
  since. -/
  caches : ∃ later, pushedTo i past = u.yetToPush i ++ later ∧ acceptedBy i past = later ++ h.yetToPush i ∧
    Settles i u h (u.yetToPush i ++ takenBy i past ++ later)

theorem ActiveSince.of_activation {u : Hub V H R}
    {past : List (Moment (Hub V H R) (HubLabel V H R) (HubEffect V H))}
    {own : List (Moment (Feed V H R) (FeedLabel V H R) (FeedEffect V))} (mirrors : Mirrors i past own)
    (activation : Feed.Activation g own f) (there : u.feeds[i]? = some g) (there' : h.feeds[i]? = some f)
    (inactive : g.holder = none ∧ g.registration = none) (settles : Settles i u h (gather Feed.wrote own))
    (free : f.holder = none) {registration : Registration} (active : f.registration = some registration) :
    ActiveSince i u past h where
  inactive := ⟨g, there, inactive⟩
  said := by
    have begun := activation.begun
    rw [Feed.stage, free, active, ← mirrors.events_eq] at begun
    generalize past.flatMap (eventsAt i) = said at begun
    cases begun
    exact ⟨_, _, _, rfl⟩
  caches := by
    obtain ⟨later, wrote, accepted⟩ := activation.stands (Feed.standing_isSome.2 (.inl (by simp [active])))
    have pushes := activation.pushes
    rw [accepted, ← List.append_assoc] at pushes
    have before : u.yetToPush i = g.yetToPush := by rw [yetToPush, there]; rfl
    have now : h.yetToPush i = f.yetToPush := by rw [yetToPush, there']; rfl
    rw [mirrors.pushedTo_eq, mirrors.acceptedBy_eq, mirrors.takenBy_eq, before, now]
    exact ⟨later, (List.append_cancel_right pushes).symm, accepted, wrote ▸ settles⟩

omit [SignalValue V] in
theorem afterFeed_same (there : h.feeds[i]? = some f) (answer : Option Answer) :
    h.afterFeed i { state := f, answer } = { state := h, answer } := by
  obtain ⟨lt, rfl⟩ := List.getElem?_eq_some_iff.1 there
  simp [afterFeed, absorbAll]

/-- **A read of a key whose feed is active** changes nothing, and asks nobody. -/
theorem Finishes.of_active {rest : List (HubLabel V H R)} {a : Answer}
    (fin : Finishes i h (.move (.refresh i) :: rest) k es a) (there : h.feeds[i]? = some f)
    (active : f.registration.isSome) : rest = [] ∧ k = h ∧ es = [] ∧ a = .done := by
  have atOnce : ∀ {r}, h.step (.move (.refresh i)) = some r →
      f.holder = none ∧ r = { state := h, answer := some .done } := by
    intro r made
    cases transition_of_step made with
    | @feed _ _ _ _ f' fr serves there' made =>
      cases serves
      obtain rfl := Option.some.inj (there.symm.trans there')
      cases Feed.transition_of_step made with
      | content free => exact ⟨free, afterFeed_same there _⟩
      | refresh _ _ inactive =>
        rw [inactive] at active
        cases active
  cases fin with
  | last made serves there' free answered =>
    obtain ⟨-, rfl⟩ := atOnce made
    exact ⟨rfl, rfl, rfl, (Option.some.inj answered).symm⟩
  | more made there' busy =>
    obtain ⟨free, rfl⟩ := atOnce made
    exact absurd (Option.some.inj (there'.symm.trans there) ▸ free) busy

/-! ### Reads come to an end -/

/-- Whoever holds a hub can enter its feeds, as long as nobody else is there. -/
theorem Reachable.step_refresh (reachable : Reachable settings plans h) (held : h.IsHeld)
    (there : h.feeds[i]? = some f) (free : f.holder = none) :
    ∃ fr, f.step (.enter .refresh) = some fr ∧ h.step (.move (.refresh i)) = some (h.afterFeed i fr) := by
  obtain ⟨n, held⟩ := held
  have kept : f.handles = 1 := (owns_of_held held).1 reachable.sound.owns f (List.mem_of_getElem? there)
  obtain ⟨fr, made⟩ : ∃ fr, f.enter .refresh = some fr := by simp [Feed.enter, free, kept]
  have enters : h.step (.move (.refresh i)) = h.onFeed i (·.enter .refresh) := by simp only [Hub.step, act, held]
  exact ⟨fr, made, enters.trans (onFeed_of_step there made)⟩

/-- **A read that asks the provider is answered**, whatever the provider answers to it and whatever the
decoder makes of that. -/
theorem Reachable.exists_finishes_refresh (reachable : Reachable settings plans h) (held : h.IsHeld)
    (there : h.feeds[i]? = some f) (free : f.holder = none) (inactive : f.registration = none) (orderly : f.Orderly)
    (answer : Except ProviderFailure R) (outcome : Except DecodeFailure (Emissions V)) :
    ∃ rest k es a, (∀ l ∈ rest, l.IsOwn) ∧
      Finishes i h (.move (.refresh i) :: .hear i (.queried answer) :: rest) k es a ∧
      ∀ payload, answer = .ok payload → rest.head? = some (.move (.advance i (.decoded outcome))) := by
  obtain ⟨fr, made, madeHub⟩ := reachable.step_refresh held there free
  have orderly' := orderly.step (Feed.transition_of_step made)
  have querying : fr.state.holder = some (.querying .refresh) := by
    cases Feed.transition_of_step made with
    | content _ _ content => simp [Feed.IsContent, Feed.isActive, inactive] at content
    | refresh => rfl
  obtain ⟨own, g, fes, a, inner, fin, head⟩ := Feed.canFinish_of_querying
    (p := fun _ => True) orderly' querying ⟨.error default, trivial⟩ answer outcome
  have there' : (h.afterFeed i fr).state.feeds[i]? = some fr.state := by
    rw [afterFeed_feeds, List.getElem?_set_self', there]
    rfl
  obtain ⟨labels, k, es, finHub, all, owns⟩ := exists_finishes fin (Feed.inner_cons (p := fun _ => True) trivial inner) there'
  cases all with
  | @cons _ hl _ rest first all =>
    cases first
    refine ⟨rest, k, _, a, fun l hl => owns l (List.mem_cons_of_mem _ hl), .more madeHub there' (by simp [querying]) finHub, ?_⟩
    intro payload ok
    have head := head payload ok
    cases all with
    | nil => cases head
    | cons first =>
      cases head
      cases first
      rfl

/-! ### Both ways -/

/-- **Reads of a key that ask the provider first.** -/
structure AsksFirst (i : Nat) (f : Feed V H R) (key : Key) (h : Hub V H R) : Prop where
  /-- Whatever happens in its course, a read leaves the feed inactive and has its outcome, and its own steps
  change nothing but the feed's caches and locks. -/
  outcome : ∀ {read k said result}, (∀ l ∈ read, l.IsOwn) → Reads h key read k said result →
    (∃ g, k.feeds[i]? = some g ∧ g.holder = none ∧ g.registration = none) ∧
      Outcome i f.kind key.id h k (trail Hub.step read h) result ∧ ∀ m ∈ trail Hub.step read h, IsDiscreet i m
  /-- A read is answered, whatever the provider answers to the query and the decoder makes of that. -/
  answered : h.IsHeld → f.holder = none → ∀ answer outcome, ∃ rest k said result, (∀ l ∈ rest, l.IsOwn) ∧
    Reads h key (.move (.refresh i) :: .hear i (.queried answer) :: rest) k said result ∧
    ∀ payload, answer = .ok payload → rest.head? = some (.move (.advance i (.decoded outcome)))

/-- **Reads of a key that ask nobody**, after a run from the hub's start. -/
structure AsksNobody (start : Hub V H R) (labels : List (HubLabel V H R)) (i : Nat) (f : Feed V H R) (key : Key)
    (h : Hub V H R) : Prop where
  /-- A read changes nothing, and returns what is in the cache. -/
  unchanged : ∀ {read k said result}, Reads h key read k said result →
    read = [.move (.refresh i)] ∧ k = h ∧ said = [] ∧ ∃ v, h.cached? key.id = some v ∧ result = .ok v
  /-- A read is answered. -/
  answered : h.IsHeld → f.holder = none → ∃ v, Reads h key [.move (.refresh i)] h [] (.ok v)
  /-- What is in the cache came there since the feed's current activation began. -/
  current : f.holder = none → ∃ first since u before after, labels = first ++ since ∧
    run Hub.step first start = some (u, before) ∧ run Hub.step since u = some (h, after) ∧
    ActiveSince i u (trail Hub.step since u) h

theorem Reads.of_unrouted {key : Key} {failure : HubFailure} (unrouted : h.route key = .error failure)
    {read : List (HubLabel V H R)} {result : Except HubFailure V} :
    Reads h key read k es result ↔ read = [] ∧ k = h ∧ es = [] ∧ result = .error failure := by
  constructor
  · intro reads
    cases reads with
    | refused unrouted' =>
      cases unrouted.symm.trans unrouted'
      exact ⟨rfl, rfl, rfl, rfl⟩
    | routed routed => cases unrouted.symm.trans routed
  · rintro ⟨rfl, rfl, rfl, rfl⟩
    exact .refused unrouted

/-- A read that is under way came to a feed that was free. -/
theorem Finishes.enters {rest : List (HubLabel V H R)} {a : Answer}
    (fin : Finishes i h (.move (.refresh i) :: rest) k es a) (there : h.feeds[i]? = some f) : f.holder = none := by
  obtain ⟨r, later, made, -, -⟩ := run_cons.1 fin.run
  cases transition_of_step made with
  | feed serves there' made =>
    cases serves
    obtain rfl := Option.some.inj (there.symm.trans there')
    cases Feed.transition_of_step made with
    | content free | refresh free => exact free

/-- The hub knows a value of every signal that is declared. -/
theorem Reachable.exists_cached? (reachable : Reachable settings plans h) {plan : FeedPlan V} {d : Declaration V}
    (planned : plans[i]? = some plan) (declares : d ∈ plan.signals) {key : Key} (named : d.key.id = key.id) :
    ∃ v, h.cached? key.id = some v := by
  obtain ⟨f, there, known, -⟩ := reachable.route_of_declared planned declares named
  obtain ⟨o, ho⟩ := Option.isSome_iff_exists.1 known
  exact ⟨o.gate.value, by rw [reachable.cached?_eq there known, Feed.cached?, ho]; rfl⟩

/-- **Reads of a key find a value** that is there, and nothing happens but that. -/
structure Finds (i : Nat) (f : Feed V H R) (key : Key) (h : Hub V H R) (v : V) : Prop where
  /-- A read asks nobody and changes nothing. -/
  unchanged : ∀ {read k said result}, Reads h key read k said result →
    read = [.move (.refresh i)] ∧ k = h ∧ said = [] ∧ result = .ok v
  /-- A read is answered. -/
  answered : h.IsHeld → f.holder = none → Reads h key [.move (.refresh i)] h [] (.ok v)

/-- Where a feed is active, reads find what is in the cache. -/
theorem Reachable.finds (reachable : Reachable settings plans h) (there : h.feeds[i]? = some f) {key : Key}
    (routed : h.route key = .ok i) (active : f.holder = none → f.registration.isSome) {v : V}
    (known : h.cached? key.id = some v) : Finds i f key h v where
  unchanged := by
    intro read k said result reads
    cases reads with
    | refused unrouted => cases routed.symm.trans unrouted
    | routed routed' fin known' =>
      cases routed.symm.trans routed'
      obtain ⟨rfl, rfl, rfl, rfl⟩ := fin.of_active there (active (fin.enters there))
      obtain rfl := Option.some.inj (known.symm.trans known')
      exact ⟨rfl, rfl, rfl, rfl⟩
  answered := by
    intro held free
    obtain ⟨fr, made, madeHub⟩ := reachable.step_refresh held there free
    cases Feed.transition_of_step made with
    | content =>
      rw [afterFeed_same there] at madeHub
      exact .routed routed (.last madeHub (.refresh held) there free rfl) known
    | refresh _ _ inactive =>
      have := active free
      rw [inactive] at this
      cases this

section Declared

variable (reachable : Reachable settings plans h) {plan : FeedPlan V} {d : Declaration V}
  (planned : plans[i]? = some plan) (declares : d ∈ plan.signals) {key : Key} (named : d.key.id = key.id)
  (there : h.feeds[i]? = some f) (routed : h.route key = .ok i)
include reachable planned declares named there routed

theorem Reachable.asksFirst (orderly : f.Orderly) (tidy : f.Tidy) (unheard : f.totalSubscribers = 0) :
    AsksFirst i f key h where
  outcome := by
    intro read k said result own reads
    cases reads with
    | refused unrouted => cases routed.symm.trans unrouted
    | routed routed' fin known =>
      cases routed.symm.trans routed'
      have active := ((reachable.sound.balanced f (List.mem_of_getElem? there)).settled (fin.enters there)).2.1
      exact fin.outcome reachable own there orderly tidy (by simpa [unheard] using active) known
  answered := by
    intro held free answer outcome
    have active := ((reachable.sound.balanced f (List.mem_of_getElem? there)).settled free).2.1
    obtain ⟨rest, k, said, a, own, fin, head⟩ :=
      reachable.exists_finishes_refresh held there free (by simpa [unheard] using active) orderly answer outcome
    have after := reachable.run (by simpa [HubLabel.IsOwn] using own) fin.run
    obtain ⟨v, known⟩ := after.exists_cached? planned declares named
    exact ⟨rest, k, said, _, own, .routed routed fin known, head⟩

theorem Reachable.asksNobody {start : Hub V H R} (assembled : assemble settings plans = .ok start)
    (own : ∀ l ∈ labels, l.IsOwn)
    (ran : LazyHub.run Hub.step labels start = some (h, es)) (heard : 0 < f.totalSubscribers) :
    AsksNobody start labels i f key h := by
  have active : f.holder = none → f.registration.isSome := fun free =>
    ((reachable.sound.balanced f (List.mem_of_getElem? there)).settled free).2.1.2 heard
  obtain ⟨v, known⟩ := reachable.exists_cached? planned declares named
  obtain ⟨unchanged, answered⟩ := reachable.finds there routed active known
  refine ⟨fun reads => ?_, fun held free => ⟨v, answered held free⟩, ?_⟩
  · obtain ⟨read, same, said, result⟩ := unchanged reads
    exact ⟨read, same, said, v, known, result⟩
  · intro free
    obtain ⟨registration, held⟩ := Option.isSome_iff_exists.1 (active free)
    have live : f.IsLive := .inr (Feed.standing_isSome.2 (.inl (active free)))
    obtain ⟨first, since, u, before, after, g, ownFeed, fes, rfl, ranFirst, ranSince, at', rests, inactive, ranFeed,
      mirrors, activation⟩ := (Opens.assembled assembled).exists_activation own ran there live
    have reached := (Reachable.assembled assembled).run (fun l hl => own l (List.mem_append_left _ hl)) ranFirst
    exact ⟨first, since, u, before, after, rfl, ranFirst, ranSince,
      .of_activation mirrors activation at' there ⟨rests, inactive⟩
        (reached.settles reachable at' there ranFeed) free held⟩

end Declared

/-- **A read asks the provider exactly if nobody listens.** After whatever a hub's clients, workers, decoders
and providers have done:

* a key that is not declared, or not with its type, is refused, and nothing else happens;
* if nobody listens to any signal of the key's feed, a read asks the provider first;
* if somebody does, a read asks nobody, and returns what came into the cache since the feed was activated;
* a read that is under way can be brought to its end, however far it has come. -/
theorem lazy_read {start : Hub V H R} (assembled : assemble settings plans = .ok start) (own : ∀ l ∈ labels, l.IsOwn)
    (ran : run Hub.step labels start = some (h, es)) (key : Key) :
    (key.id ∉ declared plans → ∀ read k said result, Reads h key read k said result ↔
      read = [] ∧ k = h ∧ said = [] ∧ result = .error (.unknownSignal key.id)) ∧
    (∀ i plan d, plans[i]? = some plan → d ∈ plan.signals → d.key.id = key.id →
      (d.key.type ≠ key.type → ∀ read k said result, Reads h key read k said result ↔
        read = [] ∧ k = h ∧ said = [] ∧ result = .error (.typeMismatch key.id key.type)) ∧
      (d.key.type = key.type → ∃ f, h.feeds[i]? = some f ∧ f.kind = plan.kind ∧
        (f.totalSubscribers = 0 → AsksFirst i f key h) ∧
        (0 < f.totalSubscribers → AsksNobody start labels i f key h))) ∧
    ∀ i f, h.feeds[i]? = some f → f.IsRefreshing →
      ∃ rest k said a, (∀ l ∈ rest, l.IsOwn) ∧ Finishes i h rest k said a := by
  have reachable := (Reachable.assembled assembled).run own ran
  have opens : Opens plans .hub start := .assembled assembled
  refine ⟨fun undeclared _ _ _ _ => Reads.of_unrouted (reachable.route_of_undeclared undeclared), ?_, ?_⟩
  · intro i plan d planned declares named
    obtain ⟨f, there, -, routes⟩ := reachable.route_of_declared planned declares named
    refine ⟨fun mistyped _ _ _ _ => Reads.of_unrouted (by rw [routes, if_neg mistyped]), fun typed => ?_⟩
    rw [if_pos typed] at routes
    obtain ⟨orderly, tidy, -⟩ := reachable.arises.kept there
    exact ⟨f, there, opens.kind_eq own ran there planned, reachable.asksFirst planned declares named there routes orderly tidy,
      reachable.asksNobody planned declares named there routes assembled own ran⟩
  · intro i f there refreshing
    obtain ⟨orderly, tidy, -⟩ := reachable.arises.kept there
    obtain ⟨purpose, pulls⟩ := Option.isSome_iff_exists.1 refreshing.pulls
    obtain ⟨ownFeed, g, fes, a, inner, fin⟩ := Feed.canFinish_of_pull (p := fun _ => True) orderly tidy pulls
      (fun _ => ⟨.error default, trivial⟩) ⟨.error default, trivial⟩
    obtain ⟨rest, k, said, fin, -, own⟩ := exists_finishes fin inner there
    exact ⟨rest, k, said, a, own, fin⟩

/-- Before anybody subscribes, a read of the lamp is answered even if its query fails, and leaves the lamp's feed
inactive; once somebody has subscribed, a read knows that the lamp shines. -/
theorem lamp_is_read :
    (∃ rest k es result, Reads (R := Unit) (H := Unit) Lamp.hub Lamp.key
        (.move (.refresh 0) :: .hear 0 (.queried (.error ⟨"no bulb"⟩)) :: rest) k es result ∧
      (∃ g, k.feeds[0]? = some g ∧ g.holder = none ∧ g.registration = none)) ∧
    ∃ h es, run Hub.step Lamp.subscription Lamp.hub = some (h, es) ∧
      Reads h Lamp.key [.move (.refresh 0)] h [] (.ok (.truth true)) := by
  have assembled : assemble {} [Lamp.plan] = .ok Lamp.hub := rfl
  constructor
  · obtain ⟨-, declared, -⟩ := lazy_read assembled (List.forall_mem_nil _) (run_nil Lamp.hub) Lamp.key
    obtain ⟨f, there, -, asks, -⟩ := (declared 0 Lamp.plan _ rfl (List.mem_singleton_self _) rfl).2 rfl
    obtain rfl : Feed.ofPlan Lamp.plan = f := Option.some.inj there
    obtain ⟨rest, k, es, result, own, reads, -⟩ :=
      (asks rfl).answered ⟨1, rfl⟩ rfl (.error ⟨"no bulb"⟩) (.ok ⟨[]⟩)
    refine ⟨rest, k, es, result, reads, ((asks rfl).outcome ?_ reads).1⟩
    simpa [HubLabel.IsOwn] using own
  · obtain ⟨h, es, f, ran, feeds, life, free, one, value⟩ : ∃ h es f, run Hub.step Lamp.subscription Lamp.hub =
        some (h, es) ∧ h.feeds = [f] ∧ h.life = .held 1 ∧ f.holder = none ∧ f.totalSubscribers = 1 ∧
        h.cached? Lamp.key.id = some (.truth true) := ⟨_, _, _, rfl, rfl, rfl, rfl, rfl, rfl⟩
    obtain ⟨-, declared, -⟩ := lazy_read assembled (by simp [Lamp.subscription, HubLabel.IsOwn]) ran Lamp.key
    obtain ⟨f', there, -, -, knows⟩ := (declared 0 Lamp.plan _ rfl (List.mem_singleton_self _) rfl).2 rfl
    obtain rfl : f = f' := by simpa [feeds] using there
    have knows := knows (by omega)
    obtain ⟨v, reads⟩ := knows.answered ⟨1, life⟩ free
    obtain ⟨-, -, -, w, cached, eq⟩ := knows.unchanged reads
    obtain rfl : .truth true = w := Option.some.inj (value.symm.trans cached)
    exact ⟨h, es, ran, eq ▸ reads⟩

end Reads

end Hub

end LazyHub
