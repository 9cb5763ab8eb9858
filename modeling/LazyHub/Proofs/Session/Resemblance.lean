import LazyHub.Proofs.Session.Operations
import LazyHub.Proofs.World.Later

/-!
# Sites that differ in numbers only

Tokens and epochs tell subscriptions and activations apart, and that is all they are for. A site `y` *resembles*
a site `x` (`Site.Resembles τ d x y`) if its subscribers are those of `x` under the tokens that `τ` gives them, and
its epochs are `d` later; what it counts for its own purposes, such as pushes, does not matter. What is asked of such
sites has the same answer, is owed to the same subscribers, and leaves sites behind that resemble each other:
`Resembles.fulfil`, `Resembles.receive`, `Resembles.shut`.
-/

namespace LazyHub

variable {V H R : Type}

namespace Feed

variable [SignalValue V] (τ δ : ℕ ↪o ℕ) (f : Feed V H R)

theorem written_renumber (values : List (Emission V)) : (f.renumber τ δ).written values = (f.written values).renumber τ δ := by
  induction values generalizing f with
  | nil => rfl
  | cons e rest ih =>
    rw [written, List.foldl_cons, writeGate_renumber]
    exact ih (f.writeGate e)

theorem owes_renumber (values : List (Emission V)) : (f.renumber τ δ).owes values = f.owes values := by
  induction values generalizing f with
  | nil => rfl
  | cons e rest ih => rw [owes, owes, writeGate_renumber, ih, owed, owed, isChange_renumber, isWatched_renumber]

end Feed

namespace Site

/-- A site is like another, but for the numbers of tokens, which are given by `τ`, and of epochs, which are `d` later. -/
structure Resembles (τ : ℕ ↪o ℕ) (d : ℕ) (x y : Site V H R) : Prop where
  /-- The provider is of the same kind. -/
  kind : y.feed.kind = x.feed.kind
  /-- The outlets know the same values, and have the same subscribers. -/
  outlets : y.feed.outlets = x.feed.outlets.map (·.renumber τ)
  /-- The same registration is held, or none. -/
  registration : y.feed.registration = x.feed.registration
  /-- As many subscriptions are counted. -/
  count : y.feed.subscriptionCount = x.feed.subscriptionCount
  /-- The epoch is a later one. -/
  epoch : y.feed.epoch = x.feed.epoch + d
  /-- The provider is the same, with a callback of a later epoch. -/
  provider : y.source.provider = x.source.provider.map (· + d)

/-- What two operations come to that have the same answer and leave resembling sites behind. -/
def Resemble (τ : ℕ ↪o ℕ) (d : ℕ) (o o' : Answer × Site V H R) : Prop := o'.1 = o.1 ∧ o.2.Resembles τ d o'.2

namespace Resembles

variable {τ : ℕ ↪o ℕ} {d : ℕ} {x y : Site V H R}

theorem isActive_eq (like : x.Resembles τ d y) : y.feed.isActive = x.feed.isActive := by
  rw [Feed.isActive, like.registration, Feed.isActive]

theorem outlet?_eq (like : x.Resembles τ d y) (signal : SignalId) :
    y.feed.outlet? signal = (x.feed.outlet? signal).map (·.renumber τ) := by
  rw [Feed.outlet?, like.outlets, ← Feed.renumber_outlets τ τ, ← Feed.outlet?, Feed.outlet?_renumber]

/-- The same are subscribed. -/
theorem subscribers (like : x.Resembles τ d y) (signal : SignalId) :
    ((y.feed.outlet? signal).map (·.subscribers.snapshot)).getD [] =
      (((x.feed.outlet? signal).map (·.subscribers.snapshot)).getD []).map fun e => (e.1.renumber τ, e.2) := by
  rw [like.outlet?_eq]
  cases x.feed.outlet? signal <;> rfl

theorem cached?_eq (like : x.Resembles τ d y) (signal : SignalId) : y.feed.cached? signal = x.feed.cached? signal := by
  rw [Feed.cached?, like.outlet?_eq, Option.map_map, Feed.cached?]
  rfl

/-- The numbers of tokens may be others, as long as those of the subscribers are the same. -/
theorem congr (like : x.Resembles τ d y) {τ' : ℕ ↪o ℕ} (same : x.feed.outlets.map (·.renumber τ') = x.feed.outlets.map (·.renumber τ)) :
    x.Resembles τ' d y :=
  ⟨like.kind, like.outlets.trans same.symm, like.registration, like.count, like.epoch, like.provider⟩

/-- The providers change alike. -/
theorem change (like : x.Resembles τ d y) {p q : LocalProvider R Nat} (same : q = p.map (· + d)) :
    Resembles τ d { x with source := { x.source with provider := p } } { y with source := { y.source with provider := q } } :=
  ⟨like.kind, like.outlets, like.registration, like.count, like.epoch, same⟩

theorem thenDo {o o' : Answer × Site V H R} {next next' : Site V H R → Answer × Site V H R} (first : Resemble τ d o o')
    (second : ∀ {y y' : Site V H R}, y.Resembles τ d y' → Resemble τ d (next y) (next' y')) :
    Resemble τ d (thenDo o next) (thenDo o' next') := by
  obtain ⟨answer, y⟩ := o
  obtain ⟨answer', y'⟩ := o'
  obtain ⟨rfl, like⟩ := first
  cases answer' with
  | failed failure => exact ⟨rfl, like⟩
  | done | unknownToken => exact second like

/-! ### Registrations and subscriptions -/

theorem register (like : x.Resembles τ d y) : Resemble τ d x.register y.register := by
  have asked : y.source.provider.register y.feed.epoch =
      ((x.source.provider.register x.feed.epoch).1, (x.source.provider.register x.feed.epoch).2.map (· + d)) := by
    rw [like.provider, like.epoch]
    exact LocalProvider.register_map (· + d) x.source.provider x.feed.epoch
  simp only [Site.register, asked]
  cases (x.source.provider.register x.feed.epoch).1 with
  | error failure =>
    exact ⟨by rw [like.kind], like.kind, like.outlets, like.registration, like.count, like.epoch, rfl⟩
  | ok registration => exact ⟨rfl, like.kind, like.outlets, rfl, like.count, like.epoch, rfl⟩

theorem attach (like : x.Resembles τ d y) (signal : SignalId) (token : Token) (handler : H) :
    Resembles τ d { x with feed := x.feed.attach signal token handler }
      { y with feed := y.feed.attach signal (token.renumber τ) handler } where
  kind := like.kind
  outlets := by
    have both := congrArg Feed.outlets (Feed.attach_renumber τ τ x.feed signal token handler)
    simp only [Feed.attach, Feed.modifyOutlet, Feed.renumber_outlets] at both ⊢
    rw [like.outlets, both]
  registration := like.registration
  count := congrArg (· + 1) like.count
  epoch := like.epoch
  provider := like.provider

theorem detach (like : x.Resembles τ d y) (signal : SignalId) (token : Token) :
    Resembles τ d { x with feed := x.feed.detach signal token }
      { y with feed := y.feed.detach signal (token.renumber τ) } where
  kind := like.kind
  outlets := by
    have both := congrArg Feed.outlets (Feed.detach_renumber τ τ x.feed signal token)
    simp only [Feed.detach, Feed.modifyOutlet, Feed.renumber_outlets] at both ⊢
    rw [like.outlets, both]
  registration := like.registration
  count := congrArg (· - 1) like.count
  epoch := like.epoch
  provider := like.provider

theorem complete (like : x.Resembles τ d y) (purpose : Purpose H) :
    Resemble τ d (x.complete purpose) (y.complete (purpose.renumber τ)) := by
  cases purpose with
  | refresh => exact ⟨rfl, like⟩
  | activate => exact like.register
  | subscribe signal token handler =>
    exact thenDo like.register fun like => ⟨rfl, like.attach signal token handler⟩

theorem withdraw (like : x.Resembles τ d y) (thread : Thread) : Resemble τ d (x.withdraw thread) (y.withdraw thread) := by
  simp only [Site.withdraw, like.registration]
  cases x.feed.registration with
  | none => exact ⟨rfl, like⟩
  | some registration =>
    refine ⟨rfl, like.kind, like.outlets, rfl, like.count, ?_, ?_⟩
    · simp only [like.epoch]
      omega
    · exact congrArg (fun p => (p.unregister registration thread).2) like.provider |>.trans
        (congrArg Prod.snd (LocalProvider.unregister_map (· + d) x.source.provider registration thread))

theorem cleared (like : x.Resembles τ d y) :
    Resembles τ d { x with feed := x.feed.cleared } { y with feed := y.feed.cleared } where
  kind := like.kind
  outlets := by
    simp only [Feed.cleared, like.outlets, List.map_map]
    rfl
  registration := like.registration
  count := rfl
  epoch := like.epoch
  provider := like.provider

theorem shut (like : x.Resembles τ d y) (thread : Thread) : (x.shut thread).Resembles τ d (y.shut thread) :=
  (like.cleared.withdraw thread).2

/-! ### Values -/

variable [SignalValue V] {dec : R → Except DecodeFailure (Emissions V)}

theorem admissible_eq (like : x.Resembles τ d y) (outcome : Except DecodeFailure (Emissions V)) :
    y.feed.admissible outcome = x.feed.admissible outcome :=
  (Feed.admissible_of_outlets (f := x.feed.renumber τ τ) (g := y.feed) like.outlets outcome).trans
    (Feed.admissible_renumber τ τ x.feed outcome)

theorem outlets_written (like : x.Resembles τ d y) (values : List (Emission V)) :
    (y.feed.written values).outlets = (x.feed.written values).outlets.map (·.renumber τ) :=
  (Feed.written_congr (f := x.feed.renumber τ τ) (g := y.feed) like.outlets values).trans
    (congrArg Feed.outlets (Feed.written_renumber τ τ x.feed values))

theorem written (like : x.Resembles τ d y) (values : List (Emission V)) :
    Resembles τ d { x with feed := x.feed.written values } { y with feed := y.feed.written values } := by
  refine ⟨?_, like.outlets_written values, ?_, ?_, ?_, like.provider⟩
  all_goals rw [Feed.written_eq, Feed.written_eq x.feed]
  exacts [like.kind, like.registration, like.count, like.epoch]

theorem pull (like : x.Resembles τ d y) : Resemble τ d (x.pull dec) (y.pull dec) := by
  have asked : y.source.provider.query = (x.source.provider.query.1, x.source.provider.query.2.map (· + d)) := by
    rw [like.provider, LocalProvider.query_map]
  simp only [Site.pull, asked]
  cases x.source.provider.query.1 with
  | error failure => exact ⟨by rw [like.kind], like.change rfl⟩
  | ok payload =>
    simp only [like.admissible_eq]
    cases x.feed.admissible (dec payload) with
    | error failure => exact ⟨by rw [like.kind], like.change rfl⟩
    | ok values =>
      have taken := like.change (p := x.source.provider.query.2.takeBack) (q := (x.source.provider.query.2.map (· + d)).takeBack) rfl
      exact ⟨rfl, taken.written values⟩

theorem activate (like : x.Resembles τ d y) (purpose : Purpose H) :
    Resemble τ d (x.activate dec purpose) (y.activate dec (purpose.renumber τ)) := by
  have risen : Resembles τ d { x with feed := { x.feed with epoch := x.feed.epoch + 1 } }
      { y with feed := { y.feed with epoch := y.feed.epoch + 1 } } := by
    refine ⟨like.kind, like.outlets, like.registration, like.count, ?_, like.provider⟩
    simp only [like.epoch]
    omega
  exact thenDo risen.pull fun like => like.complete purpose

/-- **Requests have the same answer** and leave resembling sites behind. -/
theorem fulfil (like : x.Resembles τ d y) (thread : Thread) (request : FeedRequest H) :
    Resemble τ d (x.fulfil dec thread request) (y.fulfil dec thread (request.renumber τ)) := by
  have active := like.isActive_eq
  cases request with
  | activate =>
    simp only [FeedRequest.renumber, Site.fulfil, active]
    split
    · exact ⟨rfl, like⟩
    · exact like.activate .activate
  | deactivate => exact like.withdraw thread
  | refresh =>
    simp only [FeedRequest.renumber, Site.fulfil, active]
    split
    · exact ⟨rfl, like⟩
    · exact like.pull
  | subscribe signal token handler =>
    simp only [FeedRequest.renumber, Site.fulfil, active]
    split
    · exact ⟨rfl, like.attach signal token handler⟩
    · exact like.activate (.subscribe signal token handler)
  | unsubscribe signal token =>
    have known : (y.feed.outlet? signal).map (·.subscribers.contains (token.renumber τ)) =
        (x.feed.outlet? signal).map (·.subscribers.contains token) := by
      rw [like.outlet?_eq, Option.map_map]
      congr 1
      funext o
      exact o.subscribers.contains_renumber τ token
    have detached := like.detach signal token
    have count : (y.feed.detach signal (token.renumber τ)).subscriptionCount = (x.feed.detach signal token).subscriptionCount :=
      detached.count
    simp only [FeedRequest.renumber, Site.fulfil, known, count]
    split
    · split
      · exact detached.withdraw thread
      · exact ⟨rfl, detached⟩
    · exact ⟨rfl, like⟩
  | shutdown => exact like.cleared.withdraw thread

theorem received (like : x.Resembles τ d y) (epoch : Nat) (outcome : Except DecodeFailure (Emissions V)) :
    (y.feed.received (epoch + d) outcome).2 = (x.feed.received epoch outcome).2 ∧
      Resembles τ d { x with feed := (x.feed.received epoch outcome).1 } { y with feed := (y.feed.received (epoch + d) outcome).1 } := by
  have current : epoch + d = y.feed.epoch ↔ epoch = x.feed.epoch := by
    rw [like.epoch]
    omega
  have owes : ∀ values, y.feed.owes values = x.feed.owes values := fun values =>
    (Feed.owes_congr (f := x.feed.renumber τ τ) (g := y.feed) like.outlets values).trans (Feed.owes_renumber τ τ x.feed values)
  simp only [Feed.received, like.admissible_eq]
  cases x.feed.admissible outcome with
  | error failure => exact ⟨rfl, like⟩
  | ok values =>
    dsimp only
    by_cases now : epoch = x.feed.epoch
    · rw [if_pos now, if_pos (current.2 now)]
      exact ⟨owes values, like.written values⟩
    · rw [if_neg now, if_neg (mt current.1 now)]
      exact ⟨rfl, like⟩

/-- **Pushes are owed to the same subscribers**, and leave resembling sites behind. -/
theorem receive (like : x.Resembles τ d y) (dec : R → Except DecodeFailure (Emissions V)) (payload : R) :
    (y.receive dec payload).2 = (x.receive dec payload).2 ∧ (x.receive dec payload).1.Resembles τ d (y.receive dec payload).1 := by
  have callback : y.source.provider.callback? = x.source.provider.callback?.map (· + d) := by
    rw [like.provider, LocalProvider.callback?_map]
  simp only [Site.receive, callback]
  cases x.source.provider.callback? with
  | none => exact ⟨rfl, like⟩
  | some epoch =>
    have counted : Resembles τ d
        { feed := { x.feed with pushCount := x.feed.pushCount + 1 }, source := { x.source with provider := x.source.provider.takeBack } }
        { feed := { y.feed with pushCount := y.feed.pushCount + 1 }, source := { y.source with provider := y.source.provider.takeBack } } :=
      ⟨like.kind, like.outlets, like.registration, like.count, like.epoch, congrArg LocalProvider.takeBack like.provider⟩
    exact counted.received epoch (dec payload)

end Resembles

end Site

end LazyHub
