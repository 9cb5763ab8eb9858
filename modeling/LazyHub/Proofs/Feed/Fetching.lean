import LazyHub.Proofs.Feed.AsIf
import LazyHub.Proofs.Feed.Pulls

/-!
# How far a pull has come

While the holder of the state lock pulls, a step of the feed is either aside of the lock or the next one of the
pull (`Feed.Pulls`). A pull fetches the provider's payload first (`Section.Fetches`) and has got hold of it from
there on (`Section.HasFetched`), so that it can only fail by the refusal of a registration.
-/

namespace LazyHub

variable {V H R : Type}

/-- The provider's payload was not got hold of: the query failed, or the decoding. -/
def HubFailure.IsOfFetch : HubFailure → Prop
  | .queryFailed .. | .decodeFailed .. => True
  | _ => False

/-- The holder of the state lock has yet to get hold of the provider's payload. -/
def Section.Fetches : Section V H R → Prop
  | .querying _ | .decoding .. => True
  | _ => False

/-- The holder of the state lock has got hold of the provider's payload. -/
def Section.HasFetched : Section V H R → Prop
  | .seeding .. | .writing _ | .registering _ => True
  | _ => False

namespace Feed

variable [SignalValue V] {f : Feed V H R} {l : FeedLabel V H R} {r : Result V H R} {s : Section V H R}

/-- **What can be done while somebody pulls**, who is at a stage `s`: a step aside of the state lock, or the next
step of the pull. -/
inductive Pulls (f : Feed V H R) : Section V H R → FeedLabel V H R → Result V H R → Prop where
  /-- A step aside of the state lock. -/
  | aside {s : Section V H R} {l : FeedLabel V H R} {r : Result V H R} (aside : f.IsAside l)
      (holder : r.state.holder = some s) (epoch : r.state.epoch = f.epoch) (unanswered : r.answer = none) : Pulls f s l r
  /-- The pull hears from the provider or the decoder, and goes on. -/
  | fetched {s s' : Section V H R} {l : FeedLabel V H R} {effects : List (FeedEffect V)} (step : IsPullStep l)
      (fetches : s.Fetches) (purpose : s'.purpose? = s.purpose?) (next : s'.Fetches ∨ s'.HasFetched)
      (unregistered : ∀ purpose, s' ≠ .registering purpose) (unowed : ∀ signal value, .owed signal value ∉ effects) :
      Pulls f s l { state := { f with holder := some s' }, effects }
  /-- The pull hears from the provider or the decoder, and fails. -/
  | fails {s : Section V H R} {l : FeedLabel V H R} {effects : List (FeedEffect V)} {failure : HubFailure}
      (step : IsPullStep l) (fetches : s.Fetches) (isOfFetch : failure.IsOfFetch)
      (unowed : ∀ signal value, .owed signal value ∉ effects) :
      Pulls f s l { state := { f with holder := none }, effects, answer := some (.failed failure) }
  /-- The pull takes the update lock. -/
  | seeds {purpose : Purpose H} {values : List (Emission V)} :
      Pulls f (.seeding purpose values) (.advance .seed)
        { state := { f with holder := some (.writing purpose), writer := some ⟨none, values, .none⟩ } }
  /-- The values are written, and nothing else was wanted. -/
  | done (writing : f.writer = some ⟨none, [], .none⟩) :
      Pulls f (.writing .refresh) (.advance .settle)
        { state := { f with writer := none, holder := none }, answer := some .done }
  /-- The values are written, and a callback is to be registered. -/
  | registers {purpose : Purpose H} (more : purpose ≠ .refresh) (writing : f.writer = some ⟨none, [], .none⟩) :
      Pulls f (.writing purpose) (.advance .settle)
        { state :=
            { f with
              writer := none
              holder := some (.registering purpose)
              callbacks := f.callbacks ++ [f.epoch] }
          effects := [.asked (.register f.epoch)] }
  /-- The provider refuses the registration. -/
  | refused {purpose : Purpose H} {failure : ProviderFailure} :
      Pulls f (.registering purpose) (.hear (.registered (.error failure)))
        { state := { f with callbacks := f.callbacks.erase f.epoch, holder := none }
          answer := some (.failed (.registerFailed f.kind failure)) }
  /-- The provider accepts the registration. -/
  | accepted {purpose : Purpose H} {registration : Registration} {r : Result V H R} (free : r.state.holder = none)
      (answer : r.answer = some .done) : Pulls f (.registering purpose) (.hear (.registered (.ok registration))) r

theorem Transition.pulls (t : f.Transition l r) (o : f.Orderly) (held : f.holder = some s) (pulls : s.purpose?.isSome)
    (unhandled : l ≠ .clone ∧ l ≠ .drop) : f.Pulls s l r := by
  have inactive : f.registration = none := o.inactive (by rw [pull?, held]; exact pulls)
  have free : f.holder ≠ none := by simp [held]
  cases t with
  | content free' | activate free' | deactivate free' | refresh free' | attach free' | subscribe free' | unknown free'
  | detach free' | detachLast free' | shutdown free' => exact absurd free' free
  | clone => exact absurd rfl unhandled.1
  | drop | dropLast => exact absurd rfl unhandled.2
  | retire _ active => cases inactive.symm.trans active
  | unregistered held' | clear held' | cleared held' | clearedInactive held' | withdraw held' =>
    cases held.symm.trans held'
    cases pulls
  | queryFailed held' | decodeFailed held' =>
    cases held.symm.trans held'
    exact .fails trivial trivial trivial (by simp)
  | queried held' =>
    cases held.symm.trans held'
    exact .fetched trivial trivial rfl (.inl trivial) (by simp) (by simp)
  | decoded held' =>
    cases held.symm.trans held'
    exact .fetched trivial trivial rfl (.inr trivial) (by simp) (by simp)
  | seed held' =>
    cases held.symm.trans held'
    exact .seeds
  | registerFailed held' =>
    cases held.symm.trans held'
    exact .refused
  | subscribed held' | activated held' =>
    cases held.symm.trans held'
    exact .accepted rfl rfl
  | settleRefresh held' writing =>
    cases held.symm.trans held'
    exact .done writing
  | settle held' more writing =>
    cases held.symm.trans held'
    exact .registers more writing
  | write | look | post => exact .aside trivial held rfl rfl
  | settlePush writing => exact .aside ⟨_, _, writing, rfl⟩ held rfl rfl
  | invokeUnowned | invoke | pushRefused | pushDecoded | pushAccepted | pushStale | leave =>
    exact .aside trivial held rfl rfl

omit [SignalValue V] in
theorem IsPullStep.byHolder (pulls : IsPullStep l) : f.ByHolder l := by
  cases l with
  | hear => trivial
  | advance move => cases move <;> trivial
  | _ => exact pulls.elim

omit [SignalValue V] in
/-- A step aside of the state lock is nobody's who holds it, unless they write. -/
theorem IsAside.not_byHolder (aside : f.IsAside l) (o : f.Orderly) (held : f.holder = some s)
    (unwriting : ∀ purpose, s ≠ .writing purpose) : ¬ f.ByHolder l := by
  have byPush : ∀ w, f.writer = some w → w.push ≠ none := by
    intro w writing pulls
    obtain ⟨purpose, held'⟩ := o.pulled w writing pulls
    exact unwriting purpose (Option.some.inj (held.symm.trans held'))
  intro byHolder
  cases l with
  | advance move =>
    cases move with
    | write | settle =>
      obtain ⟨w, writing, pulls⟩ := byHolder
      exact byPush w writing pulls
    | look | post | pushDecoded | enter | leave => exact byHolder
    | _ => exact aside
  | invoke => exact byHolder
  | _ => exact aside

end Feed

end LazyHub
