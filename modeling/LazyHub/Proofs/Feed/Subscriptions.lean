import LazyHub.Proofs.Feed.Pulls

/-!
# How subscriptions begin and end at a feed

Whoever is subscribed to a signal of a feed stays so until an unsubscription comes with the signal and the token,
or a shutdown clears the outlet (`Transition.leaves`). An unsubscription is over in one step, unless it ends the
last subscription to the feed: then the provider is asked to end the registration, and nothing else is asked of it
until the state lock is let go of (`unregisters_of_finishes`).
-/

namespace LazyHub.Feed

variable {V H R : Type} [SignalValue V] {f g : Feed V H R} {l : FeedLabel V H R} {r : Result V H R} {signal : SignalId}
  {token : Token} {handler : H}

/-! ### Who comes and who goes -/

omit [SignalValue V] in
theorem not_lists_of_bare (bare : f.IsBare) {s : SignalId} {e : Token × H} : ¬ f.Lists s e :=
  fun lists => not_hasToken_of_empty bare.1 e.1 ⟨s, e.2, lists⟩

/-- A subscription that is done has been added. -/
theorem Transition.joined (t : f.Transition l r) (balanced : f.Balanced) (answered : r.answer = some .done)
    (how : l = .enter (.subscribe signal token handler) ∨
      (∃ reply, l = .hear reply) ∧ f.pull? = some (.subscribe signal token handler)) :
    r.state.Lists signal (token, handler) := by
  rcases how with rfl | ⟨⟨reply, rfl⟩, pulls⟩
  · cases t with
    | content _ _ content => exact content.elim
    | attach _ _ known => exact lists_attached known token handler
    | subscribe => cases answered
  · cases t with
    | queryFailed | queried | registerFailed => cases answered
    | @subscribed s t k registration held =>
      simp only [pull?, held, Option.bind_some, Section.purpose?, Option.some.injEq, Purpose.subscribe.injEq] at pulls
      obtain ⟨rfl, rfl, rfl⟩ := pulls
      simp only [Balanced, held] at balanced
      obtain ⟨-, signal', token', handler', eq, known⟩ := balanced
      cases eq
      exact lists_attached (f := f) known _ _
    | activated held plain =>
      simp only [pull?, held, Option.bind_some, Section.purpose?, Option.some.injEq] at pulls
      exact absurd pulls (plain _ _ _)
    | unregistered held =>
      rw [pull?, held] at pulls
      cases pulls

/-- **Somebody ceases to be subscribed** by the signal and the token of the subscription, or in a shutdown. -/
theorem Transition.leaves (t : f.Transition l r) (balanced : f.Balanced) (own : f.OfHub l) {s : SignalId}
    {e : Token × H} (was : f.Lists s e) (gone : ¬ r.state.Lists s e) :
    l = .enter (.unsubscribe s e.1) ∨ l = .advance .clear := by
  cases t with
  | attach _ _ known =>
    refine absurd ((lists_attach_iff known).2 (.inr ⟨was, fun _ same => ?_⟩)) gone
    exact own ⟨s, e.2, same ▸ was⟩
  | @detach signal token | @detachLast signal token =>
    by_cases here : s = signal ∧ e.1 = token
    · obtain ⟨rfl, rfl⟩ := here
      exact .inl rfl
    · exact absurd (lists_detach_iff (f := f).2 ⟨was, fun eq same => here ⟨eq, same⟩⟩) gone
  | subscribed held =>
    simp only [Balanced, held] at balanced
    exact absurd was (not_lists_of_bare balanced.1)
  | write => exact absurd (lists_writeGate.2 was) gone
  | clear => exact .inr rfl
  | _ => exact absurd was gone

/-- Whoever pulls for a subscription did so before, or has just entered for it. -/
theorem Transition.pull?_eq (t : f.Transition l r) (pulls : r.state.pull? = some (.subscribe signal token handler)) :
    f.pull? = some (.subscribe signal token handler) ∨ l = .enter (.subscribe signal token handler) := by
  cases t with
  | @subscribe s t k =>
    cases pulls
    exact .inr rfl
  | activate | deactivate | refresh | detachLast | shutdown | queryFailed | registerFailed | subscribed
  | activated | unregistered | decodeFailed | settleRefresh | clear | cleared | clearedInactive | withdraw
  | retire | dropLast => cases pulls
  | queried held | decoded held | seed held | settle held =>
    rw [pull?, held]
    exact .inl pulls
  | _ => exact .inl pulls

/-! ### Unsubscriptions -/

section Unsubscribe

variable {o : Outlet V H} (free : f.holder = none) (kept : f.handles ≠ 0) (known : f.outlet? signal = some o)
include free kept known

theorem step_unsubscribe_unknown (absent : o.subscribers.contains token = false) :
    f.step (.enter (.unsubscribe signal token)) = some { state := f, answer := some .unknownToken } := by
  simp [Feed.step, enter, free, kept, known, absent, release, free_eq free]

theorem step_unsubscribe_more (present : o.subscribers.contains token) (more : f.subscriptionCount - 1 ≠ 0) :
    f.step (.enter (.unsubscribe signal token)) = some { state := f.detach signal token, answer := some .done } := by
  have done : (f.detach signal token).release .done = { state := f.detach signal token, answer := some .done } := by
    rw [release, free_eq (f := f.detach signal token) free]
  simp [Feed.step, enter, free, kept, known, present, more, done]

theorem step_unsubscribe_last (present : o.subscribers.contains token) (last : f.subscriptionCount - 1 = 0)
    (active : f.registration.isSome) :
    f.step (.enter (.unsubscribe signal token)) =
      some { state := { f.detach signal token with holder := some .withdrawing } } := by
  simp [Feed.step, enter, free, kept, known, present, last, startWithdrawal, active]

end Unsubscribe

/-! ### The end of the registration -/

/-- **The last subscription has ended**, and the registration is to follow: its end has yet to be asked for, or is
being waited for. -/
inductive IsEnding (f : Feed V H R) (registration : Registration) : List FeedCall → Prop where
  /-- The end has yet to be asked for. -/
  | withdrawing (held : f.holder = some .withdrawing) (active : f.registration = some registration) :
      IsEnding f registration []
  /-- The end is being waited for. -/
  | unregistering (held : f.holder = some (.unregistering registration .inPlace)) (forgotten : f.registration = none) :
      IsEnding f registration [.unregister registration .inPlace]

/-- What a step can do while a registration is being ended: the operation goes on, or it is done. -/
theorem Transition.ending (t : f.Transition l r) (o : f.Orderly) (kept : f.handles ≠ 0) {registration : Registration}
    {asked : List FeedCall} (ending : f.IsEnding registration asked) :
    r.state.handles ≠ 0 ∧
      (r.state.IsEnding registration (asked ++ calls r.effects) ∧ r.state.holder ≠ none ∨
        r.state.holder = none ∧ r.state.registration = none ∧ r.answer = some .done ∧
          asked ++ calls r.effects = [.unregister registration .inPlace]) := by
  have busy : f.holder ≠ none := by cases ending <;> simp [*]
  have aside : r.state.holder = f.holder → r.state.registration = f.registration → calls r.effects = [] →
      r.state.IsEnding registration (asked ++ calls r.effects) ∧ r.state.holder ≠ none := by
    intro holder same silent
    rw [silent, List.append_nil]
    refine ⟨?_, holder ▸ busy⟩
    cases ending with
    | withdrawing held active => exact .withdrawing (holder.trans held) (same.trans active)
    | unregistering held forgotten => exact .unregistering (holder.trans held) (same.trans forgotten)
  cases t with
  | content free | activate free | deactivate free | refresh free | attach free | subscribe free | unknown free
  | detach free | detachLast free | shutdown free | dropLast _ _ free => exact absurd free busy
  | queryFailed held | queried held | registerFailed held | subscribed held | activated held | decodeFailed held
  | decoded held | seed held | settleRefresh held | settle held | clear held | cleared held | clearedInactive held =>
    cases ending with
    | withdrawing held' | unregistering held' => cases held.symm.trans held'
  | unregistered held =>
    cases ending with
    | withdrawing held' => cases held.symm.trans held'
    | unregistering held' forgotten =>
      cases held.symm.trans held'
      exact ⟨kept, .inr ⟨rfl, forgotten, rfl, rfl⟩⟩
  | withdraw held active =>
    cases ending with
    | withdrawing _ active' =>
      cases active.symm.trans active'
      exact ⟨kept, .inl ⟨.unregistering rfl rfl, by simp⟩⟩
    | unregistering held' => cases held.symm.trans held'
  | retire retiring => exact absurd (Nat.add_eq_zero_iff.1 (o.unowned retiring)).1 kept
  | clone => exact ⟨Nat.succ_ne_zero _, .inl (aside rfl rfl rfl)⟩
  | drop _ free =>
    refine ⟨?_, .inl (aside rfl rfl rfl)⟩
    have several : f.handles ≠ 1 := fun one => busy (free one)
    show f.handles - 1 ≠ 0
    omega
  | _ => exact ⟨kept, .inl (aside rfl rfl rfl)⟩

/-- **The end of a registration.** Once the last subscription to a feed has ended, its provider is asked to end the
registration and nothing else, and the feed is inactive when the state lock is let go of. -/
theorem unregisters_of_finishes (o : f.Orderly) (kept : f.handles ≠ 0) {registration : Registration}
    {asked : List FeedCall} (ending : f.IsEnding registration asked) {labels : List (FeedLabel V H R)}
    {es : List (FeedEffect V)} {a : Answer} (fin : Finishes f labels g es a) :
    a = .done ∧ asked ++ calls es = [.unregister registration .inPlace] ∧ g.registration = none := by
  induction fin generalizing asked with
  | last made free answered =>
    obtain ⟨-, ⟨-, busy⟩ | ⟨-, inactive, done, all⟩⟩ := (transition_of_step made).ending o kept ending
    · exact absurd free busy
    · exact ⟨Option.some.inj (answered.symm.trans done), all, inactive⟩
  | @more f g l r rest es a made busy onward ih =>
    have t := transition_of_step made
    obtain ⟨kept', ⟨ending', -⟩ | ⟨free, -⟩⟩ := t.ending o kept ending
    · obtain ⟨done, all, inactive⟩ := ih (o.step t) kept' ending'
      refine ⟨done, ?_, inactive⟩
      rw [← all, List.append_assoc]
      exact congrArg (asked ++ ·) List.filterMap_append
    · exact absurd free busy

end LazyHub.Feed
