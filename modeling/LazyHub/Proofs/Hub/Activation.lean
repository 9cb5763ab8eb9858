import LazyHub.Proofs.Hub.Sound
import LazyHub.Proofs.World

/-!
# When the feeds of a hub are active

A provider notifies a hub only while somebody listens. `Hub.active_iff_subscribed` says so: between
the operations on a feed, the count of its subscriptions is the number of its subscribers, and the
feed has a registration exactly if there are any. It holds after every run of a hub's clients,
workers, decoders and providers, whatever the providers answer and however the steps of the
operations interleave. `World.active_iff` is the same for providers in the process.
-/

namespace LazyHub

variable {V H R : Type}

/-! ### A hub over a lamp -/

namespace Lamp

/-- A hub over one lamp. -/
def hub : Hub Value Unit Unit := { feeds := [.ofPlan plan], pool := .ofSize 1 true }

/-- Somebody subscribes to the lamp, which shines. -/
def subscription : List (HubLabel Value Unit Unit) :=
  [.move (.draw key ()), .move (.subscribe ⟨1⟩), .hear 0 (.queried (.ok ())),
    .move (.advance 0 (.decoded (.ok ⟨[emission true]⟩))), .move (.advance 0 .seed), .move (.advance 0 .write),
    .move (.advance 0 .settle), .hear 0 (.registered (.ok ⟨1⟩))]

end Lamp

/-! ### Reachable hubs -/

variable [SignalValue V]

namespace Hub

/-- **Subscribers, count and registration agree** in every feed of a hub whose state lock is free.
So a subscription that ends is always one that was counted. -/
theorem active_iff_subscribed {settings : Settings} {plans : List (FeedPlan V)} {start h : Hub V H R}
    {labels : List (HubLabel V H R)} {effects : List (HubEffect V H)}
    (assembled : assemble settings plans = .ok start) (own : ∀ l ∈ labels, l.IsOwn)
    (ran : run Hub.step labels start = some (h, effects)) {f : Feed V H R} (mem : f ∈ h.feeds)
    (free : f.holder = none) :
    f.subscriptionCount = f.totalSubscribers ∧ (f.registration.isSome ↔ 0 < f.totalSubscribers) ∧
      ∀ signal token o, f.outlet? signal = some o → o.subscribers.contains token →
        (f.detach signal token).subscriptionCount + 1 = f.subscriptionCount := by
  have sound := ((Reachable.assembled assembled).run own ran).sound
  exact (sound.balanced f mem).settled free

/-- Once somebody is subscribed to it, the lamp's feed is active and counts one subscription. -/
theorem lamp_active :
    ∃ h effects f, run Hub.step Lamp.subscription Lamp.hub = some (h, effects) ∧ h.feeds = [f] ∧
      f.holder = none ∧ f.totalSubscribers = 1 ∧ f.subscriptionCount = 1 ∧ f.registration.isSome := by
  obtain ⟨h, effects, f, ran, feeds, free, one⟩ : ∃ h effects f,
      run Hub.step Lamp.subscription Lamp.hub = some (h, effects) ∧ h.feeds = [f] ∧ f.holder = none ∧
        f.totalSubscribers = 1 := ⟨_, _, _, rfl, rfl, rfl, rfl⟩
  have own : ∀ l ∈ Lamp.subscription, l.IsOwn := by simp [Lamp.subscription, HubLabel.IsOwn]
  have assembled : assemble {} [Lamp.plan] = .ok Lamp.hub := rfl
  obtain ⟨count, active, -⟩ := active_iff_subscribed assembled own ran (feeds ▸ List.mem_singleton_self f) free
  exact ⟨h, effects, f, ran, feeds, free, one, count.trans one, active.2 (by omega)⟩

end Hub

namespace World

theorem reachable_of_run {settings : Settings} {plans : List (FeedPlan V × R)} {start w : World V H R}
    {labels : List (WorldLabel V H R)} {effects : List (HubEffect V H)}
    (assembled : assemble settings plans = .ok start) (own : ∀ l ∈ labels, l.IsOwn)
    (ran : run World.step labels start = some (w, effects)) : Hub.Reachable settings (plans.map (·.1)) w.hub := by
  obtain ⟨labels, own, ran⟩ := hub_of_run ran own
  exact (Hub.Reachable.assembled (hub_of_assemble assembled)).run own ran

/-- Over providers in the process, too, subscribers, count and registration agree. -/
theorem active_iff {settings : Settings} {plans : List (FeedPlan V × R)} {start w : World V H R}
    {labels : List (WorldLabel V H R)} {effects : List (HubEffect V H)}
    (assembled : assemble settings plans = .ok start) (own : ∀ l ∈ labels, l.IsOwn)
    (ran : run World.step labels start = some (w, effects)) {f : Feed V H R} (mem : f ∈ w.hub.feeds)
    (free : f.holder = none) :
    f.subscriptionCount = f.totalSubscribers ∧ (f.registration.isSome ↔ 0 < f.totalSubscribers) := by
  have sound := (reachable_of_run assembled own ran).sound
  obtain ⟨count, active, -⟩ := (sound.balanced f mem).settled free
  exact ⟨count, active⟩

end World

end LazyHub
