import LazyHub.Proofs.Hub.Silence
import LazyHub.Proofs.Hub.Unsubscribing
import LazyHub.Proofs.Session.Operations
import LazyHub.Scenario.Holding

/-!
# A token ends its own subscription and no other

What is proved of unsubscriptions, put together with what guards and sessions add to it
(`Session.token_ends_its_own`). The drop of a guard is an unsubscription under a handle that the guard takes first, if
there is one to be had (`DropsGuard.cases`). A guard that has been turned into its token is gone, and dropping it does
nothing (`Scenario.Holding.disarmed`); and an unsubscription from a signal that the hub does not have is noted and no
more.

While the drop of the last handle shuts the feeds down nobody has a handle, and a guard that is dropped then leaves its
subscription where it is (`Hub.late_guard_ends_nothing`).
-/

namespace LazyHub

variable {V H R : Type}

/-! ### Guards that are turned into tokens -/

namespace Scenario

namespace Labelled

variable {α : Type}

@[simp] theorem get?_erase (m : Labelled α) (label : String) : (m.erase label).get? label = none := by
  refine List.lookup_eq_none_iff.2 fun p mem => ?_
  have apart : p.1 ≠ label := of_decide_eq_true (List.mem_filter.1 mem).2
  exact bne_iff_ne.2 apart.symm

@[simp] theorem get?_put (m : Labelled α) (label : String) (a : α) : (m.put label a).get? label = some a := by
  simp [put, get?]

end Labelled

namespace Holding

variable {P Op : Type}

theorem memory_at (s : Stage (Handler Op) P) : Play.memory s = some (s.memory, s) := rfl

/-- **A guard that is turned into its token** hands the token back, and dropping it later does nothing. -/
theorem disarmed (c : Actors P Op) {label : String} {g : Guard} {s : Stage (Handler Op) P}
    (known : s.memory.guards.get? label = some g) :
    ∃ t : Stage (Handler Op) P, disarmGuard label s = some (.number g.token.serial, t) ∧ t.world = s.world ∧
      t.journal = s.journal ∧ t.memory.tokens.get? label = some g.token ∧
      dropGuard c label t = some (.truth false, t) := by
  let kept : Memory :=
    { s.memory with guards := s.memory.guards.erase label, tokens := s.memory.tokens.put label g.token }
  refine ⟨{ s with memory := kept }, ?_, rfl, rfl, Labelled.get?_put s.memory.tokens label g.token, ?_⟩
  · rw [disarmGuard, Act.bind_at (memory_at s), known]
    rfl
  · have gone : kept.guards.get? label = none := Labelled.get?_erase s.memory.guards label
    rw [dropGuard, Act.bind_at (memory_at _), gone]
    rfl

end Holding

end Scenario

/-! ### Guards that are dropped -/

variable [SignalValue V] {settings : Settings} {plans : List (FeedPlan V)} {start h k : Hub V H R} {i : Nat}
  {signal : SignalId} {token : Token} {labels : List (HubLabel V H R)} {es : List (HubEffect V H)}

namespace Hub

/-- **The drop of a guard** comes to an unsubscription if anybody has a handle on the hub, and to nothing otherwise. -/
theorem DropsGuard.cases (drops : DropsGuard i signal token h labels k) :
    (0 < h.handles → ∃ before own after g u es es' es'' a,
      labels = .move .clone :: (before ++ (.move (.unsubscribe signal token) :: own) ++ after) ∧
      run Hub.step (.move .clone :: before) h = some (g, es) ∧
      Finishes i g (.move (.unsubscribe signal token) :: own) u es' a ∧ run Hub.step after u = some (k, es'')) ∧
    (h.handles = 0 → labels = [] ∧ k = h) := by
  cases drops with
  | inTime taken waited fin left =>
    refine ⟨fun _ => ⟨_, _, _, _, _, _, _, _, _, rfl, run_cons.2 ⟨_, _, taken, waited, rfl⟩, fin, left⟩, fun none => ?_⟩
    cases transition_of_step taken with
    | feed serves => cases serves
    | clone held => simp [handles, held] at none
  | late refused => exact ⟨fun held => absurd (handles_eq_zero refused) (Nat.ne_of_gt held), fun _ => ⟨rfl, rfl⟩⟩

/-- Whoever unsubscribes holds the hub. -/
theorem Finishes.isHeld {own : List (HubLabel V H R)} {a : Answer}
    (fin : Finishes i h (.move (.unsubscribe signal token) :: own) k es a) : h.IsHeld := by
  obtain ⟨r, later, made, -⟩ := run_cons.1 fin.run
  cases transition_of_step made with
  | feed serves =>
    cases serves with
    | unsubscribe held => exact held

end Hub

open Hub

/-- **A token ends its own subscription and no other.** In every run of a hub, by however many clients and however
their subscriptions interleave:

* tokens are drawn in ascending order, and no token is returned twice;
* a subscription whose token was returned is there until it is ended by this token, for its own signal, or by a
  shutdown of its feed, and does not come back;
* as long as anybody holds the hub, an unsubscription with a token that was drawn ends the subscription that the token
  was drawn for, if it is there and to the signal named, and otherwise it changes nothing and asks no provider for
  anything;
* from a signal that the hub does not have nobody is unsubscribed, which is noted;
* the drop of a guard is such an unsubscription if anybody has a handle on the hub, and does nothing otherwise;
* the drop of a guard that was turned into its token does nothing. -/
theorem Session.token_ends_its_own (assembled : assemble settings plans = .ok start) (own : ∀ l ∈ labels, l.IsOwn)
    (ran : run Hub.step labels start = some (h, es)) :
    let past := trail Hub.step labels start
    ((drawn past).Pairwise fun p q => p.token.serial < q.token.serial) ∧ (returned past).Nodup ∧
      (∀ token ∈ returned past, ∃ q ∈ drawn past, q.token = token) ∧
      (∀ q ∈ drawn past,
        (h.Has q ↔ q.token ∈ returned past ∧ ∀ m ∈ past, ¬ EndsIn m q) ∧
        (∀ m ∈ past, EndsIn m q → m.label = .move (.unsubscribe q.key.id q.token) ∨
          ∃ i, (q.token, q.handler) ∈ m.before.subscribersOf i q.key.id ∧ m.label = .move (.advance i .clear)) ∧
        (h.IsHeld → h.EndsOwnOnly q) ∧
        (∀ {X : Type} (c : Client V H R X) (s : Session V H R X) signal, s.world.hub = h → h.feedOf? signal = none →
          Act.unsubscribe c signal q.token s =
            some ((), { s with journal := .unsubscribeUnknownSignal q.token signal :: s.journal })) ∧
        ∀ i signal steps k, (∀ l ∈ steps, l.IsOwn) → DropsGuard i signal q.token h steps k →
          (0 < h.handles → ∃ before own after g u es es' es'' a,
            steps = .move .clone :: (before ++ (.move (.unsubscribe signal q.token) :: own) ++ after) ∧
            run Hub.step (.move .clone :: before) h = some (g, es) ∧ g.EndsOwnOnly q ∧
            Finishes i g (.move (.unsubscribe signal q.token) :: own) u es' a ∧
            run Hub.step after u = some (k, es'')) ∧
          (h.handles = 0 → steps = [] ∧ k = h)) ∧
      ∀ {P Op : Type} (c : Scenario.Holding.Actors P Op) (s : Scenario.Stage (Scenario.Handler Op) P) label g,
        s.memory.guards.get? label = some g →
          ∃ t : Scenario.Stage (Scenario.Handler Op) P,
            Scenario.Holding.disarmGuard label s = some (.number g.token.serial, t) ∧ t.world = s.world ∧
            t.journal = s.journal ∧ t.memory.tokens.get? label = some g.token ∧
            Scenario.Holding.dropGuard c label t = some (.truth false, t) := by
  intro past
  have opened := Reachable.assembled assembled
  have reachable := opened.run own ran
  have book : TokenBook past h := by simpa using (tokenBook_of_assemble assembled).run opened own ran
  refine ⟨book.ascending, book.once, fun token mem => (book.spent token mem).2, fun q drew => ?_,
    fun c s label g known => Scenario.Holding.disarmed c known⟩
  refine ⟨book.has_iff drew, fun m mem ends => ?_, fun held => book.endsOwnOnly reachable held drew,
    fun c s signal same unrouted => Act.unsubscribe_unrouted (same ▸ unrouted) q.token,
    fun i signal steps k ownSteps drops => ?_⟩
  · obtain ⟨among, reached, made⟩ := of_mem_trail (P := Reachable settings plans)
      (fun l mem _ _ before made => before.step (own l mem) made) opened m mem
    exact ends.cause reached.sound (own _ among) made
  · obtain ⟨inTime, late⟩ := drops.cases
    refine ⟨fun held => ?_, late⟩
    obtain ⟨before, rest, after, g, u, es, es', es'', a, rfl, waited, fin, left⟩ := inTime held
    have ownBefore : ∀ l ∈ HubLabel.move .clone :: before, l.IsOwn := by
      intro l mem
      refine ownSteps l ?_
      rcases List.mem_cons.1 mem with rfl | mem
      · exact List.mem_cons_self
      · exact List.mem_cons_of_mem _ (List.mem_append_left _ (List.mem_append_left _ mem))
    have reached := reachable.run ownBefore waited
    have drew' : q ∈ drawn (past ++ trail Hub.step (.move .clone :: before) h) := by
      rw [drawn, List.filterMap_append]
      exact List.mem_append_left _ drew
    have good := (book.run reachable ownBefore waited).endsOwnOnly reached fin.isHeld drew'
    exact ⟨before, rest, after, g, u, es, es', es'', a, rfl, waited, good, fin, left⟩

namespace Hub

/-- Two subscribe, each to a lamp of its own. The first one's token does nothing to the second lamp, and ends the
subscription to the first. -/
theorem lamp_token_ends_its_own :
    ∃ h es f, run Hub.step (Lamp.subscription ++ Lamp.twinSubscription) Lamp.twins = some (h, es) ∧
      returned (trail Hub.step (Lamp.subscription ++ Lamp.twinSubscription) Lamp.twins) = [⟨1⟩, ⟨2⟩] ∧
      h.feeds[0]? = some f ∧ h.EndsOne 0 f Lamp.key.id ⟨1⟩ ∧ h.Ignores Lamp.twinKey.id ⟨1⟩ := by
  have assembled : assemble {} [Lamp.plan, Lamp.twin] = .ok Lamp.twins := rfl
  have own : ∀ l ∈ Lamp.subscription ++ Lamp.twinSubscription, l.IsOwn := by
    simp [Lamp.subscription, Lamp.twinSubscription, HubLabel.IsOwn]
  obtain ⟨h, es, f, f', ran, drew, tokens, held, routes, routes', there, there', free, free', listed⟩ : ∃ h es f f',
      run Hub.step (Lamp.subscription ++ Lamp.twinSubscription) Lamp.twins = some (h, es) ∧
      drawn (trail Hub.step (Lamp.subscription ++ Lamp.twinSubscription) Lamp.twins) =
        [⟨⟨1⟩, Lamp.key, ()⟩, ⟨⟨2⟩, Lamp.twinKey, ()⟩] ∧
      returned (trail Hub.step (Lamp.subscription ++ Lamp.twinSubscription) Lamp.twins) = [⟨1⟩, ⟨2⟩] ∧
      h.life = .held 1 ∧ h.feedOf? Lamp.key.id = some 0 ∧ h.feedOf? Lamp.twinKey.id = some 1 ∧ h.feeds[0]? = some f ∧
      h.feeds[1]? = some f' ∧ f.holder = none ∧ f'.holder = none ∧ h.subscribersOf 0 Lamp.key.id = [(⟨1⟩, ())] :=
    ⟨_, _, _, _, rfl, rfl, rfl, rfl, rfl, rfl, rfl, rfl, rfl, rfl, rfl⟩
  obtain ⟨-, -, -, each, -⟩ := Session.token_ends_its_own assembled own ran
  obtain ⟨-, -, ends, -⟩ := each ⟨⟨1⟩, Lamp.key, ()⟩ (drew ▸ List.mem_cons_self)
  obtain ⟨g, at', -, own, -⟩ := (ends ⟨1, held⟩ Lamp.key.id).2 0 routes
  obtain ⟨g', at'', -, -, other⟩ := (ends ⟨1, held⟩ Lamp.twinKey.id).2 1 routes'
  obtain rfl := Option.some.inj (there.symm.trans at')
  obtain rfl := Option.some.inj (there'.symm.trans at'')
  refine ⟨h, es, f, ran, tokens, there, own free ⟨rfl, 0, ?_⟩, other free' fun both => absurd both.1 (by decide)⟩
  exact listed ▸ List.mem_singleton_self _

/-- **A guard that is dropped too late ends nothing.** The last handle on a hub over two lamps is gone, and while the
provider of the first lamp ends its registration the guard of the subscription to the second one is dropped. The
subscription is there, to the guard's own signal, and nobody holds the state lock of its feed; and there it stays. -/
theorem late_guard_ends_nothing :
    assemble {} [Lamp.plan, Lamp.twin] = .ok Lamp.twins ∧
      ∃ h past f, run Hub.step (Lamp.subscription ++ Lamp.twinSubscription ++ Lamp.closing) Lamp.twins = some (h, past) ∧
        ⟨2⟩ ∈ returned (trail Hub.step (Lamp.subscription ++ Lamp.twinSubscription ++ Lamp.closing) Lamp.twins) ∧
        h.feeds[1]? = some f ∧ f.holder = none ∧ (⟨2⟩, ()) ∈ h.subscribersOf 1 Lamp.twinKey.id ∧
        DropsGuard 1 Lamp.twinKey.id ⟨2⟩ h [] h ∧
        ∀ steps k, DropsGuard 1 Lamp.twinKey.id ⟨2⟩ h steps k → (⟨2⟩, ()) ∈ k.subscribersOf 1 Lamp.twinKey.id := by
  obtain ⟨h, past, f, ran, tokens, there, free, listed, refused, unheld⟩ : ∃ h past f,
      run Hub.step (Lamp.subscription ++ Lamp.twinSubscription ++ Lamp.closing) Lamp.twins = some (h, past) ∧
      returned (trail Hub.step (Lamp.subscription ++ Lamp.twinSubscription ++ Lamp.closing) Lamp.twins) = [⟨1⟩, ⟨2⟩] ∧
      h.feeds[1]? = some f ∧ f.holder = none ∧ h.subscribersOf 1 Lamp.twinKey.id = [(⟨2⟩, ())] ∧
      h.step (.move .clone) = none ∧ h.handles = 0 := ⟨_, _, _, rfl, rfl, rfl, rfl, rfl, rfl, rfl⟩
  have there' : (⟨2⟩, ()) ∈ h.subscribersOf 1 Lamp.twinKey.id := listed ▸ List.mem_singleton_self _
  refine ⟨rfl, h, past, f, ran, tokens ▸ List.mem_cons_of_mem _ List.mem_cons_self, there, free, there', .late refused, fun steps k drops => ?_⟩
  obtain ⟨-, rfl⟩ := drops.cases.2 unheld
  exact there'

end Hub

end LazyHub
