import LazyHub.Proofs.Hub.Unsubscribing
import LazyHub.Proofs.Session.Mirrors

/-!
# Worlds that go on alike

A world that has been in use *goes on like* one that has not (`World.GoesOnLike`) if whatever can be done in the one can be
done in the other by later numbers, step for step, with the same answers, calls to providers and subscribers, and states.
Only ends of subscriptions from before are done in the one alone, and they change nothing. That is so of every world in
later days in which tokens from before have lapsed (`World.goesOnLike_later`), whoever is at work in it and in whatever order.
-/

namespace LazyHub

variable {V H R : Type} [SignalValue V] {b : Bygones}

/-- A step of a world in later days. -/
def Moment.later (b : Bygones) :
    Moment (World V H R) (WorldLabel V H R) (HubEffect V H) → Moment (World V H R) (WorldLabel V H R) (HubEffect V H) :=
  .map (·.later b) (·.later b) (·.later b)

namespace World

/-- **A world `v` goes on like a world `u`**, but for numbers and for ends of subscriptions from before. -/
structure GoesOnLike (b : Bygones) (u v : World V H R) : Prop where
  /-- What is done in `u` can be done in `v` by later numbers. -/
  onward : ∀ {labels w es}, run World.step labels u = some (w, es) →
    run World.step (labels.map (·.later b)) v = some (w.later b, es.map (·.later b)) ∧
      trail World.step (labels.map (·.later b)) v = (trail World.step labels u).map (.later b)
  /-- What is done in `v` by later numbers can be done in `u`. -/
  back : ∀ {labels w es}, (∀ l ∈ labels, l.IsOwn) → run World.step labels v = some (w, es) →
    ∃ labels' w' es', run World.step labels' u = some (w', es') ∧ w = w'.later b ∧ es = es'.map (·.later b) ∧
      (trail World.step labels v).filter (!·.label.looksBack b) = (trail World.step labels' u).map (.later b)
  /-- Ends of subscriptions from before change nothing. -/
  vain : ∀ {labels w es}, (∀ l ∈ labels, l.IsOwn) → run World.step labels v = some (w, es) →
    ∀ m ∈ trail World.step labels v, m.label.looksBack b = true → m.after = { state := m.before, answer := some .unknownToken }

variable {settings : Settings} {plans : List (FeedPlan V)} {u w : World V H R} {l : WorldLabel V H R} {r : Result V H R}
  {labels : List (WorldLabel V H R)} {es : List (HubEffect V H)}

/-- Tokens from before have lapsed, in a hub that has come to be what it is step by step. -/
structure Outlives (settings : Settings) (plans : List (FeedPlan V)) (b : Bygones) (w : World V H R) : Prop where
  /-- The hub has come to be what it is step by step. -/
  reachable : Hub.Reachable settings plans w.hub
  /-- Tokens from before have lapsed. -/
  lapsed : ∀ token : Token, token.serial ≤ b.tokens → w.hub.Lapsed token

theorem Outlives.step (outlives : w.Outlives settings plans b) (own : l.IsOwn) (made : w.step l = some r) :
    r.state.Outlives settings plans b := by
  have comes : w.Comes r.state := .step own made
  exact ⟨comes.reachable outlives.reachable, fun token old => comes.lapsed (outlives.lapsed token old)⟩

/-- The end of a subscription from before changes nothing. -/
theorem Outlives.ignores (outlives : w.Outlives settings plans b) (made : w.step l = some r) (old : l.looksBack b = true) :
    r = { state := w, answer := some .unknownToken } := by
  cases l with
  | move m =>
    cases m with
    | unsubscribe signal token =>
      have ignores : w.hub.Ignores signal token := by
        obtain ⟨r', made, -⟩ := Option.map_eq_some_iff.1 made
        obtain ⟨i, f, routes, there, free⟩ := Hub.feed_of_unsubscribe made
        have unlisted := (outlives.lapsed token (of_decide_eq_true old)).unlisted i signal
        cases Hub.transition_of_step made with
        | feed serves =>
          cases serves with
          | unsubscribe held => exact outlives.reachable.ignores held routes there free unlisted
      have vain : w.step (.move (.unsubscribe signal token)) = some { state := w, answer := some .unknownToken } :=
        congrArg (Option.map _) ignores
      exact Option.some.inj (made.symm.trans vain)
    | _ => cases old
  | _ => cases old

/-- What is done in later days is done by later numbers, but for ends of subscriptions from before. -/
theorem exists_run_of_later (past : b.AreOver) (outlives : (u.later b).Outlives settings plans b) (own : ∀ l ∈ labels, l.IsOwn)
    (ran : run World.step labels (u.later b) = some (w, es)) :
    ∃ labels' w' es', run World.step labels' u = some (w', es') ∧ w = w'.later b ∧ es = es'.map (·.later b) ∧
      (trail World.step labels (u.later b)).filter (!·.label.looksBack b) = (trail World.step labels' u).map (.later b) := by
  induction labels generalizing u es with
  | nil =>
    cases ran
    exact ⟨[], u, [], rfl, rfl, rfl, rfl⟩
  | cons l rest ih =>
    obtain ⟨r, later, made, onward, rfl⟩ := run_cons.1 ran
    obtain ⟨lets, ownRest⟩ := List.forall_mem_cons.1 own
    rw [trail_cons made]
    -- the end of a subscription from before is left out, and every other step is one by later numbers
    cases old : l.looksBack b with
    | true =>
      obtain rfl := outlives.ignores made old
      obtain ⟨labels', w', es', ran', final, said, seen⟩ := ih outlives ownRest onward
      refine ⟨labels', w', es', ran', final, said, ?_⟩
      rw [List.filter_cons_of_neg (by simp [old])]
      exact seen
    | false =>
      have stays := outlives.step lets made
      obtain ⟨l', rfl⟩ := WorldLabel.exists_later made old
      obtain ⟨r', made', rfl⟩ := Option.map_eq_some_iff.1 ((step_later u past l').symm.trans made)
      obtain ⟨labels', w', es', ran', final, rfl, seen⟩ := ih stays ownRest onward
      refine ⟨l' :: labels', w', _, run_cons.2 ⟨r', es', made', ran', rfl⟩, final, List.map_append.symm, ?_⟩
      rw [List.filter_cons_of_pos (by simp [old]), trail_cons made', List.map_cons]
      exact congrArg _ seen

/-- **A world in later days goes on like the one it was**, if tokens from before have lapsed. -/
theorem goesOnLike_later (past : b.AreOver) (outlives : (u.later b).Outlives settings plans b) : GoesOnLike b u (u.later b) where
  onward := run_map (step_later · past)
  back := exists_run_of_later past outlives
  vain own ran m mem old := by
    obtain ⟨-, outlives, made⟩ := of_mem_trail (P := fun w => w.Outlives settings plans b)
      (fun l mem _ _ outlives made => outlives.step (own l mem) made) outlives m mem
    exact outlives.ignores made old

end World

end LazyHub
