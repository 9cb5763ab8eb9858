import LazyHub.Proofs.Hub.Activation
import LazyHub.Proofs.Hub.Sparing

/-!
# Panics are contained

What is proved of panics, put together (`Hub.panics_are_contained`). It holds of every run and of every choice of the
calls that panic in it. A hub that catches panics is not affected by them at all; in one that does not, a panic takes
away one worker, and nothing else.
-/

namespace LazyHub

variable {V H R : Type} [SignalValue V]

namespace Hub

/-- Each worker that panics end has its panic in the history. -/
theorem exists_panic {h k : Hub V H R} {labels : List (HubLabel V H R)} {es : List (HubEffect V H)} {w : Nat}
    (ran : run Hub.step labels h = some (k, es)) (mem : w ∈ panicked labels) :
    ∃ first m after, trail Hub.step labels h = first ++ m :: after ∧ m.label.panic? = some w := by
  obtain ⟨l, among, panics⟩ := List.mem_filterMap.1 mem
  rw [← map_label_trail ran] at among
  obtain ⟨m, within, rfl⟩ := List.mem_map.1 among
  obtain ⟨first, after, split⟩ := List.append_of_mem within
  exact ⟨first, m, after, split, panics⟩

/-- **Panics are contained.** In every run of a hub, whichever calls panic, and whatever else happens in the meantime:

* if panics are caught, the run is the same as the one in which these calls return, except that for each of them there
  is one error in the journal, which names it, and no other error; and any other calls might panic instead;
* if they are not caught, a panic ends its worker for good (`EndsWorker`): of those who were subscribed when the
  worker's delivery began it has called the ones up to the one that panicked, it calls nobody any more, what waits for
  it is lost, and what is posted to it is dropped;
* then a flush is over all the same, after at most so many steps of its own and of the workers, unless others come in
  between, and whichever calls panic in these steps;
* there is a run in which these calls return, and in which those who were left out are called, and what was dropped
  is delivered, to no effect; every such run agrees with the one in which the calls panic, in the hub that it comes to
  and in all that it does, except for the queues of the workers that have ended, and for what they call (`Agree`). -/
theorem panics_are_contained {settings : Settings} {plans : List (FeedPlan V)} {start h : Hub V H R}
    {labels : List (HubLabel V H R)} {es : List (HubEffect V H)} (assembled : assemble settings plans = .ok start)
    (own : ∀ l ∈ labels, l.IsOwn) (ran : run Hub.step labels start = some (h, es)) :
    let past := trail Hub.step labels start
    (settings.catches = true →
      run Hub.step (labels.map HubLabel.calm) start = some (h, quiet es) ∧
      alarms es = (past.filterMap fun m => m.before.alarm? m.label) ∧
      ∀ others : List (HubLabel V H R), others.map HubLabel.calm = labels.map HubLabel.calm →
        ∃ es', run Hub.step others start = some (h, es') ∧ quiet es' = quiet es) ∧
    (settings.catches = false →
      (∀ first m after w, past = first ++ m :: after → m.label.panic? = some w → EndsWorker w first m after h) ∧
      (∀ number f, h.pool.flush? number = some f → ∀ more k later, (∀ l ∈ more, Furthers number l) →
        run Hub.step more h = some (k, later) → more.length ≤ h.flushWork number ∧
          ((∃ r, k.step (.move (.resolve number)) = some r ∧ r.state.pool.flush? number = none) ∨
            ∃ l r, Furthers number l ∧ k.step l = some r)) ∧
      (∃ spared k es', Spares [] labels spared ∧ (∀ l ∈ spared, l.IsOwn) ∧ run Hub.step spared start = some (k, es') ∧
        AreDone (panicked labels) k.pool) ∧
      ∀ spared k es', Spares [] labels spared → run Hub.step spared start = some (k, es') →
        Agree (panicked labels) past (trail Hub.step spared start) h k) := by
  intro past
  have opened := Reachable.assembled assembled
  have catches := opened.staffed.catches
  have orderly := opened.pool_isOrderly
  refine ⟨fun caught => ?_, fun uncaught => ?_⟩
  · have catches := catches.trans caught
    refine ⟨?_, alarms_of_run catches ran, fun others same => run_of_calm catches ran same⟩
    rw [run_calm catches, ran]
    rfl
  · have uncaught' := catches.trans uncaught
    have alike := WorkerPool.Outlives.refl start.pool
    refine ⟨fun first m after w split panics => endsWorker_of_run assembled uncaught ran split panics, ?_, ?_, ?_⟩
    · intro number f known more k later further onward
      have reached := (opened.run own ran).pool_isOrderly
      obtain ⟨bound, g, known'⟩ := flushWork_of_run further known onward
      exact ⟨by omega, flush_goes_on (isOrderly_of_run reached onward) known'⟩
    · obtain ⟨spared, q, es', spares, ran', done⟩ := exists_spares uncaught' orderly alike orderly nofun ran
      exact ⟨spared, h.withPool q, es', spares, spares.isOwn own, ran', done⟩
    · intro spared k es' spares ran'
      exact spares.agree uncaught' orderly alike orderly ran ran'

end Hub

/-! ### The lamp -/

namespace Lamp

/-- A hub over one lamp that does not catch panics. -/
def careless : Hub Value Unit Unit := { feeds := [.ofPlan plan], pool := .ofSize 1 false }

/-- Two subscribe to the lamp. It is switched off and on again by one push, and the first of them panics when told that
it went dark. -/
def fright : List (HubLabel Value Unit Unit) :=
  subscription ++ [.move (.draw key ()), .move (.subscribe ⟨2⟩), .invoke 0 1 (),
    .move (.advance 0 (.pushDecoded 0 (.ok ⟨[emission false, emission true]⟩))), .move (.advance 0 (.enter 0)),
    .move (.advance 0 .write), .move (.advance 0 .look), .move (.advance 0 .post),
    .move (.advance 0 .write), .move (.advance 0 .look), .move (.advance 0 .post),
    .move (.advance 0 .settle), .move (.take 0), .move (.call 0), .move (.returned 0 true)]

end Lamp

namespace Hub

/-- If panics are caught, both are still to be told that the lamp shines again, and the first panic is in the journal. If
they are not, the worker has ended; and had the first one not panicked and the second one done nothing, the lamp's feed
would be the same. -/
theorem lamp_fright_is_contained :
    (∃ h es, run Hub.step Lamp.fright Lamp.hub = some (h, es) ∧ h.pool.queue 0 = [.job Lamp.key.id ⟨0, .truth true⟩] ∧
      alarms es = [.subscriberPanicked ⟨1⟩ Lamp.key.id]) ∧
    ∃ h es, run Hub.step Lamp.fright Lamp.careless = some (h, es) ∧ h.HasEnded 0 ∧
      receivedBy ⟨1⟩ es = [.truth false] ∧ receivedBy ⟨2⟩ es = [] ∧
      ∃ spared k es', run Hub.step spared Lamp.careless = some (k, es') ∧ k.feeds = h.feeds ∧ k.pool.queue 0 = [] ∧
        k.pool.isServing 0 = true := by
  have own : ∀ l ∈ Lamp.fright, l.IsOwn := by simp [Lamp.fright, Lamp.subscription, HubLabel.IsOwn]
  constructor
  · obtain ⟨h, es, ran, waits, panics⟩ : ∃ h es, run Hub.step Lamp.fright Lamp.hub = some (h, es) ∧
        h.pool.queue 0 = [.job Lamp.key.id ⟨0, .truth true⟩] ∧
        (trail Hub.step Lamp.fright Lamp.hub).filterMap (fun m => m.before.alarm? m.label) =
          [.subscriberPanicked ⟨1⟩ Lamp.key.id] := ⟨_, _, rfl, rfl, rfl⟩
    have assembled : assemble {} [Lamp.plan] = .ok Lamp.hub := rfl
    obtain ⟨-, errors, -⟩ := (panics_are_contained assembled own ran).1 rfl
    exact ⟨h, es, ran, waits, errors.trans panics⟩
  · obtain ⟨h, es, ran, first, second, mem⟩ : ∃ h es, run Hub.step Lamp.fright Lamp.careless = some (h, es) ∧
        receivedBy ⟨1⟩ es = [.truth false] ∧ receivedBy ⟨2⟩ es = [] ∧ panicked Lamp.fright = [0] :=
      ⟨_, _, rfl, rfl, rfl, rfl⟩
    have assembled : assemble { catches := false } [Lamp.plan] = .ok Lamp.careless := rfl
    obtain ⟨ends, -, ⟨spared, k, es', spares, -, ran', done⟩, agree⟩ := (panics_are_contained assembled own ran).2 rfl
    have agree := agree spared k es' spares ran'
    have here : 0 ∈ panicked Lamp.fright := mem ▸ List.mem_singleton_self 0
    obtain ⟨before, m, after, split, panics⟩ := exists_panic ran here
    refine ⟨h, es, ran, (ends before m after 0 split panics).forGood, first, second, spared, k, es', ran', ?_,
      (done 0 here).1, agree.pool.on 0 here⟩
    rw [agree.state]
    rfl

end Hub

end LazyHub
