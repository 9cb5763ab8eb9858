import LazyHub.Proofs.Hub.Transition
import LazyHub.World

/-!
# A world's hub

What a hub does over in-process providers is what it does over some providers. Whatever a step of
a world does to the providers, its hub makes one step or none (`World.hub_of_step`), and so the hub
of a world that runs makes a run itself (`World.hub_of_run`): what holds of every run of a hub holds
in every world.
-/

namespace LazyHub

variable {V H R : Type}

/-- The steps of a world that can be made where nobody but the hub holds a feed. -/
def WorldLabel.IsOwn : WorldLabel V H R → Prop
  | .use .. => False
  | _ => True

namespace World

@[simp] theorem takeBack_hub (w : World V H R) (es : List (HubEffect V H)) : (w.takeBack es).hub = w.hub := by
  induction es generalizing w with
  | nil => rfl
  | cons e rest ih =>
    cases e with
    | released feed => exact ih _
    | _ => exact ih w

/-- A hub that is assembled over providers has them as they were. -/
theorem eq_of_assembleOver {settings : Settings} {plans : List (FeedPlan V × LocalProvider R Nat)} {w : World V H R}
    (assembled : assembleOver settings plans = .ok w) :
    Hub.assemble settings (plans.map (·.1)) = .ok w.hub ∧ w.sources = plans.map fun p => { provider := p.2 } := by
  unfold assembleOver at assembled
  cases made : (Hub.assemble settings (plans.map (·.1)) : Except HubFailure (Hub V H R)) with
  | error failure => simp [made, Except.map] at assembled
  | ok hub =>
    simp only [made, Except.map, Except.ok.injEq] at assembled
    rw [← assembled]
    exact ⟨rfl, rfl⟩

theorem hub_of_assemble {settings : Settings} {plans : List (FeedPlan V × R)} {w : World V H R}
    (assembled : assemble settings plans = .ok w) :
    Hub.assemble settings (plans.map (·.1)) = .ok w.hub := by
  simpa [Function.comp_def] using (eq_of_assembleOver assembled).1

variable [SignalValue V]

theorem hub_of_onHub {w : World V H R} {l : HubLabel V H R} {r : Result V H R} (step : w.onHub l = some r)
    (own : l.IsOwn) :
    ∃ labels, (∀ l ∈ labels, l.IsOwn) ∧ run Hub.step labels w.hub = some (r.state.hub, r.effects) := by
  obtain ⟨hr, made, rfl⟩ := Option.map_eq_some_iff.1 step
  rw [takeBack_hub]
  exact ⟨[l], by simpa using own, run_singleton made⟩

theorem hub_of_invokeCallback {w : World V H R} {feed : Nat} {payload : R} {r : Result V H R}
    (step : w.invokeCallback feed payload = some r) :
    ∃ labels, (∀ l ∈ labels, l.IsOwn) ∧ run Hub.step labels w.hub = some (r.state.hub, r.effects) := by
  unfold invokeCallback at step
  split at step
  · exact (hub_of_onHub step trivial :)
  · cases step
    exact ⟨[], nofun, rfl⟩

/-- A step of a world is a step of its hub, or none. -/
theorem hub_of_step {w : World V H R} {l : WorldLabel V H R} {r : Result V H R}
    (step : w.step l = some r) (own : l.IsOwn) :
    ∃ labels, (∀ l ∈ labels, l.IsOwn) ∧ run Hub.step labels w.hub = some (r.state.hub, r.effects) := by
  cases l with
  | move m => exact (hub_of_onHub step trivial :)
  | use feed u => exact own.elim
  | query feed =>
    simp only [World.step] at step
    split at step
    · exact (hub_of_onHub step trivial :)
    · cases step
  | register feed =>
    simp only [World.step] at step
    split at step
    · cases step
      exact ⟨[], nofun, rfl⟩
    · cases step
  | registered feed =>
    simp only [World.step] at step
    split at step
    · exact (hub_of_onHub step trivial :)
    · cases step
  | unregister feed thread =>
    simp only [World.step] at step
    split at step
    · exact (hub_of_onHub step trivial :)
    · cases step
  | push feed payload => exact hub_of_invokeCallback (w := w.modifyProvider feed (·.set payload)) step
  | announce feed payload => exact hub_of_invokeCallback step
  | set feed payload | refuse feed call message =>
    cases step
    exact ⟨[], nofun, rfl⟩

/-- **A run of a world is a run of its hub**, with the same effects. -/
theorem hub_of_run {w v : World V H R} {labels : List (WorldLabel V H R)} {es : List (HubEffect V H)}
    (ran : run World.step labels w = some (v, es)) (own : ∀ l ∈ labels, l.IsOwn) :
    ∃ labels, (∀ l ∈ labels, l.IsOwn) ∧ run Hub.step labels w.hub = some (v.hub, es) := by
  induction labels generalizing w es with
  | nil =>
    cases ran
    exact ⟨[], nofun, rfl⟩
  | cons l rest ih =>
    obtain ⟨r, later, made, onward, rfl⟩ := run_cons.1 ran
    obtain ⟨first, ownFirst, ranFirst⟩ := hub_of_step made (own l List.mem_cons_self)
    obtain ⟨second, ownSecond, ranSecond⟩ := ih onward fun l hl => own l (List.mem_cons_of_mem _ hl)
    refine ⟨first ++ second, fun l hl => ?_, run_append.2 ⟨_, _, _, ranFirst, ranSecond, rfl⟩⟩
    rcases List.mem_append.1 hl with hl | hl
    · exact ownFirst l hl
    · exact ownSecond l hl

end World

end LazyHub
