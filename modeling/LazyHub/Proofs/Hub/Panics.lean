import LazyHub.Proofs.Hub.Workers

/-!
# Panics that are caught

A hub that catches panics goes on as if the subscriber had returned (`Hub.run_calm`). All that is left of a panic is
one alarm, an entry that is an error, which names the call that panicked; and there are no other alarms
(`Hub.alarms_of_run`). Hence which of the calls panic makes no difference to anything else (`Hub.run_of_calm`).
-/

namespace LazyHub

variable {V H R : Type}

/-- The entry that an effect is, if it is an error. -/
def HubEffect.alarm? : HubEffect V H → Option Entry
  | .noted entry => if entry.severity = .error then some entry else none
  | _ => none

/-- The alarms among some effects. -/
def alarms (es : List (HubEffect V H)) : List Entry := es.filterMap HubEffect.alarm?

/-- What else there is among some effects. -/
def quiet (es : List (HubEffect V H)) : List (HubEffect V H) := es.filter (·.alarm?.isNone)

/-- The step in which the subscriber called returns where it panics. -/
def HubLabel.calm : HubLabel V H R → HubLabel V H R
  | .move (.returned w _) => .move (.returned w false)
  | l => l

theorem quiet_append (xs ys : List (HubEffect V H)) : quiet (xs ++ ys) = quiet xs ++ quiet ys := List.filter_append ..

theorem quiet_eq_self {es : List (HubEffect V H)} (none : alarms es = []) : quiet es = es :=
  List.filter_eq_self.2 fun e mem => by rw [List.filterMap_eq_nil_iff.1 none e mem, Option.isNone_none]

/-- No step of a feed raises an alarm. -/
theorem Feed.Transition.severity_ne [SignalValue V] {f : Feed V H R} {l : FeedLabel V H R} {r : Feed.Result V H R}
    (t : f.Transition l r) {entry : Entry} (noted : .noted entry ∈ r.effects) : entry.severity ≠ .error := by
  have none_of : ∀ {cond : Prop} [Decidable cond] {e : FeedEffect V}, .noted entry ∈ (if cond then [e] else []) →
      .noted entry = e := by
    intro cond _ e mem
    split at mem
    · exact List.mem_singleton.1 mem
    · cases mem
  cases t with
  | subscribed | activated | pushStale =>
    obtain ⟨⟩ := List.mem_singleton.1 noted
    nofun
  | @unregistered _ _ answer =>
    obtain ⟨⟩ := List.mem_singleton.1 noted
    cases answer <;> nofun
  | cleared | clearedInactive =>
    obtain ⟨⟩ := none_of noted
    nofun
  | pushRefused =>
    rcases List.mem_cons.1 noted with eq | released
    · cases eq
      nofun
    · cases List.mem_singleton.1 released
  | activate | refresh | subscribe | invokeUnowned | decodeFailed | decoded | post | settle | withdraw | pushDecoded
  | retire | dropLast => cases List.mem_singleton.1 noted
  | _ => cases noted

namespace Hub

/-- The alarm that a step raises if panics are caught: that of the call that panics. -/
def alarm? (h : Hub V H R) : HubLabel V H R → Option Entry
  | .move (.returned w true) =>
    (h.pool.current? w).bind fun d => d.calling.map fun e => .subscriberPanicked e.1 d.signal
  | _ => none

theorem alarms_absorbAll {h : Hub V H R} {i : Nat} {es : List (FeedEffect V)}
    (calm : ∀ entry, .noted entry ∈ es → entry.severity ≠ .error) : alarms (h.absorbAll i es).2 = [] := by
  induction es generalizing h with
  | nil => rfl
  | cons e rest ih =>
    have first : alarms (h.absorb i e).2 = [] := by
      cases e with
      | asked | released => rfl
      | noted entry => simp [absorb, alarms, HubEffect.alarm?, calm entry List.mem_cons_self]
      | owed signal value =>
        dsimp only [absorb]
        split <;> rfl
    have later := ih (h := (h.absorb i e).1) fun entry mem => calm entry (List.mem_cons_of_mem _ mem)
    have both : alarms ((h.absorb i e).2 ++ ((h.absorb i e).1.absorbAll i rest).2) = [] := by
      rw [alarms, List.filterMap_append, ← alarms, ← alarms, first, later, List.append_nil]
    exact both

variable [SignalValue V] {h k : Hub V H R} {l : HubLabel V H R} {r : Result V H R} {labels : List (HubLabel V H R)}
  {es : List (HubEffect V H)}

/-- **A step raises the alarm of the call that panics in it**, and no other. -/
theorem Transition.alarms_eq (t : h.Transition l r) (catches : h.pool.catches = true) :
    alarms r.effects = (h.alarm? l).toList := by
  cases t with
  | @feed l i fl g f fr serves there made =>
    have none : h.alarm? l = none := by cases serves <;> rfl
    rw [none]
    exact alarms_absorbAll fun entry => (Feed.transition_of_step made).severity_ne
  | @returned w panicked signal value rest token handler doing caught =>
    cases panicked with
    | false => rfl
    | true => simp [alarms, HubEffect.alarm?, alarm?, doing, Entry.severity]
  | collapsed doing uncaught => cases catches.symm.trans uncaught
  | _ => rfl

/-- **A panic that is caught leaves nothing but its alarm**: the step is as if the subscriber had returned. -/
theorem step_calm (catches : h.pool.catches = true) (l : HubLabel V H R) :
    h.step l.calm = (h.step l).map fun r => { r with effects := quiet r.effects } := by
  have same : h.alarm? l = none → h.step l = (h.step l).map fun r => { r with effects := quiet r.effects } := by
    intro calm
    cases made : h.step l with
    | none => rfl
    | some r =>
      have silent := (transition_of_step made).alarms_eq catches
      rw [calm, Option.toList_none] at silent
      rw [Option.map_some, quiet_eq_self silent]
  unfold HubLabel.calm
  split
  · rename_i w panicked
    cases panicked with
    | false => exact same rfl
    | true =>
      simp only [step, act, callReturned, catches]
      split
      · rfl
      · rfl
  · rename_i other
    refine same ?_
    unfold alarm?
    split
    · exact absurd rfl (other _ _)
    · rfl

/-- **A run in which panics are caught is the run in which all calls return**, and its alarms. -/
theorem run_calm (catches : h.pool.catches = true) (labels : List (HubLabel V H R)) :
    run Hub.step (labels.map HubLabel.calm) h = (run Hub.step labels h).map fun p => (p.1, quiet p.2) := by
  induction labels generalizing h with
  | nil => rfl
  | cons l rest ih =>
    rw [List.map_cons, run, run, step_calm catches]
    cases made : h.step l with
    | none => rfl
    | some r =>
      have onward := ih (h := r.state) ((transition_of_step made).staff.2.trans catches)
      simp only [Option.map_some, onward, Option.map_map]
      congr 1
      funext p
      simp [quiet_append]

/-- **The alarms of a run** are those of the calls that panic, in order. -/
theorem alarms_of_run (catches : h.pool.catches = true) (ran : run Hub.step labels h = some (k, es)) :
    alarms es = (trail Hub.step labels h).filterMap fun m => m.before.alarm? m.label := by
  induction labels generalizing h es with
  | nil =>
    cases ran
    rfl
  | cons l rest ih =>
    obtain ⟨r, later, made, onward, rfl⟩ := run_cons.1 ran
    have t := transition_of_step made
    rw [trail_cons made, alarms, List.filterMap_append, ← alarms, ← alarms, t.alarms_eq catches,
      ih (t.staff.2.trans catches) onward, List.filterMap_cons]
    cases h.alarm? l <;> rfl

/-- **It makes no difference which calls panic**, where panics are caught. -/
theorem run_of_calm {others : List (HubLabel V H R)} (catches : h.pool.catches = true)
    (ran : run Hub.step labels h = some (k, es)) (same : others.map HubLabel.calm = labels.map HubLabel.calm) :
    ∃ es', run Hub.step others h = some (k, es') ∧ quiet es' = quiet es := by
  have calm := run_calm catches others
  rw [same, run_calm catches, ran, Option.map_some, eq_comm, Option.map_eq_some_iff] at calm
  obtain ⟨⟨k', es'⟩, ran', eq⟩ := calm
  obtain ⟨rfl, quiet⟩ := Prod.mk.inj eq
  exact ⟨es', ran', quiet⟩

end Hub

end LazyHub
