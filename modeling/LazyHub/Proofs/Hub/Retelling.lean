import LazyHub.Proofs.Feed.Ledger
import LazyHub.Proofs.Hub.Renumbering
import LazyHub.Proofs.Hub.Sound
import Mathlib.Data.Set.Finite.Basic

/-!
# The same story by other numbers

Two hubs that differ in the numbers of tokens and epochs alone have the same histories. `Hub.Told` is a step
told by other numbers, and `Hub.Retells` a history told by other numbers, step by step.

What a hub does can be retold (`Continues.retells`), and whatever is told by other numbers is what the hub
does (`Continues.recalls`), as long as the numbering goes on from where the hub has come to
(`Hub.Continues`). The only thing that can be said by the other numbers alone is that a subscription is to end
whose token nobody has (`Recalls.unknown`); the hub answers the same to that, whatever the token.
-/

namespace LazyHub

variable {V H R : Type}

namespace Hub

/-- **Two hubs look the same**, but for the tokens' numbers: they have the same caches and subscribers, their feeds
have the same registrations and count as many subscriptions, and the same is queued and being delivered. -/
structure Resembles (τ : ℕ ↪o ℕ) (h k : Hub V H R) : Prop where
  /-- The outlets, with their caches and their subscribers. -/
  outlets : k.outlets = h.outlets.map fun x => (x.1, x.2.1, x.2.2.renumber τ)
  /-- The registrations of the feeds. -/
  registrations : k.feeds.map (·.registration) = h.feeds.map (·.registration)
  /-- The subscriptions that are counted. -/
  counts : k.feeds.map (·.subscriptionCount) = h.feeds.map (·.subscriptionCount)
  /-- The workers and their queues. -/
  pool : k.pool = h.pool.mapCurrent (·.renumber τ)

/-- A step is called the same by other numbers; so are two calls to end a subscription whose tokens are
unknown. -/
inductive Recalls (τ : ℕ ↪o ℕ) (δ : ℕ → ℕ ↪o ℕ) : HubLabel V H R → HubLabel V H R → Prop where
  /-- By other numbers. -/
  | renumbered (l : HubLabel V H R) : Recalls τ δ l (l.renumber τ δ)
  /-- A token that nobody has. -/
  | unknown {signal : SignalId} {token token' : Token} (nobodys : ∀ t : Token, t.renumber τ ≠ token') :
      Recalls τ δ (.move (.unsubscribe signal token)) (.move (.unsubscribe signal token'))

/-- **A step is told by other numbers.** -/
structure Told (τ : ℕ ↪o ℕ) (δ : ℕ → ℕ ↪o ℕ) (m m' : Moment (Hub V H R) (HubLabel V H R) (HubEffect V H)) : Prop where
  /-- It is the same step. -/
  label : Recalls τ δ m.label m'.label
  /-- It has the same effects. -/
  effects : m'.after.effects = m.after.effects.map (·.renumber τ δ)
  /-- It has the same answer. -/
  answer : m'.after.answer = m.after.answer
  /-- It leads to what looks the same. -/
  state : Resembles τ m.after.state m'.after.state

/-- **A history is told by other numbers**, step by step. -/
def Retells (τ : ℕ ↪o ℕ) (δ : ℕ → ℕ ↪o ℕ) :
    List (Moment (Hub V H R) (HubLabel V H R) (HubEffect V H)) →
    List (Moment (Hub V H R) (HubLabel V H R) (HubEffect V H)) → Prop := List.Forall₂ (Told τ δ)

/-- The very same step by other numbers. -/
structure Renumbered (τ : ℕ ↪o ℕ) (δ : ℕ → ℕ ↪o ℕ) (m m' : Moment (Hub V H R) (HubLabel V H R) (HubEffect V H)) :
    Prop where
  /-- The state in which it is made. -/
  before : m'.before = m.before.renumber τ δ
  /-- What it is called. -/
  label : Recalls τ δ m.label m'.label
  /-- What it leaves behind. -/
  after : m'.after = Result.renumber τ δ m.after

variable {τ : ℕ ↪o ℕ} {δ : ℕ → ℕ ↪o ℕ}

theorem Recalls.isOwn {l l' : HubLabel V H R} (recalls : Recalls τ δ l l') : l.IsOwn ↔ l'.IsOwn := by
  cases recalls with
  | renumbered => cases l <;> exact Iff.rfl
  | unknown => exact Iff.rfl

theorem resembles_renumber (h : Hub V H R) : Resembles τ h (h.renumber τ δ) where
  outlets := outlets_renumber τ δ h
  registrations := by
    apply List.ext_getElem?
    intro i
    simp only [List.getElem?_map, getElem?_renumber, Option.map_map]
    rfl
  counts := by
    apply List.ext_getElem?
    intro i
    simp only [List.getElem?_map, getElem?_renumber, Option.map_map]
    rfl
  pool := rfl

theorem Renumbered.told {m m' : Moment (Hub V H R) (HubLabel V H R) (HubEffect V H)} (same : Renumbered τ δ m m') :
    Told τ δ m m' := by
  obtain ⟨-, recalls, after⟩ := same
  exact ⟨recalls, by rw [after]; rfl, by rw [after]; rfl, by rw [after]; exact resembles_renumber _⟩

theorem retells_of_renumbered {past past' : List (Moment (Hub V H R) (HubLabel V H R) (HubEffect V H))}
    (same : List.Forall₂ (Renumbered τ δ) past past') : Retells τ δ past past' := same.imp fun _ _ => Renumbered.told

/-- **A numbering goes on** from where a hub has come: a number that follows one that the hub has yet to give away is
given the number that follows. -/
structure Continues (τ : ℕ ↪o ℕ) (δ : ℕ → ℕ ↪o ℕ) (h : Hub V H R) : Prop where
  /-- Tokens. -/
  tokens : ∀ x, h.nextToken ≤ x → τ (x + 1) = τ x + 1
  /-- Epochs. -/
  epochs : ∀ i f, h.feeds[i]? = some f → ∀ x, f.epoch ≤ x → δ i (x + 1) = δ i x + 1

variable [SignalValue V] {h k : Hub V H R} {l : HubLabel V H R} {r : Result V H R} {labels : List (HubLabel V H R)}
  {es : List (HubEffect V H)}

/-- Epochs only grow. -/
theorem Transition.epoch_le (t : h.Transition l r) {i : ℕ} {g : Feed V H R} (there : r.state.feeds[i]? = some g) :
    ∃ f, h.feeds[i]? = some f ∧ f.epoch ≤ g.epoch := by
  cases t with
  | @feed l j fl g' f fr serves there' step =>
    rw [afterFeed_feeds, serves.feeds_eq, List.getElem?_set] at there
    split at there
    · rename_i eq
      subst eq
      split at there
      · cases there
        exact ⟨f, there', (Feed.transition_of_step step).epoch_le⟩
      · cases there
    · exact ⟨g, there, Nat.le_refl _⟩
  | letGo =>
    obtain ⟨f, first, rfl⟩ := Option.map_eq_some_iff.1 (List.getElem?_map.symm.trans there)
    exact ⟨f, first, Nat.le_refl _⟩
  | _ => exact ⟨g, there, Nat.le_refl _⟩

theorem Continues.step (c : Continues τ δ h) (made : h.step l = some r) : Continues τ δ r.state := by
  have t := transition_of_step made
  refine ⟨fun x le => c.tokens x (Nat.le_trans t.nextToken_le le), fun i g there x le => ?_⟩
  obtain ⟨f, first, grown⟩ := t.epoch_le there
  exact c.epochs i f first x (Nat.le_trans grown le)

theorem Continues.of_run (c : Continues τ δ h) (ran : LazyHub.run Hub.step labels h = some (k, es)) : Continues τ δ k :=
  run_keeps (fun _ _ _ _ c made => c.step made) ran c

theorem Continues.step_renumber (c : Continues τ δ h) (l : HubLabel V H R) :
    (h.renumber τ δ).step (l.renumber τ δ) = (h.step l).map (Result.renumber τ δ) :=
  Hub.step_renumber τ δ (c.tokens _ (Nat.le_refl _)) (fun i f there => c.epochs i f there _ (Nat.le_refl _)) l

/-- **What a hub does it does by other numbers.** -/
theorem Continues.retells (c : Continues τ δ h) (ran : run Hub.step labels h = some (k, es)) :
    run Hub.step (labels.map (·.renumber τ δ)) (h.renumber τ δ) = some (k.renumber τ δ, es.map (·.renumber τ δ)) ∧
      List.Forall₂ (Renumbered τ δ) (trail Hub.step labels h)
        (trail Hub.step (labels.map (·.renumber τ δ)) (h.renumber τ δ)) := by
  induction labels generalizing h es with
  | nil =>
    cases ran
    exact ⟨rfl, .nil⟩
  | cons l rest ih =>
    obtain ⟨r, later, made, onward, rfl⟩ := run_cons.1 ran
    have made' : (h.renumber τ δ).step (l.renumber τ δ) = some (Result.renumber τ δ r) := by
      rw [c.step_renumber, made]
      rfl
    obtain ⟨ran', same⟩ := ih (c.step made) onward
    rw [List.map_cons, trail_cons made, trail_cons made']
    exact ⟨run_cons.2 ⟨_, _, made', ran', List.map_append⟩, .cons ⟨rfl, .renumbered l, rfl⟩ same⟩

/-- Whoever makes the steps by other numbers makes them. -/
theorem isOwn_of_renumbered {labels' : List (HubLabel V H R)} {h' k' : Hub V H R} {es' : List (HubEffect V H)}
    (ran : run Hub.step labels h = some (k, es)) (ran' : run Hub.step labels' h' = some (k', es'))
    (same : List.Forall₂ (Renumbered τ δ) (trail Hub.step labels h) (trail Hub.step labels' h'))
    (own : ∀ l ∈ labels', l.IsOwn) : ∀ l ∈ labels, l.IsOwn := by
  rw [← map_label_trail ran, List.forall_mem_map]
  rw [← map_label_trail ran'] at own
  replace own := List.forall_mem_map.1 own
  generalize trail Hub.step labels h = past at same
  generalize trail Hub.step labels' h' = past' at same own
  induction same with
  | nil => simp
  | cons first _ ih =>
    obtain ⟨own, others⟩ := List.forall_mem_cons.1 own
    exact List.forall_mem_cons.2 ⟨first.label.isOwn.2 own, ih others⟩

/-! ### Back -/

section Back

/-- A token can be named that has not subscribed. -/
theorem exists_absent (s : Subscribers H) : ∃ token, s.contains token = false := by
  obtain ⟨n, new⟩ := Infinite.exists_notMem_finset (s.tokens.map (·.serial)).toFinset
  refine ⟨⟨n⟩, Bool.eq_false_iff.2 fun there => new ?_⟩
  exact List.mem_toFinset.2 (List.mem_map_of_mem (Subscribers.contains_iff.1 there))

/-- What is told by other numbers of the end of a subscription is the end of one, or nobody has the token. -/
theorem exists_of_unsubscribe {signal : SignalId} {token' : Token} {r' : Result V H R}
    (made : (h.renumber τ δ).step (.move (.unsubscribe signal token')) = some r') :
    ∃ l, Recalls τ δ l (.move (.unsubscribe signal token')) ∧ (h.renumber τ δ).step (l.renumber τ δ) = some r' := by
  by_cases known : ∃ t : Token, t.renumber τ = token'
  · obtain ⟨t, rfl⟩ := known
    exact ⟨_, .renumbered (.move (.unsubscribe signal t)), made⟩
  have nobodys : ∀ t : Token, t.renumber τ ≠ token' := fun t eq => known ⟨t, eq⟩
  have absent' : ∀ s : Subscribers H, (s.renumber τ).contains token' = false := by
    refine fun s => Bool.eq_false_iff.2 fun there => ?_
    obtain ⟨e, mem, rfl⟩ := List.mem_map.1 (Subscribers.contains_iff.1 there)
    obtain ⟨e, -, rfl⟩ := List.mem_map.1 mem
    exact nobodys _ rfl
  cases transition_of_step made with
  | @feed _ i _ _ f' fr serves there step =>
    cases serves with
    | unsubscribe held routes =>
      obtain ⟨f, -, rfl⟩ := Option.map_eq_some_iff.1 ((getElem?_renumber τ δ h i).symm.trans there)
      obtain ⟨o', known'⟩ : ∃ o', (f.renumber τ (δ i)).outlet? signal = some o' := by
        cases Feed.transition_of_step step with
        | content _ _ content => exact content.elim
        | unknown _ _ known | detach _ _ known | detachLast _ _ known => exact ⟨_, known⟩
      obtain ⟨o, known, rfl⟩ := Option.map_eq_some_iff.1 ((f.outlet?_renumber τ (δ i) signal).symm.trans known')
      obtain ⟨t, absent⟩ := exists_absent o.subscribers
      refine ⟨.move (.unsubscribe signal t), .unknown nobodys, Serves.step (.unsubscribe held routes) there ?_⟩
      rw [← step]
      have missing : (o.subscribers.renumber τ).contains (t.renumber τ) = false :=
        (o.subscribers.contains_renumber τ t).trans absent
      simp only [Feed.step, Feed.enter, known', missing, absent' o.subscribers, Outlet.renumber, Bool.not_false, if_true]

/-- What a hub does by other numbers is told by other numbers. -/
theorem exists_of_step {l' : HubLabel V H R} {r' : Result V H R} (made : (h.renumber τ δ).step l' = some r') :
    ∃ l, Recalls τ δ l l' ∧ (h.renumber τ δ).step (l.renumber τ δ) = some r' := by
  have same : ∀ l : HubLabel V H R, l.renumber τ δ = l' →
      ∃ l, Recalls τ δ l l' ∧ (h.renumber τ δ).step (l.renumber τ δ) = some r' := by
    rintro l rfl
    exact ⟨l, .renumbered l, made⟩
  cases l' with
  | move m =>
    have unnumbered : m.renumber τ = m → _ := fun eq => same (.move m) (congrArg HubLabel.move eq)
    cases m with
    | subscribe token' =>
      cases transition_of_step made with
      | feed serves =>
        cases serves with
        | subscribe drawn named =>
          obtain ⟨q, -, rfl⟩ := List.mem_map.1 (List.mem_of_find?_eq_some drawn)
          exact same (.move (.subscribe q.token)) (congrArg (fun t => HubLabel.move (.subscribe t)) named)
    | unsubscribe signal token' => exact exists_of_unsubscribe made
    | _ => exact unnumbered rfl
  | hear i reply => exact same (.hear i reply) rfl
  | invoke i epoch' payload =>
    cases transition_of_step made with
    | feed serves there step =>
      cases serves with
      | invoke =>
        obtain ⟨f, -, rfl⟩ := Option.map_eq_some_iff.1 ((getElem?_renumber τ δ h i).symm.trans there)
        obtain ⟨epoch, rfl⟩ : ∃ epoch, δ i epoch = epoch' := by
          cases Feed.transition_of_step step with
          | invokeUnowned given | invoke given =>
            obtain ⟨epoch, -, eq⟩ := List.mem_map.1 given
            exact ⟨epoch, eq⟩
        exact same (.invoke i epoch payload) rfl
  | use i u => exact same (.use i u) rfl

/-- A step by other numbers is a step. -/
theorem Continues.exists_step (c : Continues τ δ h) {l' : HubLabel V H R} {r' : Result V H R}
    (made : (h.renumber τ δ).step l' = some r') :
    ∃ l r, h.step l = some r ∧ r' = Result.renumber τ δ r ∧ Recalls τ δ l l' := by
  obtain ⟨l, recalls, made'⟩ := exists_of_step made
  rw [c.step_renumber] at made'
  obtain ⟨r, first, rfl⟩ := Option.map_eq_some_iff.1 made'
  exact ⟨l, r, first, rfl, recalls⟩

/-- **What is told by other numbers is what a hub does.** -/
theorem Continues.recalls (c : Continues τ δ h) {labels' : List (HubLabel V H R)} {k' : Hub V H R}
    {es' : List (HubEffect V H)} (ran : run Hub.step labels' (h.renumber τ δ) = some (k', es')) :
    ∃ labels k es, run Hub.step labels h = some (k, es) ∧ k' = k.renumber τ δ ∧ es' = es.map (·.renumber τ δ) ∧
      List.Forall₂ (Renumbered τ δ) (trail Hub.step labels h) (trail Hub.step labels' (h.renumber τ δ)) := by
  induction labels' generalizing h es' with
  | nil =>
    cases ran
    exact ⟨[], h, [], rfl, rfl, rfl, .nil⟩
  | cons l' rest' ih =>
    obtain ⟨r', later', made', onward', rfl⟩ := run_cons.1 ran
    obtain ⟨l, r, made, rfl, recalls⟩ := c.exists_step made'
    obtain ⟨rest, k, later, onward, rfl, rfl, same⟩ := ih (c.step made) onward'
    refine ⟨l :: rest, k, _, run_cons.2 ⟨r, later, made, onward, rfl⟩, rfl, List.map_append.symm, ?_⟩
    rw [trail_cons made, trail_cons made']
    exact .cons ⟨rfl, recalls, rfl⟩ same

/-- A step whose name has no numbers is the same step. -/
theorem Continues.step_of_renumber (c : Continues τ δ h) {r' : Result V H R}
    (made : (h.renumber τ δ).step (l.renumber τ δ) = some r') : ∃ r, h.step l = some r ∧ r' = Result.renumber τ δ r := by
  rw [c.step_renumber] at made
  obtain ⟨r, first, rfl⟩ := Option.map_eq_some_iff.1 made
  exact ⟨r, first, rfl⟩

/-- **Two hubs cannot be told apart** by anything that happens later on: whatever the one does the other does by
other numbers. -/
structure Indistinguishable (τ : ℕ ↪o ℕ) (δ : ℕ → ℕ ↪o ℕ) (h k : Hub V H R) : Prop where
  /-- What the first does the second does. -/
  onward : ∀ {labels h' es}, run Hub.step labels h = some (h', es) →
    ∃ labels' k', run Hub.step labels' k = some (k', es.map (·.renumber τ δ)) ∧
      Retells τ δ (trail Hub.step labels h) (trail Hub.step labels' k)
  /-- What the second does the first does. -/
  back : ∀ {labels' k' es'}, run Hub.step labels' k = some (k', es') →
    ∃ labels h' es, run Hub.step labels h = some (h', es) ∧ es' = es.map (·.renumber τ δ) ∧
      Retells τ δ (trail Hub.step labels h) (trail Hub.step labels' k)

/-- **A hub and the same hub by other numbers cannot be told apart.** -/
theorem Continues.indistinguishable (c : Continues τ δ h) : Indistinguishable τ δ h (h.renumber τ δ) where
  onward := by
    intro labels h' es ran
    obtain ⟨ran', same⟩ := c.retells ran
    exact ⟨_, _, ran', retells_of_renumbered same⟩
  back := by
    intro labels' k' es' ran
    obtain ⟨labels, h', es, ran', -, said, same⟩ := c.recalls ran
    exact ⟨labels, h', es, ran', said, retells_of_renumbered same⟩

end Back

end Hub

end LazyHub
