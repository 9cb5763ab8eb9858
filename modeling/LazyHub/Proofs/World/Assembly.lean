import LazyHub.Proofs.Hub.Activation
import LazyHub.Proofs.Hub.Reading

/-!
# What can be assembled

A hub has one place for every signal. So plans that declare a signal twice are refused, and the first declaration
that repeats another is named (`firstRepeated?_eq_some_iff`). All others are accepted, if there is a runtime
(`Hub.assemble_eq_ok_iff`): each signal is then found where it is declared (`Hub.find?_of_assemble`), and the hub
lists the signals that are declared, each once and in ascending order (`Reachable.signals_perm`,
`Reachable.signals_ascend`).

`World.assembles_distinct` puts this together for a hub over providers that may have been used before. They are
left as they are: nobody is asked for anything before there is a client.
-/

namespace LazyHub

variable {V H R : Type}

/-- **The first item that repeats another** is the one that stands after items which are all different, and is
one of them. -/
theorem firstRepeated?_eq_some_iff {α : Type} [DecidableEq α] {seen xs : List α} {a : α} :
    firstRepeated? seen xs = some a ↔
      ∃ before after, xs = before ++ a :: after ∧ before.Nodup ∧ (∀ b ∈ before, b ∉ seen) ∧ (a ∈ seen ∨ a ∈ before) := by
  induction xs generalizing seen with
  | nil => simp [firstRepeated?]
  | cons x rest ih =>
    rw [firstRepeated?]
    by_cases repeated : x ∈ seen
    · rw [if_pos repeated, Option.some.injEq]
      constructor
      · rintro rfl
        exact ⟨[], rest, rfl, .nil, fun _ mem => absurd mem List.not_mem_nil, .inl repeated⟩
      · rintro ⟨before, after, split, -, fresh, -⟩
        cases before with
        | nil => exact (List.cons.inj split).1
        | cons b before => exact absurd repeated ((List.cons.inj split).1 ▸ fresh b List.mem_cons_self)
    · rw [if_neg repeated, ih]
      constructor
      · rintro ⟨before, after, rfl, nodup, fresh, met⟩
        refine ⟨x :: before, after, rfl, List.nodup_cons.2 ⟨fun mem => fresh x mem List.mem_cons_self, nodup⟩, ?_, ?_⟩
        · exact List.forall_mem_cons.2 ⟨repeated, fun b mem old => fresh b mem (List.mem_cons_of_mem _ old)⟩
        · rw [List.mem_cons] at met ⊢
          tauto
      · rintro ⟨before, after, split, nodup, fresh, met⟩
        cases before with
        | nil =>
          obtain ⟨rfl, rfl⟩ := List.cons.inj split
          exact absurd (met.resolve_right List.not_mem_nil) repeated
        | cons b before =>
          obtain ⟨rfl, rfl⟩ := List.cons.inj split
          obtain ⟨apart, nodup⟩ := List.nodup_cons.1 nodup
          refine ⟨before, after, rfl, nodup, fun c mem => ?_, ?_⟩
          · rw [List.mem_cons, not_or]
            exact ⟨fun same => apart (same ▸ mem), fresh c (List.mem_cons_of_mem _ mem)⟩
          · rw [List.mem_cons] at met ⊢
            tauto

/-- In a list of items with different marks an item is found by its mark. -/
theorem find?_of_nodup_map {α β : Type} [DecidableEq β] (mark : α → β) {xs : List α} {a : α} (nodup : (xs.map mark).Nodup)
    (mem : a ∈ xs) : xs.find? (fun x => mark x = mark a) = some a := by
  have there : (xs.find? (fun x => mark x = mark a)).isSome := List.find?_isSome.2 ⟨a, mem, by simp⟩
  obtain ⟨b, found⟩ := Option.isSome_iff_exists.1 there
  have same : mark b = mark a := by simpa using List.find?_some found
  rw [found, List.inj_on_of_nodup_map nodup (List.mem_of_find?_eq_some found) mem same]

namespace Hub

/-! ### Which plans are accepted -/

theorem assemble_of_absent {settings : Settings} (absent : settings.runtime = .absent) (plans : List (FeedPlan V)) :
    (assemble settings plans : Except HubFailure (Hub V H R)) = .error .noRuntime := by
  simp [assemble, Settings.requireRuntime, absent]

theorem assemble_of_present {settings : Settings} (present : settings.runtime ≠ .absent) (plans : List (FeedPlan V)) :
    (assemble settings plans : Except HubFailure (Hub V H R)) =
      match firstRepeated? [] (declared plans) with
      | some signal => .error (.duplicateSignal signal)
      | none => .ok { feeds := plans.map Feed.ofPlan, pool := .ofSize settings.workerCount settings.catches } := by
  have runs : settings.requireRuntime = .ok () := by
    unfold Settings.requireRuntime
    split
    · exact absurd ‹_› present
    · rfl
  unfold assemble
  exact runs ▸ rfl

/-- **Plans are accepted exactly if no signal is declared twice.** -/
theorem assemble_eq_ok_iff {settings : Settings} (present : settings.runtime ≠ .absent) {plans : List (FeedPlan V)} :
    (∃ h : Hub V H R, assemble settings plans = .ok h) ↔ (declared plans).Nodup := by
  rw [assemble_of_present present]
  constructor
  · rintro ⟨h, made⟩
    split at made
    · cases made
    · exact (nodup_of_firstRepeated? ‹_›).1
  · intro nodup
    rw [firstRepeated?_of_nodup nodup fun _ _ => List.not_mem_nil]
    exact ⟨_, rfl⟩

/-- **Plans are refused for the first signal that is declared again.** -/
theorem assemble_eq_error_iff {settings : Settings} (present : settings.runtime ≠ .absent) {plans : List (FeedPlan V)}
    {failure : HubFailure} :
    (assemble settings plans : Except HubFailure (Hub V H R)) = .error failure ↔
      ∃ before signal after, declared plans = before ++ signal :: after ∧ before.Nodup ∧ signal ∈ before ∧
        failure = .duplicateSignal signal := by
  rw [assemble_of_present present]
  constructor
  · intro refused
    split at refused
    · rename_i signal first
      cases refused
      obtain ⟨before, after, split, nodup, -, met⟩ := firstRepeated?_eq_some_iff.1 first
      exact ⟨before, signal, after, split, nodup, met.resolve_left List.not_mem_nil, rfl⟩
    · cases refused
  · rintro ⟨before, signal, after, split, nodup, met, rfl⟩
    rw [firstRepeated?_eq_some_iff.2 ⟨before, after, split, nodup, fun _ _ => List.not_mem_nil, .inr met⟩]

/-! ### Where the signals are -/

/-- Every signal that some plans declare, with its name and its plan's kind, in the order of the declarations. -/
def listing (plans : List (FeedPlan V)) : List (SignalId × String × Kind) :=
  plans.flatMap fun plan => plan.signals.map fun d => (d.key.id, d.key.name, plan.kind)

theorem map_fst_listing (plans : List (FeedPlan V)) : (listing plans).map (·.1) = declared plans := by
  simp [listing, declared, List.map_flatMap, Function.comp_def]

section Assembled

variable {settings : Settings} {plans : List (FeedPlan V)} {h : Hub V H R}

/-- **A signal is found where it is declared**, with its own key and its first value. -/
theorem find?_of_assemble (start : assemble settings plans = .ok h) {i : Nat} {plan : FeedPlan V} {d : Declaration V}
    (planned : plans[i]? = some plan) (declares : d ∈ plan.signals) :
    h.find? d.key.id = some (i, plan.kind, { key := d.key, gate := .ofInitial d.initial }) := by
  obtain ⟨distinct, eq⟩ := eq_of_assemble start
  have feeds : h.feeds = plans.map Feed.ofPlan := congrArg Hub.feeds eq
  have listed : h.outlets = plans.zipIdx.flatMap fun p => p.1.signals.map fun d =>
      (p.2, p.1.kind, { key := d.key, gate := .ofInitial d.initial }) := by
    simp [outlets, feeds, List.zipIdx_map, List.flatMap_map, Feed.ofPlan, Function.comp_def]
  have marked : h.outlets.map (·.2.2.key.id) = declared plans := by
    have numbered := List.flatMap_map (l := plans.zipIdx) Prod.fst fun plan : FeedPlan V => plan.signals.map (·.key.id)
    rw [List.zipIdx_map_fst] at numbered
    rw [listed, List.map_flatMap, declared, numbered]
    simp [Function.comp_def]
  have nodup : (h.outlets.map (·.2.2.key.id)).Nodup := marked ▸ (nodup_of_firstRepeated? distinct).1
  have mem : (i, plan.kind, { key := d.key, gate := .ofInitial d.initial }) ∈ h.outlets := by
    rw [listed]
    exact List.mem_flatMap.2 ⟨(plan, i), List.mem_zipIdx_iff_getElem?.2 planned, List.mem_map.2 ⟨d, declares, rfl⟩⟩
  exact find?_of_nodup_map _ nodup mem

variable [SignalValue V]

/-- A signal that is not declared is found nowhere. -/
theorem Reachable.find?_eq_none (reachable : Reachable settings plans h) {signal : SignalId}
    (undeclared : signal ∉ declared plans) : h.find? signal = none := by
  obtain ⟨key, rfl⟩ : ∃ key : Key, key.id = signal := ⟨⟨signal, "", default⟩, rfl⟩
  have unrouted := reachable.route_of_undeclared undeclared
  unfold route at unrouted
  split at unrouted
  · assumption
  · split at unrouted <;> cases unrouted

theorem Reachable.nodup_declared (reachable : Reachable settings plans h) : (declared plans).Nodup := by
  induction reachable with
  | assembled start => exact (nodup_of_firstRepeated? (eq_of_assemble start).1).1
  | step before own made ih => exact ih

/-- The kinds of a hub's feeds are those that were planned. -/
theorem Reachable.kinds_eq (reachable : Reachable settings plans h) :
    h.feeds.map (·.kind) = plans.map (·.kind) := by
  induction reachable with
  | assembled start =>
    obtain ⟨-, rfl⟩ := eq_of_assemble start
    simp [Feed.ofPlan, Function.comp_def]
  | step before own made ih =>
    refine Eq.trans ?_ ih
    cases transition_of_step made with
    | feed serves there step =>
      rw [afterFeed_feeds, serves.feeds_eq]
      exact map_set_of_same there (Feed.transition_of_step step).kind_eq
    | letGo =>
      rw [letGo, List.map_map]
      rfl
    | _ => rfl

/-- A hub lists what is declared. -/
theorem Reachable.signals_perm (reachable : Reachable settings plans h) : h.signals.Perm (listing plans) := by
  have listed : (h.outlets.map fun e => (e.2.2.key.id, e.2.2.key.name, e.2.1)) =
      ((h.feeds.map (·.kind)).zip (h.feeds.map Feed.keys)).flatMap fun e => e.2.map fun key => (key.id, key.name, e.1) := by
    have numbered := List.flatMap_map (l := h.feeds.zipIdx) Prod.fst
      fun f : Feed V H R => f.outlets.map fun o => (o.key.id, o.key.name, f.kind)
    rw [List.zipIdx_map_fst] at numbered
    rw [List.zip_map', List.flatMap_map, outlets, List.map_flatMap]
    simp only [Feed.keys, List.map_map, Function.comp_def]
    exact numbered.symm
  have planned : ((plans.map (·.kind)).zip (plans.map fun p => p.signals.map (·.key))).flatMap
      (fun e => e.2.map fun key => (key.id, key.name, e.1)) = listing plans := by
    rw [List.zip_map', List.flatMap_map]
    simp [listing, Function.comp_def]
  rw [← planned, ← reachable.kinds_eq, ← reachable.keys_eq, ← listed]
  exact List.mergeSort_perm ..

/-- A hub lists its signals in ascending order. -/
theorem Reachable.signals_ascend (reachable : Reachable settings plans h) :
    h.signals.Pairwise fun a b => a.1.index < b.1.index := by
  have sorted : h.signals.Pairwise fun a b => a.1.index ≤ b.1.index := by
    refine List.Pairwise.imp of_decide_eq_true (List.pairwise_mergeSort ?_ ?_ _)
    · intro a b c first second
      simp only [decide_eq_true_eq] at first second ⊢
      exact first.trans second
    · intro a b
      simp only [Bool.or_eq_true, decide_eq_true_eq]
      exact Nat.le_total ..
  have distinct : (h.signals.map (·.1)).Nodup := by
    rw [(reachable.signals_perm.map (·.1)).nodup_iff, map_fst_listing]
    exact reachable.nodup_declared
  refine (sorted.and (List.pairwise_map.1 distinct)).imp ?_
  rintro ⟨⟨a⟩, _⟩ ⟨⟨b⟩, _⟩ ⟨le, ne⟩
  exact lt_of_le_of_ne le fun same => ne (congrArg SignalId.mk same)

omit [SignalValue V] in
theorem kind_of_find? {signal : SignalId} {i : Nat} {kind : Kind} {o : Outlet V H}
    (found : h.find? signal = some (i, kind, o)) : ∃ f, h.feeds[i]? = some f ∧ f.kind = kind := by
  obtain ⟨⟨f, j⟩, numbered, listed⟩ := List.mem_flatMap.1 (List.mem_of_find?_eq_some found)
  obtain ⟨o', -, eq⟩ := List.mem_map.1 listed
  cases eq
  exact ⟨f, List.mem_zipIdx_iff_getElem?.1 numbered, rfl⟩

/-- Whatever a hub goes through, a signal stays where it is declared. -/
theorem Reachable.find?_of_declared {start : Hub V H R} (made : assemble settings plans = .ok start)
    (reachable : Reachable settings plans h) {i : Nat} {plan : FeedPlan V} {d : Declaration V}
    (planned : plans[i]? = some plan) (declares : d ∈ plan.signals) :
    ∃ o, h.find? d.key.id = some (i, plan.kind, o) ∧ o.key = d.key := by
  have keys : h.feeds.map Feed.keys = start.feeds.map Feed.keys :=
    reachable.keys_eq.trans (Reachable.assembled made).keys_eq.symm
  have placed : h.place? d.key.id = some (i, d.key) := by
    rw [place?_congr keys, place?, find?_of_assemble made planned declares]
    rfl
  obtain ⟨⟨j, kind, o⟩, found, eq⟩ := Option.map_eq_some_iff.1 placed
  obtain ⟨rfl, same⟩ := Prod.mk.inj eq
  obtain ⟨f, there, rfl⟩ := kind_of_find? found
  have kinds := congrArg (·[j]?) reachable.kinds_eq
  simp only [List.getElem?_map, there, planned, Option.map_some, Option.some.injEq] at kinds
  exact ⟨o, kinds ▸ found, same⟩

end Assembled

end Hub

namespace Lamp

/-- The signal of a door: whether it is open. -/
def doorKey : Key := ⟨⟨0⟩, "door", ValueType.truth.name⟩

/-- A door, closed at first. -/
def door : FeedPlan Value := ⟨⟨"door"⟩, [⟨doorKey, .truth false⟩]⟩

end Lamp

namespace World

/-- The hub that is assembled, or the reason why there is none, depends on the plans alone. -/
theorem map_hub_assembleOver (settings : Settings) (plans : List (FeedPlan V × LocalProvider R Nat)) :
    (assembleOver settings plans : Except HubFailure (World V H R)).map (·.hub) = Hub.assemble settings (plans.map (·.1)) := by
  unfold assembleOver
  cases (Hub.assemble settings (plans.map (·.1)) : Except HubFailure (Hub V H R)) <;> rfl

theorem assembleOver_eq_error_iff {settings : Settings} {plans : List (FeedPlan V × LocalProvider R Nat)} {failure : HubFailure} :
    (assembleOver settings plans : Except HubFailure (World V H R)) = .error failure ↔
      (Hub.assemble settings (plans.map (·.1)) : Except HubFailure (Hub V H R)) = .error failure := by
  rw [← map_hub_assembleOver]
  cases (assembleOver settings plans : Except HubFailure (World V H R)) <;> simp [Except.map]

theorem assembleOver_eq_ok_iff {settings : Settings} {plans : List (FeedPlan V × LocalProvider R Nat)} :
    (∃ w : World V H R, assembleOver settings plans = .ok w) ↔ ∃ h : Hub V H R, Hub.assemble settings (plans.map (·.1)) = .ok h := by
  rw [← map_hub_assembleOver]
  cases (assembleOver settings plans : Except HubFailure (World V H R)) <;> simp [Except.map]

variable [SignalValue V]

/-- **Exactly the declarations that do not collide can be assembled**, over providers in any state:

* without a runtime nothing can be assembled;
* with one, what is declared is accepted if no two signals have one identity, and otherwise refused for the first
  signal, in the order of the declarations, that was declared before;
* whether it is accepted does not depend on the providers, and those of a hub that is assembled are as they were,
  refusals, callbacks and counters included: none of them was called;
* each signal is found where it is declared, at first with its first value, and no other signal is found;
* whatever the hub goes through, the signals stay where they are, and the hub lists each of them once, with its name
  and its provider's kind, in ascending order. -/
theorem assembles_distinct (settings : Settings) (plans : List (FeedPlan V × LocalProvider R Nat)) :
    let outcome : Except HubFailure (World V H R) := assembleOver settings plans
    let declared := Hub.declared (plans.map (·.1))
    (settings.runtime = .absent → outcome = .error .noRuntime) ∧
    (settings.runtime ≠ .absent →
      ((∃ w, outcome = .ok w) ↔ declared.Nodup) ∧
      ∀ failure, outcome = .error failure ↔ ∃ before signal after, declared = before ++ signal :: after ∧ before.Nodup ∧
        signal ∈ before ∧ failure = .duplicateSignal signal) ∧
    outcome.map (·.hub) = Hub.assemble settings (plans.map (·.1)) ∧
    ∀ w, outcome = .ok w →
      w.sources.map (·.provider) = plans.map (·.2) ∧
      (∀ i p, plans[i]? = some p → ∀ d ∈ p.1.signals,
        w.hub.find? d.key.id = some (i, p.1.kind, { key := d.key, gate := .ofInitial d.initial })) ∧
      ∀ (labels : List (WorldLabel V H R)) (w' : World V H R) (es : List (HubEffect V H)), (∀ l ∈ labels, l.IsOwn) →
        run World.step labels w = some (w', es) →
          (∀ i p, plans[i]? = some p → ∀ d ∈ p.1.signals, ∃ o, w'.hub.find? d.key.id = some (i, p.1.kind, o) ∧ o.key = d.key) ∧
          (∀ signal ∉ declared, w'.hub.find? signal = none) ∧
          w'.hub.signals.Perm (Hub.listing (plans.map (·.1))) ∧
          w'.hub.signals.Pairwise fun a b => a.1.index < b.1.index := by
  intro outcome declared
  have plannedAt : ∀ {i : Nat} {p : FeedPlan V × LocalProvider R Nat}, plans[i]? = some p →
      (plans.map (·.1))[i]? = some p.1 := fun there => by
    rw [List.getElem?_map, there]
    rfl
  refine ⟨fun absent => ?_, fun present => ⟨?_, fun failure => ?_⟩, map_hub_assembleOver settings plans, fun w made => ?_⟩
  · exact assembleOver_eq_error_iff.2 (Hub.assemble_of_absent absent _)
  · exact assembleOver_eq_ok_iff.trans (Hub.assemble_eq_ok_iff present)
  · exact assembleOver_eq_error_iff.trans (Hub.assemble_eq_error_iff present)
  · obtain ⟨start, sources⟩ := eq_of_assembleOver made
    refine ⟨?_, fun i p there d declares => Hub.find?_of_assemble start (plannedAt there) declares, ?_⟩
    · rw [sources, List.map_map]
      rfl
    · intro labels w' es own ran
      obtain ⟨hubLabels, own, ran⟩ := hub_of_run ran own
      have reachable := (Hub.Reachable.assembled start).run own ran
      exact ⟨fun i p there d declares => reachable.find?_of_declared start (plannedAt there) declares,
        fun signal undeclared => reachable.find?_eq_none undeclared, reachable.signals_perm, reachable.signals_ascend⟩

/-- A lamp and a door are assembled although the lamp's provider refuses everybody: each is found where it is declared,
and the door is listed first. Two lamps are refused. -/
theorem lamp_and_door_are_placed :
    (∃ w : World Value Unit Bool,
      assembleOver {} [(Lamp.plan, (LocalProvider.ofInitial false).refuse .query "dead"), (Lamp.door, .ofInitial true)] = .ok w ∧
        (w.sources.map (·.provider)).map (·.refuseQuery) = [some "dead", none] ∧
        (w.hub.find? Lamp.doorKey.id).map (·.1) = some 1 ∧ w.hub.find? ⟨2⟩ = none ∧
        w.hub.signals.Perm [(⟨1⟩, "lamp", ⟨"lamp"⟩), (⟨0⟩, "door", ⟨"door"⟩)]) ∧
    (assembleOver {} [(Lamp.plan, .ofInitial false), (Lamp.door, .ofInitial true), (Lamp.plan, .ofInitial true)] :
      Except HubFailure (World Value Unit Bool)) = .error (.duplicateSignal Lamp.key.id) := by
  constructor
  · obtain ⟨-, accepted, -, made⟩ := assembles_distinct (V := Value) (H := Unit) (R := Bool) {}
      [(Lamp.plan, (LocalProvider.ofInitial false).refuse .query "dead"), (Lamp.door, .ofInitial true)]
    obtain ⟨w, ok⟩ := (accepted (by decide)).1.2 (by decide)
    obtain ⟨sources, found, throughout⟩ := made w ok
    obtain ⟨-, elsewhere, listed, -⟩ := throughout [] w [] nofun rfl
    refine ⟨w, ok, ?_, ?_, elsewhere _ (by decide), listed⟩
    · rw [sources]
      rfl
    · rw [found 1 _ rfl _ List.mem_cons_self]
      rfl
  · obtain ⟨-, refused, -⟩ := assembles_distinct (V := Value) (H := Unit) (R := Bool) {}
      [(Lamp.plan, .ofInitial false), (Lamp.door, .ofInitial true), (Lamp.plan, .ofInitial true)]
    exact ((refused (by decide)).2 _).2 ⟨[Lamp.key.id, Lamp.doorKey.id], _, [], rfl, by decide, by decide, rfl⟩

end World

end LazyHub
