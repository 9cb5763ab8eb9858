import LazyHub.Proofs.Hub.Attempts
import LazyHub.Proofs.Hub.Retelling

/-!
# Histories without a subscription

A subscription that fails leaves its steps in the history of a hub. `Hub.Follows` is such a history beside the
one without the subscription: its own steps do not show (`Hub.LooksLike`), and those of the others are told by
other numbers.

Where the subscription does what a read might have done, each of its steps stands beside one of the read
(`Hub.StandsBeside`).
-/

namespace LazyHub

variable {V H R : Type}

/-- An effect at a feed: a call to its provider, the end of a lease, or an entry for the journal. -/
def HubEffect.IsAt (i : Nat) : HubEffect V H → Prop
  | .asked j _ | .released j => j = i
  | .noted _ => True
  | .called .. => False

namespace Hub

/-- **A hub looks as it did**: caches, subscribers, registrations and counts are the same, and the same is queued and
being delivered. -/
structure LooksLike (h k : Hub V H R) : Prop where
  /-- The outlets, with their caches and their subscribers. -/
  outlets : k.outlets = h.outlets
  /-- The registrations of the feeds. -/
  registrations : k.feeds.map (·.registration) = h.feeds.map (·.registration)
  /-- The subscriptions that are counted. -/
  counts : k.feeds.map (·.subscriptionCount) = h.feeds.map (·.subscriptionCount)
  /-- The workers and their queues. -/
  pool : k.pool = h.pool

/-- **A history that a subscription is part of**, beside one that it is not part of. -/
inductive Follows (n i : Nat) (τ : ℕ ↪o ℕ) (δ : ℕ → ℕ ↪o ℕ) :
    List (Moment (Hub V H R) (HubLabel V H R) (HubEffect V H)) →
    List (Moment (Hub V H R) (HubLabel V H R) (HubEffect V H)) → Prop where
  /-- Nothing has happened. -/
  | nil : Follows n i τ δ [] []
  /-- The subscription makes a step, which does not show, and calls nobody but its feed's provider. -/
  | own {m' : Moment (Hub V H R) (HubLabel V H R) (HubEffect V H)}
      {past past' : List (Moment (Hub V H R) (HubLabel V H R) (HubEffect V H))} (own : IsOf n i m')
      (same : LooksLike m'.before m'.after.state) (local' : ∀ e ∈ m'.after.effects, e.IsAt i)
      (onward : Follows n i τ δ past past') : Follows n i τ δ past (m' :: past')
  /-- Another step is made in both. -/
  | told {m m' : Moment (Hub V H R) (HubLabel V H R) (HubEffect V H)}
      {past past' : List (Moment (Hub V H R) (HubLabel V H R) (HubEffect V H))} (other : ¬ IsOf n i m')
      (told : Told τ δ m m') (onward : Follows n i τ δ past past') : Follows n i τ δ (m :: past) (m' :: past')

/-- **A step of a read beside one of a history that a subscription is part of**, which makes its own step in the
place of the read's, to the same effect on what shows. -/
inductive StandsBeside (n i : Nat) (τ : ℕ ↪o ℕ) (δ : ℕ → ℕ ↪o ℕ)
    (m m' : Moment (Hub V H R) (HubLabel V H R) (HubEffect V H)) : Prop where
  /-- The same step is made in both. -/
  | told (told : Told τ δ m m')
  /-- The subscription makes a step in the place of the read's. -/
  | own (own : IsOf n i m') (same : Resembles τ m.after.state m'.after.state) (local' : ∀ e ∈ m'.after.effects, e.IsAt i)

section Follows

variable {n i : Nat} {τ : ℕ ↪o ℕ} {δ : ℕ → ℕ ↪o ℕ}
  {past past' : List (Moment (Hub V H R) (HubLabel V H R) (HubEffect V H))}

theorem uncalled_of_isAt {es : List (HubEffect V H)} (local' : ∀ e ∈ es, e.IsAt i) {token : Token} {handler : H}
    {signal : SignalId} {value : V} : .called token handler signal value ∉ es := fun mem => local' _ mem

/-- Nobody is called by a number that is left out. -/
theorem uncalled_of_renumber {es : List (HubEffect V H)} {handler : H} {signal : SignalId} {value : V} :
    .called ⟨n⟩ handler signal value ∉ es.map (·.renumber (skip n) δ) := by
  intro mem
  obtain ⟨e, -, eq⟩ := List.mem_map.1 mem
  cases e with
  | called token => exact skip_ne n token.serial (Token.mk.inj (HubEffect.called.inj eq).1)
  | _ => cases eq

theorem Told.uncalled {m m' : Moment (Hub V H R) (HubLabel V H R) (HubEffect V H)} (told : Told (skip n) δ m m')
    {handler : H} {signal : SignalId} {value : V} : .called ⟨n⟩ handler signal value ∉ m'.after.effects := by
  rw [told.effects]
  exact uncalled_of_renumber

/-- The subscription is not called. -/
theorem Follows.uncalled (f : Follows n i (skip n) δ past past') {handler : H} {signal : SignalId} {value : V} :
    ∀ m ∈ past', .called ⟨n⟩ handler signal value ∉ m.after.effects := by
  induction f with
  | nil => simp
  | own _ _ local' _ ih => exact List.forall_mem_cons.2 ⟨uncalled_of_isAt local', ih⟩
  | told _ told _ ih => exact List.forall_mem_cons.2 ⟨told.uncalled, ih⟩

theorem StandsBeside.uncalled {m m' : Moment (Hub V H R) (HubLabel V H R) (HubEffect V H)}
    (s : StandsBeside n i (skip n) δ m m') {handler : H} {signal : SignalId} {value : V} :
    .called ⟨n⟩ handler signal value ∉ m'.after.effects := by
  cases s with
  | told told => exact told.uncalled
  | own _ _ local' => exact uncalled_of_isAt local'

/-! ### What is seen of a hub -/

variable {φ : Option (Section V H R) → Option (Section V H R)} {χ : List Nat → List Nat} {h k : Hub V H R}

theorem looksLike_asIf (h : Hub V H R) : LooksLike h (h.asIf n i φ χ) :=
  ⟨outlets_asIf h, map_asIf h fun _ => rfl, map_asIf h fun _ => rfl, rfl⟩

theorem LooksLike.symm (same : LooksLike h k) : LooksLike k h :=
  ⟨same.outlets.symm, same.registrations.symm, same.counts.symm, same.pool.symm⟩

theorem LooksLike.trans {u : Hub V H R} (same : LooksLike h k) (same' : LooksLike k u) : LooksLike h u :=
  ⟨same'.outlets.trans same.outlets, same'.registrations.trans same.registrations, same'.counts.trans same.counts,
    same'.pool.trans same.pool⟩

theorem Resembles.trans_looksLike {u : Hub V H R} (same : Resembles τ h k) (same' : LooksLike k u) : Resembles τ h u :=
  ⟨same'.outlets.trans same.outlets, same'.registrations.trans same.registrations, same'.counts.trans same.counts,
    same'.pool.trans same.pool⟩

/-- Two hubs look the same if their feeds and workers do. -/
theorem looksLike_of_feeds
    (feeds : k.feeds.map (fun f => ((f.kind, f.outlets), f.registration, f.subscriptionCount)) =
      h.feeds.map fun f => ((f.kind, f.outlets), f.registration, f.subscriptionCount))
    (pool : k.pool = h.pool) : LooksLike h k := by
  refine ⟨outlets_congr ?_, ?_, ?_, pool⟩
  · simpa [Function.comp_def] using congrArg (List.map Prod.fst) feeds
  · simpa [Function.comp_def] using congrArg (List.map (·.2.1)) feeds
  · simpa [Function.comp_def] using congrArg (List.map (·.2.2)) feeds

/-- Two hubs of which the same is seen look the same. -/
theorem looksLike_of_seen (same : k.asIf n i φ χ = h.asIf n i φ χ) : LooksLike h k :=
  (looksLike_asIf h).trans (same ▸ (looksLike_asIf k).symm)

/-- A feed that is changed where it does not show. -/
theorem looksLike_of_set {f g : Feed V H R} (there : h.feeds[i]? = some f) (feeds : k.feeds = h.feeds.set i g)
    (same : ((g.kind, g.outlets), g.registration, g.subscriptionCount) =
      ((f.kind, f.outlets), f.registration, f.subscriptionCount))
    (pool : k.pool = h.pool) : LooksLike h k := by
  refine looksLike_of_feeds ?_ pool
  rw [feeds, List.map_set, same]
  obtain ⟨lt, rfl⟩ := List.getElem?_eq_some_iff.1 there
  rw [← List.getElem_map (fun f : Feed V H R => ((f.kind, f.outlets), f.registration, f.subscriptionCount)), List.set_getElem_self]
  simpa using lt

/-- A hub resembles the one by whose other numbers it is seen. -/
theorem resembles_of_seen (same : k.asIf n i φ χ = h.renumber τ δ) : Resembles τ h k :=
  (same ▸ resembles_renumber h : Resembles τ h (k.asIf n i φ χ)).trans_looksLike (looksLike_asIf k).symm

/-- What is seen of a step, told by other numbers, is the step told by other numbers. -/
theorem Renumbered.told_of_seen {m m' : Moment (Hub V H R) (HubLabel V H R) (HubEffect V H)}
    (same : Renumbered τ δ m (m'.seen (asIf n i φ χ))) : Told τ δ m m' :=
  have told := same.told
  ⟨told.label, told.effects, told.answer, told.state.trans_looksLike (looksLike_asIf _).symm⟩

/-- **What is seen of a history that a subscription is part of is a history that it is not part of.** -/
theorem follows_of_seenAs {seen : List (Moment (Hub V H R) (HubLabel V H R) (HubEffect V H))}
    (s : SeenAs (asIf n i φ χ) (IsOf n i) past' seen) (same : List.Forall₂ (Renumbered τ δ) past seen)
    (local' : ∀ m ∈ past', IsOf n i m → ∀ e ∈ m.after.effects, e.IsAt i) : Follows n i τ δ past past' := by
  induction s generalizing past with
  | nil =>
    cases same
    exact .nil
  | covert covert unchanged _ ih =>
    obtain ⟨first, rest⟩ := List.forall_mem_cons.1 local'
    exact .own covert (looksLike_of_seen unchanged) (first covert) (ih same rest)
  | overt overt _ ih =>
    cases same with
    | cons first others =>
      exact .told overt first.told_of_seen (ih others fun m mem => local' m (List.mem_cons_of_mem _ mem))

/-- Where nothing is hidden, everything is told. -/
theorem retells_of_seenAs {seen : List (Moment (Hub V H R) (HubLabel V H R) (HubEffect V H))}
    (s : SeenAs (asIf n i φ χ) (fun _ => False) past' seen) (same : List.Forall₂ (Renumbered τ δ) past seen) :
    Retells τ δ past past' := by
  induction s generalizing past with
  | nil =>
    cases same
    exact .nil
  | covert covert => exact covert.elim
  | overt _ _ ih =>
    cases same with
    | cons first others => exact .cons first.told_of_seen (ih others)

/-- The state lock is free in what is seen of a hub if it is free in the same hub by other numbers. -/
theorem exists_holder (same : h.asIf n i φ χ = k.renumber τ δ) {f : Feed V H R} (there : h.feeds[i]? = some f) :
    ∃ g, k.feeds[i]? = some g ∧ (g.holder = none ↔ φ f.holder = none) := by
  have there' := (getElem?_asIf h (n := n)).trans (congrArg (Option.map (Feed.asIf φ χ)) there)
  rw [same, getElem?_renumber] at there'
  obtain ⟨g, there', eq⟩ := Option.map_eq_some_iff.1 there'
  have holder : g.holder.map (·.renumber τ) = φ f.holder := congrArg Feed.holder eq
  exact ⟨g, there', by rw [← holder, Option.map_eq_none_iff]⟩

/-- Where nothing is hidden, the state lock is held in both histories. -/
theorem busy_of_seenAs {g : Section V H R → Section V H R}
    {seen : List (Moment (Hub V H R) (HubLabel V H R) (HubEffect V H))}
    (s : SeenAs (asIf n i (Option.map g) χ) (fun _ => False) past' seen) (same : List.Forall₂ (Renumbered τ δ) past seen)
    (busy : ∀ m ∈ past', IsBusy i m) : ∀ m ∈ past, IsBusy i m := by
  induction s generalizing past with
  | nil =>
    cases same
    simp
  | covert covert => exact covert.elim
  | overt _ _ ih =>
    cases same with
    | cons first others =>
      obtain ⟨⟨f, there, held⟩, busy⟩ := List.forall_mem_cons.1 busy
      obtain ⟨g', there', free⟩ := exists_holder (congrArg Stepped.state first.after) there
      exact List.forall_mem_cons.2 ⟨⟨g', there', fun none => held (Option.map_eq_none_iff.1 (free.1 none))⟩, ih others busy⟩

/-! ### What a subscription does outside of the hub -/

theorem isAt_of_mem_absorbAll {es : List (FeedEffect V)} {e : HubEffect V H} (mem : e ∈ (h.absorbAll i es).2) : e.IsAt i := by
  induction es generalizing h with
  | nil => cases mem
  | cons first rest ih =>
    rcases List.mem_append.1 mem with mem | mem
    · cases first with
      | owed signal value =>
        dsimp only [absorb] at mem
        split at mem
        · cases mem
        · cases List.mem_singleton.1 mem
          trivial
      | asked | released =>
        cases List.mem_singleton.1 mem
        exact rfl
      | noted =>
        cases List.mem_singleton.1 mem
        trivial
    · exact ih mem

variable [SignalValue V]

/-- A subscription that has reached its feed stays there. -/
theorem Gone.isAt {labels : List (HubLabel V H R)} (gone : h.Gone n) :
    ∀ m ∈ trail Hub.step labels h, IsOf n i m → ∀ e ∈ m.after.effects, e.IsAt i := by
  intro m mem isOf e there
  obtain ⟨-, gone, made⟩ := of_mem_trail (fun _ _ _ _ gone made => Gone.step gone made) gone m mem
  cases isOf with
  | draws _ next => exact absurd next (Nat.ne_of_gt gone.drawn)
  | enters label => exact absurd label (gone.ne made)
  | holds at' _ serves =>
    obtain ⟨fr, -, after⟩ := serves.exists_step made at'
    rw [after] at there
    exact isAt_of_mem_absorbAll there

end Follows

end Hub

end LazyHub
