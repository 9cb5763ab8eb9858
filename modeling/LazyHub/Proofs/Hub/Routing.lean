import LazyHub.Proofs.Hub.Sound
import Mathlib.Data.List.Flatten

/-!
# Where a hub's signals and subscribers are

A hub refuses to be assembled if a signal is declared twice, and keys never change. So a signal is
served by one feed (`Reachable.same_feed`), which is the one that the hub finds for it
(`outlet?_of_find?`).

A token is drawn once, added once and never again. So a subscriber stands under one signal of one
feed (`Reachable.single`), and whoever is subscribed now has been ever since its token was spent
(`lists_of_spent`). Hubs whose feeds have the same keys
route signals alike (`route_congr`).
-/

namespace LazyHub

variable {V H R : Type}

theorem nodup_of_firstRepeated? {α : Type} [DecidableEq α] {seen xs : List α}
    (h : firstRepeated? seen xs = none) : xs.Nodup ∧ ∀ a ∈ xs, a ∉ seen := by
  induction xs generalizing seen with
  | nil => exact ⟨List.nodup_nil, nofun⟩
  | cons a rest ih =>
    simp only [firstRepeated?] at h
    split at h
    · cases h
    · rename_i unseen
      obtain ⟨nodup, apart⟩ := ih h
      refine ⟨List.nodup_cons.2 ⟨fun mem => apart a mem List.mem_cons_self, nodup⟩, ?_⟩
      intro b hb
      rcases List.mem_cons.1 hb with rfl | hb
      · exact unseen
      · exact fun seen => apart b hb (List.mem_cons_of_mem _ seen)

theorem firstRepeated?_of_nodup {α : Type} [DecidableEq α] {seen xs : List α} (nodup : xs.Nodup)
    (apart : ∀ a ∈ xs, a ∉ seen) : firstRepeated? seen xs = none := by
  induction xs generalizing seen with
  | nil => rfl
  | cons a rest ih =>
    obtain ⟨fresh, nodup⟩ := List.nodup_cons.1 nodup
    rw [firstRepeated?, if_neg (apart a List.mem_cons_self)]
    refine ih nodup fun b mem => ?_
    rw [List.mem_cons, not_or]
    exact ⟨fun eq => fresh (eq ▸ mem), apart b (List.mem_cons_of_mem _ mem)⟩

/-- What an item put in another's place has in common with it, the list has in common with what it was. -/
theorem map_set_of_same {α β : Type} {what : α → β} {xs : List α} {i : Nat} {a b : α} (there : xs[i]? = some a)
    (same : what b = what a) : (xs.set i b).map what = xs.map what := by
  obtain ⟨lt, rfl⟩ := List.getElem?_eq_some_iff.1 there
  rw [List.map_set, same, ← List.getElem_map what, List.set_getElem_self]
  simpa using lt

namespace Feed

/-- The signals of a feed's outlets, in order. -/
def signals (f : Feed V H R) : List SignalId := f.keys.map (·.id)

theorem isSome_outlet?_iff {f : Feed V H R} {signal : SignalId} :
    (f.outlet? signal).isSome ↔ signal ∈ f.signals := by
  simp [outlet?, signals, keys]

end Feed

namespace Hub

/-! ### Routing -/

/-- The outlet that a hub finds for a signal is the one by which its feed answers to it. -/
theorem outlet?_of_find? {h : Hub V H R} {signal : SignalId} {i : Nat} {kind : Kind} {o : Outlet V H}
    (found : h.find? signal = some (i, kind, o)) :
    ∃ f, h.feeds[i]? = some f ∧ f.outlet? signal = some o := by
  rw [find?, outlets, List.find?_flatMap] at found
  obtain ⟨⟨f, j⟩, mem, found⟩ := List.exists_of_findSome?_eq_some found
  have there := List.mem_zipIdx_iff_getElem?.1 mem
  rw [List.find?_map] at found
  obtain ⟨x, hx, eq⟩ := Option.map_eq_some_iff.1 found
  cases eq
  exact ⟨f, there, hx⟩

variable [SignalValue V]

theorem Transition.keys_eq {h : Hub V H R} {l : HubLabel V H R} {r : Result V H R} (t : h.Transition l r) :
    r.state.feeds.map Feed.keys = h.feeds.map Feed.keys := by
  cases t with
  | @feed l i fl g f fr serves there step =>
    rw [afterFeed_feeds, serves.feeds_eq]
    exact map_set_of_same there (Feed.transition_of_step step).keys_eq
  | letGo =>
    change (h.feeds.map fun f => { f with handles := f.handles - 1 }).map Feed.keys = _
    rw [List.map_map]
    rfl
  | _ => rfl

theorem Reachable.distinct {settings : Settings} {plans : List (FeedPlan V)} {h : Hub V H R}
    (reachable : Reachable settings plans h) : (h.feeds.map Feed.signals).flatten.Nodup := by
  have keys : h.feeds.map Feed.signals = (h.feeds.map Feed.keys).map (·.map (·.id)) := by
    simp [Feed.signals, Function.comp_def]
  rw [keys]
  clear keys
  induction reachable with
  | assembled start =>
    obtain ⟨distinct, rfl⟩ := eq_of_assemble start
    have declares : declared plans =
        ((plans.map (Feed.ofPlan (H := H) (R := R))).map Feed.keys |>.map (·.map (·.id))).flatten := by
      simp [declared, List.flatMap_def, Feed.keys, Feed.ofPlan, Function.comp_def]
    exact declares ▸ (nodup_of_firstRepeated? distinct).1
  | step before own made ih => rwa [(transition_of_step made).keys_eq]

/-- **A signal is served by one feed.** -/
theorem Reachable.same_feed {settings : Settings} {plans : List (FeedPlan V)} {h : Hub V H R}
    (reachable : Reachable settings plans h) {i j : Nat} {f g : Feed V H R} {signal : SignalId}
    (hf : h.feeds[i]? = some f) (hg : h.feeds[j]? = some g) (inFirst : (f.outlet? signal).isSome)
    (inSecond : (g.outlet? signal).isSome) : i = j := by
  have apart := (List.nodup_flatten.1 reachable.distinct).2
  rw [List.pairwise_map] at apart
  have never : ∀ {a b : Nat} {d e : Feed V H R}, h.feeds[a]? = some d → h.feeds[b]? = some e →
      signal ∈ d.signals → signal ∈ e.signals → ¬ a < b := by
    intro a b d e hd he inD inE lt
    obtain ⟨la, rfl⟩ := List.getElem?_eq_some_iff.1 hd
    obtain ⟨lb, rfl⟩ := List.getElem?_eq_some_iff.1 he
    exact List.pairwise_iff_getElem.1 apart a b la lb lt inD inE
  have mf := Feed.isSome_outlet?_iff.1 inFirst
  have mg := Feed.isSome_outlet?_iff.1 inSecond
  exact Nat.le_antisymm (Nat.le_of_not_lt (never hg hf mg mf)) (Nat.le_of_not_lt (never hf hg mf mg))

/-! ### Subscribers -/

section Lists

variable {h : Hub V H R} {l : HubLabel V H R} {r : Result V H R}

omit [SignalValue V] in
theorem mem_subscribersOf {i : Nat} {signal : SignalId} {e : Token × H} :
    e ∈ h.subscribersOf i signal ↔ ∃ f, h.feeds[i]? = some f ∧ f.Lists signal e := by
  unfold subscribersOf
  constructor
  · intro mem
    split at mem
    · rename_i o found
      obtain ⟨f, there, known⟩ := Option.bind_eq_some_iff.1 found
      exact ⟨f, there, o, known, mem⟩
    · cases mem
  · rintro ⟨f, there, o, known, mem⟩
    simp [there, known, mem]

omit [SignalValue V] in
/-- Under a token one is subscribed to a signal. -/
theorem filter_subscribersOf {i : Nat} {signal : SignalId} {e : Token × H}
    (mem : e ∈ h.subscribersOf i signal) : (h.subscribersOf i signal).filter (·.1 = e.1) = [e] := by
  unfold subscribersOf at mem ⊢
  split at mem
  · exact Subscribers.filter_snapshot mem
  · cases mem

/-- Whoever is subscribed after a step was so before, or was awaited until then. -/
theorem Transition.lists_at (t : h.Transition l r) {j : Nat} {signal : SignalId} {e : Token × H}
    (mem : e ∈ r.state.subscribersOf j signal) : e ∈ h.subscribersOf j signal ∨ h.Awaits e.1 := by
  obtain ⟨f', there', lists⟩ := mem_subscribersOf.1 mem
  rw [mem_subscribersOf]
  cases t with
  | @feed l i fl g f fr serves there step =>
    rw [afterFeed_feeds, serves.feeds_eq, List.getElem?_set] at there'
    split at there'
    · rename_i eq
      subst eq
      split at there'
      · cases there'
        rcases (Feed.transition_of_step step).lists lists with lists | ⟨-, pulls | ⟨-, rfl⟩⟩
        · exact .inl ⟨f, there, lists⟩
        · refine .inr (.inr ⟨f, List.mem_of_getElem? there, ?_⟩)
          rw [Feed.awaited?, pulls]
          rfl
        · exact .inr (.inl serves.entered.1)
      · cases there'
    · exact .inl ⟨f', there', lists⟩
  | letGo =>
    obtain ⟨f, hf, rfl⟩ := Option.map_eq_some_iff.1 (List.getElem?_map.symm.trans there')
    exact .inl ⟨f, hf, lists⟩
  | _ => exact .inl ⟨f', there', lists⟩

/-- Where somebody comes to be subscribed who was not so before, nobody else does. -/
theorem Transition.lists_new (t : h.Transition l r) {i j : Nat} {signal s : SignalId}
    {e e' : Token × H} (mem : e ∈ r.state.subscribersOf i signal) (new : e ∉ h.subscribersOf i signal)
    (mem' : e' ∈ r.state.subscribersOf j s) (new' : e' ∉ h.subscribersOf j s) : i = j ∧ signal = s := by
  obtain ⟨f₁, there₁, lists₁⟩ := mem_subscribersOf.1 mem
  obtain ⟨f₂, there₂, lists₂⟩ := mem_subscribersOf.1 mem'
  rw [mem_subscribersOf] at new new'
  cases t with
  | @feed l k fl g f fr serves there step =>
    have at' : ∀ {a : Nat} {b : Feed V H R} {s : SignalId} {e : Token × H},
        (g.afterFeed k fr).state.feeds[a]? = some b → b.Lists s e →
        (¬ ∃ f, h.feeds[a]? = some f ∧ f.Lists s e) → k = a ∧ b = fr.state := by
      intro a b s e hb lists new
      rw [afterFeed_feeds, serves.feeds_eq, List.getElem?_set] at hb
      split at hb
      · rename_i eq
        split at hb
        · cases hb
          exact ⟨eq, rfl⟩
        · cases hb
      · exact absurd ⟨b, hb, lists⟩ new
    obtain ⟨rfl, rfl⟩ := at' there₁ lists₁ new
    obtain ⟨rfl, rfl⟩ := at' there₂ lists₂ new'
    have t := Feed.transition_of_step step
    -- both are the subscription that is added by this step
    rcases (t.lists lists₁).resolve_left fun old => new ⟨f, there, old⟩ with ⟨-, pulls | ⟨free, rfl⟩⟩
    · rcases (t.lists lists₂).resolve_left fun old => new' ⟨f, there, old⟩ with ⟨-, pulls' | ⟨free, -⟩⟩
      · have same := pulls.symm.trans pulls'
        simp only [Option.some.injEq, Purpose.subscribe.injEq] at same
        exact ⟨rfl, same.1⟩
      · simp [Feed.pull?, free] at pulls
    · rcases (t.lists lists₂).resolve_left fun old => new' ⟨f, there, old⟩ with ⟨-, pulls | ⟨-, same⟩⟩
      · simp [Feed.pull?, free] at pulls
      · simp only [FeedLabel.enter.injEq, FeedRequest.subscribe.injEq] at same
        exact ⟨rfl, same.1⟩
  | letGo =>
    obtain ⟨f, hf, rfl⟩ := Option.map_eq_some_iff.1 (List.getElem?_map.symm.trans there₁)
    exact absurd ⟨f, hf, lists₁⟩ new
  | _ => exact absurd ⟨f₁, there₁, lists₁⟩ new

end Lists

theorem Reachable.spent_of_mem {settings : Settings} {plans : List (FeedPlan V)} {h : Hub V H R}
    (reachable : Reachable settings plans h) {i : Nat} {signal : SignalId} {e : Token × H}
    (mem : e ∈ h.subscribersOf i signal) : h.Spent e.1 := by
  obtain ⟨f, there, lists⟩ := mem_subscribersOf.1 mem
  exact reachable.sound.subscribed f (List.mem_of_getElem? there) e.1 ⟨signal, e.2, lists⟩

/-- Nobody is subscribed at a hub that has let go of its feeds. -/
theorem Reachable.open_of_mem {settings : Settings} {plans : List (FeedPlan V)} {h : Hub V H R}
    (reachable : Reachable settings plans h) {i : Nat} {signal : SignalId}
    {e : Token × H} (mem : e ∈ h.subscribersOf i signal) : h.life ≠ .closed := by
  intro closed
  obtain ⟨f, there, lists⟩ := mem_subscribersOf.1 mem
  have sound := reachable.sound
  have inHub := List.mem_of_getElem? there
  obtain ⟨-, free, inactive⟩ := (owns_of_closed closed).1 sound.owns f inHub
  have bare := (sound.balanced f inHub).bare free inactive
  exact Feed.not_hasToken_of_empty bare.1 e.1 ⟨signal, e.2, lists⟩

/-- **A token stands under one signal of one feed.** -/
theorem Reachable.single {settings : Settings} {plans : List (FeedPlan V)} {h : Hub V H R}
    (reachable : Reachable settings plans h) {i j : Nat} {signal s : SignalId} {e e' : Token × H}
    (mem : e ∈ h.subscribersOf i signal) (mem' : e' ∈ h.subscribersOf j s) (same : e.1 = e'.1) :
    i = j ∧ signal = s := by
  induction reachable with
  | assembled start =>
    obtain ⟨-, rfl⟩ := eq_of_assemble start
    obtain ⟨f, there, lists⟩ := mem_subscribersOf.1 mem
    obtain ⟨plan, -, rfl⟩ := Option.map_eq_some_iff.1 (List.getElem?_map.symm.trans there)
    exact (Feed.not_hasToken_of_empty (Feed.totalSubscribers_ofPlan plan) e.1 ⟨signal, e.2, lists⟩).elim
  | @step h l r before own made ih =>
    have t := transition_of_step made
    by_cases old : e ∈ h.subscribersOf i signal
    · by_cases old' : e' ∈ h.subscribersOf j s
      · exact ih old old'
      · have awaited := (t.lists_at mem').resolve_left old'
        exact absurd (same ▸ awaited) (before.spent_of_mem old).2
    · by_cases old' : e' ∈ h.subscribersOf j s
      · have awaited := (t.lists_at mem).resolve_left old
        exact absurd (same ▸ awaited) (before.spent_of_mem old').2
      · exact t.lists_new mem old mem' old'

/-- **Whoever is subscribed has been so ever since its token was spent.** -/
theorem lists_of_spent {labels : List (HubLabel V H R)} {h k : Hub V H R}
    {effects : List (HubEffect V H)} (ran : run Hub.step labels h = some (k, effects)) {i : Nat}
    {signal : SignalId} {e : Token × H} (spent : h.Spent e.1) (mem : e ∈ k.subscribersOf i signal) :
    e ∈ h.subscribersOf i signal := by
  induction labels generalizing h effects with
  | nil =>
    cases ran
    exact mem
  | cons l rest ih =>
    obtain ⟨r, later, made, onward, rfl⟩ := run_cons.1 ran
    have t := transition_of_step made
    exact (t.lists_at (ih onward (t.spent spent))).resolve_right spent.2

/-! ### Feeds and their signals -/

section Routed

variable {settings : Settings} {plans : List (FeedPlan V)} {h : Hub V H R}

/-- What a feed answers to a signal with is what its hub finds for it. -/
theorem Reachable.find?_eq (reachable : Reachable settings plans h) {i : Nat} {f : Feed V H R} {signal : SignalId}
    {o : Outlet V H} (there : h.feeds[i]? = some f) (known : f.outlet? signal = some o) :
    ∃ kind, h.find? signal = some (i, kind, o) := by
  have mem : (i, f.kind, o) ∈ h.outlets := by
    refine List.mem_flatMap.2 ⟨(f, i), List.mem_zipIdx_iff_getElem?.2 there, ?_⟩
    exact List.mem_map_of_mem (Feed.mem_of_outlet? known)
  have found : (h.find? signal).isSome :=
    List.find?_isSome.2 ⟨_, mem, by simpa using Feed.id_of_outlet? known⟩
  obtain ⟨⟨j, kind, p⟩, found⟩ := Option.isSome_iff_exists.1 found
  obtain ⟨g, hg, hp⟩ := outlet?_of_find? found
  obtain rfl := reachable.same_feed there hg (Option.isSome_of_eq_some known) (Option.isSome_of_eq_some hp)
  obtain rfl : f = g := Option.some.inj (there.symm.trans hg)
  obtain rfl : o = p := Option.some.inj (known.symm.trans hp)
  exact ⟨kind, found⟩

/-- The value that a hub knows of a signal is the one that the signal's feed knows. -/
theorem Reachable.cached?_eq (reachable : Reachable settings plans h) {i : Nat} {f : Feed V H R} {signal : SignalId}
    (there : h.feeds[i]? = some f) (known : (f.outlet? signal).isSome) :
    h.cached? signal = f.cached? signal := by
  obtain ⟨o, ho⟩ := Option.isSome_iff_exists.1 known
  obtain ⟨kind, found⟩ := reachable.find?_eq there ho
  simp [cached?, found, Feed.cached?, ho]

theorem Reachable.keys_eq (reachable : Reachable settings plans h) :
    h.feeds.map Feed.keys = plans.map fun p => p.signals.map (·.key) := by
  induction reachable with
  | assembled start =>
    obtain ⟨-, rfl⟩ := eq_of_assemble start
    simp [Feed.keys, Feed.ofPlan, Function.comp_def]
  | step before own made ih => exact (transition_of_step made).keys_eq.trans ih

/-- A key is routed to the feed that declares its signal, provided the signal has the key's type. -/
theorem Reachable.route_of_declared (reachable : Reachable settings plans h) {i : Nat} {plan : FeedPlan V}
    {d : Declaration V} (planned : plans[i]? = some plan) (declares : d ∈ plan.signals) {key : Key}
    (named : d.key.id = key.id) :
    ∃ f, h.feeds[i]? = some f ∧ (f.outlet? key.id).isSome ∧
      h.route key = if d.key.type = key.type then .ok i else .error (.typeMismatch key.id key.type) := by
  have keys := congrArg (·[i]?) reachable.keys_eq
  simp only [List.getElem?_map, planned, Option.map_some] at keys
  obtain ⟨f, there, keys⟩ := Option.map_eq_some_iff.1 keys
  have mem : d.key ∈ f.keys := keys ▸ List.mem_map_of_mem declares
  have known : (f.outlet? key.id).isSome :=
    Feed.isSome_outlet?_iff.2 (named ▸ List.mem_map_of_mem mem)
  obtain ⟨o, ho⟩ := Option.isSome_iff_exists.1 known
  obtain ⟨kind, found⟩ := reachable.find?_eq there ho
  have nodup : f.signals.Nodup :=
    (List.nodup_flatten.1 reachable.distinct).1 _ (List.mem_map_of_mem (List.mem_of_getElem? there))
  have same : o.key = d.key :=
    List.inj_on_of_nodup_map nodup (List.mem_map_of_mem (Feed.mem_of_outlet? ho)) mem
      ((Feed.id_of_outlet? ho).trans named.symm)
  exact ⟨f, there, known, by simp only [route, found, same]⟩

theorem Reachable.route_of_undeclared (reachable : Reachable settings plans h) {key : Key}
    (undeclared : key.id ∉ declared plans) : h.route key = .error (.unknownSignal key.id) := by
  have none : h.find? key.id = none := by
    by_contra some
    obtain ⟨⟨i, kind, o⟩, found⟩ := Option.ne_none_iff_exists'.1 some
    obtain ⟨f, there, ho⟩ := outlet?_of_find? found
    have keys : f.keys ∈ h.feeds.map Feed.keys := List.mem_map_of_mem (List.mem_of_getElem? there)
    rw [reachable.keys_eq] at keys
    obtain ⟨plan, planned, eq⟩ := List.mem_map.1 keys
    have mem : o.key ∈ f.keys := List.mem_map_of_mem (Feed.mem_of_outlet? ho)
    rw [← eq] at mem
    obtain ⟨d, declares, eq⟩ := List.mem_map.1 mem
    refine undeclared (List.mem_flatMap.2 ⟨plan, planned, List.mem_map.2 ⟨d, declares, ?_⟩⟩)
    rw [eq, Feed.id_of_outlet? ho]
  rw [route, none]

variable {k : Hub V H R} {i : Nat} {key : Key}

/-- A key that is routed is declared with its type, and always routed to the same feed. -/
theorem Reachable.declares_of_route (reachable : Reachable settings plans h) (routed : h.route key = .ok i) :
    ∃ plan d, plans[i]? = some plan ∧ d ∈ plan.signals ∧ d.key.id = key.id ∧ d.key.type = key.type := by
  by_cases known : key.id ∈ declared plans
  · obtain ⟨plan, mem, named⟩ := List.mem_flatMap.1 known
    obtain ⟨d, declares, named⟩ := List.mem_map.1 named
    obtain ⟨j, planned⟩ := List.mem_iff_getElem?.1 mem
    obtain ⟨-, -, -, routes⟩ := reachable.route_of_declared planned declares named
    rw [routed] at routes
    split at routes
    · cases routes
      exact ⟨plan, d, planned, declares, named, ‹_›⟩
    · cases routes
  · cases routed.symm.trans (reachable.route_of_undeclared known)

theorem Reachable.route_eq (before : Reachable settings plans h) (after : Reachable settings plans k)
    (routed : h.route key = .ok i) : k.route key = .ok i := by
  obtain ⟨plan, d, planned, declares, named, typed⟩ := before.declares_of_route routed
  obtain ⟨-, -, -, routes⟩ := after.route_of_declared planned declares named
  rw [routes, if_pos typed]

theorem Reachable.exists_feed_of_route (reachable : Reachable settings plans h) (routed : h.route key = .ok i) :
    ∃ f, h.feeds[i]? = some f ∧ (f.outlet? key.id).isSome := by
  obtain ⟨plan, d, planned, declares, named, -⟩ := reachable.declares_of_route routed
  obtain ⟨f, there, known, -⟩ := reachable.route_of_declared planned declares named
  exact ⟨f, there, known⟩

omit [SignalValue V] in
theorem feedOf?_of_route (routed : h.route key = .ok i) : h.feedOf? key.id = some i := by
  unfold route at routed
  split at routed
  · cases routed
  · rename_i found
    split at routed
    · cases routed
      rw [feedOf?, found]
      rfl
    · cases routed

/-- Whoever subscribes to a key that an active feed serves draws a token, is let in and is answered at once, if the
state lock is free. -/
theorem Reachable.step_attach (reachable : Reachable settings plans h) (held : h.IsHeld) (routed : h.route key = .ok i)
    {f : Feed V H R} (there : h.feeds[i]? = some f) (active : f.registration.isSome) (free : f.holder = none)
    (handler : H) :
    ∃ u g, h.step (.move (.draw key handler)) = some { state := u } ∧ u.feeds = h.feeds ∧ u.pool = h.pool ∧
      u.Awaits ⟨h.nextToken⟩ ∧
      u.Serves (.move (.subscribe ⟨h.nextToken⟩)) i (.enter (.subscribe key.id ⟨h.nextToken⟩ handler)) g ∧
      f.step (.enter (.subscribe key.id ⟨h.nextToken⟩ handler)) =
        some ((f.attach key.id ⟨h.nextToken⟩ handler).release .done) := by
  obtain ⟨m, life⟩ := held
  obtain ⟨f', there', known⟩ := reachable.exists_feed_of_route routed
  obtain rfl := Option.some.inj (there.symm.trans there')
  have sound := reachable.sound
  -- nobody else has its token
  have first : (h.requests ++ [(⟨⟨h.nextToken⟩, key, handler⟩ : Request H)]).find? (·.token = ⟨h.nextToken⟩) =
      some ⟨⟨h.nextToken⟩, key, handler⟩ := by
    have old : h.requests.find? (·.token = ⟨h.nextToken⟩) = none := by
      refine List.find?_eq_none.2 fun q mem named => ?_
      have drawn := sound.drawn q.token (.inl ⟨q, mem, rfl⟩)
      rw [of_decide_eq_true named] at drawn
      exact Nat.lt_irrefl _ drawn
    simp [List.find?_append, old]
  have kept : f.handles = 1 := (owns_of_held life).1 sound.owns f (List.mem_of_getElem? there)
  have drawn : h.step (.move (.draw key handler)) = some
      { state :=
          { h with
            nextToken := h.nextToken + 1
            requests := h.requests ++ [⟨⟨h.nextToken⟩, key, handler⟩] } } := by
    simp [Hub.step, act, life, routed]
  have serves := Serves.subscribe (h := { h with
    nextToken := h.nextToken + 1
    requests := h.requests ++ [⟨⟨h.nextToken⟩, key, handler⟩] }) first rfl (feedOf?_of_route routed)
  refine ⟨_, _, drawn, rfl, rfl, .inl ⟨_, List.mem_append_right _ (List.mem_singleton_self _), rfl⟩, serves, ?_⟩
  have known : (f.outlet? key.id).isNone = false := by simpa using known
  simp [Feed.step, Feed.enter, Feed.isActive, free, kept, known, active]

/-- Nobody is subscribed to a signal but at the feed that serves it. -/
theorem Reachable.subscribersOf_elsewhere (reachable : Reachable settings plans h) (served : h.feedOf? signal = some i)
    {j : Nat} (other : j ≠ i) : h.subscribersOf j signal = [] := by
  obtain ⟨⟨i', kind, o⟩, found, rfl⟩ := Option.map_eq_some_iff.1 served
  obtain ⟨f, there, known⟩ := outlet?_of_find? found
  refine List.eq_nil_iff_forall_not_mem.2 fun e mem => other ?_
  obtain ⟨g, there', p, known', -⟩ := mem_subscribersOf.1 mem
  exact reachable.same_feed there' there (Option.isSome_of_eq_some known') (Option.isSome_of_eq_some known)

end Routed

end Hub

namespace Hub

/-! ### Hubs with the same signals -/

/-- The feed that serves a signal, and the signal's key. -/
def place? (h : Hub V H R) (signal : SignalId) : Option (Nat × Key) := (h.find? signal).map fun e => (e.1, e.2.2.key)

variable {g h : Hub V H R}

theorem place?_congr (same : g.feeds.map Feed.keys = h.feeds.map Feed.keys) (signal : SignalId) :
    g.place? signal = h.place? signal := by
  have listed : ∀ k : Hub V H R, k.place? signal =
      ((k.feeds.map Feed.keys).zipIdx.flatMap fun e => e.1.map fun key => (e.2, key)).find? (·.2.id = signal) := by
    intro k
    have keyed : k.outlets.map (fun e => (e.1, e.2.2.key)) =
        (k.feeds.map Feed.keys).zipIdx.flatMap fun e => e.1.map fun key => (e.2, key) := by
      simp [outlets, List.map_flatMap, List.zipIdx_map, List.flatMap_map, Feed.keys, Function.comp_def]
    rw [← keyed, List.find?_map]
    rfl
  rw [listed, listed, same]

theorem feedOf?_congr (same : g.feeds.map Feed.keys = h.feeds.map Feed.keys) (signal : SignalId) :
    g.feedOf? signal = h.feedOf? signal := by
  have placed : ∀ k : Hub V H R, k.feedOf? signal = (k.place? signal).map (·.1) := fun k => by
    rw [feedOf?, place?, Option.map_map]
    rfl
  rw [placed, placed, place?_congr same]

theorem route_congr (same : g.feeds.map Feed.keys = h.feeds.map Feed.keys) (key : Key) : g.route key = h.route key := by
  have placed : ∀ k : Hub V H R, k.route key = (k.place? key.id).elim (.error (.unknownSignal key.id))
      fun e => if e.2.type = key.type then .ok e.1 else .error (.typeMismatch key.id key.type) := fun k => by
    rw [route, place?]
    cases k.find? key.id <;> rfl
  rw [placed, placed, place?_congr same]

end Hub

end LazyHub
