import LazyHub.Proofs.Feed.Ledger
import LazyHub.Proofs.Hub.Sound

/-!
# What a feed of a hub goes through

A feed belongs to a hub, or its clients hold it themselves; a `Tenure` is one of the two, and
decides which steps there are. `Hub.Arises` is every state that a hub comes to under a tenure.

A hub's run is a run of each of its feeds, with other steps in between. `Hub.Mirrors` puts the two
histories side by side, and `Arises.mirrors` says that there is such a run of the feed for every
run of the hub. What can be read off one history can so be read off the other
(`Mirrors.flatMap_eq`): it is enough to look at the steps that the feed makes.
-/

namespace LazyHub

variable {V H R : Type}

/-- Who holds the feeds. -/
inductive Tenure where
  /-- A hub, and nobody else. -/
  | hub
  /-- Clients; there is a single feed then. -/
  | clients

/-- The steps that can be made. -/
def Tenure.Allows : Tenure → HubLabel V H R → Prop
  | .hub, l => l.IsOwn
  | .clients, _ => True

/-- The steps that can be a feed's: neither the hub's own nor its workers'. -/
def HubLabel.IsOfFeed : HubLabel V H R → Prop
  | .move (.subscribe _) | .move (.unsubscribe ..) | .move (.refresh _) | .move (.shutdown _)
  | .move (.advance ..) | .move .close | .hear .. | .invoke .. | .use .. => True
  | .move _ => False

namespace Hub

theorem Serves.isOfFeed {h g : Hub V H R} {l : HubLabel V H R} {i : Nat} {fl : FeedLabel V H R}
    (s : h.Serves l i fl g) : l.IsOfFeed := by
  cases s <;> trivial

/-- A label stands for one step of one feed at most. -/
theorem Serves.same {h g k : Hub V H R} {l : HubLabel V H R} {i j : Nat} {fl fm : FeedLabel V H R}
    (s : h.Serves l i fl g) (t : h.Serves l j fm k) : i = j ∧ fl = fm ∧ g = k := by
  cases s with
  | subscribe drawn _ routes =>
    cases t with
    | subscribe drawn' _ routes' =>
      obtain rfl := Option.some.inj (drawn.symm.trans drawn')
      exact ⟨Option.some.inj (routes.symm.trans routes'), rfl, rfl⟩
  | unsubscribe _ routes =>
    cases t with
    | unsubscribe _ routes' => exact ⟨Option.some.inj (routes.symm.trans routes'), rfl, rfl⟩
  | close closing =>
    cases t with
    | close closing' =>
      obtain rfl := Life.closing.inj (closing.symm.trans closing')
      exact ⟨rfl, rfl, rfl⟩
  | use made =>
    cases t with
    | use made' => exact ⟨rfl, made.trans made'.symm, rfl⟩
  | refresh | shutdown | advance | hear | invoke =>
    cases t
    exact ⟨rfl, rfl, rfl⟩

/-- How a hub over some plans starts out. -/
inductive Opens (plans : List (FeedPlan V)) : Tenure → Hub V H R → Prop where
  /-- It is assembled. -/
  | assembled {settings : Settings} {h : Hub V H R} (start : assemble settings plans = .ok h) :
      Opens plans .hub h
  /-- It is no more than a single feed. -/
  | lone {settings : Settings} {plan : FeedPlan V} {h : Hub V H R} (only : plans = [plan])
      (start : lone settings plan = .ok h) : Opens plans .clients h

/-- The step that a feed makes in a step of its hub: the one that the label stands for, or the dropping of
the handle that a hub has on it when the hub lets go of its feeds. -/
inductive Makes (h : Hub V H R) (i : Nat) (f : Feed V H R) : HubLabel V H R → FeedLabel V H R → Prop where
  /-- The label stands for the step. -/
  | served {l : HubLabel V H R} {fl : FeedLabel V H R} {g : Hub V H R} (serves : h.Serves l i fl g) : Makes h i f l fl
  /-- The hub lets go of its feeds. -/
  | letGo (inactive : f.registration = none) : Makes h i f (.move .close) .drop

/-- What moves on at a feed moves on at the hub. -/
theorem Serves.advance_eq {h g : Hub V H R} {l : HubLabel V H R} {i : Nat} {move : FeedMove V}
    (serves : h.Serves l i (.advance move) g) : l = .move (.advance i move) := by
  cases serves with
  | advance => rfl
  | @use _ u _ made => cases u <;> cases made

/-- A feed hears from its provider if the hub does. -/
theorem Makes.hear_iff {h : Hub V H R} {i : Nat} {f : Feed V H R} {l : HubLabel V H R} {fl : FeedLabel V H R}
    (makes : h.Makes i f l fl) (reply : ProviderReply R) : fl = .hear reply ↔ l = .hear i reply := by
  cases makes with
  | served serves =>
    cases serves with
    | hear => simp
    | @use _ u _ made => cases u <;> cases made <;> exact ⟨nofun, nofun⟩
    | _ => exact ⟨nofun, nofun⟩
  | letGo => exact ⟨nofun, nofun⟩

/-- A feed's callback is invoked if the hub's is. -/
theorem Makes.invoke {h : Hub V H R} {i : Nat} {f : Feed V H R} {l : HubLabel V H R} {fl : FeedLabel V H R}
    (makes : h.Makes i f l fl) {epoch : Nat} {payload : R}
    (invoked : fl = .invoke epoch payload) : l = .invoke i epoch payload := by
  cases makes with
  | served serves =>
    cases serves with
    | invoke =>
      cases invoked
      rfl
    | @use _ u _ made => cases u <;> cases made.symm.trans invoked
    | _ => cases invoked
  | letGo => cases invoked

/-- A step of a hub goes past a feed: it is not a step of this feed, it leaves the feed as it is, and no
call is made for it. -/
structure Passes (i : Nat) (m : Moment (Hub V H R) (HubLabel V H R) (HubEffect V H)) : Prop where
  /-- Another feed makes a step, or none. -/
  unserved : ∀ fl g, ¬ m.before.Serves m.label i fl g
  /-- The feed is as it was. -/
  same : m.after.state.feeds[i]? = m.before.feeds[i]?
  /-- No call is made for it. -/
  unasked : ∀ call, .asked i call ∉ m.after.effects

/-- **A hub's history beside the history of one of its feeds.** -/
inductive Mirrors (i : Nat) : List (Moment (Hub V H R) (HubLabel V H R) (HubEffect V H)) →
    List (Moment (Feed V H R) (FeedLabel V H R) (FeedEffect V)) → Prop where
  /-- Nothing has happened. -/
  | nil : Mirrors i [] []
  /-- The feed makes a step. -/
  | served {h g : Hub V H R} {l : HubLabel V H R} {f : Feed V H R} {fl : FeedLabel V H R}
      {fr : Feed.Result V H R} {past : List (Moment (Hub V H R) (HubLabel V H R) (HubEffect V H))}
      {own : List (Moment (Feed V H R) (FeedLabel V H R) (FeedEffect V))} (serves : h.Serves l i fl g)
      (there : h.feeds[i]? = some f) (onward : Mirrors i past own) :
      Mirrors i (⟨h, l, g.afterFeed i fr⟩ :: past) (⟨f, fl, fr⟩ :: own)
  /-- Something else happens. -/
  | passed {m : Moment (Hub V H R) (HubLabel V H R) (HubEffect V H)}
      {past : List (Moment (Hub V H R) (HubLabel V H R) (HubEffect V H))}
      {own : List (Moment (Feed V H R) (FeedLabel V H R) (FeedEffect V))} (passes : Passes i m)
      (onward : Mirrors i past own) : Mirrors i (m :: past) own
  /-- The hub lets go of its feeds, which is to drop a handle on each. -/
  | letGo {h : Hub V H R} {f : Feed V H R} {fr : Feed.Result V H R}
      {past : List (Moment (Hub V H R) (HubLabel V H R) (HubEffect V H))}
      {own : List (Moment (Feed V H R) (FeedLabel V H R) (FeedEffect V))}
      (unserved : ∀ fl g, ¬ h.Serves (.move .close) i fl g) (silent : fr.effects = []) (onward : Mirrors i past own) :
      Mirrors i (⟨h, .move .close, { state := h.letGo }⟩ :: past) (⟨f, .drop, fr⟩ :: own)

theorem Mirrors.append {i : Nat} {past more : List (Moment (Hub V H R) (HubLabel V H R) (HubEffect V H))}
    {own next : List (Moment (Feed V H R) (FeedLabel V H R) (FeedEffect V))} (m : Mirrors i past own)
    (n : Mirrors i more next) : Mirrors i (past ++ more) (own ++ next) := by
  induction m with
  | nil => exact n
  | served serves there onward ih => exact .served serves there ih
  | passed passes onward ih => exact .passed passes ih
  | letGo unserved silent onward ih => exact .letGo unserved silent ih

/-- Every step of a hub that is a step of the feed stands in the feed's history. -/
theorem Mirrors.served_of_mem {i : Nat} {past : List (Moment (Hub V H R) (HubLabel V H R) (HubEffect V H))}
    {own : List (Moment (Feed V H R) (FeedLabel V H R) (FeedEffect V))} (m : Mirrors i past own)
    {s : Moment (Hub V H R) (HubLabel V H R) (HubEffect V H)} (mem : s ∈ past) {fl : FeedLabel V H R} {g : Hub V H R}
    (serves : s.before.Serves s.label i fl g) :
    ∃ f fr, s.before.feeds[i]? = some f ∧ s.after = g.afterFeed i fr ∧ ⟨f, fl, fr⟩ ∈ own := by
  induction m with
  | nil => cases mem
  | served serves' there onward ih =>
    rcases List.mem_cons.1 mem with rfl | mem
    · obtain ⟨-, rfl, rfl⟩ := serves.same serves'
      exact ⟨_, _, there, rfl, List.mem_cons_self⟩
    · obtain ⟨f, fr, there, after, mem⟩ := ih mem
      exact ⟨f, fr, there, after, List.mem_cons_of_mem _ mem⟩
  | passed passes onward ih =>
    rcases List.mem_cons.1 mem with rfl | mem
    · exact absurd serves (passes.unserved _ _)
    · exact ih mem
  | letGo unserved silent onward ih =>
    rcases List.mem_cons.1 mem with rfl | mem
    · exact absurd serves (unserved _ _)
    · obtain ⟨f, fr, there, after, mem⟩ := ih mem
      exact ⟨f, fr, there, after, List.mem_cons_of_mem _ mem⟩

/-- Every step in the feed's history is a step of the hub, or the dropping of the hub's handle. -/
theorem Mirrors.served_of_own {i : Nat} {past : List (Moment (Hub V H R) (HubLabel V H R) (HubEffect V H))}
    {own : List (Moment (Feed V H R) (FeedLabel V H R) (FeedEffect V))} (m : Mirrors i past own)
    {s : Moment (Feed V H R) (FeedLabel V H R) (FeedEffect V)} (mem : s ∈ own) :
    s.label = .drop ∨ ∃ m ∈ past, ∃ g, m.before.Serves m.label i s.label g ∧ m.before.feeds[i]? = some s.before := by
  induction m with
  | nil => cases mem
  | served serves there onward ih =>
    rcases List.mem_cons.1 mem with rfl | mem
    · exact .inr ⟨_, List.mem_cons_self, _, serves, there⟩
    · exact (ih mem).imp_right fun ⟨m, among, found⟩ => ⟨m, List.mem_cons_of_mem _ among, found⟩
  | passed passes onward ih =>
    exact (ih mem).imp_right fun ⟨m, among, found⟩ => ⟨m, List.mem_cons_of_mem _ among, found⟩
  | letGo unserved silent onward ih =>
    rcases List.mem_cons.1 mem with rfl | mem
    · exact .inl rfl
    · exact (ih mem).imp_right fun ⟨m, among, found⟩ => ⟨m, List.mem_cons_of_mem _ among, found⟩

/-- **What is read off a hub's history** about a feed is read off the feed's own history, if the two
readings agree on the steps that the feed makes. -/
theorem Mirrors.flatMap_eq {α : Type} {i : Nat}
    {past : List (Moment (Hub V H R) (HubLabel V H R) (HubEffect V H))}
    {own : List (Moment (Feed V H R) (FeedLabel V H R) (FeedEffect V))} (m : Mirrors i past own)
    {atHub : Moment (Hub V H R) (HubLabel V H R) (HubEffect V H) → List α}
    {atFeed : Moment (Feed V H R) (FeedLabel V H R) (FeedEffect V) → List α}
    (served : ∀ {h g l f fl fr}, h.Serves l i fl g → h.feeds[i]? = some f →
      atHub ⟨h, l, g.afterFeed i fr⟩ = atFeed ⟨f, fl, fr⟩)
    (passed : ∀ m, Passes i m → atHub m = [])
    (letGo : ∀ h, atHub ⟨h, .move .close, { state := h.letGo }⟩ = [])
    (drop : ∀ f fr, fr.effects = [] → atFeed ⟨f, .drop, fr⟩ = []) :
    past.flatMap atHub = own.flatMap atFeed := by
  induction m with
  | nil => rfl
  | served serves there onward ih => rw [List.flatMap_cons, List.flatMap_cons, served serves there, ih]
  | passed passes onward ih => rw [List.flatMap_cons, passed _ passes, ih, List.nil_append]
  | letGo unserved silent onward ih => rw [List.flatMap_cons, List.flatMap_cons, letGo, drop _ _ silent, ih]

/-! ### The effects of a feed's step -/

theorem asked_absorbAll {h : Hub V H R} {i j : Nat} {es : List (FeedEffect V)} {call : FeedCall}
    (asked : .asked j call ∈ (h.absorbAll i es).2) : i = j ∧ .asked call ∈ es := by
  induction es generalizing h with
  | nil => cases asked
  | cons e rest ih =>
    rcases List.mem_append.1 asked with first | later
    · cases e with
      | asked call' =>
        cases List.mem_singleton.1 first
        exact ⟨rfl, List.mem_cons_self⟩
      | released | noted => cases List.mem_singleton.1 first
      | owed signal value =>
        dsimp only [absorb] at first
        split at first
        · cases first
        · cases List.mem_singleton.1 first
    · exact (ih later).imp_right (List.mem_cons_of_mem _)

theorem eq_of_lone {settings : Settings} {plan : FeedPlan V} {h : Hub V H R}
    (start : lone settings plan = .ok h) :
    h = { feeds := [.ofPlan plan], pool := .ofSize settings.workerCount settings.catches, life := .closed } := by
  unfold lone at start
  cases required : settings.requireRuntime with
  | error failure =>
    rw [required] at start
    cases start
  | ok =>
    rw [required] at start
    exact (Except.ok.inj start).symm

variable [SignalValue V]

/-! ### Where a hub comes to -/

/-- The states that a hub over some plans comes to, whoever holds its feeds. -/
inductive Arises (plans : List (FeedPlan V)) (tenure : Tenure) : Hub V H R → Prop where
  /-- The hub starts out. -/
  | opened {h : Hub V H R} (opens : Opens plans tenure h) : Arises plans tenure h
  /-- The hub makes a step. -/
  | step {h : Hub V H R} {l : HubLabel V H R} {r : Result V H R} (before : Arises plans tenure h)
      (allowed : tenure.Allows l) (made : h.step l = some r) : Arises plans tenure r.state

section Arises

variable {plans : List (FeedPlan V)} {tenure : Tenure} {h k : Hub V H R} {labels : List (HubLabel V H R)}
  {es : List (HubEffect V H)}

theorem Arises.run (before : Arises plans tenure h) (allowed : ∀ l ∈ labels, tenure.Allows l)
    (ran : run Hub.step labels h = some (k, es)) : Arises plans tenure k :=
  run_keeps (fun l hl _ _ hp made => hp.step (allowed l hl) made) ran before

omit plans tenure in
theorem Reachable.arises {settings : Settings} {plans : List (FeedPlan V)} (reachable : Reachable settings plans h) :
    Arises plans .hub h := by
  induction reachable with
  | assembled start => exact .opened (.assembled start)
  | step before own made ih => exact ih.step own made

/-- A hub whose feeds are its own is reachable, and one whose feeds are held by clients never closes. -/
theorem Arises.cases (arises : Arises plans tenure h) :
    tenure = .hub ∧ (∃ settings, Reachable settings plans h) ∨ tenure = .clients ∧ h.life = .closed := by
  induction arises with
  | opened opens =>
    cases opens with
    | assembled start => exact .inl ⟨rfl, _, .assembled start⟩
    | lone only start =>
      exact .inr ⟨rfl, by rw [eq_of_lone start]⟩
  | step before allowed made ih =>
    rcases ih with ⟨rfl, settings, reachable⟩ | ⟨rfl, closed⟩
    · exact .inl ⟨rfl, settings, reachable.step allowed made⟩
    · exact .inr ⟨rfl, (transition_of_step made).life_closed closed⟩

/-- When a hub lets go of its feeds, it has one handle on each, and they are inactive. -/
theorem Arises.inactive_of_closing (arises : Arises plans tenure h) {next : Nat}
    (closing : h.life = .closing next) (quiet : h.isQuiet) (all : h.feeds.length ≤ next) {f : Feed V H R}
    (mem : f ∈ h.feeds) : f.handles = 1 ∧ f.holder = none ∧ f.registration = none := by
  rcases arises.cases with ⟨-, settings, reachable⟩ | ⟨-, closed⟩
  · obtain ⟨-, still, down⟩ := (owns_of_closing closing).1 reachable.sound.owns
    obtain ⟨i, there⟩ := List.mem_iff_getElem?.1 mem
    have lt := Nat.lt_of_lt_of_le (List.getElem?_eq_some_iff.1 there).1 all
    have free := free_of_isQuiet quiet mem
    exact ⟨(still f mem).1, free, (down i lt f there).2 free⟩
  · cases closed.symm.trans closing

/-- A step of a hub is a step of a feed, or goes past it. -/
theorem Transition.mirrors {l : HubLabel V H R} {r : Result V H R} (arises : Arises plans tenure h)
    (t : h.Transition l r) {i : Nat} {f : Feed V H R} (there : h.feeds[i]? = some f) :
    (∃ fl fr, r.state.feeds[i]? = some fr.state ∧ f.step fl = some fr ∧
        (∀ {past own}, Mirrors i past own → Mirrors i (⟨h, l, r⟩ :: past) (⟨f, fl, fr⟩ :: own)) ∧
        (∀ fm g, h.Serves l i fm g → fm = fl ∧ r.answer = fr.answer) ∧ h.Makes i f l fl) ∨
      r.state.feeds[i]? = some f ∧ Passes i ⟨h, l, r⟩ := by
  have past : ¬ l.IsOfFeed → r.state.feeds = h.feeds → (∀ call, .asked i call ∉ r.effects) →
      r.state.feeds[i]? = some f ∧ Passes i ⟨h, l, r⟩ := fun unserved same unasked =>
    ⟨same ▸ there, fun fl g serves => unserved serves.isOfFeed, congrArg (·[i]?) same, unasked⟩
  cases t with
  | @feed l j fl g f' fr serves there' made =>
    by_cases eq : j = i
    · subst eq
      obtain rfl : f = f' := Option.some.inj (there.symm.trans there')
      refine .inl ⟨fl, fr, ?_, made, .served serves there, fun fm k other => ⟨(other.same serves).2.1, rfl⟩,
        .served serves⟩
      rw [afterFeed_feeds, serves.feeds_eq, List.getElem?_set_self', there]
      rfl
    · right
      have same : (g.afterFeed j fr).state.feeds[i]? = h.feeds[i]? := by
        rw [afterFeed_feeds, serves.feeds_eq, List.getElem?_set_ne eq]
      exact ⟨same.trans there, fun fm k other => eq (serves.same other).1, same,
        fun call asked => eq (asked_absorbAll asked).1⟩
  | letGo closing quiet all =>
    obtain ⟨one, free, inactive⟩ := arises.inactive_of_closing closing quiet all (List.mem_of_getElem? there)
    have unserved : ∀ fl g, ¬ h.Serves (.move .close) i fl g := by
      intro fl g serves
      cases serves with
      | close closing' _ more =>
        cases closing.symm.trans closing'
        exact absurd more (Nat.not_lt.2 all)
    refine .inl ⟨.drop, { state := { f with handles := f.handles - 1 } }, ?_, ?_, .letGo unserved rfl,
      fun fm g serves => absurd serves (unserved fm g), .letGo inactive⟩
    · exact List.getElem?_map.trans (congrArg _ there)
    · simp [Feed.step, Feed.drop, one, free, inactive]
  | returned =>
    refine .inr (past id rfl fun call asked => ?_)
    dsimp only at asked
    split at asked
    · cases List.mem_singleton.1 asked
    · cases asked
  | call | stop | dropLast => exact .inr (past id rfl fun call asked => by cases List.mem_singleton.1 asked)
  | _ => exact .inr (past id rfl fun _ => List.not_mem_nil)

/-- What a hub's feed does is what a hub lets it do. -/
theorem Makes.ofHub {l : HubLabel V H R} {i : Nat} {f : Feed V H R} {fl : FeedLabel V H R} {fr : Feed.Result V H R}
    (makes : h.Makes i f l fl) (arises : Arises plans .hub h) (own : l.IsOwn) (mem : f ∈ h.feeds)
    (step : f.step fl = some fr) : f.OfHub fl := by
  rcases arises.cases with ⟨-, settings, reachable⟩ | ⟨other, -⟩
  · cases makes with
    | served serves => exact serves.ofHub own reachable.sound mem step
    | letGo inactive => exact inactive
  · cases other

/-- **A run of a hub is a run of each of its feeds**, with other steps in between. -/
theorem Arises.mirrors (arises : Arises plans tenure h) (allowed : ∀ l ∈ labels, tenure.Allows l)
    (ran : LazyHub.run Hub.step labels h = some (k, es)) {i : Nat} {f : Feed V H R} (there : h.feeds[i]? = some f) :
    ∃ own g fes, k.feeds[i]? = some g ∧ LazyHub.run Feed.step own f = some (g, fes) ∧
      Mirrors i (trail Hub.step labels h) (trail Feed.step own f) := by
  induction labels generalizing h es f with
  | nil =>
    cases ran
    exact ⟨[], f, [], there, rfl, .nil⟩
  | cons l rest ih =>
    obtain ⟨r, later, made, onward, rfl⟩ := run_cons.1 ran
    have next := arises.step (allowed l List.mem_cons_self) made
    have allowed' : ∀ l ∈ rest, tenure.Allows l := fun l hl => allowed l (List.mem_cons_of_mem _ hl)
    rw [trail_cons made]
    rcases (transition_of_step made).mirrors arises there with ⟨fl, fr, there', step, extend, -⟩ | ⟨there', passes⟩
    · obtain ⟨own, g, fes, final, ran, mirrors⟩ := ih next allowed' onward there'
      refine ⟨fl :: own, g, _, final, run_cons.2 ⟨fr, fes, step, ran, rfl⟩, ?_⟩
      rw [trail_cons step]
      exact extend mirrors
    · obtain ⟨own, g, fes, final, ran, mirrors⟩ := ih next allowed' onward there'
      exact ⟨own, g, fes, final, ran, .passed passes mirrors⟩

omit [SignalValue V] in
theorem Opens.ofPlan {start : Hub V H R} (opens : Opens plans tenure start) {i : Nat} {f : Feed V H R}
    (there : start.feeds[i]? = some f) : ∃ plan, plans[i]? = some plan ∧ f = .ofPlan plan := by
  cases opens with
  | assembled start =>
    obtain ⟨-, rfl⟩ := eq_of_assemble start
    obtain ⟨plan, hp, rfl⟩ := Option.map_eq_some_iff.1 (List.getElem?_map.symm.trans there)
    exact ⟨plan, hp, rfl⟩
  | @lone _ plan _ only start =>
    subst only
    rw [eq_of_lone start] at there
    cases i with
    | zero => exact ⟨plan, rfl, (Option.some.inj there).symm⟩
    | succ => cases there

/-- No feed comes or goes. -/
theorem Transition.length_feeds {l : HubLabel V H R} {r : Result V H R} (t : h.Transition l r) :
    r.state.feeds.length = h.feeds.length := by
  cases t with
  | feed serves => rw [afterFeed_feeds, List.length_set, serves.feeds_eq]
  | letGo => exact List.length_map _
  | _ => rfl

/-- What every step of a feed keeps holds of the feeds of a hub, however far it has come. -/
theorem Arises.keeps {P : Feed V H R → Prop} (planned : ∀ plan, P (.ofPlan plan))
    (keeps : ∀ {f l r}, P f → Feed.step f l = some r → P r.state) (arises : Arises plans tenure h) {i : Nat}
    {f : Feed V H R} (there : h.feeds[i]? = some f) : P f := by
  induction arises generalizing f with
  | opened opens =>
    obtain ⟨plan, -, rfl⟩ := opens.ofPlan there
    exact planned plan
  | @step h l r before allowed made ih =>
    have t := transition_of_step made
    have lt : i < h.feeds.length := t.length_feeds ▸ (List.getElem?_eq_some_iff.1 there).1
    rcases t.mirrors before (List.getElem?_eq_getElem lt) with ⟨fl, fr, there', step, -⟩ | ⟨there', -⟩
    · obtain rfl := Option.some.inj (there.symm.trans there')
      exact keeps (ih (List.getElem?_eq_getElem lt)) step
    · obtain rfl := Option.some.inj (there.symm.trans there')
      exact ih (List.getElem?_eq_getElem lt)

/-- The feeds of a hub are in order and tidy, and their books are kept. -/
theorem Arises.kept (arises : Arises plans tenure h) {i : Nat} {f : Feed V H R} (there : h.feeds[i]? = some f) :
    f.Orderly ∧ f.Tidy ∧ ∃ past, Feed.Books past f :=
  arises.keeps (P := fun f => f.Orderly ∧ f.Tidy ∧ ∃ past, Feed.Books past f)
    (fun plan => ⟨Feed.orderly_ofPlan plan, Feed.tidy_ofPlan plan, [], Feed.books_ofPlan plan⟩) Feed.kept_of_step there

/-- **What a feed has been through since its hub started out** is a run of the feed from its plan. -/
theorem Opens.mirrors {start : Hub V H R} (opens : Opens plans tenure start)
    (allowed : ∀ l ∈ labels, tenure.Allows l) (ran : LazyHub.run Hub.step labels start = some (h, es))
    {i : Nat} {f : Feed V H R} (there : h.feeds[i]? = some f) :
    ∃ plan own fes, plans[i]? = some plan ∧ LazyHub.run Feed.step own (.ofPlan plan) = some (f, fes) ∧
      Mirrors i (trail Hub.step labels start) (trail Feed.step own (.ofPlan plan)) := by
  have many : h.feeds.length = start.feeds.length :=
    run_keeps (P := fun k => k.feeds.length = start.feeds.length)
      (fun _ _ _ _ same made => ((transition_of_step made).length_feeds).trans same) ran rfl
  have lt : i < start.feeds.length := many ▸ (List.getElem?_eq_some_iff.1 there).1
  obtain ⟨plan, hp, first⟩ := opens.ofPlan (List.getElem?_eq_getElem lt)
  obtain ⟨own, g, fes, final, ranOwn, mirrors⟩ :=
    (Arises.opened opens).mirrors allowed ran (first ▸ List.getElem?_eq_getElem lt)
  obtain rfl := Option.some.inj (there.symm.trans final)
  exact ⟨plan, own, fes, hp, ranOwn, mirrors⟩

end Arises

end Hub

end LazyHub
