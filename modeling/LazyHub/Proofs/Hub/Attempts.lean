import LazyHub.Proofs.Feed.Fetching
import LazyHub.Proofs.Hub.AsIf
import LazyHub.Proofs.Hub.Reading

/-!
# Attempts to subscribe

From where it enters an inactive feed a subscription holds the feed's state lock (`Hub.Midway`), and whatever is
done meanwhile is a step of its own or passes the lock by (`Midway.onward`).

How it fails decides what was seen of it. If the query or the decoding fails, none of its steps changes more than
the lock's holder (`Finishes.isSeen_fetching`). Otherwise it has done what a read might have done up to the request
for a registration (`Finishes.registers`), and from there on its steps are not seen either, provided that the
callback is not invoked before it is refused (`Finishes.isSeen_registering`).
-/

namespace LazyHub

/-- The token of the subscription that a pull is made for. -/
def Section.awaited? {V H R : Type} (s : Section V H R) : Option Token := s.purpose?.bind (·.token?)

namespace Hub

variable {V H R : Type} [SignalValue V] {settings : Settings} {plans : List (FeedPlan V)} {h : Hub V H R}
  {l : HubLabel V H R} {r : Result V H R} {i : Nat} {f : Feed V H R}

/-- A step of a hub that stands for a step of a feed is one. -/
theorem Serves.exists_step {fl : FeedLabel V H R} {g : Hub V H R} (serves : h.Serves l i fl g)
    (made : h.step l = some r) (there : h.feeds[i]? = some f) : ∃ fr, f.step fl = some fr ∧ r = g.afterFeed i fr := by
  cases transition_of_step made with
  | feed serves' there' step =>
    obtain ⟨rfl, rfl, rfl⟩ := serves.same serves'
    obtain rfl := Option.some.inj (there.symm.trans there')
    exact ⟨_, step, rfl⟩
  | letGo closing _ all =>
    cases serves with
    | close closing' _ more =>
      cases closing.symm.trans closing'
      exact absurd more (Nat.not_lt.2 all)
  | _ => cases serves

omit [SignalValue V] in
theorem Serves.of_advance {g : Hub V H R} {move : FeedMove V} (serves : h.Serves l i (.advance move) g) :
    l = .move (.advance i move) := by
  cases serves with
  | advance => rfl
  | @use _ u _ made => cases u <;> cases made

/-- **What can be done while somebody pulls at a feed**: the feed makes a step, or it is passed over. -/
inductive Pulls (h : Hub V H R) (i : Nat) (f : Feed V H R) (s : Section V H R) (l : HubLabel V H R) (r : Result V H R) :
    Prop where
  /-- The feed makes a step. -/
  | feed {fl : FeedLabel V H R} {fr : Feed.Result V H R} (serves : h.Serves l i fl h) (step : f.step fl = some fr)
      (after : r = h.afterFeed i fr) (pulls : f.Pulls s fl fr)
  /-- The feed is passed over. -/
  | passed (unserved : ∀ fl g, ¬ h.Serves l i fl g) (there : r.state.feeds[i]? = some f)

theorem Reachable.pulls (reachable : Reachable settings plans h) (own : l.IsOwn) (made : h.step l = some r)
    (there : h.feeds[i]? = some f) {s : Section V H R} (held : f.holder = some s) (pulls : s.purpose?.isSome) :
    h.Pulls i f s l r := by
  have mem := List.mem_of_getElem? there
  by_cases served : ∃ fl g, h.Serves l i fl g
  · obtain ⟨fl, g, serves⟩ := served
    obtain ⟨fr, step, rfl⟩ := serves.exists_step made there
    have unhandled := serves.unhandled own
    have pulls := (Feed.transition_of_step step).pulls (reachable.orderly there) held pulls unhandled
    have same : g = h := by
      cases serves with
      | subscribe | close =>
        cases pulls with
        | aside aside => exact aside.elim
        | fetched isStep | fails isStep => exact isStep.elim
      | _ => rfl
    subst same
    exact .feed serves step rfl pulls
  · have unserved : ∀ fl g, ¬ h.Serves l i fl g := fun fl g serves => served ⟨fl, g, serves⟩
    refine .passed unserved ?_
    cases transition_of_step made with
    | @feed _ j _ _ _ _ serves =>
      have other : j ≠ i := fun eq => served ⟨_, _, eq ▸ serves⟩
      rw [afterFeed_feeds, serves.feeds_eq, List.getElem?_set_ne other]
      exact there
    | letGo _ quiet => cases held.symm.trans (free_of_isQuiet quiet mem)
    | _ => exact there

/-- A subscription no longer waits to reach its feed. -/
structure Gone (n : Nat) (h : Hub V H R) : Prop where
  /-- Its token was drawn. -/
  drawn : n < h.nextToken
  /-- No request has its token. -/
  left : ∀ q ∈ h.requests, q.token ≠ ⟨n⟩

omit [SignalValue V] in
/-- Where nothing is different, it is as if nothing were. -/
theorem Gone.asIf_eq {n : Nat} {φ : Option (Section V H R) → Option (Section V H R)} {χ : List Nat → List Nat}
    (gone : h.Gone n) (there : h.feeds[i]? = some f) (same : f.asIf φ χ = f) : h.asIf n i φ χ = h := by
  have feeds : h.feeds.modify i (·.asIf φ χ) = h.feeds := by
    apply List.ext_getElem?
    intro j
    rw [List.getElem?_modify]
    split
    · rename_i eq
      subst eq
      rw [there, Option.map_eq_map, Option.map_some, same]
    · cases h.feeds[j]? <;> rfl
  have requests : h.requests.filter (·.token ≠ ⟨n⟩) = h.requests := by simpa using gone.left
  exact congrArg₂ (fun feeds requests => ({ h with feeds, requests } : Hub V H R)) feeds requests

theorem Gone.step {n : Nat} (gone : h.Gone n) (made : h.step l = some r) : r.state.Gone n := by
  have t := transition_of_step made
  refine ⟨Nat.lt_of_lt_of_le gone.drawn t.nextToken_le, ?_⟩
  cases t with
  | feed serves =>
    rw [afterFeed_requests]
    exact fun q mem => gone.left q (serves.requests_sublist.subset mem)
  | draw =>
    intro q mem
    rcases List.mem_append.1 mem with mem | mem
    · exact gone.left q mem
    · rw [List.mem_singleton.1 mem]
      exact fun eq => absurd (Token.mk.inj eq) (Nat.ne_of_gt gone.drawn)
  | _ => exact gone.left

/-- Nobody subscribes under its token. -/
theorem Gone.ne {n : Nat} (gone : h.Gone n) (made : h.step l = some r) : l ≠ .move (.subscribe ⟨n⟩) := by
  rintro rfl
  cases transition_of_step made with
  | feed serves =>
    cases serves with
    | subscribe drawn named => exact gone.left _ (List.mem_of_find?_eq_some drawn) named

section Seen

variable {n : Nat} {φ : Option (Section V H R) → Option (Section V H R)} {χ : List Nat → List Nat} {s : Section V H R}

omit [SignalValue V] in
/-- A step of a feed is not seen if what it changes is not. -/
theorem asIf_afterFeed (there : h.feeds[i]? = some f) {fr : Feed.Result V H R} (same : fr.state.asIf φ χ = f.asIf φ χ)
    (unowed : ∀ signal value, .owed signal value ∉ fr.effects) :
    (h.afterFeed i fr).state.asIf n i φ χ = h.asIf n i φ χ := by
  have state : (h.afterFeed i fr).state = { h with feeds := h.feeds.set i fr.state } := absorbAll_of_unowed _ _ unowed
  have feeds : (h.feeds.set i fr.state).modify i (·.asIf φ χ) = h.feeds.modify i (·.asIf φ χ) := by
    apply List.ext_getElem?
    intro j
    rw [List.getElem?_modify, List.getElem?_modify, List.getElem?_set]
    by_cases eq : i = j
    · subst eq
      obtain ⟨lt, rfl⟩ := List.getElem?_eq_some_iff.1 there
      simp [lt, same]
    · simp [eq]
  rw [state]
  exact congrArg (fun feeds => ({ h with feeds, requests := h.requests.filter (·.token ≠ ⟨n⟩) } : Hub V H R)) feeds

/-- A step of a hub is seen if the step of the feed is. -/
theorem Pulls.seen (p : h.Pulls i f s l r) (there : h.feeds[i]? = some f) (made : h.step l = some r)
    (gone : h.Gone n) (free : φ none = none)
    (feed : ∀ fl fr, h.Serves l i fl h → f.step fl = some fr → f.Pulls s fl fr →
      (f.asIf φ χ).step fl = some (fr.asIf φ χ)) :
    (h.asIf n i φ χ).step l = some (r.asIf n i φ χ) := by
  refine step_asIf made (gone.ne made) gone.drawn free ?_
  intro fl g f' fr serves there' step
  obtain rfl := Option.some.inj (there.symm.trans there')
  cases p with
  | feed serves' step' _ pulls =>
    obtain ⟨-, rfl, -⟩ := serves.same serves'
    obtain rfl := Option.some.inj (step.symm.trans step')
    exact feed fl fr serves' step pulls
  | passed unserved => exact absurd serves (unserved fl g)

end Seen

/-- **The steps of a subscription** to a feed, by its token. -/
inductive IsOf (n i : Nat) (m : Moment (Hub V H R) (HubLabel V H R) (HubEffect V H)) : Prop where
  /-- It draws its token. -/
  | draws {key : Key} {handler : H} (label : m.label = .move (.draw key handler)) (next : m.before.nextToken = n)
  /-- It enters its feed. -/
  | enters (label : m.label = .move (.subscribe ⟨n⟩))
  /-- It holds the feed's state lock, and moves on. -/
  | holds {f : Feed V H R} {fl : FeedLabel V H R} {g : Hub V H R} (there : m.before.feeds[i]? = some f)
      (awaits : f.awaited? = some ⟨n⟩) (serves : m.before.Serves m.label i fl g) (byHolder : f.ByHolder fl)

/-- **A subscription pulls**: it has come to a stage `s`. -/
structure Midway (settings : Settings) (plans : List (FeedPlan V)) (n i : Nat) (h : Hub V H R) (f : Feed V H R)
    (s : Section V H R) : Prop where
  /-- The hub has come there. -/
  reachable : Reachable settings plans h
  /-- The subscription has reached its feed. -/
  gone : h.Gone n
  /-- The feed. -/
  there : h.feeds[i]? = some f
  /-- How far the subscription has come. -/
  held : f.holder = some s
  /-- It is this subscription. -/
  awaits : s.awaited? = some ⟨n⟩

section Midway

variable {n : Nat} {s s' : Section V H R} {g k : Hub V H R} {labels : List (HubLabel V H R)} {es : List (HubEffect V H)}
  {failure : HubFailure}

theorem Midway.pulls (mid : Midway settings plans n i h f s) : s.purpose?.isSome := by
  obtain ⟨purpose, pulls, -⟩ := Option.bind_eq_some_iff.1 mid.awaits
  simp [pulls]

theorem Midway.step (mid : Midway settings plans n i h f s) (own : l.IsOwn) (made : h.step l = some r) : h.Pulls i f s l r :=
  mid.reachable.pulls own made mid.there mid.held mid.pulls

theorem Midway.next (mid : Midway settings plans n i h f s) (own : l.IsOwn) (made : h.step l = some r) {g : Feed V H R}
    (there : r.state.feeds[i]? = some g) (held : g.holder = some s') (same : s'.purpose? = s.purpose?) :
    Midway settings plans n i r.state g s' :=
  ⟨mid.reachable.step own made, mid.gone.step made, there, held, by rw [Section.awaited?, same]; exact mid.awaits⟩

theorem Midway.isOf (mid : Midway settings plans n i h f s) {fl : FeedLabel V H R} (serves : h.Serves l i fl g)
    (byHolder : f.ByHolder fl) : IsOf n i ⟨h, l, r⟩ :=
  .holds mid.there (by rw [Feed.awaited?, Feed.pull?, mid.held]; exact mid.awaits) serves byHolder

theorem Midway.not_isOf (mid : Midway settings plans n i h f s) (made : h.step l = some r)
    (others : ∀ fl g, h.Serves l i fl g → ¬ f.ByHolder fl) : ¬ IsOf n i ⟨h, l, r⟩ := by
  rintro (⟨-, next⟩ | label | ⟨there, -, serves, byHolder⟩)
  · exact absurd next (Nat.ne_of_gt mid.gone.drawn)
  · exact mid.gone.ne made label
  · obtain rfl := Option.some.inj (mid.there.symm.trans there)
    exact others _ _ serves byHolder

/-- How a subscription goes on that does not end. -/
inductive Onward : Section V H R → Section V H R → Prop where
  /-- It waits. -/
  | waits {s : Section V H R} : Onward s s
  /-- It comes closer to the payload. -/
  | fetched {s s' : Section V H R} (fetches : s.Fetches) (next : s'.Fetches ∨ s'.HasFetched) : Onward s s'
  /-- It takes the update lock. -/
  | seeds {purpose : Purpose H} {values : List (Emission V)} : Onward (.seeding purpose values) (.writing purpose)
  /-- It asks for a registration. -/
  | registers {purpose : Purpose H} : Onward (.writing purpose) (.registering purpose)

/-- Whatever happens while a subscription pulls, it waits or goes on. -/
theorem Midway.onward (mid : Midway settings plans n i h f s) (own : l.IsOwn) (made : h.step l = some r) {f' : Feed V H R}
    (there : r.state.feeds[i]? = some f') (busy : f'.holder ≠ none) :
    ∃ s', Midway settings plans n i r.state f' s' ∧ Onward s s' ∧ f'.epoch = f.epoch := by
  cases mid.step own made with
  | passed _ there' =>
    obtain rfl := Option.some.inj (there.symm.trans there')
    exact ⟨s, mid.next own made there mid.held rfl, .waits, rfl⟩
  | feed _ _ after pulls =>
    have there' := there
    rw [after, getElem?_afterFeed mid.there] at there'
    obtain rfl := Option.some.inj there'
    cases pulls with
    | aside _ holder epoch => exact ⟨s, mid.next own made there holder rfl, .waits, epoch⟩
    | fetched _ fetches purpose next => exact ⟨_, mid.next own made there rfl purpose, .fetched fetches next, rfl⟩
    | seeds => exact ⟨_, mid.next own made there rfl rfl, .seeds, rfl⟩
    | registers => exact ⟨_, mid.next own made there rfl rfl, .registers, rfl⟩
    | fails | done | refused => exact absurd rfl busy
    | accepted free => exact absurd free busy

/-- **Once the payload is got hold of, that does not fail.** -/
theorem Finishes.not_isOfFetch (fin : Finishes i h labels k es (.failed failure)) (own : ∀ l ∈ labels, l.IsOwn)
    (mid : Midway settings plans n i h f s) (fetched : s.HasFetched) : ¬ failure.IsOfFetch := by
  generalize answer : Answer.failed failure = a at fin
  induction fin generalizing f s with
  | last made serves there free answered =>
    subst answer
    cases mid.step (own _ (List.mem_singleton_self _)) made with
    | passed unserved => exact absurd serves (unserved _ _)
    | feed _ _ after pulls =>
      subst after
      cases pulls with
      | aside _ _ _ unanswered => cases unanswered.symm.trans answered
      | fetched _ fetches | fails _ fetches =>
        cases s with
        | querying | decoding => exact fetched.elim
        | _ => exact fetches.elim
      | seeds | done | registers => cases answered
      | accepted _ done => cases done.symm.trans answered
      | refused =>
        cases answered
        exact id
  | more made there busy onward ih =>
    obtain ⟨s', mid', goes, -⟩ := mid.onward (own _ List.mem_cons_self) made there busy
    refine ih (fun l hl => own l (List.mem_cons_of_mem _ hl)) mid' ?_ answer
    cases goes with
    | waits => exact fetched
    | fetched fetches => cases s <;> first | exact fetched.elim | exact fetches.elim
    | seeds | registers => trivial

/-! ### Where the payload is not got hold of -/

theorem Midway.isSeen_fetching (mid : Midway settings plans n i h f s) (own : l.IsOwn) (made : h.step l = some r)
    (fetches : s.Fetches) :
    Moment.IsSeen Hub.step (asIf n i (fun _ => none) id) (IsOf n i) ⟨h, l, r⟩ := by
  have seen := (mid.step own made).seen (φ := fun _ => none) (χ := id) mid.there made mid.gone rfl
  cases mid.step own made with
  | passed unserved =>
    exact .inr ⟨mid.not_isOf made fun fl g serves => absurd serves (unserved fl g),
      seen fun fl _ serves => absurd serves (unserved fl h)⟩
  | @feed fl fr serves step after pulls =>
    subst after
    have covert : ∀ {fr : Feed.Result V H R}, Feed.IsPullStep fl → fr.state.asIf (fun _ => none) id = f.asIf (fun _ => none) id →
        (∀ signal value, .owed signal value ∉ fr.effects) →
        Moment.IsSeen Hub.step (asIf n i (fun _ => none) id) (IsOf n i) ⟨h, l, h.afterFeed i fr⟩ :=
      fun pulls same unowed => .inl ⟨mid.isOf serves pulls.byHolder, asIf_afterFeed mid.there same unowed⟩
    cases pulls with
    | aside aside =>
      refine .inr ⟨mid.not_isOf made ?_, seen ?_⟩
      · intro fl' g serves'
        obtain ⟨-, rfl, -⟩ := serves.same serves'
        refine aside.not_byHolder (mid.reachable.orderly mid.there) mid.held ?_
        rintro purpose rfl
        exact fetches
      · intro fl' fr' serves' step' pulls'
        obtain ⟨-, rfl, -⟩ := serves.same serves'
        exact (Feed.transition_of_step step').asIf aside fun _ _ _ given => given
    | fetched isStep _ _ _ _ unowed => exact covert isStep rfl unowed
    | fails isStep _ _ unowed => exact covert isStep rfl unowed
    | seeds | done | registers | refused | accepted => exact fetches.elim

/-- **A subscription whose query or decoding fails is not seen**: its steps change nothing but the state lock's
holder, and the others' steps can be made as if it were free. -/
theorem Finishes.isSeen_fetching (fin : Finishes i h labels k es (.failed failure)) (own : ∀ l ∈ labels, l.IsOwn)
    (mid : Midway settings plans n i h f s) (fetches : s.Fetches) (isOfFetch : failure.IsOfFetch) :
    ∀ m ∈ trail Hub.step labels h, m.IsSeen Hub.step (asIf n i (fun _ => none) id) (IsOf n i) := by
  generalize answer : Answer.failed failure = a at fin
  induction fin generalizing f s with
  | last made =>
    rw [trail_cons made, trail_nil, List.forall_mem_singleton]
    exact mid.isSeen_fetching (own _ (List.mem_singleton_self _)) made fetches
  | more made there busy onward ih =>
    have own' := own _ List.mem_cons_self
    have rest := fun l hl => own l (List.mem_cons_of_mem _ hl)
    rw [trail_cons made]
    refine List.forall_mem_cons.2 ⟨mid.isSeen_fetching own' made fetches, ?_⟩
    obtain ⟨s', mid', goes, -⟩ := mid.onward own' made there busy
    cases goes with
    | waits => exact ih rest mid' fetches answer
    | fetched _ next =>
      rcases next with fetches | fetched
      · exact ih rest mid' fetches answer
      · exact absurd isOfFetch ((answer ▸ onward).not_isOfFetch rest mid' fetched)
    | seeds | registers => exact fetches.elim

/-! ### Where a callback is registered -/

/-- In the course of a step, the feed's state lock is not let go of. -/
def IsBusy (i : Nat) (m : Moment (Hub V H R) (HubLabel V H R) (HubEffect V H)) : Prop :=
  ∃ f, m.after.state.feeds[i]? = some f ∧ f.holder ≠ none

/-- **A subscription has written the values of the payload**, and has come to `w` by what a read might have done
in its place. -/
structure HasPulled (settings : Settings) (plans : List (FeedPlan V)) (n i : Nat) (h : Hub V H R) (f : Feed V H R)
    (first : List (HubLabel V H R)) (w : Hub V H R) (g : Feed V H R) (purpose : Purpose H) : Prop where
  /-- It has come there. -/
  ran : ∃ es, run Hub.step first h = some (w, es)
  /-- A read might have done the same. -/
  seen : ∀ m ∈ trail Hub.step first h,
    m.IsSeen Hub.step (asIf n i (Option.map (Section.for .refresh)) id) (fun _ => False)
  /-- The state lock is held. -/
  busy : ∀ m ∈ trail Hub.step first h, IsBusy i m
  /-- The subscription has come to the end of its writing. -/
  midway : Midway settings plans n i w g (.writing purpose)
  /-- Nothing is left to write. -/
  written : g.writer = some ⟨none, [], .none⟩
  /-- The epoch is the same. -/
  epoch : g.epoch = f.epoch

/-- Who keeps the state lock for a while finishes after that. -/
theorem Finishes.of_busy {first : List (HubLabel V H R)} {w : Hub V H R} {a : Answer}
    (ran : LazyHub.run Hub.step first h = some (w, es)) (busy : ∀ m ∈ trail Hub.step first h, IsBusy i m) {es' : List (HubEffect V H)}
    (fin : Finishes i w labels k es' a) :
    Finishes i h (first ++ labels) k (es ++ es') a := by
  induction first generalizing h es with
  | nil =>
    cases ran
    exact fin
  | cons l rest ih =>
    obtain ⟨r, later, made, onward, rfl⟩ := run_cons.1 ran
    rw [trail_cons made] at busy
    obtain ⟨⟨g, there, held⟩, busy⟩ := List.forall_mem_cons.1 busy
    rw [List.append_assoc]
    exact .more made there held (ih onward busy)

/-- A feed whose values are written goes on to register a callback. -/
def registering (g : Feed V H R) (purpose : Purpose H) : Feed.Result V H R where
  state := { g with writer := none, holder := some (.registering purpose), callbacks := g.callbacks ++ [g.epoch] }
  effects := [.asked (.register g.epoch)]

/-- **A subscription that fails to register a callback** does what a read might have done until the values are
written, and then asks for the registration. -/
inductive Registers (settings : Settings) (plans : List (FeedPlan V)) (n i : Nat) (h : Hub V H R) (f : Feed V H R) :
    List (HubLabel V H R) → Hub V H R → HubFailure → Prop where
  /-- The values are written, and the registration is asked for. -/
  | intro {first second : List (HubLabel V H R)} {w k : Hub V H R} {g : Feed V H R} {purpose : Purpose H}
      {es : List (HubEffect V H)} {failure : HubFailure} (pulled : HasPulled settings plans n i h f first w g purpose)
      (settles : w.step (.move (.advance i .settle)) = some (w.afterFeed i (registering g purpose)))
      (fin : Finishes i (w.afterFeed i (registering g purpose)).state second k es (.failed failure)) :
      Registers settings plans n i h f (first ++ .move (.advance i .settle) :: second) k failure

theorem Registers.cons {f' : Feed V H R} (onward : Registers settings plans n i r.state f' labels k failure)
    (made : h.step l = some r) (there : r.state.feeds[i]? = some f') (busy : f'.holder ≠ none) (same : f'.epoch = f.epoch)
    (seen : (h.asIf n i (Option.map (Section.for .refresh)) id).step l =
      some (r.asIf n i (Option.map (Section.for .refresh)) id)) :
    Registers settings plans n i h f (l :: labels) k failure := by
  obtain @⟨first, second, w, k, g, purpose, _, failure, pulled, settles, fin⟩ := onward
  obtain ⟨es, ran⟩ := pulled.ran
  have pulled' : HasPulled settings plans n i h f (l :: first) w g purpose := by
    refine ⟨⟨_, run_cons.2 ⟨r, es, made, ran, rfl⟩⟩, ?_, ?_, pulled.midway, pulled.written, pulled.epoch.trans same⟩
    · rw [trail_cons made]
      exact List.forall_mem_cons.2 ⟨.inr ⟨id, seen⟩, pulled.seen⟩
    · rw [trail_cons made]
      exact List.forall_mem_cons.2 ⟨⟨f', there, busy⟩, pulled.busy⟩
  exact .intro pulled' settles fin

/-- **A subscription that does not fail by its query or decoding registers a callback.** -/
theorem Finishes.registers (fin : Finishes i h labels k es (.failed failure)) (own : ∀ l ∈ labels, l.IsOwn)
    (mid : Midway settings plans n i h f s) (unregistered : ∀ purpose, s ≠ .registering purpose)
    (fetched : ¬ failure.IsOfFetch) : Registers settings plans n i h f labels k failure := by
  generalize answer : Answer.failed failure = a at fin
  induction fin generalizing f s with
  | last made serves there free answered =>
    subst answer
    cases mid.step (own _ (List.mem_singleton_self _)) made with
    | passed unserved => exact absurd serves (unserved _ _)
    | feed _ _ after pulls =>
      subst after
      cases pulls with
      | aside _ _ _ unanswered => cases unanswered.symm.trans answered
      | fails _ _ isOfFetch =>
        cases answered
        exact absurd isOfFetch fetched
      | fetched | seeds | done | registers => cases answered
      | refused | accepted => exact absurd rfl (unregistered _)
  | more made there busy onward ih =>
    subst answer
    have own' := own _ List.mem_cons_self
    have rest := fun l hl => own l (List.mem_cons_of_mem _ hl)
    have seen := (mid.step own' made).seen (φ := Option.map (Section.for .refresh)) (χ := id) mid.there made mid.gone rfl
    cases mid.step own' made with
    | passed unserved there' =>
      obtain rfl := Option.some.inj (there.symm.trans there')
      exact (ih rest (mid.next own' made there mid.held rfl) unregistered rfl).cons made there busy rfl
        (seen fun fl _ serves => absurd serves (unserved fl _))
    | @feed fl _ serves step after pulls =>
      have there' := there
      rw [after, getElem?_afterFeed mid.there] at there'
      obtain rfl := Option.some.inj there'
      have pull : Feed.IsPullStep fl → _ := fun isStep => seen fun fl' _ serves' step' _ => by
        obtain ⟨-, rfl, -⟩ := serves.same serves'
        exact (Feed.transition_of_step step').asIf_pull isStep .refresh
      cases pulls with
      | aside aside holder epoch =>
        refine (ih rest (mid.next own' made there holder rfl) unregistered rfl).cons made there busy epoch ?_
        refine seen fun fl' _ serves' step' _ => ?_
        obtain ⟨-, rfl, -⟩ := serves.same serves'
        exact (Feed.transition_of_step step').asIf aside fun _ _ _ given => given
      | fetched isStep _ purpose _ unregistered =>
        exact (ih rest (mid.next own' made there rfl purpose) unregistered rfl).cons made there busy rfl (pull isStep)
      | seeds =>
        exact (ih rest (mid.next own' made there rfl rfl) nofun rfl).cons made there busy rfl (pull trivial)
      | @registers purpose more writing =>
        obtain rfl := serves.of_advance
        subst after
        have pulled : HasPulled settings plans n i _ f [] _ f purpose :=
          ⟨⟨[], run_nil _⟩, by simp, by simp, mid, writing, rfl⟩
        exact .intro pulled made onward
      | done | fails => exact absurd rfl busy
      | refused | accepted => exact absurd rfl (unregistered _)

/-! ### Where the registration is refused -/

omit [SignalValue V] in
theorem filter_erase_self (epochs : List Nat) (epoch : Nat) :
    (epochs.erase epoch).filter (· ≠ epoch) = epochs.filter (· ≠ epoch) := by
  by_cases mem : epoch ∈ epochs
  · obtain ⟨before, after, -, rfl, left⟩ := List.exists_erase_eq mem
    rw [left]
    simp
  · rw [List.erase_of_not_mem mem]

/-- A step of a subscription that has asked for a registration, as long as it is not accepted and the callback is
not invoked. -/
theorem Midway.isSeen_registering {purpose : Purpose H} (mid : Midway settings plans n i h f (.registering purpose))
    (own : l.IsOwn) (made : h.step l = some r) (unheard : ∀ payload, l ≠ .invoke i f.epoch payload)
    (unaccepted : (∀ g, r.state.feeds[i]? = some g → g.holder = none) → r.answer ≠ some .done) :
    Moment.IsSeen Hub.step (asIf n i (fun _ => none) (List.filter (· ≠ f.epoch))) (IsOf n i) ⟨h, l, r⟩ := by
  have seen := (mid.step own made).seen (φ := fun _ => none) (χ := List.filter (· ≠ f.epoch)) mid.there made mid.gone rfl
  cases mid.step own made with
  | passed unserved =>
    exact .inr ⟨mid.not_isOf made fun fl g serves => absurd serves (unserved fl g),
      seen fun fl _ serves => absurd serves (unserved fl h)⟩
  | @feed fl fr serves step after pulls =>
    subst after
    cases pulls with
    | aside aside =>
      refine .inr ⟨mid.not_isOf made ?_, seen ?_⟩
      · intro fl' g serves'
        obtain ⟨-, rfl, -⟩ := serves.same serves'
        exact aside.not_byHolder (mid.reachable.orderly mid.there) mid.held nofun
      · intro fl' fr' serves' step' pulls'
        obtain ⟨-, rfl, -⟩ := serves.same serves'
        refine (Feed.transition_of_step step').asIf aside fun epoch payload invoked given => ?_
        have other : epoch ≠ f.epoch := by
          rintro rfl
          exact unheard payload ((Makes.served (f := f) serves).invoke invoked)
        simpa using ⟨given, other⟩
    | fetched _ fetches | fails _ fetches => exact fetches.elim
    | refused =>
      refine .inl ⟨mid.isOf serves trivial, asIf_afterFeed mid.there ?_ (by simp)⟩
      exact congrArg (fun callbacks => { f with callbacks, holder := none }) (filter_erase_self ..)
    | accepted free answer =>
      refine absurd answer (unaccepted fun g there => ?_)
      rw [getElem?_afterFeed mid.there] at there
      exact Option.some.inj there ▸ free

/-- **A subscription whose registration is refused is not seen** from when it has asked for it, unless its callback
is invoked before. -/
theorem Finishes.isSeen_registering {purpose : Purpose H} (fin : Finishes i h labels k es (.failed failure))
    (own : ∀ l ∈ labels, l.IsOwn) (mid : Midway settings plans n i h f (.registering purpose))
    (unheard : ∀ payload, .invoke i f.epoch payload ∉ labels) :
    ∀ m ∈ trail Hub.step labels h, m.IsSeen Hub.step (asIf n i (fun _ => none) (List.filter (· ≠ f.epoch))) (IsOf n i) := by
  generalize answer : Answer.failed failure = a at fin
  induction fin generalizing f with
  | last made serves there free answered =>
    subst answer
    rw [trail_cons made, trail_nil, List.forall_mem_singleton]
    refine mid.isSeen_registering (own _ (List.mem_singleton_self _)) made ?_ ?_
    · exact fun payload eq => unheard payload (eq ▸ List.mem_singleton_self _)
    · simp [answered]
  | more made there busy onward ih =>
    have own' := own _ List.mem_cons_self
    have rest := fun l hl => own l (List.mem_cons_of_mem _ hl)
    have unheard' := fun payload mem => unheard payload (List.mem_cons_of_mem _ mem)
    rw [trail_cons made]
    refine List.forall_mem_cons.2 ⟨mid.isSeen_registering own' made ?_ ?_, ?_⟩
    · exact fun payload eq => unheard payload (eq ▸ List.mem_cons_self)
    · exact fun free => absurd (free _ there) busy
    obtain ⟨s', mid', goes, epoch⟩ := mid.onward own' made there busy
    cases goes with
    | waits =>
      rw [← epoch] at unheard' ⊢
      exact ih rest mid' unheard' answer
    | fetched fetches => exact fetches.elim

/-- **A subscription that has asked for a registration fails when that is refused.** -/
theorem Finishes.exists_refusal {purpose : Purpose H} (fin : Finishes i h labels k es (.failed failure))
    (own : ∀ l ∈ labels, l.IsOwn) (mid : Midway settings plans n i h f (.registering purpose)) :
    ∃ before m reason g, trail Hub.step labels h = before ++ [m] ∧ m.label = .hear i (.registered (.error reason)) ∧
      m.before.feeds[i]? = some g ∧ g.epoch = f.epoch ∧
      k.feeds[i]? = some { g with callbacks := g.callbacks.erase g.epoch, holder := none } ∧ g.registration = none := by
  generalize answer : Answer.failed failure = a at fin
  induction fin generalizing f with
  | @last h g l fl r f' a made serves there free answered =>
    subst answer
    cases mid.step (own _ (List.mem_singleton_self _)) made with
    | passed unserved => exact absurd serves (unserved _ _)
    | feed serves' _ after pulls =>
      subst after
      cases pulls with
      | aside _ _ _ unanswered => cases unanswered.symm.trans answered
      | fetched _ fetches | fails _ fetches => exact fetches.elim
      | accepted _ done => cases done.symm.trans answered
      | @refused _ reason =>
        have label := ((Makes.served (f := f) serves').hear_iff _).1 rfl
        have inactive := (mid.reachable.orderly mid.there).inactive (by rw [Feed.pull?, mid.held]; rfl)
        exact ⟨[], ⟨h, l, _⟩, reason, f, trail_cons made, label, mid.there, rfl, getElem?_afterFeed mid.there _, inactive⟩
  | more made there busy onward ih =>
    have own' := own _ List.mem_cons_self
    have rest := fun l hl => own l (List.mem_cons_of_mem _ hl)
    rw [trail_cons made]
    obtain ⟨s', mid', goes, epoch⟩ := mid.onward own' made there busy
    cases goes with
    | waits =>
      obtain ⟨before, m, reason, g, past, label, at', same, final⟩ := ih rest mid' answer
      exact ⟨_ :: before, m, reason, g, by rw [past, List.cons_append], label, at', same.trans epoch, final⟩
    | fetched fetches => exact fetches.elim

end Midway

end Hub

end LazyHub
