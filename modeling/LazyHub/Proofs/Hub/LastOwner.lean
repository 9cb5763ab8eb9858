import LazyHub.Proofs.Feed.Leases
import LazyHub.Proofs.Hub.Calls

/-!
# The last owner of a feed

A feed that clients hold themselves is owned by their handles and by the pushes under way. Any of these can be the
last to go away: a handle that is dropped, or a push that leaves (`Feed.Transition.forsakes`). What is left is a
*forsaken* feed: no operation is under way but the end of a registration, and the registration that it still has, if
it has one, is due to be ended by the pool. No step changes that, and each takes from what is due the calls that it
makes (`Feed.Transition.forsaken`).

So whoever is the last, in whatever order the owners go, the registration held at that time is ended once and by its
own handle: by the client that drops its handle, or by the pool when a push was the last
(`Hub.last_owner_unregisters`).
-/

namespace LazyHub

variable {V H R : Type}

/-- The holder of the state lock ends a registration. -/
def Section.Unregisters : Section V H R → Prop
  | .unregistering .. => True
  | _ => False

namespace Feed

/-- The calls that the pool has yet to make for a feed that nobody owns. -/
def due (f : Feed V H R) : List FeedCall := f.registration.toList.map (.unregister · .pool)

theorem due_of_inactive {f : Feed V H R} (inactive : f.registration = none) : f.due = [] := by
  rw [due, inactive]
  rfl

theorem due_of_active {f : Feed V H R} {registration : Registration} (active : f.registration = some registration) :
    f.due = [.unregister registration .pool] := by
  rw [due, active]
  rfl

/-- **Nobody owns the feed any more**, and all that can be under way is the end of its registration. -/
structure IsForsaken (f : Feed V H R) : Prop where
  /-- Nobody has a handle, and no push is under way. -/
  unowned : f.owners = 0
  /-- Nobody writes. -/
  unwritten : f.writer = none
  /-- Whoever holds the state lock ends a registration, which the feed no longer has. -/
  ends : ∀ s, f.holder = some s → s.Unregisters
  /-- A registration is left for the pool to end. -/
  left : f.registration.isSome → f.retiring = true

/-- **Who owns a feed**: pushes have numbers of their own, and clients are done with the feed when they have no handle. -/
structure IsShared (f : Feed V H R) : Prop where
  /-- The feed is in order. -/
  orderly : f.Orderly
  /-- Pushes have different numbers. -/
  distinct : (f.pushes.map (·.number)).Nodup
  /-- The state lock is free if there are pushes and no handles. -/
  idle : f.handles = 0 → f.owners ≠ 0 → f.holder = none

theorem isShared_ofPlan (plan : FeedPlan V) : (ofPlan plan : Feed V H R).IsShared where
  orderly := orderly_ofPlan plan
  distinct := .nil
  idle := nofun

/-- A push is alone if no other is left without it. -/
theorem pushes_eq_singleton {f : Feed V H R} (distinct : (f.pushes.map (·.number)).Nodup) {number : Nat} {p : Push V R}
    (known : f.push? number = some p) (alone : f.pushes.filter (·.number ≠ number) = []) : f.pushes = [p] := by
  obtain ⟨mem, named⟩ := mem_of_push? known
  refine List.perm_singleton.1 ((List.perm_ext_iff_of_nodup distinct.of_map (List.nodup_singleton _)).2 fun q => ?_)
  rw [List.mem_singleton]
  refine ⟨fun among => ?_, fun eq => eq ▸ mem⟩
  have same : q.number = number := by simpa using List.filter_eq_nil_iff.1 alone q among
  exact List.inj_on_of_nodup_map distinct among mem (same.trans named.symm)

variable [SignalValue V] {f : Feed V H R} {l : FeedLabel V H R} {r : Result V H R}

theorem Transition.idle (t : f.Transition l r) (h : f.IsShared) (unhandled : r.state.handles = 0)
    (owned : r.state.owners ≠ 0) : r.state.holder = none := by
  have moved : ∀ {number : Nat} {phase : PushPhase V R}, (f.setPhase number phase).owners ≠ 0 → f.owners ≠ 0 :=
    fun owned => by simpa [owners, setPhase] using owned
  cases t with
  | activate _ kept | deactivate _ kept | refresh _ kept | subscribe _ kept | detachLast _ kept | shutdown _ kept =>
    exact absurd unhandled kept
  | queryFailed | registerFailed | subscribed | activated | unregistered | decodeFailed | settleRefresh
  | clearedInactive => rfl
  | queried held | decoded held | seed held | settle held | clear held | cleared held | withdraw held =>
    rw [h.idle unhandled owned] at held
    cases held
  | invoke _ before => exact h.idle unhandled before
  | settlePush | pushRefused | pushDecoded | pushAccepted | pushStale => exact h.idle unhandled (moved owned)
  | leave known =>
    refine h.idle unhandled fun unowned => ?_
    have unpushed := List.eq_nil_of_length_eq_zero (Nat.add_eq_zero_iff.1 unowned).2
    rw [push?, unpushed] at known
    cases known
  | retire retiring => exact absurd (h.orderly.unowned retiring) owned
  | clone => cases unhandled
  | drop kept free => exact free (by simp only at unhandled; omega)
  | dropLast _ unpushed => simp [owners, unpushed] at owned
  | _ => exact h.idle unhandled owned

theorem IsShared.step (h : f.IsShared) (made : f.step l = some r) : r.state.IsShared where
  orderly := h.orderly.step (transition_of_step made)
  distinct := (transition_of_step made).distinct h.orderly h.distinct
  idle := (transition_of_step made).idle h

/-! ### When the last owner goes -/

/-- **The last owner of a feed** is a handle or a push. A handle ends the registration there and then, and a push leaves
it to the pool. -/
theorem Transition.forsakes (t : f.Transition l r) (h : f.IsShared) (owned : f.owners ≠ 0) (unowned : r.state.owners = 0) :
    r.state.IsForsaken ∧ f.holder = none ∧ f.writer = none ∧ r.state.callbacks = f.callbacks ∧
      (l = .drop ∧ f.handles = 1 ∧ f.pushes = [] ∧ r.state.registration = none ∧
          calls r.effects = f.registration.toList.map (.unregister · .inPlace) ∨
        ∃ number epoch, l = .advance (.leave number) ∧ f.handles = 0 ∧ f.pushes = [⟨number, epoch, .leaving⟩] ∧
          r.state.registration = f.registration ∧ calls r.effects = []) := by
  have moved : ∀ {number : Nat} {phase : PushPhase V R}, (f.setPhase number phase).owners = 0 → f.owners = 0 :=
    fun unowned => by simpa [owners, setPhase] using unowned
  cases t with
  | invoke => simp [owners] at unowned
  | settlePush | pushRefused | pushDecoded | pushAccepted | pushStale => exact absurd (moved unowned) owned
  | @leave number epoch known =>
    obtain ⟨unhandled, unpushed⟩ := Nat.add_eq_zero_iff.1 unowned
    have alone := pushes_eq_singleton h.distinct known (List.eq_nil_of_length_eq_zero unpushed)
    have free := h.idle unhandled owned
    have unwritten := h.orderly.writer_eq_none free (by simp [alone])
    refine ⟨⟨unowned, unwritten, fun s held => ?_, fun active => ?_⟩, free, unwritten, rfl,
      .inr ⟨number, epoch, rfl, unhandled, alone, rfl, rfl⟩⟩
    · cases free.symm.trans held
    · exact Bool.and_eq_true_iff.2 ⟨decide_eq_true unowned, active⟩
  | clone => simp [owners] at unowned
  | @drop kept free more =>
    obtain ⟨unhandled, unpushed⟩ := Nat.add_eq_zero_iff.1 unowned
    have one : f.handles = 1 := by simp only at unhandled; omega
    have unpushed : f.pushes = [] := List.eq_nil_of_length_eq_zero unpushed
    have inactive := more.resolve_left (by simp [one, unpushed])
    have unwritten := h.orderly.writer_eq_none (free one) (by simp [unpushed])
    refine ⟨⟨unowned, unwritten, fun s held => ?_, fun active => ?_⟩, free one, unwritten, rfl,
      .inl ⟨rfl, one, unpushed, inactive, by simp [inactive, calls]⟩⟩
    · cases (free one).symm.trans held
    · rw [inactive] at active
      cases active
  | @dropLast registration last unpushed free active =>
    have unwritten := h.orderly.writer_eq_none free (by simp [unpushed])
    refine ⟨⟨unowned, unwritten, fun s held => ?_, fun active => ?_⟩, free, unwritten, rfl,
      .inl ⟨rfl, last, unpushed, rfl, by simp [active, calls, FeedEffect.call?]⟩⟩
    · exact Option.some.inj held ▸ trivial
    · cases active
  | _ => exact absurd unowned owned

/-! ### What is left -/

/-- **A feed that nobody owns stays so**, and the calls that a step makes are taken from those that are due. Only the pool
makes any. -/
theorem Transition.forsaken (t : f.Transition l r) (h : f.IsForsaken) :
    r.state.IsForsaken ∧ r.state.callbacks = f.callbacks ∧ calls r.effects ++ r.state.due = f.due ∧
      (calls r.effects ≠ [] → l = .advance .retire) := by
  obtain ⟨unhandled, unpushed⟩ := Nat.add_eq_zero_iff.1 h.unowned
  have unpushed := List.eq_nil_of_length_eq_zero unpushed
  have unknown : ∀ {number : Nat} {p : Push V R}, f.push? number ≠ some p := fun known => by
    rw [push?, unpushed] at known
    cases known
  cases t with
  | content _ kept | activate _ kept | deactivate _ kept | refresh _ kept | attach _ kept | subscribe _ kept
  | unknown _ kept | detach _ kept | detachLast _ kept | shutdown _ kept | clone kept | drop kept =>
    exact absurd unhandled kept
  | dropLast last => cases unhandled.symm.trans last
  | queryFailed held | queried held | registerFailed held | subscribed held | activated held | decodeFailed held
  | decoded held | seed held | settleRefresh held | settle held | clear held | cleared held | clearedInactive held
  | withdraw held => exact (h.ends _ held).elim
  | write writing | look writing | post writing | settlePush writing => cases h.unwritten.symm.trans writing
  | invoke _ owned => exact absurd h.unowned owned
  | pushRefused known | pushDecoded known | pushAccepted known | pushStale known | leave known =>
    exact absurd known unknown
  | unregistered =>
    refine ⟨⟨h.unowned, h.unwritten, fun s held => ?_, h.left⟩, rfl, rfl, fun called => absurd rfl called⟩
    cases held
  | invokeUnowned => exact ⟨h, rfl, rfl, fun called => absurd rfl called⟩
  | @retire registration _ active =>
    refine ⟨⟨h.unowned, h.unwritten, fun s held => ?_, fun active' => ?_⟩, rfl, ?_, fun _ => rfl⟩
    · exact Option.some.inj held ▸ trivial
    · cases active'
    · rw [due_of_active active]
      rfl

theorem forsaken_of_run {labels : List (FeedLabel V H R)} {g : Feed V H R} {es : List (FeedEffect V)} (h : f.IsForsaken)
    (ran : run Feed.step labels f = some (g, es)) :
    g.IsForsaken ∧ g.callbacks = f.callbacks ∧ calls es ++ g.due = f.due := by
  induction labels generalizing f es with
  | nil =>
    cases ran
    exact ⟨h, rfl, rfl⟩
  | cons l rest ih =>
    obtain ⟨r, later, made, onward, rfl⟩ := run_cons.1 ran
    obtain ⟨next, same, fewer, -⟩ := (transition_of_step made).forsaken h
    obtain ⟨final, same', fewer'⟩ := ih next onward
    refine ⟨final, same'.trans same, ?_⟩
    rw [calls, List.filterMap_append, List.append_assoc]
    exact (congrArg _ fewer').trans fewer

end Feed

namespace Hub

variable [SignalValue V] {plans : List (FeedPlan V)} {tenure : Tenure} {h k : Hub V H R} {labels : List (HubLabel V H R)}
  {es : List (HubEffect V H)} {i : Nat} {f : Feed V H R}

/-- **Whatever happens after the last owner of a feed is gone**, the calls that are made for it and those that are still
due are together those that were due. -/
theorem Arises.forsaken (arises : Arises plans tenure h) (allowed : ∀ l ∈ labels, tenure.Allows l)
    (ran : LazyHub.run Hub.step labels h = some (k, es)) (there : h.feeds[i]? = some f) (forsaken : f.IsForsaken) :
    ∃ g, k.feeds[i]? = some g ∧ g.IsForsaken ∧ g.callbacks = f.callbacks ∧ callsTo i es ++ g.due = f.due := by
  obtain ⟨own, g, fes, there', ranOwn, mirrors⟩ := arises.mirrors allowed ran there
  obtain ⟨forsaken', same, fewer⟩ := Feed.forsaken_of_run forsaken ranOwn
  refine ⟨g, there', forsaken', same, ?_⟩
  rw [← flatMap_effects_trail ran, mirrors.calls_eq, flatMap_effects_trail ranOwn, fewer]

/-- Only the pool calls the provider of a feed that nobody owns. -/
theorem Arises.retire_of_callsTo (arises : Arises plans tenure h) (there : h.feeds[i]? = some f) (forsaken : f.IsForsaken)
    {l : HubLabel V H R} {r : Result V H R} (made : h.step l = some r) (calls : callsTo i r.effects ≠ []) :
    l = .move (.advance i .retire) := by
  rcases (transition_of_step made).mirrors arises there with ⟨fl, fr, -, step, extend, -, makes⟩ | ⟨-, passes⟩
  · have same := (extend .nil).calls_eq
    simp only [List.flatMap_singleton] at same
    obtain ⟨-, -, -, retires⟩ := (Feed.transition_of_step step).forsaken forsaken
    obtain rfl := retires (same ▸ calls)
    cases makes with
    | served serves => exact serves.advance_eq
  · exact absurd (callsTo_eq_nil passes.unasked) calls

theorem Arises.retire_of_mem_trail (arises : Arises plans tenure h) (allowed : ∀ l ∈ labels, tenure.Allows l)
    (there : h.feeds[i]? = some f) (forsaken : f.IsForsaken) {m : Moment (Hub V H R) (HubLabel V H R) (HubEffect V H)}
    (mem : m ∈ trail Hub.step labels h) (calls : callsTo i m.after.effects ≠ []) :
    m.label = .move (.advance i .retire) := by
  have keeps : ∀ l ∈ labels, ∀ {k r}, (Arises plans tenure k ∧ ∃ g, k.feeds[i]? = some g ∧ g.IsForsaken) →
      k.step l = some r → Arises plans tenure r.state ∧ ∃ g, r.state.feeds[i]? = some g ∧ g.IsForsaken := by
    rintro l mem k r ⟨before, g, there, forsaken⟩ made
    have once : ∀ l' ∈ [l], tenure.Allows l' := fun l' mem' => List.mem_singleton.1 mem' ▸ allowed l mem
    obtain ⟨g', there', forsaken', -⟩ := before.forsaken once (run_singleton made) there forsaken
    exact ⟨before.step (allowed l mem) made, g', there', forsaken'⟩
  obtain ⟨-, ⟨before, g, there, forsaken⟩, made⟩ := of_mem_trail keeps ⟨arises, f, there, forsaken⟩ m mem
  exact before.retire_of_callsTo there forsaken made calls

/-- A callback of a feed that nobody owns gives its lease back, and does nothing else. -/
theorem invoke_of_unowned (there : h.feeds[i]? = some f) (unowned : f.owners = 0) (epoch : Nat) (payload : R) :
    h.step (.invoke i epoch payload) =
      if epoch ∈ f.callbacks then some { state := h, effects := [.released i] } else none := by
  have same : h.feeds.set i f = h.feeds := by
    obtain ⟨lt, rfl⟩ := List.getElem?_eq_some_iff.1 there
    exact List.set_getElem_self lt
  simp only [step, onFeed, there, Feed.invoke, unowned, if_true]
  by_cases given : epoch ∈ f.callbacks
  · rw [if_neg (not_not_intro given), if_pos given, Option.map_some]
    simp only [absorbAll, absorb, same, List.append_nil]
  · rw [if_pos given, if_neg given, Option.map_none]

theorem Arises.isShared (arises : Arises plans tenure h) (there : h.feeds[i]? = some f) : f.IsShared :=
  arises.keeps (P := Feed.IsShared) Feed.isShared_ofPlan Feed.IsShared.step there

/-- What a forsaken feed had to end is ended by the pool, or the pool can end it. -/
theorem Arises.ended_or_due (arises : Arises plans tenure h) (allowed : ∀ l ∈ labels, tenure.Allows l)
    (ran : LazyHub.run Hub.step labels h = some (k, es)) (there : h.feeds[i]? = some f) (forsaken : f.IsForsaken)
    {registration : Registration} (active : f.registration = some registration) :
    callsTo i es = [.unregister registration .pool] ∨
      callsTo i es = [] ∧ ∃ s, k.step (.move (.advance i .retire)) = some s ∧
        s.effects = [.asked i (.unregister registration .pool)] := by
  obtain ⟨g, there', forsaken', -, fewer⟩ := arises.forsaken allowed ran there forsaken
  rw [Feed.due_of_active active] at fewer
  cases active' : g.registration with
  | none =>
    rw [Feed.due_of_inactive active', List.append_nil] at fewer
    exact .inl fewer
  | some registration' =>
    rw [Feed.due_of_active active'] at fewer
    obtain ⟨none, same⟩ := List.append_eq_singleton_iff.1 fewer |>.resolve_right fun both => nomatch both.2
    obtain ⟨rfl, -⟩ := FeedCall.unregister.inj (List.singleton_inj.1 same)
    exact .inr ⟨none, exists_retire there' (forsaken'.left (by rw [active']; rfl)) active'⟩

/-- Whoever is the last owner of a feed that clients hold themselves is a handle or a push. -/
theorem Arises.forsakes (arises : Arises plans .clients h) (there : h.feeds[i]? = some f) (owned : f.owners ≠ 0)
    {l : HubLabel V H R} {r : Result V H R} (made : h.step l = some r) {g : Feed V H R} (there' : r.state.feeds[i]? = some g)
    (unowned : g.owners = 0) :
    g.IsForsaken ∧ f.holder = none ∧ f.writer = none ∧ g.callbacks = f.callbacks ∧
      (l = .use i .drop ∧ f.handles = 1 ∧ f.pushes = [] ∧ g.registration = none ∧
          callsTo i r.effects = f.registration.toList.map (.unregister · .inPlace) ∨
        ∃ number epoch, l = .move (.advance i (.leave number)) ∧ f.handles = 0 ∧ f.pushes = [⟨number, epoch, .leaving⟩] ∧
          g.registration = f.registration ∧ callsTo i r.effects = []) := by
  rcases (transition_of_step made).mirrors arises there with ⟨fl, fr, after, step, extend, -, makes⟩ | ⟨same, -⟩
  · obtain rfl := Option.some.inj (there'.symm.trans after)
    have same := (extend .nil).calls_eq
    simp only [List.flatMap_singleton] at same
    obtain ⟨forsaken, free, unwritten, kept, last⟩ :=
      (Feed.transition_of_step step).forsakes (arises.isShared there) owned unowned
    refine ⟨forsaken, free, unwritten, kept, ?_⟩
    rw [same]
    rcases last with ⟨rfl, handle⟩ | ⟨number, epoch, rfl, push⟩
    · refine .inl ⟨?_, handle⟩
      cases makes with
      | served serves =>
        cases serves with
        | @use _ u _ eq => cases u <;> first | rfl | cases eq
      | letGo =>
        -- a single feed belongs to no hub that could let go of it
        obtain ⟨other, -⟩ | ⟨-, closed⟩ := arises.cases
        · cases other
        · simp [Hub.step, act, closed] at made
    · refine .inr ⟨number, epoch, ?_, push⟩
      cases makes with
      | served serves => exact serves.advance_eq
  · obtain rfl := Option.some.inj (there'.symm.trans same)
    exact absurd unowned owned

/-- **The last owner of a feed ends its registration once**, in whatever order handles are dropped and pushes leave.
When the last one goes, no operation is under way and nobody writes. If it is a handle no push is under way either, and
the client that drops it ends the registration that the feed holds. If it is a push there is no handle and no other push,
and its values are written or refused; it makes no call, but the pool is to end the registration, and nobody else
does. A feed that is inactive by then makes no call any more. From then on a callback does no more than to give
its lease back. -/
theorem last_owner_unregisters {settings : Settings} {plan : FeedPlan V} {start h k : Hub V H R}
    {labels later : List (HubLabel V H R)} {es es' : List (HubEffect V H)} (alone : lone settings plan = .ok start)
    (ran : run Hub.step labels start = some (h, es)) {f g : Feed V H R} (there : h.feeds[0]? = some f) (owned : f.owners ≠ 0)
    {l : HubLabel V H R} {r : Result V H R} (made : h.step l = some r) (there' : r.state.feeds[0]? = some g)
    (unowned : g.owners = 0) (onward : run Hub.step later r.state = some (k, es')) :
    f.holder = none ∧ f.writer = none ∧
    (l = .use 0 .drop ∧ f.handles = 1 ∧ f.pushes = [] ∨
      ∃ number epoch, l = .move (.advance 0 (.leave number)) ∧ f.handles = 0 ∧ f.pushes = [⟨number, epoch, .leaving⟩]) ∧
    (f.registration = none → callsTo 0 r.effects = [] ∧ callsTo 0 es' = []) ∧
    (∀ registration, f.registration = some registration →
      (l = .use 0 .drop → callsTo 0 r.effects = [.unregister registration .inPlace] ∧ callsTo 0 es' = []) ∧
      (l ≠ .use 0 .drop → callsTo 0 r.effects = [] ∧
        (callsTo 0 es' = [.unregister registration .pool] ∨
          callsTo 0 es' = [] ∧ ∃ s, k.step (.move (.advance 0 .retire)) = some s ∧
            s.effects = [.asked 0 (.unregister registration .pool)]) ∧
        ∀ m ∈ trail Hub.step later r.state, callsTo 0 m.after.effects ≠ [] → m.label = .move (.advance 0 .retire))) ∧
    ∀ epoch payload, k.step (.invoke 0 epoch payload) =
      if epoch ∈ f.callbacks then some { state := k, effects := [.released 0] } else none := by
  have arises : Arises [plan] .clients h := (Arises.opened (.lone rfl alone)).run (fun _ _ => trivial) ran
  have next : Arises [plan] .clients r.state := arises.step trivial made
  obtain ⟨forsaken, free, unwritten, kept, last⟩ := arises.forsakes there owned made there' unowned
  obtain ⟨g', known, forsaken', kept', fewer⟩ := next.forsaken (fun _ _ => trivial) onward there' forsaken
  have silent : g.registration = none → callsTo 0 es' = [] := fun inactive => by
    rw [Feed.due_of_inactive inactive] at fewer
    exact (List.append_eq_nil_iff.1 fewer).1
  have invokes : ∀ epoch payload, k.step (.invoke 0 epoch payload) =
      if epoch ∈ f.callbacks then some { state := k, effects := [.released 0] } else none := fun epoch payload => by
    rw [invoke_of_unowned known forsaken'.unowned, kept', kept]
  refine ⟨free, unwritten, ?_, ?_, ?_, invokes⟩
  · exact last.imp (fun ⟨label, one, unpushed, _⟩ => ⟨label, one, unpushed⟩)
      fun ⟨number, epoch, label, unheld, alone, _⟩ => ⟨number, epoch, label, unheld, alone⟩
  · intro inactive
    rcases last with ⟨-, -, -, ended, calls⟩ | ⟨-, -, -, -, -, same, calls⟩
    · exact ⟨by rw [calls, inactive]; rfl, silent ended⟩
    · exact ⟨calls, silent (same.trans inactive)⟩
  · intro registration active
    rcases last with ⟨rfl, -, -, ended, calls⟩ | ⟨number, epoch, rfl, -, -, same, calls⟩
    · exact ⟨fun _ => ⟨by rw [calls, active]; rfl, silent ended⟩, fun other => absurd rfl other⟩
    · exact ⟨nofun, fun _ => ⟨calls, next.ended_or_due (fun _ _ => trivial) onward there' forsaken (same.trans active),
        fun m mem called => next.retire_of_mem_trail (fun _ _ => trivial) there' forsaken mem called⟩⟩

end Hub

namespace Lamp

/-- A lamp that belongs to no hub. -/
def alone : Hub Value Unit Unit := { feeds := [.ofPlan plan], pool := .ofSize 1 true, life := .closed }

/-- The lamp's feed is activated, and a second handle is dropped again. -/
def holding : List (HubLabel Value Unit Unit) :=
  [.use 0 .activate, .hear 0 (.queried (.ok ())), .move (.advance 0 (.decoded (.ok ⟨[emission true]⟩))), .move (.advance 0 .seed),
    .move (.advance 0 .write), .move (.advance 0 .settle), .hear 0 (.registered (.ok ⟨7⟩)), .use 0 .clone, .use 0 .drop]

/-- While a push is under way the last handle is dropped, and another push comes and goes. -/
def lingering : List (HubLabel Value Unit Unit) :=
  [.invoke 0 1 (), .use 0 .drop, .invoke 0 1 (), .move (.advance 0 (.pushDecoded 1 (.error (.malformed "dim")))),
    .move (.advance 0 (.leave 1)), .move (.advance 0 (.pushDecoded 0 (.ok ⟨[emission false]⟩))), .move (.advance 0 (.enter 0)),
    .move (.advance 0 .write), .move (.advance 0 .look), .move (.advance 0 .settle)]

/-- The pool ends what was left behind, and the callback is invoked before and after. -/
def aftermath : List (HubLabel Value Unit Unit) :=
  [.invoke 0 1 (), .move (.advance 0 .retire), .invoke 0 1 (), .hear 0 (.unregistered (.ok ()))]

end Lamp

namespace Hub

/-- If the last handle on the lamp's feed is dropped while nothing is pushed, the registration is ended there and then, and
never again. If a push outlives it, the pool ends the registration once the push is gone. -/
theorem lamp_is_put_out :
    (∃ h es f r g, run Hub.step Lamp.holding Lamp.alone = some (h, es) ∧ h.feeds[0]? = some f ∧
      h.step (.use 0 .drop) = some r ∧ r.state.feeds[0]? = some g ∧ g.owners = 0 ∧
      callsTo 0 r.effects = [.unregister ⟨7⟩ .inPlace] ∧
      ∀ later k es', run Hub.step later r.state = some (k, es') → callsTo 0 es' = []) ∧
    ∃ h es f r g k es', run Hub.step (Lamp.holding ++ Lamp.lingering) Lamp.alone = some (h, es) ∧ h.feeds[0]? = some f ∧
      h.step (.move (.advance 0 (.leave 0))) = some r ∧ r.state.feeds[0]? = some g ∧ g.owners = 0 ∧
      callsTo 0 r.effects = [] ∧ run Hub.step Lamp.aftermath r.state = some (k, es') ∧
      callsTo 0 es' = [.unregister ⟨7⟩ .pool] ∧
      k.step (.invoke 0 1 ()) = some { state := k, effects := [.released 0] } := by
  have alone : lone {} Lamp.plan = .ok Lamp.alone := rfl
  constructor
  · obtain ⟨h, es, f, r, g, ran, there, owned, active, made, there', unowned⟩ : ∃ h es f r g,
        run Hub.step Lamp.holding Lamp.alone = some (h, es) ∧ h.feeds[0]? = some f ∧ f.owners ≠ 0 ∧
        f.registration = some ⟨7⟩ ∧ h.step (.use 0 .drop) = some r ∧ r.state.feeds[0]? = some g ∧ g.owners = 0 :=
      ⟨_, _, _, _, _, rfl, rfl, by decide, rfl, rfl, rfl, rfl⟩
    have ended : ∀ later k es', run Hub.step later r.state = some (k, es') →
        callsTo 0 r.effects = [.unregister ⟨7⟩ .inPlace] ∧ callsTo 0 es' = [] := fun later k es' onward => by
      obtain ⟨-, -, -, -, active', -⟩ := last_owner_unregisters alone ran there owned made there' unowned onward
      exact (active' _ active).1 rfl
    exact ⟨h, es, f, r, g, ran, there, made, there', unowned, (ended [] _ _ rfl).1,
      fun later k es' onward => (ended later k es' onward).2⟩
  · obtain ⟨h, es, f, r, g, k, es', ran, there, owned, active, given, made, there', unowned, onward, done⟩ :
        ∃ h es f r g k es', run Hub.step (Lamp.holding ++ Lamp.lingering) Lamp.alone = some (h, es) ∧
          h.feeds[0]? = some f ∧ f.owners ≠ 0 ∧ f.registration = some ⟨7⟩ ∧ 1 ∈ f.callbacks ∧
          h.step (.move (.advance 0 (.leave 0))) = some r ∧ r.state.feeds[0]? = some g ∧ g.owners = 0 ∧
          run Hub.step Lamp.aftermath r.state = some (k, es') ∧ k.step (.move (.advance 0 .retire)) = none :=
      ⟨_, _, _, _, _, _, _, rfl, rfl, by decide, rfl, by decide, rfl, rfl, rfl, rfl, rfl⟩
    obtain ⟨-, -, -, -, active', invokes⟩ := last_owner_unregisters alone ran there owned made there' unowned onward
    obtain ⟨silent, ended, -⟩ := (active' _ active).2 nofun
    have ended := ended.resolve_right fun ⟨_, s, retires, _⟩ => by
      rw [done] at retires
      cases retires
    exact ⟨h, es, f, r, g, k, es', ran, there, made, there', unowned, silent, onward, ended, by rw [invokes, if_pos given]⟩

end Hub

end LazyHub
