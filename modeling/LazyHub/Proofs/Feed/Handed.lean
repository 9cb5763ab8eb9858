import LazyHub.Proofs.Feed.Attempts

/-!
# What becomes of the payloads handed to a feed

A provider hands its feed a payload when it answers a query and when it invokes a callback (`FeedLabel.handed`). An
activation begins with one that is pulled, and the others come through the callback that it registers. If pushes come
one after another, and the decoder makes the same of the same payload (`Feed.Regular`), then an active feed with no push
under way has written what its decoder makes of the payloads that were handed over since its activation began, in order
(`Follows.written`).

Of a payload that the provider has but does not hand over nothing is said here.
-/

namespace LazyHub

variable {V H R : Type}

/-- What a push has yet to bring to the update lock, if its decoder is `decode`. -/
def PushPhase.values (decode : R → List (Emission V)) : PushPhase V R → List (Emission V)
  | .decoding payload => decode payload
  | .ready values => values
  | .writing | .leaving => []

/-- The payload that the provider hands to the feed in a step: it answers a query, or invokes a callback. -/
def FeedLabel.handed : FeedLabel V H R → List R
  | .hear (.queried (.ok payload)) => [payload]
  | .invoke _ payload => [payload]
  | _ => []

namespace Feed

/-- The payloads that the provider hands to the feed in the course of a run. -/
def handed (past : List (Moment (Feed V H R) (FeedLabel V H R) (FeedEffect V))) : List R :=
  past.flatMap (·.label.handed)

theorem handed_concat (past : List (Moment (Feed V H R) (FeedLabel V H R) (FeedEffect V)))
    (m : Moment (Feed V H R) (FeedLabel V H R) (FeedEffect V)) : handed (past ++ [m]) = handed past ++ m.label.handed := by
  simp [handed]

theorem Orderly.yetToPush_eq_nil {f : Feed V H R} (o : f.Orderly) (unpushed : f.pushes = []) : f.yetToPush = [] := by
  unfold yetToPush
  split
  · rename_i number rest news writing
    obtain ⟨-, epoch, known⟩ := o.locked number _ writing rfl
    rw [push?, unpushed] at known
    cases known
  · rfl

/-- Where a registration stands nobody pulls any more but to register the callback. -/
theorem Orderly.registers_of_standing {f : Feed V H R} (o : f.Orderly) (stands : f.standing.isSome) {s : Section V H R}
    (held : f.holder = some s) (pulls : s.purpose?.isSome) : ∃ purpose, s = .registering purpose := by
  rcases standing_isSome.1 stands with active | ⟨purpose, held'⟩
  · rw [o.inactive (by rw [pull?, held]; exact pulls)] at active
    cases active
  · exact ⟨purpose, Option.some.inj (held.symm.trans held')⟩

variable [SignalValue V]

/-- What the decoder says of a payload is what `decode` does, and the feed accepts it. -/
def DecodesBy (decode : R → List (Emission V)) (f : Feed V H R) : FeedMove V → Prop
  | .decoded outcome =>
    ∀ purpose payload, f.holder = some (.decoding purpose payload) → f.admissible outcome = .ok (decode payload)
  | .pushDecoded number outcome =>
    ∀ epoch payload, f.push? number = some ⟨number, epoch, .decoding payload⟩ → f.admissible outcome = .ok (decode payload)
  | _ => True

/-- **A step is regular**: a decoder that is heard from is `decode`, and a callback that is invoked is the current one,
while no push is under way and somebody owns the feed. -/
def Regular (decode : R → List (Emission V)) (f : Feed V H R) : FeedLabel V H R → Prop
  | .advance move => f.DecodesBy decode move
  | .invoke epoch _ => epoch = f.epoch ∧ f.pushes = [] ∧ f.owners ≠ 0
  | _ => True

/-- **What has yet to be brought to the update lock** by pushes of the current epoch, of which there is one at most. -/
inductive Brings (decode : R → List (Emission V)) (f : Feed V H R) : List (Emission V) → Prop where
  /-- No push is of the current epoch. -/
  | nothing (stale : ∀ p ∈ f.pushes, p.epoch ≠ f.epoch) : Brings decode f []
  /-- One is, and no other push is under way. -/
  | push {p : Push V R} (alone : f.pushes = [p]) (current : p.epoch = f.epoch) : Brings decode f (p.phase.values decode)

/-- **How far a pull has got with its payload.** -/
def Taking (decode : R → List (Emission V)) (past : List (Moment (Feed V H R) (FeedLabel V H R) (FeedEffect V)))
    (f : Feed V H R) : Prop :=
  match f.holder with
  | some (.querying _) => handed past = [] ∧ gather taken past = []
  | some (.decoding _ payload) => handed past = [payload] ∧ gather taken past = []
  | some (.seeding ..) | some (.writing _) =>
    ∃ payload, handed past = [payload] ∧ gather taken past = decode payload
  | _ => True

/-- **How far a feed has got with the payloads that it was handed** since its activation began. -/
structure Follows (decode : R → List (Emission V))
    (since : List (Moment (Feed V H R) (FeedLabel V H R) (FeedEffect V))) (f : Feed V H R) : Prop where
  /-- Until the callback is registered, it is the payload of the pull. -/
  opening : f.IsOpening → Taking decode since f
  /-- From then on the others are accepted one after another. -/
  stands : f.standing.isSome → ∃ payload told values, handed since = payload :: told ∧
    gather taken since = decode payload ∧ Brings decode f values ∧ told.flatMap decode = gather accepted since ++ values

variable {decode : R → List (Emission V)} {f g : Feed V H R} {l : FeedLabel V H R} {r : Result V H R}
  {past since : List (Moment (Feed V H R) (FeedLabel V H R) (FeedEffect V))}

/-! ### Pushes -/

/-- **Every step keeps account of what pushes have yet to bring**: what they are handed is added, and what is accepted
of them is taken away. -/
theorem Brings.step {values : List (Emission V)} (b : Brings decode f values) (o : f.Orderly) (t : f.Transition l r)
    (regular : f.Regular decode l) (same : r.state.epoch = f.epoch) (unqueried : ∀ answer, l ≠ .hear (.queried answer)) :
    ∃ later, Brings decode r.state later ∧ values ++ l.handed.flatMap decode = f.accepted l ++ later := by
  have still : r.state.pushes = f.pushes → l.handed = [] → f.accepted l = [] →
      ∃ later, Brings decode r.state later ∧ values ++ l.handed.flatMap decode = f.accepted l ++ later := by
    intro pushes handed accepted
    refine ⟨values, ?_, by rw [handed, accepted]; exact List.append_nil _⟩
    cases b with
    | nothing stale => exact .nothing fun p mem => same ▸ stale p (pushes ▸ mem)
    | push alone current => exact .push (pushes.trans alone) (current.trans same.symm)
  have moved : ∀ {number epoch : Nat} {phase next : PushPhase V R}, f.push? number = some ⟨number, epoch, phase⟩ →
      r.state.pushes = (f.setPhase number next).pushes → l.handed = [] → (epoch ≠ f.epoch → f.accepted l = []) →
      (epoch = f.epoch → phase.values decode = f.accepted l ++ next.values decode) →
      ∃ later, Brings decode r.state later ∧ values ++ l.handed.flatMap decode = f.accepted l ++ later := by
    intro number epoch phase next known pushes handed void brings
    obtain ⟨mem, -⟩ := mem_of_push? known
    rw [handed, List.flatMap_nil, List.append_nil]
    cases b with
    | nothing stale =>
      refine ⟨[], .nothing fun p hp => ?_, by rw [void (stale _ mem)]; rfl⟩
      rw [pushes] at hp
      obtain ⟨q, hq, rfl⟩ := mem_setPhase hp
      rw [same]
      split <;> exact stale q hq
    | @push p alone current =>
      obtain rfl : ⟨number, epoch, phase⟩ = p := by simpa [alone] using mem
      refine ⟨_, .push (p := ⟨number, epoch, next⟩) ?_ (current.trans same.symm), brings current⟩
      rw [pushes, setPhase, alone]
      simp
  cases t with
  | queryFailed | queried => exact absurd rfl (unqueried _)
  | activate | subscribe | withdraw => exact absurd same (Nat.succ_ne_self _)
  | invokeUnowned _ unowned => exact absurd unowned regular.2.2
  | @invoke epoch payload =>
    obtain ⟨rfl, idle, -⟩ := regular
    refine ⟨decode payload, .push (p := ⟨f.pushCount, f.epoch, .decoding payload⟩) (by simp [idle]) rfl, ?_⟩
    cases b with
    | nothing => simp [FeedLabel.handed, accepted]
    | push alone => cases idle.symm.trans alone
  | settlePush writing =>
    obtain ⟨-, epoch, known⟩ := o.locked _ _ writing rfl
    exact moved known rfl rfl (fun _ => rfl) fun _ => rfl
  | pushRefused known refused => cases refused.symm.trans (regular _ _ known)
  | pushDecoded known admitted =>
    cases admitted.symm.trans (regular _ _ known)
    exact moved known rfl rfl (fun _ => rfl) fun _ => rfl
  | pushAccepted known free =>
    refine moved known rfl rfl (fun stale => absurd rfl stale) fun _ => ?_
    simp [accepted, known, free, PushPhase.values]
  | pushStale known free stale =>
    refine moved known rfl rfl (fun _ => ?_) fun current => absurd current stale
    simp [accepted, known, free, stale]
  | @leave number epoch known =>
    have mem := (mem_of_push? known).1
    refine ⟨[], .nothing fun p hp => ?_, ?_⟩
    · cases b with
      | nothing stale => exact stale p (List.mem_of_mem_filter hp)
      | @push q alone =>
        obtain rfl : ⟨number, epoch, .leaving⟩ = q := by simpa [alone] using mem
        simp [alone] at hp
    · cases b with
      | nothing => rfl
      | @push q alone =>
        obtain rfl : ⟨number, epoch, .leaving⟩ = q := by simpa [alone] using mem
        rfl
  | _ => exact still rfl rfl rfl

/-! ### The pull -/

/-- A step of the pull, or one that has nothing to do with it, while the pull is under way. -/
theorem Taking.step (h : Taking decode past f) (opening : f.IsOpening) (o : f.Orderly)
    {before : List (Moment (Feed V H R) (FeedLabel V H R) (FeedEffect V))} (b : Books before f) (t : f.Transition l r)
    (regular : f.Regular decode l) : Taking decode (past ++ [⟨f, l, r⟩]) r.state := by
  have pulls := opening.pulls
  have unpulled : f.pull? = none → Taking decode (past ++ [⟨f, l, r⟩]) r.state := fun none => by
    rw [none] at pulls
    cases pulls
  have free : f.holder = none → Taking decode (past ++ [⟨f, l, r⟩]) r.state := fun free =>
    unpulled (by rw [pull?, free]; rfl)
  have ends : r.state.holder = none → Taking decode (past ++ [⟨f, l, r⟩]) r.state := fun free => by
    rw [Taking, free]
    trivial
  have quiet : r.state.holder = f.holder → l.handed = [] → f.taken l = [] →
      Taking decode (past ++ [⟨f, l, r⟩]) r.state := by
    intro holder handed taken
    unfold Taking at h ⊢
    rwa [holder, handed_concat, gather_concat, handed, taken, List.append_nil, List.append_nil]
  -- the callbacks that can be invoked are of earlier epochs
  have earlier : ∀ {epoch}, epoch ∈ f.callbacks → epoch ≠ f.epoch := fun given =>
    Nat.ne_of_lt ((b.given _ (b.callbacks _ given)).2 opening)
  cases t with
  | content free' | activate free' | deactivate free' | refresh free' | attach free' | subscribe free'
  | unknown free' | detach free' | detachLast free' | shutdown free' | dropLast _ _ free' => exact free free'
  | unregistered held | clear held | cleared held | clearedInactive held | withdraw held =>
    exact unpulled (by rw [pull?, held]; rfl)
  | retire retiring => exact unpulled (o.handled (Nat.add_eq_zero_iff.1 (o.unowned retiring)).1)
  | queryFailed | registerFailed | subscribed | activated | decodeFailed | settleRefresh => exact ends rfl
  | settle => trivial
  | invokeUnowned given | invoke given => exact absurd regular.1 (earlier given)
  | queried held =>
    unfold Taking at h ⊢
    rw [held] at h
    rw [handed_concat, gather_concat, h.1, h.2]
    exact ⟨rfl, rfl⟩
  | @decoded purpose payload outcome values held admitted =>
    unfold Taking at h ⊢
    rw [held] at h
    rw [handed_concat, gather_concat, h.1, h.2]
    have decoded := regular _ _ held
    exact ⟨payload, rfl, by simp [taken, decoded]⟩
  | seed held =>
    unfold Taking at h ⊢
    rw [held] at h
    rw [handed_concat, gather_concat]
    simpa [FeedLabel.handed, taken] using h
  | _ => exact quiet rfl rfl rfl

/-! ### The activation -/

theorem Activates.follows (a : f.Activates l) (t : f.Transition l r) : Follows decode [⟨f, l, r⟩] r.state := by
  obtain ⟨purpose, -, rfl⟩ := a.starts t
  obtain ⟨-, inactive, rfl | ⟨signal, token, handler, rfl⟩⟩ := a
  all_goals
    exact ⟨fun _ => ⟨rfl, rfl⟩, fun stands => by simp [standing, inactive, Section.registers] at stands⟩

/-- **Every regular step goes on with the payloads**, as long as the feed is active or about to be. -/
theorem Follows.step (h : Follows decode since f) (a : Activation g since f) (b : Books past f) (o : f.Orderly)
    (live : f.IsLive) (t : f.Transition l r) (regular : f.Regular decode l) (same : r.state.epoch = f.epoch) :
    Follows decode (since ++ [⟨f, l, r⟩]) r.state where
  opening := by
    intro opening'
    have opening := (t.opens opening').resolve_right fun starts => starts.not_isLive live
    exact (h.opening opening).step opening o b t regular
  stands := by
    intro stands'
    rcases t.stands stands' with stands | ⟨rfl, -, purpose, held, more, writing⟩
    · obtain ⟨payload, told, values, handed', taken', brings, accepted'⟩ := h.stands stands
      have untaken : f.taken l = [] := t.taken_eq_nil fun purpose payload held => by
        obtain ⟨purpose, eq⟩ := o.registers_of_standing stands held rfl
        cases eq
      have unqueried : ∀ answer, l ≠ .hear (.queried answer) := by
        rintro answer rfl
        cases t with
        | queryFailed held | queried held =>
          obtain ⟨purpose, eq⟩ := o.registers_of_standing stands held rfl
          cases eq
      obtain ⟨later, brings', next⟩ := brings.step o t regular same unqueried
      refine ⟨payload, told ++ l.handed, later, ?_, ?_, brings', ?_⟩
      · rw [handed_concat, handed']
        rfl
      · rw [gather_concat, taken', untaken, List.append_nil]
      · rw [List.flatMap_append, accepted', gather_concat, List.append_assoc, List.append_assoc, next]
    · -- the pull is done, and no push is of its epoch
      have opening : f.IsOpening := ⟨_, held, more⟩
      have taking := h.opening opening
      simp only [Taking, held] at taking
      obtain ⟨payload, handed', taken'⟩ := taking
      have pushes : r.state.pushes = f.pushes := by
        cases t with
        | settle => rfl
        | settlePush writing' => cases writing.symm.trans writing'
        | settleRefresh held' =>
          cases held.symm.trans held'
          exact absurd rfl more
      refine ⟨payload, [], [], ?_, ?_, .nothing fun p mem => ?_, ?_⟩
      · rw [handed_concat, handed']
        rfl
      · rw [gather_concat, taken']
        exact List.append_nil _
      · rw [same]
        exact Nat.ne_of_lt ((b.given _ (b.pushes p (pushes ▸ mem))).2 opening)
      · rw [gather_concat, (a.opening opening).1]
        rfl

/-- **An active feed with no push under way has written what its decoder makes of all payloads** that it was handed since
its activation began in a state `g`, after what a push was still writing then. -/
theorem Follows.written (h : Follows decode since f) (a : Activation g since f) (o : f.Orderly)
    (stands : f.standing.isSome) (returned : f.pushes = []) :
    handed since ≠ [] ∧ gather wrote since = g.yetToPush ++ (handed since).flatMap decode := by
  obtain ⟨later, wrote', accepted'⟩ := a.stands stands
  obtain ⟨payload, told, values, handed', taken', brings, told'⟩ := h.stands stands
  rw [o.yetToPush_eq_nil returned, List.append_nil] at accepted'
  have brought : values = [] := by
    cases brings with
    | nothing => rfl
    | push alone => cases returned.symm.trans alone
  rw [accepted', brought, List.append_nil] at told'
  refine ⟨by simp [handed'], ?_⟩
  rw [wrote', handed', taken', List.flatMap_cons, told', List.append_assoc]

/-- Whoever waits for the answer to a query goes on waiting until it comes, if an activation is to come of it. -/
theorem Transition.stays_querying (t : f.Transition l r) (o : f.Orderly) {purpose : Purpose H}
    (held : f.holder = some (.querying purpose)) (live : r.state.IsLive) :
    r.state.holder = some (.querying purpose) ∨ ∃ payload, l = .hear (.queried (.ok payload)) := by
  have unheld : ∀ {s}, f.holder = s → s ≠ some (.querying purpose) →
      r.state.holder = some (.querying purpose) ∨ ∃ payload, l = .hear (.queried (.ok payload)) :=
    fun held' other => absurd (held'.symm.trans held) other
  cases t with
  | content free | activate free | deactivate free | refresh free | attach free | subscribe free | unknown free
  | detach free | detachLast free | shutdown free | dropLast _ _ free => exact unheld free nofun
  | registerFailed held' | subscribed held' | activated held' | unregistered held' | decodeFailed held' | decoded held'
  | seed held' | settleRefresh held' | settle held' | clear held' | cleared held' | clearedInactive held'
  | withdraw held' => exact unheld held' nofun
  | retire retiring =>
    have unpulled := o.handled (Nat.add_eq_zero_iff.1 (o.unowned retiring)).1
    rw [pull?, held] at unpulled
    cases unpulled
  | queryFailed =>
    have inactive : f.registration = none := o.inactive (by rw [pull?, held]; rfl)
    rcases live with ⟨s, held', -⟩ | stands
    · cases held'
    · simp [standing, inactive] at stands
  | queried => exact .inr ⟨_, rfl⟩
  | _ => exact .inl held

/-! ### Runs -/

theorem Activates.epoch_eq (a : f.Activates l) (t : f.Transition l r) : r.state.epoch = f.epoch + 1 := by
  obtain ⟨purpose, -, rfl⟩ := a.starts t
  rfl

/-- A feed that is active or about to be was so before, in the same epoch. -/
theorem Transition.was_live (t : f.Transition l r) (live : r.state.IsLive) (same : r.state.epoch = f.epoch) : f.IsLive := by
  refine (t.isLive live).resolve_right fun starts => ?_
  rw [starts.epoch_eq t] at same
  exact Nat.succ_ne_self _ same

/-- An active feed stays so in the same epoch, unless it is given up. -/
theorem Transition.stays_active (t : f.Transition l r) (active : f.registration.isSome) (live : r.state.IsLive)
    (same : r.state.epoch = f.epoch) : r.state.registration.isSome := by
  cases t with
  | withdraw => exact absurd same (Nat.succ_ne_self _)
  | retire | dropLast =>
    rcases live with ⟨s, held, opens⟩ | stands
    · cases held
      exact opens.elim
    · cases stands
  | subscribed | activated => rfl
  | _ => exact active

/-- While somebody pulls, no epoch begins. -/
theorem Transition.epoch_of_pull (t : f.Transition l r) {purpose : Purpose H} (pulls : f.pull? = some purpose) :
    r.state.epoch = f.epoch := by
  cases t with
  | activate free | subscribe free =>
    rw [pull?, free] at pulls
    cases pulls
  | withdraw held =>
    rw [pull?, held] at pulls
    cases pulls
  | _ => rfl

/-- A pull that is done was a read's, or the feed is active. -/
theorem Transition.active_of_done (t : f.Transition l r) {purpose : Purpose H} (pulls : f.pull? = some purpose)
    (more : purpose ≠ .refresh) (answered : r.answer = some .done) (free : r.state.holder = none) :
    r.state.registration.isSome := by
  have unpulling : ∀ {s}, f.holder = s → s.bind Section.purpose? = none → r.state.registration.isSome := fun held none => by
    rw [pull?, held, none] at pulls
    cases pulls
  cases t with
  | content free | attach free | detach free => exact unpulling free rfl
  | unregistered held | clearedInactive held => exact unpulling held rfl
  | subscribed | activated => rfl
  | settleRefresh held =>
    rw [pull?, held] at pulls
    cases pulls
    exact absurd rfl more
  | unknown | queryFailed | registerFailed | decodeFailed => cases answered
  | activate | deactivate | refresh | subscribe | detachLast | shutdown | queried | decoded | seed | settle | clear
  | cleared | withdraw | retire | dropLast => cases free
  | _ => cases answered

section Run

variable {k : Feed V H R} {rest : List (FeedLabel V H R)} {es : List (FeedEffect V)} {a : Answer}

theorem epoch_le_of_run {labels : List (FeedLabel V H R)} (ran : run Feed.step labels f = some (k, es)) :
    f.epoch ≤ k.epoch :=
  run_keeps (P := fun g => f.epoch ≤ g.epoch)
    (fun _ _ _ _ le made => Nat.le_trans le (transition_of_step made).epoch_le) ran (Nat.le_refl _)

/-- Where a feed ends up active, or about to be, it has been so throughout the epoch. -/
theorem live_of_run {labels : List (FeedLabel V H R)} (ran : run Feed.step labels f = some (k, es)) (live : k.IsLive)
    (same : k.epoch = f.epoch) : f.IsLive := by
  induction labels generalizing f es with
  | nil =>
    cases ran
    exact live
  | cons l rest ih =>
    obtain ⟨r, later, made, onward, -⟩ := run_cons.1 ran
    have t := transition_of_step made
    have same' : r.state.epoch = f.epoch := Nat.le_antisymm (same ▸ epoch_le_of_run onward) t.epoch_le
    exact t.was_live (ih onward (same.trans same'.symm)) same'

/-- An active feed has stayed so in the same epoch, unless it was given up. -/
theorem active_of_run {labels : List (FeedLabel V H R)} (ran : run Feed.step labels f = some (k, es))
    (active : f.registration.isSome) (live : k.IsLive) (same : k.epoch = f.epoch) : k.registration.isSome := by
  induction labels generalizing f es with
  | nil =>
    cases ran
    exact active
  | cons l rest ih =>
    obtain ⟨r, later, made, onward, -⟩ := run_cons.1 ran
    have t := transition_of_step made
    have same' : r.state.epoch = f.epoch := Nat.le_antisymm (same ▸ epoch_le_of_run onward) t.epoch_le
    have live' := live_of_run onward live (same.trans same'.symm)
    exact ih onward (t.stays_active active live' same') (same.trans same'.symm)

/-- An activation ends in the epoch that it began with, and if it is done the feed is active. -/
theorem Activates.outcome (activates : f.Activates l) (o : f.Orderly) (tidy : f.Tidy) (b : Books past f)
    (fin : Finishes f (l :: rest) k es a) : k.epoch = f.epoch + 1 ∧ (a = .done → k.registration.isSome) := by
  cases fin with
  | last made free => exact absurd free (activates.attempting o tidy b (transition_of_step made)).1
  | more made busy onward =>
    have t := transition_of_step made
    obtain ⟨-, attempting, -⟩ := activates.attempting o tidy b t
    refine onward.account (P := fun since u => Attempting f since u ∧ u.epoch = f.epoch + 1)
      (Q := fun _ u a => u.epoch = f.epoch + 1 ∧ (a = .done → u.registration.isSome)) ?_ ?_ ⟨attempting, activates.epoch_eq t⟩
    · rintro since u l r ⟨h, same⟩ made busy
      have t := transition_of_step made
      obtain ⟨purpose, pulls, -⟩ := h.attempts
      exact ⟨h.step t busy, (t.epoch_of_pull pulls).trans same⟩
    · rintro since u l r a ⟨h, same⟩ made free answered
      have t := transition_of_step made
      obtain ⟨purpose, pulls, more⟩ := h.attempts
      exact ⟨(t.epoch_of_pull pulls).trans same, fun done => t.active_of_done pulls more (done ▸ answered) free⟩

/-- **What becomes of the payloads in a run** in which an activation begins that the feed still owes its registration
to. -/
theorem Activates.follows_of_run (activates : f.Activates l) (o : f.Orderly) (tidy : f.Tidy) (b : Books past f)
    (ran : run Feed.step (l :: rest) f = some (k, es))
    (regular : ∀ m ∈ trail Feed.step (l :: rest) f, m.before.IsLive → m.before.Regular decode m.label) (live : k.IsLive)
    (same : k.epoch = f.epoch + 1) :
    k.Orderly ∧ Activation f (trail Feed.step (l :: rest) f) k ∧ Follows decode (trail Feed.step (l :: rest) f) k := by
  induction rest using List.reverseRecOn generalizing k es with
  | nil =>
    obtain ⟨r, later, made, done, -⟩ := run_cons.1 ran
    cases done
    have t := transition_of_step made
    rw [trail_cons made]
    exact ⟨o.step t, activates.activation t, activates.follows t⟩
  | append_singleton ls x ih =>
    rw [← List.cons_append] at ran regular ⊢
    obtain ⟨u, before, after, ranFirst, last, rfl⟩ := run_append.1 ran
    obtain ⟨r, later, made, done, rfl⟩ := run_cons.1 last
    cases done
    rw [trail_append ranFirst] at regular ⊢
    rw [trail_cons made, trail_nil] at regular ⊢
    have t := transition_of_step made
    obtain ⟨q, later, first, onward, -⟩ := run_cons.1 ranFirst
    have early : f.epoch + 1 ≤ u.epoch := activates.epoch_eq (transition_of_step first) ▸ epoch_le_of_run onward
    have same' : u.epoch = f.epoch + 1 := Nat.le_antisymm (same ▸ t.epoch_le) early
    have live' : u.IsLive := t.was_live live (same.trans same'.symm)
    obtain ⟨orderly, activation, follows⟩ := ih ranFirst
      (fun m mem => regular m (List.mem_append_left _ mem)) live' same'
    obtain ⟨-, tidy', past', books⟩ := run_keeps (P := fun u => u.Orderly ∧ u.Tidy ∧ ∃ past, Books past u)
      (fun _ _ _ _ kept made => kept_of_step kept made) ranFirst ⟨o, tidy, past, b⟩
    exact ⟨orderly.step t, activation.step books orderly tidy' live' t live,
      follows.step activation books orderly live' t
        (regular _ (List.mem_append_right _ (List.mem_singleton_self _)) live') (same.trans same'.symm)⟩

end Run

end Feed

end LazyHub
