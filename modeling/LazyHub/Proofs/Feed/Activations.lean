import LazyHub.Proofs.Feed.Ledger
import LazyHub.Proofs.Feed.Pulls

/-!
# What an activation has made of the caches

An active feed has been activated once since it was last inactive. `Feed.Activation` tells what was
said and written since then: the activation's round is as far along as the feed is, the pull wrote its
values after what a push was still writing when it began, and since then every push that is accepted
writes its values in full (`Activation.step`).

While the activation is under way that has yet to register its callback no push is accepted, since its
epoch is newer than all callbacks (`Books.accepted_eq_nil`).
-/

namespace LazyHub.Feed

variable {V H R : Type}

/-- The feed is active, or about to be. -/
def IsLive (f : Feed V H R) : Prop := f.IsOpening ∨ f.standing.isSome

theorem standing_isSome {f : Feed V H R} :
    f.standing.isSome ↔ f.registration.isSome ∨ ∃ purpose, f.holder = some (.registering purpose) := by
  unfold standing
  cases f.holder with
  | none => simp
  | some s => cases s <;> simp [Section.registers]

theorem IsOpening.pulls {f : Feed V H R} (opening : f.IsOpening) : f.pull?.isSome := by
  obtain ⟨s, held, opens⟩ := opening
  rw [pull?, held]
  cases s with
  | querying | decoding | seeding | writing => rfl
  | _ => exact opens.elim

/-- A feed that is active or about to be has a handle, if an active feed has one. -/
theorem IsLive.handled {f : Feed V H R} (live : f.IsLive) (o : f.Orderly) (owned : f.handles ≠ 0 ∨ f.registration = none) :
    f.handles ≠ 0 := by
  intro unhandled
  have unpulled := o.handled unhandled
  rcases live with opening | stands
  · have pulls := opening.pulls
    rw [unpulled] at pulls
    cases pulls
  · rcases standing_isSome.1 stands with active | ⟨purpose, held⟩
    · rw [owned.resolve_left (not_not.2 unhandled)] at active
      cases active
    · rw [pull?, held] at unpulled
      cases unpulled

/-- The round of a feed that is active or about to be is neither over nor coming to its end. -/
theorem IsLive.stage {f : Feed V H R} (live : f.IsLive) (tidy : f.Tidy) (o : f.Orderly) :
    f.stage ≠ .resting ∧ ∀ registration, f.stage ≠ .unregistering registration := by
  rcases live with ⟨s, held, opens⟩ | stands
  · rw [Feed.stage, held]
    cases s with
    | querying | decoding | seeding | writing => simp
    | _ => exact opens.elim
  · rcases standing_isSome.1 stands with active | ⟨purpose, held⟩
    · have known := tidy.registration?_stage o
      refine ⟨fun resting => ?_, fun registration ending => ?_⟩
      · rw [← known, resting] at active
        cases active
      · rw [← known, ending] at active
        cases active
    · rw [Feed.stage, held]
      simp

/-- A client's request starts an activation. -/
def Activates (f : Feed V H R) (l : FeedLabel V H R) : Prop :=
  f.holder = none ∧ f.registration = none ∧
    (l = .enter .activate ∨ ∃ signal token handler, l = .enter (.subscribe signal token handler))

variable [SignalValue V] {f : Feed V H R} {l : FeedLabel V H R} {r : Result V H R}
  {past since : List (Moment (Feed V H R) (FeedLabel V H R) (FeedEffect V))}

omit [SignalValue V] in
theorem Activates.not_isLive (a : f.Activates l) : ¬ f.IsLive := by
  obtain ⟨free, inactive, -⟩ := a
  rintro (⟨s, held, -⟩ | stands)
  · cases free.symm.trans held
  · rw [standing, inactive, free] at stands
    cases stands

/-- An activation starts with a query, in a new epoch. -/
theorem Activates.starts (a : f.Activates l) (t : f.Transition l r) :
    ∃ purpose : Purpose H, purpose ≠ .refresh ∧ r =
      { state := { f with epoch := f.epoch + 1, holder := some (.querying purpose) }, effects := [.asked .query] } := by
  obtain ⟨-, inactive, rfl | ⟨signal, token, handler, rfl⟩⟩ := a
  · cases t with
    | content _ _ content => simp [IsContent, isActive, inactive] at content
    | activate => exact ⟨_, by simp, rfl⟩
  · cases t with
    | content _ _ content => cases content
    | attach _ _ _ active =>
      rw [inactive] at active
      cases active
    | subscribe => exact ⟨_, by simp, rfl⟩

/-- An activation that is opening after a step was so before, or starts. -/
theorem Transition.opens (t : f.Transition l r) (opening : r.state.IsOpening) : f.IsOpening ∨ f.Activates l := by
  obtain ⟨s, held', opens⟩ := opening
  cases t with
  | activate free _ inactive => exact .inr ⟨free, inactive, .inl rfl⟩
  | subscribe free _ _ inactive => exact .inr ⟨free, inactive, .inr ⟨_, _, _, rfl⟩⟩
  | refresh =>
    cases held'
    exact absurd rfl opens
  | queried held | decoded held | seed held =>
    cases held'
    exact .inl ⟨_, held, opens⟩
  | deactivate | detachLast | shutdown | settle | clear | cleared | withdraw | retire | dropLast =>
    cases held'
    exact opens.elim
  | queryFailed | registerFailed | subscribed | activated | unregistered | decodeFailed | settleRefresh
  | clearedInactive => cases held'
  | _ => exact .inl ⟨s, held', opens⟩

/-- A registration that stands after a step did so before, or is asked for because a pull is done. -/
theorem Transition.stands (t : f.Transition l r) (stands : r.state.standing.isSome) :
    f.standing.isSome ∨ l = .advance .settle ∧ r.state.yetToPush = [] ∧
      ∃ purpose, f.holder = some (.writing purpose) ∧ purpose ≠ .refresh ∧ f.writer = some ⟨none, [], .none⟩ := by
  rw [standing_isSome] at stands ⊢
  cases t with
  | settle held more writing => exact .inr ⟨rfl, rfl, _, held, more, writing⟩
  | subscribed held | activated held => exact .inl (.inr ⟨_, held⟩)
  | activate | subscribe | refresh | deactivate | detachLast | shutdown | queryFailed | queried | registerFailed
  | unregistered | decodeFailed | decoded | seed | settleRefresh | clear | cleared | clearedInactive =>
    refine .inl (stands.imp_right ?_)
    rintro ⟨purpose, held⟩
    cases held
  | withdraw | retire | dropLast =>
    rcases stands with active | ⟨purpose, held⟩
    · cases active
    · cases held
  | _ => exact .inl stands

/-- A feed that is live after a step was so before, or an activation starts. -/
theorem Transition.isLive (t : f.Transition l r) (live : r.state.IsLive) : f.IsLive ∨ f.Activates l := by
  rcases live with opening | stands
  · exact (t.opens opening).imp_left .inl
  · rcases t.stands stands with stands | ⟨-, -, purpose, held, more, -⟩
    · exact .inl (.inr stands)
    · exact .inl (.inl ⟨_, held, more⟩)

omit [SignalValue V] in
/-- While an activation is under way that has yet to register its callback, no push is accepted. -/
theorem Books.accepted_eq_nil (b : Books past f) (opening : f.IsOpening) (l : FeedLabel V H R) : f.accepted l = [] := by
  unfold accepted
  split
  · split
    · rename_i number _ epoch values known unheld
      have early := (b.given epoch (b.pushes _ (mem_of_push? known).1)).2 opening
      exact if_neg (Nat.ne_of_lt early)
    · rfl
  · rfl

/-- Nobody but pushes write while the holder of the state lock does not. -/
theorem Transition.wrote_eq (t : f.Transition l r) (o : f.Orderly)
    (unwriting : ∀ purpose, f.holder ≠ some (.writing purpose)) : f.wrote l = f.pushed l := by
  by_cases written : l = .advance .write
  · subst written
    cases t with
    | @write push e rest writing =>
      rw [wrote, pushed, write?_of_writer writing]
      cases push with
      | some number => rfl
      | none =>
        obtain ⟨purpose, held⟩ := o.pulled _ writing rfl
        exact absurd held (unwriting purpose)
  · rw [wrote_eq_nil written, pushed_eq_nil written]

theorem Transition.taken_eq_nil (t : f.Transition l r)
    (undecoding : ∀ purpose payload, f.holder ≠ some (.decoding purpose payload)) : f.taken l = [] := by
  cases t with
  | decodeFailed held | decoded held => exact absurd held (undecoding _ _)
  | _ => rfl

/-- **What an activation has made of the caches** since it began in a state `g`. -/
structure Activation (g : Feed V H R) (since : List (Moment (Feed V H R) (FeedLabel V H R) (FeedEffect V)))
    (f : Feed V H R) : Prop where
  /-- What was said begins the activation's round. -/
  begun : f.stage.Begun (since.flatMap events)
  /-- Pushes write what they were writing when it began, and what is accepted of them. -/
  pushes : g.yetToPush ++ gather accepted since = gather pushed since ++ f.yetToPush
  /-- Until the callback is registered no push is accepted, and the pull is accounted for. -/
  opening : f.IsOpening → gather accepted since = [] ∧ Account since f
  /-- From then on, what was written is what was being pushed when the activation began, then what the pull
  took, then what was accepted since. -/
  stands : f.standing.isSome → ∃ later,
    gather wrote since = g.yetToPush ++ gather taken since ++ later ∧ gather accepted since = later ++ f.yetToPush

theorem Activates.activation (a : f.Activates l) (t : f.Transition l r) : Activation f [⟨f, l, r⟩] r.state := by
  obtain ⟨purpose, -, rfl⟩ := a.starts t
  obtain ⟨-, inactive, rfl | ⟨signal, token, handler, rfl⟩⟩ := a
  all_goals
    exact ⟨.querying, List.append_nil _, fun _ => ⟨rfl, rfl, rfl⟩, fun stands => by simp [standing, inactive, Section.registers] at stands⟩

/-- **Every step keeps the account of an activation**, as long as the feed is active or about to be. -/
theorem Activation.step {g : Feed V H R} (a : Activation g since f) (b : Books past f) (o : f.Orderly) (tidy : f.Tidy)
    (live : f.IsLive) (t : f.Transition l r) (live' : r.state.IsLive) :
    Activation g (since ++ [⟨f, l, r⟩]) r.state where
  begun := by
    obtain ⟨resting, -⟩ := live'.stage (tidy.step o t) (o.step t)
    have moves := t.moves o tidy
    rw [List.flatMap_append, List.flatMap_singleton]
    generalize events ⟨f, l, r⟩ = said at moves
    cases moves with
    | still same =>
      rw [List.append_nil, same]
      exact a.begun
    | next next => exact (next.begun a.begun).resolve_right fun ended => resting ended.1
    | ended _ rests => exact absurd rests resting
  pushes := by
    rw [gather_concat, gather_concat, ← List.append_assoc, a.pushes, List.append_assoc, t.yetToPush_eq,
      List.append_assoc]
  opening := by
    intro opening'
    have opening := (t.opens opening').resolve_right fun starts => starts.not_isLive live
    obtain ⟨unaccepted, account⟩ := a.opening opening
    rw [gather_concat, unaccepted, b.accepted_eq_nil opening]
    exact ⟨rfl, account.step opening.pulls o t⟩
  stands := by
    intro stands'
    rcases t.stands stands' with stands | ⟨rfl, pushed, purpose, held, more, writing⟩
    · -- pushes write and are accepted, and nobody else writes
      have unpulled : ∀ {s}, s.purpose?.isSome → (∀ purpose, s ≠ .registering purpose) → f.holder ≠ some s := by
        intro s pulls other held
        rcases standing_isSome.1 stands with active | ⟨purpose, held'⟩
        · rw [o.inactive (by rw [pull?, held]; exact pulls)] at active
          cases active
        · cases held.symm.trans held'
          exact other purpose rfl
      have wrote' := t.wrote_eq o fun purpose => unpulled rfl (by simp)
      have taken' := t.taken_eq_nil fun purpose payload => unpulled rfl (by simp)
      obtain ⟨later, wrote, accepted⟩ := a.stands stands
      refine ⟨later ++ f.pushed l, ?_, ?_⟩
      · rw [gather_concat, gather_concat, wrote, wrote', taken', List.append_nil, List.append_assoc, List.append_assoc]
      · rw [gather_concat, accepted, List.append_assoc, t.yetToPush_eq, List.append_assoc]
    · -- the pull is done, and has written all that it took
      obtain ⟨unaccepted, account⟩ := a.opening ⟨_, held, more⟩
      have idle : f.yetToPush = [] := by rw [yetToPush, writing]
      have pushes := a.pushes
      rw [unaccepted, idle, List.append_nil, List.append_nil] at pushes
      refine ⟨[], ?_, ?_⟩
      · rw [gather_concat, gather_concat, account.written held writing, pushes]
        simp [Feed.wrote, Feed.taken, write?]
      · rw [gather_concat, unaccepted, pushed]
        rfl

end LazyHub.Feed
