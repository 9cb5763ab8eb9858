import LazyHub.Proofs.Feed.Activations

/-!
# What comes of an activation

A client who finds a feed inactive and asks for a registration, with or without a subscription, has an
operation begin that ends in one of four ways (`attempted_of_finishes`): the query fails, the
decoding fails, the registration is refused, or the feed is active. Unless it comes to that, the feed
is left inactive; and the caches are only written to if the payload was decoded.
-/

namespace LazyHub.Feed

variable {V H R : Type}

/-- An activation is under way. -/
def IsAttempting (f : Feed V H R) : Prop := ∃ purpose, f.pull? = some purpose ∧ purpose ≠ .refresh

theorem IsAttempting.isLive {f : Feed V H R} (h : f.IsAttempting) : f.IsLive := by
  obtain ⟨purpose, pulls, more⟩ := h
  obtain ⟨s, held, wants⟩ := Option.bind_eq_some_iff.1 pulls
  cases s with
  | registering => exact .inr (standing_isSome.2 (.inr ⟨_, held⟩))
  | querying | decoding | seeding | writing =>
    cases wants
    exact .inl ⟨_, held, more⟩
  | _ => cases wants

variable [SignalValue V] {f g : Feed V H R} {l : FeedLabel V H R} {r : Result V H R}
  {since : List (Moment (Feed V H R) (FeedLabel V H R) (FeedEffect V))}

/-- Whoever pulls pulls for the same until the state lock is let go of. -/
theorem Transition.pull?_of_busy (t : f.Transition l r) (o : f.Orderly) {purpose : Purpose H}
    (pulls : f.pull? = some purpose) (busy : r.state.holder ≠ none) : r.state.pull? = some purpose := by
  have free : f.holder = none → r.state.pull? = some purpose := fun free => by
    rw [pull?, free] at pulls
    cases pulls
  have unpulling : ∀ {s}, f.holder = some s → s.purpose? = none → r.state.pull? = some purpose := fun held none => by
    rw [pull?, held] at pulls
    cases none.symm.trans pulls
  have onward : ∀ {s s'}, f.holder = some s → r.state.holder = some s' → s'.purpose? = s.purpose? →
      r.state.pull? = some purpose := fun held held' same => by
    rw [pull?, held']
    rw [pull?, held] at pulls
    exact same.trans pulls
  cases t with
  | content free' | activate free' | deactivate free' | refresh free' | attach free' | subscribe free'
  | unknown free' | detach free' | detachLast free' | shutdown free' | dropLast _ _ free' => exact free free'
  | unregistered held | clear held | cleared held | clearedInactive held | withdraw held => exact unpulling held rfl
  | retire retiring =>
    rw [o.handled (Nat.add_eq_zero_iff.1 (o.unowned retiring)).1] at pulls
    cases pulls
  | queryFailed | registerFailed | subscribed | activated | decodeFailed | settleRefresh => exact absurd rfl busy
  | queried held | decoded held | seed held | settle held => exact onward held rfl rfl
  | _ => exact pulls

/-- **What comes of an activation** that begins in a state `g`. -/
inductive Attempted (kind : Kind) (g : Feed V H R) (since : List (Moment (Feed V H R) (FeedLabel V H R) (FeedEffect V))) :
    Answer → Prop where
  /-- The query failed, and pushes alone wrote meanwhile. -/
  | queryFailed {failure : ProviderFailure}
      (said : since.flatMap events = [.asked .query, .heard (.queried (.error failure))])
      (written : gather wrote since = gather pushed since) : Attempted kind g since (.failed (.queryFailed kind failure))
  /-- The decoding failed, and pushes alone wrote meanwhile. -/
  | decodeFailed {payload : R} {failure : DecodeFailure}
      (said : since.flatMap events = [.asked .query, .heard (.queried (.ok payload)), .decoded (.error failure)])
      (written : gather wrote since = gather pushed since) : Attempted kind g since (.failed (.decodeFailed kind failure))
  /-- The registration was refused, after the values were written. -/
  | registerFailed {payload : R} {epoch : Nat} {failure : ProviderFailure}
      (said : since.flatMap events =
        pulled payload ++ [.asked (.register epoch), .heard (.registered (.error failure))])
      {later : List (Emission V)} (written : gather wrote since = g.yetToPush ++ gather taken since ++ later)
      (pushes : gather pushed since = g.yetToPush ++ later) :
      Attempted kind g since (.failed (.registerFailed kind failure))
  /-- The feed is active. -/
  | activated {payload : R} {epoch : Nat} {registration : Registration}
      (said : since.flatMap events =
        pulled payload ++ [.asked (.register epoch), .heard (.registered (.ok registration))])
      {later : List (Emission V)} (written : gather wrote since = g.yetToPush ++ gather taken since ++ later)
      (pushes : gather pushed since = g.yetToPush ++ later) : Attempted kind g since .done

/-- How an activation stands to what it has done so far. -/
structure Attempting (g : Feed V H R) (since : List (Moment (Feed V H R) (FeedLabel V H R) (FeedEffect V)))
    (f : Feed V H R) : Prop where
  /-- The feed is in order. -/
  orderly : f.Orderly
  /-- The feed is tidy. -/
  tidy : f.Tidy
  /-- The feed's books are kept. -/
  books : ∃ past, Books past f
  /-- The activation is under way. -/
  attempts : f.IsAttempting
  /-- What was said and written. -/
  activation : Activation g since f

theorem Attempting.step (h : Attempting g since f) (t : f.Transition l r) (busy : r.state.holder ≠ none) :
    Attempting g (since ++ [⟨f, l, r⟩]) r.state := by
  obtain ⟨purpose, pulls, more⟩ := h.attempts
  have attempts : r.state.IsAttempting := ⟨purpose, t.pull?_of_busy h.orderly pulls busy, more⟩
  obtain ⟨past, books⟩ := h.books
  exact ⟨h.orderly.step t, h.tidy.step h.orderly t, ⟨_, books.step h.orderly t⟩, attempts,
    h.activation.step books h.orderly h.tidy h.attempts.isLive t attempts.isLive⟩

/-- What pushes wrote in the course of an activation whose registration stands. -/
theorem Activation.written (a : Activation g since f) (stands : f.standing.isSome) :
    ∃ later, gather wrote since = g.yetToPush ++ gather taken since ++ later ∧ gather pushed since = g.yetToPush ++ later := by
  obtain ⟨later, wrote, accepted⟩ := a.stands stands
  have pushes := a.pushes
  rw [accepted, ← List.append_assoc] at pushes
  exact ⟨later, wrote, (List.append_cancel_right pushes).symm⟩

theorem Attempting.ends (h : Attempting g since f) (t : f.Transition l r) (free : r.state.holder = none) {a : Answer}
    (answered : r.answer = some a) : Attempted f.kind g (since ++ [⟨f, l, r⟩]) a := by
  obtain ⟨purpose, pulls, more⟩ := h.attempts
  have begun := h.activation.begun
  have same : ∀ {what : Feed V H R → FeedLabel V H R → List (Emission V)}, what f l = [] →
      gather what (since ++ [⟨f, l, r⟩]) = gather what since := fun none => by
    rw [gather_concat, none, List.append_nil]
  have said : ∀ xs, since.flatMap events = xs →
      (since ++ [Moment.mk f l r]).flatMap events = xs ++ events (Moment.mk f l r) := by
    rintro _ rfl
    rw [List.flatMap_append, List.flatMap_singleton]
  have unfree : f.holder = none → False := fun free => by
    rw [pull?, free] at pulls
    cases pulls
  have unpulling : ∀ {s}, f.holder = some s → s.purpose? = none → False := fun held none => by
    rw [pull?, held] at pulls
    cases none.symm.trans pulls
  cases t with
  | content free' | attach free' | unknown free' | detach free' => exact (unfree free').elim
  | invokeUnowned | invoke | write | look | post | settlePush | pushRefused | pushDecoded | pushAccepted | pushStale | leave | clone
  | drop => exact (unfree free).elim
  | activate | deactivate | refresh | subscribe | detachLast | shutdown | queried | decoded | seed | settle | clear
  | cleared | withdraw | retire | dropLast => cases free
  | unregistered held | clearedInactive held => exact (unpulling held rfl).elim
  | settleRefresh held =>
    rw [pull?, held] at pulls
    cases pulls
    exact absurd rfl more
  | queryFailed held =>
    cases answered
    rw [pull?, held] at pulls
    cases pulls
    obtain ⟨-, account⟩ := h.activation.opening ⟨_, held, more⟩
    rw [stage, held] at begun
    simp only [Account, held] at account
    generalize whole : since.flatMap events = before at begun
    cases begun
    exact .queryFailed (said _ whole) (by rw [same rfl, same rfl, account.2])
  | decodeFailed held refused =>
    cases answered
    rw [pull?, held] at pulls
    cases pulls
    obtain ⟨-, account⟩ := h.activation.opening ⟨_, held, more⟩
    rw [stage, held] at begun
    simp only [Account, held] at account
    generalize whole : since.flatMap events = before at begun
    cases begun
    have verdict := said _ whole
    simp only [events, heard, refused] at verdict
    exact .decodeFailed verdict (by rw [same rfl, same rfl, account.2])
  | registerFailed held =>
    cases answered
    obtain ⟨later, wrote, pushes⟩ := h.activation.written (standing_isSome.2 (.inr ⟨_, held⟩))
    rw [stage, held] at begun
    generalize whole : since.flatMap events = before at begun
    cases begun
    exact .registerFailed ((said _ whole).trans (List.append_assoc ..)) (by rw [same rfl, same rfl, wrote]) (by rw [same rfl, pushes])
  | subscribed held | activated held =>
    cases answered
    obtain ⟨later, wrote, pushes⟩ := h.activation.written (standing_isSome.2 (.inr ⟨_, held⟩))
    rw [stage, held] at begun
    generalize whole : since.flatMap events = before at begun
    cases begun
    exact .activated ((said _ whole).trans (List.append_assoc ..)) (by rw [same rfl, same rfl, wrote]) (by rw [same rfl, pushes])

theorem Activates.attempting (a : f.Activates l) (o : f.Orderly) (h : f.Tidy) {past} (b : Books past f)
    (t : f.Transition l r) : r.state.holder ≠ none ∧ Attempting f [⟨f, l, r⟩] r.state ∧ r.state.kind = f.kind := by
  have order := o.step t
  have tidy := h.step o t
  have books := b.step o t
  have activation := a.activation t
  obtain ⟨purpose, more, rfl⟩ := a.starts t
  exact ⟨nofun, ⟨order, tidy, ⟨_, books⟩, ⟨purpose, rfl, more⟩, activation⟩, rfl⟩

/-- **An activation ends in one of four ways.** -/
theorem attempted_of_finishes (o : f.Orderly) (h : f.Tidy) {past} (b : Books past f) (activates : f.Activates l)
    {rest : List (FeedLabel V H R)} {k : Feed V H R} {es : List (FeedEffect V)} {a : Answer}
    (fin : Finishes f (l :: rest) k es a) : Attempted f.kind f (trail Feed.step (l :: rest) f) a := by
  cases fin with
  | last made free => exact absurd free (activates.attempting o h b (transition_of_step made)).1
  | more made busy onward =>
    obtain ⟨-, attempting, kind⟩ := activates.attempting o h b (transition_of_step made)
    rw [trail_cons made, ← kind, ← List.singleton_append]
    refine onward.account (P := fun since g => Attempting f since g ∧ g.kind = _)
      (Q := fun since g a => Attempted _ f since a) ?_ ?_ ⟨attempting, rfl⟩
    · rintro since g l r ⟨h, eq⟩ made busy
      have t := transition_of_step made
      exact ⟨h.step t busy, t.kind_eq.trans eq⟩
    · rintro since g l r a ⟨h, eq⟩ made free answered
      exact eq ▸ h.ends (transition_of_step made) free answered

end LazyHub.Feed
