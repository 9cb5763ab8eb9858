import LazyHub.Proofs.Feed.Outlets

/-!
# Subscriptions, their count and the registration

A feed keeps three things that have to agree: the subscribers of its outlets, the count of its
subscriptions, and its registration. While nobody holds the state lock the count is the number of
all subscribers, and there is a registration exactly if there are any. While somebody does, the
three may be apart, and `Feed.Balanced` says how far apart for each thing that the holder can be
doing: a pull finds the feed bare, and a shutdown clears the outlets one after another while the
count and the registration stay behind.

`Balanced.step` carries this over every step that a hub lets its feeds make (`Feed.OfHub`): a
subscription comes under a token that is new to the feed, and nobody activates or deactivates the
feed itself.
-/

namespace LazyHub

variable {V H R : Type}

/-- What the holder of the state lock pulls for, if it pulls. -/
def Section.purpose? : Section V H R → Option (Purpose H)
  | .querying purpose | .decoding purpose _ | .seeding purpose _ | .writing purpose
  | .registering purpose => some purpose
  | _ => none

/-- The token of the subscription that a pull is made for. -/
def Purpose.token? : Purpose H → Option Token
  | .subscribe _ token _ => some token
  | _ => none

namespace Feed

/-- What the holder of the state lock pulls for, if it is held and its holder pulls. -/
def pull? (f : Feed V H R) : Option (Purpose H) := f.holder.bind (·.purpose?)

/-- The token of the subscription that the holder of the state lock is about to add. -/
def awaited? (f : Feed V H R) : Option Token := f.pull?.bind (·.token?)

/-- A feed that is inactive, has no subscribers and counts none. -/
def IsBare (f : Feed V H R) : Prop :=
  f.totalSubscribers = 0 ∧ f.subscriptionCount = 0 ∧ f.registration = none

/-- A pull is made for a subscription to a signal that the feed has. -/
def IsSubscription (f : Feed V H R) (purpose : Purpose H) : Prop :=
  ∃ signal token handler, purpose = .subscribe signal token handler ∧ (f.outlet? signal).isSome

/-- What a hub's clients can have the holder of the state lock do to a bare feed. -/
def Allows (f : Feed V H R) : Section V H R → Prop
  | .querying purpose | .decoding purpose _ | .seeding purpose _ | .writing purpose =>
    purpose = .refresh ∨ f.IsSubscription purpose
  | .registering purpose => f.IsSubscription purpose
  | _ => True

/-- **How subscribers, count and registration stand to each other**, by what the holder of the
state lock is doing. -/
def Balanced (f : Feed V H R) : Prop :=
  match f.holder with
  | none =>
    f.subscriptionCount = f.totalSubscribers ∧ (f.registration.isSome ↔ 0 < f.totalSubscribers)
  | some (.clearing next _) => ∀ o ∈ f.outlets.take next, o.subscribers.size = 0
  | some .withdrawing =>
    f.totalSubscribers = 0 ∧ f.subscriptionCount = 0 ∧ f.registration.isSome
  | some s => f.IsBare ∧ f.Allows s

/-- The steps that a hub lets its feeds make. -/
def OfHub (f : Feed V H R) : FeedLabel V H R → Prop
  | .enter .activate | .enter .deactivate | .advance .retire => False
  | .enter (.subscribe _ token _) => ¬ f.HasToken token
  | .drop => f.registration = none
  | _ => True

theorem totalSubscribers_ofPlan (plan : FeedPlan V) : (ofPlan plan : Feed V H R).totalSubscribers = 0 :=
  totalSubscribers_eq_zero_iff.2 fun o ho => by
    obtain ⟨d, -, rfl⟩ := List.mem_map.1 ho
    rfl

theorem balanced_ofPlan (plan : FeedPlan V) : (ofPlan plan : Feed V H R).Balanced := by
  show 0 = (ofPlan plan : Feed V H R).totalSubscribers ∧ (false = true ↔ _)
  rw [totalSubscribers_ofPlan]
  simp

/-! ### Between free and bare -/

theorem Balanced.bare {f : Feed V H R} (hb : f.Balanced) (free : f.holder = none)
    (inactive : f.registration = none) : f.IsBare := by
  simp only [Balanced, free] at hb
  obtain ⟨count, active⟩ := hb
  have empty : f.totalSubscribers = 0 := by
    rw [inactive] at active
    simpa using active
  exact ⟨empty, count.trans empty, inactive⟩

theorem IsBare.balanced {f : Feed V H R} (h : f.IsBare) (free : f.holder = none) : f.Balanced := by
  simp only [Balanced, free]
  rw [h.1, h.2.1, h.2.2]
  simp

@[simp] theorem attach_holder (f : Feed V H R) (signal : SignalId) (token : Token) (handler : H) :
    (f.attach signal token handler).holder = f.holder := rfl

@[simp] theorem detach_holder (f : Feed V H R) (signal : SignalId) (token : Token) :
    (f.detach signal token).holder = f.holder := rfl

@[simp] theorem detach_registration (f : Feed V H R) (signal : SignalId) (token : Token) :
    (f.detach signal token).registration = f.registration := rfl

@[simp] theorem detach_subscriptionCount (f : Feed V H R) (signal : SignalId) (token : Token) :
    (f.detach signal token).subscriptionCount = f.subscriptionCount - 1 := rfl

/-- **Between the operations on a feed** the count is the number of its subscribers, and there is a
registration exactly if there are any. So a subscription that ends is always one that was counted. -/
theorem Balanced.settled {f : Feed V H R} (hb : f.Balanced) (free : f.holder = none) :
    f.subscriptionCount = f.totalSubscribers ∧ (f.registration.isSome ↔ 0 < f.totalSubscribers) ∧
      ∀ signal token o, f.outlet? signal = some o → o.subscribers.contains token →
        (f.detach signal token).subscriptionCount + 1 = f.subscriptionCount := by
  simp only [Balanced, free] at hb
  obtain ⟨count, active⟩ := hb
  refine ⟨count, active, ?_⟩
  intro signal token o known present
  have there := totalSubscribers_detach known present
  rw [detach_subscriptionCount]
  omega

/-- The balance speaks of a feed's subscribers, keys, count, registration and state lock alone. -/
theorem Balanced.congr {f g : Feed V H R} (hb : f.Balanced) (holder : g.holder = f.holder)
    (keys : g.keys = f.keys)
    (subscribers : g.outlets.map (·.subscribers) = f.outlets.map (·.subscribers))
    (count : g.subscriptionCount = f.subscriptionCount)
    (registration : g.registration = f.registration) : g.Balanced := by
  have total : g.totalSubscribers = f.totalSubscribers := by
    have := congrArg (fun ss : List (Subscribers H) => (ss.map (·.size)).sum) subscribers
    simp only [List.map_map] at this
    exact this
  have bare : f.IsBare → g.IsBare := fun h =>
    ⟨total.trans h.1, count.trans h.2.1, registration.trans h.2.2⟩
  have serves : ∀ {purpose}, f.IsSubscription purpose → g.IsSubscription purpose := by
    rintro _ ⟨signal, token, handler, rfl, known⟩
    exact ⟨signal, token, handler, rfl, (isSome_outlet?_of_keys keys signal).trans known⟩
  unfold Balanced at hb ⊢
  rw [holder]
  cases held : f.holder with
  | none =>
    rw [held] at hb
    simpa only [total, count, registration] using hb
  | some s =>
    rw [held] at hb
    cases s with
    | querying | decoding | seeding | writing => exact ⟨bare hb.1, hb.2.imp_right serves⟩
    | registering => exact ⟨bare hb.1, serves hb.2⟩
    | unregistering => exact ⟨bare hb.1, trivial⟩
    | withdrawing => simpa only [total, count, registration] using hb
    | clearing next dropped =>
      intro o ho
      have mem : o.subscribers ∈ (f.outlets.map (·.subscribers)).take next := by
        rw [← subscribers, ← List.map_take]
        exact List.mem_map_of_mem ho
      rw [← List.map_take] at mem
      obtain ⟨x, hx, eq⟩ := List.mem_map.1 mem
      rw [← eq]
      exact hb x hx

theorem mem_take_clear {os : List (Outlet V H)} {next : Nat}
    (cleared : ∀ o ∈ os.take next, o.subscribers.size = 0) :
    ∀ o ∈ (os.modify next fun o => { o with subscribers := .empty }).take (next + 1),
      o.subscribers.size = 0 := by
  intro o ho
  obtain ⟨i, hi⟩ := List.mem_iff_getElem?.1 ho
  simp only [List.getElem?_take, List.getElem?_modify] at hi
  split at hi
  · by_cases last : next = i
    · simp only [last, if_true, Option.map_eq_map, Option.map_eq_some_iff] at hi
      obtain ⟨x, -, rfl⟩ := hi
      rfl
    · simp only [last, if_false, id_map'] at hi
      exact cleared o (List.mem_iff_getElem?.2 ⟨i, by rw [List.getElem?_take, if_pos (by omega)]; exact hi⟩)
  · cases hi

/-! ### One step -/

variable [SignalValue V]

/-- **Every step that a hub lets its feeds make keeps the balance.** -/
theorem Balanced.step {f : Feed V H R} {l : FeedLabel V H R} {r : Result V H R} (hb : f.Balanced)
    (own : f.OfHub l) (t : f.Transition l r) : r.state.Balanced := by
  cases t with
  | content | unknown | invokeUnowned => exact hb
  | activate | deactivate | retire => exact own.elim
  | refresh free kept inactive => exact ⟨hb.bare free inactive, .inl rfl⟩
  | @attach signal token handler free kept known active =>
    have total := totalSubscribers_attach known own handler
    simp only [Balanced, free] at hb
    simp only [Balanced, attach_holder, free]
    exact ⟨congrArg (· + 1) hb.1 |>.trans total.symm, by simp [total]; exact active⟩
  | subscribe free kept known inactive =>
    exact ⟨hb.bare free inactive, .inr ⟨_, _, _, rfl, known⟩⟩
  | @detach signal token o free kept known present rest =>
    have total := totalSubscribers_detach known present
    simp only [Balanced, free] at hb
    simp only [Balanced, detach_holder, free]
    rcases rest with more | inactive
    · refine ⟨by simp only [detach_subscriptionCount]; omega, ?_⟩
      simp only [detach_registration, hb.2]
      omega
    · have := hb.2.2 (by omega)
      simp [inactive] at this
  | detachLast free kept known present last active =>
    have total := totalSubscribers_detach known present
    simp only [Balanced, free] at hb
    refine ⟨?_, last, active⟩
    change (f.detach _ _).totalSubscribers = 0
    omega
  | shutdown free kept => exact fun o ho => by simp at ho
  | queryFailed held =>
    simp only [Balanced, held] at hb
    exact IsBare.balanced hb.1 rfl
  | queried held =>
    simp only [Balanced, held] at hb
    exact hb
  | registerFailed held =>
    simp only [Balanced, held] at hb
    exact IsBare.balanced hb.1 rfl
  | @subscribed signal token handler registration held =>
    simp only [Balanced, held] at hb
    obtain ⟨⟨empty, uncounted, -⟩, signal', token', handler', heq, known⟩ := hb
    cases heq
    have total := totalSubscribers_attach known (not_hasToken_of_empty empty token) handler
    rw [empty] at total
    have some' : 0 < (f.attach signal token handler).totalSubscribers := by omega
    exact ⟨(congrArg (· + 1) uncounted).trans total.symm, fun _ => some', fun _ => rfl⟩
  | activated held plain =>
    simp only [Balanced, held] at hb
    obtain ⟨-, signal, token, handler, heq, -⟩ := hb
    exact (plain signal token handler heq).elim
  | unregistered held =>
    simp only [Balanced, held] at hb
    exact IsBare.balanced hb.1 rfl
  | invoke | look | post | settlePush | pushRefused | pushDecoded | pushAccepted | pushStale | leave | clone
  | drop => exact hb
  | decodeFailed held refused =>
    simp only [Balanced, held] at hb
    exact IsBare.balanced hb.1 rfl
  | decoded held admitted =>
    simp only [Balanced, held] at hb
    exact hb
  | seed held free =>
    simp only [Balanced, held] at hb
    exact hb
  | write writing =>
    exact hb.congr rfl (map_modifyFirst (fun o => by rfl) f.outlets)
      (map_modifyFirst (fun o => by rfl) f.outlets) rfl rfl
  | settleRefresh held writing =>
    simp only [Balanced, held] at hb
    exact IsBare.balanced hb.1 rfl
  | settle held more writing =>
    simp only [Balanced, held] at hb
    exact ⟨hb.1, hb.2.resolve_left more⟩
  | clear held more =>
    simp only [Balanced, held] at hb
    exact mem_take_clear hb
  | cleared held all active =>
    simp only [Balanced, held] at hb
    rw [List.take_of_length_le (List.getElem?_eq_none_iff.1 all)] at hb
    exact ⟨totalSubscribers_eq_zero_iff.2 hb, rfl, active⟩
  | clearedInactive held all inactive =>
    simp only [Balanced, held] at hb
    rw [List.take_of_length_le (List.getElem?_eq_none_iff.1 all)] at hb
    exact IsBare.balanced ⟨totalSubscribers_eq_zero_iff.2 hb, rfl, inactive⟩ rfl
  | withdraw held active =>
    simp only [Balanced, held] at hb
    exact ⟨⟨hb.1, hb.2.1, rfl⟩, trivial⟩
  | dropLast last unpushed free active =>
    rw [show f.registration = none from own] at active
    cases active

/-! ### Where a token goes -/

variable {f : Feed V H R} {l : FeedLabel V H R} {r : Result V H R}

/-- A token comes to a feed by a subscription that enters. -/
theorem Transition.awaited?_eq (t : f.Transition l r) {token : Token}
    (h : r.state.awaited? = some token) :
    f.awaited? = some token ∨ ∃ signal handler, l = .enter (.subscribe signal token handler) := by
  cases t with
  | @subscribe signal token' handler =>
    cases h
    exact .inr ⟨signal, handler, rfl⟩
  | activate | deactivate | refresh | detachLast | shutdown | queryFailed | registerFailed | subscribed
  | activated | unregistered | decodeFailed | settleRefresh | clear | cleared | clearedInactive | withdraw
  | retire | dropLast => cases h
  | queried held | decoded held | seed held | settle held =>
    rw [awaited?, pull?, held]
    exact .inl h
  | _ => exact .inl h

/-- **Somebody comes to be subscribed** by a subscription that enters an active feed, or is added by the
holder of the state lock when the provider has answered. The subscription is done then, and nothing is
awaited any more. -/
theorem Transition.joins (t : f.Transition l r) {signal : SignalId} {e : Token × H}
    (h : r.state.Lists signal e) :
    f.Lists signal e ∨ r.answer = some .done ∧ r.state.awaited? = none ∧
      (f.pull? = some (.subscribe signal e.1 e.2) ∧ (∃ reply, l = .hear reply) ∨
        f.holder = none ∧ l = .enter (.subscribe signal e.1 e.2)) := by
  cases t with
  | attach free =>
    rcases lists_attach h with ⟨rfl, rfl⟩ | h
    · exact .inr ⟨rfl, by simp [awaited?, pull?, free], .inr ⟨free, rfl⟩⟩
    · exact .inl h
  | @subscribed s token handler registration held =>
    have h : (f.attach s token handler).Lists signal e := h
    rcases lists_attach h with ⟨rfl, rfl⟩ | h
    · exact .inr ⟨rfl, rfl, .inl ⟨by simp [pull?, held, Section.purpose?], _, rfl⟩⟩
    · exact .inl h
  | detach | detachLast => exact .inl (lists_detach h).1
  | @write push x rest => exact .inl (lists_writeGate.1 h)
  | clear held more =>
    obtain ⟨o', ho', he⟩ := h
    obtain ⟨o, ho, rfl | rfl⟩ :=
      find?_modify (c := fun o => { o with subscribers := .empty }) (fun _ => rfl) _ ho'
    · exact .inl ⟨o', ho, he⟩
    · cases he
  | _ => exact .inl h

/-- Somebody comes to be subscribed from among those awaited, or by a subscription that enters. -/
theorem Transition.lists (t : f.Transition l r) {signal : SignalId} {e : Token × H}
    (h : r.state.Lists signal e) :
    f.Lists signal e ∨ r.state.awaited? = none ∧
      (f.pull? = some (.subscribe signal e.1 e.2) ∨
        f.holder = none ∧ l = .enter (.subscribe signal e.1 e.2)) :=
  (t.joins h).imp_right fun ⟨_, done, how⟩ => ⟨done, how.imp_left (·.1)⟩

/-- A token gets among the subscribers from among those awaited, or by a subscription that enters. -/
theorem Transition.hasToken (t : f.Transition l r) {token : Token} (h : r.state.HasToken token) :
    f.HasToken token ∨ r.state.awaited? = none ∧
      (f.awaited? = some token ∨ ∃ signal handler, l = .enter (.subscribe signal token handler)) := by
  obtain ⟨signal, handler, there⟩ := h
  rcases t.lists there with there | ⟨done, pulls | ⟨-, entered⟩⟩
  · exact .inl ⟨signal, handler, there⟩
  · exact .inr ⟨done, .inl (by rw [awaited?, pulls]; rfl)⟩
  · exact .inr ⟨done, .inr ⟨signal, handler, entered⟩⟩

end Feed

end LazyHub
