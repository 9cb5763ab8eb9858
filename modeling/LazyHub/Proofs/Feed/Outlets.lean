import LazyHub.Proofs.Feed.Transition
import LazyHub.Proofs.Subscribers
import Mathlib.Algebra.GroupWithZero.Nat

/-!
# The outlets of a feed

Every step of a feed that touches an outlet changes the first one with a signal's identity, or
drops the subscribers of one. Neither changes a key (`Transition.keys_eq`), so the outlet that
answers to a signal is the same one throughout a run.

Gates change by writes alone (`Transition.gates_eq`), and the subscribers of a feed by the steps
that add, end or drop subscriptions. What the first two do to the count of all subscribers of the feed
is `totalSubscribers_attach` and `totalSubscribers_detach`. Who is subscribed to which signal is
`Lists`.
-/

namespace LazyHub.Feed

variable {V H R : Type}

/-! ### Changing the first outlet with an identity -/

section ModifyFirst

variable {signal : SignalId} {c : Outlet V H → Outlet V H}

/-- What the change leaves alone at an outlet it leaves alone in the list. -/
theorem map_modifyFirst {α : Type} {g : Outlet V H → α} (same : ∀ o, g (c o) = g o)
    (os : List (Outlet V H)) : (modifyFirst signal c os).map g = os.map g := by
  induction os with
  | nil => rfl
  | cons o rest ih =>
    by_cases h : o.key.id = signal
    · simp [modifyFirst, h, same]
    · simp [modifyFirst, h, ih]

theorem map_modify {α : Type} {g : Outlet V H → α} (same : ∀ o, g (c o) = g o) (n : Nat)
    (os : List (Outlet V H)) : (os.modify n c).map g = os.map g := by
  apply List.ext_getElem?
  intro i
  rw [List.getElem?_map, List.getElem?_map, List.getElem?_modify]
  cases os[i]? with
  | none => rfl
  | some o => by_cases h : n = i <;> simp [h, same]

theorem find?_modifyFirst (same : ∀ o, (c o).key = o.key) (s : SignalId)
    (os : List (Outlet V H)) :
    (modifyFirst signal c os).find? (·.key.id = s) =
      if s = signal then (os.find? (·.key.id = signal)).map c else os.find? (·.key.id = s) := by
  induction os with
  | nil => simp [modifyFirst]
  | cons o rest ih =>
    by_cases h : o.key.id = signal
    · by_cases hs : s = signal
      · subst hs
        simp [modifyFirst, h, same]
      · have other : o.key.id ≠ s := fun eq => hs (eq.symm.trans h)
        simp [modifyFirst, h, same, hs, Ne.symm hs]
    · by_cases hs : s = signal
      · subst hs
        simpa [modifyFirst, h] using ih
      · by_cases ho : o.key.id = s
        · simp [modifyFirst, hs, ho]
        · simpa [modifyFirst, h, hs, ho] using ih

theorem find?_modify (same : ∀ o, (c o).key = o.key) (n : Nat) {s : SignalId} {os : List (Outlet V H)}
    {o' : Outlet V H} (h : (os.modify n c).find? (·.key.id = s) = some o') :
    ∃ o, os.find? (·.key.id = s) = some o ∧ (o' = o ∨ o' = c o) := by
  induction os generalizing n with
  | nil => simp at h
  | cons o rest ih =>
    cases n with
    | zero =>
      rw [List.modify_zero_cons] at h
      by_cases ho : o.key.id = s
      · obtain rfl : c o = o' := by simpa [same, ho] using h
        exact ⟨o, by simp [ho], .inr rfl⟩
      · exact ⟨o', by simpa [same, ho] using h, .inl rfl⟩
    | succ n =>
      rw [List.modify_succ_cons] at h
      by_cases ho : o.key.id = s
      · obtain rfl : o = o' := by simpa [ho] using h
        exact ⟨o, by simp [ho], .inl rfl⟩
      · obtain ⟨x, hx, eq⟩ := ih n (by simpa [ho] using h)
        exact ⟨x, by simpa [ho] using hx, eq⟩

/-- A sum over the outlets changes by what changes at the first one with the identity. -/
theorem sum_modifyFirst {m : Outlet V H → Nat} {os : List (Outlet V H)} {o : Outlet V H}
    (h : os.find? (·.key.id = signal) = some o) :
    ((modifyFirst signal c os).map m).sum + m o = (os.map m).sum + m (c o) := by
  induction os with
  | nil => simp at h
  | cons x rest ih =>
    by_cases hx : x.key.id = signal
    · obtain rfl : x = o := by simpa [hx] using h
      simp only [modifyFirst, hx, if_true, List.map_cons, List.sum_cons]
      omega
    · have := ih (by simpa [hx] using h)
      simp only [modifyFirst, hx, if_false, List.map_cons, List.sum_cons]
      omega

end ModifyFirst

/-! ### The outlet that answers to a signal -/

/-- The keys of a feed's outlets, in order. -/
def keys (f : Feed V H R) : List Key := f.outlets.map (·.key)

/-- The gates of a feed's outlets, in order. -/
def gates (f : Feed V H R) : List (Gate V) := f.outlets.map (·.gate)

theorem outlet?_modifyOutlet (f : Feed V H R) (signal : SignalId) {c : Outlet V H → Outlet V H}
    (same : ∀ o, (c o).key = o.key) (s : SignalId) :
    (f.modifyOutlet signal c).outlet? s =
      if s = signal then (f.outlet? signal).map c else f.outlet? s :=
  find?_modifyFirst same s f.outlets

theorem id_of_outlet? {f : Feed V H R} {signal : SignalId} {o : Outlet V H}
    (h : f.outlet? signal = some o) : o.key.id = signal := by
  simpa using List.find?_some h

theorem mem_of_outlet? {f : Feed V H R} {signal : SignalId} {o : Outlet V H}
    (h : f.outlet? signal = some o) : o ∈ f.outlets := List.mem_of_find?_eq_some h

/-- Feeds with the same keys have outlets for the same signals, under the same keys. -/
theorem outlet?_of_keys {f g : Feed V H R} (h : g.keys = f.keys) (signal : SignalId) :
    (g.outlet? signal).map (·.key) = (f.outlet? signal).map (·.key) := by
  have find : ∀ k : Feed V H R,
      (k.outlet? signal).map (·.key) = k.keys.find? (·.id = signal) := fun k => by
    rw [keys, List.find?_map]
    rfl
  rw [find, find, h]

theorem isSome_outlet?_of_keys {f g : Feed V H R} (h : g.keys = f.keys) (signal : SignalId) :
    (g.outlet? signal).isSome = (f.outlet? signal).isSome := by
  have := congrArg Option.isSome (outlet?_of_keys h signal)
  simpa using this

/-! ### Subscriptions -/

theorem totalSubscribers_eq (f : Feed V H R) :
    f.totalSubscribers = (f.outlets.map (·.subscribers.size)).sum := rfl

theorem totalSubscribers_eq_zero_iff {f : Feed V H R} :
    f.totalSubscribers = 0 ↔ ∀ o ∈ f.outlets, o.subscribers.size = 0 := by
  simp [totalSubscribers_eq, List.sum_eq_zero_iff_forall_eq_nat]

/-- Somebody is subscribed to a signal of a feed: a token with a handler. -/
def Lists (f : Feed V H R) (signal : SignalId) (e : Token × H) : Prop :=
  ∃ o, f.outlet? signal = some o ∧ e ∈ o.subscribers.snapshot

/-- Somebody is subscribed to some signal of a feed under a token. -/
def HasToken (f : Feed V H R) (token : Token) : Prop := ∃ signal handler, f.Lists signal (token, handler)

theorem hasToken_of_mem {f : Feed V H R} {signal : SignalId} {token : Token} {o : Outlet V H}
    (known : f.outlet? signal = some o) (h : token ∈ o.subscribers.tokens) : f.HasToken token := by
  obtain ⟨⟨t, handler⟩, he, rfl⟩ := List.mem_map.1 h
  exact ⟨signal, handler, o, known, he⟩

theorem not_hasToken_of_empty {f : Feed V H R} (h : f.totalSubscribers = 0) (token : Token) :
    ¬ f.HasToken token := by
  rintro ⟨signal, handler, o, known, he⟩
  have := Subscribers.size_pos_of_mem (List.mem_map_of_mem he)
  have := totalSubscribers_eq_zero_iff.1 h o (mem_of_outlet? known)
  omega

theorem totalSubscribers_attach {f : Feed V H R} {signal : SignalId} {token : Token}
    (known : (f.outlet? signal).isSome) (fresh : ¬ f.HasToken token) (handler : H) :
    (f.attach signal token handler).totalSubscribers = f.totalSubscribers + 1 := by
  obtain ⟨o, ho⟩ := Option.isSome_iff_exists.1 known
  have new : token ∉ o.subscribers.tokens := fun h => fresh (hasToken_of_mem ho h)
  have := sum_modifyFirst (m := (·.subscribers.size))
    (c := fun o => { o with subscribers := o.subscribers.insert token handler }) ho
  rw [Subscribers.size_insert new] at this
  simp only [attach, totalSubscribers_eq, modifyOutlet]
  omega

theorem totalSubscribers_detach {f : Feed V H R} {signal : SignalId} {token : Token} {o : Outlet V H}
    (known : f.outlet? signal = some o) (present : o.subscribers.contains token) :
    (f.detach signal token).totalSubscribers + 1 = f.totalSubscribers := by
  have there := Subscribers.size_erase (Subscribers.contains_iff.1 present)
  have := sum_modifyFirst (m := (·.subscribers.size))
    (c := fun o => { o with subscribers := o.subscribers.erase token }) known
  dsimp only at this
  simp only [detach, totalSubscribers_eq, modifyOutlet]
  omega

/-- Who is subscribed after an outlet has changed, the outlet itself tells. -/
theorem lists_modifyOutlet {f : Feed V H R} {signal s : SignalId} {c : Outlet V H → Outlet V H}
    (same : ∀ o, (c o).key = o.key) {e : Token × H} :
    (f.modifyOutlet signal c).Lists s e ↔
      if s = signal then ∃ o, f.outlet? signal = some o ∧ e ∈ (c o).subscribers.snapshot else f.Lists s e := by
  rw [Lists, outlet?_modifyOutlet f signal same]
  split
  · constructor
    · rintro ⟨_, changed, mem⟩
      obtain ⟨o, known, rfl⟩ := Option.map_eq_some_iff.1 changed
      exact ⟨o, known, mem⟩
    · rintro ⟨o, known, mem⟩
      exact ⟨c o, by rw [known]; rfl, mem⟩
  · rfl

theorem lists_attach_iff {f : Feed V H R} {signal s : SignalId} {token : Token} {handler : H} {e : Token × H}
    (known : (f.outlet? signal).isSome) :
    (f.attach signal token handler).Lists s e ↔
      s = signal ∧ e = (token, handler) ∨ f.Lists s e ∧ (s = signal → e.1 ≠ token) := by
  obtain ⟨o, ho⟩ := Option.isSome_iff_exists.1 known
  refine (lists_modifyOutlet (f := f) (c := fun o => { o with subscribers := o.subscribers.insert token handler })
    fun _ => rfl).trans ?_
  split
  · rename_i eq
    subst eq
    simp only [ho, Option.some.injEq, exists_eq_left', Subscribers.mem_insert_iff, Lists, true_and, forall_const]
  · rename_i other
    simp [other]

theorem lists_attach {f : Feed V H R} {signal s : SignalId} {token : Token} {handler : H} {e : Token × H}
    (h : (f.attach signal token handler).Lists s e) : s = signal ∧ e = (token, handler) ∨ f.Lists s e := by
  cases known : (f.outlet? signal).isSome with
  | true => exact ((lists_attach_iff known).1 h).imp_right (·.1)
  | false =>
    have h := (lists_modifyOutlet (f := f) (c := fun o => { o with subscribers := o.subscribers.insert token handler })
      fun _ => rfl).1 h
    split at h
    · obtain ⟨o, ho, -⟩ := h
      simp [ho] at known
    · exact .inr h

theorem lists_attached {f : Feed V H R} {signal : SignalId} (known : (f.outlet? signal).isSome) (token : Token)
    (handler : H) : (f.attach signal token handler).Lists signal (token, handler) :=
  (lists_attach_iff known).2 (.inl ⟨rfl, rfl⟩)

/-- Whoever is subscribed after a subscription has ended was so before, and not under its token. -/
theorem lists_detach_iff {f : Feed V H R} {signal s : SignalId} {token : Token} {e : Token × H} :
    (f.detach signal token).Lists s e ↔ f.Lists s e ∧ (s = signal → e.1 ≠ token) := by
  refine (lists_modifyOutlet (f := f) (c := fun o => { o with subscribers := o.subscribers.erase token })
    fun _ => rfl).trans ?_
  split
  · rename_i eq
    subst eq
    simp only [Subscribers.mem_erase_iff, Lists, forall_const]
    constructor
    · rintro ⟨o, ho, mem, apart⟩
      exact ⟨⟨o, ho, mem⟩, apart⟩
    · rintro ⟨⟨o, ho, mem⟩, apart⟩
      exact ⟨o, ho, mem, apart⟩
  · rename_i other
    simp [other]

theorem lists_detach {f : Feed V H R} {signal s : SignalId} {token : Token} {e : Token × H}
    (h : (f.detach signal token).Lists s e) : f.Lists s e ∧ (s = signal → e.1 ≠ token) := lists_detach_iff.1 h

/-- Nobody comes or goes when a value is written. -/
theorem lists_writeGate [SignalValue V] {f : Feed V H R} {x : Emission V} {s : SignalId} {e : Token × H} :
    (f.writeGate x).Lists s e ↔ f.Lists s e := by
  refine (lists_modifyOutlet (f := f) (c := fun o => { o with gate := (o.gate.offer x.value).2 }) fun _ => rfl).trans ?_
  split
  · rename_i eq
    rw [eq]
    rfl
  · rfl

/-! ### What a step leaves alone -/

section Step

variable [SignalValue V] {f : Feed V H R} {l : FeedLabel V H R} {r : Result V H R}

/-- No step changes a key. -/
theorem Transition.keys_eq (t : f.Transition l r) : r.state.keys = f.keys := by
  cases t with
  | attach | detach | detachLast | subscribed | write => exact map_modifyFirst (fun o => by rfl) f.outlets
  | clear => exact map_modify (fun o => by rfl) _ f.outlets
  | _ => rfl

/-- Gates change by writes alone. -/
theorem Transition.gates_eq (t : f.Transition l r) (other : l ≠ .advance .write) :
    r.state.gates = f.gates := by
  cases t with
  | write => exact absurd rfl other
  | attach | detach | detachLast | subscribed => exact map_modifyFirst (fun o => by rfl) f.outlets
  | clear => exact map_modify (fun o => by rfl) _ f.outlets
  | _ => rfl

/-- Nobody is subscribed to a signal under a token that has just been unsubscribed. -/
theorem Transition.not_lists_of_unsubscribe {signal : SignalId} {token : Token}
    (t : f.Transition (.enter (.unsubscribe signal token)) r) (handler : H) :
    ¬ r.state.Lists signal (token, handler) := by
  intro lists
  cases t with
  | content _ _ content => exact content
  | unknown _ _ known absent =>
    obtain ⟨o, ho, he⟩ := lists
    obtain rfl := Option.some.inj (ho.symm.trans known)
    have present := Subscribers.contains_iff.2 (List.mem_map_of_mem (f := (·.1)) he)
    cases present.symm.trans absent
  | detach => exact (lists_detach lists).2 rfl rfl
  | detachLast => exact (lists_detach (f := f) lists).2 rfl rfl

end Step

end LazyHub.Feed
