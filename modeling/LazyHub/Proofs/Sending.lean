import LazyHub.Proofs.Subscribers
import Mathlib.Data.List.Infix

/-!
# Sending a value

What a delivery calls is settled when it starts, whatever those who are called do to the subscribers meanwhile, and
however they take the call. They may do anything to the state that the subscribers are part of, and may send values
themselves; all that is said of a call here is what it leaves behind. `Calls` are the calls of a delivery as they were
made, each in the state that the one before it left, so that a delivery is described by them
(`deliverIsolated_eq_some`, `deliver_eq_some`) and changes nothing itself.
-/

namespace LazyHub

variable {S H V : Type}

/-! ### Who is told what -/

section HandOut

variable (copy : V → V) (value : V)

theorem handOut_append_singleton (first : List (Token × H)) (last : Token × H) :
    handOut copy value (first ++ [last]) =
      first.map (fun e => (e.1, e.2, copy value)) ++ [(last.1, last.2, value)] := by
  induction first with
  | nil => rfl
  | cons e rest ih =>
    obtain ⟨next, more, eq⟩ : ∃ next more, rest ++ [last] = next :: more := by
      cases rest with
      | nil => exact ⟨_, _, rfl⟩
      | cons next more => exact ⟨_, _, rfl⟩
    rw [List.cons_append, eq, handOut, ← eq, ih]
    rfl

/-- Everyone in the snapshot is told once. -/
theorem map_handOut (snapshot : List (Token × H)) :
    (handOut copy value snapshot).map (fun told => (told.1, told.2.1)) = snapshot := by
  rcases List.eq_nil_or_concat snapshot with rfl | ⟨first, last, rfl⟩
  · rfl
  · rw [List.concat_eq_append, handOut_append_singleton, List.map_append, List.map_map]
    simp [Function.comp_def]

end HandOut

/-! ### The calls of a delivery -/

/-- A call as it was made: the state in which it was made, who was called with which value, and whether it panicked. -/
structure Called (S H V : Type) where
  /-- The state in which the call was made. -/
  before : S
  /-- The token of whom was called. -/
  token : Token
  /-- Who was called. -/
  handler : H
  /-- The value. -/
  value : V
  /-- Whether the call panicked. -/
  panicked : Bool

/-- Who was told what. -/
def Called.told (c : Called S H V) : Token × H × V := (c.token, c.handler, c.value)

/-- **Calls, one after the other**: each is made in the state that the one before it left, and what the last one leaves
is all that is left. -/
inductive Calls (call : Token → H → V → StateT S Option Bool) : S → List (Called S H V) → S → Prop where
  /-- No call is made. -/
  | nil (s : S) : Calls call s [] s
  /-- A call is made, and then the others. -/
  | cons {s s' s'' : S} {token : Token} {handler : H} {value : V} {panicked : Bool} {rest : List (Called S H V)}
      (made : call token handler value s = some (panicked, s')) (onward : Calls call s' rest s'') :
      Calls call s (⟨s, token, handler, value, panicked⟩ :: rest) s''

variable {call : Token → H → V → StateT S Option Bool} {note : Token → StateT S Option Unit}
  {everyone : List (Token × H × V)}

theorem Calls.cons_inv {s s' : S} {c : Called S H V} {rest : List (Called S H V)} (calls : Calls call s (c :: rest) s') :
    ∃ s₁, call c.token c.handler c.value s = some (c.panicked, s₁) ∧ Calls call s₁ rest s' := by
  cases calls with
  | cons made onward => exact ⟨_, made, onward⟩

/-- **An isolated delivery calls everyone, and counts those that panic.** -/
theorem deliverIsolated_eq_some {s s' : S} {n : Nat} :
    deliverIsolated (fun token told => call token told.1 told.2) everyone s = some (n, s') ↔
      ∃ calls, Calls call s calls s' ∧ calls.map (·.told) = everyone ∧ n = calls.countP (·.panicked) := by
  induction everyone generalizing s n with
  | nil =>
    constructor
    · intro returns
      obtain ⟨rfl, rfl⟩ := Prod.mk.inj (Option.some.inj returns)
      exact ⟨[], .nil s, rfl, rfl⟩
    · rintro ⟨calls, made, none, rfl⟩
      obtain rfl := List.map_eq_nil_iff.1 none
      cases made
      rfl
  | cons told rest ih =>
    constructor
    · intro returns
      obtain ⟨⟨panicked, s₁⟩, made, returns⟩ := Option.bind_eq_some_iff.1 returns
      obtain ⟨⟨more, s₂⟩, onward, returns⟩ := Option.bind_eq_some_iff.1 returns
      obtain ⟨rfl, rfl⟩ := Prod.mk.inj (Option.some.inj returns)
      obtain ⟨calls, later, rfl, rfl⟩ := ih.1 onward
      refine ⟨_, .cons made later, rfl, ?_⟩
      cases panicked <;> simp
    · rintro ⟨calls, made, eq, rfl⟩
      obtain ⟨c, calls, rfl, rfl, rfl⟩ := List.map_eq_cons_iff.1 eq
      obtain ⟨s₁, made, onward⟩ := made.cons_inv
      have returns := ih.2 ⟨calls, onward, rfl, rfl⟩
      refine Option.bind_eq_some_iff.2 ⟨_, made, Option.bind_eq_some_iff.2 ⟨_, returns, ?_⟩⟩
      cases panics : c.panicked <;> simp [panics] <;> rfl

/-- **A delivery that is not isolated stops at the first call that panics.** -/
theorem deliver_eq_some {s s' : S} {stopped : Bool} :
    deliver (fun token told => call token told.1 told.2) everyone s = some (stopped, s') ↔
      ∃ calls, Calls call s calls s' ∧ calls.map (·.told) <+: everyone ∧
        if stopped then ∃ first last, calls = first ++ [last] ∧ last.panicked = true ∧ ∀ c ∈ first, c.panicked = false
        else calls.map (·.told) = everyone ∧ ∀ c ∈ calls, c.panicked = false := by
  induction everyone generalizing s with
  | nil =>
    constructor
    · intro returns
      obtain ⟨rfl, rfl⟩ := Prod.mk.inj (Option.some.inj returns)
      exact ⟨[], .nil s, List.prefix_refl _, rfl, nofun⟩
    · rintro ⟨calls, made, none, how⟩
      obtain rfl := List.map_eq_nil_iff.1 (List.prefix_nil.1 none)
      cases made
      cases stopped with
      | false => rfl
      | true =>
        obtain ⟨first, last, eq, -⟩ := how
        simp at eq
  | cons told rest ih =>
    constructor
    · intro returns
      obtain ⟨⟨panicked, s₁⟩, made, returns⟩ := Option.bind_eq_some_iff.1 returns
      cases panicked with
      | true =>
        obtain ⟨rfl, rfl⟩ := Prod.mk.inj (Option.some.inj returns)
        exact ⟨_, .cons made (.nil s₁), ⟨rest, rfl⟩, [], _, rfl, rfl, nofun⟩
      | false =>
        obtain ⟨calls, onward, among, how⟩ := ih.1 returns
        refine ⟨_, .cons made onward, List.cons_prefix_cons.2 ⟨rfl, among⟩, ?_⟩
        cases stopped with
        | false =>
          obtain ⟨rfl, calm⟩ := how
          exact ⟨rfl, List.forall_mem_cons.2 ⟨rfl, calm⟩⟩
        | true =>
          obtain ⟨first, last, rfl, panics, calm⟩ := how
          exact ⟨_ :: first, last, rfl, panics, List.forall_mem_cons.2 ⟨rfl, calm⟩⟩
    · rintro ⟨calls, made, among, how⟩
      cases calls with
      | nil =>
        cases stopped with
        | false => cases how.1
        | true =>
          obtain ⟨first, last, eq, -⟩ := how
          simp at eq
      | cons c calls =>
        obtain ⟨rfl, later⟩ := List.cons_prefix_cons.1 among
        obtain ⟨s₁, made, onward⟩ := made.cons_inv
        refine Option.bind_eq_some_iff.2 ⟨_, made, ?_⟩
        cases stopped with
        | false =>
          obtain ⟨eq, calm⟩ := how
          obtain ⟨calmly, calm⟩ := List.forall_mem_cons.1 calm
          simp only [calmly, Bool.false_eq_true, if_false]
          exact ih.2 ⟨calls, onward, later, (List.cons.inj eq).2, calm⟩
        | true =>
          obtain ⟨first, last, eq, panics, calm⟩ := how
          cases first with
          | nil =>
            -- the call that panics is the last that is made
            obtain ⟨rfl, rfl⟩ := List.cons.inj eq
            cases onward
            simp only [panics, if_true]
            rfl
          | cons d first =>
            obtain ⟨rfl, rfl⟩ := List.cons.inj eq
            obtain ⟨calmly, calm⟩ := List.forall_mem_cons.1 calm
            simp only [calmly, Bool.false_eq_true, if_false]
            exact ih.2 ⟨_, onward, later, first, last, rfl, panics, calm⟩

/-! ### What the calls leave behind -/

/-- **Every change that a call makes takes effect**, one after the other: if each call changes the subscribers in a way of
its own, they are changed in all these ways in the end. -/
theorem Calls.view_eq {view : S → Subscribers H} {change : Called S H V → Subscribers H → Subscribers H}
    (changes : ∀ {s s' token handler value panicked}, call token handler value s = some (panicked, s') →
      view s' = change ⟨s, token, handler, value, panicked⟩ (view s))
    {s s' : S} {calls : List (Called S H V)} (made : Calls call s calls s') :
    view s' = calls.foldl (fun subscribers c => change c subscribers) (view s) := by
  induction made with
  | nil => rfl
  | cons made _ ih =>
    rw [ih, changes made]
    rfl

/-- Noting a panic is part of the call, and leaves the subscribers alone. -/
theorem noting_eq_some {s s' : S} {token : Token} {handler : H} {value : V} {panicked : Bool} :
    noting call note token handler value s = some (panicked, s') ↔
      ∃ s₁, call token handler value s = some (panicked, s₁) ∧
        if panicked then note token s₁ = some ((), s') else s' = s₁ := by
  constructor
  · intro returns
    obtain ⟨⟨panics, s₁⟩, made, returns⟩ := Option.bind_eq_some_iff.1 returns
    cases panics with
    | false =>
      obtain ⟨rfl, rfl⟩ := Prod.mk.inj (Option.some.inj returns)
      exact ⟨_, made, rfl⟩
    | true =>
      obtain ⟨⟨⟨⟩, s₂⟩, noted, returns⟩ := Option.bind_eq_some_iff.1 returns
      obtain ⟨rfl, rfl⟩ := Prod.mk.inj (Option.some.inj returns)
      exact ⟨s₁, made, noted⟩
  · rintro ⟨s₁, made, how⟩
    refine Option.bind_eq_some_iff.2 ⟨_, made, ?_⟩
    cases panicked with
    | false =>
      obtain rfl := how
      rfl
    | true => exact Option.bind_eq_some_iff.2 ⟨_, how, rfl⟩

theorem isSome_deliverIsolated (returns : ∀ token handler value s, (call token handler value s).isSome) (s : S) :
    (deliverIsolated (fun token told => call token told.1 told.2) everyone s).isSome := by
  induction everyone generalizing s with
  | nil => rfl
  | cons told rest ih =>
    obtain ⟨⟨panicked, s₁⟩, made⟩ := Option.isSome_iff_exists.1 (returns told.1 told.2.1 told.2.2 s)
    obtain ⟨⟨more, s₂⟩, onward⟩ := Option.isSome_iff_exists.1 (ih s₁)
    exact Option.isSome_iff_exists.2
      ⟨_, Option.bind_eq_some_iff.2 ⟨_, made, Option.bind_eq_some_iff.2 ⟨_, onward, rfl⟩⟩⟩

theorem isSome_deliver (returns : ∀ token handler value s, (call token handler value s).isSome) (s : S) :
    (deliver (fun token told => call token told.1 told.2) everyone s).isSome := by
  induction everyone generalizing s with
  | nil => rfl
  | cons told rest ih =>
    obtain ⟨⟨panicked, s₁⟩, made⟩ := Option.isSome_iff_exists.1 (returns told.1 told.2.1 told.2.2 s)
    have step : deliver (fun token told => call token told.1 told.2) (told :: rest) s =
        (if panicked then pure true else deliver (fun token told => call token told.1 told.2) rest : StateT S Option Bool) s₁ :=
      congrArg (Option.bind · _) made
    rw [step]
    cases panicked with
    | true => rfl
    | false => exact ih s₁

namespace Subscribers

/-- **A delivery calls those who were subscribed when it started, each of them once.** Whatever those who are called do,
to the subscribers and to all that they are part of (`view`), and whether or not they panic:

* the tokens of those who are called ascend, and the value is handed out to them: a copy to each, and the value itself to
  the last;
* an isolated delivery makes all these calls, in this order, notes those that panic, and tells how many did;
* a delivery that is not isolated makes the same calls up to the first that panics, and tells whether one did;
* either returns if the calls return;
* what the calls change is changed when the delivery is over, and whoever is subscribed then is called by the next. -/
theorem delivery_is_of_snapshot (view : S → Subscribers H) (copy : V → V) (call : Token → H → V → StateT S Option Bool)
    (note : Token → StateT S Option Unit) (value : V) (s : S) :
    let now : StateT S Option (Subscribers H) := do pure (view (← get))
    let everyone := handOut copy value (view s).snapshot
    (everyone.map fun told => (told.1, told.2.1)) = (view s).snapshot ∧
    everyone.Pairwise (fun first later => first.1.serial < later.1.serial) ∧
    (∀ before last, (view s).snapshot = before ++ [last] →
      everyone = before.map (fun e => (e.1, e.2, copy value)) ++ [(last.1, last.2, value)]) ∧
    (∀ n s', sendIsolated now copy call note value s = some (n, s') ↔
      ∃ calls, Calls (noting call note) s calls s' ∧ calls.map (·.told) = everyone ∧ n = calls.countP (·.panicked)) ∧
    (∀ panicked s', send now copy call value s = some (panicked, s') ↔
      ∃ calls, Calls call s calls s' ∧ calls.map (·.told) <+: everyone ∧
        if panicked then ∃ first last, calls = first ++ [last] ∧ last.panicked = true ∧ ∀ c ∈ first, c.panicked = false
        else calls.map (·.told) = everyone ∧ ∀ c ∈ calls, c.panicked = false) ∧
    ((∀ token handler value s, (call token handler value s).isSome) → (∀ token s, (note token s).isSome) →
      (sendIsolated now copy call note value s).isSome ∧ (send now copy call value s).isSome) ∧
    ∀ (made : Token → H → V → StateT S Option Bool) (change : Called S H V → Subscribers H → Subscribers H),
      (∀ s s' token handler value panicked, made token handler value s = some (panicked, s') →
        view s' = change ⟨s, token, handler, value, panicked⟩ (view s)) →
      ∀ calls s', Calls made s calls s' →
        let left := calls.foldl (fun subscribers c => change c subscribers) (view s)
        view s' = left ∧
        (∀ value' n s'', sendIsolated now copy call note value' s' = some (n, s'') → ∃ calls',
          Calls (noting call note) s' calls' s'' ∧ calls'.map (·.told) = handOut copy value' left.snapshot) ∧
        ∀ value' panicked s'', send now copy call value' s' = some (panicked, s'') → ∃ calls',
          Calls call s' calls' s'' ∧ calls'.map (·.told) <+: handOut copy value' left.snapshot := by
  intro now everyone
  refine ⟨map_handOut copy value _, ?_, ?_, fun n s' => deliverIsolated_eq_some, fun panicked s' => deliver_eq_some, ?_, ?_⟩
  · have ascending := (view s).ascending
    change (view s).snapshot.Pairwise _ at ascending
    rw [← map_handOut copy value (view s).snapshot] at ascending
    have told := List.pairwise_map.1 ascending
    exact told
  · intro before last eq
    simp only [everyone, eq, handOut_append_singleton]
  · intro returns notes
    refine ⟨isSome_deliverIsolated (fun token handler value s => ?_) s, isSome_deliver returns s⟩
    obtain ⟨⟨panicked, s₁⟩, made⟩ := Option.isSome_iff_exists.1 (returns token handler value s)
    cases panicked with
    | false => exact Option.isSome_iff_exists.2 ⟨_, noting_eq_some.2 ⟨s₁, made, rfl⟩⟩
    | true =>
      obtain ⟨⟨⟨⟩, s₂⟩, noted⟩ := Option.isSome_iff_exists.1 (notes token s₁)
      exact Option.isSome_iff_exists.2 ⟨_, noting_eq_some.2 ⟨s₁, made, noted⟩⟩
  · intro made change changes calls s' calls_made left
    have eq : view s' = left := calls_made.view_eq fun made => changes _ _ _ _ _ _ made
    refine ⟨eq, fun value' n s'' again => ?_, fun value' panicked s'' again => ?_⟩
    · obtain ⟨calls', made', told, -⟩ := deliverIsolated_eq_some.1 again
      exact ⟨calls', made', eq ▸ told⟩
    · obtain ⟨calls', made', told, -⟩ := deliver_eq_some.1 again
      exact ⟨calls', made', eq ▸ told⟩

/-- The first of three removes the second, adds a fourth, and panics: the three are called all the same, and the fourth is
one of those whom the next delivery calls. -/
example :
    let call : Token → Nat → Nat → StateT (Subscribers Nat × List (Nat × Nat)) Option Bool :=
      fun _ handler value (subscribers, log) => some (handler = 1,
        if handler = 1 then (subscribers.erase ⟨2⟩).insert ⟨4⟩ 4 else subscribers, log ++ [(handler, value)])
    let three := ((empty.insert ⟨1⟩ 1).insert ⟨2⟩ 2).insert ⟨3⟩ 3
    let sent := sendIsolated (do pure (← get).1) (· + 100) call (fun _ => pure ()) 7 (three, [])
    sent.map (fun r => (r.1, r.2.2, r.2.1.tokens)) =
      some (1, [(1, 107), (2, 107), (3, 7)], [⟨1⟩, ⟨3⟩, ⟨4⟩]) := rfl

end Subscribers

end LazyHub
