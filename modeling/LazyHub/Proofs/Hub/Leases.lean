import LazyHub.Proofs.Feed.Leases
import LazyHub.Proofs.Hub.Feeds
import LazyHub.Proofs.Hub.Workers

/-!
# The payloads on loan to a hub

What a hub does with the payload of a loan is what the feed does that it was lent to (`Mirrors.loanEvents_eq`), and
every lease that a step ends is counted for its feed (`Transition.balance_at`). A step that is told of in the course
of no payload gives nothing back, changes no cache and posts nothing (`Transition.disclosed_at`).
-/

namespace LazyHub

variable {V H R : Type}

/-- Whether an effect is the end of a lease of a feed's provider. -/
def HubEffect.isReleased (i : Nat) : HubEffect V H → Bool
  | .released j => j = i
  | _ => false

/-- The step of a feed, in which a payload can be on loan, that a hub's label stands for. -/
def HubLabel.inFeed? (i : Nat) : HubLabel V H R → Option (FeedLabel V H R)
  | .hear j reply => if j = i then some (.hear reply) else none
  | .invoke j epoch payload => if j = i then some (.invoke epoch payload) else none
  | .move (.advance j m) => if j = i then some (.advance m) else none
  | _ => none

namespace Hub

/-- What a step of a hub does with the payload of a feed's loan. -/
def loanEventsAt (i : Nat) (loan : Loan) (m : Moment (Hub V H R) (HubLabel V H R) (HubEffect V H)) : List LoanEvent :=
  match m.label.inFeed? i, m.before.feeds[i]? with
  | some fl, some f =>
    if f.loan? fl = some loan then
      loan.told fl (m.after.effects.countP (·.isReleased i)) m.after.answer.isSome
    else []
  | _, _ => []

/-- How many payloads the provider of a feed lends in a step of the hub. -/
def lentAt (i : Nat) (l : HubLabel V H R) : Nat := ((l.inFeed? i).map fun fl => fl.handles.count .lent).getD 0

theorem released_absorbAll (h : Hub V H R) (j i : Nat) (es : List (FeedEffect V)) :
    (h.absorbAll j es).2.countP (·.isReleased i) = if j = i then es.countP (·.isReleased) else 0 := by
  induction es generalizing h with
  | nil => simp [absorbAll]
  | cons e rest ih =>
    have apart : (h.absorbAll j (e :: rest)).2.countP (·.isReleased i) =
        (h.absorb j e).2.countP (·.isReleased i) + ((h.absorb j e).1.absorbAll j rest).2.countP (·.isReleased i) :=
      List.countP_append
    have first : (h.absorb j e).2.countP (·.isReleased i) = if j = i ∧ e.isReleased then 1 else 0 := by
      cases e with
      | released => by_cases eq : j = i <;> simp [absorb, HubEffect.isReleased, FeedEffect.isReleased, eq]
      | asked | noted => simp [absorb, HubEffect.isReleased, FeedEffect.isReleased]
      | owed signal value =>
        dsimp only [absorb]
        split <;> simp [HubEffect.isReleased, FeedEffect.isReleased]
    rw [apart, first, ih, List.countP_cons]
    by_cases eq : j = i <;> by_cases released : e.isReleased <;> simp [eq, released, Nat.add_comm]

theorem released_afterFeed (h : Hub V H R) (j i : Nat) (fr : Feed.Result V H R) :
    (h.afterFeed j fr).effects.countP (·.isReleased i) = if j = i then fr.effects.countP (·.isReleased) else 0 :=
  released_absorbAll ..

/-- A step that a feed makes is the one that the label stands for, or has nothing to do with payloads. -/
theorem Serves.inFeed? {h g : Hub V H R} {l : HubLabel V H R} {i : Nat} {fl : FeedLabel V H R}
    (s : h.Serves l i fl g) : l.inFeed? i = some fl ∨ l.inFeed? i = none ∧ fl.handles = [] ∧ ∀ f : Feed V H R, f.loan? fl = none := by
  cases s with
  | advance | hear | invoke => exact .inl (if_pos rfl)
  | @use _ u _ made =>
    subst made
    cases u <;> exact .inr ⟨rfl, rfl, fun _ => rfl⟩
  | _ => exact .inr ⟨rfl, rfl, fun _ => rfl⟩

theorem Serves.lentAt_eq {h g : Hub V H R} {l : HubLabel V H R} {i : Nat} {fl : FeedLabel V H R}
    (s : h.Serves l i fl g) (j : Nat) : lentAt j l = if i = j then fl.handles.count .lent else 0 := by
  by_cases eq : i = j
  · subst eq
    rw [if_pos rfl, lentAt]
    rcases s.inFeed? with is | ⟨none, nothing, -⟩
    · rw [is]
      rfl
    · rw [none, nothing]
      rfl
  · rw [if_neg eq, lentAt]
    cases s with
    | advance | hear | invoke => simp [HubLabel.inFeed?, eq]
    | _ => rfl

/-- What a hub does with a payload in a step that a feed makes is what the feed does. -/
theorem Serves.loanEventsAt_eq {h g : Hub V H R} {l : HubLabel V H R} {i : Nat} {fl : FeedLabel V H R}
    {f : Feed V H R} {fr : Feed.Result V H R} (s : h.Serves l i fl g) (there : h.feeds[i]? = some f) (loan : Loan) :
    loanEventsAt i loan ⟨h, l, g.afterFeed i fr⟩ = Feed.loanEvents loan ⟨f, fl, fr⟩ := by
  rcases s.inFeed? with is | ⟨none, -, idle⟩
  · simp only [loanEventsAt, is, there, released_afterFeed, if_true]
    rfl
  · simp only [loanEventsAt, none, Feed.loanEvents, idle]
    rfl

/-- A step that goes past a feed stands for none of its steps. -/
theorem Passes.inFeed? {i : Nat} {m : Moment (Hub V H R) (HubLabel V H R) (HubEffect V H)} (passes : Passes i m) :
    m.label.inFeed? i = none := by
  cases at' : m.label with
  | hear j reply => exact if_neg fun eq => passes.unserved _ _ (by rw [at', eq]; exact .hear)
  | invoke j epoch payload => exact if_neg fun eq => passes.unserved _ _ (by rw [at', eq]; exact .invoke)
  | use => rfl
  | move m =>
    cases m with
    | advance j move => exact if_neg fun eq => passes.unserved _ _ (by rw [at', eq]; exact .advance)
    | _ => rfl

theorem Passes.loanEventsAt_eq {i : Nat} {m : Moment (Hub V H R) (HubLabel V H R) (HubEffect V H)}
    (passes : Passes i m) (loan : Loan) : loanEventsAt i loan m = [] := by
  rw [loanEventsAt, passes.inFeed?]

/-- **What a hub does with the payload of a feed's loan** is read off the feed's own history. -/
theorem Mirrors.loanEvents_eq {i : Nat} {past : List (Moment (Hub V H R) (HubLabel V H R) (HubEffect V H))}
    {own : List (Moment (Feed V H R) (FeedLabel V H R) (FeedEffect V))} (m : Mirrors i past own) (loan : Loan) :
    past.flatMap (loanEventsAt i loan) = own.flatMap (Feed.loanEvents loan) :=
  m.flatMap_eq (fun serves there => serves.loanEventsAt_eq there loan) (fun _ passes => passes.loanEventsAt_eq loan)
    (fun _ => rfl) fun _ _ _ => rfl

variable [SignalValue V] {h : Hub V H R} {l : HubLabel V H R} {r : Result V H R}

/-- Leases end only in the steps of feeds. -/
theorem Transition.balance_at {plans : List (FeedPlan V)} {tenure : Tenure} (arises : Arises plans tenure h)
    (t : h.Transition l r) {i : Nat} {f : Feed V H R} (there : h.feeds[i]? = some f)
    (distinct : (f.pushes.map (·.number)).Nodup) :
    ∃ f', r.state.feeds[i]? = some f' ∧ (f'.pushes.map (·.number)).Nodup ∧
      r.effects.countP (·.isReleased i) + f'.onLoan = f.onLoan + lentAt i l := by
  cases t with
  | @feed l j fl g k fr serves at' made =>
    rw [released_afterFeed, afterFeed_feeds, serves.feeds_eq, serves.lentAt_eq]
    by_cases eq : j = i
    · subst eq
      obtain rfl : f = k := Option.some.inj (there.symm.trans at')
      have t := Feed.transition_of_step made
      obtain ⟨orderly, -⟩ := arises.kept there
      refine ⟨fr.state, by rw [List.getElem?_set_self', at']; rfl, t.distinct orderly distinct, ?_⟩
      rw [if_pos rfl, if_pos rfl]
      exact t.balance orderly distinct
    · refine ⟨f, (List.getElem?_set_ne eq).trans there, distinct, ?_⟩
      rw [if_neg eq, if_neg eq, Nat.zero_add, Nat.add_zero]
  | letGo =>
    refine ⟨{ f with handles := f.handles - 1 }, ?_, distinct, Nat.add_comm 0 _⟩
    exact List.getElem?_map.trans (congrArg _ there)
  | returned =>
    refine ⟨f, there, distinct, (Nat.add_comm ..).trans (congrArg (f.onLoan + ·) ?_)⟩
    dsimp only
    split <;> rfl
  | _ => exact ⟨f, there, distinct, Nat.add_comm 0 _⟩

/-- The leases that a step ends are those of a feed that makes the step. -/
theorem Transition.released_eq_zero (t : h.Transition l r) {i : Nat} :
    r.effects.countP (·.isReleased i) = 0 ∨ ∃ fl g f fr, h.Serves l i fl g ∧ h.feeds[i]? = some f ∧
      f.step fl = some fr ∧ r.effects.countP (·.isReleased i) = fr.effects.countP (·.isReleased) := by
  cases t with
  | @feed l j fl g f fr serves there made =>
    rw [released_afterFeed]
    by_cases eq : j = i
    · subst eq
      exact .inr ⟨fl, g, f, fr, serves, there, made, if_pos rfl⟩
    · exact .inl (if_neg eq)
  | returned =>
    left
    dsimp only
    split <;> rfl
  | _ => exact .inl rfl

/-- **A step that is told of in the course of no payload** gives nothing back to a feed's provider, and changes no
cache of the feed and posts nothing for it. -/
theorem disclosed_at {plans : List (FeedPlan V)} {tenure : Tenure} (arises : Arises plans tenure h)
    (made : h.step l = some r) {i : Nat} {f : Feed V H R} (there : h.feeds[i]? = some f) :
    ((∀ loan, .returned ∉ loanEventsAt i loan ⟨h, l, r⟩) → r.effects.countP (·.isReleased i) = 0) ∧
      ((∀ loan, .used ∉ loanEventsAt i loan ⟨h, l, r⟩) →
        r.state.feeds[i]?.map Feed.gates = h.feeds[i]?.map Feed.gates ∧
          ∀ w signal value, .job signal ⟨i, value⟩ ∈ r.state.pool.queue w → .job signal ⟨i, value⟩ ∈ h.pool.queue w) := by
  have t := transition_of_step made
  -- what the hub tells of a payload is what the feed tells of it, if the feed makes the step
  have told : ∀ {fl g fr}, h.Serves l i fl g → f.step fl = some fr →
      ∀ loan, loanEventsAt i loan ⟨h, l, r⟩ = Feed.loanEvents loan ⟨f, fl, fr⟩ := by
    intro fl g fr serves made' loan
    obtain rfl := Option.some.inj (made.symm.trans (serves.step there made'))
    exact serves.loanEventsAt_eq there loan
  constructor
  · intro untold
    rcases t.released_eq_zero (i := i) with zero | ⟨fl, g, k, fr, serves, at', made', same⟩
    · exact zero
    · obtain rfl : f = k := Option.some.inj (there.symm.trans at')
      rw [same]
      exact (Feed.transition_of_step made').disclosed.1 fun loan => told serves made' loan ▸ untold loan
  · intro untold
    have unused : ∀ {fl g fr}, h.Serves l i fl g → f.step fl = some fr → fl ≠ .advance .write ∧ fl ≠ .advance .post :=
      fun serves made' => (Feed.transition_of_step made').disclosed.2 fun loan => told serves made' loan ▸ untold loan
    constructor
    · rcases t.mirrors arises there with ⟨fl, fr, after, made', -, -, makes⟩ | ⟨same, -⟩
      · rw [after, there]
        refine congrArg some ((Feed.transition_of_step made').gates_eq ?_)
        cases makes with
        | served serves => exact (unused serves made').1
        | letGo => simp
      · rw [same, there]
    · intro w signal value mem
      refine (t.mem_queue_of_owed mem).resolve_right ?_
      rintro ⟨-, fl, g, k, fr, serves, at', made', owed⟩
      obtain rfl : f = k := Option.some.inj (there.symm.trans at')
      rw [← mem_owedTo, (Feed.transition_of_step made').owedTo_eq_nil (unused serves made').2] at owed
      cases owed

end Hub

end LazyHub
