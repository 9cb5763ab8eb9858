import LazyHub.Proofs.Feed.Calls

/-!
# Registrations, as the provider sees them

A feed and its provider talk: the feed makes calls, and the provider answers them. `dialogue` is
what they said in the course of a run, and the `Ledger` kept of it tells of each callback, known by
the epoch it carries, whether it was ever handed over, whether its registration is the current one
(asked for, and neither refused nor ended), and whether its registration has been ended.

`Books` ties the ledger to the feed's epoch. The current registration is of the current epoch
(`Books.current`), one that has been ended is of an earlier epoch unless nobody owns the feed any
more (`Books.ended`), and while an activation is under way that has yet to register its callback,
all callbacks are of earlier epochs (`Books.given`).
-/

namespace LazyHub

variable {V H R : Type}

/-- What a feed and its provider say to each other. -/
inductive Exchange (R : Type) where
  /-- The feed makes a call. -/
  | asked (call : FeedCall)
  /-- The provider answers. -/
  | heard (reply : ProviderReply R)

/-- What is known of the registrations of a feed, each by the epoch of its callback. -/
structure Ledger where
  /-- Those that were asked for. -/
  given : List Nat := []
  /-- The one that was asked for last, unless it was refused or has been ended. -/
  current : Option Nat := none
  /-- Those that have been ended, whatever the provider answered to it. -/
  ended : List Nat := []

namespace Ledger

/-- What is known after one more thing is said. -/
def enter (b : Ledger) : Exchange R → Ledger
  | .asked (.register epoch) => { b with given := b.given ++ [epoch], current := some epoch }
  | .asked (.unregister ..) => { b with current := none, ended := b.ended ++ b.current.toList }
  | .heard (.registered (.error _)) => { b with current := none }
  | _ => b

end Ledger

namespace Feed

/-- What is said in a step: the provider's answer, and the calls that the step begins. -/
def exchanges (l : FeedLabel V H R) (es : List (FeedEffect V)) : List (Exchange R) :=
  (match l with
    | .hear reply => [.heard reply]
    | _ => []) ++
  es.filterMap fun
    | .asked call => some (.asked call)
    | _ => none

/-- What a feed and its provider said in the course of a run. -/
def dialogue (trail : List (Moment (Feed V H R) (FeedLabel V H R) (FeedEffect V))) : List (Exchange R) :=
  trail.flatMap fun m => exchanges m.label m.after.effects

/-- What is known of the registrations after a run. -/
def ledger (trail : List (Moment (Feed V H R) (FeedLabel V H R) (FeedEffect V))) : Ledger :=
  (dialogue trail).foldl Ledger.enter {}

theorem ledger_concat (past : List (Moment (Feed V H R) (FeedLabel V H R) (FeedEffect V)))
    (m : Moment (Feed V H R) (FeedLabel V H R) (FeedEffect V)) :
    ledger (past ++ [m]) = (exchanges m.label m.after.effects).foldl Ledger.enter (ledger past) := by
  simp [ledger, dialogue, List.foldl_append]

end Feed

/-- The holder of the state lock activates the feed, and has yet to register a callback. -/
def Section.Opens : Section V H R → Prop
  | .querying purpose | .decoding purpose _ | .seeding purpose _ | .writing purpose => purpose ≠ .refresh
  | _ => False

/-- The holder of the state lock waits for the answer to a registration. -/
def Section.registers : Section V H R → Bool
  | .registering _ => true
  | _ => false

namespace Feed

/-- An activation is under way that has yet to register a callback. -/
def IsOpening (f : Feed V H R) : Prop := ∃ s, f.holder = some s ∧ s.Opens

/-- The registration that the feed holds or is about to, by the epoch of its callback. -/
def standing (f : Feed V H R) : Option Nat :=
  if f.registration.isSome || f.holder.any (·.registers) then some f.epoch else none

/-- **How a feed stands to the registrations of the past.** -/
structure Books (past : List (Moment (Feed V H R) (FeedLabel V H R) (FeedEffect V))) (f : Feed V H R) :
    Prop where
  /-- The registration that is current is the one that the feed has. -/
  current : (ledger past).current = f.standing
  /-- No callback is of a later epoch, nor of this one before it is registered. -/
  given : ∀ epoch ∈ (ledger past).given, epoch ≤ f.epoch ∧ (f.IsOpening → epoch < f.epoch)
  /-- Callbacks that may still be invoked were handed over. -/
  callbacks : ∀ epoch ∈ f.callbacks, epoch ∈ (ledger past).given
  /-- Pushes come through callbacks that were handed over. -/
  pushes : ∀ p ∈ f.pushes, p.epoch ∈ (ledger past).given
  /-- A registration that has been ended is of an earlier epoch, unless nobody owns the feed. -/
  ended : ∀ epoch ∈ (ledger past).ended, epoch < f.epoch ∨ f.owners = 0
  /-- A push that has written something is past waiting for the update lock. -/
  written : ∀ number, writesBy number (writes past) ≠ [] → f.HasReached number 2

theorem books_ofPlan (plan : FeedPlan V) : Books [] (ofPlan plan : Feed V H R) where
  current := rfl
  given := nofun
  callbacks := nofun
  pushes := nofun
  ended := nofun
  written := fun _ wrote => absurd rfl wrote

variable [SignalValue V] {f : Feed V H R} {l : FeedLabel V H R} {r : Result V H R}
  {past : List (Moment (Feed V H R) (FeedLabel V H R) (FeedEffect V))}

theorem Transition.epoch_le (t : f.Transition l r) : f.epoch ≤ r.state.epoch := by
  cases t with
  | activate | subscribe | withdraw => exact Nat.le_succ _
  | _ => exact Nat.le_refl _

/-- A feed that nobody owns is owned by nobody later on. -/
theorem Transition.owners_eq_zero (t : f.Transition l r) (unowned : f.owners = 0) : r.state.owners = 0 := by
  obtain ⟨unhandled, unpushed⟩ := Nat.add_eq_zero_iff.1 unowned
  have unpushed := List.length_eq_zero_iff.1 unpushed
  cases t with
  | invoke _ owned => exact absurd unowned owned
  | settlePush | pushRefused | pushDecoded | pushAccepted | pushStale | leave =>
    simp [owners, setPhase, unhandled, unpushed]
  | clone kept => exact absurd unhandled kept
  | drop | dropLast => simp [owners, unhandled, unpushed]
  | _ => exact unowned

/-- A push was under way before, or has come through a callback that has just been invoked. -/
theorem Transition.epoch_of_push (t : f.Transition l r) {p : Push V R} (mem : p ∈ r.state.pushes) :
    (∃ q ∈ f.pushes, q.epoch = p.epoch) ∨ p.epoch ∈ f.callbacks ∧ ∃ payload, l = .invoke p.epoch payload := by
  have moved : ∀ {number : Nat} {phase : PushPhase V R}, p ∈ (f.setPhase number phase).pushes →
      ∃ q ∈ f.pushes, q.epoch = p.epoch := by
    intro number phase mem
    obtain ⟨q, hq, rfl⟩ := mem_setPhase mem
    exact ⟨q, hq, by split <;> rfl⟩
  cases t with
  | invoke given =>
    rcases List.mem_append.1 mem with mem | mem
    · exact .inl ⟨p, mem, rfl⟩
    · rw [List.mem_singleton.1 mem]
      exact .inr ⟨given, _, rfl⟩
  | settlePush | pushRefused | pushDecoded | pushAccepted | pushStale => exact .inl (moved mem)
  | leave => exact .inl ⟨p, List.mem_of_mem_filter mem, rfl⟩
  | _ => exact .inl ⟨p, mem, rfl⟩

omit [SignalValue V] in
@[simp] theorem attach_epoch (f : Feed V H R) (signal : SignalId) (token : Token) (handler : H) :
    (f.attach signal token handler).epoch = f.epoch := rfl

omit [SignalValue V] in
@[simp] theorem detach_epoch (f : Feed V H R) (signal : SignalId) (token : Token) :
    (f.detach signal token).epoch = f.epoch := rfl

/-- An activation that is opening after a step was so before, or the epoch is a new one. -/
theorem Transition.opening (t : f.Transition l r) (opening : r.state.IsOpening) :
    f.IsOpening ∨ f.epoch < r.state.epoch := by
  obtain ⟨s, held', opens⟩ := opening
  cases t with
  | activate | subscribe => exact .inr (Nat.lt_succ_self _)
  | refresh =>
    cases held'
    exact absurd rfl opens
  | deactivate | detachLast | shutdown | settle | clear | cleared | withdraw | retire | dropLast =>
    cases held'
    exact opens.elim
  | queryFailed | registerFailed | subscribed | activated | unregistered | decodeFailed | settleRefresh
  | clearedInactive => cases held'
  | queried held | decoded held | seed held =>
    cases held'
    exact .inl ⟨_, held, opens⟩
  | _ => exact .inl ⟨s, held', opens⟩

/-- What is said in a step, as far as it concerns registrations, and where it leaves the one that the
feed has. -/
inductive Says (f : Feed V H R) (g : Feed V H R) : List (Exchange R) → Prop where
  /-- Nothing. -/
  | nothing {xs : List (Exchange R)} (nothing : ∀ b : Ledger, xs.foldl Ledger.enter b = b)
      (standing : g.standing = f.standing) (callbacks : g.callbacks = f.callbacks) : Says f g xs
  /-- A registration is asked for. -/
  | register (standing : g.standing = some f.epoch) (epoch : g.epoch = f.epoch) (opened : ¬ g.IsOpening)
      (callbacks : g.callbacks = f.callbacks ++ [f.epoch]) : Says f g [.asked (.register f.epoch)]
  /-- A registration is refused. -/
  | refuse {failure : ProviderFailure} (standing : g.standing = none)
      (callbacks : ∀ epoch ∈ g.callbacks, epoch ∈ f.callbacks) :
      Says f g [.heard (.registered (.error failure))]
  /-- A registration is ended. -/
  | unregister {registration : Registration} {place : Place} (standing : g.standing = none)
      (callbacks : g.callbacks = f.callbacks) (later : f.epoch < g.epoch ∨ g.owners = 0) :
      Says f g [.asked (.unregister registration place)]

theorem Transition.says (t : f.Transition l r) (o : f.Orderly) :
    f.Says r.state (exchanges l r.effects) := by
  have unpulled : ∀ {s : Section V H R}, f.holder = some s → s.purpose?.isSome → f.registration = none :=
    fun held pulls => o.inactive (by rw [pull?, held]; exact pulls)
  cases t with
  | activate free _ inactive | refresh free _ inactive | subscribe free _ _ inactive =>
    exact .nothing (fun _ => rfl) (by simp [standing, free, inactive, Section.registers]) rfl
  | deactivate free | shutdown free | detachLast free =>
    exact .nothing (fun _ => rfl) (by simp [standing, free, Section.registers]) rfl
  | queryFailed held | queried held | unregistered held | decodeFailed held | decoded held | seed held
  | settleRefresh held | clear held =>
    refine .nothing (fun _ => rfl) ?_ rfl
    simp [standing, held, Section.registers]
  | cleared held | clearedInactive held =>
    refine .nothing (fun _ => ?_) ?_ rfl
    · dsimp only
      split <;> rfl
    · simp [standing, held, Section.registers]
  | registerFailed held =>
    refine .refuse ?_ fun epoch => List.mem_of_mem_erase
    simp [standing, unpulled held rfl]
  | subscribed held =>
    refine .nothing (fun _ => rfl) ?_ rfl
    simp [standing, held, Section.registers]
  | activated held =>
    refine .nothing (fun _ => rfl) ?_ rfl
    simp [standing, held, Section.registers]
  | settle held =>
    refine .register ?_ rfl ?_ rfl
    · simp [standing, Section.registers]
    · rintro ⟨s, held', opens⟩
      cases held'
      exact opens
  | withdraw held =>
    refine .unregister ?_ rfl (.inl (Nat.lt_succ_self _))
    simp [standing, Section.registers]
  | retire retiring =>
    refine .unregister ?_ rfl (.inr (o.unowned retiring))
    simp [standing, Section.registers]
  | dropLast last unpushed =>
    refine .unregister ?_ rfl (.inr (by simp [owners, unpushed]))
    simp [standing, Section.registers]
  | _ => exact .nothing (fun _ => rfl) rfl rfl

/-- A push that has written something, in this step or before, is past waiting for the update lock. -/
theorem Transition.written (t : f.Transition l r) (h : Books past f) (o : f.Orderly) (number : Nat)
    (wrote : writesBy number (writes (past ++ [⟨f, l, r⟩])) ≠ []) : r.state.HasReached number 2 := by
  refine t.hasReached ?_ (by decide)
  rw [writes_append, writesBy_append] at wrote
  by_cases before : writesBy number (writes past) = []
  · rw [before, List.nil_append, writes_cons] at wrote
    by_cases written : l = .advance .write
    · subst written
      cases t with
      | @write push e rest writing =>
        have own : push = some number := by
          by_contra other
          simp [write?_of_writer writing, writesBy, other] at wrote
        exact (o.locked number _ writing own).1
    · simp [write?_eq_none written, writesBy] at wrote
  · exact h.written number before

/-- **Every step keeps the books.** -/
theorem Books.step (h : Books past f) (o : f.Orderly) (t : f.Transition l r) :
    Books (past ++ [⟨f, l, r⟩]) r.state := by
  have le := t.epoch_le
  have given : ∀ epoch ∈ (ledger past).given,
      epoch ≤ r.state.epoch ∧ (r.state.IsOpening → epoch < r.state.epoch) := by
    intro epoch mem
    obtain ⟨early, opening⟩ := h.given epoch mem
    refine ⟨Nat.le_trans early le, ?_⟩
    intro opens
    rcases t.opening opens with opens | new
    · exact Nat.lt_of_lt_of_le (opening opens) le
    · exact Nat.lt_of_le_of_lt early new
  have pushes : ∀ p ∈ r.state.pushes, p.epoch ∈ (ledger past).given := by
    intro p mem
    rcases t.epoch_of_push mem with ⟨q, hq, eq⟩ | ⟨callback, -⟩
    · exact eq ▸ h.pushes q hq
    · exact h.callbacks _ callback
  have ended : ∀ epoch ∈ (ledger past).ended, epoch < r.state.epoch ∨ r.state.owners = 0 := by
    intro epoch mem
    exact (h.ended epoch mem).imp (Nat.lt_of_lt_of_le · le) t.owners_eq_zero
  have written := t.written h o
  have entered := ledger_concat past ⟨f, l, r⟩
  have said := t.says o
  dsimp only at entered
  generalize exchanges l r.effects = xs at entered said
  cases said with
  | nothing nothing standing callbacks =>
    rw [nothing] at entered
    rw [← entered] at given pushes ended
    exact {
      current := by rw [entered, h.current, standing]
      given, pushes, ended, written
      callbacks := by
        rw [entered, callbacks]
        exact h.callbacks }
  | register standing epoch opened callbacks =>
    refine ⟨?_, ?_, ?_, ?_, ?_, written⟩ <;> rw [entered]
    · exact standing.symm
    · intro e mem
      rcases List.mem_append.1 mem with mem | mem
      · exact given e mem
      · rw [List.mem_singleton.1 mem, epoch]
        exact ⟨Nat.le_refl _, fun opens => absurd opens opened⟩
    · intro e mem
      rw [callbacks] at mem
      rcases List.mem_append.1 mem with mem | mem
      · exact List.mem_append_left _ (h.callbacks e mem)
      · exact List.mem_append_right _ mem
    · exact fun p mem => List.mem_append_left _ (pushes p mem)
    · exact ended
  | refuse standing callbacks =>
    refine ⟨?_, ?_, ?_, ?_, ?_, written⟩ <;> rw [entered]
    · exact standing.symm
    · exact given
    · exact fun e mem => h.callbacks e (callbacks e mem)
    · exact pushes
    · exact ended
  | unregister standing callbacks later =>
    refine ⟨?_, ?_, ?_, ?_, ?_, written⟩ <;> rw [entered]
    · exact standing.symm
    · exact given
    · exact fun e mem => h.callbacks e (callbacks ▸ mem)
    · exact pushes
    · intro e mem
      rcases List.mem_append.1 mem with mem | mem
      · exact ended e mem
      · -- what has just been ended was the current registration, which is of the current epoch
        rw [h.current, Option.mem_toList] at mem
        unfold Feed.standing at mem
        split at mem
        · cases mem
          exact later
        · cases mem

/-- **The books are kept** throughout every run of a feed. -/
theorem books_of_run {plan : FeedPlan V} {labels : List (FeedLabel V H R)} {f : Feed V H R}
    {es : List (FeedEffect V)} (ran : run Feed.step labels (ofPlan plan) = some (f, es)) :
    f.Orderly ∧ Books (trail Feed.step labels (ofPlan plan)) f := by
  refine run_remembers (P := fun past f => f.Orderly ∧ Books past f) ?_ ran []
    ⟨orderly_ofPlan plan, books_ofPlan plan⟩
  rintro past s l r ⟨orderly, books⟩ made
  have t := transition_of_step made
  exact ⟨orderly.step t, books.step orderly t⟩

/-- Every step keeps a feed in order and tidy, and its books. -/
theorem kept_of_step {f : Feed V H R} {l : FeedLabel V H R} {r : Result V H R}
    (kept : f.Orderly ∧ f.Tidy ∧ ∃ past, Books past f) (made : f.step l = some r) :
    r.state.Orderly ∧ r.state.Tidy ∧ ∃ past, Books past r.state := by
  obtain ⟨orderly, tidy, past, books⟩ := kept
  have t := transition_of_step made
  exact ⟨orderly.step t, tidy.step orderly t, _, books.step orderly t⟩

end Feed

end LazyHub
