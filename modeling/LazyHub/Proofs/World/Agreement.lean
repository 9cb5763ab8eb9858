import LazyHub.Proofs.World.Turns

/-!
# A feed and its provider

A feed and its provider know of each other by what they answer. They agree (`Agrees`) if the provider's
callback is the one that the feed's registration stands for, and carries the current epoch; and a turn keeps
the agreement unless the provider refuses to end a registration (`Agrees.turn`).

From then on the callback is `Orphaned`: the feed has forgotten the registration and the epoch is over, but the
provider keeps the callback, and since it has one it accepts no other. No turn ever ends this
(`Orphaned.turn`).
-/

namespace LazyHub

variable {V H R : Type}

/-! ### What a provider does when asked -/

namespace LocalProvider

variable {C : Type} {p : LocalProvider R C}

/-- A provider without a callback installs the one it is given, or refuses it. -/
theorem register_of_none (vacant : p.callback = none) (c : C) :
    (∃ failure, (p.register c).1 = .error failure ∧ (p.register c).2.callback = none) ∨
      ∃ registration, (p.register c).1 = .ok registration ∧ (p.register c).2.callback = some (registration, c) := by
  cases armed : p.refuseRegister with
  | some message => exact .inl ⟨⟨message⟩, by simp [register, armed], by simp [register, armed, vacant]⟩
  | none =>
    exact .inr ⟨⟨p.nextRegistration⟩, by simp [register, armed, vacant], by simp [register, armed, vacant]⟩

/-- A provider with a callback keeps it, and refuses every other. -/
theorem register_of_some {installed : Registration × C} (taken : p.callback = some installed) :
    ∃ failure, ∀ c, (p.register c).1 = .error failure ∧ (p.register c).2.callback = some installed := by
  cases armed : p.refuseRegister with
  | some message => exact ⟨⟨message⟩, fun c => ⟨by simp [register, armed], by simp [register, armed, taken]⟩⟩
  | none => exact ⟨_, fun c => ⟨by simp only [register, armed, taken]; rfl, by simp [register, armed, taken]⟩⟩

/-- A provider removes the callback of a registration, or refuses and keeps it. -/
theorem unregister_of_some {registration : Registration} {c : C} (installed : p.callback = some (registration, c))
    (thread : Thread) :
    (p.unregister registration thread).1 = .ok () ∧ (p.unregister registration thread).2.callback = none ∨
      ∃ failure, (p.unregister registration thread).1 = .error failure ∧
        (p.unregister registration thread).2.callback = some (registration, c) := by
  cases armed : p.refuseUnregister with
  | some message => exact .inr ⟨⟨message⟩, by simp [unregister, armed], by simp [unregister, armed, installed]⟩
  | none => exact .inl ⟨by simp [unregister, armed, installed], by simp [unregister, armed, installed]⟩

end LocalProvider

/-! ### Epochs -/

/-- An epoch is out of date at a feed: it is not the current one, or no client owns the feed any more. -/
def Outdated (tenure : Tenure) (f : Feed V H R) (epoch : Nat) : Prop :=
  epoch < f.epoch ∨ tenure = .clients ∧ f.owners = 0

namespace Feed

variable [SignalValue V] {tenure : Tenure} {f : Feed V H R} {l : FeedLabel V H R} {r : Result V H R}

/-- What is out of date stays so. -/
theorem Transition.outdated (t : f.Transition l r) {epoch : Nat} (outdated : Outdated tenure f epoch) :
    Outdated tenure r.state epoch :=
  outdated.imp (fun lt => Nat.lt_of_lt_of_le lt t.epoch_le) (And.imp_right t.owners_eq_zero)

/-- A new epoch begins with a query, or with the end of a registration. -/
theorem Transition.epoch_eq (t : f.Transition l r) :
    r.state.epoch = f.epoch ∨ r.state.stage = .querying ∨ ∃ registration, r.state.stage = .unregistering registration := by
  cases t with
  | activate | subscribe => exact .inr (.inl rfl)
  | withdraw => exact .inr (.inr ⟨_, rfl⟩)
  | _ => exact .inl rfl

/-- A registration is ended in an epoch that is not its own. -/
theorem Transition.outdates (t : f.Transition l r) (o : f.Orderly) (ofHub : tenure = .hub → f.OfHub l)
    {registration : Registration} {place : Place} (ends : .asked (.unregister registration place) ∈ r.effects) :
    Outdated tenure r.state f.epoch := by
  have clients : (tenure = .hub → False) → tenure = .clients := fun other => by
    cases tenure with
    | hub => exact (other rfl).elim
    | clients => rfl
  cases t with
  | withdraw => exact .inl (Nat.lt_succ_self _)
  | retire retiring => exact .inr ⟨clients ofHub, o.unowned retiring⟩
  | dropLast _ unpushed _ active =>
    refine .inr ⟨clients fun hub => ?_, by simp [owners, unpushed]⟩
    cases active.symm.trans (ofHub hub)
  | _ => simp at ends

/-- The answer to a registration decides whether there is one. -/
theorem Transition.stage_of_registered {answer : Except ProviderFailure Registration}
    (t : f.Transition (.hear (.registered answer)) r) (o : f.Orderly) :
    f.stage = .registering ∧ r.state.epoch = f.epoch ∧ r.state.stage = .between answer.toOption := by
  cases t with
  | registerFailed held =>
    have inactive : f.registration = none := o.inactive (by rw [pull?, held]; rfl)
    exact ⟨by rw [stage, held], rfl, congrArg Stage.between inactive⟩
  | subscribed held | activated held => exact ⟨by rw [stage, held], rfl, rfl⟩

/-- Once the end of a registration is answered there is none. -/
theorem Transition.stage_of_unregistered {answer : Except ProviderFailure Unit}
    (t : f.Transition (.hear (.unregistered answer)) r) (tidy : f.Tidy) :
    r.state.stage = .resting ∧ r.state.epoch = f.epoch ∧ r.state.owners = f.owners := by
  cases t with
  | unregistered held => exact ⟨congrArg Stage.between (tidy.forgotten _ _ held), rfl, rfl⟩

/-- A call that is said to be made is made. -/
theorem asked_of_mem_events {m : Moment (Feed V H R) (FeedLabel V H R) (FeedEffect V)} {call : FeedCall}
    (said : .asked call ∈ events m) : .asked call ∈ m.after.effects := by
  rcases List.mem_append.1 said with said | said
  · unfold heard at said
    split at said <;> simp at said
  · obtain ⟨call', mem, eq⟩ := List.mem_map.1 said
    cases eq
    obtain ⟨e, he, is⟩ := List.mem_filterMap.1 mem
    cases e with
    | asked =>
      cases is
      exact he
    | _ => cases is

/-- What is heard from a provider is what the provider answers. -/
theorem hear_of_mem_events {m : Moment (Feed V H R) (FeedLabel V H R) (FeedEffect V)} {reply : ProviderReply R}
    (said : .heard reply ∈ events m) : m.label = .hear reply := by
  rcases List.mem_append.1 said with said | said
  · unfold heard at said
    split at said <;> simp at said
    rename_i label
    rw [label, said]
  · simp at said

section Unanswered

variable (t : f.Transition l r) (o : f.Orderly) (tidy : f.Tidy)
  (unregistered : ∀ answer, l ≠ .hear (.registered answer))
include t o tidy unregistered

/-- Whoever waits for the answer to a registration waits until it comes. -/
theorem Transition.stays_registering (registers : f.stage = .registering) : r.state.stage = .registering := by
  have moves := t.moves o tidy
  have hears : ∀ reply, .heard reply ∈ Feed.events ⟨f, l, r⟩ → l = .hear reply := fun _ => hear_of_mem_events
  generalize Feed.events ⟨f, l, r⟩ = said at moves hears
  rw [registers] at moves
  generalize r.state.stage = after at moves
  cases moves with
  | still same => exact same
  | next next => cases next <;> exact absurd (hears _ (List.mem_singleton_self _)) (unregistered _)
  | ended pulled resting => cases pulled

/-- A feed has no registration unless the provider accepts one. -/
theorem Transition.stays_unregistered
    (before : ∀ registration, f.stage ≠ .registered registration ∧ f.stage ≠ .unregistering registration)
    (registration : Registration) :
    r.state.stage ≠ .registered registration ∧ r.state.stage ≠ .unregistering registration := by
  have moves := t.moves o tidy
  have hears : ∀ reply, .heard reply ∈ Feed.events ⟨f, l, r⟩ → l = .hear reply := fun _ => hear_of_mem_events
  generalize Feed.events ⟨f, l, r⟩ = said at moves hears
  generalize r.state.stage = after at moves
  generalize f.stage = stage at moves before
  cases moves with
  | still same => exact same ▸ before registration
  | next next =>
    cases next with
    | registered => exact absurd (hears _ (List.mem_singleton_self _)) (unregistered _)
    | unregister => exact absurd rfl (before _).1
    | _ => exact ⟨nofun, nofun⟩
  | ended pulled resting => exact resting ▸ ⟨nofun, nofun⟩

end Unanswered

end Feed

/-! ### Agreement -/

/-- **A feed and its provider agree** on the registration that there is: the provider's callback is the one
that the feed's registration stands for, and carries the current epoch. While the provider is being asked for a
registration or for its end, it depends on how far that has come. -/
structure Agrees (tenure : Tenure) (f : Feed V H R) (s : Source R) : Prop where
  /-- An answer travels only to a feed that waits for it. -/
  awaited : s.reply ≠ none → f.stage = .registering
  /-- What the provider's callback is. -/
  callback : match f.stage with
    | .registered registration => s.provider.callback = some (registration, f.epoch)
    | .registering => s.provider.callback = match s.reply with
      | some (.ok registration) => some (registration, f.epoch)
      | _ => none
    | .unregistering registration => ∃ epoch, s.provider.callback = some (registration, epoch) ∧ Outdated tenure f epoch
    | _ => s.provider.callback = none

/-- **A callback is orphaned**: the provider keeps it though the feed has ended its registration, and
accepts no other. -/
structure Orphaned (tenure : Tenure) (installed : Registration × Nat) (f : Feed V H R) (s : Source R) : Prop where
  /-- The provider has the callback. -/
  callback : s.provider.callback = some installed
  /-- The epoch that it carries is out of date. -/
  outdated : Outdated tenure f installed.2
  /-- An answer travels only to a feed that waits for it, and is a refusal. -/
  refuses : ∀ answer, s.reply = some answer → f.stage = .registering ∧ ∃ failure, answer = .error failure
  /-- The feed has no registration. -/
  unregistered : ∀ registration, f.stage ≠ .registered registration ∧ f.stage ≠ .unregistering registration

/-- A provider denies a registration: its refusal is on the way, or is what it answers when it is asked. -/
def Source.Denies (failure : ProviderFailure) (s : Source R) : Prop :=
  s.reply = some (.error failure) ∨ s.reply = none ∧ ∀ epoch, (s.provider.register epoch).1 = .error failure

/-- A provider denies a registration however many leases have come back. -/
theorem Source.Denies.released {failure : ProviderFailure} {s : Source R} (denies : s.Denies failure) (n : Nat) :
    ({ s with provider := { s.provider with released := n } } : Source R).Denies failure := by
  refine denies.imp_right (And.imp_right fun refuses epoch => Eq.trans ?_ (refuses epoch))
  unfold LocalProvider.register
  cases s.provider.refuseRegister <;> cases s.provider.callback <;> rfl

/-- A provider that keeps an orphaned callback denies every registration. -/
theorem Orphaned.denies {tenure : Tenure} {f : Feed V H R} {s : Source R} {installed : Registration × Nat}
    (orphaned : Orphaned tenure installed f s) : ∃ failure, s.Denies failure := by
  cases travels : s.reply with
  | none =>
    obtain ⟨failure, refuses⟩ := LocalProvider.register_of_some orphaned.callback
    exact ⟨failure, .inr ⟨travels, fun epoch => (refuses epoch).1⟩⟩
  | some answer =>
    obtain ⟨-, failure, rfl⟩ := orphaned.refuses _ travels
    exact ⟨failure, .inl travels⟩

/-- A feed whose callback is orphaned is inactive. -/
theorem Orphaned.registration_eq {tenure : Tenure} {f : Feed V H R} {s : Source R} {installed : Registration × Nat}
    (orphaned : Orphaned tenure installed f s) (o : f.Orderly) (tidy : f.Tidy) : f.registration = none := by
  rw [← tidy.registration?_stage o]
  cases at' : f.stage with
  | registered registration => exact absurd at' (orphaned.unregistered registration).1
  | _ => rfl

section Turn

variable [SignalValue V] {tenure : Tenure} {i : Nat} {f f' : Feed V H R} {s s' : Source R}
  {told : Option (HubLabel V H R)}

theorem Agrees.fed (a : Agrees tenure f s) (o : f.Orderly) (tidy : f.Tidy) {fl : FeedLabel V H R}
    {fr : Feed.Result V H R} (t : f.Transition fl fr) (keeps : s.Keeps s') (ofHub : tenure = .hub → f.OfHub fl)
    (unregistered : ∀ answer, fl ≠ .hear (.registered answer))
    (unended : ∀ answer, fl ≠ .hear (.unregistered answer)) : Agrees tenure fr.state s' := by
  have moves := t.moves o tidy
  have epochs := t.epoch_eq
  have asked : ∀ call, .asked call ∈ Feed.events ⟨f, fl, fr⟩ → .asked call ∈ fr.effects :=
    fun call => Feed.asked_of_mem_events
  have hears : ∀ reply, .heard reply ∈ Feed.events ⟨f, fl, fr⟩ → fl = .hear reply :=
    fun reply => Feed.hear_of_mem_events
  obtain ⟨awaited, callback⟩ := a
  obtain ⟨same, travels⟩ := keeps
  have silent : f.stage ≠ .registering → s'.reply = none := fun other =>
    travels.trans (not_not.1 (mt awaited other))
  generalize Feed.events ⟨f, fl, fr⟩ = said at moves asked hears
  generalize at' : fr.state.stage = after at moves epochs
  generalize f.stage = before at moves awaited callback silent
  cases moves with
  | still eq =>
    subst eq
    refine ⟨fun busy => at'.trans (awaited (travels ▸ busy)), ?_⟩
    rw [at']
    cases after with
    | registered =>
      have epoch : fr.state.epoch = f.epoch := by simpa using epochs
      exact same.trans (callback.trans (by rw [epoch]))
    | registering =>
      have epoch : fr.state.epoch = f.epoch := by simpa using epochs
      exact same.trans (callback.trans (by rw [epoch, travels]))
    | unregistering =>
      obtain ⟨epoch, installed, outdated⟩ := callback
      exact ⟨epoch, same.trans installed, t.outdated outdated⟩
    | _ => exact same.trans callback
  | @next e next =>
    -- nothing is heard of a registration, so none is waited for
    have unwaiting : before ≠ .registering := by
      rintro rfl
      cases next <;> exact absurd (hears _ (List.mem_singleton_self _)) (unregistered _)
    refine ⟨fun busy => absurd (silent unwaiting) busy, ?_⟩
    rw [at']
    cases next with
    | register =>
      rw [silent unwaiting]
      exact same.trans callback
    | registerFailed | registered => exact absurd rfl unwaiting
    | unregistered => exact absurd (hears _ (List.mem_singleton_self _)) (unended _)
    | unregister => exact ⟨f.epoch, same.trans callback, t.outdates o ofHub (asked _ (List.mem_singleton_self _))⟩
    | _ => exact same.trans callback
  | ended pulled resting =>
    subst pulled resting
    exact ⟨fun busy => absurd (silent nofun) busy, by rw [at']; exact same.trans callback⟩

/-- **A turn keeps the agreement**, or the provider refuses to end a registration, and its callback is
orphaned. -/
theorem Agrees.turn (a : Agrees tenure f s) (o : f.Orderly) (tidy : f.Tidy) (turn : Turn tenure i f s told f' s') :
    (∀ failure, told ≠ some (.hear i (.unregistered (.error failure)))) ∧ Agrees tenure f' s' ∨
      (∃ failure, told = some (.hear i (.unregistered (.error failure)))) ∧
        ∃ installed, s.provider.callback = some installed ∧ f.stage = .unregistering installed.1 ∧
          Orphaned tenure installed f' s' := by
  cases turn with
  | apart keeps unheard =>
    obtain ⟨same, travels⟩ := keeps
    exact .inl ⟨fun failure => unheard _, ⟨travels ▸ a.awaited, same ▸ travels ▸ a.callback⟩⟩
  | fed step keeps ofHub heard unregistered unended =>
    refine .inl ⟨fun failure told => ?_, a.fed o tidy (Feed.transition_of_step step) keeps ofHub unregistered unended⟩
    exact unended _ ((heard _).2 (Option.some.inj told))
  | register held silent replies callback =>
    have registers : f.stage = .registering := by rw [Feed.stage, held]
    have vacant := a.callback
    simp only [registers, silent] at vacant
    refine .inl ⟨by simp, fun _ => registers, ?_⟩
    simp only [registers, replies]
    rcases LocalProvider.register_of_none vacant f.epoch with ⟨failure, refused, none⟩ | ⟨registration, accepted, some⟩
    · rw [callback, refused, none]
    · rw [callback, accepted, some]
  | registered replied step callback silent =>
    obtain ⟨registers, epoch, after⟩ := (Feed.transition_of_step step).stage_of_registered o
    have installed := a.callback
    simp only [registers, replied] at installed
    refine .inl ⟨by simp, fun busy => absurd silent busy, ?_⟩
    rename_i answer _
    rw [after]
    cases answer with
    | error => exact callback.trans installed
    | ok => exact callback.trans (installed.trans (by rw [epoch]))
  | @unregister registration place thread fr s' held step callback same =>
    obtain ⟨rests, epoch, owners⟩ := (Feed.transition_of_step step).stage_of_unregistered tidy
    have ending : f.stage = .unregistering registration := by rw [Feed.stage, held]
    have installed := a.callback
    simp only [ending] at installed
    obtain ⟨old, installed, outdated⟩ := installed
    have silent : s'.reply = none := by
      refine same.trans (not_not.1 fun busy => ?_)
      cases ending.symm.trans (a.awaited busy)
    rcases LocalProvider.unregister_of_some installed thread with ⟨done, removed⟩ | ⟨failure, refused, kept⟩
    · refine .inl ⟨?_, fun busy => absurd silent busy, ?_⟩
      · rw [done]
        simp
      · rw [rests]
        exact callback.trans removed
    · refine .inr ⟨⟨failure, by rw [refused]⟩, _, installed, ending, callback.trans kept, ?_, ?_, ?_⟩
      · rwa [Outdated, epoch, owners]
      · intro answer replied
        cases silent.symm.trans replied
      · rw [rests]
        simp

/-- **An orphaned callback stays orphaned**, and there is no other registration to begin or to end. -/
theorem Orphaned.turn {installed : Registration × Nat} (a : Orphaned tenure installed f s) (o : f.Orderly)
    (tidy : f.Tidy) (turn : Turn tenure i f s told f' s') :
    (∀ registration, told ≠ some (.hear i (.registered (.ok registration)))) ∧
      (∀ answer, told ≠ some (.hear i (.unregistered answer))) ∧ Orphaned tenure installed f' s' := by
  cases turn with
  | apart keeps unheard =>
    obtain ⟨same, travels⟩ := keeps
    exact ⟨fun _ => unheard _, fun _ => unheard _, same.trans a.callback, a.outdated, fun answer replied =>
      a.refuses answer (travels ▸ replied), a.unregistered⟩
  | @fed hl fl fr _ step keeps ofHub heard unregistered unended =>
    have t := Feed.transition_of_step step
    obtain ⟨same, travels⟩ := keeps
    refine ⟨fun _ told => unregistered _ ((heard _).2 (Option.some.inj told)),
      fun _ told => unended _ ((heard _).2 (Option.some.inj told)), same.trans a.callback,
      t.outdated a.outdated, ?_, ?_⟩
    · intro answer replied
      obtain ⟨registers, refused⟩ := a.refuses answer (travels ▸ replied)
      exact ⟨t.stays_registering o tidy unregistered registers, refused⟩
    · exact t.stays_unregistered o tidy unregistered a.unregistered
  | register held silent replies callback =>
    have registers : f.stage = .registering := by rw [Feed.stage, held]
    obtain ⟨failure, refuses⟩ := LocalProvider.register_of_some a.callback
    obtain ⟨refused, kept⟩ := refuses f.epoch
    refine ⟨by simp, by simp, callback.trans kept, a.outdated, fun answer replied => ⟨registers, failure, ?_⟩, a.unregistered⟩
    exact (Option.some.inj (replied.symm.trans replies)).trans refused
  | registered replied step callback silent =>
    obtain ⟨-, failure, rfl⟩ := a.refuses _ replied
    have t := Feed.transition_of_step step
    obtain ⟨-, -, rests⟩ := t.stage_of_registered o
    refine ⟨by simp, by simp, callback.trans a.callback, t.outdated a.outdated, ?_, ?_⟩
    · intro answer replied
      cases silent.symm.trans replied
    · rw [rests]
      simp [Stage.between, Except.toOption]
  | unregister held => exact absurd (by rw [Feed.stage, held]) (a.unregistered _).2

end Turn

end LazyHub
