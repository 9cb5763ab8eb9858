import LazyHub.Proofs.Hub.Unused
import LazyHub.Proofs.World.Registrations

/-!
# In-process providers keep faith

A provider invokes no callback but the one it has installed, and it has installed none that it refuses. So the
registration of a callback that was invoked is *granted*: it was accepted, or its acceptance is on the way, or its epoch
is over (`Granted`). No turn takes that back (`Granted.turn`), and a refusal finds nothing granted in its epoch. Whatever
clients, workers and decoders do, in-process providers keep faith (`World.keepsFaith_of_run`), which is what is asked
of providers in general wherever a registration may be refused.
-/

namespace LazyHub

variable {V H R : Type}

/-- **The registration of an epoch's callback is granted**, as far as it still matters. -/
inductive Granted (epoch : Nat) (f : Feed V H R) (s : Source R) : Prop where
  /-- The epoch is over. -/
  | outdated (lt : epoch < f.epoch)
  /-- The acceptance is on its way to the feed. -/
  | replied {registration : Registration} (current : f.epoch = epoch) (registering : f.stage = .registering)
      (accepts : s.reply = some (.ok registration))
  /-- The feed has the registration. -/
  | registered {registration : Registration} (current : f.epoch = epoch) (registered : f.stage = .registered registration)

section Turn

variable {i epoch : Nat} {f f' : Feed V H R} {s s' : Source R} {told : Option (HubLabel V H R)}

/-- **A callback that is installed is granted**, if the feed and its provider agree. -/
theorem Agrees.granted (a : Agrees .hub f s) (installed : s.provider.callback? = some epoch) : Granted epoch f s := by
  obtain ⟨⟨registration, _⟩, callback, rfl⟩ := Option.map_eq_some_iff.1 installed
  have agrees := a.callback
  cases at' : f.stage with
  | registered registration' =>
    rw [at', callback] at agrees
    cases agrees
    exact .registered rfl at'
  | registering =>
    rw [at', callback] at agrees
    cases reply : s.reply with
    | none => simp [reply] at agrees
    | some answer =>
      cases answer with
      | error failure => simp [reply] at agrees
      | ok registration' =>
        simp only [reply, Option.some.injEq, Prod.mk.injEq] at agrees
        exact .replied agrees.2.symm at' reply
  | unregistering registration' =>
    rw [at', callback] at agrees
    obtain ⟨_, same, outdated⟩ := agrees
    cases same
    exact .outdated (outdated.resolve_right fun clients => by cases clients.1)
  | resting | querying | decoding | decoded =>
    rw [at', callback] at agrees
    cases agrees

/-- An orphaned callback is of an epoch that is over. -/
theorem Orphaned.granted {orphan : Registration × Nat} (a : Orphaned .hub orphan f s)
    (installed : s.provider.callback? = some epoch) : Granted epoch f s := by
  obtain ⟨c, callback, rfl⟩ := Option.map_eq_some_iff.1 installed
  obtain rfl := Option.some.inj (a.callback.symm.trans callback)
  exact .outdated (a.outdated.resolve_right fun clients => by cases clients.1)

variable [SignalValue V]

theorem Granted.fed (g : Granted epoch f s) (o : f.Orderly) (tidy : f.Tidy) {l : FeedLabel V H R} {r : Feed.Result V H R}
    (t : f.Transition l r) (keeps : s.Keeps s') (ofHub : f.OfHub l) (unregistered : ∀ answer, l ≠ .hear (.registered answer)) :
    Granted epoch r.state s' := by
  cases g with
  | outdated lt => exact .outdated (Nat.lt_of_lt_of_le lt t.epoch_le)
  | replied current registering accepts =>
    have registering' := t.stays_registering o tidy unregistered registering
    have same : r.state.epoch = f.epoch := by simpa [registering'] using t.epoch_eq
    exact .replied (same.trans current) registering' (keeps.2.trans accepts)
  | @registered registration current registered =>
    have moves := t.moves o tidy
    have asked : ∀ call, .asked call ∈ Feed.events ⟨f, l, r⟩ → .asked call ∈ r.effects := fun call => Feed.asked_of_mem_events
    generalize Feed.events ⟨f, l, r⟩ = said at moves asked
    rw [registered] at moves
    generalize at' : r.state.stage = after at moves
    cases moves with
    | still same =>
      subst same
      have same : r.state.epoch = f.epoch := by simpa [at'] using t.epoch_eq
      exact .registered (same.trans current) at'
    | next next =>
      cases next with
      | unregister =>
        have outdated : Outdated .hub r.state f.epoch := t.outdates o (fun _ => ofHub) (asked _ (List.mem_singleton_self _))
        exact .outdated (current ▸ outdated.resolve_right fun clients => by cases clients.1)
    | ended pulled => cases pulled

/-- **What is granted stays granted** until its epoch is over. -/
theorem Granted.turn (g : Granted epoch f s) (o : f.Orderly) (tidy : f.Tidy) (turn : Turn .hub i f s told f' s') :
    Granted epoch f' s' := by
  cases turn with
  | apart keeps =>
    cases g with
    | outdated lt => exact .outdated lt
    | replied current registering accepts => exact .replied current registering (keeps.2.trans accepts)
    | registered current registered => exact .registered current registered
  | fed step keeps ofHub _ unregistered =>
    exact g.fed o tidy (Feed.transition_of_step step) keeps (ofHub rfl) unregistered
  | register held silent =>
    cases g with
    | outdated lt => exact .outdated lt
    | replied _ _ accepts => cases silent.symm.trans accepts
    | registered current registered => exact .registered current registered
  | registered replied step =>
    obtain ⟨registering, same, after⟩ := (Feed.transition_of_step step).stage_of_registered o
    cases g with
    | outdated lt => exact .outdated (same ▸ lt)
    | replied current _ accepts =>
      obtain rfl := Option.some.inj (replied.symm.trans accepts)
      exact .registered (same.trans current) after
    | registered _ registered => cases registering.symm.trans registered
  | @unregister registration _ _ _ _ held step =>
    obtain ⟨-, same, -⟩ := (Feed.transition_of_step step).stage_of_unregistered tidy
    have ending : f.stage = .unregistering registration := by rw [Feed.stage, held]
    cases g with
    | outdated lt => exact .outdated (same ▸ lt)
    | replied _ registering => cases ending.symm.trans registering
    | registered _ registered => cases ending.symm.trans registered

/-- **A registration that is refused was not granted.** -/
theorem Turn.ungranted {failure : ProviderFailure} (turn : Turn .hub i f s (some (.hear i (.registered (.error failure)))) f' s')
    (o : f.Orderly) : ¬ Granted f.epoch f s := by
  intro g
  cases turn with
  | apart _ unheard => exact unheard _ rfl
  | fed _ _ _ heard unregistered => exact unregistered _ ((heard _).2 rfl)
  | registered replied step =>
    obtain ⟨registering, -⟩ := (Feed.transition_of_step step).stage_of_registered o
    cases g with
    | outdated lt => exact Nat.lt_irrefl _ lt
    | replied _ _ accepts => cases replied.symm.trans accepts
    | registered _ registered => cases registering.symm.trans registered

end Turn

namespace Hub

variable {i : Nat} {past : List (Moment (Hub V H R) (HubLabel V H R) (HubEffect V H))}
  {m : Moment (Hub V H R) (HubLabel V H R) (HubEffect V H)}

/-- A provider that has kept faith so far keeps it in one more step, if a registration that it refuses then is of an epoch
whose callback was not invoked. -/
theorem KeepsFaith.concat (faith : KeepsFaith i past)
    (last : ∀ failure f, m.label = .hear i (.registered (.error failure)) → m.before.feeds[i]? = some f →
      ¬ HasInvoked i past f.epoch) : KeepsFaith i (past ++ [m]) := by
  intro before m' after failure f split label there
  rcases List.eq_nil_or_concat after with rfl | ⟨after, m'', rfl⟩
  · obtain ⟨rfl, same⟩ := List.append_inj' split rfl
    cases same
    exact last failure f label there
  · have split : past ++ [m] = (before ++ m' :: after) ++ [m''] := by simpa using split
    obtain ⟨rfl, -⟩ := List.append_inj' split rfl
    exact faith before m' after failure f rfl label there

theorem HasInvoked.of_concat {epoch : Nat} (invoked : HasInvoked i (past ++ [m]) epoch) :
    HasInvoked i past epoch ∨ ∃ payload, m.label = .invoke i epoch payload := by
  obtain ⟨m', mem, payload, label⟩ := invoked
  rcases List.mem_append.1 mem with mem | mem
  · exact .inl ⟨m', mem, payload, label⟩
  · obtain rfl := List.mem_singleton.1 mem
    exact .inr ⟨payload, label⟩

end Hub

namespace World

variable [SignalValue V] {plans : List (FeedPlan V × R)} {start w : World V H R} {labels : List (WorldLabel V H R)}
  {es : List (HubEffect V H)} {i : Nat} {f : Feed V H R} {s : Source R}

omit [SignalValue V] in
/-- A callback that is invoked is the one that is installed. -/
theorem callback?_of_invokes {l : WorldLabel V H R} {epoch : Nat} {payload : R} (known : w.sources[i]? = some s)
    (is : w.hubLabel? l = some (.invoke i epoch payload)) : s.provider.callback? = some epoch := by
  have installed : ∀ {j payload'}, ((w.sources[j]?).bind (·.provider.callback?)).map (HubLabel.invoke j · payload') =
      some (.invoke i epoch payload : HubLabel V H R) → s.provider.callback? = some epoch := by
    intro j payload' is
    obtain ⟨epoch', callback, same⟩ := Option.map_eq_some_iff.1 is
    obtain ⟨rfl, rfl, -⟩ := HubLabel.invoke.inj same
    rwa [known] at callback
  cases l with
  | push | announce => exact installed is
  | query => obtain ⟨_, -, eq⟩ := Option.map_eq_some_iff.1 is; cases eq
  | registered => obtain ⟨_, -, eq⟩ := Option.map_eq_some_iff.1 is; cases eq
  | unregister =>
    simp only [hubLabel?] at is
    split at is <;> cases is
  | move | use | register | set | refuse => cases is

/-- **What has been invoked was granted**, and no refusal came after it. -/
theorem Opens.granted_of_run (opens : Opens plans .hub start) (own : ∀ l ∈ labels, l.IsOwn)
    (ran : run World.step labels start = some (w, es)) (there : w.hub.feeds[i]? = some f) (known : w.sources[i]? = some s) :
    (∀ epoch, Hub.HasInvoked i (trail Hub.step (start.hubLabels labels) start.hub) epoch → Granted epoch f s) ∧
      Hub.KeepsFaith i (trail Hub.step (start.hubLabels labels) start.hub) := by
  induction labels using List.reverseRecOn generalizing w es f s with
  | nil =>
    refine ⟨fun epoch ⟨m, mem, _⟩ => absurd mem List.not_mem_nil, fun before m after failure f split => ?_⟩
    exact absurd split (List.append_ne_nil_of_right_ne_nil _ (List.cons_ne_nil _ _)).symm
  | append_singleton ls l ih =>
    obtain ⟨u, before, after, ranBefore, last, rfl⟩ := run_append.1 ran
    obtain ⟨r, later, made, done, rfl⟩ := run_cons.1 last
    cases done
    have own' : ∀ l ∈ ls, l.IsOwn := fun l hl => own l (List.mem_append_left _ hl)
    have lets : l.IsOwn := own l (List.mem_append_right _ (List.mem_singleton_self l))
    obtain ⟨f₀, there₀⟩ : ∃ f₀, u.hub.feeds[i]? = some f₀ :=
      ⟨_, List.getElem?_eq_getElem (length_feeds_of_run last ▸ (List.getElem?_eq_some_iff.1 there).1)⟩
    obtain ⟨arises, s₀, known₀, agrees⟩ := opens.agrees_of_run own' ranBefore there₀
    obtain ⟨orderly, tidy, -⟩ := arises.kept there₀
    obtain ⟨_, _, there', known', turn⟩ := turn_of_step arises lets made there₀ known₀
    obtain rfl := Option.some.inj (there.symm.trans there')
    obtain rfl := Option.some.inj (known.symm.trans known')
    obtain ⟨granted, faith⟩ := ih own' ranBefore there₀ known₀
    rw [(run_hub ran).2.1, trail_append ranBefore, trail_cons made, trail_nil, List.filterMap_append, ← (run_hub ranBefore).2.1]
    -- a step of the world is a step of its hub, or none
    cases is : u.hubLabel? l with
    | none =>
      rw [List.filterMap_cons_none (by rw [hubMoment?, is]; rfl), List.filterMap_nil, List.append_nil]
      exact ⟨fun epoch invoked => (granted epoch invoked).turn orderly tidy turn, faith⟩
    | some hl =>
      rw [List.filterMap_cons_some (by rw [hubMoment?, is]; rfl), List.filterMap_nil]
      rw [is] at turn
      refine ⟨fun epoch invoked => ?_, faith.concat fun failure g label there invoked => ?_⟩
      · rcases invoked.of_concat with invoked | ⟨payload, rfl⟩
        · exact (granted epoch invoked).turn orderly tidy turn
        · have installed := callback?_of_invokes known₀ is
          rcases agrees with ⟨-, agrees⟩ | ⟨-, installed', orphaned⟩
          · exact (agrees.granted installed).turn orderly tidy turn
          · exact (orphaned.granted installed).turn orderly tidy turn
      · obtain rfl : hl = _ := label
        obtain rfl := Option.some.inj (there₀.symm.trans there)
        exact turn.ungranted orderly (granted _ invoked)

/-- **In-process providers keep faith**, whatever is done in their world. -/
theorem keepsFaith_of_run (opens : Opens plans .hub start) (own : ∀ l ∈ labels, l.IsOwn)
    (ran : run World.step labels start = some (w, es)) (i : Nat) :
    Hub.KeepsFaith i (trail Hub.step (start.hubLabels labels) start.hub) := by
  intro before m after failure f split label there
  have mem : m ∈ trail Hub.step (start.hubLabels labels) start.hub := split ▸ List.mem_append_right _ List.mem_cons_self
  obtain ⟨-, same, -⟩ := of_mem_trail (P := fun h : Hub V H R => h.feeds.length = w.hub.feeds.length)
    (fun _ _ _ _ same made => (Hub.transition_of_step made).length_feeds.trans same) (length_feeds_of_run ran).symm m mem
  have served := List.getElem?_eq_getElem (same ▸ (List.getElem?_eq_some_iff.1 there).1)
  obtain ⟨-, s, known, -⟩ := opens.agrees_of_run own ran served
  exact (opens.granted_of_run own ran served known).2 before m after failure f split label there

end World

end LazyHub
