import LazyHub.Proofs.Feed.Attempts
import LazyHub.Proofs.Hub.Calls
import LazyHub.Proofs.Hub.Operations
import LazyHub.Proofs.World.Agreement

/-!
# Who is registered

In a world a feed and its provider agree on who is registered, as long as the provider does not refuse to end a
registration (`World.registrations_agree`). If it does, it keeps the callback for good and `ShutsOut` the feed:
whoever wants the feed to be active again has the registration refused.

An `Attempt` to activate a feed is a run from the request to its answer. It is answered as it must be because
every registration in the course of it is refused (`attempt_fails_of_orphaned`); and it is answered at all
because what a feed can do until a registration is denied it can do in its world (`exists_run_of_finishes`).
-/

namespace LazyHub

variable {V H R : Type}

namespace World

variable [SignalValue V]

/-- How a world over some plans starts out. -/
inductive Opens (plans : List (FeedPlan V × R)) : Tenure → World V H R → Prop where
  /-- It is assembled. -/
  | assembled {settings : Settings} {w : World V H R} (start : assemble settings plans = .ok w) : Opens plans .hub w
  /-- It is no more than a single feed and its provider. -/
  | lone {settings : Settings} {plan : FeedPlan V} {payload : R} {w : World V H R} (only : plans = [(plan, payload)])
      (start : lone settings plan payload = .ok w) : Opens plans .clients w

variable {plans : List (FeedPlan V × R)} {tenure : Tenure} {start w v : World V H R} {labels : List (WorldLabel V H R)}
  {es : List (HubEffect V H)} {i : Nat} {f : Feed V H R} {s : Source R} {installed : Registration × Nat}

omit [SignalValue V] in
theorem Opens.eq (opens : Opens plans tenure w) : Hub.Opens (plans.map (·.1)) tenure w.hub ∧
    w.sources = plans.map fun p => { provider := .ofInitial p.2 } := by
  cases opens with
  | @assembled settings w start =>
    exact ⟨.assembled (hub_of_assemble start), by simpa [Function.comp_def] using (eq_of_assembleOver start).2⟩
  | @lone settings plan payload w only start =>
    unfold World.lone at start
    cases made : (Hub.lone settings plan : Except HubFailure (Hub V H R)) with
    | error failure => simp [made, Except.map] at start
    | ok hub =>
      simp only [made, Except.map, Except.ok.injEq] at start
      rw [← start, only]
      exact ⟨.lone rfl made, rfl⟩

omit [SignalValue V] in
/-- Every feed has its provider, and at first they agree that there is no registration. -/
theorem Opens.agrees (opens : Opens plans tenure w) (there : w.hub.feeds[i]? = some f) :
    ∃ s, w.sources[i]? = some s ∧ Agrees tenure f s := by
  obtain ⟨hub, sources⟩ := opens.eq
  obtain ⟨plan, planned, rfl⟩ := hub.ofPlan there
  obtain ⟨p, given, rfl⟩ := Option.map_eq_some_iff.1 (List.getElem?_map.symm.trans planned)
  refine ⟨{ provider := .ofInitial p.2 }, ?_, fun busy => absurd rfl busy, rfl⟩
  rw [sources, List.getElem?_map, given]
  rfl

/-- A provider refuses to end the registration that its feed ends. -/
def Refuses (i : Nat) (m : Moment (World V H R) (WorldLabel V H R) (HubEffect V H)) : Prop :=
  ∃ failure, m.before.hubLabel? m.label = some (.hear i (.unregistered (.error failure)))

theorem arises_step {l : WorldLabel V H R} {r : Result V H R} {plans : List (FeedPlan V)}
    (arises : Hub.Arises plans tenure w.hub) (lets : tenure.Lets l) (made : w.step l = some r) :
    Hub.Arises plans tenure r.state.hub := by
  rcases step_hub made with ⟨hl, is, step⟩ | ⟨-, hub, -⟩
  · exact arises.step (allows_of_lets lets is) step
  · exact hub ▸ arises

section Runs

variable {plans : List (FeedPlan V)} (arises : Hub.Arises plans tenure w.hub) (lets : ∀ l ∈ labels, tenure.Lets l)
  (ran : run World.step labels w = some (v, es)) (there : w.hub.feeds[i]? = some f) (known : w.sources[i]? = some s)
include arises lets ran there known

/-- **An orphaned callback stays orphaned** for the rest of a run, and no registration is accepted. -/
theorem orphaned_of_run (a : Orphaned tenure installed f s) :
    (∃ g s', v.hub.feeds[i]? = some g ∧ v.sources[i]? = some s' ∧ Orphaned tenure installed g s') ∧
      ∀ m ∈ trail World.step labels w, ∀ registration,
        m.before.hubLabel? m.label ≠ some (.hear i (.registered (.ok registration))) := by
  induction labels generalizing w es f s with
  | nil =>
    cases ran
    exact ⟨⟨f, s, there, known, a⟩, fun _ mem => (List.not_mem_nil mem).elim⟩
  | cons l rest ih =>
    obtain ⟨r, later, made, onward, rfl⟩ := run_cons.1 ran
    have lets' := lets l List.mem_cons_self
    obtain ⟨f', s', there', known', turn⟩ := turn_of_step arises lets' made there known
    obtain ⟨orderly, tidy, -⟩ := arises.kept there
    obtain ⟨refused, -, a⟩ := a.turn orderly tidy turn
    obtain ⟨final, later⟩ := ih (arises_step arises lets' made) (fun l hl => lets l (List.mem_cons_of_mem _ hl)) onward
      there' known' a
    rw [trail_cons made]
    exact ⟨final, List.forall_mem_cons.2 ⟨refused, later⟩⟩

/-- **A feed and its provider agree** until the provider refuses to end a registration, and from then on its
callback is orphaned. -/
theorem agrees_of_run (a : Agrees tenure f s) :
    ∃ g s', v.hub.feeds[i]? = some g ∧ v.sources[i]? = some s' ∧
      ((∀ m ∈ trail World.step labels w, ¬ Refuses i m) ∧ Agrees tenure g s' ∨
        (∃ m ∈ trail World.step labels w, Refuses i m) ∧ ∃ installed, Orphaned tenure installed g s') := by
  induction labels generalizing w es f s with
  | nil =>
    cases ran
    exact ⟨f, s, there, known, .inl ⟨fun _ mem => (List.not_mem_nil mem).elim, a⟩⟩
  | cons l rest ih =>
    obtain ⟨r, later, made, onward, rfl⟩ := run_cons.1 ran
    have lets' := lets l List.mem_cons_self
    have rest' : ∀ l ∈ rest, tenure.Lets l := fun l hl => lets l (List.mem_cons_of_mem _ hl)
    obtain ⟨f', s', there', known', turn⟩ := turn_of_step arises lets' made there known
    obtain ⟨orderly, tidy, -⟩ := arises.kept there
    have next := arises_step arises lets' made
    rw [trail_cons made]
    rcases a.turn orderly tidy turn with ⟨ended, a⟩ | ⟨refused, installed, -, -, orphaned⟩
    · have ended : ¬ Refuses i ⟨w, l, r⟩ := fun ⟨failure, told⟩ => ended failure told
      obtain ⟨g, s'', final, source, outcome⟩ := ih next rest' onward there' known' a
      refine ⟨g, s'', final, source, outcome.imp ?_ ?_⟩
      · exact fun ⟨unrefused, a⟩ => ⟨List.forall_mem_cons.2 ⟨ended, unrefused⟩, a⟩
      · exact fun ⟨⟨m, mem, refuses⟩, orphaned⟩ => ⟨⟨m, List.mem_cons_of_mem _ mem, refuses⟩, orphaned⟩
    · obtain ⟨⟨g, s'', final, source, orphaned⟩, -⟩ := orphaned_of_run next rest' onward there' known' orphaned
      exact ⟨g, s'', final, source, .inr ⟨⟨_, List.mem_cons_self, refused⟩, installed, orphaned⟩⟩

end Runs

/-! ### Attempts to activate a feed whose provider keeps an orphaned callback -/

/-- **An attempt to activate a feed**: a run that begins with a request that starts an activation, and ends
with the step that answers it. -/
structure Attempt (i : Nat) (v : World V H R) (labels : List (WorldLabel V H R)) (v' : World V H R)
    (es : List (HubEffect V H)) (a : Answer) : Prop where
  /-- The world runs. -/
  ran : run World.step labels v = some (v', es)
  /-- A request starts an activation. -/
  starts : ∃ hl rest fl h g, v.hubLabels labels = hl :: rest ∧ v.hub.Serves hl i fl h ∧
    v.hub.feeds[i]? = some g ∧ g.Activates fl
  /-- The activation is answered. -/
  answered : Hub.Finishes i v.hub (v.hubLabels labels) v'.hub es a

/-- What passes between a feed and its provider in the course of a world's run. -/
def eventsOf (i : Nat) (past : List (Moment (World V H R) (WorldLabel V H R) (HubEffect V H))) : List (Event R) :=
  (past.filterMap hubMoment?).flatMap (Hub.eventsAt i)

theorem hear_of_mem_eventsOf {past : List (Moment (World V H R) (WorldLabel V H R) (HubEffect V H))}
    {reply : ProviderReply R} (said : .heard reply ∈ eventsOf i past) :
    ∃ m ∈ past, m.before.hubLabel? m.label = some (.hear i reply) := by
  obtain ⟨hm, mem, said⟩ := List.mem_flatMap.1 said
  obtain ⟨m, there, is⟩ := List.mem_filterMap.1 mem
  obtain ⟨hl, label, rfl⟩ := Option.map_eq_some_iff.1 is
  have heard : hl = .hear i reply := Hub.hear_of_mem_eventsAt said
  exact ⟨m, there, heard ▸ label⟩

/-- **As long as a provider keeps an orphaned callback, every attempt to activate its feed fails**, and if
the query and the decoding succeed it fails because the registration is refused. -/
theorem attempt_fails_of_orphaned {plans : List (FeedPlan V)} (arises : Hub.Arises plans tenure v.hub)
    (lets : ∀ l ∈ labels, tenure.Lets l) (there : v.hub.feeds[i]? = some f) (known : v.sources[i]? = some s)
    (orphaned : Orphaned tenure installed f s) {v' : World V H R} {a : Answer} (attempt : Attempt i v labels v' es a) :
    (∃ failure, a = .failed failure) ∧
      ∀ payload tail, eventsOf i (trail World.step labels v) = pulled payload ++ tail →
        ∃ failure, a = .failed (.registerFailed f.kind failure) := by
  obtain ⟨ran, ⟨hl, rest, fl, h, g, begins, serves, there', activates⟩, answered⟩ := attempt
  obtain rfl := Option.some.inj (there.symm.trans there')
  obtain ⟨-, same, allowed⟩ := run_hub ran
  have allowed := allowed tenure lets
  rw [begins] at answered same allowed
  obtain ⟨own, g, fes, -, fin, mirrors⟩ := answered.mirrors_of_serves arises allowed there serves
  obtain ⟨orderly, tidy, past, books⟩ := arises.kept there
  have said : eventsOf i (trail World.step labels v) = (trail Feed.step (fl :: own) f).flatMap Feed.events := by
    rw [eventsOf, ← same]
    exact mirrors.events_eq
  rw [said]
  cases Feed.attempted_of_finishes orderly tidy books activates fin with
  | queryFailed events =>
    refine ⟨⟨_, rfl⟩, fun payload tail eq => ?_⟩
    simp [events, pulled] at eq
  | decodeFailed events =>
    refine ⟨⟨_, rfl⟩, fun payload tail eq => ?_⟩
    simp [events, pulled] at eq
  | registerFailed => exact ⟨⟨_, rfl⟩, fun _ _ _ => ⟨_, rfl⟩⟩
  | @activated _ _ registration events =>
    -- the provider would have accepted a registration
    have heard : .heard (.registered (.ok registration)) ∈ eventsOf i (trail World.step labels v) := by
      rw [said, events]
      simp
    obtain ⟨m, mem, told⟩ := hear_of_mem_eventsOf heard
    exact absurd told ((orphaned_of_run arises lets ran there known orphaned).2 m mem registration)

section Denied

variable {failure : ProviderFailure} {g : Feed V H R} {fes : List (FeedEffect V)} {a : Answer}

/-- What is under way in a feed moves on in its world, where the provider denies a registration. -/
theorem exists_run_of_step {fl : FeedLabel V H R} {fr : Feed.Result V H R} (inner : fl.IsInner (· = .registered (.error failure)))
    (made : f.step fl = some fr) (there : w.hub.feeds[i]? = some f) (known : w.sources[i]? = some s)
    (denies : s.Denies failure) :
    ∃ labels u hl, (∀ l ∈ labels, l.IsOwn) ∧ run World.step labels w = some (u, (w.hub.afterFeed i fr).effects) ∧
      w.hubLabels labels = [hl] ∧ fl.InHub i hl ∧ u.hub = (w.hub.afterFeed i fr).state ∧
      (fr.state.holder ≠ none → ∃ s', u.sources[i]? = some s' ∧ s'.Denies failure) := by
  have lt := (List.getElem?_eq_some_iff.1 known).1
  cases fl with
  | advance move =>
    obtain ⟨step, -⟩ := Hub.step_inHub (h := w.hub) .advance there made
    have onHub : w.step (.move (.advance i move)) = w.onHub (.move (.advance i move)) := rfl
    have made : w.step (.move (.advance i move)) = some _ := onHub.trans (by rw [onHub_of_step step])
    have after := sources_onHub made known
    exact ⟨[.move (.advance i move)], _, _, by simp [WorldLabel.IsOwn], run_singleton made,
      hubLabels_of_some made rfl, .advance, takeBack_hub .., fun _ => ⟨_, after, denies.released _⟩⟩
  | hear reply =>
    obtain rfl : reply = .registered (.error failure) := inner
    obtain ⟨purpose, held, free⟩ : ∃ purpose, f.holder = some (.registering purpose) ∧ fr.state.holder = none := by
      cases Feed.transition_of_step made with
      | registerFailed held => exact ⟨_, held, rfl⟩
    obtain ⟨step, -⟩ := Hub.step_inHub (h := w.hub) .hear there made
    -- the refusal is on its way to the feed
    have arrives : ∀ {u : World V H R} {provider}, u.hub = w.hub →
        u.sources[i]? = some ⟨provider, some (.error failure)⟩ →
        ∃ v, u.step (.registered i) = some v ∧ v.effects = (w.hub.afterFeed i fr).effects ∧
          v.state.hub = (w.hub.afterFeed i fr).state ∧
          u.hubLabel? (.registered i) = some (.hear i (.registered (.error failure))) := by
      intro u provider same travels
      have step : u.hub.step (.hear i (.registered (.error failure))) = some (w.hub.afterFeed i fr) := by rw [same, step]
      have made := onHub_of_step (w := { u with sources := u.sources.set i ⟨provider, none⟩ }) step
      refine ⟨_, by simpa only [World.step, travels] using made, rfl, ?_, by rw [hubLabel?, travels]; rfl⟩
      exact takeBack_hub ..
    obtain ⟨provider, reply⟩ := s
    rcases denies with rfl | ⟨rfl, refuses⟩
    · obtain ⟨v, made, effects, hub, label⟩ := arrives rfl known
      refine ⟨[.registered i], v.state, _, by simp [WorldLabel.IsOwn], ?_, hubLabels_of_some made label, .hear, hub,
        fun busy => absurd free busy⟩
      rw [run_singleton made, effects]
    · have asked : w.step (.register i) = some { state :=
          { w with sources := w.sources.set i ⟨(provider.register f.epoch).2, some (provider.register f.epoch).1⟩ } } := by
        have held : w.holder? i = some (.registering purpose) := by rw [holder?, there, Option.bind_some, held]
        simp only [World.step, known, there, held]
      obtain ⟨v, made, effects, hub, label⟩ := arrives
        (u := { w with sources := w.sources.set i ⟨(provider.register f.epoch).2, some (provider.register f.epoch).1⟩ }) rfl
        (by rw [← refuses f.epoch]; exact List.getElem?_set_self lt)
      refine ⟨[.register i, .registered i], v.state, _, by simp [WorldLabel.IsOwn], ?_,
        (hubLabels_of_none asked rfl).trans (hubLabels_of_some made label), .hear, hub, fun busy => absurd free busy⟩
      exact run_cons.2 ⟨_, _, asked, run_singleton made, effects.symm⟩
  | _ => exact inner.elim

/-- **What a feed can do until a registration is denied** it can do in its world. -/
theorem exists_run_of_finishes {own : List (FeedLabel V H R)} (fin : Feed.Finishes f own g fes a)
    (inner : ∀ l ∈ own, l.IsInner (· = .registered (.error failure))) (there : w.hub.feeds[i]? = some f)
    (known : w.sources[i]? = some s) (denies : s.Denies failure) :
    ∃ labels v es, (∀ l ∈ labels, l.IsOwn) ∧ run World.step labels w = some (v, es) ∧
      Hub.Finishes i w.hub (w.hubLabels labels) v.hub es a := by
  induction fin generalizing w s with
  | last made free answered =>
    obtain ⟨labels, u, hl, own, ran, label, inHub, hub, -⟩ :=
      exists_run_of_step (inner _ List.mem_cons_self) made there known denies
    obtain ⟨step, serves, -, after⟩ := Hub.step_inHub inHub there made
    refine ⟨labels, u, _, own, ran, ?_⟩
    rw [label, hub]
    exact .last step serves after free answered
  | more made busy onward ih =>
    obtain ⟨labels, u, hl, own, ran, label, inHub, hub, denied⟩ :=
      exists_run_of_step (inner _ List.mem_cons_self) made there known denies
    obtain ⟨step, serves, -, after⟩ := Hub.step_inHub inHub there made
    obtain ⟨s', known', denies'⟩ := denied busy
    obtain ⟨more, v, es, own', ran', fin⟩ :=
      ih (fun l hl => inner l (List.mem_cons_of_mem _ hl)) (hub ▸ after) known' denies'
    refine ⟨labels ++ more, v, _, fun l hl => (List.mem_append.1 hl).elim (own l) (own' l),
      run_append.2 ⟨_, _, _, ran, ran', rfl⟩, ?_⟩
    rw [hubLabels_append ran, label]
    exact .more step after busy (hub ▸ fin)

end Denied

/-! ### The agreement -/

/-- **A provider shuts its feed out**: it keeps a callback whose epoch is out of date, the feed has no
registration, and every attempt to activate the feed fails. -/
structure ShutsOut (tenure : Tenure) (i : Nat) (installed : Registration × Nat) (v : World V H R) : Prop where
  /-- The provider keeps the callback, which is of no use to the feed. -/
  keeps : ∃ g s, v.hub.feeds[i]? = some g ∧ v.sources[i]? = some s ∧ s.provider.callback = some installed ∧
    g.registration = none ∧ Outdated tenure g installed.2
  /-- An attempt to activate the feed fails, and if its query and its decoding succeed it fails because the
  registration is refused. -/
  attempts : ∀ g labels v' es a, v.hub.feeds[i]? = some g → (∀ l ∈ labels, tenure.Lets l) →
    Attempt i v labels v' es a → (∃ failure, a = .failed failure) ∧
      ∀ payload tail, eventsOf i (trail World.step labels v) = pulled payload ++ tail →
        ∃ failure, a = .failed (.registerFailed g.kind failure)
  /-- And it can be brought to that end once the payload is decoded. -/
  ends : ∀ g purpose, v.hub.feeds[i]? = some g → g.pull? = some purpose →
    g.stage = .decoded ∨ g.stage = .registering →
    ∃ rest v' es a, (∀ l ∈ rest, l.IsOwn) ∧ run World.step rest v = some (v', es) ∧
      Hub.Finishes i v.hub (v.hubLabels rest) v'.hub es a

theorem shutsOut_of_orphaned {plans : List (FeedPlan V)} (arises : Hub.Arises plans tenure v.hub)
    (there : v.hub.feeds[i]? = some f) (known : v.sources[i]? = some s) (orphaned : Orphaned tenure installed f s) :
    ShutsOut tenure i installed v := by
  obtain ⟨orderly, tidy, -⟩ := arises.kept there
  refine ⟨⟨f, s, there, known, orphaned.callback, orphaned.registration_eq orderly tidy, orphaned.outdated⟩, ?_, ?_⟩
  · intro g labels v' es a there' lets attempt
    obtain rfl := Option.some.inj (there.symm.trans there')
    exact attempt_fails_of_orphaned arises lets there known orphaned attempt
  · intro g purpose there' pulls past
    obtain rfl := Option.some.inj (there.symm.trans there')
    obtain ⟨failure, denies⟩ := orphaned.denies
    obtain ⟨own, k, fes, a, inner, fin⟩ := Feed.canFinish_of_pull (p := (· = .registered (.error failure))) orderly tidy
      pulls (fun queries => by simp [queries] at past) ⟨_, rfl⟩
    obtain ⟨rest, v', es, own, ran, finHub⟩ := exists_run_of_finishes fin inner there known denies
    exact ⟨rest, v', es, a, own, ran, finHub⟩

/-- A feed and its provider agree, however far their world has come, or the callback is orphaned. -/
theorem Opens.agrees_of_run (opens : Opens plans tenure start) (lets : ∀ l ∈ labels, tenure.Lets l)
    (ran : run World.step labels start = some (w, es)) (there : w.hub.feeds[i]? = some f) :
    Hub.Arises (plans.map (·.1)) tenure w.hub ∧ ∃ s, w.sources[i]? = some s ∧
      ((∀ m ∈ trail World.step labels start, ¬ Refuses i m) ∧ Agrees tenure f s ∨
        (∃ m ∈ trail World.step labels start, Refuses i m) ∧ ∃ installed, Orphaned tenure installed f s) := by
  have opened : Hub.Arises (plans.map (·.1)) tenure start.hub := .opened opens.eq.1
  obtain ⟨ranHub, -, allowed⟩ := run_hub ran
  have lt : i < start.hub.feeds.length := length_feeds_of_run ran ▸ (List.getElem?_eq_some_iff.1 there).1
  obtain ⟨first, known, agrees⟩ := opens.agrees (List.getElem?_eq_getElem lt)
  obtain ⟨g, s, there', known', outcome⟩ :=
    World.agrees_of_run opened lets ran (List.getElem?_eq_getElem lt) known agrees
  obtain rfl := Option.some.inj (there.symm.trans there')
  exact ⟨opened.run (allowed tenure lets) ranHub, s, known', outcome⟩

/-- **A feed and its provider agree on who is registered**, and a refusal to end a registration is final.
Whatever clients, workers and decoders have done, and whatever calls were refused:

* if the state lock is free and the feed is active, the provider's callback is the one that was installed under
  the feed's registration, and it carries the current epoch;
* if the state lock is free, the feed is inactive and no end of a registration was refused, the provider has no
  callback;
* if the provider refuses to end a registration, it keeps the callback of this registration and shuts the feed
  out for as long as the world goes on. -/
theorem registrations_agree (opens : Opens plans tenure start) (lets : ∀ l ∈ labels, tenure.Lets l)
    (ran : run World.step labels start = some (w, es)) (there : w.hub.feeds[i]? = some f) :
    ∃ s, w.sources[i]? = some s ∧
      (f.holder = none → ∀ registration, f.registration = some registration →
        s.provider.callback = some (registration, f.epoch)) ∧
      (f.holder = none → f.registration = none → (∀ m ∈ trail World.step labels start, ¬ Refuses i m) →
        s.provider.callback = none) ∧
      ∀ l r, tenure.Lets l → w.step l = some r → Refuses i ⟨w, l, r⟩ →
        ∃ installed, s.provider.callback = some installed ∧ f.stage = .unregistering installed.1 ∧
          ∀ later v es', (∀ l ∈ later, tenure.Lets l) → run World.step later r.state = some (v, es') →
            ShutsOut tenure i installed v := by
  obtain ⟨arises, s, known, outcome⟩ := opens.agrees_of_run lets ran there
  obtain ⟨orderly, tidy, -⟩ := arises.kept there
  have between : f.holder = none → f.stage = .between f.registration := fun free => by rw [Feed.stage, free]
  refine ⟨s, known, fun free registration active => ?_, fun free inactive unrefused => ?_, ?_⟩
  · rcases outcome with ⟨-, agrees⟩ | ⟨-, installed, orphaned⟩
    · have callback := agrees.callback
      rwa [between free, active] at callback
    · exact absurd (by rw [between free, active]; rfl) (orphaned.unregistered registration).1
  · rcases outcome with ⟨-, agrees⟩ | ⟨⟨m, mem, refuses⟩, -⟩
    · have callback := agrees.callback
      rwa [between free, inactive] at callback
    · exact absurd refuses (unrefused m mem)
  · rintro l r lets' made ⟨failure, told⟩
    obtain ⟨f', s', there', known', turn⟩ := turn_of_step arises lets' made there known
    rcases outcome with ⟨-, agrees⟩ | ⟨-, installed, orphaned⟩
    · rcases agrees.turn orderly tidy turn with ⟨ended, -⟩ | ⟨-, installed, callback, ending, orphaned⟩
      · exact absurd told (ended failure)
      refine ⟨installed, callback, ending, fun later v es' lets'' onward => ?_⟩
      have next := arises_step arises lets' made
      obtain ⟨ranHub, -, allowed⟩ := run_hub onward
      obtain ⟨⟨g, s'', final, source, orphaned⟩, -⟩ := orphaned_of_run next lets'' onward there' known' orphaned
      exact shutsOut_of_orphaned (next.run (allowed tenure lets'') ranHub) final source orphaned
    · exact absurd told ((orphaned.turn orderly tidy turn).2.1 _)

end World

namespace Lamp

/-- A hub over a lamp, and the lamp's provider. -/
def world : World Value Unit Unit := { hub, sources := [{ provider := .ofInitial () }] }

/-- Somebody subscribes to the lamp, and the provider accepts the registration. -/
def registration : List (WorldLabel Value Unit Unit) :=
  [.move (.draw key ()), .move (.subscribe ⟨1⟩), .query 0, .move (.advance 0 (.decoded (.ok ⟨[emission true]⟩))),
    .move (.advance 0 .seed), .move (.advance 0 .write), .move (.advance 0 .settle), .register 0, .registered 0]

/-- The subscription ends, and the provider is armed to refuse the end of the registration. -/
def withdrawal : List (WorldLabel Value Unit Unit) :=
  [.refuse 0 .unregister "stuck", .move (.unsubscribe key.id ⟨1⟩), .move (.advance 0 .withdraw)]

end Lamp

/-- Once somebody is subscribed to the lamp, its provider has the callback of the registration that the feed holds. If
the provider refuses to end that registration, it has the callback ever after. -/
theorem World.lamp_is_stuck :
    (∃ w es f s, run World.step Lamp.registration Lamp.world = some (w, es) ∧ w.hub.feeds[0]? = some f ∧
      f.holder = none ∧ f.registration = some ⟨1⟩ ∧ w.sources[0]? = some s ∧
      s.provider.callback = some (⟨1⟩, f.epoch)) ∧
    ∃ w es r epoch, run World.step (Lamp.registration ++ Lamp.withdrawal) Lamp.world = some (w, es) ∧
      w.step (.unregister 0 (.client 0)) = some r ∧ Refuses 0 ⟨w, .unregister 0 (.client 0), r⟩ ∧
      ∀ later v es', (∀ l ∈ later, l.IsOwn) → run World.step later r.state = some (v, es') →
        ShutsOut .hub 0 (⟨1⟩, epoch) v := by
  have start : assemble {} [(Lamp.plan, ())] = .ok Lamp.world := rfl
  have opens : Opens [(Lamp.plan, ())] .hub Lamp.world := .assembled start
  constructor
  · obtain ⟨w, es, f, ran, there, free, active⟩ : ∃ w es f, run World.step Lamp.registration Lamp.world = some (w, es) ∧
        w.hub.feeds[0]? = some f ∧ f.holder = none ∧ f.registration = some ⟨1⟩ := ⟨_, _, _, rfl, rfl, rfl, rfl⟩
    obtain ⟨s, known, agrees, -⟩ := registrations_agree opens
      (by simp [Lamp.registration, Tenure.Lets, WorldLabel.IsOwn]) ran there
    exact ⟨w, es, f, s, ran, there, free, active, known, agrees free _ active⟩
  · obtain ⟨w, es, f, r, ran, there, ending, made, refuses⟩ : ∃ w es f r,
        run World.step (Lamp.registration ++ Lamp.withdrawal) Lamp.world = some (w, es) ∧ w.hub.feeds[0]? = some f ∧
        f.stage = .unregistering ⟨1⟩ ∧ w.step (.unregister 0 (.client 0)) = some r ∧
        Refuses 0 ⟨w, .unregister 0 (.client 0), r⟩ := ⟨_, _, _, _, rfl, rfl, rfl, rfl, ⟨"stuck"⟩, rfl⟩
    obtain ⟨s, known, -, -, final⟩ := registrations_agree opens
      (by simp [Lamp.registration, Lamp.withdrawal, Tenure.Lets, WorldLabel.IsOwn]) ran there
    obtain ⟨⟨registration, epoch⟩, -, same, stuck⟩ :=
      final (.unregister 0 (.client 0)) r trivial made refuses
    obtain rfl : (⟨1⟩ : Registration) = registration := by simpa using ending.symm.trans same
    exact ⟨w, es, r, epoch, ran, made, refuses, stuck⟩

end LazyHub
