import LazyHub.Proofs.Session.Outcomes
import LazyHub.Proofs.Session.Playing

/-!
# Feeds do not interfere

The feeds of a hub share its tokens, its workers and their queues, and are shut down together. Nothing of that shows
at a feed: if two scripts agree in what concerns one feed, then played at new hubs they have the same answers to what
concerns it, and there is the same to see of it, whatever they do elsewhere, whatever fails there, and however many
workers there are (`Session.feeds_do_not_interfere`). Both are compared with what concerns the feed, played alone.
-/

namespace LazyHub

variable {V H R : Type} [SignalValue V] {settings settings' : Settings} {plans : List (FeedPlan V × R)} {start start' : World V H R}

namespace Session

/-- A session at a world in which nothing was told so far. -/
def opening (w : World V H R) : Session V H R (List (Heard V H)) := { world := w, memory := [] }

theorem steady_of_assemble (assembled : World.assemble settings plans = .ok start) :
    Steady settings (plans.map (·.1)) [] (opening start) := by
  obtain ⟨calm, -⟩ := World.calm_of_still assembled (.refl _) (World.isStill_of_assemble assembled)
  obtain ⟨-, hub⟩ := Hub.eq_of_assemble (World.hub_of_assemble assembled)
  refine ⟨calm, ?_, ?_, List.forall_mem_nil _, List.forall_mem_nil _⟩
  · exact World.isReady_of_assemble assembled
  · rw [opening, hub]
    rfl

/-- New hubs over the same providers mirror each other. -/
theorem tied_of_assemble (assembled : World.assemble settings plans = .ok start)
    (assembled' : World.assemble settings' plans = .ok start') (K : Option Nat → Bool) :
    Tied K (fun _ => False) start.hub (fun _ => 0) settings settings' (plans.map (·.1)) (plans.map (·.1)) [] [] (opening start)
      (opening start') := by
  obtain ⟨-, hub⟩ := Hub.eq_of_assemble (World.hub_of_assemble assembled)
  obtain ⟨-, hub'⟩ := Hub.eq_of_assemble (World.hub_of_assemble assembled')
  obtain ⟨-, sources⟩ := (World.Opens.assembled assembled).eq
  obtain ⟨-, sources'⟩ := (World.Opens.assembled assembled').eq
  have feeds : start'.hub.feeds = start.hub.feeds := by rw [hub, hub']
  have kept : ∀ o : Outlet V H, o.renumber asIs = o := fun o => by
    simp [Outlet.renumber, Subscribers.renumber, Token.renumber]
  refine ⟨⟨asIs, rfl, fun k x _ has => ⟨x, ⟨?_, ?_⟩, rfl, ?_, rfl, rfl, rfl, ?_⟩, fun k signal _ => ?_, fun k signal _ _ => rfl,
    rfl, fun n => ?_, fun _ => False.elim⟩, steady_of_assemble assembled, steady_of_assemble assembled', rfl, ?_⟩
  · exact feeds ▸ has.feed
  · exact (sources'.trans sources.symm) ▸ has.source
  · rw [funext kept]
    exact (List.map_id _).symm
  · exact x.source.provider.map_id'.symm
  · exact (Hub.waiting_of_drained (World.queue_of_assemble assembled') k signal).trans
      (Hub.waiting_of_drained (World.queue_of_assemble assembled) k signal).symm
  · have next : start'.hub.nextToken = start.hub.nextToken := by rw [hub, hub']
    exact (congrArg (· + n) next).symm
  · exact congrArg (List.map Feed.keys) feeds

/-- **Feeds do not interfere.** Two scripts that agree in what concerns a feed have the same answers to it, and there
is the same to see of the feed after each such deed, and in the end. Subscriptions to the feed's signals are ended by
the tokens that were drawn for them. -/
theorem feeds_do_not_interfere (assembled : World.assemble settings plans = .ok start)
    (assembled' : World.assemble settings' plans = .ok start') (catches : settings.catches = true)
    (catches' : settings'.catches = true) (i : Nat) {dec dec' : Nat → R → Except DecodeFailure (Emissions V)}
    (same : dec' i = dec i) (panics panics' : List (Heard V H) → Heard V H → Bool) {script script' : List (Deed R H)}
    (fair : ∀ deed ∈ script, deed.IsFair (· == some i) (fun _ => False) start.hub)
    (fair' : ∀ deed ∈ script', deed.IsFair (· == some i) (fun _ => False) start.hub)
    (alike : script'.filter (·.concerns (· == some i) start.hub) = script.filter (·.concerns (· == some i) start.hub)) :
    ∃ scenes scenes' issued issued' t t',
      Ends (fun n => Deed.playAll (Client.hearing dec panics) n script []) (opening start) (scenes, issued) t ∧
      Ends (fun n => Deed.playAll (Client.hearing dec' panics') n script' []) (opening start') (scenes', issued') t' ∧
      (scenes'.filter (·.deed.concerns (· == some i) start.hub)).map (·.only (· == some i)) =
        (scenes.filter (·.deed.concerns (· == some i) start.hub)).map (·.only (· == some i)) ∧
      t'.sights issued' i = t.sights issued i := by
  have here : (some i == some i) = true := beq_self_eq_true _
  have same' : ∀ j, (some j == some i) = true → dec' j = dec j := fun j there => by
    obtain rfl : j = i := by simpa using there
    exact same
  -- what concerns the feed is played alone beside each of the scripts
  obtain ⟨scenes₀, scenes, issued₀, issued, t₀, t, ends₀, ends, shown, tied⟩ :=
    (tied_of_assemble assembled assembled (· == some i)).playAll panics panics catches catches (fun i _ => rfl (a := dec i))
      fair
  obtain ⟨scenes₁, scenes', issued₁, issued', t₁, t', ends₁, ends', shown', tied'⟩ :=
    (tied_of_assemble assembled assembled' (· == some i)).playAll panics panics' catches catches' same' fair'
  rw [alike] at ends₁
  obtain ⟨eq, rfl⟩ := ends₀.unique ends₁
  obtain ⟨rfl, rfl⟩ := Prod.mk.inj eq
  exact ⟨scenes, scenes', issued, issued', t, t', ends, ends', shown'.trans shown.symm,
    (tied'.sights_eq here).trans (tied.sights_eq here).symm⟩

end Session

/-! ### The lamp and a fan -/

namespace Lamp

/-- The signal of a fan: whether it is running. -/
def fanKey : Key := ⟨⟨2⟩, "fan", ValueType.truth.name⟩

/-- A hub over the lamp and a fan that is off at first. -/
def besideFan : World Value Unit Bool where
  hub := { feeds := [.ofPlan plan, .ofPlan ⟨⟨"fan"⟩, [⟨fanKey, .truth false⟩]⟩], pool := .ofSize 3 true }
  sources := [{ provider := .ofInitial false }, { provider := .ofInitial false }]

/-- What is made of a payload that says whether the lamp shines, or whether the fan is running. -/
def decodeEither (i : Nat) (on : Bool) : Except DecodeFailure (Emissions Value) :=
  .ok ⟨[if i = 0 then emission on else ⟨fanKey.id, .truth on⟩]⟩

/-- The lamp begins to shine while somebody is subscribed. -/
def evening : List (Deed Bool Unit) := [.subscribe key (), .push 0 true, .flush, .unsubscribe key.id (.made 0 0), .shutdown]

/-- At the same time the fan is subscribed to in vain at first, and then runs. -/
def hotEvening : List (Deed Bool Unit) :=
  [.refuse 1 .register "hot", .subscribe fanKey (), .subscribe key (), .subscribe fanKey (), .push 1 true, .push 0 true, .flush,
    .set 1 false, .unsubscribe key.id (.made 0 0), .shutdown]

end Lamp

/-- What there is to see of the lamp after each deed: how many are subscribed, and who was told whether it shines. -/
def Lamp.seen (scenes : List (Scene Value Unit Bool)) : List (Nat × List (Option Nat × Bool)) :=
  scenes.filterMap fun scene => (scene.sights 0).map fun x =>
    (x.subscriptions, x.signals.flatMap (·.told.map fun told => (told.1, SignalValue.same told.2.2 (.truth true))))

/-- Who is subscribed to the lamp is told that it shines, and then is no longer subscribed, whatever is the matter with the
fan, and although every subscriber panics. -/
theorem Session.lamp_does_not_mind_fan :
    ∃ scenes issued t,
      Ends (fun n => Deed.playAll (Client.hearing Lamp.decodeEither fun _ _ => true) n Lamp.hotEvening [])
        (opening Lamp.besideFan) (scenes, issued) t ∧
      Lamp.seen (scenes.filter (·.deed.concerns (· == some 0) Lamp.besideFan.hub)) =
        [(1, []), (1, []), (1, [(some 0, true)]), (0, [(some 0, true)]), (0, [(some 0, true)])] := by
  have assembled : World.assemble { workers := 3 } [(Lamp.plan, false), (⟨⟨"fan"⟩, [⟨Lamp.fanKey, .truth false⟩]⟩, false)] =
      .ok Lamp.besideFan := rfl
  have fair : ∀ script : List (Deed Bool Unit), script = Lamp.evening ∨ script = Lamp.hotEvening →
      ∀ deed ∈ script, deed.IsFair (· == some 0) (fun _ => False) Lamp.besideFan.hub := by
    rintro _ (rfl | rfl) <;> simp [Lamp.evening, Lamp.hotEvening, Deed.IsFair]
  obtain ⟨scenes, scenes', issued, issued', t, t', ends, ends', same, -⟩ :=
    feeds_do_not_interfere assembled assembled rfl rfl 0 (rfl : Lamp.decodeEither 0 = _)
      (fun _ _ => false) (fun _ _ => true) (fair _ (.inl rfl)) (fair _ (.inr rfl)) rfl
  refine ⟨scenes', issued', t', ends', ?_⟩
  have only : ∀ l : List (Scene Value Unit Bool), Lamp.seen (l.map (·.only (· == some 0))) = Lamp.seen l := fun l => by
    rw [Lamp.seen, List.filterMap_map, Lamp.seen]
    rfl
  rw [← only, same, only]
  -- without the fan it can be seen by playing the script
  have ran : (Deed.playAll (Client.hearing Lamp.decodeEither fun _ _ => false) 9 Lamp.evening [] (opening Lamp.besideFan)).map
      (fun p => Lamp.seen (p.1.1.filter (·.deed.concerns (· == some 0) Lamp.besideFan.hub))) =
        some [(1, []), (1, []), (1, [(some 0, true)]), (0, [(some 0, true)]), (0, [(some 0, true)])] := by decide +kernel
  obtain ⟨⟨a, u⟩, ran, seen⟩ := Option.map_eq_some_iff.1 ran
  obtain ⟨rfl, -⟩ := ends.unique (Deed.ends_of_playAll ran)
  exact seen

end LazyHub
