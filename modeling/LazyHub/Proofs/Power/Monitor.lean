import LazyHub.Power.Monitor
import LazyHub.Proofs.Feed.Payload
import LazyHub.Proofs.Hub.Reading
import LazyHub.Proofs.Power.Reports
import LazyHub.Proofs.Session.Outcomes

/-!
# The wiring of a power monitor

Whatever kinds of provider a monitor is given, it can be assembled (`exists_assemble`), since no two signals
of the catalog have one identity. A kind's feed is where `Sources.feedOf?` says, the signals of the kind are
routed there (`route_of_present`), and the others to nowhere (`route_of_absent`). What a declared payload is
decoded to may be written to the feed of its kind, and to no avail is another (`Sorts`).

`Monitor.IsWired` gathers what the clients of a monitor can rely on when nothing is under way: which reads and
subscriptions find their signal, which provider a subscription registers, and what becomes of a payload that is
pulled or pushed.
-/

namespace LazyHub.Power

variable {H X : Type}

/-! ### Feeds and kinds -/

namespace Sources

variable {s : Sources} {k : SourceKind} {i : Nat}

theorem map_plans (s : Sources) : s.plans.map (·.1) = s.present.map SourceKind.plan := by
  unfold plans present
  induction SourceKind.all with
  | nil => rfl
  | cons k rest ih => cases given : s k <;> simp [given, ih]

theorem mem_present : k ∈ s.present ↔ (s k).isSome := by
  simp [present, k.mem_all]

theorem nodup_present (s : Sources) : s.present.Nodup :=
  List.filter_sublist.nodup (by decide : SourceKind.all.Nodup)

/-- No signal is declared twice. -/
theorem nodup_declared (s : Sources) : (Hub.declared (s.plans.map (·.1))).Nodup := by
  have all : (Hub.declared (SourceKind.all.map SourceKind.plan)).Nodup := by decide
  have some' : s.present.Sublist SourceKind.all := List.filter_sublist
  rw [map_plans]
  exact all.sublist ((some'.map SourceKind.plan).flatMap _)

theorem feedOf?_eq_some_iff : s.feedOf? k = some i ↔ s.present[i]? = some k := by
  rw [feedOf?, List.findIdx?_eq_some_iff_getElem]
  constructor
  · rintro ⟨lt, here, -⟩
    rw [List.getElem?_eq_getElem lt, of_decide_eq_true here]
  · intro there
    obtain ⟨lt, here⟩ := List.getElem?_eq_some_iff.1 there
    refine ⟨lt, by simp [here], fun j before same => ?_⟩
    have lt' : j < s.present.length := by omega
    have eq : s.present[j] = s.present[i] := (of_decide_eq_true same).trans here.symm
    have eq := s.nodup_present.getElem_inj_iff.1 eq
    omega

theorem exists_feedOf? (given : (s k).isSome) : ∃ i, s.feedOf? k = some i := by
  obtain ⟨i, there⟩ := List.mem_iff_getElem?.1 (mem_present.2 given)
  exact ⟨i, feedOf?_eq_some_iff.2 there⟩

theorem isSome_of_feedOf? (there : s.feedOf? k = some i) : (s k).isSome :=
  mem_present.1 (List.mem_of_getElem? (feedOf?_eq_some_iff.1 there))

/-- Different kinds have different feeds. -/
theorem feedOf?_inj {k' : SourceKind} (there : s.feedOf? k = some i) (there' : s.feedOf? k' = some i) : k = k' :=
  Option.some.inj ((feedOf?_eq_some_iff.1 there).symm.trans (feedOf?_eq_some_iff.1 there'))

theorem plan_of_feedOf? (there : s.feedOf? k = some i) : (s.plans.map (·.1))[i]? = some k.plan := by
  rw [map_plans, List.getElem?_map, feedOf?_eq_some_iff.1 there]
  rfl

/-- A kind's provider begins with the payload that was handed over. -/
theorem getElem?_plans (there : s.feedOf? k = some i) {report : Report} (given : s k = some report) :
    s.plans[i]? = some (k.plan, report) := by
  have here : s.present[i]? = some k := feedOf?_eq_some_iff.1 there
  unfold present at here
  unfold plans
  clear there
  generalize SourceKind.all = kinds at here ⊢
  induction kinds generalizing i with
  | nil => cases here
  | cons k' rest ih =>
    cases given' : s k' with
    | none =>
      rw [List.filter_cons_of_neg (by simp [given'])] at here
      rw [List.filterMap_cons_none (by simp [given'])]
      exact ih here
    | some report' =>
      rw [List.filter_cons_of_pos (by simp [given'])] at here
      rw [List.filterMap_cons_some (b := (k'.plan, report')) (by simp [given'])]
      cases i with
      | zero =>
        cases here
        rw [given] at given'
        cases given'
        rfl
      | succ i => exact ih here

end Sources

/-- **A monitor can be assembled** from any providers, if there is a runtime. -/
theorem Monitor.exists_assemble {settings : Settings} (runs : settings.runtime ≠ .absent) (s : Sources) :
    ∃ w : World Value H Report, Monitor.assemble settings s = .ok w := by
  have runtime : settings.requireRuntime = .ok () := by
    unfold Settings.requireRuntime
    split
    · exact absurd ‹_› runs
    · rfl
  have distinct := firstRepeated?_of_nodup s.nodup_declared (fun _ _ => List.not_mem_nil)
  have plans : (s.plans.map fun p => (p.1, (LocalProvider.ofInitial p.2 : LocalProvider Report Nat))).map (·.1) =
      s.plans.map (·.1) := by
    rw [List.map_map]
    rfl
  exact ⟨_, by rw [Monitor.assemble, World.assemble, World.assembleOver, plans, Hub.assemble, runtime, distinct]; rfl⟩

/-! ### Signals and feeds -/

section Routes

variable {settings : Settings} {s : Sources} {h : Hub Value H Report} (reachable : Hub.Reachable settings (s.plans.map (·.1)) h)
  {p : PowerSignal} {k : SourceKind} {i : Nat} {f : Feed Value H Report}
include reachable

theorem route_of_present (there : s.feedOf? p.source = some i) : h.route p.key = .ok i := by
  have declares : p.declaration ∈ p.source.plan.signals := List.mem_map_of_mem (PowerSignal.mem_signals.2 rfl)
  obtain ⟨-, -, -, routes⟩ := reachable.route_of_declared (Sources.plan_of_feedOf? there) declares rfl
  exact routes.trans (if_pos rfl)

theorem route_of_absent (absent : s p.source = none) : h.route p.key = .error (.unknownSignal p.key.id) := by
  refine reachable.route_of_undeclared fun declared => ?_
  rw [Sources.map_plans] at declared
  obtain ⟨plan, mem, named⟩ := List.mem_flatMap.1 declared
  obtain ⟨k, present, rfl⟩ := List.mem_map.1 mem
  obtain ⟨d, mem, named⟩ := List.mem_map.1 named
  obtain ⟨q, fed, rfl⟩ := List.mem_map.1 mem
  obtain rfl : q = p := PowerSignal.eq_of_id named
  obtain rfl := PowerSignal.mem_signals.1 fed
  have given := Sources.mem_present.1 present
  rw [absent] at given
  cases given

/-- What suits a kind may be written to the kind's feed. -/
theorem fits_of_suits (there : s.feedOf? k = some i) (known : h.feeds[i]? = some f) {e : Emission Value}
    (suits : Report.Suits k e) : f.Fits e := by
  obtain ⟨p, fed, signal, typed⟩ := suits
  obtain rfl := PowerSignal.mem_signals.1 fed
  have routed := route_of_present reachable there
  obtain ⟨g, known', outlet⟩ := reachable.exists_feed_of_route routed
  obtain rfl := Option.some.inj (known.symm.trans known')
  obtain ⟨o, outlet⟩ := Option.isSome_iff_exists.1 outlet
  obtain ⟨kind, found⟩ := reachable.find?_eq known outlet
  refine ⟨o, signal ▸ outlet, ?_⟩
  simp only [Hub.route, found] at routed
  split at routed
  · rename_i same
    rw [typed, same]
  · cases routed

end Routes

/-- A signal is routed to the feed of the kind that feeds it, if there is a provider, and is unknown otherwise. -/
def Routes (s : Sources) (h : Hub Value H Report) : Prop :=
  ∀ p : PowerSignal, (∀ i, s.feedOf? p.source = some i → h.route p.key = .ok i) ∧
    (s p.source = none → h.route p.key = .error (.unknownSignal p.key.id))

/-- A payload may be written to the feed of its kind if it is declared, and otherwise is not recognized. -/
def Sorts (s : Sources) (h : Hub Value H Report) : Prop :=
  ∀ (k : SourceKind) (i : Nat) (f : Feed Value H Report) (r : Report), s.feedOf? k = some i → h.feeds[i]? = some f → r.kind = k →
    (r.IsDeclared → ∃ out, r.decode = .ok out ∧ f.admissible r.decode = .ok out.toList) ∧
      (¬ r.IsDeclared → ∃ what value, f.admissible r.decode = .error (.unrecognized what value))

/-- **Every payload is sorted** into those that may be written and those that are not recognized. -/
theorem sorts_of_reachable {settings : Settings} {s : Sources} {h : Hub Value H Report}
    (reachable : Hub.Reachable settings (s.plans.map (·.1)) h) : Sorts s h := by
  rintro k i f r there known rfl
  refine ⟨fun declared => ?_, fun undeclared => ?_⟩
  · obtain ⟨out, decodes, suits⟩ := Report.decode_of_declared declared
    refine ⟨out, decodes, ?_⟩
    have fits : f.check out.toList = .ok () :=
      Feed.check_eq_ok_iff.2 fun e mem => fits_of_suits reachable there known (suits e mem)
    rw [decodes, Feed.admissible, fits]
    rfl
  · obtain ⟨what, value, refused⟩ := Report.decode_of_undeclared undeclared
    exact ⟨what, value, by rw [refused]; rfl⟩

/-- What is behind a gate that is offered a value other than a floating-point number. -/
theorem settled_unreal (u : Value) {v : Value} (unreal : v.type ≠ .real) : settled u [v] = v := by
  rw [settled_singleton]
  split
  · rename_i same
    exact eq_of_same unreal same
  · rfl

/-- **What is written of a payload that says everything of its signal** is the value that stands for it. -/
theorem cached?_written {f : Feed Value H Report} {p : PowerSignal} {v : Value} (unreal : v.type ≠ .real)
    (known : (f.cached? p.key.id).isSome) : (f.written [⟨p.key.id, v⟩]).cached? p.key.id = some v := by
  obtain ⟨u, known⟩ := Option.isSome_iff_exists.1 known
  have value : valuesFor p.key.id [(⟨p.key.id, v⟩ : Emission Value)] = [v] := by simp [valuesFor]
  rw [Feed.written, List.foldl_cons, List.foldl_nil, Feed.cached?_writeGate, known, value, Option.map_some, settled_unreal u unreal]

/-! ### What clients can rely on -/

/-- An answer says that a signal is unknown exactly if there is no provider for it, and never that it has another type. -/
def Sources.Answers {α : Type} (s : Sources) (p : PowerSignal) (a : Except HubFailure α) : Prop :=
  ((∃ signal, a = .error (.unknownSignal signal)) ↔ s p.source = none) ∧ ∀ signal type, a ≠ .error (.typeMismatch signal type)

/-- An answer says of a payload what it stands for, as far as one value can, or that it is not recognized. -/
def Report.Tells (r : Report) (a : Except HubFailure Value) : Prop :=
  (r.IsDeclared → ∃ v, a = .ok v ∧ (r.kind ≠ .compositeBattery → Report.encode? v = some r)) ∧
    (¬ r.IsDeclared → ∃ what value, a = .error (.decodeFailed r.kind.kind (.unrecognized what value)))

namespace Monitor

/-- **What the clients of a monitor can rely on** in a session in which nothing is under way. -/
structure IsWired (s : Sources) (c : Client Value H Report X) (σ : Session Value H Report X) : Prop where
  /-- A signal can be read exactly if there is a provider for it. -/
  gets : ∀ p, ∃ a τ, get c p σ = some (a, τ) ∧ s.Answers p a
  /-- A signal can be subscribed to exactly if there is a provider for it; no other provider is asked for anything, and
  this one is registered if the subscription succeeds. -/
  subscribes : ∀ p handler, ∃ a τ, onChange c p handler σ = some (a, τ) ∧ s.Answers p a ∧
    (∀ k i, k ≠ p.source → s.feedOf? k = some i → τ.world.sources[i]? = σ.world.sources[i]?) ∧
    ∀ token i, a = .ok token → s.feedOf? p.source = some i →
      ∃ t, τ.world.sources[i]? = some t ∧ t.provider.isRegistered
  /-- A read of an inactive kind tells what its provider's current payload stands for. -/
  pulls : ∀ (p : PowerSignal) (i : Nat) (x : Site Value H Report), s.feedOf? p.source = some i → σ.world.HasSite i x →
    x.feed.isActive = false → x.source.provider.refuseQuery = none → x.source.provider.current.kind = p.source →
    ∃ a τ, get c p σ = some (a, τ) ∧ x.source.provider.current.Tells a
  /-- A subscription to an inactive kind fails if its provider's current payload stands for nothing, and otherwise
  leaves behind what it stands for. -/
  seeds : ∀ (p : PowerSignal) (handler : H) (i : Nat) (x : Site Value H Report), s.feedOf? p.source = some i → σ.world.HasSite i x →
    x.feed.isActive = false → x.source.provider.refuseQuery = none → x.source.provider.current.kind = p.source →
    ∃ a τ, onChange c p handler σ = some (a, τ) ∧
      (x.source.provider.current.IsDeclared → (∀ failure, a ≠ .error (.decodeFailed p.source.kind failure)) ∧
        (p.source ≠ .compositeBattery → ∃ v, τ.world.hub.cached? p.key.id = some v ∧
          Report.encode? v = some x.source.provider.current)) ∧
      (¬ x.source.provider.current.IsDeclared →
        ∃ what value, a = .error (.decodeFailed p.source.kind (.unrecognized what value)))
  /-- A payload that is pushed and stands for something is what is read afterwards; one that stands for nothing changes
  nothing that is known. -/
  pushes : ∀ (r : Report) (i : Nat) (x : Site Value H Report), s.feedOf? r.kind = some i → σ.world.HasSite i x →
    ∃ τ, Act.push c i r σ = some ((), τ) ∧
      (r.IsDeclared → r.kind ≠ .compositeBattery → x.feed.isActive = true ∨ x.source.provider.refuseQuery = none →
        ∀ p : PowerSignal, p.source = r.kind → ∃ v τ', get c p τ = some (.ok v, τ') ∧ Report.encode? v = some r) ∧
      (¬ r.IsDeclared → ∀ signal, τ.world.hub.cached? signal = σ.world.hub.cached? signal)

section Wired

variable {settings : Settings} {s : Sources} {start : World Value H Report} {σ : Session Value H Report X}
  (call : SignalId → Token → H → Value → Act Value H Report X Bool) {p : PowerSignal} {i : Nat} {x : Site Value H Report}

theorem isPlain_client (call : SignalId → Token → H → Value → Act Value H Report X Bool) (i : Nat) :
    (client call).IsPlain i Report.decode :=
  ⟨fun _ => rfl, rfl, rfl⟩

/-- The feed of a kind is of that kind. -/
theorem kind_of_comes (assembled : assemble settings s = .ok start) {v : World Value H Report} (comes : start.Comes v)
    {k : SourceKind} (there : s.feedOf? k = some i) (at' : v.HasSite i x) : x.feed.kind = k.kind := by
  obtain ⟨labels, es, own, ran⟩ := comes
  obtain ⟨labels, own, ran⟩ := World.hub_of_run ran own
  exact (Hub.Opens.assembled (World.hub_of_assemble assembled)).kind_eq own ran at'.feed (Sources.plan_of_feedOf? there)

/-- A failure for which a provider is to blame says nothing else. -/
theorem answers_of_given {α : Type} {a : Except HubFailure α} {kind : Kind} (there : s.feedOf? p.source = some i)
    (blames : ∀ failure, a = .error failure → failure.StemsFrom kind) : s.Answers p a := by
  have given := Sources.isSome_of_feedOf? there
  refine ⟨⟨?_, fun absent => ?_⟩, fun signal type failed => ?_⟩
  · rintro ⟨signal, failed⟩
    cases blames _ failed
  · rw [absent] at given
    cases given
  · cases blames _ failed

/-- A signal that is unknown is answered so. -/
theorem answers_of_absent {α : Type} (absent : s p.source = none) :
    s.Answers p (.error (.unknownSignal p.key.id) : Except HubFailure α) :=
  ⟨⟨fun _ => absent, fun _ => ⟨_, rfl⟩⟩, nofun⟩

/-- A read at a site that is at rest. -/
theorem get_at (calm : σ.world.IsCalm settings (s.plans.map (·.1))) (there : s.feedOf? p.source = some i)
    (at' : σ.world.HasSite i x) {o : Answer × Site Value H Report} (fulfilled : x.fulfil Report.decode σ.thread .refresh = o) :
    ∃ v τ, o.2.feed.cached? p.key.id = some v ∧ get (client call) p σ = some (o.1.toExcept.map fun _ => v, τ) := by
  obtain ⟨-, journal, v, known, ran⟩ := Act.read_at (isPlain_client call i) calm (route_of_present calm.reachable there) at' fulfilled
  exact ⟨v, _, known, ran⟩

theorem gets_of_calm (calm : σ.world.IsCalm settings (s.plans.map (·.1))) (p : PowerSignal) :
    ∃ a τ, get (client call) p σ = some (a, τ) ∧ s.Answers p a := by
  cases given : s p.source with
  | none => exact ⟨_, σ, Act.read_unrouted (route_of_absent calm.reachable given), answers_of_absent given⟩
  | some r =>
    obtain ⟨i, there⟩ := Sources.exists_feedOf? (Option.isSome_of_eq_some given)
    obtain ⟨f, known, -⟩ := calm.reachable.exists_feed_of_route (route_of_present calm.reachable there)
    obtain ⟨x, at'⟩ := calm.exists_site (List.getElem?_eq_some_iff.1 known).1
    obtain ⟨v, τ, -, ran⟩ := get_at call calm there at' rfl
    exact ⟨_, τ, ran, answers_of_given there fun _ failed => Site.stemsFrom_of_fulfil (Answer.failed_of_toExcept failed)⟩

/-- A subscription at a site that is at rest. -/
theorem onChange_at (handler : H) (calm : σ.world.IsCalm settings (s.plans.map (·.1))) (there : s.feedOf? p.source = some i)
    (at' : σ.world.HasSite i x) {o : Answer × Site Value H Report}
    (fulfilled : x.fulfil Report.decode σ.thread (.subscribe p.key.id ⟨σ.world.hub.nextToken⟩ handler) = o) :
    ∃ τ, onChange (client call) p handler σ = some (o.1.toExcept.map fun _ => ⟨σ.world.hub.nextToken⟩, τ) ∧
      τ.world = (σ.world.drawing 1).after i o.2 [] ∧ Hub.Reachable settings (s.plans.map (·.1)) τ.world.hub := by
  obtain ⟨comes, journal, ran⟩ :=
    Act.subscribe_at (isPlain_client call i) calm (route_of_present calm.reachable there) at' fulfilled
  exact ⟨_, ran, rfl, comes.reachable calm.reachable⟩

theorem subscribes_of_calm (calm : σ.world.IsCalm settings (s.plans.map (·.1)))
    (agreed : ∀ i x, σ.world.HasSite i x → x.IsAgreed) (p : PowerSignal) (handler : H) :
    ∃ a τ, onChange (client call) p handler σ = some (a, τ) ∧ s.Answers p a ∧
      (∀ k i, k ≠ p.source → s.feedOf? k = some i → τ.world.sources[i]? = σ.world.sources[i]?) ∧
      ∀ token i, a = .ok token → s.feedOf? p.source = some i →
        ∃ t, τ.world.sources[i]? = some t ∧ t.provider.isRegistered := by
  cases given : s p.source with
  | none =>
    refine ⟨_, σ, Act.subscribe_unrouted (route_of_absent calm.reachable given) handler, answers_of_absent given,
      fun _ _ _ _ => rfl, nofun⟩
  | some r =>
    obtain ⟨i, there⟩ := Sources.exists_feedOf? (Option.isSome_of_eq_some given)
    obtain ⟨f, known, -⟩ := calm.reachable.exists_feed_of_route (route_of_present calm.reachable there)
    obtain ⟨x, at'⟩ := calm.exists_site (List.getElem?_eq_some_iff.1 known).1
    obtain ⟨τ, ran, world, -⟩ := onChange_at call handler calm there at' rfl
    have there' : (σ.world.drawing 1).HasSite i x := ⟨at'.feed, at'.source⟩
    refine ⟨_, τ, ran, answers_of_given there fun _ failed => Site.stemsFrom_of_fulfil (Answer.failed_of_toExcept failed),
      fun k j other elsewhere => ?_, fun token j succeeded here => ?_⟩
    · have ne : i ≠ j := fun eq => other (Sources.feedOf?_inj elsewhere (eq ▸ there))
      rw [world]
      exact List.getElem?_set_ne ne
    · obtain rfl : i = j := Option.some.inj (there.symm.trans here)
      refine ⟨_, world ▸ there'.after.source, Site.isRegistered_of_subscribed (agreed i x at') fun failure failed => ?_⟩
      rw [failed] at succeeded
      cases succeeded

/-- What a feed knows after the payload of a kind with one signal is written to it is what the payload stands for. -/
theorem exists_written (reachable : Hub.Reachable settings (s.plans.map (·.1)) σ.world.hub) {r : Report}
    (there : s.feedOf? r.kind = some i) (at' : σ.world.HasSite i x) (declared : r.IsDeclared) :
    ∃ values, x.feed.admissible r.decode = .ok values ∧ (r.kind ≠ .compositeBattery → ∀ p : PowerSignal, p.source = r.kind →
      ∃ v, (x.feed.written values).cached? p.key.id = some v ∧ Report.encode? v = some r) := by
  obtain ⟨out, decodes, admitted⟩ := (sorts_of_reachable reachable r.kind i x.feed r there at'.feed rfl).1 declared
  refine ⟨out.toList, admitted, fun single p fed => ?_⟩
  obtain ⟨q, only⟩ := Report.signals_of_ne single
  have mem := PowerSignal.mem_signals.2 fed
  rw [only, List.mem_singleton] at mem
  subst mem
  obtain ⟨v, decodes', -, encodes⟩ := Report.exists_standsFor declared only
  obtain rfl := Except.ok.inj (decodes.symm.trans decodes')
  obtain ⟨f, known, outlet⟩ := reachable.exists_feed_of_route (route_of_present reachable (p := p) (fed ▸ there))
  obtain rfl := Option.some.inj (at'.feed.symm.trans known)
  exact ⟨v, cached?_written (Report.unreal_of_encode? encodes) (by rw [Feed.cached?, Option.isSome_map]; exact outlet), encodes⟩

theorem pulls_of_calm (calm : σ.world.IsCalm settings (s.plans.map (·.1))) (there : s.feedOf? p.source = some i)
    (at' : σ.world.HasSite i x) (kind : x.feed.kind = p.source.kind) (inactive : x.feed.isActive = false)
    (unrefused : x.source.provider.refuseQuery = none) (own : x.source.provider.current.kind = p.source) :
    ∃ a τ, get (client call) p σ = some (a, τ) ∧ x.source.provider.current.Tells a := by
  have pulls := Site.pull_eq Report.decode unrefused
  have fulfilled : x.fulfil Report.decode σ.thread .refresh = x.pull Report.decode := by
    simp only [Site.fulfil, inactive, Bool.false_eq_true, if_false]
  obtain ⟨v, τ, known, ran⟩ := get_at call calm there at' (fulfilled.trans pulls)
  refine ⟨_, τ, ran, fun declared => ?_, fun undeclared => ?_⟩
  · obtain ⟨values, admitted, conveys⟩ := exists_written calm.reachable (own ▸ there) at' declared
    rw [admitted] at known ⊢
    refine ⟨v, rfl, fun single => ?_⟩
    obtain ⟨v', written, encodes⟩ := conveys single p own.symm
    rwa [Option.some.inj (known.symm.trans written)]
  · obtain ⟨what, value, refused⟩ := (sorts_of_reachable calm.reachable _ i x.feed _ (own ▸ there) at'.feed rfl).2 undeclared
    rw [refused, kind, ← own]
    exact ⟨what, value, rfl⟩

theorem seeds_of_calm (calm : σ.world.IsCalm settings (s.plans.map (·.1))) (handler : H) (there : s.feedOf? p.source = some i)
    (at' : σ.world.HasSite i x) (kind : x.feed.kind = p.source.kind) (inactive : x.feed.isActive = false)
    (unrefused : x.source.provider.refuseQuery = none) (own : x.source.provider.current.kind = p.source) :
    ∃ a τ, onChange (client call) p handler σ = some (a, τ) ∧
      (x.source.provider.current.IsDeclared → (∀ failure, a ≠ .error (.decodeFailed p.source.kind failure)) ∧
        (p.source ≠ .compositeBattery → ∃ v, τ.world.hub.cached? p.key.id = some v ∧
          Report.encode? v = some x.source.provider.current)) ∧
      (¬ x.source.provider.current.IsDeclared →
        ∃ what value, a = .error (.decodeFailed p.source.kind (.unrecognized what value))) := by
  have activates := Site.activate_eq Report.decode unrefused (.subscribe p.key.id ⟨σ.world.hub.nextToken⟩ handler)
  have fulfilled : x.fulfil Report.decode σ.thread (.subscribe p.key.id ⟨σ.world.hub.nextToken⟩ handler) =
      x.activate Report.decode (.subscribe p.key.id ⟨σ.world.hub.nextToken⟩ handler) := by
    simp only [Site.fulfil, inactive, Bool.false_eq_true, if_false]
  obtain ⟨τ, ran, world, reached⟩ := onChange_at call handler calm there at' (fulfilled.trans activates)
  refine ⟨_, τ, ran, fun declared => ?_, fun undeclared => ?_⟩
  · obtain ⟨values, admitted, conveys⟩ := exists_written calm.reachable (own ▸ there) at' declared
    rw [admitted] at world ⊢
    refine ⟨fun failure failed => ?_, fun single => ?_⟩
    · -- all that is left to fail is the registration
      obtain ⟨refusal, other⟩ := Site.refused_of_complete (Answer.failed_of_toExcept failed)
      cases other
    · obtain ⟨v, written, encodes⟩ := conveys (own ▸ single) p own.symm
      refine ⟨v, ?_, encodes⟩
      have there' : (σ.world.drawing 1).HasSite i x := ⟨at'.feed, at'.source⟩
      have known := (Site.cached?_complete (x := ⟨x.risen.feed.written values, x.queried⟩)
        (.subscribe p.key.id ⟨σ.world.hub.nextToken⟩ handler) p.key.id).trans
          ((Feed.cached?_of_outlets (Feed.written_congr (f := x.feed) (g := x.risen.feed) rfl values) p.key.id).trans written)
      rw [reached.cached?_eq (world ▸ there'.after.feed) (Feed.isSome_of_cached? known)]
      exact known
  · obtain ⟨what, value, refused⟩ := (sorts_of_reachable calm.reachable _ i x.feed _ (own ▸ there) at'.feed rfl).2 undeclared
    rw [refused, kind]
    exact ⟨what, value, rfl⟩

theorem pushes_of_calm (calm : σ.world.IsCalm settings (s.plans.map (·.1))) (agreed : x.IsAgreed) {r : Report}
    (there : s.feedOf? r.kind = some i) (at' : σ.world.HasSite i x) (kind : x.feed.kind = r.kind.kind) :
    ∃ τ, Act.push (client call) i r σ = some ((), τ) ∧
      (r.IsDeclared → r.kind ≠ .compositeBattery → x.feed.isActive = true ∨ x.source.provider.refuseQuery = none →
        ∀ p : PowerSignal, p.source = r.kind → ∃ v τ', get (client call) p τ = some (.ok v, τ') ∧ Report.encode? v = some r) ∧
      (¬ r.IsDeclared → ∀ signal, τ.world.hub.cached? signal = σ.world.hub.cached? signal) := by
  let y : Site Value H Report := { x with source := { x.source with provider := x.source.provider.set r } }
  have agreed' : y.IsAgreed := ⟨agreed.active, agreed.inactive⟩
  have rest : y.IsAtRest := (calm.rest i x at').provider rfl
  obtain ⟨⟨journal, ran⟩, comes⟩ := Act.does_push (isPlain_client call i) (calm.rest i x at') r σ rfl calm.held at'
  have calm' := calm.after (n := 0) comes (rest.receive r)
  let τ : Session Value H Report X :=
    { σ with world := σ.world.after i (y.receive Report.decode r).1 (y.receive Report.decode r).2, journal }
  have here : τ.world.HasSite i (y.receive Report.decode r).1 := at'.after
  refine ⟨τ, ran, fun declared single usable p fed => ?_, fun undeclared signal => ?_⟩
  · obtain ⟨values, admitted, conveys⟩ := exists_written calm.reachable there at' declared
    cases active : x.feed.isActive with
    | true =>
      have received := Site.receive_of_active agreed' active admitted
      have stays : (y.receive Report.decode r).1.feed.isActive = true := by
        rw [received, Feed.written_eq]
        exact active
      have fulfilled : (y.receive Report.decode r).1.fulfil Report.decode σ.thread .refresh =
          (.done, (y.receive Report.decode r).1) := by
        simp only [Site.fulfil, stays, if_true]
      obtain ⟨u, τ', known, read⟩ := get_at (σ := τ) (p := p) call calm' (fed ▸ there) here fulfilled
      obtain ⟨v, written, encodes⟩ := conveys single p fed
      rw [received] at known
      have same := Feed.cached?_of_outlets (Feed.written_congr (f := x.feed)
        (g := { x.feed with pushCount := x.feed.pushCount + 1 }) rfl values) p.key.id
      obtain rfl := Option.some.inj (known.symm.trans (same.trans written))
      exact ⟨u, τ', read, encodes⟩
    | false =>
      obtain ⟨⟨n, feed⟩, -⟩ := Site.receive_of_idle Report.decode r agreed' (.inl active)
      have unrefused := usable.resolve_left (by rw [active]; exact Bool.false_ne_true)
      have source : (y.receive Report.decode r).1.source.provider.current = r ∧
          (y.receive Report.decode r).1.source.provider.refuseQuery = none := by
        rcases Site.source_receive Report.decode (x := y) r with same | same <;> rw [same] <;> exact ⟨rfl, unrefused⟩
      obtain ⟨a, τ', read, tells, -⟩ := pulls_of_calm (σ := τ) (p := p) call calm' (fed ▸ there) here
        (by rw [feed, fed]; exact kind) (by rw [feed]; exact active) source.2 (by rw [source.1, fed])
      rw [source.1] at tells
      obtain ⟨v, rfl, encodes⟩ := tells declared
      exact ⟨v, τ', read, encodes single⟩
  · obtain ⟨what, value, refused⟩ := (sorts_of_reachable calm.reachable _ i x.feed r there at'.feed rfl).2 undeclared
    obtain ⟨⟨n, feed⟩, -⟩ := Site.receive_of_idle Report.decode r agreed' (.inr ⟨_, refused⟩)
    exact World.cached?_after at' (by rw [feed]) (by rw [feed]) signal

/-- **A monitor is wired.** -/
theorem isWired_of_still (assembled : assemble settings s = .ok start) (comes : start.Comes σ.world) (still : σ.world.IsStill) :
    IsWired s (client call) σ := by
  obtain ⟨calm, agreed⟩ := World.calm_of_still assembled comes still
  exact
    { gets := gets_of_calm call calm
      subscribes := subscribes_of_calm call calm agreed
      pulls := fun p i x there at' => pulls_of_calm call calm there at' (kind_of_comes assembled comes there at')
      seeds := fun p handler i x there at' => seeds_of_calm call calm handler there at' (kind_of_comes assembled comes there at')
      pushes := fun r i x there at' => pushes_of_calm call calm (agreed i x at') there at' (kind_of_comes assembled comes there at') }

end Wired

/-- **The catalog is wired consistently.** Over any providers, and where there is a runtime, a monitor can be
assembled. In whatever state its hub comes to be, in the middle of operations or not, signals are routed to the
providers that feed them, and a payload may be written to the feed of its kind exactly if it is declared, and otherwise
is not recognized; in every session in which nothing is under way its clients can rely on what `IsWired` says. -/
theorem wired_consistently {settings : Settings} (runs : settings.runtime ≠ .absent) (s : Sources)
    (call : SignalId → Token → H → Value → Act Value H Report X Bool) :
    ∃ start : World Value H Report, assemble settings s = .ok start ∧ start.IsStill ∧
      (∀ v, start.Comes v → Routes s v.hub ∧ Sorts s v.hub) ∧
      ∀ σ : Session Value H Report X, start.Comes σ.world → σ.world.IsStill → IsWired s (client call) σ := by
  obtain ⟨start, assembled⟩ := exists_assemble (H := H) runs s
  refine ⟨start, assembled, World.isStill_of_assemble assembled, fun v comes => ?_, fun σ comes still => ?_⟩
  · have reachable := comes.reachable (.assembled (World.hub_of_assemble assembled))
    exact ⟨fun p => ⟨fun i => route_of_present reachable, route_of_absent reachable⟩, sorts_of_reachable reachable⟩
  · exact isWired_of_still call assembled comes still

/-- A monitor of the display alone reads what its provider has for it. -/
theorem display_is_wired :
    ({} : Settings).runtime ≠ .absent ∧ ∃ start : World Value Unit Report,
      assemble {} (.ofList [(.display, .display 2)]) = .ok start ∧
        ∃ v τ, get (client fun _ _ _ _ => pure false) .displayStatus
            ({ world := start, memory := () } : Session Value Unit Report Unit) = some (.ok v, τ) ∧
          Report.encode? v = some (.display 2) := by
  let s : Sources := .ofList [(.display, .display 2)]
  obtain ⟨start, assembled, still, -, wired⟩ :=
    wired_consistently (H := Unit) (X := Unit) (by decide : ({} : Settings).runtime ≠ .absent) s fun _ _ _ _ => pure false
  refine ⟨by decide, start, assembled, ?_⟩
  let x : Site Value Unit Report := ⟨.ofPlan SourceKind.display.plan, { provider := .ofInitial (.display 2) }⟩
  have at' : start.HasSite 0 x := by
    obtain ⟨-, sources⟩ := (World.Opens.assembled assembled).eq
    obtain ⟨-, hub⟩ := Hub.eq_of_assemble (World.hub_of_assemble assembled)
    exact ⟨by rw [hub]; rfl, by rw [sources]; rfl⟩
  obtain ⟨a, τ, read, tells, -⟩ := (wired { world := start, memory := () } (.refl _) still).pulls .displayStatus 0 x
    (by decide) at' rfl rfl rfl
  obtain ⟨v, rfl, encodes⟩ := tells ⟨.dimmed, rfl⟩
  exact ⟨v, τ, read, encodes (by decide)⟩

/-- A monitor of the power scheme alone reads the scheme by whose GUID it is reported. -/
example :
    ((assemble {} (.ofList [(.powerScheme, .powerScheme ⟨0x381b4222_f694_41f0_9685_ff5bb260df2e⟩)])).toOption.bind
      fun start => (get (client fun _ _ _ _ => pure false) .powerSchemePersonality
        ({ world := start, memory := () } : Session Value Unit Report Unit)).map (·.1)) =
      some (.ok (.scheme .balanced)) := by
  cbv

end Monitor

end LazyHub.Power
