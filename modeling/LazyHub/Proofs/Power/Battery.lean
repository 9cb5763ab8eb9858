import LazyHub.Proofs.Power.Monitor
import LazyHub.Proofs.Session.Notices

/-!
# The battery, from end to end

Three signals are derived from one record. Whoever watches one of them is told what its own function makes of
the records that are pushed, without what repeats the value before (`BatteryRecord.heard`): records that differ
in nothing that the function looks at go unnoticed (`heard_of_alike`), and so does every change of the other two.

`Monitor.Watching` is what holds while there is one watcher of each: what was told and what waits to be told make
up what there is to hear so far. A push keeps it (`Watching.report`), the turns of workers do (`Watching.work`),
and a flush leaves nothing waiting.
-/

namespace LazyHub.Power

open SignalValue

namespace BatteryRecord

/-- What a signal of the battery shows of a record. -/
def derived (p : PowerSignal) (r : BatteryRecord) : Value :=
  match p with
  | .remainingChargePercent => .percent r.charge
  | .batteryStatus => .battery r.batteryStatus
  | .powerSupplyStatus => .supply r.powerSupply
  | other => other.initial

/-- **What there is to hear** of a signal, from a first record on which nobody is told of: what is derived from the
records, without what repeats the value before. -/
def heard (p : PowerSignal) (first : BatteryRecord) (rest : List BatteryRecord) : List Value :=
  (((first :: rest).map (derived p)).destutter (· ≠ ·)).tail

/-- Two records agree on all that anything is derived from: the capacities, whether there is an active battery, and
three of the flags. -/
structure Alike (r r' : BatteryRecord) : Prop where
  /-- The batteries hold as much when full. -/
  full : r.full = r'.full
  /-- As much is left. -/
  remaining : r.remaining = r'.remaining
  /-- There is an active battery in both, or in neither. -/
  active : r.active = 0 ↔ r'.active = 0
  /-- External power is connected in both, or in neither. -/
  onLine : r.state.contains .onLine = r'.state.contains .onLine
  /-- The batteries are drained in both, or in neither. -/
  discharging : r.state.contains .discharging = r'.state.contains .discharging
  /-- The batteries are charged in both, or in neither. -/
  charging : r.state.contains .charging = r'.state.contains .charging

theorem Alike.derived_eq {r r' : BatteryRecord} (alike : r.Alike r') (p : PowerSignal) : r.derived p = r'.derived p := by
  have charge : r.charge = r'.charge := by rw [BatteryRecord.charge, alike.full, alike.remaining, ← BatteryRecord.charge]
  have status : r.batteryStatus = r'.batteryStatus := by
    simp only [BatteryRecord.batteryStatus, alike.active, alike.discharging, alike.charging]
  have supply : r.powerSupply = r'.powerSupply := by simp only [powerSupply, alike.onLine, alike.discharging]
  cases p with
  | remainingChargePercent => exact congrArg Value.percent charge
  | batteryStatus => exact congrArg Value.battery status
  | powerSupplyStatus => exact congrArg Value.supply supply
  | _ => rfl

/-- **Records that are alike are heard alike.** -/
theorem heard_of_alike {r r' : BatteryRecord} {rs rs' : List BatteryRecord} (alike : List.Forall₂ Alike (r :: rs) (r' :: rs'))
    (p : PowerSignal) : heard p r rs = heard p r' rs' := by
  have same : (r :: rs).map (derived p) = (r' :: rs').map (derived p) := by
    generalize r :: rs = l at alike
    generalize r' :: rs' = l' at alike
    induction alike with
    | nil => rfl
    | cons one _ ih => rw [List.map_cons, List.map_cons, one.derived_eq p, ih]
  rw [heard, same, ← heard]

/-- A value that is derived is the same as its equals only. -/
theorem same_derived (p : PowerSignal) (r : BatteryRecord) (v : Value) : same (r.derived p) v = decide (r.derived p = v) := by
  cases p <;> rfl

theorem unreal_derived (p : PowerSignal) (r : BatteryRecord) : (r.derived p).type ≠ .real := by
  cases p <;> nofun

theorem lawful_derived (p : PowerSignal) (rs : List BatteryRecord) :
    ∀ x ∈ rs.map (derived p), ∀ y, same x y = decide (x = y) := by
  intro x mem y
  obtain ⟨r, -, rfl⟩ := List.mem_map.1 mem
  exact same_derived p r y

theorem heard_eq_changes (p : PowerSignal) (r : BatteryRecord) (rs : List BatteryRecord) :
    heard p r rs = changes (r.derived p) (rs.map (derived p)) := by
  rw [heard, List.map_cons, ← cons_changes (lawful_derived p (r :: rs)), List.tail_cons]

theorem settled_derived (p : PowerSignal) (r : BatteryRecord) (rs : List BatteryRecord) :
    settled (r.derived p) (rs.map (derived p)) = (rs.getLastD r).derived p := by
  rw [settled_eq_getLastD (lawful_derived p (r :: rs)), List.getLastD_map]

theorem heard_append (p : PowerSignal) (r : BatteryRecord) (rs : List BatteryRecord) (next : BatteryRecord) :
    heard p r (rs ++ [next]) = heard p r rs ++ changes ((rs.getLastD r).derived p) [next.derived p] := by
  rw [heard_eq_changes, heard_eq_changes, List.map_append, changes_append, settled_derived]
  rfl

/-- **One record more** is heard if it changes what is derived from it. -/
theorem heard_concat (p : PowerSignal) (r : BatteryRecord) (rs : List BatteryRecord) (next : BatteryRecord) :
    heard p r (rs ++ [next]) =
      heard p r rs ++ if next.derived p = (rs.getLastD r).derived p then [] else [next.derived p] := by
  rw [heard_append, changes, same_derived]
  generalize rs.getLastD r = last
  by_cases eq : last.derived p = next.derived p
  · simp [eq, changes]
  · simp [eq, Ne.symm eq, changes]

end BatteryRecord

/-! ### The site of the battery -/

variable {H : Type}

/-- The signals of the battery: those that its record feeds. -/
abbrev PowerSignal.IsOfBattery (p : PowerSignal) : Prop := p.source = .compositeBattery

theorem valuesFor_decodeBattery {p : PowerSignal} (battery : p.IsOfBattery) (r : BatteryRecord) :
    valuesFor p.key.id (Report.decodeBattery r).toList = [r.derived p] := by
  cases p with
  | remainingChargePercent | batteryStatus | powerSupplyStatus => rfl
  | _ => cases battery

/-- A site whose feed is active, that has such subscribers to the signals of the battery, and that knows such values of
them. -/
structure IsBatterySite (x : Site Value H Report) (watchers : PowerSignal → List (Token × H)) (known : PowerSignal → Value) :
    Prop where
  /-- The provider's callback is the feed's current one. -/
  agreed : x.IsAgreed
  /-- The feed is active. -/
  active : x.feed.isActive = true
  /-- Who is subscribed. -/
  listed : ∀ p : PowerSignal, p.IsOfBattery → (x.feed.outlet? p.key.id).map (·.subscribers.snapshot) = some (watchers p)
  /-- What is known. -/
  knows : ∀ p : PowerSignal, p.IsOfBattery → x.feed.cached? p.key.id = some (known p)

theorem IsBatterySite.congr {x : Site Value H Report} {watchers watchers' : PowerSignal → List (Token × H)}
    {known known' : PowerSignal → Value} (site : IsBatterySite x watchers known)
    (same : ∀ p : PowerSignal, p.IsOfBattery → watchers' p = watchers p)
    (same' : ∀ p : PowerSignal, p.IsOfBattery → known' p = known p) : IsBatterySite x watchers' known' where
  agreed := site.agreed
  active := site.active
  listed p battery := by rw [same p battery, site.listed p battery]
  knows p battery := by rw [same' p battery, site.knows p battery]

namespace IsBatterySite

variable {x y : Site Value H Report} {watchers : PowerSignal → List (Token × H)} {known : PowerSignal → Value} {p : PowerSignal}

/-- Subscribers are looked at through their snapshots. -/
theorem snapshot_of_subscribers {f g : Feed Value H Report} {signal : SignalId}
    (same : (g.outlet? signal).map (·.subscribers) = (f.outlet? signal).map (·.subscribers)) :
    (g.outlet? signal).map (·.subscribers.snapshot) = (f.outlet? signal).map (·.subscribers.snapshot) := by
  have both := congrArg (Option.map Subscribers.snapshot) same
  rwa [Option.map_map, Option.map_map] at both

/-- Whoever comes to a signal that nobody watches watches it alone. -/
theorem listed_attach {f : Feed Value H Report} (listed : ∀ q : PowerSignal, q.IsOfBattery →
      (f.outlet? q.key.id).map (·.subscribers.snapshot) = some (watchers q)) (unwatched : watchers p = []) (battery : p.IsOfBattery)
    (token : Token) (handler : H) (q : PowerSignal) (battery' : q.IsOfBattery) :
    ((f.attach p.key.id token handler).outlet? q.key.id).map (·.subscribers.snapshot) =
      some (Function.update watchers p [(token, handler)] q) := by
  have both := congrArg (Option.map Subscribers.snapshot) (f.subscribers_attach p.key.id token handler q.key.id)
  rw [Option.map_map] at both
  refine both.trans ?_
  by_cases here : q = p
  · subst here
    obtain ⟨o, outlet, snapshot⟩ := Option.map_eq_some_iff.1 (listed q battery)
    rw [unwatched] at snapshot
    have placed : (o.subscribers.insert token handler).snapshot = [(token, handler)] := by
      have none : o.subscribers.entries = [] := snapshot
      change Subscribers.place token handler o.subscribers.entries = _
      rw [none]
      rfl
    rw [if_pos rfl, outlet, Function.update_self]
    exact congrArg some placed
  · rw [if_neg fun same => here (PowerSignal.eq_of_id same), Function.update_of_ne here, Option.map_map]
    exact listed q battery'

/-- One watcher more. -/
theorem attach (site : IsBatterySite x watchers known) (unwatched : watchers p = []) (battery : p.IsOfBattery) (token : Token)
    (handler : H) :
    IsBatterySite { x with feed := x.feed.attach p.key.id token handler } (Function.update watchers p [(token, handler)]) known where
  agreed := ⟨site.agreed.active, site.agreed.inactive⟩
  active := site.active
  listed := listed_attach site.listed unwatched battery token handler
  knows q battery' := (Feed.cached?_attach _ _ _ _ _).trans (site.knows q battery')

/-- **A record that is pushed** is known afterwards, and owed to the watchers of what it changes. -/
theorem push (site : IsBatterySite x watchers known) {r : BatteryRecord}
    (admitted : x.feed.admissible (Report.compositeBattery r).decode = .ok (Report.decodeBattery r).toList) :
    IsBatterySite (x.receive Report.decode (.compositeBattery r)).1 watchers (fun p => settled (known p) [r.derived p]) ∧
      (∀ p : PowerSignal, p.IsOfBattery → watchers p ≠ [] →
        valuesFor p.key.id (x.receive Report.decode (.compositeBattery r)).2 = changes (known p) [r.derived p]) ∧
      ∀ signal, (((x.receive Report.decode (.compositeBattery r)).1.feed.outlet? signal).map (·.subscribers)) =
        (x.feed.outlet? signal).map (·.subscribers) := by
  let values := (Report.decodeBattery r).toList
  let f : Feed Value H Report := { x.feed with pushCount := x.feed.pushCount + 1 }
  have received := Site.receive_of_active site.agreed site.active admitted
  have subscribers : ∀ signal, ((f.written values).outlet? signal).map (·.subscribers) =
      (x.feed.outlet? signal).map (·.subscribers) := Feed.subscribers_written f values
  rw [received]
  refine ⟨⟨?_, ?_, fun p battery => ?_, fun p battery => ?_⟩, fun p battery watched => ?_, subscribers⟩
  · rw [Feed.written_eq]
    exact ⟨site.agreed.active, site.agreed.inactive⟩
  · rw [Feed.written_eq]
    exact site.active
  · exact (snapshot_of_subscribers (subscribers _)).trans (site.listed p battery)
  · refine (f.cached?_written values p.key.id).trans ?_
    have before : f.cached? p.key.id = some (known p) := site.knows p battery
    rw [before, valuesFor_decodeBattery battery, Option.map_some]
  · have isWatched : x.feed.isWatched p.key.id = true := by
      obtain ⟨o, outlet, snapshot⟩ := Option.map_eq_some_iff.1 (site.listed p battery)
      rw [Feed.isWatched, outlet]
      dsimp only
      rw [Subscribers.isEmpty, ← Subscribers.snapshot, snapshot]
      cases there : watchers p with
      | nil => exact absurd there watched
      | cons => rfl
    rw [Feed.valuesFor_owes (site.knows p battery), isWatched, if_pos rfl, valuesFor_decodeBattery battery]

end IsBatterySite

namespace Monitor

variable {settings : Settings} {s : Sources} {i : Nat}

/-! ### Subscribing -/

/-- Nobody watches the battery of a monitor, nothing is left over from when somebody did, and its provider has a record
and refuses nothing. -/
structure IsUnwatched (w : World Value H Report) (i : Nat) (r : BatteryRecord) : Prop where
  /-- Nothing is under way. -/
  still : w.IsStill
  /-- The workers have nothing to do at the moment. -/
  ready : w.hub.pool.IsReady
  /-- No flush is under way. -/
  unflushed : w.hub.pool.flushes = []
  /-- Nothing waits to be told of the battery. -/
  unqueued : ∀ p : PowerSignal, p.IsOfBattery → w.hub.pool.queued p.key.id = []
  /-- The feed is inactive, and the provider has no callback. -/
  site : ∃ x, w.HasSite i x ∧ x.feed.registration = none ∧ x.source.provider.callback = none ∧
    x.source.provider.refuseQuery = none ∧ x.source.provider.refuseRegister = none ∧
    x.source.provider.current = .compositeBattery r

/-- Subscribe one watcher to each signal of the battery. -/
def watchBattery {X : Type} (c : Client Value H Report X) (handler : PowerSignal → H) :
    Act Value H Report X (Except HubFailure Token × Except HubFailure Token × Except HubFailure Token) := do
  let charge ← onChange c .remainingChargePercent (handler .remainingChargePercent)
  let status ← onChange c .batteryStatus (handler .batteryStatus)
  let supply ← onChange c .powerSupplyStatus (handler .powerSupplyStatus)
  pure (charge, status, supply)

/-- What the session has come to while watchers subscribe: those who have are listed, and nothing else has happened. -/
structure Subscribing (settings : Settings) (s : Sources) (i : Nat) (first : Session Value H Report (List (Heard Value H)))
    (watchers : PowerSignal → List (Token × H)) (r : BatteryRecord) (σ : Session Value H Report (List (Heard Value H))) : Prop where
  /-- Nothing is under way. -/
  calm : σ.world.IsCalm settings (s.plans.map (·.1))
  /-- The workers have done nothing. -/
  pool : σ.world.hub.pool = first.world.hub.pool
  /-- Nobody has heard anything. -/
  memory : σ.memory = first.memory
  /-- The watchers are there. -/
  site : ∃ x, σ.world.HasSite i x ∧ IsBatterySite x watchers fun p => r.derived p

section Subscribe

variable {start : World Value H Report} {first σ : Session Value H Report (List (Heard Value H))} {r : BatteryRecord}
  {watchers : PowerSignal → List (Token × H)} {p : PowerSignal}
  (call : SignalId → Token → H → Value → Act Value H Report (List (Heard Value H)) Bool)

/-- A battery record is decoded, whatever it says. -/
theorem admissible_battery {h : Hub Value H Report} {f : Feed Value H Report}
    (reachable : Hub.Reachable settings (s.plans.map (·.1)) h) (there : s.feedOf? .compositeBattery = some i)
    (known : h.feeds[i]? = some f) (r : BatteryRecord) :
    f.admissible (Report.compositeBattery r).decode = .ok (Report.decodeBattery r).toList := by
  obtain ⟨out, decodes, admitted⟩ := (sorts_of_reachable reachable .compositeBattery i f (.compositeBattery r) there known rfl).1 trivial
  cases decodes
  exact admitted

/-- A subscription draws the next token, and comes to what it comes to at its site. -/
theorem onChange_done (calm : σ.world.IsCalm settings (s.plans.map (·.1))) (there : s.feedOf? p.source = some i)
    {x y : Site Value H Report} (at' : σ.world.HasSite i x) {handler : H}
    (fulfilled : x.fulfil Report.decode σ.thread (.subscribe p.key.id ⟨σ.world.hub.nextToken⟩ handler) = (.done, y)) :
    ∃ τ, onChange (client call) p handler σ = some (.ok ⟨σ.world.hub.nextToken⟩, τ) ∧
      τ.world.IsCalm settings (s.plans.map (·.1)) ∧ τ.world.hub.pool = σ.world.hub.pool ∧
      τ.world.hub.nextToken = σ.world.hub.nextToken + 1 ∧ τ.memory = σ.memory ∧ τ.world.HasSite i y := by
  obtain ⟨comes, journal, ran⟩ :=
    Act.subscribe_at (isPlain_client call i) calm (route_of_present calm.reachable there) at' fulfilled
  have rest : y.IsAtRest := by
    have rest : (x.fulfil Report.decode σ.thread (.subscribe p.key.id ⟨σ.world.hub.nextToken⟩ handler)).2.IsAtRest :=
      (calm.rest i x at').fulfil _
    rwa [fulfilled] at rest
  have at'' : (σ.world.drawing 1).HasSite i x := ⟨at'.feed, at'.source⟩
  exact ⟨_, ran, calm.after comes rest, rfl, rfl, rfl, at''.after⟩

/-- **The first watcher** activates the feed. -/
theorem subscribing_first (assembled : assemble settings s = .ok start) (comes : start.Comes first.world)
    (there : s.feedOf? .compositeBattery = some i) (unwatched : IsUnwatched first.world i r) (battery : p.IsOfBattery) (handler : H) :
    ∃ τ, onChange (client call) p handler first = some (.ok ⟨first.world.hub.nextToken⟩, τ) ∧
      τ.world.hub.nextToken = first.world.hub.nextToken + 1 ∧
      Subscribing settings s i first (Function.update (fun _ => []) p [(⟨first.world.hub.nextToken⟩, handler)]) r τ := by
  obtain ⟨calm, -⟩ := World.calm_of_still assembled comes unwatched.still
  obtain ⟨x, at', inactive, vacant, unrefused, accepts, current⟩ := unwatched.site
  let token : Token := ⟨first.world.hub.nextToken⟩
  let values := (Report.decodeBattery r).toList
  have admitted : x.feed.admissible (Report.decode x.source.provider.current) = .ok values := by
    rw [current]
    exact admissible_battery calm.reachable there at'.feed r
  obtain ⟨y, fulfilled, agreed, active, outlets⟩ := Site.exists_subscribed first.thread inactive vacant unrefused
    accepts admitted p.key.id token handler
  obtain ⟨τ, ran, calm', pool, next, memory, here⟩ := onChange_done call calm (battery ▸ there) at' fulfilled
  refine ⟨τ, ran, next, calm', pool, memory, y, here, agreed, active, fun q battery' => ?_, fun q battery' => ?_⟩
  · -- an inactive feed has no subscribers
    have bare := ((calm.reachable.sound.balanced x.feed (List.mem_of_getElem? at'.feed)).bare
      (calm.rest i x at').free inactive).1
    have listed : ∀ q : PowerSignal, q.IsOfBattery →
        ((x.feed.written values).outlet? q.key.id).map (·.subscribers.snapshot) = some [] := by
      intro q battery
      refine (IsBatterySite.snapshot_of_subscribers (Feed.subscribers_written x.feed values _)).trans ?_
      obtain ⟨f, known, outlet⟩ := calm.reachable.exists_feed_of_route (route_of_present calm.reachable (p := q) (battery ▸ there))
      obtain rfl := Option.some.inj (at'.feed.symm.trans known)
      obtain ⟨o, outlet⟩ := Option.isSome_iff_exists.1 outlet
      have none := Feed.totalSubscribers_eq_zero_iff.1 bare o (Feed.mem_of_outlet? outlet)
      rw [outlet, Option.map_some]
      exact congrArg some (List.eq_nil_of_length_eq_zero none)
    rw [Feed.outlet?, outlets]
    exact IsBatterySite.listed_attach listed rfl battery token handler q battery'
  · obtain ⟨f, known, outlet⟩ := calm.reachable.exists_feed_of_route (route_of_present calm.reachable (p := q) (battery' ▸ there))
    obtain rfl := Option.some.inj (at'.feed.symm.trans known)
    obtain ⟨v, before⟩ : ∃ v, x.feed.cached? q.key.id = some v := by
      obtain ⟨o, outlet⟩ := Option.isSome_iff_exists.1 outlet
      exact ⟨_, by rw [Feed.cached?, outlet, Option.map_some]⟩
    rw [Feed.cached?_of_outlets outlets, Feed.cached?_attach, Feed.cached?_written, before, valuesFor_decodeBattery battery',
      Option.map_some, settled_unreal v (BatteryRecord.unreal_derived q r)]

/-- **The next watcher** joins. -/
theorem Subscribing.next (subscribing : Subscribing settings s i first watchers r σ) (there : s.feedOf? .compositeBattery = some i)
    (battery : p.IsOfBattery) (unwatched : watchers p = []) (handler : H) :
    ∃ τ, onChange (client call) p handler σ = some (.ok ⟨σ.world.hub.nextToken⟩, τ) ∧
      τ.world.hub.nextToken = σ.world.hub.nextToken + 1 ∧
      Subscribing settings s i first (Function.update watchers p [(⟨σ.world.hub.nextToken⟩, handler)]) r τ := by
  obtain ⟨x, at', site⟩ := subscribing.site
  have fulfilled : x.fulfil Report.decode σ.thread (.subscribe p.key.id ⟨σ.world.hub.nextToken⟩ handler) =
      (.done, { x with feed := x.feed.attach p.key.id ⟨σ.world.hub.nextToken⟩ handler }) := by
    simp only [Site.fulfil, site.active, if_true]
  obtain ⟨τ, ran, calm, pool, next, memory, here⟩ := onChange_done call subscribing.calm (battery ▸ there) at' fulfilled
  exact ⟨τ, ran, next, calm, pool.trans subscribing.pool, memory.trans subscribing.memory, _, here,
    site.attach unwatched battery _ handler⟩

end Subscribe

/-! ### Watching -/

/-- The token of a watcher of the battery, by the number of the first. -/
def tokenFrom (n : Nat) : PowerSignal → Token
  | .remainingChargePercent => ⟨n⟩
  | .batteryStatus => ⟨n + 1⟩
  | _ => ⟨n + 2⟩

/-- A watcher is told a value of its signal. -/
def tell (watcher : PowerSignal → Token × H) (p : PowerSignal) (v : Value) : Heard Value H :=
  ⟨p.key.id, (watcher p).1, (watcher p).2, v⟩

/-- **What holds while the battery is watched** and some records have been pushed after a first one. -/
structure Watching (settings : Settings) (s : Sources) (i : Nat) (heardBefore : List (Heard Value H))
    (watcher : PowerSignal → Token × H) (first : BatteryRecord) (rest : List BatteryRecord)
    (σ : Session Value H Report (List (Heard Value H))) : Prop where
  /-- Nothing is under way. -/
  calm : σ.world.IsCalm settings (s.plans.map (·.1))
  /-- The workers have nothing to do at the moment. -/
  ready : σ.world.hub.pool.IsReady
  /-- No flush is under way. -/
  unflushed : σ.world.hub.pool.flushes = []
  /-- The watchers are there, and the last record is known. -/
  site : ∃ x, σ.world.HasSite i x ∧ IsBatterySite x (fun p => [watcher p]) fun p => (rest.getLastD first).derived p
  /-- What was told and what waits to be told make up what there is to hear. -/
  hears : ∃ news, σ.memory = heardBefore ++ news ∧ ∀ p : PowerSignal, p.IsOfBattery →
    news.filter (·.signal = p.key.id) ++ σ.world.hub.untold p.key.id =
        (BatteryRecord.heard p first rest).map (tell watcher p) ∧
      ∀ e ∈ news, e.token = (watcher p).1 → e.signal = p.key.id

variable {start : World Value H Report} {first σ : Session Value H Report (List (Heard Value H))} {r : BatteryRecord}
  (call : SignalId → Token → H → Value → Act Value H Report (List (Heard Value H)) Bool)

/-- **The watchers subscribe**, and nothing has been heard. -/
theorem watching_of_unwatched (assembled : assemble settings s = .ok start) (comes : start.Comes first.world)
    (there : s.feedOf? .compositeBattery = some i) (unwatched : IsUnwatched first.world i r) (handler : PowerSignal → H) :
    ∃ τ, watchBattery (client call) handler first =
        some ((.ok (tokenFrom first.world.hub.nextToken .remainingChargePercent),
          .ok (tokenFrom first.world.hub.nextToken .batteryStatus),
          .ok (tokenFrom first.world.hub.nextToken .powerSupplyStatus)), τ) ∧
      Watching settings s i first.memory (fun p => (tokenFrom first.world.hub.nextToken p, handler p)) r [] τ := by
  let n := first.world.hub.nextToken
  obtain ⟨σ₁, ran₁, next₁, sub₁⟩ := subscribing_first call assembled comes there unwatched
    (p := .remainingChargePercent) rfl (handler .remainingChargePercent)
  obtain ⟨σ₂, ran₂, next₂, sub₂⟩ := sub₁.next call there (p := .batteryStatus) rfl (by simp) (handler .batteryStatus)
  obtain ⟨σ₃, ran₃, -, sub₃⟩ := sub₂.next call there (p := .powerSupplyStatus) rfl (by simp) (handler .powerSupplyStatus)
  rw [next₁] at ran₂ sub₂ sub₃
  rw [next₂, next₁] at ran₃ sub₃
  obtain ⟨x, at', site⟩ := sub₃.site
  refine ⟨σ₃, ?_, sub₃.calm, sub₃.pool ▸ unwatched.ready, sub₃.pool ▸ unwatched.unflushed,
    ⟨x, at', site.congr (fun p battery => ?_) fun _ _ => rfl⟩, [], ?_, fun p battery => ⟨?_, nofun⟩⟩
  · rw [watchBattery, Act.bind_at ran₁, Act.bind_at ran₂, Act.bind_at ran₃]
    rfl
  · cases p with
    | remainingChargePercent | batteryStatus | powerSupplyStatus => rfl
    | _ => cases battery
  · rw [List.append_nil, sub₃.memory]
  · rw [Hub.untold, sub₃.pool, unwatched.unqueued p battery]
    rfl

/-- A record is pushed. -/
theorem Watching.report {heardBefore : List (Heard Value H)} {watcher : PowerSignal → Token × H} {rest : List BatteryRecord}
    {r₀ : BatteryRecord} (watching : Watching settings s i heardBefore watcher r₀ rest σ)
    (there : s.feedOf? .compositeBattery = some i) (r : BatteryRecord) :
    ∃ τ, Act.push (client call) i (.compositeBattery r) σ = some ((), τ) ∧
      Watching settings s i heardBefore watcher r₀ (rest ++ [r]) τ := by
  obtain ⟨x, at', site⟩ := watching.site
  obtain ⟨news, memory, hears⟩ := watching.hears
  have calm := watching.calm
  let y : Site Value H Report := { x with source := { x.source with provider := x.source.provider.set (.compositeBattery r) } }
  have site' : IsBatterySite y (fun p => [watcher p]) fun p => (rest.getLastD r₀).derived p :=
    ⟨⟨site.agreed.active, site.agreed.inactive⟩, site.active, site.listed, site.knows⟩
  have restful : y.IsAtRest := (calm.rest i x at').provider rfl
  obtain ⟨pushed, owed, subscribers⟩ := site'.push (admissible_battery calm.reachable there at'.feed r)
  obtain ⟨⟨journal, ran⟩, comes⟩ := Act.does_push (isPlain_client call i) (calm.rest i x at') (.compositeBattery r) σ rfl
    calm.held at'
  refine ⟨_, ran, calm.after (n := 0) comes (restful.receive _), Hub.ready_posting watching.ready _,
    (Hub.flushes_posting _ _ _).trans watching.unflushed, ⟨_, at'.after, pushed.congr (fun _ _ => rfl) fun p _ => ?_⟩,
    news, memory, fun p battery => ⟨?_, (hears p battery).2⟩⟩
  · rw [List.getLastD_concat, settled_unreal _ (BatteryRecord.unreal_derived p r)]
  · have watched : σ.world.hub.subscribersOf i p.key.id = [watcher p] := by
      rw [at'.subscribersOf, site.listed p battery, Option.getD_some]
    refine (congrArg _ (World.untold_after calm.reachable watching.ready at' subscribers p.key.id)).trans ?_
    rw [owed p battery (by simp), watched, ← List.append_assoc, (hears p battery).1, BatteryRecord.heard_append, List.map_append]
    congr 1
    exact List.flatMap_pure_eq_map _ _

section Workers

variable {heardBefore : List (Heard Value H)} {watcher : PowerSignal → Token × H} {rest : List BatteryRecord} {r₀ : BatteryRecord}
  {τ : Session Value H Report (List (Heard Value H))} {news : List (Heard Value H)}

theorem Watching.subscribersOf (watching : Watching settings s i heardBefore watcher r₀ rest σ) {p : PowerSignal}
    (battery : p.IsOfBattery) : σ.world.hub.subscribersOf i p.key.id = [watcher p] := by
  obtain ⟨x, at', site⟩ := watching.site
  rw [at'.subscribersOf, site.listed p battery, Option.getD_some]

/-- The workers do some of their work. -/
theorem Watching.delivers (watching : Watching settings s i heardBefore watcher r₀ rest σ) (delivers : Delivers σ news τ) :
    Watching settings s i heardBefore watcher r₀ rest τ := by
  obtain ⟨x, at', site⟩ := watching.site
  obtain ⟨old, memory, hears⟩ := watching.hears
  refine ⟨delivers.calm watching.calm, delivers.ready, delivers.unflushed watching.unflushed, ⟨x, delivers.hasSite at', site⟩,
    old ++ news, by rw [delivers.memory_eq, memory, List.append_assoc], fun p battery => ⟨?_, fun e mem named => ?_⟩⟩
  · rw [List.filter_append, List.append_assoc, delivers.told]
    exact (hears p battery).1
  · rcases List.mem_append.1 mem with mem | mem
    · exact (hears p battery).2 e mem named
    · -- a token stands under one signal
      obtain ⟨j, listed⟩ := delivers.listed mem
      have here : watcher p ∈ σ.world.hub.subscribersOf i p.key.id := by
        rw [watching.subscribersOf battery]
        exact List.mem_singleton_self _
      exact (watching.calm.reachable.single listed here named).2

variable {panics : List (Heard Value H) → Heard Value H → Bool}

/-- Watchers panic only where panics are caught. -/
theorem Watching.spared (watching : Watching settings s i heardBefore watcher r₀ rest σ)
    (spared : settings.catches = true ∨ ∀ heard told, panics heard told = false) :
    σ.world.hub.pool.catches = true ∨ ∀ heard told, panics heard told = false :=
  watching.calm.reachable.staffed.catches ▸ spared

/-- A worker takes a turn. -/
theorem Watching.work (watching : Watching settings s i heardBefore watcher r₀ rest σ)
    (spared : settings.catches = true ∨ ∀ heard told, panics heard told = false) {w : Nat}
    (busy : (σ.world.hub.pool.next? w).isSome) :
    ∃ τ, Act.runWorker (client (Act.listen panics)) w σ = some ((), τ) ∧
      Watching settings s i heardBefore watcher r₀ rest τ := by
  obtain ⟨parcel, next⟩ := Option.isSome_iff_exists.1 busy
  obtain ⟨queue, head, -⟩ := WorkerPool.next?_eq_some next
  have there : w < σ.world.hub.pool.size := WorkerPool.lt_of_mem_queue (head ▸ List.mem_cons_self)
  obtain ⟨τ, ran, delivers, -⟩ := Act.turn_at (c := client (Act.listen panics)) rfl (watching.spared spared)
    watching.calm.reachable watching.ready there head
  exact ⟨τ, ran, watching.delivers delivers⟩

end Workers

/-! ### From end to end -/

/-- What happens while the battery is watched. -/
inductive BatteryTurn where
  /-- The provider pushes a record. -/
  | report (record : BatteryRecord)
  /-- A worker does what is next in its queue, if anything is. -/
  | work (worker : Nat)

namespace BatteryTurn

/-- The records that are pushed in the course of some turns. -/
def records (turns : List BatteryTurn) : List BatteryRecord :=
  turns.filterMap fun
    | report record => some record
    | work _ => none

/-- One turn. -/
def play {X : Type} (c : Client Value H Report X) (i : Nat) : BatteryTurn → Act Value H Report X Unit
  | report record => Act.push c i (.compositeBattery record)
  | work worker => do
    if ((← Act.hub).pool.next? worker).isSome then Act.runWorker c worker

end BatteryTurn

theorem Watching.play {heardBefore : List (Heard Value H)} {watcher : PowerSignal → Token × H} {rest : List BatteryRecord}
    {r₀ : BatteryRecord} {panics : List (Heard Value H) → Heard Value H → Bool}
    (watching : Watching settings s i heardBefore watcher r₀ rest σ) (there : s.feedOf? .compositeBattery = some i)
    (spared : settings.catches = true ∨ ∀ heard told, panics heard told = false) (turns : List BatteryTurn) :
    ∃ τ, (turns.forM (BatteryTurn.play (client (Act.listen panics)) i)) σ = some (⟨⟩, τ) ∧
      Watching settings s i heardBefore watcher r₀ (rest ++ BatteryTurn.records turns) τ := by
  induction turns generalizing σ rest with
  | nil => exact ⟨σ, rfl, by rwa [BatteryTurn.records, List.filterMap_nil, List.append_nil]⟩
  | cons turn turns ih =>
    obtain ⟨τ, ran, watching'⟩ : ∃ τ, BatteryTurn.play (client (Act.listen panics)) i turn σ = some ((), τ) ∧
        Watching settings s i heardBefore watcher r₀ (rest ++ BatteryTurn.records [turn]) τ := by
      cases turn with
      | report r => exact watching.report _ there r
      | work w =>
        have unchanged : rest ++ BatteryTurn.records [.work w] = rest := List.append_nil rest
        rw [unchanged, BatteryTurn.play, Act.bind_at (Act.hub_at σ)]
        split
        · rename_i busy
          exact watching.work spared busy
        · exact ⟨σ, rfl, watching⟩
    obtain ⟨υ, onward, watching''⟩ := ih watching'
    refine ⟨υ, (Act.bind_at ran).trans onward, ?_⟩
    rw [List.append_assoc] at watching''
    have split : BatteryTurn.records (turn :: turns) = BatteryTurn.records [turn] ++ BatteryTurn.records turns :=
      List.filterMap_append (l := [turn])
    rwa [split]

/-- What there is to see of a battery after a flush: every watcher was told what there is to hear of its signal, in
order, and the last record is what is read, without anything being asked of the provider. -/
structure Reported {X : Type} (c : Client Value H Report X) (watcher : PowerSignal → Token × H) (first : BatteryRecord)
    (rest : List BatteryRecord) (news : List (Heard Value H)) (σ : Session Value H Report X) : Prop where
  /-- What each watcher was told. -/
  told : ∀ p : PowerSignal, p.IsOfBattery →
    news.filter (·.token = (watcher p).1) = (BatteryRecord.heard p first rest).map (tell watcher p)
  /-- What is read. -/
  gets : ∀ p : PowerSignal, p.IsOfBattery →
    ∃ τ, get c p σ = some (.ok ((rest.getLastD first).derived p), τ) ∧ τ.world = σ.world

section Flushed

variable {heardBefore : List (Heard Value H)} {watcher : PowerSignal → Token × H} {rest : List BatteryRecord} {r₀ : BatteryRecord}

/-- What is known is read, and the provider is not asked. -/
theorem Watching.gets (watching : Watching settings s i heardBefore watcher r₀ rest σ)
    (there : s.feedOf? .compositeBattery = some i) {p : PowerSignal} (battery : p.IsOfBattery) :
    ∃ τ, get (client call) p σ = some (.ok ((rest.getLastD r₀).derived p), τ) ∧ τ.world = σ.world := by
  obtain ⟨x, at', site⟩ := watching.site
  have fulfilled : x.fulfil Report.decode σ.thread .refresh = (.done, x) := by
    simp only [Site.fulfil, site.active, if_true]
  obtain ⟨-, journal, v, known, ran⟩ := Act.read_at (isPlain_client call i) watching.calm
    (route_of_present watching.calm.reachable (p := p) (battery ▸ there)) at' fulfilled
  obtain rfl := Option.some.inj ((site.knows p battery).symm.trans known)
  exact ⟨_, ran, World.after_self at'⟩

/-- **A flush** leaves nothing that is still to be told. -/
theorem Watching.flush {panics : List (Heard Value H) → Heard Value H → Bool}
    (watching : Watching settings s i heardBefore watcher r₀ rest σ) (there : s.feedOf? .compositeBattery = some i)
    (spared : settings.catches = true ∨ ∀ heard told, panics heard told = false) {turns : Nat}
    (enough : σ.world.hub.pool.load + σ.world.hub.pool.size < turns) :
    ∃ φ news, Act.flush (client (Act.listen panics)) turns σ = some ((), φ) ∧ φ.memory = heardBefore ++ news ∧
      Reported (client (Act.listen panics)) watcher r₀ rest news φ := by
  obtain ⟨φ, more, ran, delivers, drained⟩ := Act.flush_at (c := client (Act.listen panics)) rfl (watching.spared spared)
    watching.calm.reachable watching.ready watching.unflushed enough
  have flushed := watching.delivers delivers
  obtain ⟨news, memory, hears⟩ := flushed.hears
  refine ⟨φ, news, ran, memory, fun p battery => ?_, fun p battery => flushed.gets _ there battery⟩
  obtain ⟨all, named⟩ := hears p battery
  rw [Hub.untold_of_drained drained, List.append_nil] at all
  rw [← all]
  refine List.filter_congr fun e mem => decide_eq_decide.2 ⟨named e mem, fun signal => ?_⟩
  have mem' : e ∈ news.filter (·.signal = p.key.id) := List.mem_filter.2 ⟨mem, by simpa using signal⟩
  rw [all] at mem'
  obtain ⟨v, -, rfl⟩ := List.mem_map.1 mem'
  rfl

end Flushed

/-- Nobody watches the battery of a monitor that has just been assembled. -/
theorem isUnwatched_of_assemble (assembled : assemble settings s = .ok start) (there : s.feedOf? .compositeBattery = some i)
    (given : s .compositeBattery = some (.compositeBattery r)) : IsUnwatched start i r := by
  obtain ⟨-, sources⟩ := (World.Opens.assembled assembled).eq
  obtain ⟨-, hub⟩ := Hub.eq_of_assemble (World.hub_of_assemble assembled)
  have planned := Sources.getElem?_plans there given
  refine ⟨World.isStill_of_assemble assembled, World.isReady_of_assemble assembled, by rw [hub]; rfl, fun p _ => ?_, ?_⟩
  · rw [WorkerPool.queued, World.queue_of_assemble assembled]
    rfl
  · refine ⟨⟨.ofPlan SourceKind.compositeBattery.plan, { provider := .ofInitial (.compositeBattery r) }⟩, ⟨?_, ?_⟩, rfl, rfl, rfl,
      rfl, rfl⟩
    · rw [hub, List.getElem?_map, List.getElem?_map, planned]
      rfl
    · rw [sources, List.getElem?_map, planned]
      rfl

/-- **The battery from end to end.** Nobody watches the battery of a new monitor, and whenever nobody does three
watchers can subscribe to its signals. Whatever is pushed then, and however far the workers get in between, the next
flush has told each of them what there is to hear of its own signal, and reads tell the last record. No record is
refused at any time; a record is heard where it changes what is derived from it; records that are alike are heard alike. -/
theorem battery_end_to_end (assembled : assemble settings s = .ok start) (there : s.feedOf? .compositeBattery = some i)
    (panics : List (Heard Value H) → Heard Value H → Bool)
    (spared : settings.catches = true ∨ ∀ heard told, panics heard told = false) (handler : PowerSignal → H) :
    (∀ r, s .compositeBattery = some (.compositeBattery r) → IsUnwatched start i r) ∧
    (∀ (first : Session Value H Report (List (Heard Value H))) (r : BatteryRecord),
      start.Comes first.world → IsUnwatched first.world i r →
      ∃ τ, watchBattery (client (Act.listen panics)) handler first =
          some ((.ok (tokenFrom first.world.hub.nextToken .remainingChargePercent),
            .ok (tokenFrom first.world.hub.nextToken .batteryStatus),
            .ok (tokenFrom first.world.hub.nextToken .powerSupplyStatus)), τ) ∧
        ∀ turns : List BatteryTurn, ∃ υ, (turns.forM (BatteryTurn.play (client (Act.listen panics)) i)) τ = some (⟨⟩, υ) ∧
          ∃ least, ∀ n, least < n → ∃ φ news, Act.flush (client (Act.listen panics)) n υ = some ((), φ) ∧
            φ.memory = first.memory ++ news ∧
            Reported (client (Act.listen panics)) (fun p => (tokenFrom first.world.hub.nextToken p, handler p)) r
              (BatteryTurn.records turns) news φ) ∧
    (∀ v f, start.Comes v → v.hub.feeds[i]? = some f → ∀ r : BatteryRecord,
      f.admissible (Report.compositeBattery r).decode = .ok (Report.decodeBattery r).toList) ∧
    (∀ (p : PowerSignal) (r : BatteryRecord) (rs : List BatteryRecord) (next : BatteryRecord),
      BatteryRecord.heard p r (rs ++ [next]) = BatteryRecord.heard p r rs ++
        if next.derived p = (rs.getLastD r).derived p then [] else [next.derived p]) ∧
    ∀ (p : PowerSignal) (r r' : BatteryRecord) (rs rs' : List BatteryRecord),
      List.Forall₂ BatteryRecord.Alike (r :: rs) (r' :: rs') → BatteryRecord.heard p r rs = BatteryRecord.heard p r' rs' := by
  refine ⟨fun r => isUnwatched_of_assemble assembled there, fun first r comes unwatched => ?_, fun v f comes known r => ?_,
    BatteryRecord.heard_concat, fun p r r' rs rs' alike => BatteryRecord.heard_of_alike alike p⟩
  · obtain ⟨τ, ran, watching⟩ := watching_of_unwatched (Act.listen panics) assembled comes there unwatched handler
    refine ⟨τ, ran, fun turns => ?_⟩
    obtain ⟨υ, played, watching⟩ := watching.play there spared turns
    exact ⟨υ, played, _, fun n enough => watching.flush there spared enough⟩
  · exact admissible_battery (comes.reachable (.assembled (World.hub_of_assemble assembled))) there known r

/-- A battery that is drained from a half to a third changes its charge only. -/
theorem draining_is_heard :
    let r : BatteryRecord := ⟨1, .discharging, 300, 150⟩
    let r' : BatteryRecord := ⟨2, .discharging, 300, 100⟩
    ∃ start, assemble {} (.ofList [(.compositeBattery, .compositeBattery r)]) = .ok start ∧
      ∃ τ υ φ news, watchBattery (client (Act.listen fun _ _ => true)) (fun p => p.key.id)
          { world := start, memory := [] } = some ((.ok ⟨1⟩, .ok ⟨2⟩, .ok ⟨3⟩), τ) ∧
        ([BatteryTurn.report r', .work 0].forM (BatteryTurn.play (client (Act.listen fun _ _ => true)) 0)) τ = some (⟨⟩, υ) ∧
        (∃ n, Act.flush (client (Act.listen fun _ _ => true)) n υ = some ((), φ)) ∧ φ.memory = news ∧
        (news.filter (·.token = ⟨1⟩)).map (·.value) = [.percent (some 33)] ∧ news.filter (·.token = ⟨2⟩) = [] ∧
        news.filter (·.token = ⟨3⟩) = [] := by
  intro r r'
  obtain ⟨start, assembled⟩ := exists_assemble (H := SignalId) (by decide : ({} : Settings).runtime ≠ .absent)
    (.ofList [(.compositeBattery, .compositeBattery r)])
  obtain ⟨fresh, watched, -⟩ := battery_end_to_end assembled (i := 0) (by decide) (fun _ _ => true) (.inl rfl) fun p => p.key.id
  obtain ⟨-, hub⟩ := Hub.eq_of_assemble (World.hub_of_assemble assembled)
  have first : start.hub.nextToken = 1 := by rw [hub]
  obtain ⟨τ, ran, played⟩ := watched { world := start, memory := [] } r (.refl _) (fresh r rfl)
  obtain ⟨υ, played, least, flushed⟩ := played [.report r', .work 0]
  obtain ⟨φ, news, flushed, memory, reported⟩ := flushed (least + 1) (Nat.lt_succ_self _)
  dsimp only at ran memory reported
  rw [first] at ran reported
  refine ⟨start, assembled, τ, υ, φ, news, ran, played, ⟨_, flushed⟩, memory, ?_, ?_, ?_⟩
  · exact (congrArg _ (reported.told .remainingChargePercent rfl)).trans (by decide)
  · exact (reported.told .batteryStatus rfl).trans (by decide)
  · exact (reported.told .powerSupplyStatus rfl).trans (by decide)

end Monitor

end LazyHub.Power
