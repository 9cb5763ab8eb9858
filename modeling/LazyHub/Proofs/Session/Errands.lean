import LazyHub.Proofs.Session.Scripts

/-!
# What a deed does at a site

Most deeds come down to an `Errand` at one site: a request to the feed, or something that happens to its provider.
What is answered and what the site is like afterwards is a function of the site (`Site.undergo`), and nothing else
in the world changes but the next token and the queues (`DoneAt`, `Deed.plays_at`). A deed that finds no feed changes
nothing but the journal (`Deed.plays_nowhere`).

`Steady` is what holds between deeds, and `Steady.doneAt` says that it does.
-/

namespace LazyHub

variable {V H R : Type}

/-- What a deed comes down to at one site. -/
inductive Errand (R H : Type) where
  /-- The feed is asked for something. -/
  | request (request : FeedRequest H)
  /-- The provider pushes a payload. -/
  | push (payload : R)
  /-- The provider tells a payload that queries do not show. -/
  | announce (payload : R)
  /-- The provider's payload changes. -/
  | set (payload : R)
  /-- The provider is armed to refuse its next call of one sort. -/
  | refuse (call : ProviderCall) (message : String)

/-- What a provider is like with another payload, and so on. -/
def Site.onProvider (x : Site V H R) (f : LocalProvider R Nat → LocalProvider R Nat) : Site V H R :=
  { x with source := { x.source with provider := f x.source.provider } }

section Undergo

variable [SignalValue V] (dec : R → Except DecodeFailure (Emissions V)) (thread : Thread)

/-- **What comes of an errand** that finds its site at rest: the answer, the site, and what the feed then owes. -/
def Site.undergo (x : Site V H R) : Errand R H → Answer × Site V H R × List (Emission V)
  | .request request => ((x.fulfil dec thread request).1, (x.fulfil dec thread request).2, [])
  | .push payload => (.done, (x.onProvider (·.set payload)).receive dec payload)
  | .announce payload => (.done, x.receive dec payload)
  | .set payload => (.done, x.onProvider (·.set payload), [])
  | .refuse call message => (.done, x.onProvider (·.refuse call message), [])

variable {dec thread} {x : Site V H R}

/-- The end of a subscription that nobody has is none. -/
theorem Site.fulfil_unsubscribe (dec : R → Except DecodeFailure (Emissions V)) (thread : Thread) {signal : SignalId} {token : Token}
    (unknown : ((x.feed.outlet? signal).map (·.subscribers.contains token)).getD false = false) :
    x.fulfil dec thread (.unsubscribe signal token) = (.unknownToken, x) := by
  simp only [fulfil, unknown, Bool.false_eq_true, if_false]

theorem Site.IsAtRest.undergo (rest : x.IsAtRest) (errand : Errand R H) : (x.undergo dec thread errand).2.1.IsAtRest := by
  cases errand with
  | request request => exact rest.fulfil request
  | push payload =>
    have changed : (x.onProvider (·.set payload)).IsAtRest := rest.provider rfl
    exact changed.receive payload
  | announce payload => exact rest.receive payload
  | set payload => exact rest.provider rfl
  | refuse call message => exact rest.provider (by cases call <;> rfl)

end Undergo

/-- A deed is done at one site. -/
structure DoneAt [SignalValue V] (s t : Session V H R (List (Heard V H))) (i : Nat) (y : Site V H R) (drawn : Nat)
    (owed : List (Emission V)) : Prop where
  /-- Nothing changes but the site, the next token and the queues. -/
  world : t.world = (s.world.drawing drawn).after i y owed
  /-- Nobody is told anything. -/
  memory : t.memory = s.memory
  /-- The client stays on its thread. -/
  thread : t.thread = s.thread
  /-- It happens step by step. -/
  comes : s.world.Comes t.world

/-- **What holds between deeds.** -/
structure Steady [SignalValue V] (settings : Settings) (plans : List (FeedPlan V)) (issued : Issued)
    (s : Session V H R (List (Heard V H))) : Prop where
  /-- Nothing is under way. -/
  calm : s.world.IsCalm settings plans
  /-- No worker is doing anything. -/
  ready : s.world.hub.pool.IsReady
  /-- No flush is under way. -/
  unflushed : s.world.hub.pool.flushes = []
  /-- Who was told something had a token. -/
  heard : ∀ h ∈ s.memory, h.token.serial < s.world.hub.nextToken
  /-- Tokens are drawn one after another. -/
  drawn : ∀ e ∈ issued, e.2.serial < s.world.hub.nextToken

namespace Deed

/-- What a deed comes down to at one site, if it finds one. -/
def errand? (h : Hub V H R) (issued : Issued) : Deed R H → Option (Nat × Errand R H)
  | read key => (h.route key).toOption.map fun i => (i, .request .refresh)
  | subscribe key handler => (h.route key).toOption.map fun i => (i, .request (.subscribe key.id ⟨h.nextToken⟩ handler))
  | unsubscribe signal ticket =>
    (h.feedOf? signal).bind fun i => (ticket.token? issued).map fun token => (i, .request (.unsubscribe signal token))
  | push i payload => if i < h.feeds.length then some (i, .push payload) else none
  | announce i payload => if i < h.feeds.length then some (i, .announce payload) else none
  | set i payload => if i < h.feeds.length then some (i, .set payload) else none
  | refuse i call message => if i < h.feeds.length then some (i, .refuse call message) else none
  | flush => none
  | shutdown => none

/-- How many tokens a deed draws that finds its site. -/
def draws : Deed R H → Nat
  | subscribe .. => 1
  | _ => 0

/-- Whether a deed is about the whole hub. -/
def isGeneral : Deed R H → Bool
  | flush => true
  | shutdown => true
  | _ => false

/-- What is answered to a deed that is done at a site, and the tokens that are handed out. -/
def outcome (i : Nat) (token : Token) (answer : Answer) (y : Site V H R) : Deed R H → Reply V × Issued
  | read key =>
    (.read (answer.toExcept.bind fun _ => (y.feed.cached? key.id).elim (.error (.unknownSignal key.id)) .ok), [])
  | subscribe .. => (.subscribed answer.toExcept, if answer.toExcept.isOk then [(i, token)] else [])
  | _ => (.done, [])

/-- What is answered to a deed that finds no site. -/
def missed (h : Hub V H R) : Deed R H → Reply V
  | read key => .read ((h.route key).bind fun _ => .error (.unknownSignal key.id))
  | subscribe key _ => .subscribed ((h.route key).map fun _ => ())
  | _ => .done

end Deed

section Steady

variable [SignalValue V] {settings : Settings} {plans : List (FeedPlan V)} {issued : Issued}
  {s t : Session V H R (List (Heard V H))} {i : Nat} {x y : Site V H R} {n : Nat} {owed : List (Emission V)}

theorem Steady.doneAt (steady : Steady settings plans issued s) (done : DoneAt s t i y n owed) (rest : y.IsAtRest) :
    Steady settings plans issued t := by
  have pool : t.world.hub.pool = Hub.posting i s.world.hub.pool owed := congrArg (·.hub.pool) done.world
  have next : t.world.hub.nextToken = s.world.hub.nextToken + n := congrArg (·.hub.nextToken) done.world
  refine ⟨?_, ?_, ?_, fun h mem => ?_, fun e mem => ?_⟩
  · have comes := done.comes
    rw [done.world] at comes ⊢
    exact steady.calm.after comes rest
  · rw [pool]
    exact Hub.ready_posting steady.ready owed
  · rw [pool, Hub.flushes_posting, steady.unflushed]
  · rw [next]
    exact Nat.lt_of_lt_of_le (steady.heard h (done.memory ▸ mem)) (Nat.le_add_right _ _)
  · rw [next]
    exact Nat.lt_of_lt_of_le (steady.drawn e mem) (Nat.le_add_right _ _)

/-- Nothing is done at the site. -/
theorem DoneAt.world_eq (done : DoneAt s t i x 0 []) (at' : s.world.HasSite i x) : t.world = s.world :=
  done.world.trans (World.after_self (w := s.world.drawing 0) ⟨at'.feed, at'.source⟩)

/-- What the journal says does not matter. -/
theorem Steady.noted (steady : Steady settings plans issued s) (journal : List Entry) :
    Steady settings plans issued { s with journal } :=
  ⟨steady.calm, steady.ready, steady.unflushed, steady.heard, steady.drawn⟩

/-- More tokens are handed out. -/
theorem Steady.issue (steady : Steady settings plans issued s) {more : Issued}
    (drawn : ∀ e ∈ more, e.2.serial < s.world.hub.nextToken) : Steady settings plans (issued ++ more) s :=
  ⟨steady.calm, steady.ready, steady.unflushed, steady.heard, fun e mem =>
    (List.mem_append.1 mem).elim (steady.drawn e) (drawn e)⟩

/-- Everything is steady again once the workers are done. -/
theorem Steady.delivers {news : List (Heard V H)} (steady : Steady settings plans issued s) (delivers : Delivers s news t) :
    Steady settings plans issued t := by
  have next : t.world.hub.nextToken = s.world.hub.nextToken := congrArg (·.hub.nextToken) delivers.world_eq
  refine ⟨delivers.calm steady.calm, delivers.ready, delivers.unflushed steady.unflushed, fun h mem => ?_, next ▸ steady.drawn⟩
  rw [next]
  rw [delivers.memory_eq] at mem
  rcases List.mem_append.1 mem with mem | mem
  · exact steady.heard h mem
  · obtain ⟨i, listed⟩ := delivers.listed mem
    exact (steady.calm.reachable.spent_of_mem listed).1

theorem Steady.shuts {is : List Nat} {v : World V H R} {journal : List Entry} (steady : Steady settings plans issued s)
    (shuts : Act.Shuts settings plans s.thread is s.world v) : Steady settings plans issued { s with world := v, journal } := by
  obtain ⟨calm, ready, unflushed, heard, drawn⟩ := steady
  have pool : v.hub.pool = s.world.hub.pool := congrArg (·.pool) shuts.hub
  have next : v.hub.nextToken = s.world.hub.nextToken := congrArg (·.nextToken) shuts.hub
  rw [← pool] at ready unflushed
  rw [← next] at heard drawn
  exact ⟨shuts.calm, ready, unflushed, heard, drawn⟩

end Steady

namespace Deed

variable [SignalValue V] {settings : Settings} {plans : List (FeedPlan V)} {issued : Issued}
  {dec : Nat → R → Except DecodeFailure (Emissions V)} {panics : List (Heard V H) → Heard V H → Bool}
  {s : Session V H R (List (Heard V H))} {i : Nat} {x : Site V H R}

omit [SignalValue V] in
theorem isPlain_hearing (i : Nat) : (Client.hearing dec panics : Client V H R _).IsPlain i (dec i) :=
  ⟨fun _ => rfl, rfl, rfl⟩

omit [SignalValue V] in
theorem route_eq_ok {h : Hub V H R} {key : Key} (routed : (h.route key).toOption = some i) : h.route key = .ok i := by
  cases route : h.route key with
  | error => rw [route] at routed; cases routed
  | ok => rw [route] at routed; cases routed; rfl

/-- What an act does at a site, it does there as a deed. -/
theorem doneAt_of_does {act : Act V H R (List (Heard V H)) Unit} {y : Site V H R} {owed : List (Emission V)}
    (does : act.Does s.thread i x () y owed) (steady : Steady settings plans issued s) (at' : s.world.HasSite i x) :
    ∃ t, (do at? i act; pure (Reply.done, issued) : Act V H R _ (Reply V × Issued)) s = some ((.done, issued ++ []), t) ∧
      DoneAt s t i y 0 owed := by
  obtain ⟨⟨journal, ran⟩, comes⟩ := does s rfl steady.calm.held at'
  have here : at? i act s = some ((), { s with world := s.world.after i y owed, journal }) := by
    rw [at?, Act.bind_at (Act.hub_at s), if_pos at'.lt.1]
    exact ran
  refine ⟨{ s with world := s.world.after i y owed, journal }, ?_, rfl, rfl, rfl, comes⟩
  rw [Act.bind_at here, List.append_nil]
  rfl

/-- **A deed that finds its site** does there what the errand comes to. -/
theorem plays_at (dec : Nat → R → Except DecodeFailure (Emissions V)) (panics : List (Heard V H) → Heard V H → Bool)
    (steady : Steady settings plans issued s) {deed : Deed R H} {errand : Errand R H}
    (finds : deed.errand? s.world.hub issued = some (i, errand)) (at' : s.world.HasSite i x) :
    let o := x.undergo (dec i) s.thread errand
    let a := deed.outcome i ⟨s.world.hub.nextToken⟩ o.1 o.2.1
    ∃ t, (∀ turns, deed.play (Client.hearing dec panics) turns issued s = some ((a.1, issued ++ a.2), t)) ∧
      DoneAt s t i o.2.1 deed.draws o.2.2 := by
  have plain : (Client.hearing dec panics : Client V H R _).IsPlain i (dec i) := isPlain_hearing i
  have calm := steady.calm
  have rest := calm.rest i x at'
  -- what happens to a provider is done at the site whose number the deed gives
  have provided : ∀ {act : Act V H R (List (Heard V H)) Unit} {y : Site V H R} {owed : List (Emission V)},
      act.Does s.thread i x () y owed → ∃ t,
        (∀ turns : Nat, (do at? i act; pure (Reply.done, issued) : Act V H R _ (Reply V × Issued)) s = some ((.done, issued ++ []), t)) ∧
          DoneAt s t i y 0 owed := fun does => by
    obtain ⟨t, ran, done⟩ := doneAt_of_does does steady at'
    exact ⟨t, fun _ => ran, done⟩
  cases deed with
  | read key =>
    obtain ⟨j, routed, eq⟩ := Option.map_eq_some_iff.1 finds
    cases eq
    obtain ⟨comes, journal, v, known, ran⟩ := Act.read_at plain calm (route_eq_ok routed) at' rfl
    refine ⟨{ s with world := s.world.after i (x.fulfil (dec i) s.thread .refresh).2 [], journal }, fun turns => ?_, rfl, rfl,
      rfl, comes⟩
    rw [play, Act.bind_at ran]
    simp only [outcome, Site.undergo, known, Option.elim, List.append_nil]
    cases (x.fulfil (dec i) s.thread .refresh).1.toExcept <;> rfl
  | subscribe key handler =>
    obtain ⟨j, routed, eq⟩ := Option.map_eq_some_iff.1 finds
    cases eq
    obtain ⟨o, fulfilled⟩ : ∃ o, x.fulfil (dec i) s.thread (.subscribe key.id ⟨s.world.hub.nextToken⟩ handler) = o := ⟨_, rfl⟩
    obtain ⟨comes, journal, ran⟩ := Act.subscribe_at plain calm (route_eq_ok routed) at' fulfilled
    let t : Session V H R (List (Heard V H)) := { s with world := (s.world.drawing 1).after i o.2 [], journal }
    have routed' : t.world.hub.feedOf? key.id = some i :=
      Hub.feedOf?_of_route (calm.reachable.route_eq (comes.reachable calm.reachable) (route_eq_ok routed))
    simp only [outcome, Site.undergo, fulfilled]
    refine ⟨t, fun turns => ?_, rfl, rfl, rfl, comes⟩
    rw [play, Act.bind_at ran]
    cases o.1.toExcept with
    | error failure =>
      simp only [Except.map, Except.isOk, Except.toBool, Bool.false_eq_true, if_false, List.append_nil]
      rfl
    | ok =>
      simp only [Except.map, Except.isOk, Except.toBool, if_true]
      rw [Act.bind_at (Act.hub_at t), routed']
      rfl
  | unsubscribe signal ticket =>
    obtain ⟨j, feed, named⟩ := Option.bind_eq_some_iff.1 finds
    obtain ⟨token, drawn, eq⟩ := Option.map_eq_some_iff.1 named
    cases eq
    obtain ⟨comes, journal, ran⟩ := Act.unsubscribe_at plain calm feed at' rfl
    refine ⟨{ s with world := s.world.after i (x.fulfil (dec i) s.thread (.unsubscribe signal token)).2 [], journal },
      fun turns => ?_, rfl, rfl, rfl, comes⟩
    simp only [play, drawn, outcome, List.append_nil]
    rw [Act.bind_at ran]
    rfl
  | push j payload =>
    simp only [errand?] at finds
    split at finds <;> cases finds
    exact provided (Act.does_push plain rest payload)
  | announce j payload =>
    simp only [errand?] at finds
    split at finds <;> cases finds
    exact provided (Act.does_announce plain rest payload)
  | set j payload =>
    simp only [errand?] at finds
    split at finds <;> cases finds
    exact provided (Act.does_set x payload)
  | refuse j call message =>
    simp only [errand?] at finds
    split at finds <;> cases finds
    exact provided (Act.does_refuse x call message)
  | flush => cases finds
  | shutdown => cases finds

/-- There is a site where an errand is done. -/
theorem exists_site (steady : Steady settings plans issued s) {deed : Deed R H} {errand : Errand R H}
    (finds : deed.errand? s.world.hub issued = some (i, errand)) : ∃ x, s.world.HasSite i x := by
  cases deed with
  | read key | subscribe key handler =>
    obtain ⟨j, routed, eq⟩ := Option.map_eq_some_iff.1 finds
    cases eq
    exact steady.calm.exists_site_of_feedOf? (Hub.feedOf?_of_route (route_eq_ok routed))
  | unsubscribe signal ticket =>
    obtain ⟨j, feed, named⟩ := Option.bind_eq_some_iff.1 finds
    obtain ⟨token, -, eq⟩ := Option.map_eq_some_iff.1 named
    cases eq
    exact steady.calm.exists_site_of_feedOf? feed
  | push j payload | announce j payload | set j payload | refuse j call message =>
    simp only [errand?] at finds
    split at finds <;> cases finds
    exact steady.calm.exists_site ‹_›
  | flush | shutdown => cases finds

omit [SignalValue V] in
/-- Tokens are drawn one after another. -/
theorem drawn_of_mem_outcome {deed : Deed R H} {n : Nat} {answer : Answer} {y : Site V H R} {e : Nat × Token}
    (mem : e ∈ (deed.outcome i ⟨n⟩ answer y).2) : e.1 = i ∧ e.2.serial < n + deed.draws := by
  cases deed with
  | subscribe key handler =>
    simp only [outcome] at mem
    split at mem
    · obtain rfl := List.mem_singleton.1 mem
      exact ⟨rfl, Nat.lt_succ_self n⟩
    · cases mem
  | _ => cases mem

/-- A deed that is done at a site leaves everything steady. -/
theorem steady_of_doneAt (steady : Steady settings plans issued s) (at' : s.world.HasSite i x) {deed : Deed R H}
    {errand : Errand R H} {d : R → Except DecodeFailure (Emissions V)} {t : Session V H R (List (Heard V H))}
    (done : DoneAt s t i (x.undergo d s.thread errand).2.1 deed.draws (x.undergo d s.thread errand).2.2) :
    Steady settings plans (issued ++
      (deed.outcome i ⟨s.world.hub.nextToken⟩ (x.undergo d s.thread errand).1 (x.undergo d s.thread errand).2.1).2) t := by
  have next : t.world.hub.nextToken = s.world.hub.nextToken + deed.draws := congrArg (·.hub.nextToken) done.world
  refine (steady.doneAt done ((steady.calm.rest i x at').undergo errand)).issue fun e mem => ?_
  rw [next]
  exact (drawn_of_mem_outcome mem).2

/-- **A deed that finds no site** changes nothing but the journal. -/
theorem plays_nowhere {deed : Deed R H} (special : deed.isGeneral = false) (misses : deed.errand? s.world.hub issued = none)
    (c : Client V H R (List (Heard V H))) :
    ∃ journal, ∀ turns, deed.play c turns issued s = some ((deed.missed s.world.hub, issued), { s with journal }) := by
  cases deed with
  | read key =>
    cases route : s.world.hub.route key with
    | ok => simp [errand?, route, Except.toOption] at misses
    | error failure =>
      refine ⟨s.journal, fun turns => ?_⟩
      rw [play, Act.bind_at (Act.read_unrouted route), missed, route]
      rfl
  | subscribe key handler =>
    cases route : s.world.hub.route key with
    | ok => simp [errand?, route, Except.toOption] at misses
    | error failure =>
      refine ⟨s.journal, fun turns => ?_⟩
      rw [play, Act.bind_at (Act.subscribe_unrouted route handler), missed, route]
      rfl
  | unsubscribe signal ticket =>
    cases token : ticket.token? issued with
    | none =>
      refine ⟨s.journal, fun turns => ?_⟩
      simp only [play, token]
      rfl
    | some token' =>
      have none : s.world.hub.feedOf? signal = none := by
        cases feed : s.world.hub.feedOf? signal with
        | none => rfl
        | some => simp [errand?, token, feed] at misses
      refine ⟨.unsubscribeUnknownSignal token' signal :: s.journal, fun turns => ?_⟩
      simp only [play, token]
      rw [Act.bind_at (Act.unsubscribe_unrouted none token')]
      rfl
  | push j payload | announce j payload | set j payload | refuse j call message =>
    have missing : ¬ j < s.world.hub.feeds.length := fun lt => by simp [errand?, lt] at misses
    refine ⟨s.journal, fun turns => ?_⟩
    rw [play, at?]
    have nothing : ∀ act : Act V H R (List (Heard V H)) Unit, at? j act s = some ((), s) := fun act => by
      rw [at?, Act.bind_at (Act.hub_at s), if_neg missing]
      rfl
    exact Act.bind_at (nothing _)
  | flush => cases special
  | shutdown => cases special

end Deed

end LazyHub
