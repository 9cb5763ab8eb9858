import LazyHub.Proofs.Hub.Unused
import LazyHub.Proofs.Session.Errands

/-!
# Sessions that mirror each other at some feeds

A session `s'` *mirrors* a session `s` at some of the feeds (`Mirrors`) if its sites there resemble those of `s`, if
the same values wait to be told, and if the same was told, all under the tokens that `τ` gives to those of `s`. What
is done at these feeds in both sessions has the same answers, and afterwards the sessions mirror each other again
(`Mirrors.doneAt`, `Mirrors.delivers`, `Mirrors.shuts`); what is done elsewhere in `s'` alone does not matter, but for
the tokens that it draws (`Mirrors.elsewhere`).

Tokens that have lapsed are of no use to anybody in any session (`Hub.Lapsed`, `Act.unsubscribe_lapsed`).
-/

namespace LazyHub

variable {V H R : Type}

/-! ### Tokens that nobody is subscribed under -/

/-- A token has lapsed: it was spent, and nobody is subscribed under it, or no longer so. -/
structure Hub.Lapsed (h : Hub V H R) (token : Token) : Prop where
  /-- It was drawn, and its subscription has been added or has failed. -/
  spent : h.Spent token
  /-- Nobody is subscribed under it. -/
  unlisted : ∀ i signal handler, (token, handler) ∉ h.subscribersOf i signal

section Lapsed

variable [SignalValue V] {w v : World V H R} {token : Token} {i : Nat} {x : Site V H R}

/-- **A token that has lapsed is of no use for ever after.** -/
theorem World.Comes.lapsed (comes : w.Comes v) (lapsed : w.hub.Lapsed token) : v.hub.Lapsed token := by
  obtain ⟨labels, es, own, ran⟩ := comes
  obtain ⟨labels, -, ran⟩ := hub_of_run ran own
  exact ⟨run_keeps (P := (Hub.Spent · token)) (fun _ _ _ _ spent made => (Hub.transition_of_step made).spent spent) ran lapsed.spent,
    fun i signal handler mem => lapsed.unlisted i signal handler (Hub.lists_of_spent ran lapsed.spent mem)⟩

omit [SignalValue V] in
theorem World.HasSite.contains_lapsed (at' : w.HasSite i x) (lapsed : w.hub.Lapsed token) (signal : SignalId) :
    ((x.feed.outlet? signal).map (·.subscribers.contains token)).getD false = false := by
  have unlisted := lapsed.unlisted i signal
  rw [at'.subscribersOf] at unlisted
  cases known : x.feed.outlet? signal with
  | none => rfl
  | some o =>
    rw [known] at unlisted
    refine List.any_eq_false.2 fun e mem here => ?_
    obtain rfl : e.1 = token := by simpa using here
    exact unlisted e.2 mem

/-- **The end of a subscription under a token that has lapsed** is none. -/
theorem Act.unsubscribe_lapsed {X : Type} {settings : Settings} {plans : List (FeedPlan V)} {c : Client V H R X}
    {dec : Nat → R → Except DecodeFailure (Emissions V)} {s : Session V H R X} (plain : ∀ i, c.IsPlain i (dec i))
    (calm : s.world.IsCalm settings plans) (lapsed : s.world.hub.Lapsed token) (signal : SignalId) :
    ∃ journal, Act.unsubscribe c signal token s = some ((), { s with journal }) := by
  cases routes : s.world.hub.feedOf? signal with
  | none => exact ⟨_, Act.unsubscribe_unrouted routes token⟩
  | some i =>
    obtain ⟨x, at'⟩ := calm.exists_site_of_feedOf? routes
    obtain ⟨-, journal, ran⟩ := Act.unsubscribe_at (plain i) calm routes at'
      (Site.fulfil_unsubscribe (dec i) s.thread (at'.contains_lapsed lapsed signal))
    rw [World.after_self at'] at ran
    exact ⟨journal, ran⟩

end Lapsed

/-! ### Other numbers -/

/-- What was told, where tokens have other numbers. -/
def Heard.renumber (τ : ℕ ↪o ℕ) (h : Heard V H) : Heard V H := { h with token := h.token.renumber τ }

/-- An errand whose token has another number. -/
def Errand.renumber (τ : ℕ ↪o ℕ) : Errand R H → Errand R H
  | .request asked => .request (asked.renumber τ)
  | errand => errand

/-- Tokens that were drawn, under other numbers. -/
def Issued.renumber (τ : ℕ ↪o ℕ) (issued : Issued) : Issued := issued.map fun e => (e.1, e.2.renumber τ)

/-- A renumbering that leaves a gap. -/
theorem exists_gap (τ : ℕ ↪o ℕ) (n m : ℕ) : ∃ τ' : ℕ ↪o ℕ, (∀ k < n, τ' k = τ k) ∧ ∀ k, n ≤ k → τ' k = τ k + m := by
  have mono : StrictMono fun k => if k < n then τ k else τ k + m := fun a b lt => by
    have lt' : τ a < τ b := τ.lt_iff_lt.2 lt
    dsimp only
    split <;> split <;> omega
  exact ⟨.ofStrictMono _ mono, fun k lt => if_pos lt, fun k le => if_neg (Nat.not_lt.2 le)⟩

namespace Issued

variable {τ : ℕ ↪o ℕ} {issued issued' : Issued} {K : Option Nat → Bool} {k : Nat}

/-- The tokens of a feed are under other numbers if all of those that matter are. -/
theorem of_eq (same : issued'.filter (fun e => K (some e.1)) = issued.renumber τ) (there : K (some k) = true) :
    issued'.of k = (issued.of k).map (·.renumber τ) := by
  have kept : issued'.filter (·.1 = k) = (issued.renumber τ).filter (·.1 = k) := by
    rw [← same, List.filter_filter]
    refine List.filter_congr fun e _ => ?_
    by_cases here : e.1 = k <;> simp [here, there]
  rw [of, kept, renumber, List.filter_map, List.map_map, of, List.map_map]
  rfl

end Issued

namespace Site.Resembles

variable {τ : ℕ ↪o ℕ} {d : ℕ} {x y : Site V H R}

/-- **Sites that resemble each other look the same**, if the same was told of them. -/
theorem sight_eq (like : x.Resembles τ d y) {told told' : List (Heard V H)} {tokens tokens' : List Token}
    (heard : ∀ o ∈ x.feed.outlets, told'.filter (·.signal = o.key.id) = (told.filter (·.signal = o.key.id)).map (·.renumber τ))
    (drawn : tokens' = tokens.map (·.renumber τ)) : y.sight told' tokens' = x.sight told tokens := by
  have ordinal : ∀ token, tokens'.findIdx? (· = token.renumber τ) = tokens.findIdx? (· = token) := by
    intro token
    rw [drawn, List.findIdx?_map]
    simp only [Function.comp_def, Token.renumber_inj]
  have provider : y.source.provider.map (fun _ => ()) = x.source.provider.map fun _ => () := by
    rw [like.provider, LocalProvider.map, LocalProvider.map, LocalProvider.map, Option.map_map]
    rfl
  have signals : y.feed.outlets.map (fun o => o.sight told' tokens') = x.feed.outlets.map fun o => o.sight told tokens := by
    rw [like.outlets, List.map_map]
    refine List.map_congr_left fun o mem => ?_
    rw [Function.comp_apply, Outlet.sight, Outlet.sight]
    refine (SignalSight.mk.injEq ..).mpr ⟨rfl, rfl, o.subscribers.size_renumber τ, ?_⟩
    change (told'.filter (·.signal = o.key.id)).map _ = _
    rw [heard o mem, List.map_map]
    refine List.map_congr_left fun h _ => ?_
    exact congrArg (·, h.handler, h.value) (ordinal h.token)
  rw [Site.sight, Site.sight, signals, like.isActive_eq, like.count, provider]

/-- **Errands end alike** at sites that resemble each other. -/
theorem undergo [SignalValue V] (like : x.Resembles τ d y) (dec : R → Except DecodeFailure (Emissions V)) (thread : Thread)
    (errand : Errand R H) :
    (y.undergo dec thread (errand.renumber τ)).1 = (x.undergo dec thread errand).1 ∧
      (x.undergo dec thread errand).2.1.Resembles τ d (y.undergo dec thread (errand.renumber τ)).2.1 ∧
      (y.undergo dec thread (errand.renumber τ)).2.2 = (x.undergo dec thread errand).2.2 := by
  cases errand with
  | request request =>
    have ended : Resemble τ d (x.fulfil dec thread request) (y.fulfil dec thread (request.renumber τ)) := like.fulfil thread request
    exact ⟨ended.1, ended.2, rfl⟩
  | push payload =>
    have changed : (x.onProvider (·.set payload)).Resembles τ d (y.onProvider (·.set payload)) :=
      like.change (congrArg (·.set payload) like.provider)
    obtain ⟨owed, like⟩ := changed.receive dec payload
    exact ⟨rfl, like, owed⟩
  | announce payload =>
    obtain ⟨owed, like⟩ := like.receive dec payload
    exact ⟨rfl, like, owed⟩
  | set payload => exact ⟨rfl, like.change (congrArg (·.set payload) like.provider), rfl⟩
  | refuse call message =>
    refine ⟨rfl, like.change ?_, rfl⟩
    exact (congrArg (·.refuse call message) like.provider).trans (LocalProvider.refuse_map _ _ call message)

end Site.Resembles

/-- Deeds that are done alike have the same answer, and draw the same tokens under other numbers. -/
theorem Deed.outcome_eq {τ : ℕ ↪o ℕ} {d i : ℕ} {y y' : Site V H R} (like : y.Resembles τ d y') (deed : Deed R H) (token : Token)
    (answer : Answer) : (deed.outcome i (token.renumber τ) answer y').1 = (deed.outcome i token answer y).1 ∧
      (deed.outcome i (token.renumber τ) answer y').2 = Issued.renumber τ (deed.outcome i token answer y).2 := by
  cases deed with
  | read key => exact ⟨by rw [outcome, outcome, like.cached?_eq], rfl⟩
  | subscribe key handler =>
    refine ⟨rfl, ?_⟩
    simp only [outcome]
    split <;> rfl
  | _ => exact ⟨rfl, rfl⟩

/-! ### Mirrors -/

/-- **A session mirrors another one** at some feeds: those that `K` picks, where `h` is a hub that has the same signals.
What is there is the same, but for numbers, and so is what waits and what was told. Tokens that are `stale` are not in
use there. -/
structure Mirrors (K : Option Nat → Bool) (stale : Token → Prop) (h : Hub V H R) (d : Nat → Nat) (τ : ℕ ↪o ℕ)
    (issued issued' : Issued) (s s' : Session V H R (List (Heard V H))) : Prop where
  /-- The clients act on the same thread. -/
  thread : s'.thread = s.thread
  /-- The sites resemble each other. -/
  sites : ∀ k x, K (some k) = true → s.world.HasSite k x → ∃ y, s'.world.HasSite k y ∧ x.Resembles τ (d k) y
  /-- The same values wait to be told. -/
  waiting : ∀ k signal, K (some k) = true → s'.world.hub.waiting k signal = s.world.hub.waiting k signal
  /-- The same was told. -/
  told : ∀ k signal, K (some k) = true → h.feedOf? signal = some k →
    s'.memory.filter (·.signal = signal) = (s.memory.filter (·.signal = signal)).map (·.renumber τ)
  /-- The same tokens are drawn, and in the first session no others. -/
  issued : issued'.filter (fun e => K (some e.1)) = issued.renumber τ
  /-- The tokens that are drawn next correspond to each other. -/
  next : ∀ n, τ (s.world.hub.nextToken + n) = s'.world.hub.nextToken + n
  /-- Stale tokens are of no use. -/
  stale : ∀ token, stale token → s'.world.hub.Lapsed token

namespace Mirrors

variable [SignalValue V] {K : Option Nat → Bool} {stale : Token → Prop} {h : Hub V H R} {d : Nat → Nat} {τ : ℕ ↪o ℕ}
  {issued issued' : Issued} {s s' t t' : Session V H R (List (Heard V H))} {settings settings' : Settings}
  {plans plans' : List (FeedPlan V)} {i : Nat} {x y x' y' : Site V H R} {n : Nat} {owed : List (Emission V)}

omit [SignalValue V] in
/-- What the journals say does not matter. -/
theorem noted (mirrors : Mirrors K stale h d τ issued issued' s s') (journal journal' : List Entry) :
    Mirrors K stale h d τ issued issued' { s with journal } { s' with journal := journal' } :=
  ⟨mirrors.thread, mirrors.sites, mirrors.waiting, mirrors.told, mirrors.issued, mirrors.next, mirrors.stale⟩

/-- The same is done at a feed in both sessions. -/
theorem doneAt (mirrors : Mirrors K stale h d τ issued issued' s s') (steady : Steady settings plans issued s)
    (steady' : Steady settings' plans' issued' s') (at' : s.world.HasSite i x) (at'' : s'.world.HasSite i y)
    (done : DoneAt s t i x' n owed) (done' : DoneAt s' t' i y' n owed) (like : x'.Resembles τ (d i) y') :
    Mirrors K stale h d τ issued issued' t t' := by
  obtain ⟨world, memory, thread, -⟩ := done
  obtain ⟨world', memory', thread', comes'⟩ := done'
  refine ⟨by rw [thread, thread', mirrors.thread], fun k z there has => ?_, fun k signal there => ?_, fun k signal there served => ?_,
    mirrors.issued, fun m => ?_, fun token out => comes'.lapsed (mirrors.stale token out)⟩
  · rw [world] at has
    rw [world']
    by_cases here : k = i
    · subst here
      have left : ((s.world.drawing n).after k x' owed).HasSite k x' := World.HasSite.after (x := x) ⟨at'.feed, at'.source⟩
      have left' : ((s'.world.drawing n).after k y' owed).HasSite k y' := World.HasSite.after (x := y) ⟨at''.feed, at''.source⟩
      rw [has.unique left]
      exact ⟨y', left', like⟩
    · obtain ⟨feed, source⟩ := (World.hasSite_after_of_ne here).1 has
      obtain ⟨y, ⟨feed', source'⟩, like⟩ := mirrors.sites k z there ⟨feed, source⟩
      exact ⟨y, (World.hasSite_after_of_ne here).2 ⟨feed', source'⟩, like⟩
  · have before := World.waiting_after (i := i) (y := x') steady.calm.reachable steady.ready owed k signal
    have before' := World.waiting_after (i := i) (y := y') steady'.calm.reachable steady'.ready owed k signal
    rw [← mirrors.waiting k signal there, ← before'] at before
    rw [world, world']
    exact before.symm
  · rw [memory, memory', mirrors.told k signal there served]
  · rw [world, world']
    change τ (s.world.hub.nextToken + n + m) = s'.world.hub.nextToken + n + m
    rw [Nat.add_assoc, mirrors.next, Nat.add_assoc]

omit [SignalValue V] in
/-- The same tokens are handed out in both sessions. -/
theorem issue (mirrors : Mirrors K stale h d τ issued issued' s s') {more : Issued} (there : ∀ e ∈ more, K (some e.1) = true) :
    Mirrors K stale h d τ (issued ++ more) (issued' ++ more.renumber τ) s s' := by
  refine { mirrors with issued := ?_ }
  have all : (more.renumber τ).filter (fun e => K (some e.1)) = more.renumber τ := List.filter_eq_self.2 fun e renumbered => by
    obtain ⟨first, mem, rfl⟩ := List.mem_map.1 renumbered
    exact there first mem
  rw [List.filter_append, mirrors.issued, all, Issued.renumber, Issued.renumber, Issued.renumber, List.map_append]

omit [SignalValue V] in
/-- Tokens of other feeds are handed out. -/
theorem issueElsewhere (mirrors : Mirrors K stale h d τ issued issued' s s') {more : Issued}
    (other : ∀ e ∈ more, K (some e.1) = false) : Mirrors K stale h d τ issued (issued' ++ more) s s' := by
  refine { mirrors with issued := ?_ }
  have none : more.filter (fun e => K (some e.1)) = [] := List.filter_eq_nil_iff.2 fun e mem => by simp [other e mem]
  rw [List.filter_append, mirrors.issued, none, List.append_nil]

/-- What is done elsewhere in the second session alone makes for a gap in its tokens. -/
theorem elsewhere (mirrors : Mirrors K stale h d τ issued issued' s s') (steady : Steady settings plans issued s)
    (steady' : Steady settings' plans' issued' s') (other : K (some i) = false) (done' : DoneAt s' t' i y' n owed) :
    ∃ τ', Mirrors K stale h d τ' issued issued' s t' := by
  obtain ⟨world', memory', thread', comes'⟩ := done'
  obtain ⟨τ', below, above⟩ := exists_gap τ s.world.hub.nextToken n
  have kept : ∀ token : Token, token.serial < s.world.hub.nextToken → token.renumber τ' = token.renumber τ := fun token old => by
    rw [Token.renumber, Token.renumber, below _ old]
  have apart : ∀ k, K (some k) = true → k ≠ i := fun k there here => by
    rw [here, other] at there
    cases there
  refine ⟨τ', thread'.trans mirrors.thread, fun k z there has => ?_, fun k signal there => ?_, fun k signal there served => ?_, ?_,
    fun m => ?_, fun token out => comes'.lapsed (mirrors.stale token out)⟩
  · obtain ⟨y, ⟨feed', source'⟩, like⟩ := mirrors.sites k z there has
    rw [world']
    refine ⟨y, (World.hasSite_after_of_ne (apart k there)).2 ⟨feed', source'⟩, like.congr (List.map_congr_left fun o mem => ?_)⟩
    -- whoever is subscribed has a token that was drawn before
    have inHub := List.mem_of_getElem? has.feed
    refine Outlet.renumber_congr fun e listed => below _ ?_
    exact (steady.calm.reachable.sound.subscribed _ inHub e.1
      ⟨_, e.2, o, steady.calm.reachable.outlet?_of_mem inHub mem, listed⟩).1
  · have before' := World.waiting_after (i := i) (y := y') steady'.calm.reachable steady'.ready owed k signal
    rw [if_neg (Ne.symm (apart k there)), List.append_nil, mirrors.waiting k signal there] at before'
    rw [world']
    exact before'
  · rw [memory', mirrors.told k signal there served]
    refine List.map_congr_left fun told mem => ?_
    rw [Heard.renumber, Heard.renumber, kept _ (steady.heard told (List.mem_of_mem_filter mem))]
  · rw [mirrors.issued]
    refine List.map_congr_left fun e mem => ?_
    rw [kept _ (steady.drawn e mem)]
  · rw [above _ (Nat.le_add_right _ m), mirrors.next, world']
    change s'.world.hub.nextToken + m + n = s'.world.hub.nextToken + n + m
    omega

/-- The same is told in both sessions. -/
theorem delivers (mirrors : Mirrors K stale h d τ issued issued' s s') (steady : Steady settings plans issued s)
    (steady' : Steady settings' plans' issued' s') {news news' : List (Heard V H)} (delivers : Delivers s news t)
    (delivers' : Delivers s' news' t') (drained : ∀ w, t.world.hub.pool.queue w = []) (drained' : ∀ w, t'.world.hub.pool.queue w = [])
    (served : ∀ signal, s.world.hub.feedOf? signal = h.feedOf? signal)
    (served' : ∀ signal, s'.world.hub.feedOf? signal = h.feedOf? signal) : Mirrors K stale h d τ issued issued' t t' := by
  have all : ∀ {u v : Session V H R (List (Heard V H))} {news : List (Heard V H)}, Delivers u news v →
      (∀ w, v.world.hub.pool.queue w = []) → ∀ signal, news.filter (·.signal = signal) = u.world.hub.untold signal := by
    intro u v news delivers drained signal
    rw [← delivers.told signal, Hub.untold_of_drained drained, List.append_nil]
  refine ⟨?_, fun k x there has => ?_, fun k signal _ => ?_, fun k signal there place => ?_, mirrors.issued, ?_, ?_⟩
  · rw [delivers.thread_eq, delivers'.thread_eq, mirrors.thread]
  · rw [delivers.world_eq] at has
    obtain ⟨y, has', like⟩ := mirrors.sites k x there ⟨has.feed, has.source⟩
    exact ⟨y, delivers'.hasSite has', like⟩
  · rw [Hub.waiting_of_drained drained, Hub.waiting_of_drained drained']
  · rw [delivers.memory_eq, delivers'.memory_eq, List.filter_append, List.filter_append, List.map_append,
      mirrors.told k signal there place, all delivers drained, all delivers' drained',
      steady.calm.reachable.untold_eq ((served signal).trans place),
      steady'.calm.reachable.untold_eq ((served' signal).trans place), mirrors.waiting k signal there]
    congr 1
    -- the subscribers are the same, and each is told the same values
    obtain ⟨x, has⟩ := steady.calm.exists_site_of_feedOf? ((served signal).trans place)
    obtain ⟨y, has', like⟩ := mirrors.sites k x there has
    rw [has.subscribersOf, has'.subscribersOf, like.subscribers, List.map_flatMap]
    refine List.flatMap_congr fun v _ => ?_
    rw [List.map_map, List.map_map]
    rfl
  · intro m
    rw [delivers.world_eq, delivers'.world_eq]
    exact mirrors.next m
  · exact fun token out => delivers'.comes.lapsed (mirrors.stale token out)

/-- Everything is shut down in both sessions. -/
theorem shuts (mirrors : Mirrors K stale h d τ issued issued' s s') (steady : Steady settings plans issued s) {is : List Nat}
    {v v' : World V H R} {journal journal' : List Entry} (shuts : Act.Shuts settings plans s.thread is s.world v) (shuts' : Act.Shuts settings' plans' s'.thread is s'.world v') :
    Mirrors K stale h d τ issued issued' { s with world := v, journal } { s' with world := v', journal := journal' } := by
  have pool : v.hub.pool = s.world.hub.pool := congrArg (·.pool) shuts.hub
  have pool' : v'.hub.pool = s'.world.hub.pool := congrArg (·.pool) shuts'.hub
  have next : v.hub.nextToken = s.world.hub.nextToken := congrArg (·.nextToken) shuts.hub
  have next' : v'.hub.nextToken = s'.world.hub.nextToken := congrArg (·.nextToken) shuts'.hub
  refine ⟨mirrors.thread, fun k x there has => ?_, fun k signal there => ?_, mirrors.told, mirrors.issued, ?_, ?_⟩
  · have lt : k < s.world.hub.feeds.length := shuts.length ▸ (List.getElem?_eq_some_iff.1 has.feed).1
    obtain ⟨z, before⟩ := steady.calm.exists_site lt
    obtain ⟨y, before', like⟩ := mirrors.sites k z there before
    refine ⟨_, shuts'.sites k y before', ?_⟩
    rw [has.unique (shuts.sites k z before), mirrors.thread]
    split
    · exact like.shut s.thread
    · exact like
  · have waits := mirrors.waiting k signal there
    rw [Hub.waiting, Hub.waiting, ← pool, ← pool'] at waits
    exact waits
  · rw [next, next']
    exact mirrors.next
  · exact fun token out => shuts'.comes.lapsed (mirrors.stale token out)

end Mirrors

end LazyHub
