import LazyHub.Proofs.Session.Mirrors

/-!
# A script in part and in full

A script is played in one session, and in another session only what concerns some of the feeds (`Deed.concerns`).
If the first session mirrors the second one at these feeds, then what concerns them has the same answers in both,
there is the same to see of them after each such deed, and the sessions mirror each other in the end: `Tied.playAll`.
The tokens by which subscriptions are ended must be the feeds' own, or of no use to anybody (`Deed.IsFair`).
-/

namespace LazyHub

variable {V H R : Type}

namespace Deed

/-- The feed that a deed is about, if it is about one. -/
def place? (h : Hub V H R) : Deed R H → Option Nat
  | read key => (h.route key).toOption
  | subscribe key _ => (h.route key).toOption
  | unsubscribe signal _ => h.feedOf? signal
  | push i _ => some i
  | announce i _ => some i
  | set i _ => some i
  | refuse i _ _ => some i
  | flush => none
  | shutdown => none

/-- Whether a deed makes use of a token from before the script. -/
def looksBack : Deed R H → Bool
  | unsubscribe _ (.old _) => true
  | _ => false

/-- Whether a deed concerns some of the feeds: it is about one of them, or about the whole hub. -/
def concerns (K : Option Nat → Bool) (h : Hub V H R) (deed : Deed R H) : Bool :=
  deed.isGeneral || (!deed.looksBack && K (deed.place? h))

/-- Subscriptions to some of the feeds are ended by tokens that were drawn for these feeds, or by stale ones. -/
def IsFair (K : Option Nat → Bool) (stale : Token → Prop) (h : Hub V H R) : Deed R H → Prop
  | unsubscribe signal (.made feed _) => K (h.feedOf? signal) = true → K (some feed) = true
  | unsubscribe signal (.old token) => K (h.feedOf? signal) = true → stale token
  | _ => True

end Deed

/-- What there is to see of some of the feeds after a deed. -/
def Scene.only (K : Option Nat → Bool) (scene : Scene V H R) : Scene V H R :=
  { scene with sights := fun k => if K (some k) then scene.sights k else none }

/-- A session mirrors another one between two deeds. -/
structure Tied [SignalValue V] (K : Option Nat → Bool) (stale : Token → Prop) (h : Hub V H R) (d : Nat → Nat)
    (settings settings' : Settings) (plans plans' : List (FeedPlan V)) (issued issued' : Issued)
    (s s' : Session V H R (List (Heard V H))) : Prop where
  /-- Under some numbers the same is there. -/
  mirrors : ∃ τ, Mirrors K stale h d τ issued issued' s s'
  /-- Nothing is under way in the first session. -/
  steady : Steady settings plans issued s
  /-- Nothing is under way in the second session. -/
  steady' : Steady settings' plans' issued' s'
  /-- The first session has the signals of the hub. -/
  keys : s.world.hub.feeds.map Feed.keys = h.feeds.map Feed.keys
  /-- So has the second session. -/
  keys' : s'.world.hub.feeds.map Feed.keys = h.feeds.map Feed.keys

namespace Tied

variable [SignalValue V] {K : Option Nat → Bool} {stale : Token → Prop} {h : Hub V H R} {d : Nat → Nat}
  {settings settings' : Settings} {plans plans' : List (FeedPlan V)} {issued issued' : Issued}
  {s s' t t' : Session V H R (List (Heard V H))} {τ : ℕ ↪o ℕ}

/-- Whatever happens, each session keeps its signals. -/
theorem onward (tied : Tied K stale h d settings settings' plans plans' issued issued' s s') {issued₁ issued₁' : Issued}
    (mirrors : ∃ τ, Mirrors K stale h d τ issued₁ issued₁' t t') (steady : Steady settings plans issued₁ t)
    (steady' : Steady settings' plans' issued₁' t') :
    Tied K stale h d settings settings' plans plans' issued₁ issued₁' t t' where
  mirrors := mirrors
  steady := steady
  steady' := steady'
  keys := (steady.calm.reachable.keys_eq.trans tied.steady.calm.reachable.keys_eq.symm).trans tied.keys
  keys' := (steady'.calm.reachable.keys_eq.trans tied.steady'.calm.reachable.keys_eq.symm).trans tied.keys'

theorem keys_eq (tied : Tied K stale h d settings settings' plans plans' issued issued' s s') :
    s'.world.hub.feeds.map Feed.keys = s.world.hub.feeds.map Feed.keys := tied.keys'.trans tied.keys.symm

theorem length_eq (tied : Tied K stale h d settings settings' plans plans' issued issued' s s') :
    s'.world.hub.feeds.length = s.world.hub.feeds.length := by
  simpa using congrArg List.length tied.keys_eq

/-- **There is the same to see** of the feeds. -/
theorem sights_eq (tied : Tied K stale h d settings settings' plans plans' issued issued' s s') {k : Nat}
    (there : K (some k) = true) : s'.sights issued' k = s.sights issued k := by
  obtain ⟨τ, mirrors⟩ := tied.mirrors
  by_cases lt : k < s.world.hub.feeds.length
  · obtain ⟨x, has⟩ := tied.steady.calm.exists_site lt
    obtain ⟨y, has', like⟩ := mirrors.sites k x there has
    rw [has.sights, has'.sights]
    refine congrArg some (like.sight_eq (fun o mem => ?_) (Issued.of_eq mirrors.issued there))
    refine mirrors.told k _ there ?_
    have reachable := tied.steady.calm.reachable
    obtain ⟨kind, found⟩ := reachable.find?_eq has.feed (reachable.outlet?_of_mem (List.mem_of_getElem? has.feed) mem)
    rw [← Hub.feedOf?_congr tied.keys, Hub.feedOf?, found]
    rfl
  · have none : s.world.hub.feeds[k]? = none := List.getElem?_eq_none (Nat.le_of_not_lt lt)
    have none' : s'.world.hub.feeds[k]? = Option.none := List.getElem?_eq_none (Nat.le_of_not_lt (tied.length_eq ▸ lt))
    rw [Session.sights, none', Session.sights, none]
    rfl

theorem only_eq (tied : Tied K stale h d settings settings' plans plans' issued issued' s s') (deed : Deed R H) (reply : Reply V) :
    Scene.only K ⟨deed, reply, s'.sights issued'⟩ = Scene.only K ⟨deed, reply, s.sights issued⟩ := by
  refine (Scene.mk.injEq ..).mpr ⟨rfl, rfl, funext fun k => ?_⟩
  split
  · exact tied.sights_eq ‹_›
  · rfl

/-- A deed comes down to the same errand in both sessions. -/
theorem errand?_eq (tied : Tied K stale h d settings settings' plans plans' issued issued' s s')
    (mirrors : Mirrors K stale h d τ issued issued' s s') {deed : Deed R H} (fair : deed.IsFair K stale h)
    (afresh : deed.looksBack = false) (there : K (deed.place? h) = true) :
    deed.errand? s'.world.hub issued' = (deed.errand? s.world.hub issued).map fun e => (e.1, e.2.renumber τ) := by
  have routes : ∀ key, s'.world.hub.route key = s.world.hub.route key := Hub.route_congr tied.keys_eq
  cases deed with
  | read key =>
    rw [Deed.errand?, Deed.errand?, routes, Option.map_map]
    rfl
  | subscribe key handler =>
    have next : Token.renumber τ ⟨s.world.hub.nextToken⟩ = ⟨s'.world.hub.nextToken⟩ := congrArg Token.mk (mirrors.next 0)
    rw [Deed.errand?, Deed.errand?, routes, Option.map_map, ← next]
    rfl
  | unsubscribe signal ticket =>
    cases ticket with
    | old token => cases afresh
    | made feed number =>
      have token : (Ticket.made feed number).token? issued' = ((Ticket.made feed number).token? issued).map (·.renumber τ) := by
        rw [Ticket.token?, Issued.of_eq mirrors.issued (fair there), List.getElem?_map]
        rfl
      rw [Deed.errand?, Deed.errand?, Hub.feedOf?_congr tied.keys_eq, token]
      cases s.world.hub.feedOf? signal with
      | none => rfl
      | some i =>
        simp only [Option.bind_some, Option.map_map]
        rfl
  | push i payload | announce i payload | set i payload | refuse i call message =>
    rw [Deed.errand?, Deed.errand?, tied.length_eq]
    split <;> rfl
  | flush => rfl
  | shutdown => rfl

end Tied

namespace Deed

theorem place?_congr {g h : Hub V H R} (same : g.feeds.map Feed.keys = h.feeds.map Feed.keys) (deed : Deed R H) :
    deed.place? g = deed.place? h := by
  cases deed with
  | read key | subscribe key handler => rw [place?, place?, Hub.route_congr same]
  | unsubscribe signal ticket => rw [place?, place?, Hub.feedOf?_congr same]
  | _ => rfl

/-- An errand is done where the deed is about. -/
theorem place?_of_errand? {h : Hub V H R} {issued : Issued} {deed : Deed R H} {i : Nat} {errand : Errand R H}
    (finds : deed.errand? h issued = some (i, errand)) : deed.place? h = some i := by
  cases deed with
  | read key | subscribe key handler =>
    obtain ⟨j, routed, eq⟩ := Option.map_eq_some_iff.1 finds
    cases eq
    exact routed
  | unsubscribe signal ticket =>
    obtain ⟨j, feed, named⟩ := Option.bind_eq_some_iff.1 finds
    obtain ⟨token, -, eq⟩ := Option.map_eq_some_iff.1 named
    cases eq
    exact feed
  | push j payload | announce j payload | set j payload | refuse j call message =>
    simp only [errand?] at finds
    split at finds <;> cases finds
    rfl
  | flush | shutdown => cases finds

end Deed

namespace Tied

variable [SignalValue V] {K : Option Nat → Bool} {stale : Token → Prop} {h : Hub V H R} {d : Nat → Nat}
  {settings settings' : Settings} {plans plans' : List (FeedPlan V)} {issued issued' : Issued}
  {s s' t t' : Session V H R (List (Heard V H))} {dec dec' : Nat → R → Except DecodeFailure (Emissions V)}
  (panics panics' : List (Heard V H) → Heard V H → Bool)

/-- **A deed that is about one of the feeds**, or about none at all, has the same answer in both sessions. -/
theorem play_about (tied : Tied K stale h d settings settings' plans plans' issued issued' s s')
    (same : ∀ i, K (some i) = true → dec' i = dec i) {deed : Deed R H} (fair : deed.IsFair K stale h)
    (special : deed.isGeneral = false) (afresh : deed.looksBack = false) (there : K (deed.place? h) = true) :
    ∃ reply issued₁ issued₁' t t', Ends (fun n => deed.play (Client.hearing dec panics) n issued) s (reply, issued₁) t ∧
      Ends (fun n => deed.play (Client.hearing dec' panics') n issued') s' (reply, issued₁') t' ∧
      Tied K stale h d settings settings' plans plans' issued₁ issued₁' t t' := by
  obtain ⟨τ, mirrors⟩ := tied.mirrors
  have errands := tied.errand?_eq mirrors fair afresh there
  cases finds : deed.errand? s.world.hub issued with
  | none =>
    rw [finds] at errands
    obtain ⟨journal, ran⟩ := Deed.plays_nowhere special finds (Client.hearing dec panics)
    obtain ⟨journal', ran'⟩ := Deed.plays_nowhere special errands (Client.hearing dec' panics')
    have missed : deed.missed s'.world.hub = (deed.missed s.world.hub : Reply V) := by
      have routes := Hub.route_congr tied.keys_eq
      cases deed <;> simp only [Deed.missed, routes]
    rw [missed] at ran'
    exact ⟨_, issued, issued', _, _, ⟨0, fun n _ => ran n⟩, ⟨0, fun n _ => ran' n⟩,
      tied.onward ⟨τ, mirrors.noted journal journal'⟩ (tied.steady.noted journal) (tied.steady'.noted journal')⟩
  | some found =>
    obtain ⟨i, errand⟩ := found
    rw [finds, Option.map_some] at errands
    have here : K (some i) = true := by
      rw [← Deed.place?_of_errand? finds, Deed.place?_congr tied.keys]
      exact there
    obtain ⟨x, has⟩ := Deed.exists_site tied.steady finds
    obtain ⟨y, has', like⟩ := mirrors.sites i x here has
    obtain ⟨t, ran, done⟩ := Deed.plays_at dec panics tied.steady finds has
    obtain ⟨t', ran', done'⟩ := Deed.plays_at dec' panics' tied.steady' errands has'
    have steady := Deed.steady_of_doneAt tied.steady has done
    have steady' := Deed.steady_of_doneAt tied.steady' has' done'
    have next : Token.renumber τ ⟨s.world.hub.nextToken⟩ = ⟨s'.world.hub.nextToken⟩ := congrArg Token.mk (mirrors.next 0)
    rw [same i here, mirrors.thread] at ran' done' steady'
    -- the errand ends alike, so the answers and the tokens are the same
    obtain ⟨answer, like', owed⟩ := like.undergo (dec i) s.thread errand
    rw [answer, ← next] at ran' steady'
    rw [owed] at done'
    obtain ⟨reply, tokens⟩ := Deed.outcome_eq like' deed ⟨s.world.hub.nextToken⟩ (x.undergo (dec i) s.thread errand).1 (i := i)
    rw [tokens] at ran' steady'
    rw [reply] at ran'
    exact ⟨_, _, _, t, t', ⟨0, fun n _ => ran n⟩, ⟨0, fun n _ => ran' n⟩,
      tied.onward ⟨τ, (mirrors.doneAt tied.steady tied.steady' has has' done done' like').issue fun e mem =>
        (Deed.drawn_of_mem_outcome mem).1 ▸ here⟩ steady steady'⟩

/-- **A flush or a shutdown** does the same to the feeds in both sessions. -/
theorem play_general (tied : Tied K stale h d settings settings' plans plans' issued issued' s s')
    (dec dec' : Nat → R → Except DecodeFailure (Emissions V)) (catches : settings.catches = true)
    (catches' : settings'.catches = true) {deed : Deed R H} (general : deed.isGeneral = true) :
    ∃ t t', Ends (fun n => deed.play (Client.hearing dec panics) n issued) s (.done, issued) t ∧
      Ends (fun n => deed.play (Client.hearing dec' panics') n issued') s' (.done, issued') t' ∧
      Tied K stale h d settings settings' plans plans' issued issued' t t' := by
  obtain ⟨τ, mirrors⟩ := tied.mirrors
  have steady := tied.steady
  have steady' := tied.steady'
  cases deed with
  | flush =>
    obtain ⟨t, news, ends, delivers, drained⟩ := Act.ends_flush (c := Client.hearing dec panics) rfl
      (.inl (steady.calm.reachable.staffed.catches.trans catches)) steady.calm.reachable steady.ready steady.unflushed
    obtain ⟨t', news', ends', delivers', drained'⟩ := Act.ends_flush (c := Client.hearing dec' panics') rfl
      (.inl (steady'.calm.reachable.staffed.catches.trans catches')) steady'.calm.reachable steady'.ready steady'.unflushed
    exact ⟨t, t', ends.bind (ends_of_eq rfl), ends'.bind (ends_of_eq rfl),
      tied.onward ⟨τ, mirrors.delivers steady steady' delivers delivers' drained drained' (Hub.feedOf?_congr tied.keys)
        (Hub.feedOf?_congr tied.keys')⟩ (steady.delivers delivers) (steady'.delivers delivers')⟩
  | shutdown =>
    obtain ⟨journal, v, ran, shuts⟩ := Act.shutdown_at (c := Client.hearing dec panics) (fun _ => rfl) steady.calm
    obtain ⟨journal', v', ran', shuts'⟩ := Act.shutdown_at (c := Client.hearing dec' panics') (fun _ => rfl) steady'.calm
    rw [tied.length_eq] at shuts'
    exact ⟨{ s with world := v, journal }, { s' with world := v', journal := journal' },
      (ends_of_eq ran).bind (ends_of_eq rfl), (ends_of_eq ran').bind (ends_of_eq rfl),
      tied.onward ⟨τ, mirrors.shuts steady shuts shuts'⟩ (steady.shuts shuts) (steady'.shuts shuts')⟩
  | _ => cases general

/-- **What concerns the feeds** has the same answer in both sessions. -/
theorem play (tied : Tied K stale h d settings settings' plans plans' issued issued' s s')
    (catches : settings.catches = true) (catches' : settings'.catches = true) (same : ∀ i, K (some i) = true → dec' i = dec i)
    {deed : Deed R H} (fair : deed.IsFair K stale h) (concerned : deed.concerns K h = true) :
    ∃ reply issued₁ issued₁' t t', Ends (fun n => deed.play (Client.hearing dec panics) n issued) s (reply, issued₁) t ∧
      Ends (fun n => deed.play (Client.hearing dec' panics') n issued') s' (reply, issued₁') t' ∧
      Tied K stale h d settings settings' plans plans' issued₁ issued₁' t t' := by
  cases general : deed.isGeneral with
  | true =>
    obtain ⟨t, t', ends, ends', tied⟩ := tied.play_general panics panics' dec dec' catches catches' general
    exact ⟨.done, issued, issued', t, t', ends, ends', tied⟩
  | false =>
    simp only [Deed.concerns, general, Bool.false_or, Bool.and_eq_true, Bool.not_eq_true'] at concerned
    exact tied.play_about panics panics' same fair general concerned.1 concerned.2

/-- **What does not concern the feeds** leaves them alone. -/
theorem play_elsewhere (tied : Tied K stale h d settings settings' plans plans' issued issued' s s')
    (dec' : Nat → R → Except DecodeFailure (Emissions V)) {deed : Deed R H} (fair : deed.IsFair K stale h) (unconcerned : deed.concerns K h = false) :
    ∃ reply issued₁' t', Ends (fun n => deed.play (Client.hearing dec' panics') n issued') s' (reply, issued₁') t' ∧
      Tied K stale h d settings settings' plans plans' issued issued₁' s t' := by
  obtain ⟨τ, mirrors⟩ := tied.mirrors
  have steady' := tied.steady'
  simp only [Deed.concerns, Bool.or_eq_false_iff] at unconcerned
  obtain ⟨special, unconcerned⟩ := unconcerned
  cases finds : deed.errand? s'.world.hub issued' with
  | none =>
    obtain ⟨journal', ran'⟩ := Deed.plays_nowhere special finds (Client.hearing dec' panics')
    exact ⟨_, issued', _, ⟨0, fun n _ => ran' n⟩,
      tied.onward ⟨τ, mirrors.noted s.journal journal'⟩ tied.steady (steady'.noted journal')⟩
  | some found =>
    obtain ⟨i, errand⟩ := found
    obtain ⟨y, has'⟩ := Deed.exists_site steady' finds
    obtain ⟨t', ran', done'⟩ := Deed.plays_at dec' panics' steady' finds has'
    have onward := Deed.steady_of_doneAt steady' has' done'
    have place : deed.place? h = some i := (Deed.place?_congr tied.keys' deed).symm.trans (Deed.place?_of_errand? finds)
    cases there : K (some i) with
    | false =>
      obtain ⟨τ', mirrors⟩ := mirrors.elsewhere tied.steady steady' there done'
      exact ⟨_, _, t', ⟨0, fun n _ => ran' n⟩, tied.onward ⟨τ', mirrors.issueElsewhere fun e mem =>
        (Deed.drawn_of_mem_outcome mem).1 ▸ there⟩ tied.steady onward⟩
    | true =>
      -- what is left is the end of a subscription by a token that is of no use
      cases deed with
      | unsubscribe signal ticket =>
        cases ticket with
        | made feed number => simp [Deed.looksBack, place, there] at unconcerned
        | old token =>
          have lapsed := mirrors.stale token (fair ((congrArg K place).trans there))
          obtain ⟨j, -, named⟩ := Option.bind_eq_some_iff.1 finds
          cases named
          have idle := Site.fulfil_unsubscribe (dec' i) s'.thread (has'.contains_lapsed lapsed signal)
          simp only [Site.undergo, idle, Deed.draws] at done'
          have world := done'.world_eq has'
          refine ⟨_, _, t', ⟨0, fun n _ => ran' n⟩, tied.onward ⟨τ, ?_⟩ tied.steady onward⟩
          simp only [Deed.outcome, List.append_nil]
          refine ⟨done'.thread.trans mirrors.thread, ?_, ?_, done'.memory ▸ mirrors.told, mirrors.issued, ?_, ?_⟩ <;> rw [world]
          exacts [mirrors.sites, mirrors.waiting, mirrors.next, mirrors.stale]
      | _ => simp [Deed.looksBack, place, there] at unconcerned

/-- **A script is played in full, and in part**: what concerns the feeds has the same answers, and there is the same to
see of them. -/
theorem playAll (tied : Tied K stale h d settings settings' plans plans' issued issued' s s')
    (catches : settings.catches = true) (catches' : settings'.catches = true) (same : ∀ i, K (some i) = true → dec' i = dec i)
    {script : List (Deed R H)} (fair : ∀ deed ∈ script, deed.IsFair K stale h) :
    ∃ scenes scenes' issued₁ issued₁' t t',
      Ends (fun n => Deed.playAll (Client.hearing dec panics) n (script.filter (·.concerns K h)) issued) s (scenes, issued₁) t ∧
      Ends (fun n => Deed.playAll (Client.hearing dec' panics') n script issued') s' (scenes', issued₁') t' ∧
      (scenes'.filter (·.deed.concerns K h)).map (·.only K) = scenes.map (·.only K) ∧
      Tied K stale h d settings settings' plans plans' issued₁ issued₁' t t' := by
  induction script generalizing issued issued' s s' with
  | nil => exact ⟨[], [], issued, issued', s, s', ends_of_eq rfl, ends_of_eq rfl, rfl, tied⟩
  | cons deed rest ih =>
    obtain ⟨first, fair⟩ := List.forall_mem_cons.1 fair
    cases concerned : deed.concerns K h with
    | true =>
      obtain ⟨reply, j, j', u, u', ends, ends', tied⟩ := tied.play panics panics' catches catches' same first concerned
      obtain ⟨scenes, scenes', j₁, j₁', t, t', onward, onward', alike, tied'⟩ := ih tied fair
      refine ⟨⟨deed, reply, u.sights j⟩ :: scenes, ⟨deed, reply, u'.sights j'⟩ :: scenes', j₁, j₁', t, t', ?_,
        Deed.ends_playAll ends' onward', ?_, tied'⟩
      · rw [List.filter_cons_of_pos concerned]
        exact Deed.ends_playAll ends onward
      · rw [List.filter_cons_of_pos (by simpa using concerned), List.map_cons, List.map_cons, alike, tied.only_eq]
    | false =>
      obtain ⟨reply, j', u', ends', tied⟩ := tied.play_elsewhere panics' dec' first concerned
      obtain ⟨scenes, scenes', j₁, j₁', t, t', onward, onward', alike, tied'⟩ := ih tied fair
      refine ⟨scenes, ⟨deed, reply, u'.sights j'⟩ :: scenes', j₁, j₁', t, t', ?_, Deed.ends_playAll ends' onward', ?_, tied'⟩
      · rw [List.filter_cons_of_neg (by simp [concerned])]
        exact onward
      · rw [List.filter_cons_of_neg (by simp [concerned]), alike]

end Tied

end LazyHub
