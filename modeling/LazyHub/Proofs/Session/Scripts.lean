import LazyHub.Proofs.Session.Notices
import LazyHub.Proofs.Session.Resemblance

/-!
# Scripts

A script is a list of things that clients do one after another: they read and subscribe, hand back tokens, change
providers, flush, and shut everything down. Playing a script (`Deed.playAll`) yields a `Scene` for each deed: what
was answered, and what there is to see of every feed afterwards. A subscription is known by its number among those
made at its feed, so that nothing in a scene depends on the numbers of tokens.

Workers work in flushes only. A flush is granted a number of turns, and any that is large enough will do: `Ends`
says what an act comes to for all numbers from some number on. Flushes always end (`Act.ends_flush`), and turns that
are not needed are not used (`Deed.playAll_mono`).
-/

namespace LazyHub

variable {V H R : Type}

/-! ### Deeds -/

/-- What a client knows a subscription by. -/
inductive Ticket where
  /-- Its number among those that the script has made at a feed. -/
  | made (feed number : Nat)
  /-- A token that was drawn before the script began. -/
  | old (token : Token)

/-- Something that a client does. -/
inductive Deed (R H : Type) where
  /-- Read a signal. -/
  | read (key : Key)
  /-- Subscribe to a signal. -/
  | subscribe (key : Key) (handler : H)
  /-- End a subscription to a signal, if there is one. -/
  | unsubscribe (signal : SignalId) (ticket : Ticket)
  /-- Have a provider push a payload. -/
  | push (feed : Nat) (payload : R)
  /-- Have a provider tell a payload that queries do not show. -/
  | announce (feed : Nat) (payload : R)
  /-- Change a provider's payload. -/
  | set (feed : Nat) (payload : R)
  /-- Have a provider refuse its next call of one sort. -/
  | refuse (feed : Nat) (call : ProviderCall) (message : String)
  /-- Have everything told that waits. -/
  | flush
  /-- Drop all subscriptions. -/
  | shutdown

/-- What a client hears of a deed, whatever the numbers of tokens. -/
inductive Reply (V : Type) where
  /-- The value that was read, or a failure. -/
  | read (answer : Except HubFailure V)
  /-- A subscription is made, or not. -/
  | subscribed (answer : Except HubFailure Unit)
  /-- There is nothing to answer. -/
  | done

/-- The tokens drawn in the course of a script, each with its feed. -/
abbrev Issued := List (Nat × Token)

/-- The tokens of a feed. -/
def Issued.of (issued : Issued) (feed : Nat) : List Token := (issued.filter (·.1 = feed)).map (·.2)

/-- The token that a ticket stands for. -/
def Ticket.token? (issued : Issued) : Ticket → Option Token
  | made feed number => (issued.of feed)[number]?
  | old token => some token

/-- A client whose decoders do nothing but decode, and whose subscribers keep what they are told. -/
def Client.hearing (dec : Nat → R → Except DecodeFailure (Emissions V)) (panics : List (Heard V H) → Heard V H → Bool) :
    Client V H R (List (Heard V H)) where
  decode i payload := pure (dec i payload)
  call := Act.listen panics

namespace Deed

variable [SignalValue V]

/-- Do something at a feed, if there is such a feed. -/
def at? {X : Type} (i : Nat) (act : Act V H R X Unit) : Act V H R X Unit := do
  if i < (← Act.hub).feeds.length then act

/-- Do a deed, given the turns that a flush is granted and the tokens drawn so far. -/
def play {X : Type} (c : Client V H R X) (turns : Nat) (issued : Issued) : Deed R H → Act V H R X (Reply V × Issued)
  | read key => do pure (.read (← Act.read c key), issued)
  | subscribe key handler => do
    match ← Act.subscribe c key handler with
    | .error failure => pure (.subscribed (.error failure), issued)
    | .ok token => pure (.subscribed (.ok ()), issued ++ ((← Act.hub).feedOf? key.id).toList.map fun i => (i, token))
  | unsubscribe signal ticket => do
    match ticket.token? issued with
    | some token => Act.unsubscribe c signal token
    | none => pure ()
    pure (.done, issued)
  | push i payload => do
    at? i (Act.push c i payload)
    pure (.done, issued)
  | announce i payload => do
    at? i (Act.announce c i payload)
    pure (.done, issued)
  | set i payload => do
    at? i (Act.setPayload i payload)
    pure (.done, issued)
  | refuse i call message => do
    at? i (Act.refuseNext i call message)
    pure (.done, issued)
  | flush => do
    Act.flush c turns
    pure (.done, issued)
  | shutdown => do
    Act.shutdown c
    pure (.done, issued)

end Deed

/-! ### Scenes -/

/-- What there is to see of a signal. -/
structure SignalSight (V H : Type) where
  /-- The signal's key. -/
  key : Key
  /-- Its last known value. -/
  value : V
  /-- How many are subscribed to it. -/
  subscribers : Nat
  /-- What was told of it, and to which of the feed's subscriptions. -/
  told : List (Option Nat × H × V)

/-- What there is to see of a feed: its signals, whether it is active, how many subscriptions it counts, and its
provider with all that the provider has been asked for. -/
structure Sight (V H R : Type) where
  /-- The signals. -/
  signals : List (SignalSight V H)
  /-- Whether the feed is active. -/
  active : Bool
  /-- How many subscriptions are counted. -/
  subscriptions : Nat
  /-- The provider, whatever its callback carries. -/
  provider : LocalProvider R Unit

/-- What there is to see of a signal of a feed, given what was told so far and the feed's tokens. -/
def Outlet.sight (o : Outlet V H) (told : List (Heard V H)) (tokens : List Token) : SignalSight V H where
  key := o.key
  value := o.gate.value
  subscribers := o.subscribers.size
  told := (told.filter (·.signal = o.key.id)).map fun h => (tokens.findIdx? (· = h.token), h.handler, h.value)

/-- What there is to see of a site. -/
def Site.sight (x : Site V H R) (told : List (Heard V H)) (tokens : List Token) : Sight V H R where
  signals := x.feed.outlets.map fun o => o.sight told tokens
  active := x.feed.isActive
  subscriptions := x.feed.subscriptionCount
  provider := x.source.provider.map fun _ => ()

/-- What there is to see of each feed. -/
def Session.sights (s : Session V H R (List (Heard V H))) (issued : Issued) (i : Nat) : Option (Sight V H R) :=
  (s.world.hub.feeds[i]?).bind fun f => (s.world.sources[i]?).map fun source =>
    (⟨f, source⟩ : Site V H R).sight s.memory (issued.of i)

theorem World.HasSite.sights {s : Session V H R (List (Heard V H))} {i : Nat} {x : Site V H R} (at' : s.world.HasSite i x)
    (issued : Issued) : s.sights issued i = some (x.sight s.memory (issued.of i)) := by
  rw [Session.sights, at'.feed, at'.source]
  rfl

/-- A deed, what was answered, and what there is to see of each feed afterwards. -/
structure Scene (V H R : Type) where
  /-- The deed. -/
  deed : Deed R H
  /-- The answer. -/
  reply : Reply V
  /-- What there is to see. -/
  sights : Nat → Option (Sight V H R)

/-- Play a script. What comes of it are its scenes, and the tokens drawn. -/
def Deed.playAll [SignalValue V] (c : Client V H R (List (Heard V H))) (turns : Nat) :
    List (Deed R H) → Issued → Act V H R (List (Heard V H)) (List (Scene V H R) × Issued)
  | [], issued => pure ([], issued)
  | deed :: rest, issued => do
    let (reply, issued) ← deed.play c turns issued
    let now ← get
    let (scenes, issued') ← playAll c turns rest issued
    pure (⟨deed, reply, now.sights issued⟩ :: scenes, issued')

/-! ### Acts that end -/

section Ends

variable {X α β : Type} {s t u : Session V H R X} {a : α} {b : β}

/-- What an act comes to, however many turns it is granted from some number on. -/
def Ends (act : Nat → Act V H R X α) (s : Session V H R X) (a : α) (t : Session V H R X) : Prop :=
  ∃ least, ∀ turns, least ≤ turns → act turns s = some (a, t)

theorem Ends.unique {act : Nat → Act V H R X α} {a' : α} {t' : Session V H R X} (ends : Ends act s a t) (ends' : Ends act s a' t') :
    a' = a ∧ t' = t := by
  obtain ⟨n, ran⟩ := ends
  obtain ⟨m, ran'⟩ := ends'
  have both := (ran' (max n m) (le_max_right _ _)).symm.trans (ran (max n m) (le_max_left _ _))
  exact Prod.mk.inj (Option.some.inj both)

/-- An act that is granted no turns. -/
theorem ends_of_eq {act : Act V H R X α} (ran : act s = some (a, t)) : Ends (fun _ => act) s a t := ⟨0, fun _ _ => ran⟩

theorem Ends.bind {act : Nat → Act V H R X α} {k : Nat → α → Act V H R X β} (first : Ends act s a t)
    (second : Ends (fun n => k n a) t b u) : Ends (fun n => act n >>= k n) s b u := by
  obtain ⟨n, ran⟩ := first
  obtain ⟨m, onward⟩ := second
  exact ⟨max n m, fun turns le => (Act.bind_at (ran turns (le_trans (le_max_left _ _) le))).trans
    (onward turns (le_trans (le_max_right _ _) le))⟩

end Ends

/-- A script ends if its first deed ends and so does what comes then. -/
theorem Deed.ends_playAll [SignalValue V] {c : Client V H R (List (Heard V H))} {s t u : Session V H R (List (Heard V H))}
    {deed : Deed R H} {script : List (Deed R H)} {reply : Reply V} {scenes : List (Scene V H R)} {issued issued₁ issued₂ : Issued}
    (first : Ends (fun n => deed.play c n issued) s (reply, issued₁) t)
    (rest : Ends (fun n => playAll c n script issued₁) t (scenes, issued₂) u) :
    Ends (fun n => playAll c n (deed :: script) issued) s (⟨deed, reply, t.sights issued₁⟩ :: scenes, issued₂) u :=
  first.bind ((ends_of_eq (a := t) rfl).bind (rest.bind (ends_of_eq rfl)))

/-! ### Flushes -/

namespace Act

variable {X α β : Type} {s t : Session V H R X}

/-- One act after another comes to an end if both do. -/
theorem bind_eq_some {act : Act V H R X α} {k : α → Act V H R X β} {r : β × Session V H R X} :
    (act >>= k) s = some r ↔ ∃ a t, act s = some (a, t) ∧ k a t = some r := by
  change (act s).bind (fun p => k p.1 p.2) = _ ↔ _
  rw [Option.bind_eq_some_iff, Prod.exists]

variable [SignalValue V] {c : Client V H R X} {n m : Nat}

/-- Turns that are not needed are not used. -/
theorem drain_mono (ran : drain c n s = some ((), t)) (le : n ≤ m) : drain c m s = some ((), t) := by
  induction n generalizing m s with
  | zero => cases ran
  | succ n ih =>
    obtain ⟨m, rfl⟩ : ∃ k, m = k + 1 := ⟨m - 1, by omega⟩
    rw [drain, bind_at (hub_at s)] at ran ⊢
    cases ready : s.world.hub.pool.firstReady? with
    | none =>
      rw [ready] at ran
      exact ran
    | some worker =>
      rw [ready] at ran
      obtain ⟨_, u, turn, onward⟩ := bind_eq_some.1 ran
      exact bind_eq_some.2 ⟨_, u, turn, ih onward (Nat.le_of_succ_le_succ le)⟩

theorem flush_mono (ran : flush c n s = some ((), t)) (le : n ≤ m) : flush c m s = some ((), t) := by
  rw [flush, bind_at (hub_at s)] at ran ⊢
  obtain ⟨_, u, started, ran⟩ := bind_eq_some.1 ran
  obtain ⟨h, u', looked, ran⟩ := bind_eq_some.1 ran
  obtain ⟨_, u'', marked, ran⟩ := bind_eq_some.1 ran
  obtain ⟨_, v, drained, ended⟩ := bind_eq_some.1 ran
  exact bind_eq_some.2 ⟨_, u, started, bind_eq_some.2 ⟨h, u', looked, bind_eq_some.2 ⟨_, u'', marked,
    bind_eq_some.2 ⟨_, v, drain_mono drained le, ended⟩⟩⟩⟩

end Act

namespace Act

variable [SignalValue V] {settings : Settings} {plans : List (FeedPlan V)} {c : Client V H R (List (Heard V H))}
  {s : Session V H R (List (Heard V H))} {panics : List (Heard V H) → Heard V H → Bool}

/-- **A flush** ends, and has everything told that waits. -/
theorem ends_flush (listens : c.call = listen panics)
    (spared : s.world.hub.pool.catches = true ∨ ∀ heard told, panics heard told = false)
    (reachable : Hub.Reachable settings plans s.world.hub) (ready : s.world.hub.pool.IsReady)
    (unflushed : s.world.hub.pool.flushes = []) :
    ∃ t news, Ends (flush c) s () t ∧ Delivers s news t ∧ ∀ w, t.world.hub.pool.queue w = [] := by
  obtain ⟨t, news, ran, delivers, drained⟩ := flush_at listens spared reachable ready unflushed (Nat.lt_succ_self _)
  exact ⟨t, news, ⟨_, fun turns le => flush_mono ran le⟩, delivers, drained⟩

end Act

namespace Deed

variable [SignalValue V] {X : Type} {n m : Nat} {issued : Issued}

theorem play_mono {c : Client V H R X} {s : Session V H R X} {deed : Deed R H} {r : (Reply V × Issued) × Session V H R X}
    (ran : deed.play c n issued s = some r) (le : n ≤ m) : deed.play c m issued s = some r := by
  cases deed with
  | flush =>
    obtain ⟨_, t, flushed, rest⟩ := Act.bind_eq_some.1 ran
    exact Act.bind_eq_some.2 ⟨_, t, Act.flush_mono flushed le, rest⟩
  | _ => exact ran

theorem playAll_mono {c : Client V H R (List (Heard V H))} {s : Session V H R (List (Heard V H))} {script : List (Deed R H)}
    {r : (List (Scene V H R) × Issued) × Session V H R (List (Heard V H))} (ran : playAll c n script issued s = some r)
    (le : n ≤ m) : playAll c m script issued s = some r := by
  induction script generalizing issued s r with
  | nil => exact ran
  | cons deed rest ih =>
    obtain ⟨⟨reply, issued'⟩, t, played, ran⟩ := Act.bind_eq_some.1 ran
    obtain ⟨now, t', looked, ran⟩ := Act.bind_eq_some.1 ran
    obtain ⟨a, u, onward, ended⟩ := Act.bind_eq_some.1 ran
    exact Act.bind_eq_some.2 ⟨_, t, play_mono played le, Act.bind_eq_some.2 ⟨now, t', looked,
      Act.bind_eq_some.2 ⟨a, u, ih onward, ended⟩⟩⟩

/-- A script that ends within so many turns ends so with any more of them. -/
theorem ends_of_playAll {c : Client V H R (List (Heard V H))} {s : Session V H R (List (Heard V H))} {script : List (Deed R H)}
    {a : List (Scene V H R) × Issued} {t : Session V H R (List (Heard V H))} (ran : playAll c n script issued s = some (a, t)) :
    Ends (fun n => playAll c n script issued) s a t := ⟨n, fun _ le => playAll_mono ran le⟩

end Deed

end LazyHub
