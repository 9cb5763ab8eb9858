import LazyHub.Proofs.Feed.Alone
import LazyHub.Proofs.World.Turns
import LazyHub.Session.Operations

/-!
# What an act does at one site

A feed and its provider are a `Site` of a world. Most of what clients do takes place at one site: it
reads and changes this feed and this provider, posts what the feed owes to the workers, and leaves the
rest of the world alone. `World.after` is the world that results, and `Act.Does` says of an act that
it comes to its end, with which answer, and what it leaves behind at its site, whatever the rest of the
session is. Since the rest is left open in the definition, what is done at one site is independent of
what other sites are like, and acts at one site can be put one after another (`Does.bind`).

The steps that acts are made of follow: the steps of what is under way in the feed (`does_advance`), and
the calls of its provider.
-/

namespace LazyHub

variable {V H R X : Type}

/-- A feed and its provider. -/
@[ext]
structure Site (V H R : Type) where
  /-- The feed. -/
  feed : Feed V H R
  /-- The feed's provider. -/
  source : Source R

/-- The leases that end come back to the provider. -/
def Source.takeBack (s : Source R) (es : List (FeedEffect V)) : Source R :=
  { s with provider := { s.provider with released := s.provider.released + es.countP (·.isReleased) } }

@[simp] theorem Source.takeBack_of_none (s : Source R) {es : List (FeedEffect V)}
    (none : es.countP (·.isReleased) = 0) : s.takeBack es = s := by
  rw [takeBack, none, Nat.add_zero]

namespace Hub

/-- The workers' queues after a feed's values, each for the subscribers of a signal, are posted. -/
def posting (i : Nat) (p : WorkerPool (Notice V) (Delivery V H)) (owed : List (Emission V)) :
    WorkerPool (Notice V) (Delivery V H) :=
  owed.foldl (fun p e => (p.post e.signal ⟨i, e.value⟩).2) p

theorem absorbAll_fst (h : Hub V H R) (i : Nat) (es : List (FeedEffect V)) :
    (h.absorbAll i es).1 = { h with pool := posting i h.pool (Feed.dues es) } := by
  induction es generalizing h with
  | nil => rfl
  | cons e rest ih =>
    rw [absorbAll]
    dsimp only
    rw [ih]
    cases e <;> rfl

theorem posted_posting (i : Nat) (p : WorkerPool (Notice V) (Delivery V H)) (owed : List (Emission V)) :
    Posted i (owed.map Emission.due) p (posting i p owed) := by
  have posted := posted_absorbAll ({ feeds := [], pool := p } : Hub V H Unit) i (owed.map Emission.due)
  rwa [absorbAll_fst, Feed.dues_map_due] at posted

end Hub

namespace World

/-- A world comes to be another one by steps that can be made where nobody but the hub holds a feed. -/
def Comes [SignalValue V] (w v : World V H R) : Prop :=
  ∃ labels es, (∀ l ∈ labels, l.IsOwn) ∧ run World.step labels w = some (v, es)

theorem Comes.refl [SignalValue V] (w : World V H R) : w.Comes w := ⟨[], [], nofun, rfl⟩

theorem Comes.trans [SignalValue V] {u v w : World V H R} (first : u.Comes v) (second : v.Comes w) : u.Comes w := by
  obtain ⟨labels, es, own, ran⟩ := first
  obtain ⟨labels', es', own', ran'⟩ := second
  exact ⟨labels ++ labels', es ++ es', List.forall_mem_append.2 ⟨own, own'⟩, run_append.2 ⟨v, es, es', ran, ran', rfl⟩⟩

theorem Comes.step [SignalValue V] {w : World V H R} {l : WorldLabel V H R} {r : Result V H R} (own : l.IsOwn)
    (made : w.step l = some r) : w.Comes r.state :=
  ⟨[l], r.effects, by simpa using own, run_singleton made⟩

theorem Comes.reachable [SignalValue V] {settings : Settings} {plans : List (FeedPlan V)} {w v : World V H R}
    (comes : w.Comes v) (before : Hub.Reachable settings plans w.hub) : Hub.Reachable settings plans v.hub := by
  obtain ⟨labels, es, own, ran⟩ := comes
  obtain ⟨labels, own, ran⟩ := hub_of_run ran own
  exact before.run own ran

/-- A site of a world. -/
structure HasSite (w : World V H R) (i : Nat) (x : Site V H R) : Prop where
  /-- The site's feed. -/
  feed : w.hub.feeds[i]? = some x.feed
  /-- The site's provider. -/
  source : w.sources[i]? = some x.source

/-- The world after something happened at one site: what is there now, and what the feed owed is posted. -/
def after (w : World V H R) (i : Nat) (x : Site V H R) (owed : List (Emission V)) : World V H R where
  hub := { w.hub with feeds := w.hub.feeds.set i x.feed, pool := Hub.posting i w.hub.pool owed }
  sources := w.sources.set i x.source

section After

variable {w : World V H R} {i j : Nat} {x y : Site V H R} {owed more : List (Emission V)}

theorem HasSite.lt (at' : w.HasSite i x) : i < w.hub.feeds.length ∧ i < w.sources.length :=
  ⟨(List.getElem?_eq_some_iff.1 at'.feed).1, (List.getElem?_eq_some_iff.1 at'.source).1⟩

theorem HasSite.unique (at' : w.HasSite i x) (at'' : w.HasSite i y) : x = y := by
  obtain ⟨f, s⟩ := x
  obtain ⟨g, t⟩ := y
  obtain rfl : f = g := Option.some.inj (at'.feed.symm.trans at''.feed)
  obtain rfl : s = t := Option.some.inj (at'.source.symm.trans at''.source)
  rfl

theorem HasSite.after (at' : w.HasSite i x) : (w.after i y owed).HasSite i y where
  feed := by simp [World.after, at'.lt.1]
  source := by simp [World.after, at'.lt.2]

theorem hasSite_after_of_ne (other : j ≠ i) : (w.after i y owed).HasSite j x ↔ w.HasSite j x := by
  constructor
  · rintro ⟨feed, source⟩
    exact ⟨by simpa [World.after, List.getElem?_set_ne other.symm] using feed,
      by simpa [World.after, List.getElem?_set_ne other.symm] using source⟩
  · rintro ⟨feed, source⟩
    exact ⟨by simpa [World.after, List.getElem?_set_ne other.symm] using feed,
      by simpa [World.after, List.getElem?_set_ne other.symm] using source⟩

theorem set_of_getElem? {α : Type} {l : List α} {a : α} (there : l[i]? = some a) : l.set i a = l := by
  obtain ⟨lt, rfl⟩ := List.getElem?_eq_some_iff.1 there
  exact List.set_getElem_self lt

theorem after_self (at' : w.HasSite i x) : w.after i x [] = w := by
  rw [World.after, set_of_getElem? at'.feed, set_of_getElem? at'.source]
  rfl

theorem after_after : (w.after i x owed).after i y more = w.after i y (owed ++ more) := by
  simp only [after, List.set_set, Hub.posting, List.foldl_append]

theorem takeBack_append (first second : List (HubEffect V H)) :
    w.takeBack (first ++ second) = (w.takeBack first).takeBack second := by
  induction first generalizing w with
  | nil => rfl
  | cons e rest ih => cases e <;> exact ih

theorem modifyProvider_at {s : Source R} (known : w.sources[i]? = some s)
    (change : LocalProvider R Nat → LocalProvider R Nat) :
    w.modifyProvider i change = { w with sources := w.sources.set i { s with provider := change s.provider } } := by
  rw [modifyProvider, List.modify_eq_set_getElem?, known]
  rfl

/-- The leases that end in a step at a site come back to the site's provider. -/
theorem takeBack_absorbAll {h : Hub V H R} {s : Source R} {es : List (FeedEffect V)} (known : w.sources[i]? = some s) :
    w.takeBack (h.absorbAll i es).2 = { w with sources := w.sources.set i (s.takeBack es) } := by
  induction es generalizing w h s with
  | nil => rw [Source.takeBack_of_none s rfl, set_of_getElem? known]; rfl
  | cons e rest ih =>
    have onward : (w.takeBack (h.absorb i e).2).sources[i]? = some (s.takeBack [e]) ∧
        w.takeBack (h.absorb i e).2 = { w with sources := w.sources.set i (s.takeBack [e]) } := by
      have back : w.takeBack (h.absorb i e).2 = { w with sources := w.sources.set i (s.takeBack [e]) } := by
        have idle : (s.takeBack [e]) = s → { w with sources := w.sources.set i (s.takeBack [e]) } = w := fun same => by
          rw [same, set_of_getElem? known]
        cases e with
        | released => exact modifyProvider_at known _
        | owed signal value =>
          rw [idle rfl, Hub.absorb]
          dsimp only
          split <;> rfl
        | _ => exact (idle rfl).symm
      refine ⟨?_, back⟩
      rw [back]
      exact List.getElem?_set_self (List.getElem?_eq_some_iff.1 known).1
    have count : (s.takeBack [e]).takeBack rest = s.takeBack (e :: rest) := by
      simp only [Source.takeBack, List.countP_cons, List.countP_nil]
      rw [Nat.zero_add, Nat.add_assoc, Nat.add_comm (List.countP ..)]
    rw [Hub.absorbAll, takeBack_append, ih onward.1, onward.2, count, List.set_set]

end After

variable [SignalValue V] {w : World V H R} {i : Nat} {x : Site V H R}

/-- A step of a site's feed, made in the hub, leaves the rest of the world alone, apart from what the hub does
before the feed makes its step. The provider may have changed before, in the course of the same step of the world. -/
theorem onHub_at {hl : HubLabel V H R} {fl : FeedLabel V H R} {fr : Feed.Result V H R} {g : Hub V H R}
    (at' : w.HasSite i x) (source : Source R) (serves : w.hub.Serves hl i fl g) (made : x.feed.step fl = some fr) :
    ∃ r, ({ w with sources := w.sources.set i source } : World V H R).onHub hl = some r ∧ r.answer = fr.answer ∧
      r.state = ({ w with hub := g } : World V H R).after i ⟨fr.state, source.takeBack fr.effects⟩ (Feed.dues fr.effects) := by
  refine ⟨_, onHub_of_step (serves.step at'.feed made), rfl, ?_⟩
  let set : Hub V H R := { g with feeds := g.feeds.set i fr.state }
  have known : (w.sources.set i source)[i]? = some source := List.getElem?_set_self at'.lt.2
  change (⟨(set.absorbAll i fr.effects).1, w.sources.set i source⟩ : World V H R).takeBack (set.absorbAll i fr.effects).2 = _
  rw [takeBack_absorbAll (w := ⟨_, _⟩) known, Hub.absorbAll_fst, List.set_set]
  rfl

theorem onHub_here {hl : HubLabel V H R} {fl : FeedLabel V H R} {fr : Feed.Result V H R} {g : Hub V H R}
    (at' : w.HasSite i x) (serves : w.hub.Serves hl i fl g) (made : x.feed.step fl = some fr) :
    ∃ r, w.onHub hl = some r ∧ r.answer = fr.answer ∧
      r.state = ({ w with hub := g } : World V H R).after i ⟨fr.state, x.source.takeBack fr.effects⟩ (Feed.dues fr.effects) := by
  have there := onHub_at at' x.source serves made
  rwa [set_of_getElem? at'.source] at there

end World

namespace Act

variable {α β : Type}

/-- What an act does first. -/
theorem bind_at {act : Act V H R X α} {next : α → Act V H R X β} {a : α} {s t : Session V H R X}
    (ran : act s = some (a, t)) : (act >>= next) s = next a t := by
  change (act s).bind (fun p => next p.1 p.2) = _
  rw [ran]
  rfl

theorem hub_at (s : Session V H R X) : (hub : Act V H R X _) s = some (s.world.hub, s) := rfl

/-- **What an act does at one site**: in any session whose hub is held it comes to its end, with an answer,
and leaves behind a site in place of the one it found. What the feed owes is posted, and nothing else
changes but the journal. The world gets there step by step. -/
def Does [SignalValue V] (thread : Thread) (act : Act V H R X α) (i : Nat) (x : Site V H R) (a : α) (y : Site V H R)
    (owed : List (Emission V)) : Prop :=
  ∀ s : Session V H R X, s.thread = thread → s.world.hub.IsHeld → s.world.HasSite i x →
    (∃ journal, act s = some (a, { s with world := s.world.after i y owed, journal })) ∧
      s.world.Comes (s.world.after i y owed)

variable [SignalValue V] {t : Thread} {i : Nat} {x y z : Site V H R} {a : α} {b : β} {owed more : List (Emission V)}

theorem does_pure (x : Site V H R) (a : α) : (pure a : Act V H R X α).Does t i x a x [] := by
  intro s _ _ at'
  rw [World.after_self at']
  exact ⟨⟨s.journal, rfl⟩, .refl _⟩

/-- Acts at one site, one after another. -/
theorem Does.bind {act : Act V H R X α} {k : α → Act V H R X β} (first : act.Does t i x a y owed)
    (second : (k a).Does t i y b z more) : (act >>= k).Does t i x b z (owed ++ more) := by
  intro s on held at'
  obtain ⟨⟨journal, ran⟩, comes⟩ := first s on held at'
  obtain ⟨⟨journal', onward⟩, comes'⟩ := second { s with world := s.world.after i y owed, journal } on held at'.after
  rw [World.after_after] at onward comes'
  refine ⟨⟨journal', ?_⟩, comes.trans comes'⟩
  change (act s).bind (fun p => k p.1 p.2) = _
  rw [ran]
  exact onward

/-- The first act owes nothing. -/
theorem Does.andThen {act : Act V H R X α} {k : α → Act V H R X β} (first : act.Does t i x a y [])
    (second : (k a).Does t i y b z more) : (act >>= k).Does t i x b z more :=
  first.bind second

/-- The second act owes nothing. -/
theorem Does.andEnd {act : Act V H R X α} {k : α → Act V H R X β} (first : act.Does t i x a y owed)
    (second : (k a).Does t i y b z []) : (act >>= k).Does t i x b z owed :=
  List.append_nil owed ▸ first.bind second

theorem does_feed (x : Site V H R) : (feed i : Act V H R X _).Does t i x x.feed x [] := by
  intro s _ _ at'
  rw [World.after_self at']
  refine ⟨⟨s.journal, ?_⟩, .refl _⟩
  rw [feed, bind_at (hub_at s), at'.feed]
  rfl

theorem does_source (x : Site V H R) : (source i : Act V H R X _).Does t i x x.source x [] := by
  intro s _ _ at'
  rw [World.after_self at']
  refine ⟨⟨s.journal, ?_⟩, .refl _⟩
  have looks : (get : Act V H R X _) s = some (s, s) := rfl
  rw [source, bind_at looks, at'.source]
  rfl

/-- An act that looks at the thread it runs on. -/
theorem does_thread {k : Thread → Act V H R X α} (known : (k t).Does t i x a y owed) :
    (get >>= fun s => k s.thread : Act V H R X α).Does t i x a y owed := by
  intro s on held at'
  subst on
  exact known s rfl held at'

/-- A step that changes nothing but a site is done at the site. -/
theorem does_perform {l : WorldLabel V H R} {answer : Option Answer} (own : l.IsOwn)
    (made : ∀ w : World V H R, w.hub.IsHeld → w.HasSite i x →
      ∃ r, w.step l = some r ∧ r.answer = answer ∧ r.state = w.after i y owed) :
    (perform l : Act V H R X _).Does t i x answer y owed := by
  intro s _ held at'
  obtain ⟨r, step, rfl, state⟩ := made s.world held at'
  rw [← state]
  refine ⟨⟨notedEntries r.effects ++ s.journal, ?_⟩, .step own step⟩
  rw [perform, step]

theorem Does.performOn {label : WorldLabel V H R} (made : (perform label : Act V H R X _).Does t i x none y owed) :
    (performOn label : Act V H R X _).Does t i x () y owed :=
  made.andEnd (does_pure y ())

theorem Does.performLast {label : WorldLabel V H R} {answer : Answer}
    (made : (perform label : Act V H R X _).Does t i x (some answer) y owed) :
    (performLast label : Act V H R X _).Does t i x answer y owed :=
  made.andEnd (does_pure y answer)

/-! ### The steps that acts are made of -/

variable {fr : Feed.Result V H R}

/-- What is under way in the feed moves on. -/
theorem does_advance {move : FeedMove V} (made : x.feed.advance move = some fr) :
    (advance i move : Act V H R X _).Does t i x fr.answer ⟨fr.state, x.source.takeBack fr.effects⟩
      (Feed.dues fr.effects) :=
  does_perform trivial fun _ _ at' => World.onHub_here at' .advance made

/-- The provider answers a query. -/
theorem does_query {answer : Except ProviderFailure R} {provider : LocalProvider R Nat}
    (asked : x.source.provider.query = (answer, provider)) (made : x.feed.hear (.queried answer) = some fr) :
    (perform (.query i) : Act V H R X _).Does t i x fr.answer
      ⟨fr.state, ({ x.source with provider } : Source R).takeBack fr.effects⟩ (Feed.dues fr.effects) := by
  refine does_perform trivial fun w _ at' => ?_
  simp only [World.step, at'.source, World.modifyProvider_at at'.source, asked]
  exact World.onHub_at at' _ .hear made

/-- The provider carries out a registration, or refuses it. -/
theorem does_register {purpose : Purpose H} {answer : Except ProviderFailure Registration} {provider : LocalProvider R Nat}
    (asked : x.source.provider.register x.feed.epoch = (answer, provider))
    (held : x.feed.holder = some (.registering purpose)) (silent : x.source.reply = none) :
    (performOn (.register i) : Act V H R X _).Does t i x () ⟨x.feed, provider, some answer⟩ [] := by
  refine (does_perform (l := .register i) trivial fun w _ at' => ?_).performOn
  obtain ⟨f, p, reply⟩ := x
  obtain rfl : reply = none := silent
  have holds : w.holder? i = some (.registering purpose) := by
    rw [World.holder?, at'.feed]
    exact held
  dsimp only at asked
  simp only [World.step, at'.source, at'.feed, holds, asked]
  refine ⟨_, rfl, rfl, ?_⟩
  rw [World.after, World.set_of_getElem? at'.feed]
  rfl

/-- The answer to a registration reaches the feed. -/
theorem does_registered {answer : Except ProviderFailure Registration} (replied : x.source.reply = some answer)
    (made : x.feed.hear (.registered answer) = some fr) :
    (perform (.registered i) : Act V H R X _).Does t i x fr.answer
      ⟨fr.state, ({ x.source with reply := none } : Source R).takeBack fr.effects⟩ (Feed.dues fr.effects) := by
  refine does_perform trivial fun w _ at' => ?_
  obtain ⟨f, provider, reply⟩ := x
  obtain rfl : reply = some answer := replied
  simp only [World.step, at'.source]
  exact World.onHub_at at' _ .hear made

/-- The provider carries out the end of a registration, or refuses it. -/
theorem does_unregister {registration : Registration} {answer : Except ProviderFailure Unit} {provider : LocalProvider R Nat}
    (asked : x.source.provider.unregister registration t = (answer, provider))
    (held : x.feed.holder = some (.unregistering registration .inPlace))
    (made : x.feed.hear (.unregistered answer) = some fr) :
    (perform (.unregister i t) : Act V H R X _).Does t i x fr.answer
      ⟨fr.state, ({ x.source with provider } : Source R).takeBack fr.effects⟩ (Feed.dues fr.effects) := by
  refine does_perform trivial fun w _ at' => ?_
  have holds : w.holder? i = some (.unregistering registration .inPlace) := by
    rw [World.holder?, at'.feed]
    exact held
  simp only [World.step, at'.source, holds, World.modifyProvider_at at'.source, asked]
  exact World.onHub_at at' _ .hear made

/-- A provider changes without its feed being told. -/
theorem does_change {label : WorldLabel V H R} {f : LocalProvider R Nat → LocalProvider R Nat} (own : label.IsOwn)
    (made : ∀ w : World V H R, w.step label = some { state := w.modifyProvider i f }) :
    (performOn label : Act V H R X _).Does t i x ()
      ⟨x.feed, { x.source with provider := f x.source.provider }⟩ [] := by
  refine (does_perform own fun w _ at' => ⟨_, made w, rfl, ?_⟩).performOn
  rw [World.modifyProvider_at at'.source, World.after, World.set_of_getElem? at'.feed]
  rfl

end Act

end LazyHub
