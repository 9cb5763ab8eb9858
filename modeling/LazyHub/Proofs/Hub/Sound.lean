import LazyHub.Proofs.Feed.Pushes
import LazyHub.Proofs.Hub.Transition

/-!
# What holds of every state of a hub

`Hub.Sound` is the invariant of a hub. Its feeds are balanced; every token that was drawn is with
one subscription alone, which has yet to be added (`Hub.Awaits`) or has had its turn
(`Hub.Spent`); and the hub owns its feeds until it has shut all of them down.

A token that is spent stays so (`Transition.spent`), and only spent tokens stand among the
subscribers. So a subscription is always added under a token that is new to its feed, which is
what keeps the feeds balanced. `Reachable.sound` puts it together.
-/

namespace LazyHub.Hub

variable {V H R : Type}

/-- A subscription that has drawn the token has yet to be added. -/
def Awaits (h : Hub V H R) (token : Token) : Prop :=
  (∃ q ∈ h.requests, q.token = token) ∨ ∃ f ∈ h.feeds, f.awaited? = some token

/-- A token that was drawn, and whose subscription has been added or has failed. -/
def Spent (h : Hub V H R) (token : Token) : Prop := token.serial < h.nextToken ∧ ¬ h.Awaits token

/-- How a hub owns its feeds, by whether clients still hold the hub. -/
def Owns (h : Hub V H R) : Prop :=
  match h.life with
  | .held _ => ∀ f ∈ h.feeds, f.handles = 1
  | .closing next =>
    h.requests = [] ∧ (∀ f ∈ h.feeds, f.handles = 1 ∧ f.pull? = none) ∧
      ∀ i < next, ∀ f, h.feeds[i]? = some f → f.IsWoundDown
  | .closed => ∀ f ∈ h.feeds, f.IsOver

/-- **The invariant of a hub.** -/
structure Sound (h : Hub V H R) : Prop where
  /-- Every feed is balanced. -/
  balanced : ∀ f ∈ h.feeds, f.Balanced
  /-- No two subscriptions that have yet to reach their feeds have one token. -/
  requested : h.requests.Pairwise fun p q => p.token ≠ q.token
  /-- A token that is awaited was drawn. -/
  drawn : ∀ token, h.Awaits token → token.serial < h.nextToken
  /-- A subscription that has reached its feed has left the others. -/
  apart : ∀ f ∈ h.feeds, ∀ token, f.awaited? = some token → ∀ q ∈ h.requests, q.token ≠ token
  /-- No two feeds await one token. -/
  alone : ∀ {i j : Nat} {f g : Feed V H R} {token : Token}, h.feeds[i]? = some f →
    h.feeds[j]? = some g → f.awaited? = some token → g.awaited? = some token → i = j
  /-- The tokens of subscribers are spent. -/
  subscribed : ∀ f ∈ h.feeds, ∀ token, f.HasToken token → h.Spent token
  /-- No feed leaves a registration for the pool to end. -/
  retained : ∀ f ∈ h.feeds, f.retiring = false
  /-- The feeds are owned by the hub. -/
  owns : h.Owns

theorem owns_of_held {h : Hub V H R} {n : Nat} (held : h.life = .held n) :
    h.Owns ↔ ∀ f ∈ h.feeds, f.handles = 1 := by
  rw [Owns, held]

theorem owns_of_closing {h : Hub V H R} {next : Nat} (closing : h.life = .closing next) :
    h.Owns ↔ h.requests = [] ∧ (∀ f ∈ h.feeds, f.handles = 1 ∧ f.pull? = none) ∧
      ∀ i < next, ∀ f, h.feeds[i]? = some f → f.IsWoundDown := by
  rw [Owns, closing]

theorem owns_of_closed {h : Hub V H R} (closed : h.life = .closed) :
    h.Owns ↔ ∀ f ∈ h.feeds, f.IsOver := by
  rw [Owns, closed]

theorem Owns.owned {h : Hub V H R} (owns : h.Owns) (f : Feed V H R) (mem : f ∈ h.feeds) :
    f.handles ≠ 0 ∨ f.registration = none := by
  unfold Owns at owns
  split at owns
  · exact .inl (by simp [owns f mem])
  · exact .inl (by simp [(owns.2.1 f mem).1])
  · exact .inr (owns f mem).2.2

/-- No feed is pulled but for somebody who holds the hub. -/
theorem Owns.isHeld {h : Hub V H R} (owns : h.Owns) {f : Feed V H R} (mem : f ∈ h.feeds) (pulls : f.pull?.isSome) :
    h.IsHeld := by
  cases life : h.life with
  | held n => exact ⟨n, life⟩
  | closing next =>
    rw [(((owns_of_closing life).1 owns).2.1 f mem).2] at pulls
    cases pulls
  | closed =>
    obtain ⟨-, free, -⟩ := (owns_of_closed life).1 owns f mem
    rw [Feed.pull?, free] at pulls
    cases pulls

theorem free_of_isQuiet {h : Hub V H R} (quiet : h.isQuiet) {f : Feed V H R} (mem : f ∈ h.feeds) :
    f.holder = none := by
  simpa using List.all_eq_true.1 quiet f mem

/-! ### The start -/

theorem eq_of_assemble {settings : Settings} {plans : List (FeedPlan V)} {h : Hub V H R}
    (start : assemble settings plans = .ok h) :
    firstRepeated? [] (declared plans) = none ∧
      h = { feeds := plans.map Feed.ofPlan, pool := .ofSize settings.workerCount settings.catches } := by
  unfold assemble at start
  split at start
  · cases start
  · split at start
    · cases start
    · rename_i distinct
      cases start
      exact ⟨distinct, rfl⟩

theorem sound_of_assemble {settings : Settings} {plans : List (FeedPlan V)} {h : Hub V H R}
    (start : assemble settings plans = .ok h) : h.Sound := by
  obtain ⟨-, rfl⟩ := eq_of_assemble start
  have new : ∀ {p : Feed V H R → Prop}, (∀ plan : FeedPlan V, p (.ofPlan plan)) →
      ∀ f ∈ plans.map Feed.ofPlan, p f := by
    intro p hp f hf
    obtain ⟨plan, -, rfl⟩ := List.mem_map.1 hf
    exact hp plan
  have unawaited : ∀ f ∈ plans.map (Feed.ofPlan (H := H) (R := R)), f.awaited? = none := new fun _ => rfl
  constructor
  · exact new Feed.balanced_ofPlan
  · exact List.Pairwise.nil
  · rintro token (⟨q, hq, -⟩ | ⟨f, hf, awaited⟩)
    · cases hq
    · cases (unawaited f hf).symm.trans awaited
  · intro f hf token awaited q hq
    cases hq
  · intro i j f g token hf hg awaited
    cases (unawaited f (List.mem_of_getElem? hf)).symm.trans awaited
  · intro f hf token there
    have empty : ∀ f ∈ plans.map (Feed.ofPlan (H := H) (R := R)), f.totalSubscribers = 0 :=
      new fun plan => Feed.totalSubscribers_ofPlan plan
    exact (Feed.not_hasToken_of_empty (empty f hf) token there).elim
  · exact new fun _ => rfl
  · exact new fun _ => rfl

/-! ### Taking over a feed's step -/

theorem absorb_eq (h : Hub V H R) (i : Nat) (e : FeedEffect V) :
    ∃ pool, (h.absorb i e).1 = { h with pool } := by
  cases e with
  | owed signal value => exact ⟨_, rfl⟩
  | _ => exact ⟨h.pool, rfl⟩

/-- Taking over effects changes nothing but the workers' queues. -/
theorem absorbAll_eq (h : Hub V H R) (i : Nat) (es : List (FeedEffect V)) :
    ∃ pool, (h.absorbAll i es).1 = { h with pool } := by
  induction es generalizing h with
  | nil => exact ⟨h.pool, rfl⟩
  | cons e rest ih =>
    obtain ⟨p, hp⟩ := absorb_eq h i e
    obtain ⟨q, hq⟩ := ih (h.absorb i e).1
    refine ⟨q, hq.trans ?_⟩
    rw [hp]

section AfterFeed

variable (h : Hub V H R) (i : Nat) (fr : Feed.Result V H R)

theorem afterFeed_eq : ∃ pool, (h.afterFeed i fr).state = { h with feeds := h.feeds.set i fr.state, pool } :=
  absorbAll_eq { h with feeds := h.feeds.set i fr.state } i fr.effects

@[simp] theorem afterFeed_feeds : (h.afterFeed i fr).state.feeds = h.feeds.set i fr.state := by
  obtain ⟨pool, eq⟩ := h.afterFeed_eq i fr
  rw [eq]

@[simp] theorem afterFeed_requests : (h.afterFeed i fr).state.requests = h.requests := by
  obtain ⟨pool, eq⟩ := h.afterFeed_eq i fr
  rw [eq]

@[simp] theorem afterFeed_nextToken : (h.afterFeed i fr).state.nextToken = h.nextToken := by
  obtain ⟨pool, eq⟩ := h.afterFeed_eq i fr
  rw [eq]

@[simp] theorem afterFeed_life : (h.afterFeed i fr).state.life = h.life := by
  obtain ⟨pool, eq⟩ := h.afterFeed_eq i fr
  rw [eq]

variable {h i}

theorem getElem?_afterFeed {f : Feed V H R} (there : h.feeds[i]? = some f) (fr : Feed.Result V H R) :
    (h.afterFeed i fr).state.feeds[i]? = some fr.state := by
  rw [afterFeed_feeds, List.getElem?_set_self', there]
  rfl

end AfterFeed

/-! ### The hub from which a feed makes its step -/

section Serves

variable {h g : Hub V H R} {l : HubLabel V H R} {i : Nat} {fl : FeedLabel V H R}

theorem Serves.feeds_eq (s : h.Serves l i fl g) : g.feeds = h.feeds := by cases s <;> rfl

theorem Serves.nextToken_eq (s : h.Serves l i fl g) : g.nextToken = h.nextToken := by cases s <;> rfl

theorem Serves.requests_sublist (s : h.Serves l i fl g) : g.requests.Sublist h.requests := by
  cases s with
  | subscribe => exact List.filter_sublist
  | _ => exact List.Sublist.refl _

/-- The hub's life goes on as it was, unless its closing comes to the next feed. -/
theorem Serves.life_eq (s : h.Serves l i fl g) :
    g.life = h.life ∨ h.life = .closing i ∧ g.life = .closing (i + 1) ∧ fl = .enter .shutdown := by
  cases s with
  | close closing => exact .inr ⟨closing, rfl, rfl⟩
  | _ => exact .inl rfl

/-- A subscription that enters a feed leaves those that have yet to. -/
theorem Serves.entered {signal : SignalId} {token : Token} {handler : H}
    (s : h.Serves l i (.enter (.subscribe signal token handler)) g) :
    (∃ q ∈ h.requests, q.token = token) ∧ ∀ q ∈ g.requests, q.token ≠ token := by
  cases s with
  | subscribe drawn named =>
    exact ⟨⟨_, List.mem_of_find?_eq_some drawn, named⟩, fun q hq => by
      simpa using (List.mem_filter.1 hq).2⟩
  | @use _ u _ made => cases u <;> cases made

/-- Nobody copies or drops a handle on a feed of a hub. -/
theorem Serves.unhandled (s : h.Serves l i fl g) (own : l.IsOwn) : fl ≠ .clone ∧ fl ≠ .drop := by
  cases s with
  | use => exact own.elim
  | _ => exact ⟨nofun, nofun⟩

/-- Once nobody holds the hub and nobody waits to subscribe, all that enters a feed is its shutdown. -/
theorem Serves.shutdown_of_enter (s : h.Serves l i fl g) (own : l.IsOwn) (unheld : ¬ h.IsHeld)
    (undrawn : h.requests = []) (request : FeedRequest H) (entered : fl = .enter request) :
    request = .shutdown := by
  cases s with
  | subscribe drawn =>
    rw [undrawn] at drawn
    cases drawn
  | unsubscribe held | refresh held | shutdown held => exact absurd held unheld
  | close =>
    cases entered
    rfl
  | advance | hear | invoke => cases entered
  | use => exact own.elim

theorem Serves.ofHub {f : Feed V H R} [SignalValue V] {fr : Feed.Result V H R} (s : h.Serves l i fl g)
    (own : l.IsOwn) (sound : h.Sound) (mem : f ∈ h.feeds) (step : f.step fl = some fr) : f.OfHub fl := by
  cases s with
  | subscribe drawn named =>
    exact fun there => (sound.subscribed f mem _ there).2 (.inl ⟨_, List.mem_of_find?_eq_some drawn, named⟩)
  | @advance _ move =>
    cases move with
    | retire =>
      cases Feed.transition_of_step step with
      | retire retiring =>
        rw [sound.retained f mem] at retiring
        cases retiring
    | _ => trivial
  | use => exact own.elim
  | _ => trivial

end Serves

/-! ### One step -/

section Step

variable [SignalValue V] {h : Hub V H R} {l : HubLabel V H R} {r : Result V H R}

/-- A hub that has let go of its feeds does not take them back. -/
theorem Transition.life_closed (t : h.Transition l r) (closed : h.life = .closed) : r.state.life = .closed := by
  cases t with
  | feed serves =>
    rcases serves.life_eq with same | ⟨closing, -⟩
    · exact (afterFeed_life ..).trans (same.trans closed)
    · cases closed.symm.trans closing
  | draw held =>
    obtain ⟨n, held⟩ := held
    cases closed.symm.trans held
  | clone held | drop held | dropLast held => cases closed.symm.trans held
  | letGo => rfl
  | _ => exact closed

/-- As long as an operation holds the state lock of some feed the last handle is not dropped. -/
theorem Transition.isHeld (t : h.Transition l r) (held : h.IsHeld) (busy : ¬ h.isQuiet) : r.state.IsHeld := by
  obtain ⟨n, life⟩ := held
  cases t with
  | feed serves =>
    rcases serves.life_eq with same | ⟨closing, -⟩
    · exact ⟨n, (afterFeed_life ..).trans (same.trans life)⟩
    · cases life.symm.trans closing
  | draw held => exact held
  | clone | drop => exact ⟨_, rfl⟩
  | dropLast _ _ quiet => exact absurd quiet busy
  | letGo closing => cases life.symm.trans closing
  | _ => exact ⟨n, life⟩

/-- What is awaited after a step was awaited before, or its token has just been drawn. -/
theorem Transition.awaits (t : h.Transition l r) {token : Token} (a : r.state.Awaits token) :
    h.Awaits token ∨ token.serial = h.nextToken ∧ r.state.nextToken = h.nextToken + 1 := by
  cases t with
  | @feed l i fl g f fr serves there step =>
    left
    rcases a with ⟨q, hq, rfl⟩ | ⟨f', hf', awaited⟩
    · rw [afterFeed_requests] at hq
      exact .inl ⟨q, serves.requests_sublist.subset hq, rfl⟩
    · rw [afterFeed_feeds, serves.feeds_eq] at hf'
      rcases List.mem_or_eq_of_mem_set hf' with hf' | rfl
      · exact .inr ⟨f', hf', awaited⟩
      · rcases (Feed.transition_of_step step).awaited?_eq awaited with awaited | ⟨signal, handler, rfl⟩
        · exact .inr ⟨f, List.mem_of_getElem? there, awaited⟩
        · exact .inl serves.entered.1
  | draw =>
    rcases a with ⟨q, hq, rfl⟩ | awaited
    · rcases List.mem_append.1 hq with hq | hq
      · exact .inl (.inl ⟨q, hq, rfl⟩)
      · rw [List.mem_singleton.1 hq]
        exact .inr ⟨rfl, rfl⟩
    · exact .inl (.inr awaited)
  | letGo =>
    left
    rcases a with ⟨q, hq, rfl⟩ | ⟨f', hf', awaited⟩
    · exact .inl ⟨q, hq, rfl⟩
    · obtain ⟨f, hf, rfl⟩ := List.mem_map.1 hf'
      exact .inr ⟨f, hf, awaited⟩
  | _ => exact .inl a

theorem Transition.nextToken_le (t : h.Transition l r) : h.nextToken ≤ r.state.nextToken := by
  cases t with
  | feed serves => exact Nat.le_of_eq ((afterFeed_nextToken _ _ _).trans serves.nextToken_eq).symm
  | draw => exact Nat.le_succ _
  | _ => exact Nat.le_refl _

/-- A token that is spent stays so. -/
theorem Transition.spent (t : h.Transition l r) {token : Token} (s : h.Spent token) :
    r.state.Spent token := by
  refine ⟨Nat.lt_of_lt_of_le s.1 t.nextToken_le, ?_⟩
  intro a
  rcases t.awaits a with a | ⟨eq, -⟩
  · exact s.2 a
  · exact absurd s.1 (by omega)

/-- A feed that awaits a token after a step awaited it before, or is entered for it just now. -/
theorem Transition.awaits_at (t : h.Transition l r) {j : Nat} {f : Feed V H R} {token : Token}
    (there : r.state.feeds[j]? = some f) (awaited : f.awaited? = some token) :
    (∃ e, h.feeds[j]? = some e ∧ e.awaited? = some token) ∨
      (∃ q ∈ h.requests, q.token = token) ∧ (∀ q ∈ r.state.requests, q.token ≠ token) ∧
        ∀ k ≠ j, r.state.feeds[k]? = h.feeds[k]? := by
  cases t with
  | @feed l i fl g e fr serves first step =>
    rw [afterFeed_feeds, serves.feeds_eq, List.getElem?_set] at there
    split at there
    · rename_i at'
      subst at'
      split at there
      · cases there
        rcases (Feed.transition_of_step step).awaited?_eq awaited with awaited | ⟨signal, handler, rfl⟩
        · exact .inl ⟨e, first, awaited⟩
        · refine .inr ⟨serves.entered.1, ?_, ?_⟩
          · intro q hq
            rw [afterFeed_requests] at hq
            exact serves.entered.2 q hq
          · intro k other
            rw [afterFeed_feeds, serves.feeds_eq, List.getElem?_set_ne other.symm]
      · cases there
    · exact .inl ⟨f, there, awaited⟩
  | letGo =>
    obtain ⟨e, he, rfl⟩ := Option.map_eq_some_iff.1 (List.getElem?_map.symm.trans there)
    exact .inl ⟨e, he, awaited⟩
  | _ => exact .inl ⟨f, there, awaited⟩

/-! ### What a step keeps -/

section Keeps

variable (sound : h.Sound)
include sound

theorem Transition.balanced (own : l.IsOwn) (t : h.Transition l r) : ∀ f ∈ r.state.feeds, f.Balanced := by
  cases t with
  | @feed l i fl g f fr serves there step =>
    intro f' hf'
    rw [afterFeed_feeds, serves.feeds_eq] at hf'
    have mem := List.mem_of_getElem? there
    rcases List.mem_or_eq_of_mem_set hf' with hf' | rfl
    · exact sound.balanced f' hf'
    · exact (sound.balanced f mem).step (serves.ofHub own sound mem step) (Feed.transition_of_step step)
  | letGo =>
    intro f' hf'
    obtain ⟨f, hf, rfl⟩ := List.mem_map.1 hf'
    exact (sound.balanced f hf).congr rfl rfl rfl rfl rfl
  | _ => exact sound.balanced

theorem Transition.requested (t : h.Transition l r) :
    r.state.requests.Pairwise fun p q => p.token ≠ q.token := by
  cases t with
  | feed serves =>
    rw [afterFeed_requests]
    exact sound.requested.sublist serves.requests_sublist
  | draw =>
    refine List.pairwise_append.2 ⟨sound.requested, List.pairwise_singleton _ _, ?_⟩
    intro q hq p hp eq
    have := sound.drawn q.token (.inl ⟨q, hq, rfl⟩)
    rw [eq, List.mem_singleton.1 hp] at this
    exact Nat.lt_irrefl _ this
  | _ => exact sound.requested

theorem Transition.drawn (t : h.Transition l r) (token : Token) (a : r.state.Awaits token) :
    token.serial < r.state.nextToken := by
  rcases t.awaits a with a | ⟨eq, next⟩
  · exact Nat.lt_of_lt_of_le (sound.drawn token a) t.nextToken_le
  · omega

theorem Transition.apart (t : h.Transition l r) (f : Feed V H R) (mem : f ∈ r.state.feeds) (token : Token)
    (awaited : f.awaited? = some token) (q : Request H) (hq : q ∈ r.state.requests) : q.token ≠ token := by
  obtain ⟨j, there⟩ := List.mem_iff_getElem?.1 mem
  clear mem
  rcases t.awaits_at there awaited with ⟨e, he, awaited⟩ | ⟨-, left, -⟩
  · have mem := List.mem_of_getElem? he
    cases t with
    | feed serves =>
      rw [afterFeed_requests] at hq
      exact sound.apart e mem token awaited q (serves.requests_sublist.subset hq)
    | draw =>
      rcases List.mem_append.1 hq with hq | hq
      · exact sound.apart e mem token awaited q hq
      · rintro rfl
        have := sound.drawn q.token (.inr ⟨e, mem, awaited⟩)
        rw [List.mem_singleton.1 hq] at this
        exact Nat.lt_irrefl _ this
    | _ => exact sound.apart e mem token awaited q hq
  · exact left q hq

theorem Transition.alone (t : h.Transition l r) {i j : Nat} {f g : Feed V H R} {token : Token}
    (hf : r.state.feeds[i]? = some f) (hg : r.state.feeds[j]? = some g) (af : f.awaited? = some token)
    (ag : g.awaited? = some token) : i = j := by
  have elsewhere : ∀ {a b : Nat} {e : Feed V H R}, r.state.feeds[b]? = some e → e.awaited? = some token →
      (∃ q ∈ h.requests, q.token = token) → (∀ k ≠ a, r.state.feeds[k]? = h.feeds[k]?) → b = a := by
    rintro a b e he ae ⟨q, hq, eq⟩ rest
    by_contra other
    rw [rest b other] at he
    exact sound.apart e (List.mem_of_getElem? he) token ae q hq eq
  rcases t.awaits_at hf af with ⟨d, hd, ad⟩ | ⟨hq, -, rest⟩
  · rcases t.awaits_at hg ag with ⟨e, he, ae⟩ | ⟨hq, -, rest⟩
    · exact sound.alone hd he ad ae
    · exact elsewhere hf af hq rest
  · exact (elsewhere hg ag hq rest).symm

theorem Transition.subscribed (t : h.Transition l r) (f : Feed V H R) (mem : f ∈ r.state.feeds)
    (token : Token) (there : f.HasToken token) : r.state.Spent token := by
  cases t with
  | @feed l i fl g e fr serves first step =>
    have t := Transition.feed serves first step
    have old : ∀ f ∈ h.feeds, f.HasToken token → (g.afterFeed i fr).state.Spent token :=
      fun f hf there => t.spent (sound.subscribed f hf token there)
    rw [afterFeed_feeds, serves.feeds_eq] at mem
    rcases List.mem_or_eq_of_mem_set mem with mem | rfl
    · exact old f mem there
    have mem := List.mem_of_getElem? first
    rcases (Feed.transition_of_step step).hasToken there with there | ⟨done, source⟩
    · exact old e mem there
    -- the token was awaited by the feed or by a request, and nowhere else
    have awaited : h.Awaits token := by
      rcases source with awaited | ⟨signal, handler, rfl⟩
      · exact .inr ⟨e, mem, awaited⟩
      · exact .inl serves.entered.1
    refine ⟨Nat.lt_of_lt_of_le (sound.drawn token awaited) t.nextToken_le, ?_⟩
    rintro (⟨q, hq, named⟩ | ⟨d, hd, ad⟩)
    · rw [afterFeed_requests] at hq
      rcases source with awaited | ⟨signal, handler, rfl⟩
      · exact sound.apart e mem token awaited q (serves.requests_sublist.subset hq) named
      · exact serves.entered.2 q hq named
    · rw [afterFeed_feeds, serves.feeds_eq] at hd
      obtain ⟨j, hj⟩ := List.mem_iff_getElem?.1 hd
      rw [List.getElem?_set] at hj
      split at hj
      · split at hj
        · cases hj
          rw [done] at ad
          cases ad
        · cases hj
      · rename_i other
        rcases source with awaited | ⟨signal, handler, rfl⟩
        · exact other (sound.alone first hj awaited ad)
        · obtain ⟨q, hq, named⟩ := serves.entered.1
          exact sound.apart d (List.mem_of_getElem? hj) token ad q hq named
  | letGo =>
    obtain ⟨e, he, rfl⟩ := List.mem_map.1 mem
    exact (Transition.letGo ‹_› ‹_› ‹_›).spent (sound.subscribed e he token there)
  | draw => exact (Transition.draw ‹_› ‹_›).spent (sound.subscribed f mem token there)
  | _ => exact sound.subscribed f mem token there

theorem Transition.retained (t : h.Transition l r) (f : Feed V H R) (mem : f ∈ r.state.feeds) :
    f.retiring = false := by
  cases t with
  | @feed l i fl g e fr serves first step =>
    rw [afterFeed_feeds, serves.feeds_eq] at mem
    rcases List.mem_or_eq_of_mem_set mem with mem | rfl
    · exact sound.retained f mem
    · have mem := List.mem_of_getElem? first
      exact (Feed.transition_of_step step).retiring_eq (sound.retained e mem) (sound.owns.owned e mem)
  | letGo =>
    obtain ⟨e, he, rfl⟩ := List.mem_map.1 mem
    exact sound.retained e he
  | _ => exact sound.retained f mem

/-- The closing of a hub shuts its feeds down one after another, and lets go of them when the last
one is quiet again. -/
theorem Transition.owns (own : l.IsOwn) (t : h.Transition l r) : r.state.Owns := by
  have owns := sound.owns
  cases t with
  | @feed l i fl g f fr serves first step =>
    have mem := List.mem_of_getElem? first
    have t := Feed.transition_of_step step
    have each : ∀ {p : Feed V H R → Prop}, (∀ e ∈ h.feeds, p e) → p fr.state →
        ∀ e ∈ (g.afterFeed i fr).state.feeds, p e := by
      intro p old new e he
      rw [afterFeed_feeds, serves.feeds_eq] at he
      rcases List.mem_or_eq_of_mem_set he with he | rfl
      · exact old e he
      · exact new
    have handles := t.handles_eq (serves.unhandled own).1 (serves.unhandled own).2
    cases life : h.life with
    | held n =>
      rw [owns_of_held life] at owns
      have same : g.life = .held n := by simpa [life] using serves.life_eq
      exact (owns_of_held ((afterFeed_life ..).trans same)).2 (each owns (handles.trans (owns f mem)))
    | closing next =>
      rw [owns_of_closing life] at owns
      obtain ⟨undrawn, still, down⟩ := owns
      have entered := serves.shutdown_of_enter own (by simp [IsHeld, life]) undrawn
      have quiet := each still ⟨handles.trans (still f mem).1, t.pull?_eq_none (still f mem).2 entered⟩
      have none : (g.afterFeed i fr).state.requests = [] := by
        rw [afterFeed_requests]
        exact List.sublist_nil.1 (undrawn ▸ serves.requests_sublist)
      have downed : i < next → fr.state.IsWoundDown := fun lt =>
        t.isWoundDown (sound.balanced f mem) (down i lt f first) entered (serves.unhandled own).2
      have before : ∀ j < next, ∀ e, (g.afterFeed i fr).state.feeds[j]? = some e → e.IsWoundDown := by
        intro j lt e he
        rw [afterFeed_feeds, serves.feeds_eq, List.getElem?_set] at he
        split at he
        · rename_i eq
          split at he
          · cases he
            exact downed (eq ▸ lt)
          · cases he
        · exact down j lt e he
      rcases serves.life_eq with same | ⟨closing, later, rfl⟩
      · exact (owns_of_closing ((afterFeed_life ..).trans (same.trans life))).2 ⟨none, quiet, before⟩
      obtain rfl : next = i := by simpa [life] using closing
      refine (owns_of_closing ((afterFeed_life ..).trans later)).2 ⟨none, quiet, ?_⟩
      intro j lt e he
      by_cases earlier : j < next
      · exact before j earlier e he
      obtain rfl : j = next := by omega
      obtain rfl : e = fr.state := by
        rw [afterFeed_feeds, serves.feeds_eq, List.getElem?_set_self' , first] at he
        simpa using he.symm
      exact t.isWoundDown_of_shutdown
    | closed =>
      rw [owns_of_closed life] at owns
      have same : g.life = .closed := by simpa [life] using serves.life_eq
      exact (owns_of_closed ((afterFeed_life ..).trans same)).2 (each owns (t.isOver (owns f mem)))
  | draw held =>
    obtain ⟨n, held⟩ := held
    simpa only [Owns, held] using owns
  | clone held | drop held => exact (owns_of_held held).1 owns
  | dropLast held undrawn quiet =>
    rw [owns_of_held held] at owns
    refine ⟨undrawn, fun f hf => ⟨owns f hf, ?_⟩, fun j lt => absurd lt (Nat.not_lt_zero j)⟩
    rw [Feed.pull?, free_of_isQuiet quiet hf]
    rfl
  | letGo closing quiet all =>
    obtain ⟨-, still, down⟩ := (owns_of_closing closing).1 owns
    intro f' hf'
    obtain ⟨f, hf, rfl⟩ := List.mem_map.1 hf'
    have free := free_of_isQuiet quiet hf
    obtain ⟨i, hi⟩ := List.mem_iff_getElem?.1 hf
    have lt := (List.getElem?_eq_some_iff.1 hi).1
    exact ⟨by simp [(still f hf).1], free, (down i (Nat.lt_of_lt_of_le lt all) f hi).2 free⟩
  | _ => exact owns

end Keeps

end Step

/-- **The invariant holds of every state that a hub comes to.** -/
theorem Reachable.sound [SignalValue V] {settings : Settings} {plans : List (FeedPlan V)} {h : Hub V H R}
    (reachable : Reachable settings plans h) : h.Sound := by
  induction reachable with
  | assembled start => exact sound_of_assemble start
  | step before own made ih =>
    have t := transition_of_step made
    exact {
      balanced := Transition.balanced ih own t
      requested := t.requested ih
      drawn := t.drawn ih
      apart := t.apart ih
      alone := t.alone ih
      subscribed := t.subscribed ih
      retained := t.retained ih
      owns := Transition.owns ih own t }

/-- **A hub's feeds are feeds.** What a feed of a hub has been through is a run of the feed itself, so
what holds of every run of a feed holds of it. -/
theorem Reachable.feed_run [SignalValue V] {settings : Settings} {plans : List (FeedPlan V)} {h : Hub V H R}
    (reachable : Reachable settings plans h) {i : Nat} {f : Feed V H R} (there : h.feeds[i]? = some f) :
    ∃ plan labels effects, plans[i]? = some plan ∧
      LazyHub.run Feed.step labels (.ofPlan plan) = some (f, effects) := by
  induction reachable generalizing f with
  | assembled start =>
    obtain ⟨-, rfl⟩ := eq_of_assemble start
    obtain ⟨plan, hp, rfl⟩ := Option.map_eq_some_iff.1 (List.getElem?_map.symm.trans there)
    exact ⟨plan, [], [], hp, rfl⟩
  | @step h l r before own made ih =>
    cases transition_of_step made with
    | @feed _ j fl g e fr serves first step =>
      rw [afterFeed_feeds, serves.feeds_eq, List.getElem?_set] at there
      split at there
      · rename_i eq
        subst eq
        split at there
        · cases there
          obtain ⟨plan, labels, effects, hp, ran⟩ := ih first
          exact ⟨plan, labels ++ [fl], _, hp, run_append.2 ⟨e, effects, _, ran, run_singleton step, rfl⟩⟩
        · cases there
      · exact ih there
    | letGo closing quiet all =>
      -- the hub drops its handle on a feed that is inactive by now
      obtain ⟨e, he, rfl⟩ := Option.map_eq_some_iff.1 (List.getElem?_map.symm.trans there)
      have mem := List.mem_of_getElem? he
      obtain ⟨-, still, down⟩ := (owns_of_closing closing).1 before.sound.owns
      have lt := Nat.lt_of_lt_of_le (List.getElem?_eq_some_iff.1 he).1 all
      have inactive := (down i lt e he).2 (free_of_isQuiet quiet mem)
      have dropped : e.step .drop = some { state := { e with handles := e.handles - 1 } } := by
        simp [Feed.step, Feed.drop, (still e mem).1, free_of_isQuiet quiet mem, inactive]
      obtain ⟨plan, labels, effects, hp, ran⟩ := ih he
      exact ⟨plan, labels ++ [.drop], _, hp, run_append.2 ⟨e, effects, _, ran, run_singleton dropped, rfl⟩⟩
    | _ => exact ih there

theorem Reachable.orderly [SignalValue V] {settings : Settings} {plans : List (FeedPlan V)} {h : Hub V H R}
    (reachable : Reachable settings plans h) {i : Nat} {f : Feed V H R} (there : h.feeds[i]? = some f) :
    f.Orderly := by
  obtain ⟨plan, labels, effects, -, ran⟩ := reachable.feed_run there
  exact (Feed.orderly_ofPlan plan).run ran

end LazyHub.Hub
