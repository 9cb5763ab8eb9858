import LazyHub.Proofs.Feed.Subscriptions
import LazyHub.Proofs.Hub.Feeds
import LazyHub.Proofs.Hub.Routing

/-!
# Tokens and their subscriptions

A subscription draws its token from the hub's counter before it enters its feed, and other subscriptions can draw
theirs in between. The token is returned in the step that adds the subscription, so one that fails uses up a token
that nobody is given.

`TokenBook` keeps account of this along a run. Tokens are drawn in ascending order (`TokenBook.ascending`); whoever
is subscribed is so under a token that was drawn for this very subscription, and that was returned
(`TokenBook.listed`); and a subscription whose token was returned is there, or was ended (`TokenBook.kept`), which
only its own token can do, or a shutdown (`EndsIn.cause`).
-/

namespace LazyHub

variable {V H R : Type}

/-! ### What is drawn and what is returned -/

/-- The subscription that draws its token in a step, if one does. -/
def drawn? (m : Moment (Hub V H R) (HubLabel V H R) (HubEffect V H)) : Option (Request H) :=
  match m.label with
  | .move (.draw key handler) => some ⟨⟨m.before.nextToken⟩, key, handler⟩
  | _ => none

/-- The token that is returned in a step, if a subscription is done. -/
def returned? (m : Moment (Hub V H R) (HubLabel V H R) (HubEffect V H)) : Option Token :=
  match m.label, m.after.answer with
  | .move (.subscribe token), some .done => some token
  | .hear i _, some .done => m.before.feeds[i]?.bind (·.awaited?)
  | _, _ => none

/-- The subscriptions that drew a token in the course of a run, in order. -/
def drawn (past : List (Moment (Hub V H R) (HubLabel V H R) (HubEffect V H))) : List (Request H) :=
  past.filterMap drawn?

/-- The tokens that were returned in the course of a run, in order. -/
def returned (past : List (Moment (Hub V H R) (HubLabel V H R) (HubEffect V H))) : List Token :=
  past.filterMap returned?

/-- A subscription is the one of a handler to a signal under a token. -/
def Request.IsFor (q : Request H) (signal : SignalId) (token : Token) (handler : H) : Prop :=
  q.token = token ∧ q.key.id = signal ∧ q.handler = handler

section Concat

variable {past : List (Moment (Hub V H R) (HubLabel V H R) (HubEffect V H))}
  {m : Moment (Hub V H R) (HubLabel V H R) (HubEffect V H)}

theorem drawn_concat : drawn (past ++ [m]) = drawn past ++ (drawn? m).toList := by
  cases d : drawn? m <;> simp [drawn, d]

theorem returned_concat : returned (past ++ [m]) = returned past ++ (returned? m).toList := by
  cases d : returned? m <;> simp [returned, d]

theorem mem_drawn_concat {q : Request H} : q ∈ drawn (past ++ [m]) ↔ q ∈ drawn past ∨ drawn? m = some q := by
  rw [drawn_concat, List.mem_append, Option.mem_toList]

theorem mem_returned_concat {token : Token} :
    token ∈ returned (past ++ [m]) ↔ token ∈ returned past ∨ returned? m = some token := by
  rw [returned_concat, List.mem_append, Option.mem_toList]

end Concat

namespace Hub

/-- Somebody's subscription has drawn its token and has yet to be added. -/
def Bids (h : Hub V H R) (signal : SignalId) (token : Token) (handler : H) : Prop :=
  (∃ q ∈ h.requests, q.IsFor signal token handler) ∨ ∃ f ∈ h.feeds, f.pull? = some (.subscribe signal token handler)

/-- A subscription is there: its handler stands among the subscribers of its signal, under its token. -/
def Has (h : Hub V H R) (q : Request H) : Prop := ∃ i, (q.token, q.handler) ∈ h.subscribersOf i q.key.id

/-- A subscription ends in a step. -/
def EndsIn (m : Moment (Hub V H R) (HubLabel V H R) (HubEffect V H)) (q : Request H) : Prop :=
  m.before.Has q ∧ ¬ m.after.state.Has q

theorem Bids.awaits {h : Hub V H R} {signal : SignalId} {token : Token} {handler : H}
    (bids : h.Bids signal token handler) : h.Awaits token := by
  rcases bids with ⟨q, mem, named, -⟩ | ⟨f, mem, pulls⟩
  · exact .inl ⟨q, mem, named⟩
  · exact .inr ⟨f, mem, by rw [Feed.awaited?, pulls]; rfl⟩

/-- The subscription that enters a feed is one that waits to. -/
theorem Serves.entered_for {h g : Hub V H R} {l : HubLabel V H R} {i : Nat} {signal : SignalId} {token : Token}
    {handler : H} (serves : h.Serves l i (.enter (.subscribe signal token handler)) g) :
    l = .move (.subscribe token) ∧ ∃ q ∈ h.requests, q.IsFor signal token handler := by
  cases serves with
  | subscribe drawn named => exact ⟨rfl, _, List.mem_of_find?_eq_some drawn, named, rfl, rfl⟩
  | @use _ u _ made => cases u <;> cases made

theorem Serves.hear_eq {h g : Hub V H R} {l : HubLabel V H R} {i : Nat} {reply : ProviderReply R}
    (serves : h.Serves l i (.hear reply) g) : l = .hear i reply := by
  cases serves with
  | hear => rfl
  | @use _ u _ made => cases u <;> cases made

variable [SignalValue V] {settings : Settings} {plans : List (FeedPlan V)} {h k : Hub V H R} {l : HubLabel V H R}
  {r : Result V H R} {signal : SignalId} {token : Token} {handler : H} {q : Request H}
  {past : List (Moment (Hub V H R) (HubLabel V H R) (HubEffect V H))}

/-! ### One step -/

theorem Transition.draws (t : h.Transition l r) (draws : drawn? ⟨h, l, r⟩ = some q) :
    q.token = ⟨h.nextToken⟩ ∧ r.state.nextToken = h.nextToken + 1 := by
  cases t with
  | draw =>
    cases draws
    exact ⟨rfl, rfl⟩
  | feed serves =>
    cases serves with
    | use => cases draws
    | _ => cases draws
  | _ => cases draws

/-- Whoever waits to be subscribed waited before, or has just drawn its token. -/
theorem Transition.bids (t : h.Transition l r) (bids : r.state.Bids signal token handler) :
    h.Bids signal token handler ∨ ∃ q, drawn? ⟨h, l, r⟩ = some q ∧ q.IsFor signal token handler := by
  cases t with
  | @feed l i fl g f fr serves there step =>
    left
    rcases bids with ⟨q, mem, isFor⟩ | ⟨f', mem, pulls⟩
    · rw [afterFeed_requests] at mem
      exact .inl ⟨q, serves.requests_sublist.subset mem, isFor⟩
    · rw [afterFeed_feeds, serves.feeds_eq] at mem
      rcases List.mem_or_eq_of_mem_set mem with mem | rfl
      · exact .inr ⟨f', mem, pulls⟩
      · rcases (Feed.transition_of_step step).pull?_eq pulls with pulls | rfl
        · exact .inr ⟨f, List.mem_of_getElem? there, pulls⟩
        · exact .inl serves.entered_for.2
  | draw =>
    rcases bids with ⟨q, mem, isFor⟩ | pulls
    · rcases List.mem_append.1 mem with mem | mem
      · exact .inl (.inl ⟨q, mem, isFor⟩)
      · obtain rfl := List.mem_singleton.1 mem
        exact .inr ⟨_, rfl, isFor⟩
    · exact .inl (.inr pulls)
  | letGo =>
    left
    rcases bids with mem | ⟨f', mem, pulls⟩
    · exact .inl mem
    · obtain ⟨f, there, rfl⟩ := List.mem_map.1 mem
      exact .inr ⟨f, there, pulls⟩
  | _ => exact .inl bids

/-- **Whoever comes to be subscribed** has its token returned in the same step. -/
theorem Transition.joins (t : h.Transition l r) {i : Nat} {e : Token × H} (mem : e ∈ r.state.subscribersOf i signal) :
    e ∈ h.subscribersOf i signal ∨ returned? ⟨h, l, r⟩ = some e.1 ∧ h.Bids signal e.1 e.2 := by
  obtain ⟨f', there', lists⟩ := mem_subscribersOf.1 mem
  rw [mem_subscribersOf]
  cases t with
  | @feed l j fl g f fr serves there step =>
    rw [afterFeed_feeds, serves.feeds_eq, List.getElem?_set] at there'
    split at there'
    · rename_i eq
      subst eq
      split at there'
      · cases there'
        rcases (Feed.transition_of_step step).joins lists with lists | ⟨done, -, ⟨pulls, reply, rfl⟩ | ⟨-, rfl⟩⟩
        · exact .inl ⟨f, there, lists⟩
        · obtain rfl := serves.hear_eq
          have answer : (g.afterFeed j fr).answer = some .done := done
          refine .inr ⟨?_, .inr ⟨f, List.mem_of_getElem? there, pulls⟩⟩
          rw [returned?, answer]
          change h.feeds[j]?.bind (·.awaited?) = _
          rw [there, Option.bind_some, Feed.awaited?, pulls]
          rfl
        · obtain ⟨rfl, bids⟩ := serves.entered_for
          have answer : (g.afterFeed j fr).answer = some .done := done
          exact .inr ⟨by rw [returned?, answer], .inl bids⟩
      · cases there'
    · exact .inl ⟨f', there', lists⟩
  | letGo =>
    obtain ⟨f, there, rfl⟩ := Option.map_eq_some_iff.1 (List.getElem?_map.symm.trans there')
    exact .inl ⟨f, there, lists⟩
  | _ => exact .inl ⟨f', there', lists⟩

/-- **A token is returned** to a subscription that has just been added. -/
theorem Transition.returns (t : h.Transition l r) (sound : h.Sound) (returned : returned? ⟨h, l, r⟩ = some token) :
    ∃ i signal handler, h.Bids signal token handler ∧ (token, handler) ∈ r.state.subscribersOf i signal := by
  have added : ∀ {i : Nat} {f : Feed V H R} {fl : FeedLabel V H R} {fr : Feed.Result V H R} {g : Hub V H R}
      {signal : SignalId} {handler : H}, h.Serves l i fl g → h.feeds[i]? = some f → f.step fl = some fr →
      fr.answer = some .done → (fl = .enter (.subscribe signal token handler) ∨
        (∃ reply, fl = .hear reply) ∧ f.pull? = some (.subscribe signal token handler)) →
      (token, handler) ∈ (g.afterFeed i fr).state.subscribersOf i signal := by
    intro i f fl fr g signal handler serves there step answered how
    have lists := (Feed.transition_of_step step).joined (sound.balanced f (List.mem_of_getElem? there)) answered how
    exact mem_subscribersOf.2 ⟨fr.state, getElem?_afterFeed (serves.feeds_eq ▸ there) fr, lists⟩
  unfold returned? at returned
  split at returned
  · rename_i token' label answer
    obtain rfl : token' = token := Option.some.inj returned
    cases t with
    | @feed _ i _ _ _ _ serves there step =>
      cases label
      cases serves with
      | subscribe drawn named routes =>
        have serves := Serves.subscribe drawn named routes
        have mem := List.mem_of_find?_eq_some drawn
        exact ⟨i, _, _, .inl ⟨_, mem, named, rfl, rfl⟩, added serves there step answer (.inl rfl)⟩
    | _ => cases label
  · rename_i j reply label answer
    cases t with
    | @feed _ i fl g f fr serves there step =>
      cases label
      cases serves with
      | hear =>
        have awaited : f.awaited? = some token := by simpa [there] using returned
        obtain ⟨purpose, pulls, named⟩ := Option.bind_eq_some_iff.1 awaited
        cases purpose with
        | subscribe signal token' handler =>
          cases named
          have mem := List.mem_of_getElem? there
          exact ⟨j, signal, handler, .inr ⟨f, mem, pulls⟩, added .hear there step answer (.inr ⟨⟨_, rfl⟩, pulls⟩)⟩
        | _ => cases named
    | _ => cases label
  · cases returned

/-- **Whoever ceases to be subscribed** does so by its own signal and token, or in a shutdown of its feed. -/
theorem Transition.leaves (t : h.Transition l r) (sound : h.Sound) (own : l.IsOwn) {i : Nat} {e : Token × H}
    (was : e ∈ h.subscribersOf i signal) (gone : e ∉ r.state.subscribersOf i signal) :
    l = .move (.unsubscribe signal e.1) ∨ l = .move (.advance i .clear) := by
  obtain ⟨f, there, lists⟩ := mem_subscribersOf.1 was
  rw [mem_subscribersOf] at gone
  cases t with
  | @feed l j fl g f' fr serves there' step =>
    by_cases eq : j = i
    · subst eq
      obtain rfl := Option.some.inj (there.symm.trans there')
      have mem := List.mem_of_getElem? there
      have after : ¬ fr.state.Lists signal e := fun lists' =>
        gone ⟨fr.state, getElem?_afterFeed (serves.feeds_eq ▸ there) fr, lists'⟩
      have ofHub := serves.ofHub own sound mem step
      rcases (Feed.transition_of_step step).leaves (sound.balanced f mem) ofHub lists after with rfl | rfl
      · cases serves with
        | unsubscribe => exact .inl rfl
        | use => exact own.elim
      · exact .inr serves.advance_eq
    · refine absurd ⟨f, ?_, lists⟩ gone
      rw [afterFeed_feeds, serves.feeds_eq, List.getElem?_set_ne eq, there]
  | letGo => exact absurd ⟨_, List.getElem?_map.trans (congrArg _ there), lists⟩ gone
  | _ => exact absurd ⟨f, there, lists⟩ gone

/-- What ends a subscription is its own signal and token, or a shutdown of its feed. -/
theorem EndsIn.cause {m : Moment (Hub V H R) (HubLabel V H R) (HubEffect V H)} (ends : EndsIn m q) (sound : m.before.Sound)
    (own : m.label.IsOwn) (made : m.before.step m.label = some m.after) :
    m.label = .move (.unsubscribe q.key.id q.token) ∨
      ∃ i, (q.token, q.handler) ∈ m.before.subscribersOf i q.key.id ∧ m.label = .move (.advance i .clear) := by
  obtain ⟨⟨i, was⟩, gone⟩ := ends
  have left := (transition_of_step made).leaves sound own was fun mem => gone ⟨i, mem⟩
  exact left.imp_right fun cleared => ⟨i, was, cleared⟩

/-! ### The book -/

omit [SignalValue V] in
/-- **What is known of the tokens of a hub** after it has made some steps. -/
structure TokenBook (past : List (Moment (Hub V H R) (HubLabel V H R) (HubEffect V H))) (h : Hub V H R) : Prop where
  /-- A token that is drawn later is larger. -/
  ascending : (drawn past).Pairwise fun p q => p.token.serial < q.token.serial
  /-- The next token is larger than those drawn so far. -/
  below : ∀ q ∈ drawn past, q.token.serial < h.nextToken
  /-- Whoever waits to be subscribed has drawn its token. -/
  bids : ∀ {signal token handler}, h.Bids signal token handler → ∃ q ∈ drawn past, q.IsFor signal token handler
  /-- Whoever is subscribed has drawn its token, and the token was returned. -/
  listed : ∀ {i signal e}, e ∈ h.subscribersOf i signal →
    e.1 ∈ returned past ∧ ∃ q ∈ drawn past, q.IsFor signal e.1 e.2
  /-- No token is returned twice. -/
  once : (returned past).Nodup
  /-- A token that was returned was drawn, and is never drawn again. -/
  spent : ∀ token ∈ returned past, h.Spent token ∧ ∃ q ∈ drawn past, q.token = token
  /-- A subscription whose token was returned is there, unless it was ended. -/
  kept : ∀ q ∈ drawn past, q.token ∈ returned past → h.Has q ∨ ∃ m ∈ past, EndsIn m q
  /-- A subscription that was ended does not come back. -/
  gone : ∀ m ∈ past, ∀ q, EndsIn m q → h.Spent q.token ∧ ¬ h.Has q

omit [SignalValue V] in
theorem tokenBook_of_assemble (start : assemble settings plans = .ok h) : TokenBook [] h := by
  have sound := sound_of_assemble start
  obtain ⟨-, rfl⟩ := eq_of_assemble start
  have planned : ∀ f ∈ plans.map (Feed.ofPlan (H := H) (R := R)), ∃ plan, f = .ofPlan plan := fun f mem => by
    obtain ⟨plan, -, rfl⟩ := List.mem_map.1 mem
    exact ⟨plan, rfl⟩
  constructor
  · exact .nil
  · nofun
  · rintro signal token handler (⟨q, mem, -⟩ | ⟨f, mem, pulls⟩)
    · cases mem
    · obtain ⟨plan, rfl⟩ := planned f mem
      cases pulls
  · intro i signal e mem
    obtain ⟨f, there, lists⟩ := mem_subscribersOf.1 mem
    obtain ⟨plan, rfl⟩ := planned f (List.mem_of_getElem? there)
    exact (Feed.not_hasToken_of_empty (Feed.totalSubscribers_ofPlan plan) e.1 ⟨signal, e.2, lists⟩).elim
  · exact .nil
  · nofun
  · exact fun q mem => absurd mem List.not_mem_nil
  · exact fun m mem => absurd mem List.not_mem_nil

section Book

variable (book : TokenBook past h)
include book

omit [SignalValue V] in
/-- A token is drawn once. -/
theorem TokenBook.eq_of_token {p : Request H} (hp : p ∈ drawn past) (hq : q ∈ drawn past) (same : p.token = q.token) :
    p = q := by
  have nodup : ((drawn past).map (·.token)).Nodup := by
    refine List.pairwise_map.2 (book.ascending.imp fun lt eq => ?_)
    rw [eq] at lt
    exact Nat.lt_irrefl _ lt
  exact List.inj_on_of_nodup_map nodup hp hq same

omit [SignalValue V] in
/-- The subscription that was drawn under a token is the one that stands under it. -/
theorem TokenBook.has_of_mem (drew : q ∈ drawn past) {i : Nat} (mem : (q.token, handler) ∈ h.subscribersOf i signal) :
    q.key.id = signal ∧ q.handler = handler := by
  obtain ⟨-, p, hp, named, key, same⟩ := book.listed mem
  obtain rfl := book.eq_of_token hp drew named
  exact ⟨key, same⟩

omit book in
/-- Whoever is subscribed after a step, under a token that is spent, was so before. -/
theorem Transition.has_of_after (t : h.Transition l r) (spent : h.Spent q.token) (has : r.state.Has q) : h.Has q := by
  obtain ⟨i, mem⟩ := has
  exact ⟨i, (t.lists_at mem).resolve_right spent.2⟩

/-- **Every step keeps the book.** -/
theorem TokenBook.step (reachable : Reachable settings plans h) (own : l.IsOwn) (made : h.step l = some r) :
    TokenBook (past ++ [⟨h, l, r⟩]) r.state := by
  have t := transition_of_step made
  have sound := reachable.sound
  have reached := reachable.step own made
  have drew : ∀ {q}, q ∈ drawn past → q ∈ drawn (past ++ [⟨h, l, r⟩]) := fun mem => mem_drawn_concat.2 (.inl mem)
  have bidden : ∀ {signal token handler}, h.Bids signal token handler →
      ∃ q ∈ drawn (past ++ [⟨h, l, r⟩]), q.IsFor signal token handler := fun bids => by
    obtain ⟨q, mem, isFor⟩ := book.bids bids
    exact ⟨q, drew mem, isFor⟩
  constructor
  · rw [drawn_concat]
    refine List.pairwise_append.2 ⟨book.ascending, ?_, ?_⟩
    · cases drawn? (⟨h, l, r⟩ : Moment (Hub V H R) (HubLabel V H R) (HubEffect V H)) with
      | none => exact .nil
      | some q => exact List.pairwise_singleton _ _
    · intro p hp q hq
      rw [(t.draws (Option.mem_toList.1 hq)).1]
      exact book.below p hp
  · intro q mem
    rcases mem_drawn_concat.1 mem with mem | now
    · exact Nat.lt_of_lt_of_le (book.below q mem) t.nextToken_le
    · obtain ⟨named, next⟩ := t.draws now
      rw [named, next]
      exact Nat.lt_succ_self _
  · intro signal token handler bids
    rcases t.bids bids with bids | ⟨q, now, isFor⟩
    · exact bidden bids
    · exact ⟨q, mem_drawn_concat.2 (.inr now), isFor⟩
  · intro i signal e mem
    rcases t.joins mem with mem | ⟨now, bids⟩
    · obtain ⟨was, q, hq, isFor⟩ := book.listed mem
      exact ⟨mem_returned_concat.2 (.inl was), q, drew hq, isFor⟩
    · exact ⟨mem_returned_concat.2 (.inr now), bidden bids⟩
  · rw [returned_concat]
    refine List.nodup_append.2 ⟨book.once, ?_, ?_⟩
    · cases returned? (⟨h, l, r⟩ : Moment (Hub V H R) (HubLabel V H R) (HubEffect V H)) with
      | none => exact .nil
      | some token => exact List.nodup_singleton _
    · -- a token that is returned now was awaited until now
      rintro token was _ now rfl
      obtain ⟨i, signal, handler, bids, -⟩ := t.returns sound (Option.mem_toList.1 now)
      exact (book.spent token was).1.2 bids.awaits
  · intro token mem
    rcases mem_returned_concat.1 mem with mem | now
    · obtain ⟨spent, q, hq, named⟩ := book.spent token mem
      exact ⟨t.spent spent, q, drew hq, named⟩
    · obtain ⟨i, signal, handler, bids, added⟩ := t.returns sound now
      obtain ⟨q, hq, named, -⟩ := bidden bids
      exact ⟨reached.spent_of_mem added, q, hq, named⟩
  · intro q hq mem
    have isNew : drawn? ⟨h, l, r⟩ = some q → ¬ q.token.serial < h.nextToken := fun now lt => by
      rw [(t.draws now).1] at lt
      exact Nat.lt_irrefl _ lt
    rcases mem_returned_concat.1 mem with was | now
    · have hq := (mem_drawn_concat.1 hq).resolve_right fun now => isNew now (book.spent _ was).1.1
      rcases book.kept q hq was with has | ⟨m, hm, ends⟩
      · by_cases stays : r.state.Has q
        · exact .inl stays
        · exact .inr ⟨_, List.mem_append_right _ (List.mem_singleton_self _), has, stays⟩
      · exact .inr ⟨m, List.mem_append_left _ hm, ends⟩
    · obtain ⟨i, signal, handler, bids, added⟩ := t.returns sound now
      have hq := (mem_drawn_concat.1 hq).resolve_right fun now => isNew now (sound.drawn _ bids.awaits)
      obtain ⟨p, hp, named, key, same⟩ := book.bids bids
      obtain rfl := book.eq_of_token hp hq named
      exact .inl ⟨i, by rw [key, same]; exact added⟩
  · intro m mem q ends
    rcases List.mem_append.1 mem with mem | mem
    · obtain ⟨spent, absent⟩ := book.gone m mem q ends
      exact ⟨t.spent spent, fun has => absent (t.has_of_after spent has)⟩
    · obtain rfl := List.mem_singleton.1 mem
      obtain ⟨⟨i, was⟩, absent⟩ := ends
      exact ⟨t.spent (reachable.spent_of_mem was), absent⟩

theorem TokenBook.run (reachable : Reachable settings plans h) {labels : List (HubLabel V H R)}
    {es : List (HubEffect V H)} (own : ∀ l ∈ labels, l.IsOwn) (ran : LazyHub.run Hub.step labels h = some (k, es)) :
    TokenBook (past ++ trail Hub.step labels h) k := by
  induction labels generalizing h es past with
  | nil =>
    cases ran
    simpa using book
  | cons l rest ih =>
    obtain ⟨r, later, made, onward, rfl⟩ := run_cons.1 ran
    obtain ⟨first, own⟩ := List.forall_mem_cons.1 own
    have next := ih (book.step reachable first made) (reachable.step first made) own onward
    rw [trail_cons made]
    simpa using next

omit [SignalValue V] in
/-- **A subscription is there** if its token was returned and it has not been ended. -/
theorem TokenBook.has_iff (drew : q ∈ drawn past) :
    h.Has q ↔ q.token ∈ returned past ∧ ∀ m ∈ past, ¬ EndsIn m q := by
  constructor
  · rintro ⟨i, mem⟩
    exact ⟨(book.listed mem).1, fun m hm ends => (book.gone m hm q ends).2 ⟨i, mem⟩⟩
  · rintro ⟨mem, unended⟩
    rcases book.kept q drew mem with has | ⟨m, hm, ends⟩
    · exact has
    · exact absurd ends (unended m hm)

end Book

end Hub

end LazyHub
