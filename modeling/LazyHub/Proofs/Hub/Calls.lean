import LazyHub.Proofs.Feed.Calls
import LazyHub.Proofs.Hub.Activation
import LazyHub.Proofs.Hub.Feeds

/-!
# How a hub calls its providers

Whatever the providers answer and however the operations on a hub interleave, each provider is
called in rounds (`Hub.calls_in_rounds`): it is never queried or asked for a registration while
there is one, a registration is only asked for right after a payload was decoded, and every
registration is ended once, by its own handle, before its feed is inactive again or when the last
owner of the feed is gone. This holds of a hub and of a single feed that its clients hold themselves.
-/

namespace LazyHub

open scoped Computability

variable {V H R : Type}

/-- The call to a feed's provider that an effect is, if it is one. -/
def HubEffect.callTo? (i : Nat) : HubEffect V H → Option FeedCall
  | .asked j call => if j = i then some call else none
  | _ => none

/-- The calls to a feed's provider among some effects. -/
def callsTo (i : Nat) (es : List (HubEffect V H)) : List FeedCall := es.filterMap (HubEffect.callTo? i)

namespace Hub

theorem callsTo_eq_nil {i : Nat} {es : List (HubEffect V H)} (unasked : ∀ call, .asked i call ∉ es) :
    callsTo i es = [] := by
  refine List.filterMap_eq_nil_iff.2 fun e he => ?_
  cases e with
  | asked j call =>
    refine if_neg ?_
    rintro rfl
    exact unasked call he
  | _ => rfl

theorem callsTo_absorbAll (h : Hub V H R) (i : Nat) (es : List (FeedEffect V)) :
    callsTo i (h.absorbAll i es).2 = calls es := by
  induction es generalizing h with
  | nil => rfl
  | cons e rest ih =>
    have apart : callsTo i (h.absorbAll i (e :: rest)).2 =
        callsTo i (h.absorb i e).2 ++ callsTo i ((h.absorb i e).1.absorbAll i rest).2 := List.filterMap_append
    rw [apart, ih]
    cases e with
    | asked call => simp [absorb, callsTo, calls, HubEffect.callTo?, FeedEffect.call?]
    | released | noted => rfl
    | owed signal value =>
      dsimp only [absorb]
      split <;> rfl

@[simp] theorem callsTo_afterFeed (h : Hub V H R) (i : Nat) (fr : Feed.Result V H R) :
    callsTo i (h.afterFeed i fr).effects = calls fr.effects := callsTo_absorbAll ..

variable [SignalValue V]

/-- What is heard for a feed in a step: its provider's answer, or what the decoder makes of one. -/
def heardAt (i : Nat) (h : Hub V H R) : HubLabel V H R → List (Event R)
  | .hear j reply => if j = i then [.heard reply] else []
  | .move (.advance j move) =>
    if j = i then (h.feeds[i]?.map fun f => f.heard (.advance move)).getD [] else []
  | _ => []

/-- What passes between a feed and its provider in a step of the hub: what is heard, and the calls that
the step begins. -/
def eventsAt (i : Nat) (m : Moment (Hub V H R) (HubLabel V H R) (HubEffect V H)) : List (Event R) :=
  m.before.heardAt i m.label ++ (callsTo i m.after.effects).map .asked

/-- What is heard from a provider is what the provider answers. -/
theorem hear_of_mem_eventsAt {i : Nat} {m : Moment (Hub V H R) (HubLabel V H R) (HubEffect V H)}
    {reply : ProviderReply R} (said : .heard reply ∈ eventsAt i m) : m.label = .hear i reply := by
  rcases List.mem_append.1 said with said | said
  · unfold heardAt at said
    split at said
    · rename_i j answer label
      split at said
      · rename_i eq
        obtain rfl := Event.heard.inj (List.mem_singleton.1 said)
        exact eq ▸ label
      · cases said
    · split at said
      · cases there : m.before.feeds[i]? with
        | none => simp [there] at said
        | some f =>
          rename_i move _ _
          cases move <;> simp [there, Feed.heard] at said
      · cases said
    · cases said
  · simp at said

/-- What passes in a step that a feed makes is what passes for the feed. -/
theorem Serves.eventsAt_eq {h g : Hub V H R} {l : HubLabel V H R} {i : Nat} {fl : FeedLabel V H R}
    {f : Feed V H R} {fr : Feed.Result V H R} (s : h.Serves l i fl g) (there : h.feeds[i]? = some f) :
    eventsAt i ⟨h, l, g.afterFeed i fr⟩ = Feed.events ⟨f, fl, fr⟩ := by
  have heard : h.heardAt i l = f.heard fl := by
    cases s with
    | advance => simp [heardAt, there]
    | hear => exact if_pos rfl
    | @use _ u _ made => subst made; cases u <;> rfl
    | _ => rfl
  rw [eventsAt, heard, callsTo_afterFeed, Feed.events]

theorem Passes.eventsAt_eq {i : Nat} {m : Moment (Hub V H R) (HubLabel V H R) (HubEffect V H)}
    (passes : Passes i m) : eventsAt i m = [] := by
  have unheard : m.before.heardAt i m.label = [] := by
    unfold heardAt
    split
    · rename_i j reply label
      exact if_neg fun eq => passes.unserved _ _ (by rw [label, eq]; exact .hear)
    · rename_i j move label
      exact if_neg fun eq => passes.unserved _ _ (by rw [label, eq]; exact .advance)
    · rfl
  rw [eventsAt, unheard, callsTo_eq_nil passes.unasked]
  rfl

omit [SignalValue V] in
/-- The calls to a feed's provider in a hub's history are those in the feed's own. -/
theorem Mirrors.calls_eq {i : Nat} {past : List (Moment (Hub V H R) (HubLabel V H R) (HubEffect V H))}
    {own : List (Moment (Feed V H R) (FeedLabel V H R) (FeedEffect V))} (m : Mirrors i past own) :
    callsTo i (past.flatMap (·.after.effects)) = calls (own.flatMap (·.after.effects)) := by
  rw [callsTo, calls, List.filterMap_flatMap, List.filterMap_flatMap]
  refine m.flatMap_eq (fun _ _ => callsTo_afterFeed ..) (fun _ passes => callsTo_eq_nil passes.unasked) (fun _ => rfl) ?_
  intro f fr silent
  simp [silent]

/-- **What passes between a feed and its provider** is read off the feed's own history. -/
theorem Mirrors.events_eq {i : Nat} {past : List (Moment (Hub V H R) (HubLabel V H R) (HubEffect V H))}
    {own : List (Moment (Feed V H R) (FeedLabel V H R) (FeedEffect V))} (m : Mirrors i past own) :
    past.flatMap (eventsAt i) = own.flatMap Feed.events :=
  m.flatMap_eq (fun serves there => serves.eventsAt_eq there) (fun _ passes => passes.eventsAt_eq)
    (fun _ => rfl) fun f fr silent => by
      simp [Feed.events, Feed.heard, silent, calls]

/-- The pool ends a registration that the last owner of a feed left behind. -/
theorem exists_retire {h : Hub V H R} {i : Nat} {f : Feed V H R} (there : h.feeds[i]? = some f)
    (retiring : f.retiring = true) {registration : Registration} (active : f.registration = some registration) :
    ∃ r, h.step (.move (.advance i .retire)) = some r ∧ r.effects = [.asked i (.unregister registration .pool)] := by
  have made : f.advance .retire = some (({ f with retiring := false } : Feed V H R).startUnregister registration .pool) := by
    simp only [Feed.advance, retiring, active]
  exact ⟨_, by simp only [step, act, onFeed, there, made]; rfl, rfl⟩

/-- **Providers are called in rounds.** Whatever the providers of a hub answer, and whatever a hub's clients,
workers and decoders do, or those who hold a single feed themselves, in between:

* what passes between a feed and its provider begins a sequence of rounds;
* the provider is queried and asked for a registration only while no registration is live, and the end
  that it is asked for is that of the live one;
* the registration that is live is the one that the feed holds;
* while the feed is inactive and no operation is under way the rounds are complete, so that each
  registration has been ended once;
* a registration that nobody owns any more is ended by the pool. -/
theorem calls_in_rounds {plans : List (FeedPlan V)} {tenure : Tenure} {start h : Hub V H R}
    {labels : List (HubLabel V H R)} {es : List (HubEffect V H)} (opens : Opens plans tenure start)
    (allowed : ∀ l ∈ labels, tenure.Allows l) (ran : run Hub.step labels start = some (h, es)) {i : Nat}
    {f : Feed V H R} (there : h.feeds[i]? = some f) :
    let said := (trail Hub.step labels start).flatMap (eventsAt i)
    (∃ rest, said ++ rest ∈ (rounds : Language (Event R))∗) ∧
    (∀ before call after, said = before ++ .asked call :: after → live before = call.ending?) ∧
    live said = f.registration ∧
    (f.holder = none → f.registration = none → said ∈ (rounds : Language (Event R))∗) ∧
    (f.owners = 0 → ∀ registration, f.registration = some registration →
      ∃ r, h.step (.move (.advance i .retire)) = some r ∧
        r.effects = [.asked i (.unregister registration .pool)]) := by
  intro said
  obtain ⟨plan, own, fes, -, ranOwn, mirrors⟩ := opens.mirrors allowed ran there
  obtain ⟨orderly, tidy, leads⟩ := Feed.leads_of_run ranOwn
  rw [← mirrors.events_eq] at leads
  change Leads said f.stage at leads
  refine ⟨leads.exists_rest, ?_, ?_, ?_, ?_⟩
  · intro before call after split
    rw [split] at leads
    obtain ⟨s₁, s₂, first, next⟩ := leads.next_of_append
    rw [first.live_eq, next.registration?_eq]
  · rw [leads.live_eq, tidy.registration?_stage orderly]
  · intro free inactive
    have rests : f.stage = .resting := by
      rw [Feed.stage, free, inactive]
      rfl
    exact (rests ▸ leads).mem_kstar
  · intro unowned registration active
    exact exists_retire there (tidy.left unowned (by simp [active])) active

/-- Somebody subscribes to the lamp and leaves again: one round is complete. -/
theorem lamp_is_called_in_a_round :
    ∃ h es f, run Hub.step (Lamp.subscription ++
        [.move (.unsubscribe Lamp.key.id ⟨1⟩), .move (.advance 0 .withdraw), .hear 0 (.unregistered (.ok ()))])
        Lamp.hub = some (h, es) ∧
      h.feeds = [f] ∧ f.registration = none ∧
      callsTo 0 es = [.query, .register 1, .unregister ⟨1⟩ .inPlace] ∧
      (trail Hub.step (Lamp.subscription ++
        [.move (.unsubscribe Lamp.key.id ⟨1⟩), .move (.advance 0 .withdraw), .hear 0 (.unregistered (.ok ()))])
        Lamp.hub).flatMap (eventsAt 0) ∈ (rounds : Language (Event Unit))∗ := by
  obtain ⟨h, es, f, ran, feeds, free, inactive, calls⟩ : ∃ h es f, run Hub.step (Lamp.subscription ++
        [.move (.unsubscribe Lamp.key.id ⟨1⟩), .move (.advance 0 .withdraw), .hear 0 (.unregistered (.ok ()))])
        Lamp.hub = some (h, es) ∧ h.feeds = [f] ∧ f.holder = none ∧ f.registration = none ∧
          callsTo 0 es = [.query, .register 1, .unregister ⟨1⟩ .inPlace] :=
    ⟨_, _, _, rfl, rfl, rfl, rfl, rfl⟩
  have start : assemble {} [Lamp.plan] = .ok Lamp.hub := rfl
  have opens : Opens [Lamp.plan] .hub Lamp.hub := .assembled start
  obtain ⟨-, -, -, complete, -⟩ := calls_in_rounds opens
    (by simp [Lamp.subscription, Tenure.Allows, HubLabel.IsOwn]) ran (i := 0) (f := f) (by rw [feeds]; rfl)
  exact ⟨h, es, f, ran, feeds, inactive, calls, complete free inactive⟩

end Hub

end LazyHub
