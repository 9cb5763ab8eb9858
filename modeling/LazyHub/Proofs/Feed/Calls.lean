import LazyHub.Proofs.Feed.Pushes
import Mathlib.Computability.Language

/-!
# How a feed calls its provider

A feed calls its provider in rounds. A round starts with a query; it ends there if the query or the
decoding of its payload fails, or if the values are all that was wanted. Otherwise a callback is
registered, and if the provider accepts it the round goes on until this registration is ended.

`Stage` is how far a round is along, and `Stage.Next` says what can come next: an automaton over the
`Event`s between a feed, its provider and the decoder of what the provider answers to queries.
`Feed.stage` reads the stage off a feed's state lock and registration, and `Transition.moves` says
that every step of a feed moves it on as the automaton does. Hence what is said in the course of a
run leads to the stage that the feed is in (`leads_of_run`), and words that lead somewhere are
beginnings of sequences of rounds (`Leads.exists_rest`).
-/

namespace LazyHub

open scoped Computability

variable {V H R : Type}

/-- What passes between a feed and its provider, and what the decoder makes of the provider's answers to
queries. -/
inductive Event (R : Type) where
  /-- The feed makes a call. -/
  | asked (call : FeedCall)
  /-- The provider answers. -/
  | heard (reply : ProviderReply R)
  /-- The decoder has looked at the answer to a query. -/
  | decoded (verdict : Except DecodeFailure Unit)

/-- The call to the provider that an effect is, if it is one. -/
def FeedEffect.call? : FeedEffect V → Option FeedCall
  | .asked call => some call
  | _ => none

/-- The calls to the provider among some effects. -/
def calls (es : List (FeedEffect V)) : List FeedCall := es.filterMap FeedEffect.call?

/-- The registration that a call is to end. -/
def FeedCall.ending? : FeedCall → Option Registration
  | .unregister registration _ => some registration
  | _ => none

/-! ### Rounds -/

/-- A query that succeeds and whose payload is decoded. -/
def pulled (payload : R) : List (Event R) :=
  [.asked .query, .heard (.queried (.ok payload)), .decoded (.ok ())]

/-- **What is said in one round.** -/
inductive IsRound : List (Event R) → Prop where
  /-- The query fails. -/
  | queryFailed {failure : ProviderFailure} : IsRound [.asked .query, .heard (.queried (.error failure))]
  /-- The payload is not decoded. -/
  | decodeFailed {payload : R} {failure : DecodeFailure} :
      IsRound [.asked .query, .heard (.queried (.ok payload)), .decoded (.error failure)]
  /-- Nothing but the values was wanted. -/
  | pulled {payload : R} : IsRound (LazyHub.pulled payload)
  /-- The registration fails. -/
  | registerFailed {payload : R} {epoch : Nat} {failure : ProviderFailure} :
      IsRound (LazyHub.pulled payload ++
        [.asked (.register epoch), .heard (.registered (.error failure))])
  /-- The registration succeeds, and is ended by its handle. -/
  | unregistered {payload : R} {epoch : Nat} {registration : Registration} {place : Place}
      {answer : Except ProviderFailure Unit} :
      IsRound (LazyHub.pulled payload ++
        [.asked (.register epoch), .heard (.registered (.ok registration)),
          .asked (.unregister registration place), .heard (.unregistered answer)])

/-- The rounds. -/
def rounds : Language (Event R) := Set.ofPred IsRound

/-- The registration that is live after some events: accepted, and its end not asked for. -/
def live (es : List (Event R)) : Option Registration :=
  es.foldl (fun known => fun
    | .heard (.registered (.ok registration)) => some registration
    | .asked (.unregister ..) => none
    | _ => known) none

/-! ### Stages -/

/-- How far a round is along. -/
inductive Stage where
  /-- No round is under way. -/
  | resting
  /-- A query is not answered yet. -/
  | querying
  /-- The answer to a query is not decoded yet. -/
  | decoding
  /-- The answer to a query is decoded. -/
  | decoded
  /-- A registration is not answered yet. -/
  | registering
  /-- There is a registration. -/
  | registered (registration : Registration)
  /-- The end of a registration is not answered yet. -/
  | unregistering (registration : Registration)

namespace Stage

/-- What can come next, and how far the round is along then. -/
inductive Next : Stage → Event R → Stage → Prop where
  | query : Next resting (.asked .query) querying
  | queryFailed {failure : ProviderFailure} : Next querying (.heard (.queried (.error failure))) resting
  | queried {payload : R} : Next querying (.heard (.queried (.ok payload))) decoding
  | decodeFailed {failure : DecodeFailure} : Next decoding (.decoded (.error failure)) resting
  | decoded : Next decoding (.decoded (.ok ())) decoded
  | register {epoch : Nat} : Next decoded (.asked (.register epoch)) registering
  | registerFailed {failure : ProviderFailure} :
      Next registering (.heard (.registered (.error failure))) resting
  | registered {registration : Registration} :
      Next registering (.heard (.registered (.ok registration))) (registered registration)
  | unregister {registration : Registration} {place : Place} :
      Next (registered registration) (.asked (.unregister registration place)) (unregistering registration)
  | unregistered {registration : Registration} {answer : Except ProviderFailure Unit} :
      Next (unregistering registration) (.heard (.unregistered answer)) resting

/-- How a step moves a round on. Where an answer to a query is decoded the round can be over. -/
inductive Moves (s s' : Stage) : List (Event R) → Prop where
  /-- Nothing is said, and the round is where it was. -/
  | still (same : s' = s) : Moves s s' []
  /-- Something is said. -/
  | next {e : Event R} (next : s.Next e s') : Moves s s' [e]
  /-- The round is over without a word. -/
  | ended (pulled : s = .decoded) (resting : s' = .resting) : Moves s s' []

/-- What was said in a round that is so far along. -/
inductive Begun : Stage → List (Event R) → Prop where
  | resting : Begun resting []
  | querying : Begun querying [.asked .query]
  | decoding {payload : R} : Begun decoding [.asked .query, .heard (.queried (.ok payload))]
  | decoded {payload : R} : Begun decoded (pulled payload)
  | registering {payload : R} {epoch : Nat} : Begun registering (pulled payload ++ [.asked (.register epoch)])
  | registered {payload : R} {epoch : Nat} {registration : Registration} :
      Begun (registered registration)
        (pulled payload ++ [.asked (.register epoch), .heard (.registered (.ok registration))])
  | unregistering {payload : R} {epoch : Nat} {registration : Registration} {place : Place} :
      Begun (unregistering registration)
        (pulled payload ++ [.asked (.register epoch), .heard (.registered (.ok registration)),
          .asked (.unregister registration place)])

/-- The stage between two calls, by the registration held. -/
def between : Option Registration → Stage
  | some registration => registered registration
  | none => resting

/-- The registration that there is at a stage. -/
def registration? : Stage → Option Registration
  | registered registration => some registration
  | _ => none

/-- A call is made at a stage at which the registration that it ends is there, and no other. -/
theorem Next.registration?_eq {s s' : Stage} {call : FeedCall} (next : s.Next (.asked call : Event R) s') :
    s.registration? = call.ending? := by
  cases next <;> rfl

/-- What comes next takes the round further along, or ends it. -/
theorem Next.begun {s s' : Stage} {e : Event R} {part : List (Event R)} (next : s.Next e s')
    (begun : s.Begun part) : s'.Begun (part ++ [e]) ∨ s' = .resting ∧ IsRound (part ++ [e]) := by
  cases next with
  | query => cases begun; exact .inl .querying
  | queryFailed => cases begun; exact .inr ⟨rfl, .queryFailed⟩
  | queried => cases begun; exact .inl .decoding
  | decodeFailed => cases begun; exact .inr ⟨rfl, .decodeFailed⟩
  | decoded => cases begun; exact .inl .decoded
  | register => cases begun; exact .inl .registering
  | registerFailed => cases begun; exact .inr ⟨rfl, .registerFailed⟩
  | registered => cases begun; exact .inl .registered
  | unregister => cases begun; exact .inl .unregistering
  | unregistered => cases begun; exact .inr ⟨rfl, .unregistered⟩

/-- A round that has begun can be ended. -/
theorem Begun.exists_rest {s : Stage} {part : List (Event R)} (begun : s.Begun part) :
    part = [] ∨ ∃ rest, IsRound (part ++ rest) := by
  cases begun with
  | resting => exact .inl rfl
  | querying => exact .inr ⟨[.heard (.queried (.error default))], .queryFailed⟩
  | decoding => exact .inr ⟨[.decoded (.ok ())], .pulled⟩
  | decoded => exact .inr ⟨[], .pulled⟩
  | registering => exact .inr ⟨[.heard (.registered (.error default))], .registerFailed⟩
  | @registered _ _ registration =>
    exact .inr ⟨[.asked (.unregister registration .inPlace), .heard (.unregistered (.ok ()))], .unregistered⟩
  | unregistering => exact .inr ⟨[.heard (.unregistered (.ok ()))], .unregistered⟩

end Stage

/-- **What was said leads to a stage.** Once an answer to a query is decoded, the round can be over. -/
inductive Leads : List (Event R) → Stage → Prop where
  | start : Leads [] .resting
  | next {es : List (Event R)} {e : Event R} {s s' : Stage} (before : Leads es s) (next : s.Next e s') :
      Leads (es ++ [e]) s'
  | pulled {es : List (Event R)} (before : Leads es .decoded) : Leads es .resting

namespace Leads

theorem moves {es said : List (Event R)} {s s' : Stage} (leads : Leads es s) (moves : s.Moves s' said) :
    Leads (es ++ said) s' := by
  cases moves with
  | still same => rwa [List.append_nil, same]
  | next next => exact leads.next next
  | ended pulled resting =>
    subst pulled resting
    exact (List.append_nil es).symm ▸ leads.pulled

theorem live_eq {es : List (Event R)} {s : Stage} (leads : Leads es s) : live es = s.registration? := by
  induction leads with
  | start => rfl
  | @next es e s s' before next ih =>
    have one : live (es ++ [e]) = [e].foldl _ (live es) := List.foldl_append
    rw [one, ih]
    cases next <;> rfl
  | pulled before ih => exact ih

/-- Every event of a word comes at a stage at which it can come. -/
theorem next_of_append {before after : List (Event R)} {e : Event R} {s : Stage}
    (leads : Leads (before ++ e :: after) s) : ∃ s₁ s₂, Leads before s₁ ∧ s₁.Next e s₂ := by
  generalize whole : before ++ e :: after = es at leads
  induction leads generalizing after with
  | start => simp at whole
  | @next es e' s s' leads next ih =>
    rcases List.eq_nil_or_concat after with rfl | ⟨rest, last, rfl⟩
    · obtain ⟨rfl, eq⟩ := List.append_inj' whole rfl
      obtain rfl : e = e' := (List.cons.inj eq).1
      exact ⟨s, s', leads, next⟩
    · rw [List.concat_eq_append, ← List.cons_append, ← List.append_assoc] at whole
      exact ih (List.append_inj' whole rfl).1
  | pulled leads ih => exact ih whole

theorem rounds_concat {done part : List (Event R)} (h : done ∈ (rounds : Language (Event R))∗)
    (round : IsRound part) : done ++ part ∈ (rounds : Language (Event R))∗ := by
  obtain ⟨words, rfl, all⟩ := Language.mem_kstar.1 h
  refine Language.mem_kstar.2 ⟨words ++ [part], by simp, ?_⟩
  intro w hw
  rcases List.mem_append.1 hw with hw | hw
  · exact all w hw
  · rw [List.mem_singleton.1 hw]
    exact round

/-- A word that leads to a stage is made of rounds, and of one that is so far along. -/
theorem begun {es : List (Event R)} {s : Stage} (leads : Leads es s) :
    ∃ done part, done ∈ (rounds : Language (Event R))∗ ∧ s.Begun part ∧ es = done ++ part := by
  induction leads with
  | start => exact ⟨[], [], Language.nil_mem_kstar _, .resting, rfl⟩
  | next before next ih =>
    obtain ⟨done, part, whole, begun, rfl⟩ := ih
    rw [List.append_assoc]
    rcases next.begun begun with begun | ⟨rfl, round⟩
    · exact ⟨done, _, whole, begun, rfl⟩
    · exact ⟨_, [], rounds_concat whole round, .resting, (List.append_nil _).symm⟩
  | pulled before ih =>
    obtain ⟨done, part, whole, begun, rfl⟩ := ih
    cases begun
    exact ⟨_, [], rounds_concat whole .pulled, .resting, (List.append_nil _).symm⟩

/-- **A word that leads to a stage begins a sequence of rounds.** -/
theorem exists_rest {es : List (Event R)} {s : Stage} (leads : Leads es s) :
    ∃ rest, es ++ rest ∈ (rounds : Language (Event R))∗ := by
  obtain ⟨done, part, whole, begun, rfl⟩ := leads.begun
  rcases begun.exists_rest with rfl | ⟨rest, round⟩
  · exact ⟨[], by simpa using whole⟩
  · exact ⟨rest, by simpa using rounds_concat whole round⟩

/-- A word after which no round is under way is made of rounds. -/
theorem mem_kstar {es : List (Event R)} (leads : Leads es .resting) : es ∈ (rounds : Language (Event R))∗ := by
  obtain ⟨done, part, whole, begun, rfl⟩ := leads.begun
  cases begun
  simpa using whole

end Leads

/-! ### The stage of a feed -/

namespace Feed

/-- The stage at which a feed is. -/
def stage (f : Feed V H R) : Stage :=
  match f.holder with
  | some (.querying _) => .querying
  | some (.decoding ..) => .decoding
  | some (.seeding ..) | some (.writing _) => .decoded
  | some (.registering _) => .registering
  | some (.unregistering registration _) => .unregistering registration
  | _ => .between f.registration

/-- What is heard in a step: the provider's answer, or what the decoder makes of one. -/
def heard [SignalValue V] (f : Feed V H R) : FeedLabel V H R → List (Event R)
  | .hear reply => [.heard reply]
  | .advance (.decoded outcome) => [.decoded ((f.admissible outcome).map fun _ => ())]
  | _ => []

/-- What is heard in a step, and the calls that the step begins. -/
def events [SignalValue V] (m : Moment (Feed V H R) (FeedLabel V H R) (FeedEffect V)) : List (Event R) :=
  m.before.heard m.label ++ (calls m.after.effects).map .asked

/-- **A feed lets go of what it no longer needs**, and holds what it does need: a registration that is being
ended is forgotten, one that nobody owns is left for the pool to end, and a pull writes under the update
lock. -/
structure Tidy (f : Feed V H R) : Prop where
  /-- A registration whose end is asked for is forgotten. -/
  forgotten : ∀ registration place, f.holder = some (.unregistering registration place) → f.registration = none
  /-- A registration that nobody owns is left for the pool to end. -/
  left : f.owners = 0 → f.registration.isSome → f.retiring = true
  /-- A pull that writes holds the update lock. -/
  locks : ∀ purpose, f.holder = some (.writing purpose) → ∃ rest, f.writer = some ⟨none, rest, .none⟩

theorem tidy_ofPlan (plan : FeedPlan V) : (ofPlan plan : Feed V H R).Tidy where
  forgotten := nofun
  left := nofun
  locks := nofun

variable [SignalValue V] {f : Feed V H R} {l : FeedLabel V H R} {r : Result V H R}

theorem Transition.forgotten (t : f.Transition l r) (h : f.Tidy) (registration : Registration) (place : Place)
    (held' : r.state.holder = some (.unregistering registration place)) : r.state.registration = none := by
  cases t with
  | activate | deactivate | refresh | subscribe | detachLast | shutdown | queried | decoded | seed | settle
  | clear | cleared => cases held'
  | queryFailed | registerFailed | subscribed | activated | unregistered | decodeFailed | settleRefresh
  | clearedInactive => cases held'
  | withdraw | retire | dropLast => rfl
  | _ => exact h.forgotten registration place held'

theorem Transition.left (t : f.Transition l r) (o : f.Orderly) (h : f.Tidy) (unowned : r.state.owners = 0)
    (active : r.state.registration.isSome) : r.state.retiring = true := by
  have moved : ∀ {number : Nat} {phase : PushPhase V R}, (f.setPhase number phase).owners = 0 → f.owners = 0 :=
    fun unowned => by simpa [owners, setPhase] using unowned
  have pulls : ∀ {s : Section V H R}, f.holder = some s → s.purpose?.isSome → f.owners ≠ 0 := by
    intro s held pulls unowned
    have unpulled := o.handled (Nat.add_eq_zero_iff.1 unowned).1
    rw [pull?, held] at unpulled
    rw [show s.purpose? = none from unpulled] at pulls
    cases pulls
  cases t with
  | subscribed held | activated held => exact absurd unowned (pulls held rfl)
  | withdraw | retire | dropLast => cases active
  | invoke => simp [owners] at unowned
  | settlePush | pushRefused | pushDecoded | pushAccepted | pushStale => exact h.left (moved unowned) active
  | leave =>
    simp only [Bool.and_eq_true, decide_eq_true_eq]
    exact ⟨unowned, active⟩
  | clone => simp [owners] at unowned
  | drop kept free more =>
    rcases more with more | inactive
    · exact absurd unowned more
    · rw [inactive] at active
      cases active
  | _ => exact h.left unowned active

theorem Transition.locks (t : f.Transition l r) (h : f.Tidy) (purpose : Purpose H)
    (held' : r.state.holder = some (.writing purpose)) : ∃ rest, r.state.writer = some ⟨none, rest, .none⟩ := by
  cases t with
  | seed => exact ⟨_, rfl⟩
  | write writing =>
    obtain ⟨rest, held⟩ := h.locks purpose held'
    cases writing.symm.trans held
    exact ⟨_, rfl⟩
  | look writing | post writing | settlePush writing =>
    obtain ⟨rest, held⟩ := h.locks purpose held'
    cases writing.symm.trans held
  | pushAccepted _ free =>
    obtain ⟨rest, held⟩ := h.locks purpose held'
    cases free.symm.trans held
  | activate | deactivate | refresh | subscribe | detachLast | shutdown | queried | decoded | settle | clear
  | cleared | withdraw | retire | dropLast => cases held'
  | queryFailed | registerFailed | subscribed | activated | unregistered | decodeFailed | settleRefresh
  | clearedInactive => cases held'
  | _ => exact h.locks purpose held'

/-- Every step keeps a feed tidy. -/
theorem Tidy.step (h : f.Tidy) (o : f.Orderly) (t : f.Transition l r) : r.state.Tidy :=
  ⟨t.forgotten h, t.left o h, t.locks h⟩

omit [SignalValue V] in
/-- A feed that holds a registration is at no call, unless somebody pulls. -/
theorem Tidy.stage_of_active {f : Feed V H R} (h : f.Tidy) (unpulled : f.pull? = none)
    (active : f.registration.isSome) : f.stage = .between f.registration := by
  cases held : f.holder with
  | none => rw [stage, held]
  | some s =>
    rw [pull?, held] at unpulled
    cases s with
    | unregistering registration place =>
      rw [h.forgotten registration place held] at active
      cases active
    | clearing | withdrawing => rw [stage, held]
    | _ => cases unpulled

/-- **Every step of a feed moves it on** as what is said in it allows. -/
theorem Transition.moves (t : f.Transition l r) (o : f.Orderly) (h : f.Tidy) :
    f.stage.Moves r.state.stage (events ⟨f, l, r⟩) := by
  have still : events ⟨f, l, r⟩ = [] → r.state.stage = f.stage →
      f.stage.Moves r.state.stage (events ⟨f, l, r⟩) := by
    intro nothing same
    rw [nothing]
    exact .still same
  have said : ∀ {e s}, events ⟨f, l, r⟩ = [e] → f.stage = s → s.Next e r.state.stage →
      f.stage.Moves r.state.stage (events ⟨f, l, r⟩) := by
    rintro e s one rfl next
    rw [one]
    exact .next next
  have unpulled : ∀ {s : Section V H R}, f.holder = some s → s.purpose?.isSome → f.registration = none :=
    fun held pulls => o.inactive (by rw [pull?, held]; exact pulls)
  cases t with
  | activate free _ inactive | refresh free _ inactive | subscribe free _ _ inactive =>
    exact said rfl (by rw [stage, free, inactive]; rfl) .query
  | deactivate free | shutdown free => exact still rfl (by rw [stage, stage, free])
  | detachLast free => exact still rfl (by rw [stage, stage, free]; rfl)
  | queryFailed held =>
    refine said rfl (by rw [stage, held]) ?_
    simp only [stage, unpulled held rfl]
    exact .queryFailed
  | queried held => exact said rfl (by rw [stage, held]) .queried
  | registerFailed held =>
    refine said rfl (by rw [stage, held]) ?_
    simp only [stage, unpulled held rfl]
    exact .registerFailed
  | subscribed held | activated held => exact said rfl (by rw [stage, held]) .registered
  | unregistered held =>
    refine said rfl (by rw [stage, held]) ?_
    simp only [stage, h.forgotten _ _ held]
    exact .unregistered
  | decodeFailed held refused =>
    refine said (by simp only [events, heard, refused]; rfl) (by rw [stage, held]) ?_
    simp only [stage, unpulled held rfl]
    exact .decodeFailed
  | decoded held admitted =>
    exact said (by simp only [events, heard, admitted]; rfl) (by rw [stage, held]) .decoded
  | seed held =>
    refine still rfl ?_
    rw [stage, stage, held]
  | settleRefresh held =>
    refine .ended (by rw [stage, held]) ?_
    simp only [stage, unpulled held rfl]
    rfl
  | settle held => exact said rfl (by rw [stage, held]) .register
  | clear held =>
    refine still rfl ?_
    rw [stage, stage, held]
  | cleared held | clearedInactive held =>
    refine still ?_ (by rw [stage, stage, held])
    simp only [events]
    split <;> rfl
  | withdraw held active => exact said rfl (by rw [stage, held, active]; rfl) .unregister
  | @retire registration retiring active =>
    have unpulled := o.handled (Nat.add_eq_zero_iff.1 (o.unowned retiring)).1
    exact said rfl (by rw [h.stage_of_active unpulled (by simp [active]), active]; rfl) .unregister
  | dropLast _ _ free active => exact said rfl (by rw [stage, free, active]; rfl) .unregister
  | _ => exact still rfl rfl

omit [SignalValue V] in
/-- The registration that there is at a feed's stage is the one that the feed holds. -/
theorem Tidy.registration?_stage {f : Feed V H R} (h : f.Tidy) (o : f.Orderly) :
    f.stage.registration? = f.registration := by
  cases active : f.registration with
  | some registration =>
    have unpulled : f.pull? = none := by
      by_contra pulls
      rw [o.inactive (Option.isSome_iff_ne_none.2 pulls)] at active
      cases active
    rw [h.stage_of_active unpulled (by simp [active]), active]
    rfl
  | none =>
    unfold stage
    split <;> simp [Stage.registration?, Stage.between, active]

/-- **What is said in the course of a run** leads to the stage that the feed is in. -/
theorem leads_of_run {plan : FeedPlan V} {labels : List (FeedLabel V H R)} {es : List (FeedEffect V)}
    (ran : run Feed.step labels (.ofPlan plan) = some (f, es)) :
    f.Orderly ∧ f.Tidy ∧ Leads ((trail Feed.step labels (.ofPlan plan)).flatMap events) f.stage := by
  refine run_remembers (P := fun past f => f.Orderly ∧ f.Tidy ∧ Leads (past.flatMap events) f.stage)
    ?_ ran [] ⟨orderly_ofPlan plan, tidy_ofPlan plan, .start⟩
  rintro past f l r ⟨o, h, leads⟩ made
  have t := transition_of_step made
  rw [List.flatMap_append, List.flatMap_singleton]
  exact ⟨o.step t, h.step o t, leads.moves (t.moves o h)⟩

end Feed

end LazyHub
