import LazyHub.Proofs.Feed.Completion
import LazyHub.Proofs.Hub.Feeds

/-!
# Operations on a hub

A client's operation enters a feed, holds its state lock through steps of its own, and lets go of it
with an answer, while other operations make steps in between (`Hub.Finishes`). For the feed it is an
operation on the feed (`Finishes.mirrors`), and whatever a feed can do to bring an operation to its end
its hub can let it do (`exists_finishes`).
-/

namespace LazyHub

variable {V H R : Type}

/-- A step of what is under way in a feed, or an answer of its provider, as a step of the hub. -/
inductive FeedLabel.InHub (i : Nat) : FeedLabel V H R → HubLabel V H R → Prop where
  | hear {reply : ProviderReply R} : InHub i (.hear reply) (.hear i reply)
  | advance {move : FeedMove V} : InHub i (.advance move) (.move (.advance i move))

theorem FeedLabel.IsInner.inHub {answers : ProviderReply R → Prop} {l : FeedLabel V H R} (inner : l.IsInner answers)
    (i : Nat) : ∃ hl, l.InHub i hl := by
  cases l with
  | hear reply => exact ⟨_, .hear⟩
  | advance move => exact ⟨_, .advance⟩
  | _ => exact inner.elim

namespace Hub

variable [SignalValue V]

/-- **An operation on a feed of a hub**, from a step of its own to the one that lets go of the feed's state
lock with an answer. Other steps come in between. -/
inductive Finishes (i : Nat) : Hub V H R → List (HubLabel V H R) → Hub V H R → List (HubEffect V H) → Answer → Prop where
  /-- The operation lets go of the state lock. -/
  | last {h g : Hub V H R} {l : HubLabel V H R} {fl : FeedLabel V H R} {r : Result V H R} {f : Feed V H R}
      {a : Answer} (made : h.step l = some r) (serves : h.Serves l i fl g) (there : r.state.feeds[i]? = some f)
      (free : f.holder = none) (answered : r.answer = some a) : Finishes i h [l] r.state r.effects a
  /-- The state lock is held after the step. -/
  | more {h k : Hub V H R} {l : HubLabel V H R} {r : Result V H R} {f : Feed V H R} {rest : List (HubLabel V H R)}
      {es : List (HubEffect V H)} {a : Answer} (made : h.step l = some r) (there : r.state.feeds[i]? = some f)
      (busy : f.holder ≠ none) (onward : Finishes i r.state rest k es a) :
      Finishes i h (l :: rest) k (r.effects ++ es) a

variable {plans : List (FeedPlan V)} {tenure : Tenure} {h k : Hub V H R} {i : Nat} {labels : List (HubLabel V H R)}
  {es : List (HubEffect V H)} {a : Answer}

theorem Finishes.run (fin : Finishes i h labels k es a) : LazyHub.run Hub.step labels h = some (k, es) := by
  induction fin with
  | last made => exact run_singleton made
  | more made there busy onward ih => exact run_cons.2 ⟨_, _, made, ih, rfl⟩

/-- An operation lets go of the state lock in the end. -/
theorem Finishes.exists_free (fin : Finishes i h labels k es a) : ∃ f, k.feeds[i]? = some f ∧ f.holder = none := by
  induction fin with
  | last _ _ there free => exact ⟨_, there, free⟩
  | more _ _ _ _ ih => exact ih

/-- **An operation on a feed of a hub is an operation on the feed.** -/
theorem Finishes.mirrors (fin : Finishes i h labels k es a) (arises : Arises plans tenure h)
    (allowed : ∀ l ∈ labels, tenure.Allows l) {f : Feed V H R} (there : h.feeds[i]? = some f) :
    ∃ own g fes, k.feeds[i]? = some g ∧ Feed.Finishes f own g fes a ∧
      Mirrors i (trail Hub.step labels h) (trail Feed.step own f) := by
  induction fin generalizing f with
  | last made serves there' free answered =>
    rcases (transition_of_step made).mirrors arises there with ⟨fl, fr, after, step, extend, same, -⟩ | ⟨-, passes⟩
    · obtain rfl := Option.some.inj (there'.symm.trans after)
      obtain ⟨-, answer⟩ := same _ _ serves
      refine ⟨[fl], _, _, after, .last step free (answer ▸ answered), ?_⟩
      rw [trail_cons made, trail_cons step]
      exact extend .nil
    · exact absurd serves (passes.unserved _ _)
  | more made there' busy onward ih =>
    have next := arises.step (allowed _ List.mem_cons_self) made
    obtain ⟨own, g, fes, final, fin, mirrors⟩ := ih next (fun l hl => allowed l (List.mem_cons_of_mem _ hl)) there'
    rw [trail_cons made]
    rcases (transition_of_step made).mirrors arises there with ⟨fl, fr, after, step, extend, -⟩ | ⟨after, passes⟩
    · obtain rfl := Option.some.inj (there'.symm.trans after)
      refine ⟨fl :: own, g, _, final, .more step busy fin, ?_⟩
      rw [trail_cons step]
      exact extend mirrors
    · obtain rfl := Option.some.inj (there'.symm.trans after)
      exact ⟨own, g, fes, final, fin, .passed passes mirrors⟩

/-- An operation that begins with a step of the feed begins with that step for the feed. -/
theorem Finishes.mirrors_of_serves {l : HubLabel V H R} (fin : Finishes i h (l :: labels) k es a)
    (arises : Arises plans tenure h) (allowed : ∀ x ∈ l :: labels, tenure.Allows x) {f : Feed V H R}
    (there : h.feeds[i]? = some f) {fl : FeedLabel V H R} {g : Hub V H R} (serves : h.Serves l i fl g) :
    ∃ own g fes, k.feeds[i]? = some g ∧ Feed.Finishes f (fl :: own) g fes a ∧
      Mirrors i (trail Hub.step (l :: labels) h) (trail Feed.step (fl :: own) f) := by
  obtain ⟨own, g, fes, final, finFeed, mirrors⟩ := fin.mirrors arises allowed there
  obtain ⟨r, later, made, -, -⟩ := run_cons.1 fin.run
  obtain ⟨first, rest, rfl⟩ : ∃ first rest, own = first :: rest := by
    cases finFeed with
    | last => exact ⟨_, _, rfl⟩
    | more => exact ⟨_, _, rfl⟩
  obtain ⟨fr, -, step, -, -⟩ := run_cons.1 finFeed.run
  have head := mirrors
  rw [trail_cons made, trail_cons step] at head
  have same : first = fl := by
    cases head with
    | served serves' => exact (serves'.same serves).2.1
    | passed passes => exact absurd serves (passes.unserved _ _)
    | letGo unserved => exact absurd serves (unserved _ _)
  subst same
  exact ⟨rest, g, fes, final, finFeed, mirrors⟩

omit [SignalValue V] in
theorem onFeed_of_step {f : Feed V H R} {step : Feed V H R → Option (Feed.Result V H R)} {fr : Feed.Result V H R}
    (there : h.feeds[i]? = some f) (made : step f = some fr) : h.onFeed i step = some (h.afterFeed i fr) := by
  simp only [onFeed, there, made]
  rfl

/-- What a feed can do by itself its hub can let it do. -/
theorem step_inHub {f : Feed V H R} {fl : FeedLabel V H R} {fr : Feed.Result V H R} {hl : HubLabel V H R}
    (inHub : fl.InHub i hl) (there : h.feeds[i]? = some f) (made : f.step fl = some fr) :
    h.step hl = some (h.afterFeed i fr) ∧ h.Serves hl i fl h ∧ hl.IsOwn ∧
      (h.afterFeed i fr).state.feeds[i]? = some fr.state := by
  have after : (h.afterFeed i fr).state.feeds[i]? = some fr.state := by
    rw [afterFeed_feeds, List.getElem?_set_self', there]
    rfl
  cases inHub with
  | hear => exact ⟨onFeed_of_step there made, .hear, trivial, after⟩
  | advance => exact ⟨onFeed_of_step there made, .advance, trivial, after⟩

/-- **An operation that a feed can bring to its end can be brought to its end in the hub**, by steps of
this feed alone. -/
theorem exists_finishes {answers : ProviderReply R → Prop} {f g : Feed V H R} {own : List (FeedLabel V H R)}
    {fes : List (FeedEffect V)} (fin : Feed.Finishes f own g fes a) (inner : ∀ l ∈ own, l.IsInner answers) (there : h.feeds[i]? = some f) :
    ∃ labels k es, Finishes i h labels k es a ∧ List.Forall₂ (FeedLabel.InHub i) own labels ∧
      ∀ l ∈ labels, l.IsOwn := by
  induction fin generalizing h with
  | last made free answered =>
    obtain ⟨hl, inHub⟩ := (inner _ List.mem_cons_self).inHub i
    obtain ⟨made, serves, own, after⟩ := step_inHub inHub there made
    exact ⟨[hl], _, _, .last made serves after free answered, .cons inHub .nil, by simpa using own⟩
  | more made busy onward ih =>
    obtain ⟨hl, inHub⟩ := (inner _ List.mem_cons_self).inHub i
    obtain ⟨made, serves, own, after⟩ := step_inHub inHub there made
    obtain ⟨labels, k, es, fin, all, owns⟩ := ih (fun l hl => inner l (List.mem_cons_of_mem _ hl)) after
    exact ⟨hl :: labels, k, _, .more made after busy fin, .cons inHub all, List.forall_mem_cons.2 ⟨own, owns⟩⟩

end Hub

end LazyHub
