import LazyHub.Proofs.Feed.Fences
import LazyHub.Proofs.Hub.Feeds
import LazyHub.Proofs.Hub.Renumbering
import LazyHub.Proofs.Hub.Routing
import LazyHub.Proofs.Hub.Workers
import Mathlib.Data.List.Induction

/-!
# Numbers that are not in use

A token that has yet to be drawn is with nobody, so the tokens can be numbered as if it had been drawn
(`Reachable.renumber_skip`). The epoch of an inactive feed has nothing to be compared with, as long as its
provider keeps faith (`Hub.KeepsFaith`, `Reachable.fenced`), so it can be another one (`renumber_bumped`).
-/

namespace LazyHub

variable {V H R : Type}

theorem WorkerPool.mapCurrent_eq {J D : Type} {g : D → D} {p : WorkerPool J D}
    (same : ∀ w d, p.current? w = some d → g d = d) : p.mapCurrent g = p := by
  have workers : p.workers.map (·.mapCurrent g) = p.workers := by
    refine (List.map_congr_left fun x mem => ?_).trans (List.map_id _)
    obtain ⟨w, there⟩ := List.mem_iff_getElem?.1 mem
    obtain ⟨queue, current, alive⟩ := x
    cases current with
    | none => rfl
    | some d => simp [Worker.mapCurrent, same w d (by rw [current?, there]; rfl)]
  obtain ⟨ws, catches, flushes, flushCount⟩ := p
  exact congrArg (fun ws => (⟨ws, catches, flushes, flushCount⟩ : WorkerPool J D)) workers

theorem Token.renumber_skip {n : ℕ} {t : Token} (lt : t.serial < n) : t.renumber (skip n) = t :=
  congrArg Token.mk (skip_of_lt lt)

namespace Hub

/-! ### Tokens -/

section Tokens

variable [SignalValue V] {settings : Settings} {plans : List (FeedPlan V)} {h : Hub V H R} {l : HubLabel V H R}
  {r : Result V H R}

/-- Who is being called after a step was so before, or waited for it. -/
theorem Transition.calling (t : h.Transition l r) {w : Nat} {d : Delivery V H} {e : Token × H}
    (doing : r.state.pool.current? w = some d) (calling : d.calling = some e) :
    ∃ d', h.pool.current? w = some d' ∧ (d'.calling = some e ∨ e ∈ d'.waiting) := by
  have same : ∀ {p : WorkerPool (Notice V) (Delivery V H)}, p.current? w = h.pool.current? w →
      p.current? w = some d → ∃ d', h.pool.current? w = some d' ∧ (d'.calling = some e ∨ e ∈ d'.waiting) :=
    fun eq doing => ⟨d, eq.symm.trans doing, .inl calling⟩
  cases t with
  | feed serves => exact same ((serves.pool_eq ▸ posted_afterFeed ..).current w) doing
  | take taken =>
    rcases (WorkerPool.takes_of_take taken).2 with ⟨s, n, rest, -, -, -, current⟩ | ⟨m, rest, -, -, current⟩
    · rw [current] at doing
      split at doing
      · cases doing
        cases calling
      · exact ⟨d, doing, .inl calling⟩
    · exact same (current w) doing
  | call was =>
    rw [WorkerPool.current?_setCurrent was] at doing
    split at doing
    · rename_i eq
      cases doing
      cases calling
      exact ⟨_, eq ▸ was, .inr List.mem_cons_self⟩
    · exact ⟨d, doing, .inl calling⟩
  | returned was =>
    rw [WorkerPool.current?_setCurrent was] at doing
    split at doing
    · cases doing
      cases calling
    · exact ⟨d, doing, .inl calling⟩
  | collapsed | stop => exact ⟨d, WorkerPool.current?_of_collapse doing, .inl calling⟩
  | finish was =>
    rw [WorkerPool.current?_finish was] at doing
    split at doing
    · cases doing
    · exact ⟨d, doing, .inl calling⟩
  | startFlush => exact same ((WorkerPool.marks_startFlush _).current w) doing
  | mark made => exact same ((WorkerPool.marks_of_mark made).current w) doing
  | resolve made => exact same ((WorkerPool.marks_of_resolve made).current w) doing
  | _ => exact ⟨d, doing, .inl calling⟩

/-- Whoever is called, or about to be, has a token that was drawn. -/
theorem Reachable.drawn_of_delivery (reachable : Reachable settings plans h) {w : Nat} {d : Delivery V H}
    {e : Token × H} (doing : h.pool.current? w = some d) (listed : d.calling = some e ∨ e ∈ d.waiting) :
    e.1.serial < h.nextToken := by
  induction reachable generalizing w d with
  | assembled start =>
    obtain ⟨-, rfl⟩ := eq_of_assemble start
    cases (WorkerPool.current?_ofSize ..).symm.trans doing
  | @step h l r before own made ih =>
    have t := transition_of_step made
    rcases listed with calling | waiting
    · obtain ⟨d', doing', listed⟩ := t.calling doing calling
      exact Nat.lt_of_lt_of_le (ih doing' listed) t.nextToken_le
    · exact ((before.step own made).staffed.listed w d doing e waiting).1.1

/-- Every outlet of a feed answers to its signal. -/
theorem Reachable.outlet?_of_mem (reachable : Reachable settings plans h) {f : Feed V H R} (mem : f ∈ h.feeds)
    {o : Outlet V H} (outlet : o ∈ f.outlets) : f.outlet? o.key.id = some o := by
  have nodup : f.signals.Nodup := (List.nodup_flatten.1 reachable.distinct).1 _ (List.mem_map_of_mem mem)
  rw [Feed.signals, Feed.keys, List.map_map] at nodup
  obtain ⟨p, known⟩ : ∃ p, f.outlet? o.key.id = some p :=
    Option.isSome_iff_exists.1 (List.find?_isSome.2 ⟨o, outlet, by simp⟩)
  rw [known, List.inj_on_of_nodup_map nodup (Feed.mem_of_outlet? known) outlet (Feed.id_of_outlet? known)]

/-- **The next token is not in use**, so it can be left out. -/
theorem Reachable.renumber_skip (reachable : Reachable settings plans h) :
    h.renumber (skip h.nextToken) (fun _ => asIs) = { h with nextToken := h.nextToken + 1 } := by
  have sound := reachable.sound
  have pool : h.pool.mapCurrent (·.renumber (skip h.nextToken)) = h.pool := by
    refine WorkerPool.mapCurrent_eq fun w d doing => ?_
    have drawn := fun e => reachable.drawn_of_delivery (e := e) doing
    obtain ⟨signal, value, waiting, calling⟩ := d
    have waits : waiting.map (fun e => (e.1.renumber (skip h.nextToken), e.2)) = waiting := by
      refine (List.map_congr_left fun e mem => ?_).trans (List.map_id _)
      rw [Token.renumber_skip (drawn e (.inr mem)), id]
    have calls : calling.map (fun e => (e.1.renumber (skip h.nextToken), e.2)) = calling := by
      cases calling with
      | none => rfl
      | some e => rw [Option.map_some, Token.renumber_skip (drawn e (.inl rfl))]
    rw [Delivery.renumber_mk, waits, calls]
  have requests : h.requests.map (·.renumber (skip h.nextToken)) = h.requests := by
    refine (List.map_congr_left fun q mem => ?_).trans (List.map_id _)
    rw [Request.renumber, Token.renumber_skip (sound.drawn q.token (.inl ⟨q, mem, rfl⟩)), id]
  have feeds : (h.feeds.mapIdx fun _ f => f.renumber (skip h.nextToken) asIs) = h.feeds := by
    apply List.ext_getElem?
    intro i
    rw [List.getElem?_mapIdx]
    cases there : h.feeds[i]? with
    | none => rfl
    | some f =>
      have mem := List.mem_of_getElem? there
      refine congrArg some ((Feed.renumber_congr asIs asIs ?_ ?_ (fun _ _ => rfl) fun _ _ => rfl).trans ?_)
      · intro o ho e he
        exact skip_of_lt (sound.subscribed f mem e.1 ⟨_, e.2, o, reachable.outlet?_of_mem mem ho, he⟩).1
      · intro token awaits
        exact skip_of_lt (sound.drawn token (.inr ⟨f, mem, awaits⟩))
      · rw [Feed.renumber_asIs]
        rfl
  simp only [renumber, feeds, pool, requests, skip_of_le (Nat.le_refl _)]

end Tokens

/-! ### Epochs -/

/-- The epochs of one feed leave out a number; those of the others are as they are. -/
def bumped (i e : ℕ) : ℕ → ℕ ↪o ℕ := fun j => if j = i then skip e else asIs

/-- **An epoch that nothing is of** can be the next one. -/
theorem renumber_bumped {h : Hub V H R} {i : ℕ} {f : Feed V H R} (there : h.feeds[i]? = some f) (τ : ℕ ↪o ℕ)
    (callbacks : ∀ epoch ∈ f.callbacks, epoch < f.epoch) (pushes : ∀ p ∈ f.pushes, p.epoch < f.epoch) :
    h.renumber τ (bumped i f.epoch) =
      { h.renumber τ (fun _ => asIs) with
        feeds := (h.renumber τ fun _ => asIs).feeds.modify i fun g => { g with epoch := g.epoch + 1 } } := by
  have feeds : (h.renumber τ (bumped i f.epoch)).feeds =
      (h.renumber τ fun _ => asIs).feeds.modify i fun g => { g with epoch := g.epoch + 1 } := by
    apply List.ext_getElem?
    intro j
    rw [List.getElem?_modify, getElem?_renumber, getElem?_renumber]
    split
    · rename_i eq
      subst eq
      rw [there, bumped, if_pos rfl]
      refine congrArg some ((Feed.renumber_congr τ asIs (fun _ _ _ _ => rfl) (fun _ _ => rfl) ?_ ?_).trans ?_)
      · exact fun epoch mem => skip_of_lt (callbacks epoch mem)
      · exact fun p mem => skip_of_lt (pushes p mem)
      · rw [skip_of_le (Nat.le_refl _)]
        rfl
    · rename_i ne
      rw [bumped, if_neg (Ne.symm ne)]
      cases h.feeds[j]? <;> rfl
  exact congrArg (fun feeds => ({ h.renumber τ (fun _ => asIs) with feeds } : Hub V H R)) feeds

/-- A feed's provider has invoked the callback of an epoch. -/
def HasInvoked (i : Nat) (past : List (Moment (Hub V H R) (HubLabel V H R) (HubEffect V H))) (epoch : Nat) : Prop :=
  ∃ m ∈ past, ∃ payload, m.label = .invoke i epoch payload

/-- **A provider keeps faith**: it invokes no callback whose registration it refuses. -/
def KeepsFaith (i : Nat) (past : List (Moment (Hub V H R) (HubLabel V H R) (HubEffect V H))) : Prop :=
  ∀ before m after failure f, past = before ++ m :: after → m.label = .hear i (.registered (.error failure)) →
    m.before.feeds[i]? = some f → ¬ HasInvoked i before f.epoch

theorem HasInvoked.append {i : Nat} {first second : List (Moment (Hub V H R) (HubLabel V H R) (HubEffect V H))}
    {epoch : Nat} (invoked : HasInvoked i first epoch) : HasInvoked i (first ++ second) epoch := by
  obtain ⟨m, mem, payload, label⟩ := invoked
  exact ⟨m, List.mem_append_left _ mem, payload, label⟩

theorem KeepsFaith.of_append {i : Nat} {first second : List (Moment (Hub V H R) (HubLabel V H R) (HubEffect V H))}
    (faith : KeepsFaith i (first ++ second)) : KeepsFaith i first := by
  intro before m after failure f eq label there
  exact faith before m (after ++ second) failure f (by rw [eq, List.append_assoc, List.cons_append]) label there

section Epochs

variable [SignalValue V] {plans : List (FeedPlan V)} {start h : Hub V H R} {labels : List (HubLabel V H R)}
  {es : List (HubEffect V H)} {i : Nat} {f : Feed V H R}

/-- **The past of a feed is fenced off** if its provider keeps faith. -/
theorem Opens.fenced (opens : Opens plans .hub start) (own : ∀ l ∈ labels, l.IsOwn)
    (ran : run Hub.step labels start = some (h, es)) (faith : KeepsFaith i (trail Hub.step labels start))
    (there : h.feeds[i]? = some f) : f.Fenced (HasInvoked i (trail Hub.step labels start)) := by
  induction labels using List.reverseRecOn generalizing h es f with
  | nil =>
    cases ran
    obtain ⟨plan, -, rfl⟩ := opens.ofPlan there
    exact Feed.fenced_ofPlan _ plan
  | append_singleton ls l ih =>
    obtain ⟨u, before, after, ranBefore, last, rfl⟩ := run_append.1 ran
    obtain ⟨r, later, made, done, rfl⟩ := run_cons.1 last
    cases done
    have own' : ∀ l ∈ ls, l.IsOwn := fun l hl => own l (List.mem_append_left _ hl)
    have arises : Arises plans .hub u := (Arises.opened opens).run own' ranBefore
    rw [trail_append ranBefore, trail_cons made, trail_nil] at faith ⊢
    have t := transition_of_step made
    have lt : i < u.feeds.length := t.length_feeds ▸ (List.getElem?_eq_some_iff.1 there).1
    have there₀ : u.feeds[i]? = some u.feeds[i] := List.getElem?_eq_getElem lt
    generalize u.feeds[i] = f₀ at there₀
    have fenced := ih own' ranBefore faith.of_append there₀
    rcases t.mirrors arises there₀ with ⟨fl, fr, there', step, -, -, makes⟩ | ⟨there', -⟩
    · obtain rfl := Option.some.inj (there.symm.trans there')
      obtain ⟨orderly, -, past, books⟩ := arises.kept there₀
      have ofHub := makes.ofHub arises (own l (List.mem_append_right _ (List.mem_singleton_self l)))
        (List.mem_of_getElem? there₀) step
      refine (fenced.step orderly books (Feed.transition_of_step step) ofHub ?_).mono ?_
      · rintro failure rfl
        exact faith _ ⟨u, l, r⟩ [] failure f₀ rfl ((makes.hear_iff _).1 rfl) there₀
      · rintro epoch (invoked | ⟨payload, rfl⟩)
        · exact invoked.append
        · exact ⟨_, List.mem_append_right _ (List.mem_singleton_self _), payload, makes.invoke rfl⟩
    · obtain rfl := Option.some.inj (there.symm.trans there')
      exact fenced.mono fun _ => HasInvoked.append

end Epochs

end Hub

end LazyHub
