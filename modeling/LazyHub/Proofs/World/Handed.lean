import LazyHub.Proofs.Feed.Handed
import LazyHub.Proofs.World.Leases

/-!
# What providers hand to their feeds

A provider hands its payload to its feed when it answers a query, and when it has a callback to invoke
(`World.handed`). An activation queries first and registers afterwards. A push that comes in between `Misses` the feed:
the query is answered already, and there is no callback yet.

`World.UpToDate` is what every step keeps of a feed that is active or about to be: the payload that was handed over last
is the one that the provider has, or a push has missed the feed since. It is asked of the steps that payloads change by
pushes, and that callbacks are not invoked without one (`WorldLabel.Spares`).
-/

namespace LazyHub

variable {V H R : Type}

/-- What is handed over is lent. -/
theorem FeedLabel.length_handed (l : FeedLabel V H R) : l.handed.length = l.handles.count .lent := by
  cases l with
  | hear reply => rcases reply with (_ | _) | _ | _ <;> rfl
  | invoke => rfl
  | advance move => cases move <;> rfl
  | enter | clone | drop => rfl

/-- A step spares a provider: its payload is not changed but by pushes, and its callback is invoked by no other means. -/
def WorldLabel.Spares (i : Nat) : WorldLabel V H R → Prop
  | .set j _ | .announce j _ => j ≠ i
  | _ => True

theorem LocalProvider.query_eq {C : Type} (p : LocalProvider R C) :
    p.query.1 = .ok p.current ∨ ∃ failure, p.query.1 = .error failure := by
  unfold query
  dsimp only
  split
  · exact .inr ⟨_, rfl⟩
  · exact .inl rfl

namespace Hub

/-- The payload that the provider of a feed hands over in a step of the hub. -/
def handedAt (i : Nat) (l : HubLabel V H R) : List R := ((l.inFeed? i).map FeedLabel.handed).getD []

theorem Mirrors.handed_eq {i : Nat} {past : List (Moment (Hub V H R) (HubLabel V H R) (HubEffect V H))}
    {own : List (Moment (Feed V H R) (FeedLabel V H R) (FeedEffect V))} (m : Mirrors i past own) :
    (past.flatMap fun m => handedAt i m.label) = Feed.handed own := by
  rw [Feed.handed]
  refine m.flatMap_eq ?_ ?_ (fun _ => rfl) fun _ _ _ => rfl
  · intro h g l f fl fr serves there
    rcases serves.inFeed? with is | ⟨none, unhandled, -⟩
    · rw [handedAt, is]
      rfl
    · have unlent := fl.length_handed
      rw [unhandled, List.count_nil] at unlent
      rw [handedAt, none, List.eq_nil_of_length_eq_zero unlent]
      rfl
  · intro m passes
    rw [handedAt, passes.inFeed?]
    rfl

end Hub

namespace World

/-- The payload that the provider of a feed hands over in a step. -/
def handedAt (i : Nat) (m : Moment (World V H R) (WorldLabel V H R) (HubEffect V H)) : List R :=
  ((m.before.hubLabel? m.label).map (Hub.handedAt i)).getD []

/-- The payloads that the provider of a feed hands over in the course of a run. -/
def handed (i : Nat) (past : List (Moment (World V H R) (WorldLabel V H R) (HubEffect V H))) : List R :=
  past.flatMap (handedAt i)

/-- A push misses the feed: the provider has no callback to invoke, and the feed does not wait for the answer to a
query. -/
def Misses (i : Nat) (m : Moment (World V H R) (WorldLabel V H R) (HubEffect V H)) : Prop :=
  (∃ payload, m.label = .push i payload) ∧ (m.before.sources[i]?).bind (·.provider.callback?) = none ∧
    ∀ purpose, m.before.holder? i ≠ some (.querying purpose)

/-- The last that was heard of a provider's payload is out of date: a push has missed the feed, and nothing was handed
over since. -/
def Missed (i : Nat) (past : List (Moment (World V H R) (WorldLabel V H R) (HubEffect V H))) : Prop :=
  ∃ before m after, past = before ++ m :: after ∧ Misses i m ∧ handed i after = []

theorem handed_concat (i : Nat) (past : List (Moment (World V H R) (WorldLabel V H R) (HubEffect V H)))
    (m : Moment (World V H R) (WorldLabel V H R) (HubEffect V H)) :
    handed i (past ++ [m]) = handed i past ++ handedAt i m := by
  simp [handed]

/-- Where no push misses the feed any more, what was missed was missed before, and nothing was handed over since. -/
theorem Missed.of_append {i : Nat} {first second : List (Moment (World V H R) (WorldLabel V H R) (HubEffect V H))}
    (missed : Missed i (first ++ second)) (heard : ∀ m ∈ second, ¬ Misses i m) : Missed i first ∧ handed i second = [] := by
  obtain ⟨before, m, after, split, misses, unheard⟩ := missed
  rcases List.append_eq_append_iff.1 split with ⟨as, -, rfl⟩ | ⟨bs, rfl, tail⟩
  · exact absurd misses (heard m (List.mem_append_right _ List.mem_cons_self))
  · rcases List.cons_eq_append_iff.1 tail with ⟨-, rfl⟩ | ⟨bs', rfl, rfl⟩
    · exact absurd misses (heard m List.mem_cons_self)
    · obtain ⟨none, none'⟩ := List.append_eq_nil_iff.1 (List.flatMap_append.symm.trans unheard)
      exact ⟨⟨before, m, bs', rfl, misses, none⟩, none'⟩

theorem handed_eq {i : Nat} {past : List (Moment (World V H R) (WorldLabel V H R) (HubEffect V H))}
    {own : List (Moment (Feed V H R) (FeedLabel V H R) (FeedEffect V))}
    (mirrors : Hub.Mirrors i (past.filterMap hubMoment?) own) : handed i past = Feed.handed own := by
  rw [← mirrors.handed_eq]
  clear mirrors
  induction past with
  | nil => rfl
  | cons m rest ih =>
    rw [handed, List.flatMap_cons, ← handed, ih, handedAt]
    cases is : m.before.hubLabel? m.label with
    | none => rw [List.filterMap_cons_none (by rw [hubMoment?, is]; rfl)]; rfl
    | some hl => rw [List.filterMap_cons_some (by rw [hubMoment?, is]; rfl)]; rfl

variable {tenure : Tenure} {w v : World V H R} {l : WorldLabel V H R}
  {labels : List (WorldLabel V H R)} {r : Result V H R} {es : List (HubEffect V H)} {i : Nat} {f : Feed V H R}
  {s : Source R} {past : List (Moment (World V H R) (WorldLabel V H R) (HubEffect V H))}

/-- **What a provider hands over in a step**, which leaves it as `s'`. -/
inductive Hands (i : Nat) (s s' : Source R) (m : Moment (World V H R) (WorldLabel V H R) (HubEffect V H)) : Prop where
  /-- It hands over the payload that it has. -/
  | handed (one : handedAt i m = [s'.provider.current])
  /-- It hands over nothing, and has the payload that it had. -/
  | kept (none : handedAt i m = []) (same : s'.provider.current = s.provider.current)
  /-- A push finds no callback. -/
  | unheard (none : handedAt i m = []) (pushes : ∃ payload, m.label = .push i payload)
      (vacant : (m.before.sources[i]?).bind (·.provider.callback?) = .none)

/-- A provider hands over nothing that it does not lend. -/
theorem handedAt_eq_nil {m : Moment (World V H R) (WorldLabel V H R) (HubEffect V H)} (unlent : ¬ Lends i m) :
    handedAt i m = [] := by
  have length : (handedAt i m).length = ((m.before.hubLabel? m.label).map (Hub.lentAt i)).getD 0 := by
    rw [handedAt]
    cases m.before.hubLabel? m.label with
    | none => rfl
    | some l =>
      rw [Option.map_some, Option.getD_some, Option.map_some, Option.getD_some, Hub.handedAt, Hub.lentAt]
      cases l.inFeed? i with
      | none => rfl
      | some fl => exact fl.length_handed
  rw [lentAt_eq m.after, if_neg unlent] at length
  exact List.eq_nil_of_length_eq_zero length

variable [SignalValue V]

theorem hands_of_step (made : w.step l = some r) (known : w.sources[i]? = some s) (undisturbed : l.Spares i) :
    ∃ s', r.state.sources[i]? = some s' ∧ Hands i s s' ⟨w, l, r⟩ := by
  obtain ⟨s', known', current, -⟩ := provider_of_step made known
  refine ⟨s', known', ?_⟩
  cases l with
  | query j =>
    by_cases lends : Lends i ⟨w, .query j, r⟩
    · obtain ⟨rfl, answers⟩ : j = i ∧ s.provider.query.1.isOk := by simpa [Lends, known] using lends
      have answer : s.provider.query.1 = .ok s.provider.current := by
        rcases LocalProvider.query_eq s.provider with answer | ⟨failure, answer⟩
        · exact answer
        · rw [answer] at answers
          cases answers
      refine .handed ?_
      rw [current]
      simp [handedAt, hubLabel?, known, answer, Hub.handedAt, HubLabel.inFeed?, FeedLabel.handed, WorldLabel.payload]
    · exact .kept (handedAt_eq_nil lends) current
  | push j payload =>
    by_cases eq : j = i
    · subst eq
      cases callback : (w.sources[j]?).bind (·.provider.callback?) with
      | none => exact .unheard (by simp [handedAt, hubLabel?, callback]) ⟨payload, rfl⟩ callback
      | some epoch =>
        refine .handed ?_
        rw [show s'.provider.current = payload from current.trans (if_pos rfl)]
        simp [handedAt, hubLabel?, callback, Hub.handedAt, HubLabel.inFeed?, FeedLabel.handed]
    · exact .kept (handedAt_eq_nil (by simp [Lends, eq])) (current.trans (if_neg eq))
  | announce j payload => exact .kept (handedAt_eq_nil (by simp [Lends, show j ≠ i from undisturbed])) current
  | set j payload => exact .kept (handedAt_eq_nil (by simp [Lends])) (current.trans (if_neg undisturbed))
  | move | use | register | registered | unregister | refuse => exact .kept (handedAt_eq_nil (by simp [Lends])) current

/-! ### The payload that the provider has, and the one that its feed knows -/

/-- **A feed is up to date** while it is active or about to be: it still asks for the payload, or what it was handed last
is the payload that the provider has, or a push has missed it since. -/
def UpToDate (i : Nat) (past : List (Moment (World V H R) (WorldLabel V H R) (HubEffect V H))) (f : Feed V H R)
    (s : Source R) : Prop :=
  f.IsLive → (∃ purpose, f.holder = some (.querying purpose)) ∨ (handed i past).getLast? = some s.provider.current ∨
    Missed i past

omit [SignalValue V] in
/-- A feed that is active and up to date was handed last what the provider has, or a push has missed it. -/
theorem UpToDate.current (h : UpToDate i past f s) (o : f.Orderly) (active : f.registration.isSome) {payload : R}
    (last : (handed i past).getLast? = some payload) : payload = s.provider.current ∨ Missed i past := by
  have stands : f.standing.isSome := Feed.standing_isSome.2 (.inl active)
  rcases h (.inr stands) with ⟨purpose, held⟩ | now | missed
  · obtain ⟨_, other⟩ := o.registers_of_standing stands held rfl
    cases other
  · exact .inl (Option.some.inj (last.symm.trans now))
  · exact .inr missed

omit [SignalValue V] in
/-- A feed stays up to date if it does not begin to be live but by asking, and stops asking only when it is told. -/
theorem UpToDate.onward {m : Moment (World V H R) (WorldLabel V H R) (HubEffect V H)} {f' : Feed V H R} {s' : Source R}
    (h : UpToDate i past f s) (there : m.before.hub.feeds[i]? = some f) (hands : Hands i s s' m)
    (begins : f'.IsLive → f.IsLive ∨ ∃ purpose, f'.holder = some (.querying purpose))
    (asks : ∀ purpose, f.holder = some (.querying purpose) → handedAt i m = [] → f'.IsLive →
      f'.holder = some (.querying purpose)) : UpToDate i (past ++ [m]) f' s' := by
  intro live'
  rcases begins live' with live | querying
  · cases hands with
    | handed one => exact .inr (.inl (by rw [handed_concat, one, List.getLast?_concat]))
    | kept none same =>
      rcases h live with ⟨purpose, held⟩ | last | ⟨before, n, after, rfl, misses, unheard⟩
      · exact .inl ⟨purpose, asks purpose held none live'⟩
      · exact .inr (.inl (by rw [handed_concat, none, List.append_nil, last, same]))
      · exact .inr (.inr ⟨before, n, after ++ [m], by simp, misses, by rw [handed_concat, unheard, none, List.append_nil]⟩)
    | unheard none pushes vacant =>
      by_cases querying : ∃ purpose, f.holder = some (.querying purpose)
      · obtain ⟨purpose, held⟩ := querying
        exact .inl ⟨purpose, asks purpose held none live'⟩
      · refine .inr (.inr ⟨past, m, [], rfl, ⟨pushes, vacant, fun purpose held => ?_⟩, rfl⟩)
        rw [holder?, there] at held
        exact querying ⟨purpose, held⟩
  · exact .inl querying

/-- **Every step keeps a feed up to date.** -/
theorem UpToDate.step {plans : List (FeedPlan V)} (h : UpToDate i past f s) (arises : Hub.Arises plans tenure w.hub)
    (lets : tenure.Lets l) (made : w.step l = some r) (there : w.hub.feeds[i]? = some f) (known : w.sources[i]? = some s)
    (undisturbed : l.Spares i) :
    ∃ f' s', r.state.hub.feeds[i]? = some f' ∧ r.state.sources[i]? = some s' ∧ UpToDate i (past ++ [⟨w, l, r⟩]) f' s' := by
  obtain ⟨s', known', hands⟩ := hands_of_step made known undisturbed
  have still : UpToDate i (past ++ [⟨w, l, r⟩]) f s' := h.onward there hands .inl fun _ held _ _ => held
  rcases step_hub made with ⟨hl, is, step⟩ | ⟨-, hub, -⟩
  · rcases arises.feed_of_step (allows_of_lets lets is) step there with ⟨fl, fr, there', stepFeed, -, heard⟩ | ⟨same, -⟩
    · have t := Feed.transition_of_step stepFeed
      obtain ⟨orderly, -⟩ := arises.kept there
      refine ⟨_, s', there', known', h.onward there hands (fun live' => ?_) fun purpose held none live' => ?_⟩
      · refine (t.isLive live').imp_right fun starts => ?_
        obtain ⟨purpose, -, begun⟩ := starts.starts t
        exact ⟨purpose, by rw [begun]⟩
      · refine (t.stays_querying orderly held live').resolve_right ?_
        rintro ⟨payload, rfl⟩
        rw [handedAt, is, (heard _).1 rfl] at none
        simp [Hub.handedAt, HubLabel.inFeed?, FeedLabel.handed] at none
    · exact ⟨f, s', same, known', still⟩
  · exact ⟨f, s', hub ▸ there, known', still⟩

/-- A feed that is live goes through a run of its world up to date. -/
theorem upToDate_of_run {plans : List (FeedPlan V)} (arises : Hub.Arises plans tenure w.hub)
    (lets : ∀ l ∈ labels, tenure.Lets l) (ran : run World.step labels w = some (v, es)) (there : w.hub.feeds[i]? = some f)
    (known : w.sources[i]? = some s) (h : UpToDate i past f s)
    (undisturbed : ∀ l ∈ labels, l.Spares i) :
    ∃ g s', v.hub.feeds[i]? = some g ∧ v.sources[i]? = some s' ∧ UpToDate i (past ++ trail World.step labels w) g s' := by
  induction labels generalizing w es f s past with
  | nil =>
    cases ran
    exact ⟨f, s, there, known, by rwa [trail_nil, List.append_nil]⟩
  | cons l rest ih =>
    obtain ⟨r, later, made, onward, rfl⟩ := run_cons.1 ran
    have lets' := lets l List.mem_cons_self
    obtain ⟨f', s', there', known', h⟩ := h.step arises lets' made there known (undisturbed l List.mem_cons_self)
    obtain ⟨g, s'', final, source, h⟩ := ih (arises_step arises lets' made) (fun l hl => lets l (List.mem_cons_of_mem _ hl))
      onward there' known' h fun l hl => undisturbed l (List.mem_cons_of_mem _ hl)
    rw [trail_cons made]
    exact ⟨g, s'', final, source, by rwa [List.append_assoc] at h⟩

end World

end LazyHub
