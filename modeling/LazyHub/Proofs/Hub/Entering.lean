import LazyHub.Proofs.Hub.Following
import LazyHub.Proofs.Hub.Unused

/-!
# How a subscription enters its feed

A subscription to a well-typed key draws its token, and waits until it is let into its feed (`Hub.Waits`). As
long as it waits the others go on as if it had not come (`exists_calm`).

Where it finds the feed active it is answered at once (`Finishes.done_of_active`). Where it does not
(`Hub.Enters`), it can be taken for nothing at all (`Enters.seen`) and for a read (`Enters.refreshes`): all that
it has changed is the numbers of the next token and of the feed's epoch, which are not in use.
-/

namespace LazyHub

variable {V H R : Type}

namespace Hub

variable [SignalValue V] {settings : Settings} {plans : List (FeedPlan V)} {h : Hub V H R} {l : HubLabel V H R}
  {r : Result V H R} {n i : Nat} {key : Key} {handler : H}

/-! ### Waiting -/

/-- **A subscription waits** to enter its feed. -/
structure Waits (n : Nat) (key : Key) (handler : H) (h : Hub V H R) : Prop where
  /-- Its token was drawn. -/
  drawn : n < h.nextToken
  /-- It is among the requests. -/
  waits : ∃ q ∈ h.requests, q.token = ⟨n⟩
  /-- No other request has its token. -/
  only : ∀ q ∈ h.requests, q.token = ⟨n⟩ → q.key = key ∧ q.handler = handler

theorem Waits.step (waits : h.Waits n key handler) (made : h.step l = some r) (other : l ≠ .move (.subscribe ⟨n⟩)) :
    r.state.Waits n key handler := by
  have t := transition_of_step made
  have drawn := Nat.lt_of_lt_of_le waits.drawn t.nextToken_le
  obtain ⟨q, mem, named⟩ := waits.waits
  cases t with
  | @feed _ _ _ g _ _ serves =>
    refine ⟨drawn, ⟨q, ?_, named⟩, ?_⟩
    · rw [afterFeed_requests]
      cases serves with
      | @subscribe _ _ token =>
        refine List.mem_filter.2 ⟨mem, decide_eq_true ?_⟩
        rw [named]
        exact fun eq => other (eq ▸ rfl)
      | _ => exact mem
    · rw [afterFeed_requests]
      exact fun q mem => waits.only q (serves.requests_sublist.subset mem)
  | draw =>
    refine ⟨drawn, ⟨q, List.mem_append_left _ mem, named⟩, fun q mem named => ?_⟩
    rcases List.mem_append.1 mem with mem | mem
    · exact waits.only q mem named
    · rw [List.mem_singleton.1 mem] at named
      exact absurd (Token.mk.inj named) (Nat.ne_of_gt waits.drawn)
  | _ => exact ⟨drawn, ⟨q, mem, named⟩, waits.only⟩

omit [SignalValue V] in
theorem Waits.not_isOf (waits : h.Waits n key handler) (sound : h.Sound) (other : l ≠ .move (.subscribe ⟨n⟩)) :
    ¬ IsOf n i ⟨h, l, r⟩ := by
  rintro (⟨-, next⟩ | label | ⟨there, awaits, -⟩)
  · exact absurd next (Nat.ne_of_gt waits.drawn)
  · exact other label
  · obtain ⟨q, mem, named⟩ := waits.waits
    exact sound.apart _ (List.mem_of_getElem? there) _ awaits q mem named

/-- What the others do while a subscription waits they can do without it. -/
theorem Waits.isSeen (waits : h.Waits n key handler) (sound : h.Sound) (made : h.step l = some r)
    (other : l ≠ .move (.subscribe ⟨n⟩)) : Moment.IsSeen Hub.step (asIf n i id id) (IsOf n i) ⟨h, l, r⟩ :=
  .inr ⟨waits.not_isOf sound other, step_asIf made other waits.drawn rfl fun _ _ _ _ _ _ step => step⟩

omit [SignalValue V] in
/-- The feeds are what they are as if nothing else were different. -/
theorem modify_asIf_id (feeds : List (Feed V H R)) (i : Nat) : feeds.modify i (·.asIf id id) = feeds :=
  List.modify_id i feeds

theorem waits_of_draw (reachable : Reachable settings plans h) (made : h.step (.move (.draw key handler)) = some r) :
    r.state.Waits h.nextToken key handler ∧ r.effects = [] ∧ LooksLike h r.state ∧
      r.state.asIf h.nextToken i id id = h.renumber (skip h.nextToken) (fun _ => asIs) := by
  have sound := reachable.sound
  have old : ∀ q ∈ h.requests, q.token ≠ ⟨h.nextToken⟩ := fun q mem named => by
    have drawn := sound.drawn q.token (.inl ⟨q, mem, rfl⟩)
    rw [named] at drawn
    exact Nat.lt_irrefl _ drawn
  cases transition_of_step made with
  | feed serves => cases serves
  | draw =>
    have mem : (⟨⟨h.nextToken⟩, key, handler⟩ : Request H) ∈ h.requests ++ [⟨⟨h.nextToken⟩, key, handler⟩] :=
      List.mem_append_right _ (List.mem_singleton_self _)
    refine ⟨⟨Nat.lt_succ_self _, ⟨_, mem, rfl⟩, ?_⟩, rfl, ⟨rfl, rfl, rfl, rfl⟩, ?_⟩
    · intro q mem named
      rcases List.mem_append.1 mem with mem | mem
      · exact absurd named (old q mem)
      · rw [List.mem_singleton.1 mem]
        exact ⟨rfl, rfl⟩
    · have requests : (h.requests ++ [(⟨⟨h.nextToken⟩, key, handler⟩ : Request H)]).filter (·.token ≠ ⟨h.nextToken⟩) =
          h.requests := by
        simpa [List.filter_append] using old
      rw [reachable.renumber_skip]
      exact congrArg₂ (fun feeds requests => ({ h with feeds, requests, nextToken := h.nextToken + 1 } : Hub V H R))
        (modify_asIf_id h.feeds i) requests

/-- **While a subscription waits, the others go on** as if it had not come. -/
theorem exists_calm (reachable : Reachable settings plans h) {waiting : List (HubLabel V H R)} {w : Hub V H R}
    {es : List (HubEffect V H)} (own : ∀ l ∈ waiting, l.IsOwn)
    (ran : run Hub.step (.move (.draw key handler) :: waiting) h = some (w, es))
    (patient : .move (.subscribe ⟨h.nextToken⟩) ∉ waiting) (i : Nat) :
    ∃ calm v said, (∀ l ∈ calm, l.IsOwn) ∧ run Hub.step calm h = some (v, said) ∧ h.nextToken ≤ v.nextToken ∧
      w.asIf h.nextToken i id id = v.renumber (skip h.nextToken) (fun _ => asIs) ∧ w.Waits h.nextToken key handler ∧
      Follows h.nextToken i (skip h.nextToken) (fun _ => asIs) (trail Hub.step calm h)
        (trail Hub.step (.move (.draw key handler) :: waiting) h) := by
  obtain ⟨r, later, made, onward, rfl⟩ := run_cons.1 ran
  obtain ⟨waits, silent, same, start⟩ := waits_of_draw (i := i) reachable made
  have drawn : (HubLabel.move (.draw key handler) : HubLabel V H R).IsOwn := trivial
  have reachable' := reachable.step drawn made
  have other : ∀ l ∈ waiting, l ≠ .move (.subscribe ⟨h.nextToken⟩) := fun l mem eq => patient (eq ▸ mem)
  have keeps : ∀ l ∈ waiting, ∀ {s r}, (Reachable settings plans s ∧ s.Waits h.nextToken key handler) →
      s.step l = some r → (Reachable settings plans r.state ∧ r.state.Waits h.nextToken key handler) :=
    fun l mem _ _ both made => ⟨both.1.step (own l mem) made, both.2.step made (other l mem)⟩
  obtain ⟨-, waits'⟩ := run_keeps keeps onward ⟨reachable', waits⟩
  have each := of_mem_trail keeps ⟨reachable', waits⟩
  have isSeen : ∀ m ∈ trail Hub.step waiting r.state,
      m.IsSeen Hub.step (asIf h.nextToken i id id) (IsOf h.nextToken i) := fun m mem => by
    obtain ⟨label, ⟨reached, waits⟩, made⟩ := each m mem
    exact waits.isSeen reached.sound made (other _ label)
  obtain ⟨seen, es', among, ranSeen, seenAs⟩ := run_seen onward isSeen
  rw [start] at ranSeen seenAs
  have continues : Continues (skip h.nextToken) (fun _ => asIs) h := by
    refine ⟨fun x le => ?_, fun _ _ _ _ _ => rfl⟩
    rw [skip_of_le le, skip_of_le (Nat.le_succ_of_le le)]
  obtain ⟨calm, v, said, ranCalm, final, -, told⟩ := continues.recalls ranSeen
  have grows : h.nextToken ≤ v.nextToken :=
    run_keeps (P := fun v => h.nextToken ≤ v.nextToken)
      (fun _ _ _ _ le made => Nat.le_trans le (transition_of_step made).nextToken_le) ranCalm (Nat.le_refl _)
  refine ⟨calm, v, said, isOwn_of_renumbered ranCalm ranSeen told fun l mem => own l (among l mem), ranCalm, grows, final,
    waits', ?_⟩
  rw [trail_cons made]
  refine .own (.draws rfl rfl) same (by simp [silent]) (follows_of_seenAs seenAs told fun m mem isOf => ?_)
  obtain ⟨label, ⟨reached, waits⟩, -⟩ := each m mem
  exact absurd isOf (waits.not_isOf reached.sound (other _ label))

/-! ### Entering -/

section Enters

variable {v w k : Hub V H R} {f : Feed V H R}

/-- What a subscription does that waits and is let in. -/
theorem Waits.enters (waits : w.Waits n key handler) (routes : w.feedOf? key.id = some i) (there : w.feeds[i]? = some f)
    (made : w.step (.move (.subscribe ⟨n⟩)) = some r) :
    ∃ fr, f.step (.enter (.subscribe key.id ⟨n⟩ handler)) = some fr ∧
      r = ({ w with requests := w.requests.filter (·.token ≠ ⟨n⟩) } : Hub V H R).afterFeed i fr ∧
      w.Serves (.move (.subscribe ⟨n⟩)) i (.enter (.subscribe key.id ⟨n⟩ handler))
        { w with requests := w.requests.filter (·.token ≠ ⟨n⟩) } := by
  cases transition_of_step made with
  | feed serves there' step =>
    cases serves with
    | subscribe drawn named routes' =>
      obtain ⟨rfl, rfl⟩ := waits.only _ (List.mem_of_find?_eq_some drawn) named
      obtain rfl := Option.some.inj (routes'.symm.trans routes)
      obtain rfl := Option.some.inj (there'.symm.trans there)
      exact ⟨_, step, rfl, .subscribe drawn named routes⟩

/-- A subscription that is let in where the feed is active is answered at once. -/
theorem Finishes.done_of_active (waits : w.Waits n key handler) (routes : w.feedOf? key.id = some i)
    (there : w.feeds[i]? = some f) (active : f.registration.isSome) {rest : List (HubLabel V H R)}
    {es : List (HubEffect V H)} {a : Answer} (fin : Finishes i w (.move (.subscribe ⟨n⟩) :: rest) k es a) : a = .done := by
  have atOnce : ∀ {r}, w.step (.move (.subscribe ⟨n⟩)) = some r → r.answer = some .done ∧
      ∀ g, r.state.feeds[i]? = some g → g.holder = none := by
    intro r made
    obtain ⟨fr, step, rfl, -⟩ := waits.enters routes there made
    have there' : ({ w with requests := w.requests.filter (·.token ≠ ⟨n⟩) } : Hub V H R).feeds[i]? = some f := there
    cases Feed.transition_of_step step with
    | content _ _ content => exact content.elim
    | attach free =>
      refine ⟨rfl, fun g at' => ?_⟩
      rw [getElem?_afterFeed there'] at at'
      obtain rfl := Option.some.inj at'
      exact free
    | subscribe _ _ _ inactive =>
      rw [inactive] at active
      cases active
  cases fin with
  | last made _ _ _ answered => exact (Option.some.inj ((atOnce made).1.symm.trans answered)).symm
  | more made there' busy => exact absurd ((atOnce made).2 _ there') busy

/-- A feed that a subscription has entered while it was inactive. -/
def activating (n : Nat) (key : Key) (handler : H) (f : Feed V H R) : Feed V H R :=
  { f with epoch := f.epoch + 1, holder := some (.querying (.subscribe key.id ⟨n⟩ handler)) }

/-- A hub one of whose feeds a subscription has entered while it was inactive. -/
def entered (n i : Nat) (key : Key) (handler : H) (f : Feed V H R) (w : Hub V H R) : Hub V H R :=
  { w with
    feeds := w.feeds.set i (activating n key handler f)
    requests := w.requests.filter (·.token ≠ ⟨n⟩) }

/-- **A subscription enters an inactive feed** at `w`, where without it the hub would have come to `v`. -/
structure Enters (settings : Settings) (plans : List (FeedPlan V)) (n i : Nat) (key : Key) (handler : H)
    (v w : Hub V H R) (f : Feed V H R) : Prop where
  /-- The hub has come there. -/
  reachable : Reachable settings plans w
  /-- Without the subscription, it would have come there. -/
  calm : Reachable settings plans v
  /-- The others have done the same. -/
  same : w.asIf n i id id = v.renumber (skip n) (fun _ => asIs)
  /-- The token was the next one before. -/
  later : n ≤ v.nextToken
  /-- The subscription waits. -/
  waits : w.Waits n key handler
  /-- The feed. -/
  there : w.feeds[i]? = some f
  /-- Its past is fenced off. -/
  past : (∀ epoch ∈ f.callbacks, epoch < f.epoch) ∧ ∀ p ∈ f.pushes, p.epoch < f.epoch
  /-- It is free. -/
  free : f.holder = none
  /-- It is inactive. -/
  inactive : f.registration = none
  /-- It is owned. -/
  kept : f.handles ≠ 0
  /-- The subscription is let in. -/
  made : w.step (.move (.subscribe ⟨n⟩)) = some { state := entered n i key handler f w, effects := [.asked i .query] }

omit [SignalValue V] in
/-- What is seen of the subscription that has entered, if the holder of the state lock is taken for another. -/
theorem seen_eq (w : Hub V H R) (f : Feed V H R) (φ : Option (Section V H R) → Option (Section V H R)) :
    (entered n i key handler f w).asIf n i φ id =
      { w.asIf n i id id with
        feeds := w.feeds.set i { f with epoch := f.epoch + 1, holder := φ (activating n key handler f).holder } } := by
  have feeds : (w.feeds.set i (activating n key handler f)).modify i (·.asIf φ id) =
      w.feeds.set i { f with epoch := f.epoch + 1, holder := φ (activating n key handler f).holder } := by
    apply List.ext_getElem?
    intro j
    rw [List.getElem?_modify, List.getElem?_set, List.getElem?_set]
    split
    · split <;> rfl
    · cases w.feeds[j]? <;> rfl
  have requests : (w.requests.filter (·.token ≠ ⟨n⟩)).filter (·.token ≠ ⟨n⟩) = w.requests.filter (·.token ≠ ⟨n⟩) := by
    rw [List.filter_filter]
    simp
  exact congrArg₂ (fun feeds requests => ({ w with feeds, requests } : Hub V H R)) feeds requests

section Enters

variable (e : Enters settings plans n i key handler v w f)
include e

/-- Somebody holds the hub, or the subscription would not have waited. -/
theorem Enters.held : w.IsHeld := by
  have owns := e.reachable.sound.owns
  obtain ⟨q, mem, -⟩ := e.waits.waits
  cases life : w.life with
  | held m => exact ⟨m, life⟩
  | closing next =>
    rw [((owns_of_closing life).1 owns).1] at mem
    cases mem
  | closed => exact absurd ((owns_of_closed life).1 owns f (List.mem_of_getElem? e.there)).1 e.kept

/-- The feed as it would have been. -/
theorem Enters.exists_feed : ∃ g, v.feeds[i]? = some g ∧ g.renumber (skip n) asIs = f := by
  have seen : (w.asIf n i id id).feeds[i]? = some f := (getElem?_asIf w).trans (congrArg _ e.there)
  rw [e.same, getElem?_renumber] at seen
  exact Option.map_eq_some_iff.1 seen

/-- Where the hub would have come to, it would have come to with another epoch. -/
theorem Enters.renumber_eq : v.renumber (skip n) (bumped i f.epoch) =
    { w.asIf n i id id with feeds := w.feeds.set i { f with epoch := f.epoch + 1 } } := by
  obtain ⟨g, there, rfl⟩ := e.exists_feed
  have renumbered := renumber_bumped there (skip n)
    (fun epoch mem => e.past.1 _ (List.mem_map_of_mem (f := asIs) mem))
    (fun p mem => e.past.2 _ (List.mem_map_of_mem (f := (·.renumber asIs)) mem))
  have bumps : (w.asIf n i id id).feeds.modify i (fun g => { g with epoch := g.epoch + 1 }) =
      w.feeds.set i { g.renumber (skip n) asIs with epoch := (g.renumber (skip n) asIs).epoch + 1 } := by
    rw [asIf, modify_asIf_id]
    apply List.ext_getElem?
    intro j
    rw [List.getElem?_modify, List.getElem?_set]
    split
    · rename_i eq
      subst eq
      rw [if_pos (List.getElem?_eq_some_iff.1 e.there).1, e.there]
      rfl
    · cases w.feeds[j]? <;> rfl
  rw [← e.same, bumps] at renumbered
  exact renumbered

/-- **Taken for nothing**, a subscription that enters has changed no more than the epoch. -/
theorem Enters.seen : (entered n i key handler f w).asIf n i (fun _ => none) id = v.renumber (skip n) (bumped i f.epoch) := by
  rw [e.renumber_eq, seen_eq, ← e.free]

/-- **Taken for a read**, a subscription that enters does what the read would do. -/
theorem Enters.refreshes : (v.renumber (skip n) (bumped i f.epoch)).step (.move (.refresh i)) =
    some
      { state := (entered n i key handler f w).asIf n i (Option.map (Section.for .refresh)) id
        effects := [.asked i .query] } := by
  rw [e.renumber_eq, seen_eq]
  have there : (w.feeds.set i { f with epoch := f.epoch + 1 })[i]? = some { f with epoch := f.epoch + 1 } :=
    (List.getElem?_set_self' ..).trans (by rw [e.there]; rfl)
  have made : ({ f with epoch := f.epoch + 1 } : Feed V H R).step (.enter .refresh) =
      some { state := { f with epoch := f.epoch + 1, holder := some (.querying .refresh) }, effects := [.asked .query] } := by
    simp [Feed.step, Feed.enter, Feed.isActive, Feed.startPull, e.free, e.kept, e.inactive]
  obtain ⟨m, held⟩ := e.held
  refine Eq.trans (Serves.step (.refresh ⟨m, held⟩) there made) ?_
  simp only [afterFeed, List.set_set]
  rfl

theorem Enters.continues : Continues (skip n) (bumped i f.epoch) v := by
  obtain ⟨g, there, same⟩ := e.exists_feed
  refine ⟨fun x le => ?_, fun j g' there' x le => ?_⟩
  · have le := Nat.le_trans e.later le
    rw [skip_of_le le, skip_of_le (Nat.le_succ_of_le le)]
  · by_cases eq : j = i
    · subst eq
      obtain rfl := Option.some.inj (there.symm.trans there')
      have le : f.epoch ≤ x := same ▸ le
      rw [bumped, if_pos rfl, skip_of_le le, skip_of_le (Nat.le_succ_of_le le)]
    · rw [bumped, if_neg eq]
      rfl

omit [SignalValue V] e in
theorem looksLike_entered (there : w.feeds[i]? = some f) : LooksLike w (entered n i key handler f w) :=
  looksLike_of_set there rfl rfl rfl

theorem Enters.midway : Midway settings plans n i (entered n i key handler f w) (activating n key handler f)
    (.querying (.subscribe key.id ⟨n⟩ handler)) := by
  have own : (HubLabel.move (.subscribe ⟨n⟩) : HubLabel V H R).IsOwn := trivial
  refine ⟨e.reachable.step own e.made, ⟨e.waits.drawn, fun q mem => ?_⟩, ?_, rfl, rfl⟩
  · simpa using (List.mem_filter.1 mem).2
  · exact (List.getElem?_set_self' ..).trans (by rw [e.there]; rfl)

/-- The subscription goes on from there. -/
theorem Enters.onward {rest : List (HubLabel V H R)} {es : List (HubEffect V H)} {a : Answer}
    (fin : Finishes i w (.move (.subscribe ⟨n⟩) :: rest) k es a) :
    ∃ es', Finishes i (entered n i key handler f w) rest k es' a := by
  have there := e.midway.there
  cases fin with
  | last made _ there' free =>
    obtain rfl := Option.some.inj (made.symm.trans e.made)
    obtain rfl := Option.some.inj (there.symm.trans there')
    cases free
  | more made _ _ onward =>
    obtain rfl := Option.some.inj (made.symm.trans e.made)
    exact ⟨_, onward⟩

end Enters

end Enters

end Hub

end LazyHub
