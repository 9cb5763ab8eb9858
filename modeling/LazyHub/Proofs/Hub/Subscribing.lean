import LazyHub.Proofs.Feed.Attempts
import LazyHub.Proofs.Hub.Entering

/-!
# Subscriptions that fail

A subscription that enters an inactive feed and fails there is taken for something that could have happened
without it (`Hub.AmountsTo`). If the payload was not got hold of it is taken for nothing at all
(`Enters.amountsToNothing`): its steps are left out. If the registration was refused it is taken for a read
(`Enters.amountsToRead`): up to the request for the registration each of its steps stands for one of the read,
and those after it are left out.

The callback of a refused registration has to go for that, and nothing may have come through it
(`callback_unheard`).
-/

namespace LazyHub

variable {V H R : Type}

namespace Hub

variable [SignalValue V] {settings : Settings} {plans : List (FeedPlan V)} {n i : Nat} {key : Key} {handler : H}
  {v w k : Hub V H R} {f : Feed V H R} {rest : List (HubLabel V H R)} {es : List (HubEffect V H)} {failure : HubFailure}

/-- **What a subscription amounts to that fails** in the course of some steps from `w`, where without it the hub would
have come to `v`: the hub comes to what amounts to `u`. -/
inductive AmountsTo (n i : Nat) (key : Key) (δ : ℕ → ℕ ↪o ℕ) (v w : Hub V H R) :
    List (HubLabel V H R) → Hub V H R → HubFailure → Prop where
  /-- If the payload was not got hold of, it amounts to nothing. -/
  | nothing {steps calm : List (HubLabel V H R)} {u : Hub V H R} {said : List (HubEffect V H)} {failure : HubFailure}
      (isOfFetch : failure.IsOfFetch) (own : ∀ l ∈ calm, l.IsOwn) (ran : run Hub.step calm v = some (u, said))
      (follows : Follows n i (skip n) δ (trail Hub.step calm v) (trail Hub.step steps w)) :
      AmountsTo n i key δ v w steps u failure
  /-- If the registration was refused, it amounts to a read. -/
  | read {reading pulling calm after : List (HubLabel V H R)} {u₁ w₁ u : Hub V H R} {said said' es : List (HubEffect V H)}
      {value : V} {failure : HubFailure} (fetched : ¬ failure.IsOfFetch) (reads : Reads v key reading u₁ said (.ok value))
      (pulls : run Hub.step pulling w = some (w₁, es))
      (beside : List.Forall₂ (StandsBeside n i (skip n) δ) (trail Hub.step reading v) (trail Hub.step pulling w))
      (own : ∀ l ∈ reading ++ calm, l.IsOwn) (ran : run Hub.step calm u₁ = some (u, said'))
      (follows : Follows n i (skip n) δ (trail Hub.step calm u₁) (trail Hub.step after w₁)) :
      AmountsTo n i key δ v w (pulling ++ after) u failure

/-! ### Taken for nothing -/

/-- **A subscription that fails by its query or decoding comes to nothing**: the hub is where the others alone would
have brought it, by other numbers. -/
theorem Enters.amountsToNothing (e : Enters settings plans n i key handler v w f)
    (fin : Finishes i w (.move (.subscribe ⟨n⟩) :: rest) k es (.failed failure)) (own : ∀ l ∈ rest, l.IsOwn)
    (isOfFetch : failure.IsOfFetch) :
    ∃ u, AmountsTo n i key (bumped i f.epoch) v w (.move (.subscribe ⟨n⟩) :: rest) u failure ∧
      k = u.renumber (skip n) (bumped i f.epoch) := by
  obtain ⟨es', onward⟩ := e.onward fin
  have mid := e.midway
  obtain ⟨seen, said, among, ranSeen, seenAs⟩ := run_seen onward.run (onward.isSeen_fetching own mid trivial isOfFetch)
  rw [e.seen] at ranSeen seenAs
  obtain ⟨calm, u, said, ran, final, -, told⟩ := e.continues.recalls ranSeen
  obtain ⟨g, there, free⟩ := onward.exists_free
  have same : g.asIf (fun _ => none) id = g := by
    rw [Feed.asIf, ← free]
    rfl
  have gone : k.Gone n := run_keeps (fun _ _ _ _ gone made => Gone.step gone made) onward.run mid.gone
  refine ⟨u, .nothing isOfFetch (isOwn_of_renumbered ran ranSeen told fun l mem => own l (among l mem)) ran ?_, ?_⟩
  · rw [trail_cons e.made]
    refine .own (.enters rfl) (looksLike_entered e.there) ?_ (follows_of_seenAs seenAs told mid.gone.isAt)
    exact List.forall_mem_singleton.2 rfl
  · rw [← final, gone.asIf_eq there same]

/-! ### Taken for a read -/

section Refused

variable {start : Hub V H R} {past second : List (HubLabel V H R)} {before : List (HubEffect V H)} {g : Feed V H R}
  {purpose : Purpose H}

/-- The hub in which a subscription asks for a registration. -/
theorem Midway.registers (mid : Midway settings plans n i w g (.writing purpose))
    (settles : w.step (.move (.advance i .settle)) = some (w.afterFeed i (registering g purpose))) :
    Midway settings plans n i (w.afterFeed i (registering g purpose)).state (registering g purpose).state
      (.registering purpose) :=
  mid.next (l := .move (.advance i .settle)) trivial settles (getElem?_afterFeed mid.there _) rfl rfl

/-- **A callback whose registration is refused leaves nothing behind**, as long as the provider keeps faith. -/
theorem callback_unheard (opens : Opens plans .hub start) (own : ∀ l ∈ past ++ .move (.advance i .settle) :: second, l.IsOwn)
    (ran : run Hub.step past start = some (w, before))
    (faith : KeepsFaith i (trail Hub.step (past ++ .move (.advance i .settle) :: second) start))
    (mid : Midway settings plans n i w g (.writing purpose))
    (settles : w.step (.move (.advance i .settle)) = some (w.afterFeed i (registering g purpose)))
    (fin : Finishes i (w.afterFeed i (registering g purpose)).state second k es (.failed failure)) :
    g.callbacks.filter (· ≠ g.epoch) = g.callbacks ∧ (∀ payload, .invoke i g.epoch payload ∉ second) ∧
      ∃ g', k.feeds[i]? = some g' ∧ g'.asIf (fun _ => none) (List.filter (· ≠ g.epoch)) = g' := by
  have ran' : run Hub.step (past ++ .move (.advance i .settle) :: second) start = some (k, _) :=
    run_append.2 ⟨w, before, _, ran, run_cons.2 ⟨_, _, settles, fin.run, rfl⟩, rfl⟩
  have ownSecond : ∀ l ∈ second, l.IsOwn := fun l mem => own l (List.mem_append_right _ (List.mem_cons_of_mem _ mem))
  have mid' := mid.registers settles
  obtain ⟨earlier, m, reason, g', happened, label, there, epoch, final, inactive⟩ := fin.exists_refusal ownSecond mid'
  have epoch : g'.epoch = g.epoch := epoch
  have whole : trail Hub.step (past ++ .move (.advance i .settle) :: second) start =
      (trail Hub.step past start ++ ⟨w, .move (.advance i .settle), w.afterFeed i (registering g purpose)⟩ :: earlier) ++
        [m] := by
    rw [trail_append ran, trail_cons settles, happened, List.append_assoc, List.cons_append]
  have fenced := opens.fenced (fun l mem => own l (List.mem_append_left _ mem)) ran
    (by rw [trail_append ran] at faith; exact faith.of_append) mid.there
  have early : ∀ epoch ∈ g.callbacks, epoch ≠ g.epoch := by
    have rests : g.standing = none := by
      have inactive := (mid.reachable.orderly mid.there).inactive (by rw [Feed.pull?, mid.held]; rfl)
      simp [Feed.standing, mid.held, inactive, Section.registers]
    exact fun epoch mem => Nat.ne_of_lt ((fenced.past rests).1 epoch mem)
  refine ⟨List.filter_eq_self.2 (by simpa using early), fun payload mem => ?_, _, final, ?_⟩
  · -- it would have been invoked before it was refused
    rw [← map_label_trail fin.run, happened, List.map_append, List.mem_append] at mem
    rcases mem with mem | mem
    · obtain ⟨m', mem, invoked⟩ := List.mem_map.1 mem
      refine faith _ m [] reason g' whole label there ?_
      exact ⟨m', List.mem_append_right _ (List.mem_cons_of_mem _ mem), payload, epoch ▸ invoked⟩
    · rw [List.map_singleton, List.mem_singleton, label] at mem
      cases mem
  · have rests : ({ g' with callbacks := g'.callbacks.erase g'.epoch, holder := none } : Feed V H R).standing = none := by
      simp [Feed.standing, inactive]
    have fenced := ((opens.fenced own ran' faith final).past rests).1
    have left : (g'.callbacks.erase g'.epoch).filter (· ≠ g.epoch) = g'.callbacks.erase g'.epoch := by
      refine List.filter_eq_self.2 fun x mem => ?_
      simpa [← epoch] using Nat.ne_of_lt (fenced x mem)
    exact congrArg (fun callbacks => { g' with callbacks, holder := none }) left

omit [SignalValue V] in
/-- Where a read lets go of the state lock, a subscription goes on unseen. -/
theorem registering_seen (w : Hub V H R) (purpose : Purpose H) (new : g.callbacks.filter (· ≠ g.epoch) = g.callbacks) :
    (w.asIf n i (Option.map (Section.for .refresh)) id).afterFeed i
        { state := { g with writer := none, holder := none }, answer := some .done } =
      { state := (w.afterFeed i (registering g purpose)).state.asIf n i (fun _ => none) (List.filter (· ≠ g.epoch))
        answer := some .done } := by
  have callbacks : (g.callbacks ++ [g.epoch]).filter (· ≠ g.epoch) = g.callbacks := by
    rw [List.filter_append, new]
    simp
  have feeds : (w.feeds.modify i (·.asIf (Option.map (Section.for .refresh)) id)).set i { g with writer := none, holder := none } =
      (w.feeds.set i (registering g purpose).state).modify i (·.asIf (fun _ => none) (List.filter (· ≠ g.epoch))) := by
    apply List.ext_getElem?
    intro j
    simp only [List.getElem?_set, List.getElem?_modify, List.length_modify]
    split
    · split
      · exact congrArg (fun callbacks => some ({ g with writer := none, holder := none, callbacks } : Feed V H R)) callbacks.symm
      · rfl
    · cases w.feeds[j]? <;> rfl
  exact congrArg (fun feeds => ({
    state := { w with feeds, requests := w.requests.filter (·.token ≠ ⟨n⟩) }
    answer := some .done } : Result V H R)) feeds

theorem Midway.settles_seen (mid : Midway settings plans n i w g (.writing purpose)) (written : g.writer = some ⟨none, [], .none⟩)
    (new : g.callbacks.filter (· ≠ g.epoch) = g.callbacks) :
    (w.asIf n i (Option.map (Section.for .refresh)) id).step (.move (.advance i .settle)) =
      some
        { state := (w.afterFeed i (registering g purpose)).state.asIf n i (fun _ => none) (List.filter (· ≠ g.epoch))
          answer := some .done } := by
  rw [← registering_seen w purpose new]
  exact Serves.advance.step ((getElem?_asIf w).trans (congrArg _ mid.there)) (Feed.asIf_settle mid.held written)

end Refused

/-- **Until it asks for the registration, a subscription does what a read might have done** in its place. -/
theorem Enters.exists_reading {first : List (HubLabel V H R)} {w' : Hub V H R} {g : Feed V H R} {purpose : Purpose H}
    (e : Enters settings plans n i key handler v w f) (own : ∀ l ∈ first, l.IsOwn)
    (pulled : HasPulled settings plans n i (entered n i key handler f w) (activating n key handler f) first w' g purpose)
    (settles : w'.step (.move (.advance i .settle)) = some (w'.afterFeed i (registering g purpose)))
    (new : g.callbacks.filter (· ≠ g.epoch) = g.callbacks) :
    ∃ reading u said, (∀ l ∈ reading, l.IsOwn) ∧ Finishes i v (.move (.refresh i) :: reading) u said .done ∧
      Continues (skip n) (bumped i f.epoch) u ∧
      u.renumber (skip n) (bumped i f.epoch) =
        (w'.afterFeed i (registering g purpose)).state.asIf n i (fun _ => none) (List.filter (· ≠ g.epoch)) ∧
      List.Forall₂ (StandsBeside n i (skip n) (bumped i f.epoch)) (trail Hub.step (.move (.refresh i) :: reading) v)
        (trail Hub.step (.move (.subscribe ⟨n⟩) :: (first ++ [.move (.advance i .settle)])) w) := by
  have mid := e.midway
  obtain ⟨r, made, entering⟩ := e.continues.step_of_renumber (l := .move (.refresh i)) e.refreshes
  have continues := e.continues.step made
  have start : (entered n i key handler f w).asIf n i (Option.map (Section.for .refresh)) id =
      r.state.renumber (skip n) (bumped i f.epoch) := congrArg Stepped.state entering
  -- the values are pulled and written
  obtain ⟨es, ran⟩ := pulled.ran
  obtain ⟨seen, said, among, ranSeen, seenAs⟩ := run_seen ran pulled.seen
  rw [start] at ranSeen seenAs
  obtain ⟨pulling, u, said', ranPulling, final, -, told⟩ := continues.recalls ranSeen
  have busy := busy_of_seenAs seenAs told pulled.busy
  -- the read is done where the subscription goes on
  have settled := pulled.midway.settles_seen pulled.written new
  rw [final] at settled
  have continues' := continues.of_run ranPulling
  obtain ⟨r', made', done⟩ := continues'.step_of_renumber (l := .move (.advance i .settle)) settled
  have final' := (congrArg Stepped.state done).symm
  obtain ⟨g₁, there, held⟩ := exists_holder start mid.there
  obtain ⟨g₂, there', free⟩ := exists_holder final'.symm (pulled.midway.registers settles).there
  have fin : Finishes i u [.move (.advance i .settle)] r'.state r'.effects .done :=
    .last made' .advance there' (free.2 rfl) (congrArg Stepped.answer done).symm
  refine ⟨pulling ++ [.move (.advance i .settle)], r'.state, _, ?_,
    .more made there (fun none => nomatch held.1 none) (fin.of_busy ranPulling busy), continues'.step made', final', ?_⟩
  · have ownPulling := isOwn_of_renumbered ranPulling ranSeen told fun l mem => own l (among l mem)
    exact List.forall_mem_append.2 ⟨ownPulling, List.forall_mem_singleton.2 trivial⟩
  · rw [trail_cons made, trail_append ranPulling, trail_cons made', trail_cons e.made, trail_append ran, trail_cons settles]
    refine .cons ?_ (List.rel_append ?_ (.cons ?_ .nil))
    · exact .own (.enters rfl) (resembles_of_seen start) (List.forall_mem_singleton.2 rfl)
    · exact (retells_of_seenAs seenAs told).imp fun _ _ told => .told told
    · have byHolder : g.ByHolder (.advance .settle) := ⟨_, pulled.written, rfl⟩
      exact .own (pulled.midway.isOf .advance byHolder) (resembles_of_seen final'.symm) (List.forall_mem_singleton.2 rfl)

/-- **A subscription whose registration is refused amounts to a read**: the hub is where the others and a read would
have brought it, by other numbers. -/
theorem Enters.amountsToRead {start : Hub V H R} {past : List (HubLabel V H R)} {before : List (HubEffect V H)}
    (e : Enters settings plans n i key handler v w f) (opens : Opens plans .hub start)
    (own : ∀ l ∈ past ++ .move (.subscribe ⟨n⟩) :: rest, l.IsOwn) (ran : run Hub.step past start = some (w, before))
    (faith : KeepsFaith i (trail Hub.step (past ++ .move (.subscribe ⟨n⟩) :: rest) start))
    (fin : Finishes i w (.move (.subscribe ⟨n⟩) :: rest) k es (.failed failure)) (fetched : ¬ failure.IsOfFetch)
    (routes : v.route key = .ok i) (knows : ∀ u : Hub V H R, Reachable settings plans u → ∃ value, u.cached? key.id = some value) :
    ∃ u, AmountsTo n i key (bumped i f.epoch) v w (.move (.subscribe ⟨n⟩) :: rest) u failure ∧
      k = u.renumber (skip n) (bumped i f.epoch) := by
  obtain ⟨es', onward⟩ := e.onward fin
  have mid := e.midway
  have ownRest : ∀ l ∈ rest, l.IsOwn := fun l mem => own l (List.mem_append_right _ (List.mem_cons_of_mem _ mem))
  obtain @⟨first, second, w', k, g, purpose, es₂, failure, pulled, settles, refused⟩ :=
    onward.registers ownRest mid nofun fetched
  obtain ⟨ownFirst, ownSecond⟩ := List.forall_mem_append.1 ownRest
  replace ownSecond : ∀ l ∈ second, l.IsOwn := fun l mem => ownSecond l (List.mem_cons_of_mem _ mem)
  -- the callback is not invoked before it is refused
  have whole : past ++ .move (.subscribe ⟨n⟩) :: (first ++ .move (.advance i .settle) :: second) =
      (past ++ .move (.subscribe ⟨n⟩) :: first) ++ .move (.advance i .settle) :: second := by simp
  rw [whole] at own faith
  obtain ⟨said₁, ranFirst⟩ := pulled.ran
  have ran' : run Hub.step (past ++ .move (.subscribe ⟨n⟩) :: first) start = some (w', _) :=
    run_append.2 ⟨w, before, _, ran, run_cons.2 ⟨_, _, e.made, ranFirst, rfl⟩, rfl⟩
  obtain ⟨new, unheard, g', there, same⟩ := callback_unheard opens own ran' faith pulled.midway settles refused
  obtain ⟨reading, u₁, said, ownReading, read, continues, final, beside⟩ := e.exists_reading ownFirst pulled settles new
  -- from there on it is not seen
  have mid' := pulled.midway.registers settles
  obtain ⟨seen, said₂, among, ranSeen, seenAs⟩ := run_seen refused.run (refused.isSeen_registering ownSecond mid' unheard)
  change run Hub.step seen ((w'.afterFeed i (registering g purpose)).state.asIf n i _ (List.filter (· ≠ g.epoch))) = _ at ranSeen
  change SeenAs (asIf n i _ (List.filter (· ≠ g.epoch))) _ _
    (trail Hub.step seen ((w'.afterFeed i (registering g purpose)).state.asIf n i _ (List.filter (· ≠ g.epoch)))) at seenAs
  rw [← final] at ranSeen seenAs
  obtain ⟨calm, u, said₃, ranCalm, final', -, told⟩ := continues.recalls ranSeen
  have ownCalm := isOwn_of_renumbered ranCalm ranSeen told fun l mem => ownSecond l (among l mem)
  have ownRead : ∀ l ∈ HubLabel.move (.refresh i) :: reading, l.IsOwn := List.forall_mem_cons.2 ⟨trivial, ownReading⟩
  obtain ⟨value, known⟩ := knows u₁ (e.calm.run ownRead read.run)
  have reads : Reads v key (.move (.refresh i) :: reading) u₁ said (.ok value) := .routed routes read known
  have pulls : run Hub.step (.move (.subscribe ⟨n⟩) :: (first ++ [.move (.advance i .settle)])) w =
      some ((w'.afterFeed i (registering g purpose)).state, _) :=
    run_cons.2 ⟨_, _, e.made, run_append.2 ⟨w', said₁, _, ranFirst, run_singleton settles, rfl⟩, rfl⟩
  have gone : k.Gone n := run_keeps (fun _ _ _ _ gone made => Gone.step gone made) refused.run mid'.gone
  refine ⟨u, ?_, ?_⟩
  · have amounts := AmountsTo.read fetched reads pulls beside (List.forall_mem_append.2 ⟨ownRead, ownCalm⟩) ranCalm
      (follows_of_seenAs seenAs told mid'.gone.isAt)
    simpa using amounts
  · rw [← final']
    exact (gone.asIf_eq there same).symm

end Hub

end LazyHub
