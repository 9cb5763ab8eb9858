import LazyHub.Proofs.Feed.Pushes

/-!
# Accepted pushes and their changes

A push that finds its epoch current when it takes the update lock is accepted, and all its values are
written from then on, one after another (`Transition.yetToPush_eq`). Nobody else writes while somebody
is subscribed, because whoever pulls finds the feed without subscribers (`push_of_lists`). So those who
are subscribed are owed just the changes that accepted pushes make (`Transition.owes_changes`).
-/

namespace LazyHub

variable {V H R : Type}

namespace Feed

/-- What a step writes for a push. -/
def pushed (f : Feed V H R) (l : FeedLabel V H R) : List (Emission V) :=
  match f.write? l with
  | some ⟨some _, e⟩ => [e]
  | _ => []

/-- What the push that holds the update lock has yet to write. -/
def yetToPush (f : Feed V H R) : List (Emission V) :=
  match f.writer with
  | some ⟨some _, rest, _⟩ => rest
  | _ => []

/-- The values of the push that a step accepts: it is decoded, and takes the update lock in the epoch
of its callback. -/
def accepted (f : Feed V H R) : FeedLabel V H R → List (Emission V)
  | .advance (.enter number) =>
    match f.push? number, f.writer with
    | some ⟨_, epoch, .ready values⟩, none => if epoch = f.epoch then values else []
    | _, _ => []
  | _ => []

theorem pushed_eq_nil {f : Feed V H R} {l : FeedLabel V H R} (other : l ≠ .advance .write) :
    f.pushed l = [] := by
  rw [pushed, write?_eq_none other]

theorem accepted_eq_nil {f : Feed V H R} {l : FeedLabel V H R} (other : ∀ number, l ≠ .advance (.enter number)) :
    f.accepted l = [] := by
  unfold accepted
  split
  · exact absurd rfl (other _)
  · rfl

variable [SignalValue V] {f : Feed V H R} {l : FeedLabel V H R} {r : Result V H R}

/-- **A push that is accepted is written in full**: its values wait under the update lock until they
are written, one after another. -/
theorem Transition.yetToPush_eq (t : f.Transition l r) :
    f.yetToPush ++ f.accepted l = f.pushed l ++ r.state.yetToPush := by
  by_cases written : l = .advance .write
  · subst written
    cases t with
    | @write push e rest writing =>
      have unaccepted : f.accepted (.advance .write) = [] := accepted_eq_nil fun _ eq => by cases eq
      rw [unaccepted, List.append_nil, pushed, write?_of_writer writing]
      cases push <;> simp [yetToPush, writing]
  by_cases enters : ∃ number, l = .advance (.enter number)
  · obtain ⟨number, rfl⟩ := enters
    rw [pushed_eq_nil written]
    cases t with
    | pushAccepted known free => simp [accepted, known, free, yetToPush]
    | pushStale known free stale => simp [accepted, known, free, yetToPush, stale, setPhase]
  · rw [accepted_eq_nil fun number eq => enters ⟨number, eq⟩, pushed_eq_nil written, List.append_nil,
      List.nil_append]
    cases t with
    | write => exact absurd rfl written
    | pushAccepted | pushStale => exact absurd ⟨_, rfl⟩ enters
    | seed _ free => simp [yetToPush, free]
    | @look push _ _ writing | @post push _ _ writing => cases push <;> simp [yetToPush, writing]
    | settlePush writing | settleRefresh _ writing | settle _ _ writing =>
      simp [yetToPush, writing, setPhase]
    | _ => rfl

omit [SignalValue V] in
/-- While somebody is subscribed, the holder of the state lock writes nothing. -/
theorem push_of_lists (orderly : f.Orderly) (balanced : f.Balanced) {signal : SignalId} {e : Token × H}
    (lists : f.Lists signal e) {w : Writer V} (writing : f.writer = some w) : w.push.isSome := by
  by_contra pulls
  have pulls : w.push = none := by simpa using pulls
  obtain ⟨purpose, held⟩ := orderly.pulled w writing pulls
  simp only [Balanced, held] at balanced
  exact not_hasToken_of_empty balanced.1.1 e.1 ⟨signal, e.2, lists⟩

omit [SignalValue V] in
theorem isWatched_of_lists {signal : SignalId} {e : Token × H} (lists : f.Lists signal e) :
    f.isWatched signal := by
  obtain ⟨o, known, mem⟩ := lists
  simp only [isWatched, known, Bool.not_eq_true', Subscribers.isEmpty, List.isEmpty_eq_false_iff]
  exact List.ne_nil_of_mem mem

/-- **Whoever is subscribed is owed every change**, at once or as soon as the push that made it goes on,
and pushes alone make changes. -/
theorem Transition.owes_changes (t : f.Transition l r) (orderly : f.Orderly) (balanced : f.Balanced)
    {signal : SignalId} {e : Token × H} (lists : f.Lists signal e) {v : V}
    (known : f.cached? signal = some v) :
    owedTo signal r.effects ++ valuesFor signal r.state.news =
        valuesFor signal f.news ++ changes v (valuesFor signal (f.pushed l)) ∧
      r.state.cached? signal = some (settled v (valuesFor signal (f.pushed l))) := by
  have pushes : f.pushed l = (f.write? l).toList.map (·.emission) := by
    by_cases written : l = .advance .write
    · subst written
      cases t with
      | @write push x rest writing =>
        obtain ⟨number, rfl⟩ := Option.isSome_iff_exists.1 (push_of_lists orderly balanced lists writing)
        rw [pushed, write?_of_writer writing]
        rfl
    · rw [pushed_eq_nil written, write?_eq_none written]
      rfl
  have offered : ∀ p ∈ offers signal (f.write? l).toList, p.2 = true := by
    intro p hp
    obtain ⟨w, hw, -, eq⟩ := mem_offers hp
    have wrote := Option.mem_toList.1 hw
    rw [eq]
    unfold write? at wrote
    split at wrote
    · split at wrote
      · rename_i writing
        cases wrote
        exact push_of_lists orderly balanced lists writing
      · cases wrote
    · cases wrote
  have made : valuesFor signal (f.changed l) = changes v (valuesFor signal (f.pushed l)) := by
    rw [valuesFor_changed known, notices_eq_changes offered, map_fst_offers, pushes]
  -- whoever looks finds somebody
  have seen : valuesFor signal (found (f.look? l).toList) =
      valuesFor signal ((f.look? l).toList.map (·.emission)) := by
    refine valuesFor_found fun w hw named => ?_
    rw [watched_of_look? (Option.mem_toList.1 hw), named]
    exact isWatched_of_lists lists
  have looked := congrArg (valuesFor signal) t.fresh_eq
  have posted := congrArg (valuesFor signal) t.wanted_eq
  simp only [valuesFor_append, seen] at looked posted
  constructor
  · rw [t.owedTo_eq, news, news, valuesFor_append, valuesFor_append, ← List.append_assoc, ← posted,
      List.append_assoc, ← looked, made, List.append_assoc]
  · rw [t.cached?_eq, known, pushes, Option.map_some]

end Feed

end LazyHub
