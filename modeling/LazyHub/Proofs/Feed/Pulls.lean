import LazyHub.Proofs.Feed.Accepted
import LazyHub.Proofs.Feed.Calls

/-!
# What a pull writes

Whoever pulls takes its values from one payload and writes them all, after whatever pushes write until
then and before whatever they write later. `Feed.Account` keeps the account while the pull is under
way, step by step (`Account.step`).

A pull for the values alone ends in one of three ways (`refreshed_of_finishes`): the query fails, the
decoding fails, or the values are written. The feed is left inactive in any case, and in the first
two what is written meanwhile is written by pushes.
-/

namespace LazyHub

variable {V H R : Type}

/-- What is found at the steps of a history, one after another. -/
def gather {S L E α : Type} (what : S → L → List α) (past : List (Moment S L E)) : List α :=
  past.flatMap fun m => what m.before m.label

@[simp] theorem gather_nil {S L E α : Type} (what : S → L → List α) :
    gather what ([] : List (Moment S L E)) = [] := rfl

theorem gather_concat {S L E α : Type} (what : S → L → List α) (past : List (Moment S L E)) (m : Moment S L E) :
    gather what (past ++ [m]) = gather what past ++ what m.before m.label := by
  simp [gather]

namespace Feed

/-- What a step writes. -/
def wrote (f : Feed V H R) (l : FeedLabel V H R) : List (Emission V) := (f.write? l).toList.map (·.emission)

theorem gather_wrote (past : List (Moment (Feed V H R) (FeedLabel V H R) (FeedEffect V))) :
    gather wrote past = (writes past).map (·.emission) := by
  induction past with
  | nil => rfl
  | cons m rest ih =>
    rw [writes_cons, List.map_append, ← ih]
    rfl

theorem wrote_eq_nil {f : Feed V H R} {l : FeedLabel V H R} (other : l ≠ .advance .write) : f.wrote l = [] := by
  rw [wrote, write?_eq_none other]
  rfl

variable [SignalValue V]

/-- The values that a pull takes from its payload. -/
def taken (f : Feed V H R) : FeedLabel V H R → List (Emission V)
  | .advance (.decoded outcome) =>
    match f.admissible outcome with
    | .ok values => values
    | .error _ => []
  | _ => []

/-- **The account of a pull**: what it has taken and written, by how far it has come. -/
def Account (past : List (Moment (Feed V H R) (FeedLabel V H R) (FeedEffect V))) (f : Feed V H R) : Prop :=
  match f.holder with
  | some (.querying _) | some (.decoding ..) => gather taken past = [] ∧ gather wrote past = gather pushed past
  | some (.seeding _ values) => gather taken past = values ∧ gather wrote past = gather pushed past
  | some (.writing _) =>
    ∃ done rest, f.writer = some ⟨none, rest, .none⟩ ∧ gather taken past = done ++ rest ∧
      gather wrote past = gather pushed past ++ done
  | _ => True

variable {f : Feed V H R} {l : FeedLabel V H R} {r : Result V H R}
  {past : List (Moment (Feed V H R) (FeedLabel V H R) (FeedEffect V))}

/-- A step that takes and writes nothing leaves the account as it is. -/
theorem Account.quiet (a : Account past f) (taken : f.taken l = []) (wrote : f.wrote l = [])
    (pushed : f.pushed l = []) (holder : r.state.holder = f.holder)
    (writer : r.state.writer = f.writer ∨ ∀ rest, f.writer ≠ some ⟨none, rest, .none⟩) :
    Account (past ++ [⟨f, l, r⟩]) r.state := by
  unfold Account at a ⊢
  rw [holder, gather_concat, gather_concat, gather_concat, taken, wrote, pushed, List.append_nil, List.append_nil,
    List.append_nil]
  split at a
  · exact a
  · exact a
  · exact a
  · obtain ⟨done, rest, held, a⟩ := a
    rcases writer with same | other
    · exact ⟨done, rest, same.trans held, a⟩
    · exact absurd held (other rest)
  · trivial

/-- A write keeps the account: a push writes before the pull does, or the pull writes its next value. -/
theorem Account.write (a : Account past f) (o : f.Orderly) {push : Option Nat} {e : Emission V}
    {rest : List (Emission V)} (writing : f.writer = some ⟨push, e :: rest, .none⟩)
    (holder : r.state.holder = f.holder) (writer : push = none → r.state.writer = some ⟨none, rest, .none⟩) :
    Account (past ++ [⟨f, .advance .write, r⟩]) r.state := by
  have wrote : f.wrote (.advance .write) = [e] := by
    rw [Feed.wrote, write?_of_writer writing]
    rfl
  have pushed : (∃ n, push = some n) → f.pushed (.advance .write) = [e] := by
    rintro ⟨n, rfl⟩
    rw [Feed.pushed, write?_of_writer writing]
  have byPush : (∀ purpose, f.holder ≠ some (.writing purpose)) → ∃ n, push = some n := by
    intro other
    cases push with
    | some n => exact ⟨n, rfl⟩
    | none =>
      obtain ⟨purpose, held⟩ := o.pulled _ writing rfl
      exact absurd held (other purpose)
  unfold Account at a ⊢
  rw [holder, gather_concat, gather_concat, gather_concat, wrote, show f.taken (.advance .write) = [] from rfl,
    List.append_nil]
  split at a
  · rename_i held
    rw [pushed (byPush fun _ eq => by cases held.symm.trans eq), a.2]
    exact ⟨a.1, rfl⟩
  · rename_i held
    rw [pushed (byPush fun _ eq => by cases held.symm.trans eq), a.2]
    exact ⟨a.1, rfl⟩
  · rename_i held
    rw [pushed (byPush fun _ eq => by cases held.symm.trans eq), a.2]
    exact ⟨a.1, rfl⟩
  · obtain ⟨done, todo, held, took, wrote⟩ := a
    obtain ⟨rfl, rfl⟩ : push = none ∧ e :: rest = todo := by simpa [writing] using held
    refine ⟨done ++ [e], rest, writer rfl, by simp [took], ?_⟩
    rw [wrote, Feed.pushed, write?_of_writer writing]
    simp
  · trivial

/-- **Every step keeps the account** of the pull that is under way. -/
theorem Account.step (a : Account past f) (pulls : f.pull?.isSome) (o : f.Orderly) (t : f.Transition l r) :
    Account (past ++ [⟨f, l, r⟩]) r.state := by
  have unpulled : f.pull? = none → Account (past ++ [⟨f, l, r⟩]) r.state := fun none => by
    rw [none] at pulls
    cases pulls
  have free : f.holder = none → Account (past ++ [⟨f, l, r⟩]) r.state := fun free =>
    unpulled (by rw [pull?, free]; rfl)
  have ends : r.state.holder = none → Account (past ++ [⟨f, l, r⟩]) r.state := fun free => by
    unfold Account
    rw [free]
    trivial
  cases t with
  | content free' | activate free' | deactivate free' | refresh free' | attach free' | subscribe free'
  | unknown free' | detach free' | detachLast free' | shutdown free' | dropLast _ _ free' => exact free free'
  | unregistered held | clear held | cleared held | clearedInactive held | withdraw held =>
    exact unpulled (by rw [pull?, held]; rfl)
  | retire retiring => exact unpulled (o.handled (Nat.add_eq_zero_iff.1 (o.unowned retiring)).1)
  | queryFailed | registerFailed | subscribed | activated | decodeFailed | settleRefresh => exact ends rfl
  | queried held =>
    unfold Account at a ⊢
    rw [held] at a
    rw [gather_concat, gather_concat, gather_concat]
    simpa [Feed.taken, Feed.wrote, Feed.pushed, write?] using a
  | decoded held admitted =>
    unfold Account at a ⊢
    rw [held] at a
    rw [gather_concat, gather_concat, gather_concat]
    simpa [Feed.taken, Feed.wrote, Feed.pushed, write?, admitted, a.1] using a.2
  | @seed purpose values held unheld =>
    unfold Account at a ⊢
    rw [held] at a
    rw [gather_concat, gather_concat, gather_concat]
    refine ⟨[], values, rfl, ?_⟩
    simpa [Feed.taken, Feed.wrote, Feed.pushed, write?] using a
  | write writing =>
    refine a.write o writing rfl ?_
    rintro rfl
    rfl
  | settle => trivial
  | look writing | post writing | settlePush writing | pushAccepted _ writing =>
    refine a.quiet rfl rfl rfl rfl (.inr fun rest pulled => ?_)
    cases writing.symm.trans pulled
  | _ => exact a.quiet rfl rfl rfl rfl (.inl rfl)

/-- When a pull lets go of the update lock, it has written what it took, after what pushes wrote. -/
theorem Account.written (a : Account past f) {purpose : Purpose H} (held : f.holder = some (.writing purpose))
    (writing : f.writer = some ⟨none, [], .none⟩) : gather wrote past = gather pushed past ++ gather taken past := by
  simp only [Account, held] at a
  obtain ⟨done, rest, writing', took, wrote⟩ := a
  obtain rfl : rest = [] := by simpa [writing] using writing'.symm
  rw [wrote, took, List.append_nil]

/-! ### Operations -/

/-- **An operation on a feed**, from a step of its own to the one that lets go of the state lock with an
answer. Other steps come in between. -/
inductive Finishes : Feed V H R → List (FeedLabel V H R) → Feed V H R → List (FeedEffect V) → Answer → Prop where
  /-- The operation lets go of the state lock. -/
  | last {f : Feed V H R} {l : FeedLabel V H R} {r : Result V H R} {a : Answer} (made : f.step l = some r)
      (free : r.state.holder = none) (answered : r.answer = some a) : Finishes f [l] r.state r.effects a
  /-- The state lock is held after the step. -/
  | more {f g : Feed V H R} {l : FeedLabel V H R} {r : Result V H R} {rest : List (FeedLabel V H R)}
      {es : List (FeedEffect V)} {a : Answer} (made : f.step l = some r) (busy : r.state.holder ≠ none)
      (onward : Finishes r.state rest g es a) : Finishes f (l :: rest) g (r.effects ++ es) a

theorem Finishes.run {labels : List (FeedLabel V H R)} {g : Feed V H R} {es : List (FeedEffect V)} {a : Answer}
    (fin : Finishes f labels g es a) : LazyHub.run Feed.step labels f = some (g, es) := by
  induction fin with
  | last made => exact run_singleton made
  | more made busy onward ih => exact run_cons.2 ⟨_, _, made, ih, rfl⟩

theorem Finishes.free {labels : List (FeedLabel V H R)} {g : Feed V H R} {es : List (FeedEffect V)} {a : Answer}
    (fin : Finishes f labels g es a) : g.holder = none := by
  induction fin with
  | last made free => exact free
  | more made busy onward ih => exact ih

/-- What the steps of an operation keep as long as it holds the state lock decides what comes of it. -/
theorem Finishes.account {P : List (Moment (Feed V H R) (FeedLabel V H R) (FeedEffect V)) → Feed V H R → Prop}
    {Q : List (Moment (Feed V H R) (FeedLabel V H R) (FeedEffect V)) → Feed V H R → Answer → Prop}
    (keeps : ∀ {past f l r}, P past f → f.step l = some r → r.state.holder ≠ none → P (past ++ [⟨f, l, r⟩]) r.state)
    (ends : ∀ {past f l r a}, P past f → f.step l = some r → r.state.holder = none → r.answer = some a →
      Q (past ++ [⟨f, l, r⟩]) r.state a)
    {labels : List (FeedLabel V H R)} {g : Feed V H R} {es : List (FeedEffect V)} {a : Answer}
    (fin : Finishes f labels g es a) (now : P past f) : Q (past ++ trail Feed.step labels f) g a := by
  induction fin generalizing past with
  | last made free answered =>
    rw [trail_cons made]
    exact ends now made free answered
  | more made busy onward ih =>
    rw [trail_cons made]
    simpa using ih (keeps now made busy)

end Feed

/-! ### A pull for the values alone -/

/-- The holder of the state lock pulls for the values alone. -/
def Section.Refreshes : Section V H R → Prop
  | .querying purpose | .decoding purpose _ | .seeding purpose _ | .writing purpose => purpose = .refresh
  | _ => False

namespace Feed

/-- A pull for the values alone is under way. -/
def IsRefreshing (f : Feed V H R) : Prop := ∃ s, f.holder = some s ∧ s.Refreshes

theorem IsRefreshing.pulls {f : Feed V H R} (h : f.IsRefreshing) : f.pull?.isSome := by
  obtain ⟨s, held, refreshes⟩ := h
  rw [pull?, held]
  cases s with
  | querying | decoding | seeding | writing => rfl
  | _ => exact refreshes.elim

theorem IsRefreshing.not_resting {f : Feed V H R} (h : f.IsRefreshing) : f.stage ≠ .resting := by
  obtain ⟨s, held, refreshes⟩ := h
  rw [stage, held]
  cases s with
  | querying | decoding | seeding | writing => exact Stage.noConfusion
  | clearing | registering | withdrawing | unregistering => exact refreshes.elim

variable [SignalValue V] {f : Feed V H R} {l : FeedLabel V H R} {r : Result V H R}
  {past : List (Moment (Feed V H R) (FeedLabel V H R) (FeedEffect V))}

theorem Transition.kind_eq (t : f.Transition l r) : r.state.kind = f.kind := by
  cases t <;> rfl

/-- A pull for the values alone stays that until it lets go of the state lock. -/
theorem Transition.isRefreshing (t : f.Transition l r) (o : f.Orderly) (h : f.IsRefreshing)
    (busy : r.state.holder ≠ none) : r.state.IsRefreshing := by
  have pulls := h.pulls
  obtain ⟨s, held, refreshes⟩ := h
  have other : ∀ {s'}, f.holder = s' → (∀ t, s' = some t → ¬ t.Refreshes) → r.state.IsRefreshing :=
    fun held' not => absurd refreshes (not s (held'.symm.trans held))
  have free : f.holder = none → r.state.IsRefreshing := fun free => other free nofun
  cases t with
  | content free' | activate free' | deactivate free' | refresh free' | attach free' | subscribe free'
  | unknown free' | detach free' | detachLast free' | shutdown free' | dropLast _ _ free' => exact free free'
  | registerFailed held' | subscribed held' | activated held' | unregistered held' | clear held' | cleared held'
  | clearedInactive held' | withdraw held' =>
    refine other held' ?_
    rintro t ⟨⟩
    exact id
  | retire retiring =>
    rw [o.handled (Nat.add_eq_zero_iff.1 (o.unowned retiring)).1] at pulls
    cases pulls
  | queryFailed | decodeFailed | settleRefresh => exact absurd rfl busy
  | queried held' | decoded held' | seed held' =>
    cases held.symm.trans held'
    exact ⟨_, rfl, refreshes⟩
  | settle held' more =>
    cases held.symm.trans held'
    exact absurd refreshes more
  | _ => exact ⟨s, held, refreshes⟩

/-- How a pull for the values alone stands to what it has done so far. -/
structure Refreshing (past : List (Moment (Feed V H R) (FeedLabel V H R) (FeedEffect V))) (f : Feed V H R) :
    Prop where
  /-- The feed is in order. -/
  orderly : f.Orderly
  /-- The feed is tidy. -/
  tidy : f.Tidy
  /-- The pull is under way. -/
  refreshes : f.IsRefreshing
  /-- What was said begins a round. -/
  begun : f.stage.Begun (past.flatMap events)
  /-- What was written. -/
  account : Account past f

theorem Refreshing.step (h : Refreshing past f) (t : f.Transition l r) (busy : r.state.holder ≠ none) :
    Refreshing (past ++ [⟨f, l, r⟩]) r.state := by
  have refreshes := t.isRefreshing h.orderly h.refreshes busy
  refine ⟨h.orderly.step t, h.tidy.step h.orderly t, refreshes, ?_, h.account.step h.refreshes.pulls h.orderly t⟩
  have moves := t.moves h.orderly h.tidy
  rw [List.flatMap_append, List.flatMap_singleton]
  generalize events ⟨f, l, r⟩ = said at moves
  cases moves with
  | still same =>
    rw [List.append_nil, same]
    exact h.begun
  | next next => exact (next.begun h.begun).resolve_right fun ended => refreshes.not_resting ended.1
  | ended _ resting => exact absurd resting refreshes.not_resting

/-- **What comes of a pull for the values alone.** -/
inductive Refreshed (kind : Kind) (past : List (Moment (Feed V H R) (FeedLabel V H R) (FeedEffect V))) :
    Answer → Prop where
  /-- The query failed, and pushes alone wrote meanwhile. -/
  | queryFailed {failure : ProviderFailure}
      (said : past.flatMap events = [.asked .query, .heard (.queried (.error failure))])
      (written : gather wrote past = gather pushed past) : Refreshed kind past (.failed (.queryFailed kind failure))
  /-- The decoding failed, and pushes alone wrote meanwhile. -/
  | decodeFailed {payload : R} {failure : DecodeFailure}
      (said : past.flatMap events = [.asked .query, .heard (.queried (.ok payload)), .decoded (.error failure)])
      (written : gather wrote past = gather pushed past) : Refreshed kind past (.failed (.decodeFailed kind failure))
  /-- The values were written, after what pushes wrote meanwhile. -/
  | pulled {payload : R} (said : past.flatMap events = LazyHub.pulled payload)
      (written : gather wrote past = gather pushed past ++ gather taken past) : Refreshed kind past .done

theorem Refreshing.ends (h : Refreshing past f) (t : f.Transition l r) (free : r.state.holder = none) {a : Answer}
    (answered : r.answer = some a) :
    Refreshed f.kind (past ++ [⟨f, l, r⟩]) a ∧ r.state.registration = none := by
  have inactive := h.orderly.inactive h.refreshes.pulls
  obtain ⟨s, held, refreshes⟩ := h.refreshes
  have begun := h.begun
  have account := h.account
  have same : ∀ {what : Feed V H R → FeedLabel V H R → List (Emission V)}, what f l = [] →
      gather what (past ++ [⟨f, l, r⟩]) = gather what past := fun none => by
    rw [gather_concat, none, List.append_nil]
  have other : ∀ {s'}, f.holder = s' → (∀ t, s' = some t → ¬ t.Refreshes) → False :=
    fun held' not => not s (held'.symm.trans held) refreshes
  have busy : r.state.holder = f.holder → False := fun same => by
    cases (same.symm.trans free).symm.trans held
  cases t with
  | content _ _ | attach | unknown | detach | invokeUnowned | invoke | write | look | post | settlePush | pushRefused
  | pushDecoded | pushAccepted | pushStale | leave | clone | drop => exact (busy rfl).elim
  | activate | deactivate | refresh | subscribe | detachLast | shutdown | queried | decoded | seed | settle | clear
  | cleared | withdraw | retire | dropLast => cases free
  | registerFailed held' | subscribed held' | activated held' | unregistered held' | clearedInactive held' =>
    refine (other held' ?_).elim
    rintro t ⟨⟩
    exact id
  | queryFailed held' =>
    cases answered
    rw [stage, held'] at begun
    simp only [Account, held'] at account
    generalize whole : past.flatMap events = said at begun
    cases begun
    refine ⟨.queryFailed ?_ ?_, inactive⟩
    · rw [List.flatMap_append, List.flatMap_singleton, whole]
      rfl
    · rw [same rfl, same rfl]
      exact account.2
  | decodeFailed held' refused =>
    cases answered
    rw [stage, held'] at begun
    simp only [Account, held'] at account
    generalize whole : past.flatMap events = said at begun
    cases begun
    rename_i payload
    refine ⟨.decodeFailed (?_ : _ = [.asked .query, Event.heard (.queried (.ok payload)), _]) ?_, inactive⟩
    · rw [List.flatMap_append, List.flatMap_singleton, whole]
      simp only [events, heard, refused]
      rfl
    · rw [same rfl, same rfl]
      exact account.2
  | settleRefresh held' writing =>
    cases answered
    rw [stage, held'] at begun
    have written := account.written held' writing
    generalize whole : past.flatMap events = said at begun
    cases begun
    rename_i payload
    refine ⟨.pulled (?_ : _ = LazyHub.pulled payload) ?_, inactive⟩
    · rw [List.flatMap_append, List.flatMap_singleton, whole]
      rfl
    · rw [same rfl, same rfl, same rfl, written]

theorem Transition.refreshing (t : f.Transition (.enter .refresh) r) (o : f.Orderly) (h : f.Tidy)
    (inactive : f.registration = none) :
    r.state.holder ≠ none ∧ Refreshing [⟨f, .enter .refresh, r⟩] r.state ∧ r.state.kind = f.kind ∧
      r = { state := { f with holder := some (.querying .refresh) }, effects := [.asked .query] } := by
  have order := o.step t
  have tidy := h.step o t
  cases t with
  | content _ _ content =>
    simp only [IsContent, isActive, inactive] at content
    cases content
  | refresh => exact ⟨by simp, ⟨order, tidy, ⟨_, rfl, rfl⟩, .querying, rfl, rfl⟩, rfl, rfl⟩

/-- **A pull for the values alone** leaves the feed inactive, and has its outcome. -/
theorem refreshed_of_finishes (o : f.Orderly) (h : f.Tidy) (inactive : f.registration = none)
    {rest : List (FeedLabel V H R)} {g : Feed V H R} {es : List (FeedEffect V)} {a : Answer}
    (fin : Finishes f (.enter .refresh :: rest) g es a) :
    g.registration = none ∧ Refreshed f.kind (trail Feed.step (.enter .refresh :: rest) f) a := by
  cases fin with
  | last made free => exact absurd free ((transition_of_step made).refreshing o h inactive).1
  | more made busy onward =>
    obtain ⟨-, refreshing, kind, -⟩ := (transition_of_step made).refreshing o h inactive
    rw [trail_cons made, ← kind, ← List.singleton_append]
    refine onward.account (P := fun past g => Refreshing past g ∧ g.kind = _)
      (Q := fun past g a => g.registration = none ∧ Refreshed _ past a) ?_ ?_ ⟨refreshing, rfl⟩
    · rintro past f' l r ⟨h, eq⟩ made busy
      have t := transition_of_step made
      exact ⟨h.step t busy, t.kind_eq.trans eq⟩
    · rintro past f' l r a ⟨h, eq⟩ made free answered
      obtain ⟨refreshed, inactive⟩ := h.ends (transition_of_step made) free answered
      exact ⟨inactive, eq ▸ refreshed⟩

/-! ### What a pull for the values alone leaves alone -/

/-- A step of an operation that a client has entered the feed for, as opposed to those of pushes and of the
pool. -/
def ByHolder (f : Feed V H R) : FeedLabel V H R → Prop
  | .enter _ | .hear _ | .advance (.decoded _) | .advance .seed | .advance .clear | .advance .withdraw => True
  | .advance .write | .advance .settle => ∃ w, f.writer = some w ∧ w.push = none
  | _ => False

/-- A step changes nothing in the feed but its caches and locks, and owes nobody anything. -/
def OnlyCaches (f : Feed V H R) (r : Result V H R) : Prop :=
  (∃ outlets holder writer, r.state = { f with outlets, holder, writer } ∧
    outlets.map (·.key) = f.outlets.map (·.key) ∧
    outlets.map (·.subscribers) = f.outlets.map (·.subscribers)) ∧
  ∀ signal value, .owed signal value ∉ r.effects

omit [SignalValue V] in
theorem OnlyCaches.of_locks {f : Feed V H R} {holder : Option (Section V H R)} {writer : Option (Writer V)}
    {effects : List (FeedEffect V)} {answer : Option Answer} (unowed : ∀ signal value, .owed signal value ∉ effects) :
    OnlyCaches f { state := { f with holder, writer }, effects, answer } :=
  ⟨⟨f.outlets, holder, writer, rfl, rfl, rfl⟩, unowed⟩

/-- **A pull for the values alone changes nothing but the caches and locks.** -/
theorem Transition.onlyCaches (t : f.Transition l r) (h : f.IsRefreshing) (byHolder : f.ByHolder l) :
    OnlyCaches f r ∧ ∀ request, l ≠ .enter request := by
  obtain ⟨s, held, refreshes⟩ := h
  have other : ∀ {s'}, f.holder = s' → (∀ t, s' = some t → ¬ t.Refreshes) → OnlyCaches f r ∧ ∀ request, l ≠ .enter request :=
    fun held' not => absurd refreshes (not s (held'.symm.trans held))
  have free : f.holder = none → OnlyCaches f r ∧ ∀ request, l ≠ .enter request := fun free => other free nofun
  cases t with
  | content free' | activate free' | deactivate free' | refresh free' | attach free' | subscribe free'
  | unknown free' | detach free' | detachLast free' | shutdown free' | dropLast _ _ free' => exact free free'
  | registerFailed held' | subscribed held' | activated held' | unregistered held' | clear held' | cleared held'
  | clearedInactive held' | withdraw held' =>
    refine other held' ?_
    rintro t ⟨⟩
    exact id
  | settle held' more =>
    cases held.symm.trans held'
    exact absurd refreshes more
  | settlePush writing =>
    obtain ⟨w, writing', pulls⟩ := byHolder
    cases writing.symm.trans writing'
    cases pulls
  | queryFailed | queried | decodeFailed | decoded | seed | settleRefresh =>
    exact ⟨.of_locks (by simp), nofun⟩
  | @write push e rest writing =>
    have gated : ∀ {α : Type} (what : Outlet V H → α), (∀ o gate, what { o with gate } = what o) →
        (f.writeGate e).outlets.map what = f.outlets.map what :=
      fun what same => map_modifyFirst (fun o => same o _) ..
    exact ⟨⟨⟨_, f.holder, _, rfl, gated _ fun _ _ => rfl, gated _ fun _ _ => rfl⟩, by simp⟩, nofun⟩
  | invokeUnowned | invoke | look | post | pushRefused | pushDecoded | pushAccepted | pushStale | leave | retire
  | clone | drop => exact byHolder.elim

/-- A step is not the pull's own, or it changes nothing but the caches and locks. -/
def IsDiscreet (m : Moment (Feed V H R) (FeedLabel V H R) (FeedEffect V)) : Prop :=
  m.before.ByHolder m.label →
    OnlyCaches m.before m.after ∧ ∀ request, m.label = .enter request → request = .refresh

/-- In the course of a pull for the values alone, its own steps change nothing but the caches and locks. -/
theorem isDiscreet_of_finishes (o : f.Orderly) (h : f.Tidy) (inactive : f.registration = none)
    {rest : List (FeedLabel V H R)} {g : Feed V H R} {es : List (FeedEffect V)} {a : Answer}
    (fin : Finishes f (.enter .refresh :: rest) g es a) :
    ∀ m ∈ trail Feed.step (.enter .refresh :: rest) f, IsDiscreet m := by
  have keeps : ∀ {past : List (Moment (Feed V H R) (FeedLabel V H R) (FeedEffect V))} {f l r},
      Refreshing past f → (∀ m ∈ past, IsDiscreet m) → f.step l = some r → ∀ m ∈ past ++ [⟨f, l, r⟩], IsDiscreet m := by
    intro past f l r refreshing all made m mem
    rcases List.mem_append.1 mem with mem | mem
    · exact all m mem
    · obtain rfl := List.mem_singleton.1 mem
      intro byHolder
      obtain ⟨only, unentered⟩ := (transition_of_step made).onlyCaches refreshing.refreshes byHolder
      exact ⟨only, fun request eq => absurd eq (unentered request)⟩
  cases fin with
  | last made free => exact absurd free ((transition_of_step made).refreshing o h inactive).1
  | more made busy onward =>
    obtain ⟨-, refreshing, -, rfl⟩ := (transition_of_step made).refreshing o h inactive
    rw [trail_cons made, ← List.singleton_append]
    refine onward.account (P := fun past g => Refreshing past g ∧ ∀ m ∈ past, IsDiscreet m)
      (Q := fun past _ _ => ∀ m ∈ past, IsDiscreet m)
      (fun now made busy => ⟨now.1.step (transition_of_step made) busy, keeps now.1 now.2 made⟩)
      (fun now made _ _ => keeps now.1 now.2 made) ⟨refreshing, ?_⟩
    intro m mem
    obtain rfl := List.mem_singleton.1 mem
    exact fun _ => ⟨.of_locks (by simp), fun request eq => by cases eq; rfl⟩

end Feed

end LazyHub
