import LazyHub.Proofs.Feed.Lifetime
import LazyHub.Proofs.Feed.Writes

/-!
# Pushes and the update lock

A push goes through its phases in one direction (`Transition.hasReached`). It writes while it holds
the update lock and at no other time, so a push that is letting go of the feed writes nothing more
(`writesBy_of_isThrough`). Whoever holds the update lock writes its values one after another and
nobody else writes meanwhile (`writes_of_writing`).
-/

namespace LazyHub

variable {V H R : Type}

/-- How far a phase of a push is along. -/
def PushPhase.rank : PushPhase V R → Nat
  | .decoding _ => 0
  | .ready _ => 1
  | .writing => 2
  | .leaving => 3

/-- How many steps the holder of the update lock makes at most before it lets go of it. -/
def Writer.left (w : Writer V) : Nat :=
  3 * w.rest.length +
    match w.news with
    | .none => 0
    | .wanted _ => 1
    | .fresh _ => 2

theorem Writer.eq_of_left {w : Writer V} (done : w.left = 0) : w = ⟨w.push, [], .none⟩ := by
  obtain ⟨push, rest, news⟩ := w
  cases news with
  | none => simpa [left] using done
  | fresh | wanted => simp [left] at done

/-- The values that a push wrote, out of some writes. -/
def writesBy (number : Nat) (ws : List (Write V)) : List (Emission V) :=
  ws.filterMap fun w => if w.push = some number then some w.emission else none

theorem writesBy_append (number : Nat) (xs ys : List (Write V)) :
    writesBy number (xs ++ ys) = writesBy number xs ++ writesBy number ys := List.filterMap_append

theorem writesBy_of_map {number : Nat} {ws : List (Write V)} {done : List (Emission V)}
    (wrote : ws.map (fun w => (w.push, w.emission)) = done.map (some number, ·)) :
    writesBy number ws = done := by
  induction ws generalizing done with
  | nil => exact (List.map_eq_nil_iff.1 wrote.symm).symm
  | cons w rest ih =>
    cases done with
    | nil => cases wrote
    | cons e done =>
      simp only [List.map_cons, List.cons.injEq, Prod.mk.injEq] at wrote
      obtain ⟨⟨by', rfl⟩, wrote⟩ := wrote
      have := ih wrote
      simp only [writesBy] at this
      simp [writesBy, by', this]

namespace Feed

/-- The push with a number has come at least so far. Its number was given away, and if it is still
under way its phase is not an earlier one. -/
def HasReached (f : Feed V H R) (number rank : Nat) : Prop :=
  number < f.pushCount ∧ ∀ p ∈ f.pushes, p.number = number → rank ≤ p.phase.rank

/-- The push with a number is letting go of the feed, or has done so. -/
def IsThrough (f : Feed V H R) (number : Nat) : Prop :=
  f.HasReached number 3 ∧ ∀ w, f.writer = some w → w.push ≠ some number

theorem mem_of_push? {f : Feed V H R} {number : Nat} {p : Push V R} (h : f.push? number = some p) :
    p ∈ f.pushes ∧ p.number = number :=
  ⟨List.mem_of_find?_eq_some h, number_of_push? h⟩

theorem mem_setPhase {f : Feed V H R} {number : Nat} {phase : PushPhase V R} {p' : Push V R}
    (h : p' ∈ (f.setPhase number phase).pushes) :
    ∃ p ∈ f.pushes, p' = if p.number = number then { p with phase } else p := by
  obtain ⟨p, hp, rfl⟩ := List.mem_map.1 h
  exact ⟨p, hp, rfl⟩

theorem hasReached_setPhase {f : Feed V H R} {number other rank : Nat} {phase : PushPhase V R}
    (h : f.HasReached number rank) (later : other = number → rank ≤ phase.rank) :
    (f.setPhase other phase).HasReached number rank := by
  refine ⟨h.1, ?_⟩
  intro p' hp' named
  obtain ⟨q, hq, rfl⟩ := mem_setPhase hp'
  split at named
  · rename_i eq
    rw [if_pos eq]
    exact later (eq.symm.trans named)
  · rename_i ne
    rw [if_neg ne]
    exact h.2 q hq named

theorem HasReached.le_of_push? {f : Feed V H R} {number rank : Nat} {p : Push V R}
    (h : f.HasReached number rank) (known : f.push? number = some p) : rank ≤ p.phase.rank :=
  h.2 p (mem_of_push? known).1 (mem_of_push? known).2

theorem reaches_setPhase {f : Feed V H R} {number : Nat} (phase : PushPhase V R)
    (given : number < f.pushCount) : (f.setPhase number phase).HasReached number phase.rank := by
  refine ⟨given, ?_⟩
  intro p' hp' named
  obtain ⟨q, hq, rfl⟩ := mem_setPhase hp'
  split at named
  · rename_i eq
    exact Nat.le_of_eq (by rw [if_pos eq])
  · rename_i ne
    exact absurd named ne

theorem HasReached.mono {f : Feed V H R} {number m n : Nat} (h : f.HasReached number n) (le : m ≤ n) :
    f.HasReached number m :=
  ⟨h.1, fun p hp named => Nat.le_trans le (h.2 p hp named)⟩

theorem push?_setPhase_of_ne {f : Feed V H R} {number other : Nat} (phase : PushPhase V R)
    (ne : other ≠ number) : (f.setPhase other phase).push? number = f.push? number := by
  unfold push? setPhase
  induction f.pushes with
  | nil => rfl
  | cons p rest ih =>
    by_cases named : p.number = number
    · simp [named, Ne.symm ne]
    · by_cases named' : p.number = other
      · simp only [List.map_cons, named', if_true, List.find?_cons, ne, decide_false]
        exact ih
      · simp only [List.map_cons, named', if_false, List.find?_cons, named, decide_false]
        exact ih

theorem push?_filter_of_ne {pushes : List (Push V R)} {number other : Nat} (ne : number ≠ other) :
    (pushes.filter (·.number ≠ other)).find? (·.number = number) = pushes.find? (·.number = number) := by
  rw [List.find?_filter]
  congr 1
  funext p
  by_cases named : p.number = number <;> simp [named, ne]

theorem push?_setPhase_self {f : Feed V H R} {number epoch : Nat} {phase : PushPhase V R}
    (next : PushPhase V R) (known : f.push? number = some ⟨number, epoch, phase⟩) :
    (f.setPhase number next).push? number = some ⟨number, epoch, next⟩ := by
  unfold push? at known ⊢
  unfold setPhase
  rw [List.find?_map]
  have same : ((fun p : Push V R => decide (p.number = number)) ∘ fun p =>
      if p.number = number then { p with phase := next } else p) = fun p => decide (p.number = number) := by
    funext p
    by_cases named : p.number = number <;> simp [named]
  rw [same, known]
  simp

variable [SignalValue V] {f : Feed V H R} {l : FeedLabel V H R} {r : Result V H R}

/-! ### Phases -/

theorem Transition.pushCount_le (t : f.Transition l r) : f.pushCount ≤ r.state.pushCount := by
  cases t with
  | invoke => exact Nat.le_succ _
  | _ => exact Nat.le_refl _

/-- **A push never goes back.** -/
theorem Transition.hasReached (t : f.Transition l r) {number rank : Nat} (h : f.HasReached number rank)
    (le : rank ≤ 3) : r.state.HasReached number rank := by
  cases t with
  | invoke given owned =>
    refine ⟨Nat.lt_succ_of_lt h.1, ?_⟩
    intro p hp named
    rcases List.mem_append.1 hp with hp | hp
    · exact h.2 p hp named
    · rw [List.mem_singleton.1 hp] at named
      exact absurd h.1 (by simp [← named])
  | settlePush => exact hasReached_setPhase (f := { f with writer := none }) h fun _ => le
  | pushRefused | pushStale => exact hasReached_setPhase h fun _ => le
  | pushDecoded known =>
    refine hasReached_setPhase h ?_
    rintro rfl
    exact Nat.le_trans (h.le_of_push? known) (Nat.zero_le _)
  | pushAccepted known =>
    refine hasReached_setPhase h ?_
    rintro rfl
    exact Nat.le_trans (h.le_of_push? known) (Nat.le_succ 1)
  | leave => exact ⟨h.1, fun p hp named => h.2 p (List.mem_of_mem_filter hp) named⟩
  | _ => exact h

/-! ### The update lock -/

/-- A push that holds the update lock after a step held it before, or has just taken it. -/
theorem Transition.locked (t : f.Transition l r) {number : Nat} {w : Writer V}
    (writing : r.state.writer = some w) (by' : w.push = some number) :
    (∃ w', f.writer = some w' ∧ w'.push = some number) ∨
      f.writer = none ∧ f.push? number = some ⟨number, f.epoch, .ready w.rest⟩ ∧
        l = .advance (.enter number) := by
  cases t with
  | settlePush | settleRefresh | settle => cases writing
  | seed =>
    cases writing
    cases by'
  | write writing' | look writing' | post writing' =>
    cases writing
    exact .inl ⟨_, writing', by'⟩
  | pushAccepted known free =>
    cases writing
    cases by'
    exact .inr ⟨free, known, rfl⟩
  | _ => exact .inl ⟨w, writing, by'⟩

/-- A push that has come to the update lock is past waiting for it. -/
theorem Transition.entered {number : Nat} (t : f.Transition (.advance (.enter number)) r)
    (given : number < f.pushCount) : r.state.HasReached number 2 := by
  cases t with
  | pushAccepted => exact reaches_setPhase .writing given
  | pushStale => exact (reaches_setPhase .leaving given).mono (Nat.le_succ 2)

/-- A push that has been given the update lock is writing. -/
theorem Transition.accepts {number epoch : Nat} {values : List (Emission V)} {w : Writer V}
    (t : f.Transition (.advance (.enter number)) r) (free : f.writer = none)
    (known : f.push? number = some ⟨number, epoch, .ready values⟩) (writing : r.state.writer = some w) :
    r.state.push? number = some ⟨number, epoch, .writing⟩ := by
  cases t with
  | pushAccepted => exact push?_setPhase_self _ known
  | pushStale =>
    cases free.symm.trans writing

/-- Whoever holds the update lock and has something left to do can do it. -/
theorem exists_step_of_writer {w : Writer V} (writing : f.writer = some w) (busy : w.left ≠ 0) :
    ∃ move r w', move ≠ .settle ∧ f.step (.advance move) = some r ∧ r.state.writer = some w' ∧
      w'.push = w.push ∧ w'.left < w.left ∧ r.state.holder = f.holder := by
  obtain ⟨push, rest, news⟩ := w
  cases news with
  | none =>
    cases rest with
    | nil => exact absurd rfl busy
    | cons e rest =>
      refine ⟨.write, _, ⟨push, rest, if push.isSome && f.isChange e then .fresh e else .none⟩, by simp,
        by simp only [Feed.step, advance, writing]; rfl, rfl, rfl, ?_, rfl⟩
      by_cases change : push.isSome && f.isChange e <;> simp [change, Writer.left]
      omega
  | fresh e =>
    refine ⟨.look, _, ⟨push, rest, if f.isWatched e.signal then .wanted e else .none⟩, by simp,
      by simp only [Feed.step, advance, writing]; rfl, rfl, rfl, ?_, rfl⟩
    by_cases watched : f.isWatched e.signal <;> simp [watched, Writer.left]
  | wanted e =>
    exact ⟨.post, _, ⟨push, rest, .none⟩, by simp, by simp only [Feed.step, advance, writing]; rfl, rfl, rfl,
      by simp [Writer.left], rfl⟩

/-- While somebody holds the update lock, only its values are written. -/
theorem Transition.writer_eq (t : f.Transition l r) {push : Option Nat} {values : List (Emission V)}
    {news : News V} (writing : f.writer = some ⟨push, values, news⟩) (open' : l ≠ .advance .settle) :
    ∃ done rest news', values = done ++ rest ∧ r.state.writer = some ⟨push, rest, news'⟩ ∧
      (f.write? l).toList.map (fun w => (w.push, w.emission)) = done.map (push, ·) := by
  have idle : ∀ news', l ≠ .advance .write → r.state.writer = some ⟨push, values, news'⟩ →
      ∃ done rest news', values = done ++ rest ∧ r.state.writer = some ⟨push, rest, news'⟩ ∧
        (f.write? l).toList.map (fun w => (w.push, w.emission)) = done.map (push, ·) :=
    fun news' other same => ⟨[], values, news', rfl, same, by rw [write?_eq_none other]; rfl⟩
  cases t with
  | @write _ e rest writing' =>
    obtain ⟨rfl, rfl, rfl⟩ : push = _ ∧ values = e :: rest ∧ news = .none := by simpa [writing'] using writing.symm
    exact ⟨[e], rest, _, rfl, rfl, by rw [write?_of_writer writing]; rfl⟩
  | @look _ e _ writing' | @post _ e _ writing' =>
    cases writing'.symm.trans writing
    exact idle _ nofun rfl
  | seed _ free | pushAccepted _ free =>
    rw [free] at writing
    cases writing
  | settlePush | settleRefresh | settle => exact absurd rfl open'
  | _ => exact idle news nofun writing

/-- A push that is letting go of the feed stays at it, and writes and posts nothing. -/
theorem Transition.isThrough (t : f.Transition l r) {number : Nat} (h : f.IsThrough number) :
    r.state.IsThrough number ∧ writesBy number (f.write? l).toList = [] ∧
      writesBy number (f.post? l).toList = [] := by
  refine ⟨⟨t.hasReached h.1 (Nat.le_refl 3), fun w writing by' => ?_⟩, ?_, ?_⟩
  · rcases t.locked writing by' with ⟨w', writing, by'⟩ | ⟨-, known, -⟩
    · exact h.2 w' writing by'
    · exact absurd (h.1.le_of_push? known) (by simp [PushPhase.rank])
  · by_cases written : l = .advance .write
    · subst written
      cases t with
      | @write push e rest writing =>
        have other : push ≠ some number := h.2 _ writing
        rw [write?_of_writer writing]
        simp [writesBy, other]
    · rw [write?_eq_none written]
      rfl
  · by_cases posted : l = .advance .post
    · subst posted
      cases t with
      | @post push e rest posting =>
        have other : push ≠ some number := h.2 _ posting
        rw [post?_of_writer posting]
        simp [writesBy, other]
    · rw [post?_eq_none posted]
      rfl

/-! ### Runs -/

section Run

variable {labels : List (FeedLabel V H R)} {f k : Feed V H R} {es : List (FeedEffect V)}

/-- **A push that is letting go of the feed writes and posts nothing more.** -/
theorem writesBy_of_isThrough (ran : run Feed.step labels f = some (k, es)) {number : Nat}
    (h : f.IsThrough number) :
    k.IsThrough number ∧ writesBy number (writes (trail Feed.step labels f)) = [] ∧
      writesBy number (posts (trail Feed.step labels f)) = [] := by
  induction labels generalizing f es with
  | nil =>
    cases ran
    exact ⟨h, rfl, rfl⟩
  | cons l rest ih =>
    obtain ⟨r, later, made, onward, rfl⟩ := run_cons.1 ran
    obtain ⟨through, unwritten, unposted⟩ := (transition_of_step made).isThrough h
    obtain ⟨through, nothing, silent⟩ := ih onward through
    rw [trail_cons made, writes_cons, posts_cons, writesBy_append, writesBy_append, unwritten, unposted,
      nothing, silent]
    exact ⟨through, rfl, rfl⟩

/-- **While the update lock is held**, its holder writes its values one after another, and nobody else
writes. -/
theorem writes_of_writing (ran : run Feed.step labels f = some (k, es)) {push : Option Nat}
    {values : List (Emission V)} {news : News V} (writing : f.writer = some ⟨push, values, news⟩)
    (held : .advance .settle ∉ labels) :
    ∃ done rest news', values = done ++ rest ∧ k.writer = some ⟨push, rest, news'⟩ ∧
      (writes (trail Feed.step labels f)).map (fun w => (w.push, w.emission)) = done.map (push, ·) := by
  induction labels generalizing f es values news with
  | nil =>
    cases ran
    exact ⟨[], values, news, rfl, writing, rfl⟩
  | cons l rest ih =>
    obtain ⟨r, later, made, onward, rfl⟩ := run_cons.1 ran
    simp only [List.mem_cons, not_or] at held
    obtain ⟨first, left, news, rfl, writing, wrote⟩ :=
      (transition_of_step made).writer_eq writing (Ne.symm held.1)
    obtain ⟨second, left, news, rfl, writing, wrote'⟩ := ih onward writing held.2
    refine ⟨first ++ second, left, news, by simp, writing, ?_⟩
    rw [trail_cons made, writes_cons, List.map_append, wrote, wrote', List.map_append]

end Run

/-! ### Locks, pushes and handles -/

/-- **What holds of every feed**: who may hold a lock, and what cannot be once nobody has a handle. -/
structure Orderly (f : Feed V H R) : Prop where
  /-- Pushes have the numbers given away so far. -/
  numbered : ∀ p ∈ f.pushes, p.number < f.pushCount
  /-- A push that holds the update lock is writing. -/
  locked : ∀ number w, f.writer = some w → w.push = some number →
    f.HasReached number 2 ∧ ∃ epoch, f.push? number = some ⟨number, epoch, .writing⟩
  /-- If no push holds the update lock, the holder of the state lock does. -/
  pulled : ∀ w, f.writer = some w → w.push = none → ∃ purpose, f.holder = some (.writing purpose)
  /-- A change that is not dealt with yet is in the hands of a push. -/
  carried : ∀ e ∈ f.news, ∃ w number, f.writer = some w ∧ w.push = some number
  /-- A change that is not dealt with yet is what its signal's cache holds. -/
  shown : ∀ e ∈ f.news, f.cached? e.signal = some e.value
  /-- Only an inactive feed is pulled. -/
  inactive : f.pull?.isSome → f.registration = none
  /-- Nobody pulls who has no handle. -/
  handled : f.handles = 0 → f.pull? = none
  /-- What is left for the pool to end has no owner. -/
  unowned : f.retiring = true → f.owners = 0

omit [SignalValue V] in
theorem orderly_ofPlan (plan : FeedPlan V) : (ofPlan plan : Feed V H R).Orderly where
  numbered := nofun
  locked := nofun
  pulled := nofun
  carried := nofun
  shown := nofun
  inactive := nofun
  handled := nofun
  unowned := nofun

section Orderly

variable (h : f.Orderly)
include h

theorem Transition.numbered (t : f.Transition l r) : ∀ p ∈ r.state.pushes, p.number < r.state.pushCount := by
  have moved : ∀ {number : Nat} {phase : PushPhase V R}, ∀ p ∈ (f.setPhase number phase).pushes,
      p.number < f.pushCount := by
    intro number phase p' hp'
    obtain ⟨p, hp, rfl⟩ := mem_setPhase hp'
    split <;> exact h.numbered p hp
  cases t with
  | invoke given owned =>
    intro p hp
    rcases List.mem_append.1 hp with hp | hp
    · exact Nat.lt_succ_of_lt (h.numbered p hp)
    · rw [List.mem_singleton.1 hp]
      exact Nat.lt_succ_self _
  | settlePush | pushRefused | pushDecoded | pushAccepted | pushStale => exact moved
  | leave => exact fun p hp => h.numbered p (List.mem_of_mem_filter hp)
  | _ => exact h.numbered

/-- What is known of a push stays so until a step of its own. -/
theorem Transition.push?_eq (t : f.Transition l r) {number epoch : Nat} {phase : PushPhase V R}
    (known : f.push? number = some ⟨number, epoch, phase⟩) :
    r.state.push? number = some ⟨number, epoch, phase⟩ ∨
      (∃ payload, phase = .decoding payload) ∧ (∃ outcome, l = .advance (.pushDecoded number outcome)) ∨
      (∃ values, phase = .ready values) ∧ l = .advance (.enter number) ∨
      phase = .writing ∧ l = .advance .settle ∨
      phase = .leaving ∧ l = .advance (.leave number) := by
  have elsewhere : ∀ {n : Nat} {next : PushPhase V R}, n ≠ number →
      (f.setPhase n next).push? number = some ⟨number, epoch, phase⟩ := fun ne =>
    (push?_setPhase_of_ne _ ne).trans known
  have same : ∀ {p : Push V R}, f.push? number = some p → phase = p.phase := fun known' => by
    rw [known] at known'
    cases known'
    rfl
  cases t with
  | invoke =>
    left
    rw [push?] at known
    rw [push?, List.find?_append, known]
    rfl
  | @settlePush n writing =>
    by_cases eq : n = number
    · subst eq
      obtain ⟨-, epoch', writes⟩ := h.locked n _ writing rfl
      exact .inr (.inr (.inr (.inl ⟨same writes, rfl⟩)))
    · left
      change (f.setPhase n .leaving).push? number = _
      exact elsewhere eq
  | @pushRefused n _ payload outcome _ known' | @pushDecoded n _ payload outcome _ known' =>
    by_cases eq : n = number
    · subst eq
      exact .inr (.inl ⟨⟨payload, same known'⟩, outcome, rfl⟩)
    · exact .inl (elsewhere eq)
  | @pushAccepted n values known' | @pushStale n _ values known' =>
    by_cases eq : n = number
    · subst eq
      exact .inr (.inr (.inl ⟨⟨values, same known'⟩, rfl⟩))
    · exact .inl (elsewhere eq)
  | @leave n _ known' =>
    by_cases eq : n = number
    · subst eq
      exact .inr (.inr (.inr (.inr ⟨same known', rfl⟩)))
    · exact .inl ((push?_filter_of_ne (Ne.symm eq)).trans known)
  | _ => exact .inl known

/-- A push that holds the update lock stays what it is until it lets go of the lock. -/
theorem Transition.writes_on (t : f.Transition l r) {number epoch : Nat} {w : Writer V}
    (known : f.push? number = some ⟨number, epoch, .writing⟩) (writing : r.state.writer = some w) :
    r.state.push? number = some ⟨number, epoch, .writing⟩ := by
  refine (t.push?_eq h known).resolve_right ?_
  rintro (⟨⟨_, eq⟩, -⟩ | ⟨⟨_, eq⟩, -⟩ | ⟨-, rfl⟩ | ⟨eq, -⟩)
  · cases eq
  · cases eq
  · cases t <;> cases writing
  · cases eq

theorem Transition.pulled (t : f.Transition l r) (w : Writer V) (writing : r.state.writer = some w)
    (pulls : w.push = none) : ∃ purpose, r.state.holder = some (.writing purpose) := by
  cases t with
  | @seed purpose => exact ⟨purpose, rfl⟩
  | settlePush | settleRefresh | settle => cases writing
  | pushAccepted =>
    cases writing
    cases pulls
  | write writing' | look writing' | post writing' =>
    cases writing
    exact h.pulled _ writing' pulls
  | activate free | deactivate free | refresh free | subscribe free | detachLast free | shutdown free
  | dropLast _ _ free =>
    obtain ⟨purpose, held⟩ := h.pulled w writing pulls
    rw [free] at held
    cases held
  | queryFailed held' | queried held' | registerFailed held' | subscribed held' | activated held'
  | unregistered held' | decodeFailed held' | decoded held' | clear held' | cleared held'
  | clearedInactive held' | withdraw held' =>
    obtain ⟨purpose, held⟩ := h.pulled w writing pulls
    rw [held'] at held
    cases held
  | retire retiring =>
    obtain ⟨purpose, held⟩ := h.pulled w writing pulls
    have unpulled := h.handled (Nat.add_eq_zero_iff.1 (h.unowned retiring)).1
    rw [pull?, held] at unpulled
    cases unpulled
  | _ => exact h.pulled w writing pulls

omit h in
/-- A change comes to be dealt with when a push makes it. -/
theorem Transition.mem_news (t : f.Transition l r) {e : Emission V} (mem : e ∈ r.state.news) :
    e ∈ f.news ∧ l ≠ .advance .write ∨
      l = .advance .write ∧ f.isChange e ∧ ∃ number rest, f.writer = some ⟨some number, e :: rest, .none⟩ := by
  cases t with
  | @write push x rest writing =>
    rw [news_of_writer rfl] at mem
    by_cases change : push.isSome && f.isChange x
    · obtain rfl : e = x := by simpa [change] using mem
      obtain ⟨pushed, changes⟩ := Bool.and_eq_true_iff.1 change
      obtain ⟨number, rfl⟩ := Option.isSome_iff_exists.1 pushed
      exact .inr ⟨rfl, changes, number, rest, writing⟩
    · simp [change] at mem
  | @look push x rest looking =>
    refine .inl ⟨?_, by simp⟩
    rw [news_of_writer rfl] at mem
    rw [news_of_writer looking]
    by_cases watched : f.isWatched x.signal
    · simpa [watched] using mem
    · simp [watched] at mem
  | post | settlePush | settleRefresh | settle | seed | pushAccepted =>
    simp [news, fresh, wanted, setPhase] at mem
  | _ => exact .inl ⟨mem, by simp⟩

theorem Transition.carried (t : f.Transition l r) :
    ∀ e ∈ r.state.news, ∃ w number, r.state.writer = some w ∧ w.push = some number := by
  intro e mem
  have held : l ≠ .advance .settle := by
    rintro rfl
    cases t <;> simp [news, fresh, wanted, setPhase] at mem
  rcases t.mem_news mem with ⟨mem, -⟩ | ⟨rfl, -, number, rest, writing⟩
  · obtain ⟨⟨push, values, news⟩, number, writing, by'⟩ := h.carried e mem
    obtain ⟨-, rest, news', -, writing', -⟩ := t.writer_eq writing held
    exact ⟨_, number, writing', by'⟩
  · obtain ⟨-, left, news', -, writing', -⟩ := t.writer_eq writing held
    exact ⟨_, number, writing', rfl⟩

theorem Transition.shown (t : f.Transition l r) : ∀ e ∈ r.state.news, r.state.cached? e.signal = some e.value := by
  intro e mem
  rcases t.mem_news mem with ⟨mem, other⟩ | ⟨rfl, change, number, rest, writing⟩
  · rw [cached?_congr t.keys_eq (t.gates_eq other), h.shown e mem]
  · cases t with
    | write writing' =>
      cases writing'.symm.trans writing
      exact (cached?_of_outlets rfl _).trans (cached?_of_isChange change)

theorem Transition.inactive (t : f.Transition l r) (pulls : r.state.pull?.isSome) :
    r.state.registration = none := by
  cases t with
  | activate _ _ inactive | refresh _ _ inactive | subscribe _ _ _ inactive => exact inactive
  | deactivate | detachLast | shutdown | queryFailed | registerFailed | subscribed | activated
  | unregistered | decodeFailed | settleRefresh | clear | cleared | clearedInactive | withdraw | retire
  | dropLast => cases pulls
  | queried held | decoded held | seed held | settle held => exact h.inactive (by rw [pull?, held]; rfl)
  | _ => exact h.inactive pulls

theorem Transition.handled (t : f.Transition l r) (unhandled : r.state.handles = 0) :
    r.state.pull? = none := by
  cases t with
  | activate _ kept | refresh _ kept | subscribe _ kept => exact absurd unhandled kept
  | deactivate | detachLast | shutdown | queryFailed | registerFailed | subscribed | activated
  | unregistered | decodeFailed | settleRefresh | clear | cleared | clearedInactive | withdraw | retire
  | dropLast => rfl
  | queried held | decoded held | seed held | settle held =>
    have := h.handled unhandled
    rw [pull?, held] at this
    cases this
  | clone => cases unhandled
  | drop kept free =>
    rw [pull?, free (by simp only at unhandled; omega)]
    rfl
  | _ => exact h.handled unhandled

theorem Transition.unowned (t : f.Transition l r) (retiring : r.state.retiring = true) :
    r.state.owners = 0 := by
  have moved : ∀ {number : Nat} {phase : PushPhase V R}, f.retiring = true →
      (f.setPhase number phase).owners = 0 := by
    intro number phase retiring
    have := h.unowned retiring
    simpa [owners, setPhase] using this
  cases t with
  | invoke _ owned => exact absurd (h.unowned retiring) owned
  | settlePush | pushRefused | pushDecoded | pushAccepted | pushStale => exact moved retiring
  | leave =>
    simp only [Bool.and_eq_true, decide_eq_true_eq] at retiring
    exact retiring.1
  | retire => cases retiring
  | clone kept =>
    have := h.unowned retiring
    exact absurd (Nat.add_eq_zero_iff.1 this).1 kept
  | drop =>
    have := h.unowned retiring
    simp only [owners] at this ⊢
    omega
  | dropLast _ unpushed => simp [owners, unpushed]
  | _ => exact h.unowned retiring

/-- Subscribers are owed what the signal's cache holds. -/
theorem Transition.shown_of_owed (t : f.Transition l r) {signal : SignalId} {v : V}
    (owed : v ∈ owedTo signal r.effects) : f.cached? signal = some v := by
  rw [t.owedTo_eq] at owed
  cases t with
  | @post push e rest posting =>
    have mem : e ∈ f.news := by simp [news_of_writer posting]
    obtain ⟨rfl, rfl⟩ : e.signal = signal ∧ e.value = v := by
      simpa [post?_of_writer posting, valuesFor] using owed
    exact h.shown e mem
  | _ => cases owed

end Orderly

/-- **Every step keeps order.** -/
theorem Orderly.step (h : f.Orderly) (t : f.Transition l r) : r.state.Orderly where
  numbered := t.numbered h
  locked := by
    intro number w writing by'
    rcases t.locked writing by' with ⟨w', writing', by'⟩ | ⟨free, known, rfl⟩
    · obtain ⟨reached, epoch, writes⟩ := h.locked number w' writing' by'
      exact ⟨t.hasReached reached (by decide), epoch, t.writes_on h writes writing⟩
    · obtain ⟨mem, named⟩ := mem_of_push? known
      exact ⟨t.entered (h.numbered _ mem), _, t.accepts free known writing⟩
  pulled := t.pulled h
  carried := t.carried h
  shown := t.shown h
  inactive := t.inactive h
  handled := t.handled h
  unowned := t.unowned h

omit [SignalValue V] in
/-- Whoever writes is a push that is writing, or holds the state lock. -/
theorem Orderly.writer_eq_none (h : f.Orderly) (free : f.holder = none)
    (leaving : ∀ p ∈ f.pushes, p.phase = .leaving) : f.writer = none := by
  cases writing : f.writer with
  | none => rfl
  | some w =>
    cases by' : w.push with
    | none =>
      obtain ⟨purpose, held⟩ := h.pulled w writing by'
      cases free.symm.trans held
    | some number =>
      obtain ⟨-, epoch, known⟩ := h.locked number w writing by'
      cases leaving _ (mem_of_push? known).1

omit [SignalValue V] in
/-- There is at most one change that is not dealt with, and it is what the signal's cache holds. -/
theorem valuesFor_news (h : f.Orderly) {signal : SignalId} {v : V} (known : f.cached? signal = some v) :
    valuesFor signal f.news = [] ∨ valuesFor signal f.news = [v] := by
  have one : f.news = [] ∨ ∃ e, f.news = [e] := by
    cases writing : f.writer with
    | none => exact .inl (news_eq_nil writing)
    | some w =>
      rw [news_of_writer writing]
      cases w.news with
      | none => exact .inl rfl
      | fresh e | wanted e => exact .inr ⟨e, rfl⟩
  rcases one with nothing | ⟨e, one⟩
  · exact .inl (by rw [nothing]; rfl)
  · have shown := h.shown e (one ▸ List.mem_singleton_self e)
    by_cases named : e.signal = signal
    · subst named
      obtain rfl : e.value = v := Option.some.inj (shown.symm.trans known)
      exact .inr (by simp [one, valuesFor])
    · exact .inl (by simp [one, valuesFor, named])

theorem Orderly.run {labels : List (FeedLabel V H R)} {f k : Feed V H R} {es : List (FeedEffect V)}
    (h : f.Orderly) (ran : run Feed.step labels f = some (k, es)) : k.Orderly :=
  run_keeps (fun _ _ _ _ h made => h.step (transition_of_step made)) ran h

end Feed

end LazyHub
