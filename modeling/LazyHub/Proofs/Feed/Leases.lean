import LazyHub.Proofs.Feed.Pushes

/-!
# What becomes of a payload on loan

A provider lends a payload when it answers a query, and when it invokes a callback. The loan is for a pull, for
a push, or for nothing if nobody owns the feed any more (`Loan`); and a step of the feed is about one loan at most
(`Feed.loan?`).

What is done with one payload is a *course* (`IsCourse`): it is lent, decoded and given back, its values are used,
and the operation that it was lent for is over. `LoanStage` says how far a course is along, and
`Transition.loanMoves` that a step moves the course of its loan on, and no other. So what is done with payloads in
a run is made of courses, one after another (`told_of_run`), and each push has a course of its own.

The number of payloads on loan changes as they are lent and given back (`Transition.balance`).
-/

namespace LazyHub

variable {V H R : Type}

/-- What a payload is lent for. -/
inductive Loan where
  /-- A pull: the payload is the answer to its query. -/
  | pull
  /-- The push with a number: the payload is handed to a callback. -/
  | push (number : Nat)
  /-- Nothing: the payload is handed to a callback of a feed that nobody owns any more. -/
  | stray
deriving DecidableEq

/-- What is done with a payload on loan. -/
inductive LoanEvent where
  /-- The provider lends it. -/
  | lent
  /-- The decoder has looked at it. -/
  | decoded
  /-- It is given back. -/
  | returned
  /-- One of its values is written, or posted as a change. -/
  | used
  /-- The operation that it was lent for is over. -/
  | ended
deriving DecidableEq

/-! ### Courses -/

/-- **What is done with one payload**, from the loan to the end of the operation that it was lent for. -/
inductive IsCourse : List LoanEvent → Prop where
  /-- It is decoded and given back, and then its values are used, if there are any. -/
  | decoded (uses : Nat) : IsCourse ([.lent, .decoded, .returned] ++ List.replicate uses .used ++ [.ended])
  /-- It is given back at once. -/
  | undecoded : IsCourse [.lent, .returned, .ended]

/-- How far the course of a payload is along. -/
inductive LoanStage where
  /-- There is no payload, and no operation that one was lent for. -/
  | rest
  /-- The payload is on loan. -/
  | out
  /-- The payload is given back, and the operation goes on. -/
  | home
deriving DecidableEq

namespace LoanStage

/-- What a step can do with a payload, and how far its course is along then. -/
inductive Moves : LoanStage → List LoanEvent → LoanStage → Prop where
  | still {s : LoanStage} : Moves s [] s
  | lent : Moves rest [.lent] out
  | returned : Moves out [.decoded, .returned] home
  | refused : Moves out [.decoded, .returned, .ended] rest
  | used : Moves home [.used] home
  | ended : Moves home [.ended] rest
  | strayed : Moves rest [.lent, .returned, .ended] rest

/-- What was done in a course that is so far along. -/
inductive Begun : LoanStage → List LoanEvent → Prop where
  | rest : Begun rest []
  | out : Begun out [.lent]
  | home (uses : Nat) : Begun home ([.lent, .decoded, .returned] ++ List.replicate uses .used)

/-- What was done with payloads is made of courses, and of one that is so far along. -/
def Told (s : LoanStage) (said : List LoanEvent) : Prop :=
  ∃ (done : List (List LoanEvent)) (part : List LoanEvent),
    (∀ c ∈ done, IsCourse c) ∧ s.Begun part ∧ said = done.flatten ++ part

theorem told_nil : rest.Told [] := ⟨[], [], nofun, .rest, rfl⟩

/-- A course that is over is done. -/
theorem told_of_course {done : List (List LoanEvent)} {c : List LoanEvent} (all : ∀ c ∈ done, IsCourse c)
    (course : IsCourse c) : rest.Told (done.flatten ++ c) := by
  refine ⟨done ++ [c], [], ?_, .rest, by simp⟩
  intro c' mem
  rcases List.mem_append.1 mem with mem | mem
  · exact all c' mem
  · exact List.mem_singleton.1 mem ▸ course

/-- **What a step does with a payload continues its course.** -/
theorem Told.moves {s s' : LoanStage} {said more : List LoanEvent} (told : s.Told said) (moves : Moves s more s') :
    s'.Told (said ++ more) := by
  obtain ⟨done, part, all, begun, rfl⟩ := told
  rw [List.append_assoc]
  cases moves with
  | still =>
    rw [List.append_nil]
    exact ⟨done, part, all, begun, rfl⟩
  | lent =>
    cases begun
    exact ⟨done, [.lent], all, .out, rfl⟩
  | returned =>
    cases begun
    exact ⟨done, _, all, .home 0, rfl⟩
  | refused =>
    cases begun
    exact told_of_course all (.decoded 0)
  | used =>
    cases begun with
    | home uses =>
      refine ⟨done, _, all, .home (uses + 1), ?_⟩
      rw [List.append_assoc, ← List.replicate_succ']
  | ended =>
    cases begun with
    | home uses => exact told_of_course all (.decoded uses)
  | strayed =>
    cases begun
    exact told_of_course all .undecoded

end LoanStage

/-! ### The loans of a feed -/

/-- Whether an effect is the end of a lease. -/
def FeedEffect.isReleased : FeedEffect V → Bool
  | .released => true
  | _ => false

/-- What a step does with a payload, going by its label. -/
def FeedLabel.handles : FeedLabel V H R → List LoanEvent
  | .hear (.queried (.ok _)) | .invoke .. => [.lent]
  | .advance (.decoded _) | .advance (.pushDecoded ..) => [.decoded]
  | .advance .write | .advance .post => [.used]
  | _ => []

/-- Whether a step that is about a loan ends the operation that the payload was lent for. A pull ends with its
answer, and a push when it lets go of the feed. -/
def Loan.endsBy (answered : Bool) : Loan → FeedLabel V H R → Bool
  | .pull, _ => answered
  | .push _, .advance (.leave _) => true
  | .push _, _ => false
  | .stray, _ => true

/-- What a step that is about a loan does with the payload, given how many leases it ends and whether it answers
a client. -/
def Loan.told (loan : Loan) (l : FeedLabel V H R) (released : Nat) (answered : Bool) : List LoanEvent :=
  l.handles ++ List.replicate released .returned ++ if loan.endsBy answered l then [.ended] else []

namespace Feed

/-- The loan that a step is about, if it is about one. -/
def loan? (f : Feed V H R) : FeedLabel V H R → Option Loan
  | .hear (.queried (.ok _)) | .hear (.registered _) | .advance (.decoded _) => some .pull
  | .invoke .. => some (if f.owners = 0 then .stray else .push f.pushCount)
  | .advance (.pushDecoded number _) | .advance (.leave number) => some (.push number)
  | .advance .write | .advance .post | .advance .settle => f.writer.map fun w => w.push.elim .pull .push
  | _ => none

/-- What a step does with the payload of a loan. -/
def loanEvents (loan : Loan) (m : Moment (Feed V H R) (FeedLabel V H R) (FeedEffect V)) : List LoanEvent :=
  if m.before.loan? m.label = some loan then
    loan.told m.label (m.after.effects.countP (·.isReleased)) m.after.answer.isSome
  else []

/-- How far the course of a loan's payload is along. -/
def loanStage (f : Feed V H R) : Loan → LoanStage
  | .pull =>
    match f.holder with
    | some (.decoding ..) => .out
    | some (.seeding ..) | some (.writing _) | some (.registering _) => .home
    | _ => .rest
  | .push number =>
    match f.push? number with
    | some ⟨_, _, .decoding _⟩ => .out
    | some _ => .home
    | none => .rest
  | .stray => .rest

/-- How many payloads are on loan. -/
def onLoan (f : Feed V H R) : Nat :=
  (if f.loanStage .pull = .out then 1 else 0) + f.pushes.countP fun p => p.phase.rank = 0

/-- While no operation is under way, nothing is on loan. -/
theorem onLoan_eq_zero {f : Feed V H R} (free : f.holder = none) (unpushed : f.pushes = []) : f.onLoan = 0 := by
  simp [onLoan, loanStage, free, unpushed]

theorem loanStage_congr {f g : Feed V H R} {number : Nat} (same : g.push? number = f.push? number) :
    g.loanStage (.push number) = f.loanStage (.push number) := by
  rw [loanStage, loanStage, same]

theorem loanStage_of_push? {f : Feed V H R} {number : Nat} {p : Push V R} (known : f.push? number = some p) :
    f.loanStage (.push number) = if p.phase.rank = 0 then .out else .home := by
  obtain ⟨n, epoch, phase⟩ := p
  rw [loanStage, known]
  cases phase <;> rfl

theorem loanStage_of_none {f : Feed V H R} {number : Nat} (unknown : f.push? number = none) :
    f.loanStage (.push number) = .rest := by
  rw [loanStage, unknown]

/-- Whoever does not pull has nothing on loan. -/
theorem loanStage_of_pull? {f : Feed V H R} (unpulled : f.pull? = none) : f.loanStage .pull = .rest := by
  unfold loanStage
  unfold pull? at unpulled
  cases held : f.holder with
  | none => rfl
  | some s =>
    rw [held] at unpulled
    cases s with
    | decoding | seeding | writing | registering => cases unpulled
    | _ => rfl

theorem push?_of_numbered {f : Feed V H R} (numbered : ∀ p ∈ f.pushes, p.number < f.pushCount) :
    f.push? f.pushCount = none := by
  refine List.find?_eq_none.2 fun p mem same => ?_
  have lt := numbered p mem
  rw [of_decide_eq_true same] at lt
  exact Nat.lt_irrefl _ lt

theorem holder_of_out {f : Feed V H R} (out : f.loanStage .pull = .out) :
    ∃ purpose payload, f.holder = some (.decoding purpose payload) := by
  cases held : f.holder with
  | none => simp [loanStage, held] at out
  | some s =>
    cases s with
    | decoding purpose payload => exact ⟨purpose, payload, rfl⟩
    | _ => simp [loanStage, held] at out

theorem push?_of_out {f : Feed V H R} {number : Nat} (out : f.loanStage (.push number) = .out) :
    ∃ epoch payload, f.push? number = some ⟨number, epoch, .decoding payload⟩ := by
  cases known : f.push? number with
  | none => simp [loanStage, known] at out
  | some p =>
    obtain rfl := number_of_push? known
    obtain ⟨n, epoch, phase⟩ := p
    cases phase with
    | decoding payload => exact ⟨epoch, payload, rfl⟩
    | _ => simp [loanStage, known] at out

variable [SignalValue V] {f : Feed V H R} {l : FeedLabel V H R} {r : Result V H R}

/-- The payload of a pull can be given back, whatever its decoder makes of it. -/
theorem returns_of_pull (out : f.loanStage .pull = .out) (outcome : Except DecodeFailure (Emissions V)) :
    ∃ fr, f.step (.advance (.decoded outcome)) = some fr ∧ fr.effects.countP (·.isReleased) = 1 := by
  obtain ⟨purpose, payload, held⟩ := holder_of_out out
  simp only [step, advance, held]
  cases f.admissible outcome with
  | error failure => exact ⟨_, rfl, rfl⟩
  | ok values => exact ⟨_, rfl, rfl⟩

/-- The payload of a push can be given back, whatever its decoder makes of it. -/
theorem returns_of_push {number : Nat} (out : f.loanStage (.push number) = .out)
    (outcome : Except DecodeFailure (Emissions V)) :
    ∃ fr, f.step (.advance (.pushDecoded number outcome)) = some fr ∧ fr.effects.countP (·.isReleased) = 1 := by
  obtain ⟨epoch, payload, known⟩ := push?_of_out out
  simp only [step, advance, known]
  cases f.admissible outcome with
  | error failure => exact ⟨_, rfl, rfl⟩
  | ok values => exact ⟨_, rfl, rfl⟩

/-! ### What a step does with payloads -/

/-- A step that is not about a pull's payload leaves it where it is. -/
theorem Transition.pullStage_eq (t : f.Transition l r) (o : f.Orderly) (other : f.loan? l ≠ some .pull) :
    r.state.loanStage .pull = f.loanStage .pull := by
  cases t with
  | queried | registerFailed | subscribed | activated | decodeFailed | decoded => exact absurd rfl other
  | settleRefresh _ writing | settle _ _ writing =>
    refine absurd ?_ other
    rw [loan?, writing]
    rfl
  | activate free | deactivate free | refresh free | subscribe free | detachLast free | shutdown free
  | dropLast _ _ free => simp [loanStage, free]
  | queryFailed held | unregistered held | seed held | clear held | cleared held | clearedInactive held
  | withdraw held => simp [loanStage, held]
  | retire retiring =>
    have unpulled := o.handled (Nat.add_eq_zero_iff.1 (o.unowned retiring)).1
    rw [loanStage_of_pull? unpulled]
    rfl
  | _ => rfl

/-- A step that is not about a push's payload leaves it where it is. -/
theorem Transition.pushStage_eq (t : f.Transition l r) {number : Nat} (other : f.loan? l ≠ some (.push number)) :
    r.state.loanStage (.push number) = f.loanStage (.push number) := by
  -- a push that has come to the update lock has given its payload back before
  have waited : ∀ {n epoch : Nat} {values : List (Emission V)} {next : PushPhase V R},
      f.push? n = some ⟨n, epoch, .ready values⟩ → next.rank ≠ 0 →
      (f.setPhase n next).loanStage (.push number) = f.loanStage (.push number) := by
    intro n epoch values next known late
    by_cases eq : n = number
    · subst eq
      rw [loanStage_of_push? known, loanStage_of_push? (push?_setPhase_self next known), if_neg late]
      rfl
    · exact loanStage_congr (push?_setPhase_of_ne _ eq)
  cases t with
  | invoke given owned =>
    have ne : f.pushCount ≠ number := by
      rintro rfl
      exact other (by rw [loan?, if_neg owned])
    apply loanStage_congr
    rw [push?, List.find?_append, List.find?_cons_of_neg (by simpa using ne)]
    simp [push?]
  | @settlePush n writing =>
    have ne : n ≠ number := by
      rintro rfl
      exact other (by rw [loan?, writing]; rfl)
    exact loanStage_congr (push?_setPhase_of_ne (f := { f with writer := none }) _ ne)
  | @pushRefused n | @pushDecoded n =>
    have ne : n ≠ number := by
      rintro rfl
      exact other rfl
    exact loanStage_congr (push?_setPhase_of_ne _ ne)
  | pushAccepted known => exact waited known (by simp [PushPhase.rank])
  | pushStale known => exact waited known (by simp [PushPhase.rank])
  | @leave n epoch known =>
    have ne : number ≠ n := by
      rintro rfl
      exact other rfl
    exact loanStage_congr (push?_filter_of_ne ne)
  | _ => rfl

omit [SignalValue V] in
/-- Whoever holds the update lock has given its payload back. -/
theorem home_of_writer (o : f.Orderly) {push : Option Nat} {rest : List (Emission V)} {news : News V}
    (writing : f.writer = some ⟨push, rest, news⟩) : f.loanStage (push.elim .pull .push) = .home := by
  cases push with
  | none =>
    obtain ⟨purpose, held⟩ := o.pulled _ writing rfl
    rw [Option.elim_none, loanStage, held]
  | some number =>
    obtain ⟨-, epoch, known⟩ := o.locked number _ writing rfl
    exact loanStage_of_push? known

omit [SignalValue V] in
/-- A step does nothing with the payloads that it is not about. -/
theorem loanEvents_eq_nil {loan : Loan} (other : f.loan? l ≠ some loan) : loanEvents loan ⟨f, l, r⟩ = [] :=
  if_neg other

omit [SignalValue V] in
theorem loanEvents_of_loan? {loan : Loan} (about : f.loan? l = some loan) :
    loanEvents loan ⟨f, l, r⟩ = loan.told l (r.effects.countP (·.isReleased)) r.answer.isSome :=
  if_pos about

/-- **A step moves the course of its loan on.** -/
theorem Transition.loanMoves_of_loan? (t : f.Transition l r) (o : f.Orderly) {loan : Loan}
    (about : f.loan? l = some loan) :
    LoanStage.Moves (f.loanStage loan) (loanEvents loan ⟨f, l, r⟩) (r.state.loanStage loan) := by
  rw [loanEvents_of_loan? about]
  have along : ∀ {s s' : LoanStage} {said : List LoanEvent}, f.loanStage loan = s → r.state.loanStage loan = s' →
      LoanStage.Moves s said s' → LoanStage.Moves (f.loanStage loan) said (r.state.loanStage loan) := by
    rintro s s' said rfl rfl moves
    exact moves
  cases t with
  | queried held =>
    cases about
    exact along (by rw [loanStage, held]) rfl .lent
  | registerFailed held | subscribed held | activated held =>
    cases about
    exact along (by rw [loanStage, held]) rfl .ended
  | decodeFailed held =>
    cases about
    exact along (by rw [loanStage, held]) rfl .refused
  | decoded held =>
    cases about
    exact along (by rw [loanStage, held]) rfl .returned
  | invokeUnowned given unowned =>
    rw [loan?, if_pos unowned] at about
    cases about
    exact .strayed
  | @invoke epoch payload given owned =>
    rw [loan?, if_neg owned] at about
    cases about
    have before := push?_of_numbered o.numbered
    have after : push? { f with pushes := f.pushes ++ [⟨f.pushCount, epoch, .decoding payload⟩] } f.pushCount =
        some ⟨f.pushCount, epoch, .decoding payload⟩ := by
      rw [push?] at before
      rw [push?, List.find?_append, before]
      simp
    exact along (loanStage_of_none before) (loanStage_of_push? after) .lent
  | @write push _ _ writing | @post push _ _ writing =>
    obtain rfl : push.elim Loan.pull Loan.push = loan := by simpa [loan?, writing] using about
    have home := home_of_writer o writing
    cases push with
    | none => exact along home home .used
    | some number => exact along home home .used
  | @settlePush number writing =>
    rw [loan?, writing] at about
    obtain rfl : Loan.push number = loan := Option.some.inj about
    obtain ⟨-, epoch, known⟩ := o.locked number _ writing rfl
    have after := push?_setPhase_self (f := { f with writer := none }) .leaving known
    exact along (loanStage_of_push? known) (loanStage_of_push? after) .still
  | settleRefresh held writing =>
    rw [loan?, writing] at about
    obtain rfl : Loan.pull = loan := Option.some.inj about
    exact along (by rw [loanStage, held]) rfl .ended
  | settle held more writing =>
    rw [loan?, writing] at about
    obtain rfl : Loan.pull = loan := Option.some.inj about
    have home : f.loanStage .pull = .home := by rw [loanStage, held]
    exact along home rfl .still
  | pushRefused known =>
    cases about
    exact along (loanStage_of_push? known) (loanStage_of_push? (push?_setPhase_self .leaving known)) .returned
  | @pushDecoded number epoch payload outcome values known =>
    cases about
    exact along (loanStage_of_push? known) (loanStage_of_push? (push?_setPhase_self (.ready values) known)) .returned
  | @leave number epoch known =>
    cases about
    have after : push? { f with pushes := f.pushes.filter (·.number ≠ number) } number = none :=
      List.find?_eq_none.2 fun p mem => by simpa using (List.mem_filter.1 mem).2
    exact along (loanStage_of_push? known) (loanStage_of_none after) .ended
  | _ => cases about

/-- **What a step does with the payload of a loan** moves its course on. -/
theorem Transition.loanMoves (t : f.Transition l r) (o : f.Orderly) (loan : Loan) :
    LoanStage.Moves (f.loanStage loan) (loanEvents loan ⟨f, l, r⟩) (r.state.loanStage loan) := by
  by_cases about : f.loan? l = some loan
  · exact t.loanMoves_of_loan? o about
  · have same : r.state.loanStage loan = f.loanStage loan := by
      cases loan with
      | pull => exact t.pullStage_eq o about
      | push number => exact t.pushStage_eq about
      | stray => rfl
    rw [loanEvents_eq_nil about, same]
    exact .still

/-- A step that is about no loan gives nothing back. -/
theorem Transition.released_eq_zero (t : f.Transition l r) (idle : f.loan? l = none) :
    r.effects.countP (·.isReleased) = 0 := by
  cases t with
  | invokeUnowned => cases idle
  | decodeFailed | decoded | pushRefused | pushDecoded => cases idle
  | write writing | post writing =>
    rw [loan?, writing] at idle
    cases idle
  | cleared | clearedInactive =>
    dsimp only
    split <;> rfl
  | _ => rfl

/-- A step that gives a payload back, writes or posts is told of in the course of some payload. -/
theorem Transition.disclosed (t : f.Transition l r) :
    ((∀ loan, .returned ∉ loanEvents loan ⟨f, l, r⟩) → r.effects.countP (·.isReleased) = 0) ∧
      ((∀ loan, .used ∉ loanEvents loan ⟨f, l, r⟩) → l ≠ .advance .write ∧ l ≠ .advance .post) := by
  constructor
  · intro untold
    cases about : f.loan? l with
    | none => exact t.released_eq_zero about
    | some loan =>
      by_contra some
      refine untold loan ?_
      rw [loanEvents_of_loan? about, Loan.told]
      exact List.mem_append_left _ (List.mem_append_right _ (List.mem_replicate.2 ⟨some, rfl⟩))
  · intro untold
    have unused : l.handles = [.used] → ∀ loan, f.loan? l ≠ some loan := by
      intro use loan about
      refine untold loan ?_
      rw [loanEvents_of_loan? about, Loan.told, use]
      exact List.mem_append_left _ (List.mem_append_left _ (List.mem_singleton_self _))
    constructor
    · rintro rfl
      cases t with
      | write writing => exact unused rfl _ (by rw [loan?, writing]; rfl)
    · rintro rfl
      cases t with
      | post writing => exact unused rfl _ (by rw [loan?, writing]; rfl)

/-- A push has one loan, which its number is given away for. -/
theorem Transition.count_lent (t : f.Transition l r) (number : Nat) :
    (loanEvents (.push number) ⟨f, l, r⟩).count .lent + (if number < f.pushCount then 1 else 0) =
      if number < r.state.pushCount then 1 else 0 := by
  have unlent : f.pushCount = r.state.pushCount → (f.loan? l = some (.push number) → .lent ∉ l.handles) →
      (loanEvents (.push number) ⟨f, l, r⟩).count .lent + (if number < f.pushCount then 1 else 0) =
        if number < r.state.pushCount then 1 else 0 := by
    intro same none
    have zero : (loanEvents (.push number) ⟨f, l, r⟩).count .lent = 0 := by
      refine List.count_eq_zero.2 fun mem => ?_
      by_cases about : f.loan? l = some (.push number)
      · rw [loanEvents_of_loan? about, Loan.told] at mem
        rcases List.mem_append.1 mem with mem | mem
        · rcases List.mem_append.1 mem with mem | mem
          · exact none about mem
          · cases List.eq_of_mem_replicate mem
        · split at mem
          · cases List.mem_singleton.1 mem
          · cases mem
      · rw [loanEvents_eq_nil about] at mem
        cases mem
    rw [zero, same, Nat.zero_add]
  cases t with
  | queried => exact unlent rfl nofun
  | invokeUnowned given unowned =>
    refine unlent rfl fun about => ?_
    rw [loan?, if_pos unowned] at about
    cases about
  | @invoke epoch payload given owned =>
    have about : f.loan? (.invoke epoch payload) = some (.push f.pushCount) := by rw [loan?, if_neg owned]
    by_cases eq : number = f.pushCount
    · subst eq
      rw [loanEvents_of_loan? about, if_neg (Nat.lt_irrefl _), if_pos (Nat.lt_succ_self _)]
      rfl
    · have other : f.loan? (.invoke epoch payload) ≠ some (.push number) := by
        rw [about]
        simpa using Ne.symm eq
      rw [loanEvents_eq_nil other]
      have iff : number < f.pushCount ↔ number < f.pushCount + 1 := by omega
      simp only [iff, List.count_nil, Nat.zero_add]
  | _ => exact unlent rfl fun _ => by simp [FeedLabel.handles]

/-! ### What a run does with payloads -/

/-- **The book of a feed's loans**: what was done with payloads, by how far their courses are along. -/
structure LoanBook (past : List (Moment (Feed V H R) (FeedLabel V H R) (FeedEffect V))) (f : Feed V H R) : Prop where
  /-- The feed is in order. -/
  orderly : f.Orderly
  /-- Pushes have different numbers. -/
  distinct : (f.pushes.map (·.number)).Nodup
  /-- What was done is made of courses. -/
  told : ∀ loan, (f.loanStage loan).Told (past.flatMap (loanEvents loan))
  /-- A push has one loan. -/
  once : ∀ number, (past.flatMap (loanEvents (.push number))).count .lent = if number < f.pushCount then 1 else 0

omit [SignalValue V] in
theorem loanBook_ofPlan (plan : FeedPlan V) : LoanBook [] (ofPlan plan : Feed V H R) where
  orderly := orderly_ofPlan plan
  distinct := .nil
  told loan := by cases loan <;> exact LoanStage.told_nil
  once _ := rfl

omit [SignalValue V] in
theorem map_number_setPhase (f : Feed V H R) (number : Nat) (phase : PushPhase V R) :
    (f.setPhase number phase).pushes.map (·.number) = f.pushes.map (·.number) := by
  rw [setPhase, List.map_map]
  refine List.map_congr_left fun p mem => ?_
  simp only [Function.comp_apply]
  split <;> rfl

theorem Transition.distinct (t : f.Transition l r) (o : f.Orderly) (h : (f.pushes.map (·.number)).Nodup) :
    (r.state.pushes.map (·.number)).Nodup := by
  have moved : ∀ {number : Nat} {phase : PushPhase V R}, ((f.setPhase number phase).pushes.map (·.number)).Nodup :=
    (map_number_setPhase ..).symm ▸ h
  cases t with
  | invoke =>
    rw [List.map_append]
    refine h.append (List.nodup_singleton _) ?_
    intro number old new
    obtain ⟨p, mem, rfl⟩ := List.mem_map.1 old
    have lt := o.numbered p mem
    rw [List.mem_singleton.1 new] at lt
    exact Nat.lt_irrefl _ lt
  | settlePush | pushRefused | pushDecoded | pushAccepted | pushStale => exact moved
  | leave => exact h.sublist (List.filter_sublist.map _)
  | _ => exact h

theorem LoanBook.step {past : List (Moment (Feed V H R) (FeedLabel V H R) (FeedEffect V))} (b : LoanBook past f)
    (t : f.Transition l r) : LoanBook (past ++ [⟨f, l, r⟩]) r.state where
  orderly := b.orderly.step t
  distinct := t.distinct b.orderly b.distinct
  told loan := by
    rw [List.flatMap_append, List.flatMap_singleton]
    exact (b.told loan).moves (t.loanMoves b.orderly loan)
  once number := by
    rw [List.flatMap_append, List.flatMap_singleton, List.count_append, b.once, Nat.add_comm]
    exact t.count_lent number

/-- **The book is kept in every run.** -/
theorem loanBook_of_run {plan : FeedPlan V} {labels : List (FeedLabel V H R)} {es : List (FeedEffect V)}
    (ran : run Feed.step labels (.ofPlan plan) = some (f, es)) :
    LoanBook (trail Feed.step labels (.ofPlan plan)) f :=
  run_remembers (P := LoanBook) (fun b made => b.step (transition_of_step made)) ran [] (loanBook_ofPlan plan)

/-! ### How many payloads are on loan -/

omit [SignalValue V] in
/-- A push that moves on is counted in its new phase. -/
theorem countP_setPhase (q : Push V R → Bool) {number epoch : Nat} {phase : PushPhase V R} (next : PushPhase V R)
    (distinct : (f.pushes.map (·.number)).Nodup) (known : f.push? number = some ⟨number, epoch, phase⟩) :
    (f.setPhase number next).pushes.countP q + (if q ⟨number, epoch, phase⟩ then 1 else 0) =
      f.pushes.countP q + if q ⟨number, epoch, next⟩ then 1 else 0 := by
  simp only [push?] at known
  simp only [setPhase]
  generalize f.pushes = pushes at distinct known
  induction pushes with
  | nil => cases known
  | cons p rest ih =>
    obtain ⟨fresh, distinct⟩ := List.nodup_cons.1 distinct
    by_cases named : p.number = number
    · obtain rfl : p = ⟨number, epoch, phase⟩ := by simpa [named] using known
      have others : rest.map (fun p => if p.number = number then { p with phase := next } else p) = rest := by
        refine (List.map_congr_left fun p mem => if_neg ?_).trans (List.map_id _)
        rintro eq
        exact fresh (List.mem_map.2 ⟨p, mem, eq⟩)
      simp only [List.map_cons, if_true, others, List.countP_cons]
      omega
    · have later := ih distinct (by simpa [named] using known)
      simp only [List.map_cons, if_neg named, List.countP_cons]
      omega

omit [SignalValue V] in
theorem push?_of_mem (distinct : (f.pushes.map (·.number)).Nodup) {p : Push V R} (mem : p ∈ f.pushes) :
    f.push? p.number = some p := by
  unfold push?
  generalize f.pushes = pushes at distinct mem
  induction pushes with
  | nil => cases mem
  | cons q rest ih =>
    obtain ⟨fresh, distinct⟩ := List.nodup_cons.1 distinct
    rcases List.mem_cons.1 mem with rfl | mem
    · simp
    · have other : q.number ≠ p.number := fun eq => fresh (List.mem_map.2 ⟨p, mem, eq.symm⟩)
      simpa [other] using ih distinct mem

/-- **As many payloads are given back in a step as there are fewer on loan.** -/
theorem Transition.balance (t : f.Transition l r) (o : f.Orderly) (distinct : (f.pushes.map (·.number)).Nodup) :
    r.effects.countP (·.isReleased) + r.state.onLoan = f.onLoan + l.handles.count .lent := by
  have still : ∀ {g : Feed V H R}, g.pushes = f.pushes → (g.loanStage .pull = .out ↔ f.loanStage .pull = .out) →
      g.onLoan = f.onLoan := by
    intro g pushes pull
    simp only [onLoan, pushes, pull]
  have unpulled : f.loan? l ≠ some .pull → (r.state.loanStage .pull = .out ↔ f.loanStage .pull = .out) :=
    fun other => by rw [t.pullStage_eq o other]
  have quiet : r.effects.countP (·.isReleased) = 0 → r.state.onLoan = f.onLoan →
      r.effects.countP (·.isReleased) + r.state.onLoan = f.onLoan + 0 := fun silent same => by
    rw [silent, same, Nat.zero_add, Nat.add_zero]
  have moved : ∀ {n epoch : Nat} {phase : PushPhase V R} (next : PushPhase V R), f.push? n = some ⟨n, epoch, phase⟩ →
      (f.setPhase n next).onLoan + (if phase.rank = 0 then 1 else 0) = f.onLoan + if next.rank = 0 then 1 else 0 := by
    intro n epoch phase next known
    have count := countP_setPhase (fun p => p.phase.rank = 0) next distinct known
    simp only [decide_eq_true_eq] at count
    simp only [onLoan, show (f.setPhase n next).loanStage .pull = f.loanStage .pull from rfl]
    omega
  cases t with
  | queried held =>
    have before : f.loanStage .pull = .rest := by rw [loanStage, held]
    rw [onLoan, onLoan, before]
    simp [loanStage, FeedLabel.handles, Nat.add_comm]
  | decodeFailed held | decoded held =>
    have before : f.loanStage .pull = .out := by rw [loanStage, held]
    rw [onLoan, onLoan, before]
    simp [loanStage, FeedLabel.handles, FeedEffect.isReleased]
  | registerFailed held | subscribed held | activated held | settleRefresh held | settle held =>
    have before : f.loanStage .pull = .home := by rw [loanStage, held]
    exact (Nat.zero_add _).trans (still rfl (by rw [before]; simp [loanStage]))
  | invokeUnowned => exact Nat.add_comm 1 _
  | invoke =>
    simp only [onLoan, List.countP_append, List.countP_nil, Nat.zero_add]
    exact (Nat.add_assoc ..).symm
  | @settlePush number writing =>
    obtain ⟨-, epoch, known⟩ := o.locked number _ writing rfl
    have count := moved .leaving known
    exact (Nat.zero_add _).trans count
  | pushRefused known =>
    have count := moved .leaving known
    exact (Nat.add_comm 1 _).trans count
  | @pushDecoded _ _ _ _ values known =>
    have count := moved (.ready values) known
    exact (Nat.add_comm 1 _).trans count
  | pushAccepted known =>
    have count := moved .writing known
    exact (Nat.zero_add _).trans count
  | pushStale known =>
    have count := moved .leaving known
    exact (Nat.zero_add _).trans count
  | @leave number epoch known =>
    have count : (f.pushes.filter (·.number ≠ number)).countP (fun p => p.phase.rank = 0) =
        f.pushes.countP fun p => p.phase.rank = 0 := by
      rw [List.countP_filter]
      refine List.countP_congr fun p mem => ?_
      have early : p.phase.rank = 0 → p.number ≠ number := by
        rintro rank rfl
        rw [Option.some.inj ((push?_of_mem distinct mem).symm.trans known)] at rank
        cases rank
      simpa using early
    simp only [onLoan, count]
    exact Nat.zero_add _
  | write | post => exact quiet rfl rfl
  | cleared held | clearedInactive held =>
    refine quiet ?_ (still rfl (unpulled (by simp [loan?])))
    dsimp only
    split <;> rfl
  | _ => exact (Nat.zero_add _).trans (still rfl (unpulled (by simp [loan?])))

end Feed

end LazyHub
