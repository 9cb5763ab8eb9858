import LazyHub.Proofs.Feed.Leases

/-!
# A feed with one thing under way

A request or a push that has a feed to itself takes one step after another, each of which is determined by
what the feed is like otherwise. `Feed.busy` is a feed whose state lock is held, `Feed.pushing` one with a
single push under way, and the equations say what the next step makes of them: `advance_decoded_ok`,
`advance_seed` and so on. What is written in the end is `Feed.written`, and what a push then owes to
subscribers is `Feed.owes`.
-/

namespace LazyHub

variable {V H R : Type}

/-- What a feed owes to the subscribers of its signals, out of all its effects. -/
def Feed.dues (es : List (FeedEffect V)) : List (Emission V) :=
  es.filterMap fun
    | .owed signal value => some ⟨signal, value⟩
    | _ => none

/-- A value that a feed owes to the subscribers of its signal, as an effect. -/
def Emission.due (e : Emission V) : FeedEffect V := .owed e.signal e.value

theorem Feed.dues_map_due (owed : List (Emission V)) : dues (owed.map Emission.due) = owed := by
  rw [dues, List.filterMap_map]
  exact List.filterMap_some

/-- An outlet without subscribers. -/
def Outlet.wiped (o : Outlet V H) : Outlet V H := { o with subscribers := .empty }

/-- Some outlets without the subscribers of those from one on. -/
def Outlet.wipedFrom (next : Nat) (os : List (Outlet V H)) : List (Outlet V H) :=
  os.take next ++ (os.drop next).map Outlet.wiped

theorem Outlet.wipedFrom_of_le {next : Nat} {os : List (Outlet V H)} (all : os.length ≤ next) : wipedFrom next os = os := by
  rw [wipedFrom, List.take_of_length_le all, List.drop_eq_nil_of_le all, List.map_nil, List.append_nil]

theorem Outlet.wipedFrom_modify {next : Nat} {os : List (Outlet V H)} (lt : next < os.length) :
    wipedFrom (next + 1) (os.modify next wiped) = wipedFrom next os := by
  have first : (os.take next ++ [os[next].wiped]).length = next + 1 := by simp [Nat.le_of_lt lt]
  have split : os.modify next wiped = (os.take next ++ [os[next].wiped]) ++ os.drop (next + 1) := by
    rw [List.modify_eq_take_cons_drop lt, List.append_assoc, List.singleton_append]
  rw [wipedFrom, split, List.take_left' first, List.drop_left' first, wipedFrom, List.drop_eq_getElem_cons lt, List.map_cons,
    List.append_assoc, List.singleton_append]

namespace Feed

/-- A feed without subscribers. -/
def cleared (f : Feed V H R) : Feed V H R := { f with outlets := f.outlets.map Outlet.wiped, subscriptionCount := 0 }

/-- The signal that a request is about, if it is about one, is the feed's. -/
def Answers (f : Feed V H R) : FeedRequest H → Prop
  | .subscribe signal _ _ | .unsubscribe signal _ => (f.outlet? signal).isSome
  | _ => True

/-- A feed whose state lock is held. -/
def busy (f : Feed V H R) (section' : Section V H R) : Feed V H R := { f with holder := some section' }

theorem release_busy {f : Feed V H R} (free : f.holder = none) (section' : Section V H R) (answer : Answer)
    (effects : List (FeedEffect V)) :
    (f.busy section').release answer effects = { state := f, effects, answer := some answer } := by
  cases f
  subst free
  rfl

theorem release_free {f : Feed V H R} (free : f.holder = none) (answer : Answer) (effects : List (FeedEffect V)) :
    f.release answer effects = { state := f, effects, answer := some answer } := by
  cases f
  subst free
  rfl

variable [SignalValue V]

/-- What may be written to a feed depends on its outlets. -/
theorem admissible_of_outlets {f g : Feed V H R} (same : g.outlets = f.outlets)
    (decoded : Except DecodeFailure (Emissions V)) : g.admissible decoded = f.admissible decoded := by
  have checks : ∀ values, g.check values = f.check values := by
    intro values
    induction values with
    | nil => rfl
    | cons e rest ih => simp only [check, outlet?, same, ih]
  cases decoded with
  | error failure => rfl
  | ok out => simp only [admissible, checks]

theorem admissible_busy (f : Feed V H R) (section' : Section V H R) (decoded : Except DecodeFailure (Emissions V)) :
    (f.busy section').admissible decoded = f.admissible decoded :=
  admissible_of_outlets (f := f) (g := f.busy section') rfl decoded

section Decoded

variable {f : Feed V H R} {purpose : Purpose H} {payload : R} {outcome : Except DecodeFailure (Emissions V)}

theorem advance_decoded_error {failure : DecodeFailure} (free : f.holder = none)
    (refused : f.admissible outcome = .error failure) :
    (f.busy (.decoding purpose payload)).advance (.decoded outcome) =
      some { state := f, effects := [.released], answer := some (.failed (.decodeFailed f.kind failure)) } := by
  have refused' := (admissible_busy f (.decoding purpose payload) outcome).trans refused
  rw [← release_busy free (.decoding purpose payload)]
  simp only [busy] at refused'
  simp only [advance, busy, refused']

theorem advance_decoded_ok {values : List (Emission V)} (admitted : f.admissible outcome = .ok values) :
    (f.busy (.decoding purpose payload)).advance (.decoded outcome) =
      some { state := f.busy (.seeding purpose values), effects := [.released] } := by
  have admitted' := (admissible_busy f (.decoding purpose payload) outcome).trans admitted
  simp only [busy] at admitted'
  simp only [advance, busy, admitted']

theorem advance_seed {values : List (Emission V)} (unwritten : f.writer = none) :
    (f.busy (.seeding purpose values)).advance .seed =
      some { state := { f.busy (.writing purpose) with writer := some ⟨none, values, .none⟩ } } := by
  cases f
  subst unwritten
  rfl

end Decoded

/-- A feed after some values are written, one after another. -/
def written (f : Feed V H R) (values : List (Emission V)) : Feed V H R := values.foldl writeGate f

/-- Writes change nothing but the outlets. -/
theorem written_eq (f : Feed V H R) (values : List (Emission V)) :
    f.written values = { f with outlets := (f.written values).outlets } := by
  induction values generalizing f with
  | nil => rfl
  | cons e rest ih => exact ih (f.writeGate e)

/-- What is written depends on the outlets. -/
theorem written_congr {f g : Feed V H R} (same : g.outlets = f.outlets) (values : List (Emission V)) :
    (g.written values).outlets = (f.written values).outlets := by
  induction values generalizing f g with
  | nil => exact same
  | cons e rest ih => exact ih (by simp only [writeGate, modifyOutlet, same])

theorem written_busy (f : Feed V H R) (section' : Section V H R) (values : List (Emission V)) :
    (f.busy section').written values = (f.written values).busy section' := by
  rw [written_eq, written_congr (f := f) (g := f.busy section') rfl, written_eq f]
  rfl

theorem advance_clear {f : Feed V H R} {next d : Nat} {o : Outlet V H} (there : f.outlets[next]? = some o) :
    (f.busy (.clearing next d)).advance .clear =
      some
        { state := ({ f with outlets := f.outlets.modify next Outlet.wiped } : Feed V H R).busy
            (.clearing (next + 1) (d + o.subscribers.size)) } := by
  simp only [advance, busy, there]
  rfl

theorem advance_cleared {f : Feed V H R} {next d : Nat} (all : f.outlets.length ≤ next) :
    ∃ effects : List (FeedEffect V), effects.countP (·.isReleased) = 0 ∧ dues effects = [] ∧
      (f.busy (.clearing next d)).advance .clear =
        some { ({ f with subscriptionCount := 0 } : Feed V H R).startWithdrawal with effects } := by
  refine ⟨if d > 0 then [.noted (.shuttingDown f.kind d)] else [], ?_, ?_, ?_⟩
  · split <;> rfl
  · split <;> rfl
  · by_cases active : f.registration.isSome = true
    · simp only [advance, busy, List.getElem?_eq_none all, startWithdrawal, active, if_true]
    · simp only [advance, busy, List.getElem?_eq_none all, startWithdrawal, active, Bool.false_eq_true, if_false, release]

/-- Writes leave subscribers alone. -/
theorem subscribers_writeGate (f : Feed V H R) (e : Emission V) (signal : SignalId) :
    ((f.writeGate e).outlet? signal).map (·.subscribers) = (f.outlet? signal).map (·.subscribers) := by
  rw [writeGate, outlet?_modifyOutlet f e.signal (c := fun o => { o with gate := (o.gate.offer e.value).2 }) (fun _ => rfl)]
  split
  · rename_i here
    rw [here, Option.map_map]
    rfl
  · rfl

omit [SignalValue V] in
theorem isWatched_of_subscribers {f g : Feed V H R} {signal : SignalId}
    (same : (g.outlet? signal).map (·.subscribers) = (f.outlet? signal).map (·.subscribers)) :
    g.isWatched signal = f.isWatched signal := by
  have known : ∀ k : Feed V H R, k.isWatched signal = (((k.outlet? signal).map (·.subscribers)).map (!·.isEmpty)).getD false := by
    intro k
    rw [isWatched]
    cases k.outlet? signal <;> rfl
  rw [known, known, same]

theorem isWatched_writeGate (f : Feed V H R) (e : Emission V) (signal : SignalId) :
    (f.writeGate e).isWatched signal = f.isWatched signal :=
  isWatched_of_subscribers (subscribers_writeGate f e signal)

/-- What is owed to the subscribers of a feed for one value that is written. -/
def owed (f : Feed V H R) (pushed : Bool) (e : Emission V) : List (Emission V) :=
  if pushed && f.isChange e && f.isWatched e.signal then [e] else []

theorem advance_write {f : Feed V H R} {push : Option Nat} {e : Emission V} {rest : List (Emission V)}
    (writing : f.writer = some ⟨push, e :: rest, .none⟩) :
    f.advance .write =
      some
        { state :=
            { f.writeGate e with
              writer := some ⟨push, rest, if push.isSome && f.isChange e then .fresh e else .none⟩ } } := by
  simp only [advance, writing]

theorem advance_look (f : Feed V H R) (push : Option Nat) (e : Emission V) (rest : List (Emission V)) :
    ({ f with writer := some ⟨push, rest, .fresh e⟩ } : Feed V H R).advance .look =
      some { state := { f with writer := some ⟨push, rest, if f.isWatched e.signal then .wanted e else .none⟩ } } :=
  rfl

theorem advance_post (f : Feed V H R) (push : Option Nat) (e : Emission V) (rest : List (Emission V)) :
    ({ f with writer := some ⟨push, rest, .wanted e⟩ } : Feed V H R).advance .post =
      some { state := { f with writer := some ⟨push, rest, .none⟩ }, effects := [e.due] } :=
  rfl

/-- What a push owes to the subscribers of a feed, for the values it writes one after another. -/
def owes (f : Feed V H R) : List (Emission V) → List (Emission V)
  | [] => []
  | e :: rest => f.owed true e ++ (f.writeGate e).owes rest

/-- What a pushed payload leaves behind, and what is then owed, given what the decoder made of it and the epoch of
its callback. -/
def received (f : Feed V H R) (epoch : Nat) (outcome : Except DecodeFailure (Emissions V)) : Feed V H R × List (Emission V) :=
  match f.admissible outcome with
  | .error _ => (f, [])
  | .ok values => if epoch = f.epoch then (f.written values, f.owes values) else (f, [])

theorem owes_congr {f g : Feed V H R} (same : g.outlets = f.outlets) (values : List (Emission V)) :
    g.owes values = f.owes values := by
  induction values generalizing f g with
  | nil => rfl
  | cons e rest ih =>
    rw [owes, owes, ih (f := f.writeGate e) (g := g.writeGate e) (by simp only [writeGate, modifyOutlet, same])]
    have change : g.isChange e = f.isChange e := by simp only [isChange, outlet?, same]
    have watched : g.isWatched e.signal = f.isWatched e.signal := by simp only [isWatched, outlet?, same]
    rw [owed, owed, change, watched]

/-! #### A push on its own -/

section Pushing

/-- A feed with a single push under way. -/
def pushing (f : Feed V H R) (number epoch : Nat) (phase : PushPhase V R) : Feed V H R :=
  { f with pushes := [⟨number, epoch, phase⟩] }

variable {f : Feed V H R} {number epoch : Nat} {payload : R} {outcome : Except DecodeFailure (Emissions V)}
  {values : List (Emission V)}

omit [SignalValue V] in
theorem push?_pushing (phase : PushPhase V R) : (f.pushing number epoch phase).push? number = some ⟨number, epoch, phase⟩ := by
  simp [push?, pushing]

omit [SignalValue V] in
theorem setPhase_pushing (phase phase' : PushPhase V R) :
    (f.pushing number epoch phase).setPhase number phase' = f.pushing number epoch phase' := by
  simp [setPhase, pushing]

theorem advance_pushDecoded_error {failure : DecodeFailure} (refused : f.admissible outcome = .error failure) :
    (f.pushing number epoch (.decoding payload)).advance (.pushDecoded number outcome) =
      some
        { state := f.pushing number epoch .leaving
          effects := [.noted (.undecodable f.kind failure), .released] } := by
  have same := admissible_of_outlets (f := f) (g := f.pushing number epoch (.decoding payload)) rfl outcome
  simp only [advance, push?_pushing, same, refused, setPhase_pushing]
  rfl

theorem advance_pushDecoded_ok (admitted : f.admissible outcome = .ok values) :
    (f.pushing number epoch (.decoding payload)).advance (.pushDecoded number outcome) =
      some { state := f.pushing number epoch (.ready values), effects := [.released] } := by
  have same := admissible_of_outlets (f := f) (g := f.pushing number epoch (.decoding payload)) rfl outcome
  simp only [advance, push?_pushing, same, admitted, setPhase_pushing]

theorem advance_enter_stale (unwritten : f.writer = none) (stale : epoch ≠ f.epoch) :
    (f.pushing number epoch (.ready values)).advance (.enter number) =
      some { state := f.pushing number epoch .leaving, effects := [.noted (.stale f.kind)] } := by
  have unwritten' : (f.pushing number epoch (.ready values)).writer = none := unwritten
  have stale' : epoch ≠ (f.pushing number epoch (.ready values)).epoch := stale
  simp only [advance, push?_pushing, unwritten', if_neg stale', setPhase_pushing]
  rfl

theorem advance_enter_current (unwritten : f.writer = none) (current : epoch = f.epoch) :
    (f.pushing number epoch (.ready values)).advance (.enter number) =
      some { state := { f.pushing number epoch .writing with writer := some ⟨some number, values, .none⟩ } } := by
  have unwritten' : (f.pushing number epoch (.ready values)).writer = none := unwritten
  have current' : epoch = (f.pushing number epoch (.ready values)).epoch := current
  simp only [advance, push?_pushing, unwritten', if_pos current', setPhase_pushing]

theorem settle_pushing (unwritten : f.writer = none) :
    ({ f.pushing number epoch .writing with writer := some ⟨some number, [], .none⟩ } : Feed V H R).advance .settle =
      some { state := f.pushing number epoch .leaving } := by
  cases f
  subst unwritten
  simp [advance, settleWriter, pushing, setPhase]

theorem written_pushing (phase : PushPhase V R) :
    (f.pushing number epoch phase).written values = (f.written values).pushing number epoch phase := by
  rw [written_eq, written_congr (f := f) (g := f.pushing number epoch phase) rfl, written_eq f]
  rfl

theorem advance_leave (pushless : f.pushes = []) (kept : f.handles ≠ 0) (unretired : f.retiring = false) :
    (f.pushing number epoch .leaving).advance (.leave number) = some { state := f } := by
  cases f
  subst pushless unretired
  have owned : ¬ (_ : Nat) = 0 := kept
  simp [advance, pushing, push?, owners, owned]

end Pushing

theorem settle_refresh {f : Feed V H R} (free : f.holder = none) (unwritten : f.writer = none) :
    ({ f.busy (.writing .refresh) with writer := some ⟨none, [], .none⟩ } : Feed V H R).advance .settle =
      some { state := f, answer := some .done } := by
  cases f
  subst free unwritten
  rfl

theorem settle_activation {f : Feed V H R} (unwritten : f.writer = none) {purpose : Purpose H}
    (registers : purpose ≠ .refresh) :
    ({ f.busy (.writing purpose) with writer := some ⟨none, [], .none⟩ } : Feed V H R).advance .settle =
      some
        { state := ({ f with callbacks := f.callbacks ++ [f.epoch] } : Feed V H R).busy (.registering purpose)
          effects := [.asked (.register f.epoch)] } := by
  cases f
  subst unwritten
  cases purpose with
  | refresh => exact absurd rfl registers
  | _ => rfl

end Feed

end LazyHub
