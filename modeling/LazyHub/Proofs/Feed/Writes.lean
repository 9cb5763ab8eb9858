import LazyHub.Proofs.Feed.Outlets
import LazyHub.Proofs.Gate

/-!
# What is written, and who is told of it

Only a write changes what a signal's cache holds (`Feed.writes`). A change that a push has made is on
its way to the signal's subscribers in two more steps, a look at whether there are any (`Feed.looks`)
and the posting (`Feed.posts`), and between them it is in the hands of the holder of the update lock
(`Feed.fresh`, `Feed.wanted`). All this is read off a run's trail, and three accounts say how it hangs
together: a signal's cache has been through all that was written to it (`cached?_of_run`), each change is
looked after once (`seen_of_run`), and what is posted are the changes that found somebody
(`posted_of_run`).
-/

namespace LazyHub

variable {V H R : Type}

/-- A value on its way through an outlet. -/
structure Write (V : Type) where
  /-- The push whose value it is, or nothing if the holder of the state lock writes. -/
  push : Option Nat
  /-- The value, and the signal it is for. -/
  emission : Emission V

/-- A look at whether anyone is to be told of a change. -/
structure Look (V : Type) where
  /-- The change. -/
  emission : Emission V
  /-- Whether anyone is subscribed to its signal. -/
  watched : Bool

/-- The values addressed to a signal, in order. -/
def valuesFor (signal : SignalId) (es : List (Emission V)) : List V :=
  es.filterMap fun e => if e.signal = signal then some e.value else none

/-- What a signal's gate is offered by some writes, and whether a change is to be looked after: it is
if a push writes. -/
def offers (signal : SignalId) (ws : List (Write V)) : List (V × Bool) :=
  ws.filterMap fun w => if w.emission.signal = signal then some (w.emission.value, w.push.isSome) else none

/-- What the subscribers of a signal are owed by some effects. -/
def owedTo (signal : SignalId) (es : List (FeedEffect V)) : List V :=
  es.filterMap fun
    | .owed s value => if s = signal then some value else none
    | _ => none

theorem valuesFor_append (signal : SignalId) (xs ys : List (Emission V)) :
    valuesFor signal (xs ++ ys) = valuesFor signal xs ++ valuesFor signal ys := List.filterMap_append

theorem offers_append (signal : SignalId) (xs ys : List (Write V)) :
    offers signal (xs ++ ys) = offers signal xs ++ offers signal ys := List.filterMap_append

theorem owedTo_append (signal : SignalId) (xs ys : List (FeedEffect V)) :
    owedTo signal (xs ++ ys) = owedTo signal xs ++ owedTo signal ys := List.filterMap_append

theorem map_fst_offers (signal : SignalId) (ws : List (Write V)) :
    (offers signal ws).map (·.1) = valuesFor signal (ws.map (·.emission)) := by
  induction ws with
  | nil => rfl
  | cons w rest ih =>
    by_cases h : w.emission.signal = signal
    · simpa [offers, valuesFor, h] using ih
    · simpa [offers, valuesFor, h] using ih

theorem mem_offers {signal : SignalId} {ws : List (Write V)} {p : V × Bool} (h : p ∈ offers signal ws) :
    ∃ w ∈ ws, w.emission.signal = signal ∧ p.2 = w.push.isSome := by
  obtain ⟨w, hw, made⟩ := List.mem_filterMap.1 h
  split at made
  · rename_i named
    cases made
    exact ⟨w, hw, named, rfl⟩
  · cases made

/-- The changes that somebody was found to be told of. -/
def found (ls : List (Look V)) : List (Emission V) := (ls.filter (·.watched)).map (·.emission)

theorem found_append (xs ys : List (Look V)) : found (xs ++ ys) = found xs ++ found ys := by
  rw [found, List.filter_append, List.map_append, found, found]

/-- If somebody was found to be told of every change of a signal, these changes are found. -/
theorem valuesFor_found {signal : SignalId} {ls : List (Look V)}
    (all : ∀ w ∈ ls, w.emission.signal = signal → w.watched) :
    valuesFor signal (found ls) = valuesFor signal (ls.map (·.emission)) := by
  induction ls with
  | nil => rfl
  | cons w rest ih =>
    have rest' := ih fun w hw => all w (List.mem_cons_of_mem _ hw)
    rw [found, valuesFor] at rest'
    by_cases named : w.emission.signal = signal
    · simp [found, valuesFor, named, all w List.mem_cons_self named, rest']
    · by_cases watched : w.watched <;> simp [found, valuesFor, named, watched, rest']

namespace Feed

/-- What a step writes, if it is a write. -/
def write? (f : Feed V H R) : FeedLabel V H R → Option (Write V)
  | .advance .write =>
    match f.writer with
    | some ⟨push, e :: _, .none⟩ => some ⟨push, e⟩
    | _ => none
  | _ => none

/-- What a step finds out, if it is a look. -/
def look? (f : Feed V H R) : FeedLabel V H R → Option (Look V)
  | .advance .look =>
    match f.writer with
    | some ⟨_, _, .fresh e⟩ => some ⟨e, f.isWatched e.signal⟩
    | _ => none
  | _ => none

/-- What a step posts, and for which push. -/
def post? (f : Feed V H R) : FeedLabel V H R → Option (Write V)
  | .advance .post =>
    match f.writer with
    | some ⟨push, _, .wanted e⟩ => some ⟨push, e⟩
    | _ => none
  | _ => none

/-- What is written in the course of a run. -/
def writes (trail : List (Moment (Feed V H R) (FeedLabel V H R) (FeedEffect V))) : List (Write V) :=
  trail.filterMap fun m => m.before.write? m.label

/-- What is found out in the course of a run about who is to be told. -/
def looks (trail : List (Moment (Feed V H R) (FeedLabel V H R) (FeedEffect V))) : List (Look V) :=
  trail.filterMap fun m => m.before.look? m.label

/-- What is posted in the course of a run. -/
def posts (trail : List (Moment (Feed V H R) (FeedLabel V H R) (FeedEffect V))) : List (Write V) :=
  trail.filterMap fun m => m.before.post? m.label

/-- The change that the holder of the update lock has yet to look after. -/
def fresh (f : Feed V H R) : List (Emission V) :=
  match f.writer with
  | some ⟨_, _, .fresh e⟩ => [e]
  | _ => []

/-- The change that the holder of the update lock has yet to post. -/
def wanted (f : Feed V H R) : List (Emission V) :=
  match f.writer with
  | some ⟨_, _, .wanted e⟩ => [e]
  | _ => []

/-- The change that the holder of the update lock is not done with. -/
def news (f : Feed V H R) : List (Emission V) := f.wanted ++ f.fresh

theorem news_of_free {f : Feed V H R} (free : f.writer = none) : f.fresh = [] ∧ f.wanted = [] := by
  simp [fresh, wanted, free]

theorem news_eq_nil {f : Feed V H R} (free : f.writer = none) : f.news = [] := by
  rw [news, (news_of_free free).1, (news_of_free free).2, List.append_nil]

theorem news_of_writer {f : Feed V H R} {w : Writer V} (writing : f.writer = some w) :
    f.news =
      match w.news with
      | .none => []
      | .fresh e | .wanted e => [e] := by
  obtain ⟨push, rest, news⟩ := w
  cases news <;> simp [Feed.news, fresh, wanted, writing]

@[simp] theorem writes_nil :
    writes ([] : List (Moment (Feed V H R) (FeedLabel V H R) (FeedEffect V))) = [] := rfl

theorem writes_cons (m : Moment (Feed V H R) (FeedLabel V H R) (FeedEffect V))
    (rest : List (Moment (Feed V H R) (FeedLabel V H R) (FeedEffect V))) :
    writes (m :: rest) = (m.before.write? m.label).toList ++ writes rest := by
  cases h : m.before.write? m.label <;> simp [writes, h]

theorem looks_cons (m : Moment (Feed V H R) (FeedLabel V H R) (FeedEffect V))
    (rest : List (Moment (Feed V H R) (FeedLabel V H R) (FeedEffect V))) :
    looks (m :: rest) = (m.before.look? m.label).toList ++ looks rest := by
  cases h : m.before.look? m.label <;> simp [looks, h]

theorem posts_cons (m : Moment (Feed V H R) (FeedLabel V H R) (FeedEffect V))
    (rest : List (Moment (Feed V H R) (FeedLabel V H R) (FeedEffect V))) :
    posts (m :: rest) = (m.before.post? m.label).toList ++ posts rest := by
  cases h : m.before.post? m.label <;> simp [posts, h]

theorem writes_append (first second : List (Moment (Feed V H R) (FeedLabel V H R) (FeedEffect V))) :
    writes (first ++ second) = writes first ++ writes second := List.filterMap_append

theorem write?_of_writer {f : Feed V H R} {push : Option Nat} {e : Emission V} {rest : List (Emission V)}
    (writing : f.writer = some ⟨push, e :: rest, .none⟩) : f.write? (.advance .write) = some ⟨push, e⟩ := by
  simp only [write?, writing]

theorem post?_of_writer {f : Feed V H R} {push : Option Nat} {e : Emission V} {rest : List (Emission V)}
    (posting : f.writer = some ⟨push, rest, .wanted e⟩) : f.post? (.advance .post) = some ⟨push, e⟩ := by
  simp only [post?, posting]

theorem write?_eq_none {f : Feed V H R} {l : FeedLabel V H R} (other : l ≠ .advance .write) :
    f.write? l = none := by
  unfold write?
  split
  · exact absurd rfl other
  · rfl

theorem post?_eq_none {f : Feed V H R} {l : FeedLabel V H R} (other : l ≠ .advance .post) :
    f.post? l = none := by
  unfold post?
  split
  · exact absurd rfl other
  · rfl

theorem watched_of_look? {f : Feed V H R} {l : FeedLabel V H R} {w : Look V}
    (looked : f.look? l = some w) : w.watched = f.isWatched w.emission.signal := by
  unfold look? at looked
  split at looked
  · split at looked
    · cases looked
      rfl
    · cases looked
  · cases looked

/-! ### One step -/

/-- A feed's caches are determined by its keys and its gates. -/
theorem cached?_congr {f g : Feed V H R} (keys : g.keys = f.keys) (gates : g.gates = f.gates)
    (signal : SignalId) : g.cached? signal = f.cached? signal := by
  have find : ∀ k : Feed V H R,
      k.cached? signal = ((k.keys.zip k.gates).find? (·.1.id = signal)).map (·.2.value) := fun k => by
    rw [Feed.keys, Feed.gates, List.zip_map', List.find?_map, Option.map_map]
    rfl
  rw [find, find, keys, gates]

theorem cached?_attach (f : Feed V H R) (signal : SignalId) (token : Token) (handler : H) (s : SignalId) :
    (f.attach signal token handler).cached? s = f.cached? s := by
  refine cached?_congr ?_ ?_ s
  · exact map_modifyFirst (c := fun o => { o with subscribers := o.subscribers.insert token handler }) (fun _ => rfl) _
  · exact map_modifyFirst (c := fun o => { o with subscribers := o.subscribers.insert token handler }) (fun _ => rfl) _

theorem cached?_of_outlets {f g : Feed V H R} (same : g.outlets = f.outlets) (signal : SignalId) :
    g.cached? signal = f.cached? signal := by
  rw [cached?, cached?, outlet?, outlet?, same]

theorem isSome_of_cached? {f : Feed V H R} {signal : SignalId} {v : V} (known : f.cached? signal = some v) :
    (f.outlet? signal).isSome := by
  rw [← Option.isSome_map (f := fun o : Outlet V H => o.gate.value)]
  exact Option.isSome_of_eq_some known

variable [SignalValue V]

/-- What a push changes in a step. -/
def changed (f : Feed V H R) (l : FeedLabel V H R) : List (Emission V) :=
  match f.write? l with
  | some ⟨some _, e⟩ => if f.isChange e then [e] else []
  | _ => []

/-- What pushes change in the course of a run. -/
def changesIn (trail : List (Moment (Feed V H R) (FeedLabel V H R) (FeedEffect V))) : List (Emission V) :=
  trail.flatMap fun m => m.before.changed m.label

theorem cached?_writeGate (f : Feed V H R) (e : Emission V) (signal : SignalId) :
    (f.writeGate e).cached? signal =
      (f.cached? signal).map (settled · (valuesFor signal [e])) := by
  have found := outlet?_modifyOutlet f e.signal
    (c := fun o => { o with gate := (o.gate.offer e.value).2 }) (fun _ => rfl) signal
  rw [cached?, writeGate, found, cached?]
  by_cases h : signal = e.signal
  · subst h
    simp [valuesFor, Function.comp_def, Gate.value_offer]
  · simp [valuesFor, h, Ne.symm h, Function.comp_def]

theorem isChange_eq {f : Feed V H R} {e : Emission V} {v : V} (known : f.cached? e.signal = some v) :
    f.isChange e = !SignalValue.same v e.value := by
  obtain ⟨o, ho, rfl⟩ := Option.map_eq_some_iff.1 known
  simp [isChange, ho, Gate.offer_fst]

/-- A change is what the signal's cache holds afterwards. -/
theorem cached?_of_isChange {f : Feed V H R} {e : Emission V} (change : f.isChange e) :
    (f.writeGate e).cached? e.signal = some e.value := by
  cases known : f.cached? e.signal with
  | none =>
    have none : f.outlet? e.signal = none := by simpa [cached?] using known
    simp [isChange, none] at change
  | some v =>
    have apart : SignalValue.same v e.value = false := by simpa [isChange_eq known] using change
    rw [cached?_writeGate, known]
    simp [valuesFor, apart]

variable {f : Feed V H R} {l : FeedLabel V H R} {r : Result V H R}

theorem Transition.cached?_eq (t : f.Transition l r) (signal : SignalId) :
    r.state.cached? signal =
      (f.cached? signal).map (settled · (valuesFor signal ((f.write? l).toList.map (·.emission)))) := by
  by_cases written : l = .advance .write
  · subst written
    cases t with
    | write writing =>
      rw [write?_of_writer writing]
      exact cached?_writeGate f _ signal
  · rw [write?_eq_none written, cached?_congr t.keys_eq (t.gates_eq written)]
    simp [valuesFor]

/-- What is owed to subscribers is what is posted. -/
theorem Transition.owedTo_eq (t : f.Transition l r) (signal : SignalId) :
    owedTo signal r.effects = valuesFor signal ((f.post? l).toList.map (·.emission)) := by
  by_cases posted : l = .advance .post
  · subst posted
    cases t with
    | post posting =>
      rw [post?_of_writer posting]
      rfl
  · rw [post?_eq_none posted]
    cases t with
    | post => exact absurd rfl posted
    | cleared | clearedInactive => dsimp only; split <;> rfl
    | _ => rfl

/-- Only a posting owes subscribers anything. -/
theorem Transition.owedTo_eq_nil (t : f.Transition l r) (other : l ≠ .advance .post) (signal : SignalId) :
    owedTo signal r.effects = [] := by
  rw [t.owedTo_eq, post?_eq_none other]
  rfl

/-- What a push changes is looked after later, unless this is the look. -/
theorem Transition.fresh_eq (t : f.Transition l r) :
    f.fresh ++ f.changed l = (f.look? l).toList.map (·.emission) ++ r.state.fresh := by
  cases t with
  | @write push e rest writing =>
    cases push with
    | none => simp [fresh, changed, write?, look?, writing]
    | some number => by_cases change : f.isChange e <;> simp [fresh, changed, write?, look?, writing, change]
  | @look push e rest looking =>
    by_cases watched : f.isWatched e.signal <;> simp [fresh, changed, write?, look?, looking, watched]
  | post writing | settlePush writing | settleRefresh _ writing | settle _ _ writing =>
    simp [fresh, changed, write?, look?, writing, setPhase]
  | seed _ free | pushAccepted _ free => simp [fresh, changed, write?, look?, free]
  | _ => exact List.append_nil _

/-- What somebody is found to be told of is posted later, unless this is the posting. -/
theorem Transition.wanted_eq (t : f.Transition l r) :
    f.wanted ++ found (f.look? l).toList = (f.post? l).toList.map (·.emission) ++ r.state.wanted := by
  cases t with
  | @write push e rest writing =>
    by_cases change : push.isSome && f.isChange e <;> simp [wanted, found, look?, post?, writing, change]
  | @look push e rest looking =>
    by_cases watched : f.isWatched e.signal <;> simp [wanted, found, look?, post?, looking, watched]
  | post writing | settlePush writing | settleRefresh _ writing | settle _ _ writing =>
    simp [wanted, found, look?, post?, writing, setPhase]
  | seed _ free | pushAccepted _ free => simp [wanted, found, look?, post?, free]
  | _ => exact List.append_nil _

theorem valuesFor_changed {signal : SignalId} {v : V} (known : f.cached? signal = some v)
    (l : FeedLabel V H R) : valuesFor signal (f.changed l) = notices v (offers signal (f.write? l).toList) := by
  unfold changed
  cases written : f.write? l with
  | none => rfl
  | some w =>
    obtain ⟨push, e⟩ := w
    by_cases named : e.signal = signal
    · subst named
      cases push with
      | none => simp [valuesFor, offers, notices]
      | some number =>
        cases alike : SignalValue.same v e.value <;> simp [valuesFor, offers, notices, isChange_eq known, alike]
    · cases push with
      | none => simp [valuesFor, offers, notices, named]
      | some number => by_cases change : f.isChange e <;> simp [valuesFor, offers, notices, change, named]

/-! ### A run -/

section Run

variable {labels : List (FeedLabel V H R)} {f k : Feed V H R} {es : List (FeedEffect V)}

/-- **Caches are what was written.** After a run, a signal's cache has been through everything that
was written to it, in order. -/
theorem cached?_of_run (ran : run Feed.step labels f = some (k, es)) (signal : SignalId) :
    k.cached? signal = (f.cached? signal).map
      (settled · (valuesFor signal ((writes (trail Feed.step labels f)).map (·.emission)))) := by
  induction labels generalizing f es with
  | nil =>
    cases ran
    simp [valuesFor]
  | cons l rest ih =>
    obtain ⟨r, later, made, onward, rfl⟩ := run_cons.1 ran
    rw [ih onward, (transition_of_step made).cached?_eq, trail_cons made, writes_cons, List.map_append,
      valuesFor_append, Option.map_map]
    simp only [Function.comp_def, settled_append]

/-- **Each change is looked after.** What pushes change in the course of a run is, in order, what they
look after, apart from the last change at both ends of the run. -/
theorem seen_of_run (ran : run Feed.step labels f = some (k, es)) :
    f.fresh ++ changesIn (trail Feed.step labels f) =
      (looks (trail Feed.step labels f)).map (·.emission) ++ k.fresh := by
  induction labels generalizing f es with
  | nil =>
    cases ran
    exact List.append_nil _
  | cons l rest ih =>
    obtain ⟨r, later, made, onward, rfl⟩ := run_cons.1 ran
    rw [trail_cons made, changesIn, List.flatMap_cons, ← changesIn, looks_cons, List.map_append,
      ← List.append_assoc, (transition_of_step made).fresh_eq, List.append_assoc, ih onward, List.append_assoc]

/-- **What finds somebody is posted.** What is posted in the course of a run are, in order, the changes
that somebody was found to be told of, apart from the last one at both ends of the run. -/
theorem posted_of_run (ran : run Feed.step labels f = some (k, es)) :
    f.wanted ++ found (looks (trail Feed.step labels f)) =
      (posts (trail Feed.step labels f)).map (·.emission) ++ k.wanted := by
  induction labels generalizing f es with
  | nil =>
    cases ran
    exact List.append_nil _
  | cons l rest ih =>
    obtain ⟨r, later, made, onward, rfl⟩ := run_cons.1 ran
    rw [trail_cons made, looks_cons, found_append, posts_cons, List.map_append, ← List.append_assoc,
      (transition_of_step made).wanted_eq, List.append_assoc, ih onward, List.append_assoc]

/-- **Notifications are what is posted.** -/
theorem owedTo_of_run (ran : run Feed.step labels f = some (k, es)) (signal : SignalId) :
    owedTo signal es = valuesFor signal ((posts (trail Feed.step labels f)).map (·.emission)) := by
  induction labels generalizing f es with
  | nil =>
    cases ran
    rfl
  | cons l rest ih =>
    obtain ⟨r, later, made, onward, rfl⟩ := run_cons.1 ran
    rw [owedTo_append, (transition_of_step made).owedTo_eq, ih onward, trail_cons made, posts_cons,
      List.map_append, valuesFor_append]

/-- Nobody but pushes changes anything that is looked after. -/
theorem changesIn_eq_nil {past : List (Moment (Feed V H R) (FeedLabel V H R) (FeedEffect V))}
    (pulled : ∀ w ∈ writes past, w.push = none) : changesIn past = [] := by
  refine List.flatMap_eq_nil_iff.2 fun m hm => ?_
  unfold changed
  split
  · rename_i e written
    cases pulled _ (List.mem_filterMap.2 ⟨m, hm, written⟩)
  · rfl

/-- What pushes change is what they write and the signal's gate lets through. -/
theorem changesIn_of_run (ran : run Feed.step labels f = some (k, es)) {signal : SignalId} {v : V}
    (known : f.cached? signal = some v) :
    valuesFor signal (changesIn (trail Feed.step labels f)) =
      notices v (offers signal (writes (trail Feed.step labels f))) := by
  induction labels generalizing f es v with
  | nil => rfl
  | cons l rest ih =>
    obtain ⟨r, later, made, onward, rfl⟩ := run_cons.1 ran
    have t := transition_of_step made
    have next := t.cached?_eq signal
    rw [known, Option.map_some] at next
    rw [trail_cons made, changesIn, List.flatMap_cons, valuesFor_append, valuesFor_changed known, ← changesIn,
      ih onward next, writes_cons, offers_append, notices_append, map_fst_offers]

end Run

end Feed

end LazyHub
