import LazyHub.Proofs.Delivery.Turns
import LazyHub.Proofs.Hub.Delivery
import LazyHub.Proofs.Session.Operations

/-!
# Workers at work

What the workers of a hub come to whose subscribers do nothing to the hub: they keep what they are told
(`Heard`), and panic or not as they please (`Act.listen`). A turn of a worker hands what is first in its
queue to those who are subscribed (`works_turn`); as many turns as things wait empty all queues
(`drain_at`); and a flush does that, and nothing else (`flush_at`).

Workers take turns in an order that depends on how many they are, but what is told of one signal is not
affected by it: what was told of it and what waits to be told of it is the same after a turn as before
(`Delivers.told`).
-/

namespace LazyHub

variable {V H R : Type}

/-- What a subscriber is told when it is called. -/
structure Heard (V H : Type) where
  /-- The signal that has changed. -/
  signal : SignalId
  /-- The subscription. -/
  token : Token
  /-- What is subscribed. -/
  handler : H
  /-- The signal's value. -/
  value : V

/-- A subscriber that does nothing to the hub: it keeps what it is told, and panics or not, depending on what was
told so far. -/
def Act.listen (panics : List (Heard V H) → Heard V H → Bool) (signal : SignalId) (token : Token) (handler : H) (value : V) :
    Act V H R (List (Heard V H)) Bool := fun s =>
  let told : Heard V H := ⟨signal, token, handler, value⟩
  some (panics s.memory told, { s with memory := s.memory ++ [told] })

/-- The world with its workers as a pool has them. -/
def World.withPool (w : World V H R) (p : WorkerPool (Notice V) (Delivery V H)) : World V H R :=
  { w with hub := { w.hub with pool := p } }

/-- The session after its workers have come to be as a pool has them, and have told what they had to tell. -/
def Session.worked (s : Session V H R (List (Heard V H))) (p : WorkerPool (Notice V) (Delivery V H)) (news : List (Heard V H))
    (journal : List Entry) : Session V H R (List (Heard V H)) :=
  { s with world := s.world.withPool p, memory := s.memory ++ news, journal }

theorem Session.worked_worked (s : Session V H R (List (Heard V H))) (p q : WorkerPool (Notice V) (Delivery V H))
    (news more : List (Heard V H)) (journal journal' : List Entry) :
    (s.worked p news journal).worked q more journal' = s.worked q (news ++ more) journal' := by
  rw [worked, worked, worked, List.append_assoc]
  rfl

namespace Act

variable [SignalValue V]

/-- What workers do in a session: they come to be as a pool has them, and tell what they have to tell. -/
def Works {α : Type} (act : Act V H R (List (Heard V H)) α) (s : Session V H R (List (Heard V H))) (a : α)
    (p : WorkerPool (Notice V) (Delivery V H)) (news : List (Heard V H)) : Prop :=
  (∃ journal, act s = some (a, s.worked p news journal)) ∧ s.world.Comes (s.world.withPool p)

variable {α β : Type} {c : Client V H R (List (Heard V H))} {s : Session V H R (List (Heard V H))} {w : Nat}
  {p q : WorkerPool (Notice V) (Delivery V H)} {signal : SignalId} {value : V} {rest : List (Token × H)}

/-- One thing after another, where the second has an answer that is not known beforehand. -/
theorem Works.bindSome {act : Act V H R (List (Heard V H)) α} {k : α → Act V H R (List (Heard V H)) β} {a : α} {P : β → Prop}
    {news l : List (Heard V H)} (first : act.Works s a p news)
    (second : ∀ journal, ∃ b, P b ∧ (k a).Works (s.worked p news journal) b q l) :
    ∃ b, P b ∧ (act >>= k).Works s b q (news ++ l) := by
  obtain ⟨⟨journal, ran⟩, comes⟩ := first
  obtain ⟨b, known, ⟨journal', onward⟩, comes'⟩ := second journal
  refine ⟨b, known, ⟨journal', ?_⟩, comes.trans comes'⟩
  rw [bind_at ran, onward, Session.worked_worked]

/-- One thing after another. -/
theorem Works.bind {act : Act V H R (List (Heard V H)) α} {k : α → Act V H R (List (Heard V H)) β} {a : α} {b : β}
    {news l : List (Heard V H)} (first : act.Works s a p news)
    (second : ∀ journal, (k a).Works (s.worked p news journal) b q l) :
    (act >>= k).Works s b q (news ++ l) := by
  obtain ⟨b', rfl, works⟩ := first.bindSome (P := (· = b)) fun journal => ⟨b, rfl, second journal⟩
  exact works

theorem works_pure (a : α) : (pure a : Act V H R (List (Heard V H)) α).Works s a s.world.hub.pool [] :=
  ⟨⟨s.journal, by rw [Session.worked, List.append_nil]; rfl⟩, .refl _⟩

/-- An answer is made of another one. -/
theorem Works.andPure {act : Act V H R (List (Heard V H)) α} {a : α} {news : List (Heard V H)} (works : act.Works s a p news)
    (f : α → β) : (act >>= fun a => pure (f a)).Works s (f a) p news := by
  have done := works.bind (k := fun a => pure (f a)) fun journal => works_pure (s := s.worked p news journal) (f a)
  rwa [List.append_nil] at done

/-- An act that looks at the hub. -/
theorem works_hub {next : Hub V H R → Act V H R (List (Heard V H)) α} {a : α} {news : List (Heard V H)}
    (works : (next s.world.hub).Works s a p news) : (hub >>= next).Works s a p news := by
  obtain ⟨⟨journal, ran⟩, comes⟩ := works
  exact ⟨⟨journal, (bind_at (hub_at s)).trans ran⟩, comes⟩

/-- A step of the workers that calls nobody's provider. -/
theorem works_perform {m : HubMove V H} (effects : List (HubEffect V H))
    (made : s.world.hub.step (.move m) = some { state := { s.world.hub with pool := p }, effects })
    (kept : ∀ v : World V H R, v.takeBack effects = v) :
    (perform (.move m) : Act V H R (List (Heard V H)) _).Works s none p [] := by
  have step : s.world.step (.move m) = some { state := s.world.withPool p, effects } := by
    have onHub := World.onHub_of_step made
    rw [kept] at onHub
    exact onHub
  exact ⟨⟨_, (perform_of_step step).trans (by rw [Session.worked, List.append_nil])⟩, .step (l := .move m) trivial step⟩

theorem Works.performOn {label : WorldLabel V H R} (made : (perform label : Act V H R (List (Heard V H)) _).Works s none p []) :
    (performOn label : Act V H R (List (Heard V H)) _).Works s () p [] :=
  made.bind fun journal => works_pure (s := s.worked p [] journal) ()

section Called

variable {panics : List (Heard V H) → Heard V H → Bool} (listens : c.call = listen panics)
  (spared : s.world.hub.pool.catches = true ∨ ∀ heard told, panics heard told = false)
include listens spared

/-- One subscriber is called. -/
theorem works_callOne {token : Token} {handler : H}
    (doing : s.world.hub.pool.current? w = some ⟨signal, value, (token, handler) :: rest, none⟩) :
    ∃ panicked, (panicked = true → s.world.hub.pool.catches = true) ∧
      (callOne c w signal value token handler).Works s panicked (s.world.hub.pool.setCurrent w ⟨signal, value, rest, none⟩)
        [⟨signal, token, handler, value⟩] := by
  let told : Heard V H := ⟨signal, token, handler, value⟩
  let p := s.world.hub.pool.setCurrent w ⟨signal, value, rest, some (token, handler)⟩
  have calls : (perform (.move (.call w)) : Act V H R (List (Heard V H)) _).Works s none p [] := by
    refine works_perform [.called token handler signal value] ?_ fun _ => rfl
    simp only [Hub.step, Hub.act, Hub.callNext, doing]
    rfl
  refine ⟨panics s.memory told, fun panicked => ?_, ?_⟩
  · rcases spared with caught | never
    · exact caught
    · cases (never _ _).symm.trans panicked
  refine calls.bind (l := [told]) fun journal => ?_
  have hears : (c.call signal token handler value).Works (s.worked p [] journal) (panics s.memory told) p [told] := by
    refine ⟨⟨journal, ?_⟩, .refl _⟩
    rw [listens, Session.worked, List.append_nil]
    rfl
  refine hears.bind (l := []) fun journal' => ?_
  let u := (s.worked p [] journal).worked p [told] journal'
  have current : u.world.hub.pool.current? w = some ⟨signal, value, rest, some (token, handler)⟩ := by
    refine (WorkerPool.current?_setCurrent doing w).trans (if_pos rfl)
  have returns : (perform (.move (.returned w (panics s.memory told))) : Act V H R (List (Heard V H)) _).Works u none
      (s.world.hub.pool.setCurrent w ⟨signal, value, rest, none⟩) [] := by
    rw [← WorkerPool.setCurrent_setCurrent (p := s.world.hub.pool) ⟨signal, value, rest, some (token, handler)⟩]
    cases panicked : panics s.memory told with
    | false =>
      refine works_perform [] ?_ fun _ => rfl
      simp only [Hub.step, Hub.act, Hub.callReturned, current]
      rfl
    | true =>
      refine works_perform [.noted (.subscriberPanicked token signal)] ?_ fun _ => rfl
      have caught : u.world.hub.pool.catches = true := by
        rcases spared with caught | never
        · exact caught
        · cases (never _ _).symm.trans panicked
      simp only [Hub.step, Hub.act, Hub.callReturned, current, caught]
      rfl
  exact returns.bind (l := []) fun journal'' => works_pure (s := u.worked _ [] journal'') _

/-- Everyone is called whom a delivery is to call, if panics are caught or there are none. -/
theorem works_deliverIsolated (doing : s.world.hub.pool.current? w = some ⟨signal, value, rest, none⟩) :
    ∃ panicked, True ∧ (deliverIsolated (callOne c w signal value) rest).Works s panicked
      (s.world.hub.pool.setCurrent w ⟨signal, value, [], none⟩) (rest.map fun e => ⟨signal, e.1, e.2, value⟩) := by
  induction rest generalizing s with
  | nil =>
    rw [WorkerPool.setCurrent_self doing]
    exact ⟨0, trivial, works_pure 0⟩
  | cons e rest ih =>
    obtain ⟨panicked, -, called⟩ := works_callOne listens spared doing
    let p := s.world.hub.pool.setCurrent w ⟨signal, value, rest, none⟩
    have current : p.current? w = some ⟨signal, value, rest, none⟩ :=
      (WorkerPool.current?_setCurrent doing w).trans (if_pos rfl)
    have last : p.setCurrent w ⟨signal, value, [], none⟩ = s.world.hub.pool.setCurrent w ⟨signal, value, [], none⟩ :=
      WorkerPool.setCurrent_setCurrent _ _
    refine called.bindSome (l := rest.map fun e => ⟨signal, e.1, e.2, value⟩) fun journal => ?_
    obtain ⟨more, -, onward⟩ := ih (s := s.worked p [⟨signal, e.1, e.2, value⟩] journal) spared current
    exact ⟨_, trivial, (last ▸ onward).andPure fun more => if panicked = true then more + 1 else more⟩

/-- Everyone is called whom a delivery is to call, if nobody panics. -/
theorem works_deliver (quiet : s.world.hub.pool.catches = false)
    (doing : s.world.hub.pool.current? w = some ⟨signal, value, rest, none⟩) :
    (deliver (callOne c w signal value) rest).Works s false
      (s.world.hub.pool.setCurrent w ⟨signal, value, [], none⟩) (rest.map fun e => ⟨signal, e.1, e.2, value⟩) := by
  induction rest generalizing s with
  | nil =>
    rw [WorkerPool.setCurrent_self doing]
    exact works_pure false
  | cons e rest ih =>
    obtain ⟨panicked, caught, called⟩ := works_callOne listens spared doing
    obtain rfl : panicked = false := by
      cases panicked with
      | false => rfl
      | true => cases quiet.symm.trans (caught rfl)
    let p := s.world.hub.pool.setCurrent w ⟨signal, value, rest, none⟩
    have current : p.current? w = some ⟨signal, value, rest, none⟩ :=
      (WorkerPool.current?_setCurrent doing w).trans (if_pos rfl)
    have last : p.setCurrent w ⟨signal, value, [], none⟩ = s.world.hub.pool.setCurrent w ⟨signal, value, [], none⟩ :=
      WorkerPool.setCurrent_setCurrent _ _
    refine called.bind (l := rest.map fun e => ⟨signal, e.1, e.2, value⟩) fun journal => ?_
    exact last ▸ ih (s := s.worked p [⟨signal, e.1, e.2, value⟩] journal) spared quiet current

/-- A delivery is carried out. -/
theorem works_runDelivery (doing : s.world.hub.pool.current? w = some ⟨signal, value, rest, none⟩) :
    (runDelivery c w ⟨signal, value, rest, none⟩).Works s () (s.world.hub.pool.finish w)
      (rest.map fun e => ⟨signal, e.1, e.2, value⟩) := by
  let p := s.world.hub.pool.setCurrent w ⟨signal, value, [], none⟩
  have current : p.current? w = some ⟨signal, value, [], none⟩ := (WorkerPool.current?_setCurrent doing w).trans (if_pos rfl)
  have last : p.finish w = s.world.hub.pool.finish w := by
    simp only [p, WorkerPool.setCurrent, WorkerPool.finish, WorkerPool.modifyWorker, List.modify_modify_eq]
    rfl
  have finishes : ∀ journal, (performOn (.move (.finish w)) : Act V H R (List (Heard V H)) Unit).Works
      (s.worked p (rest.map fun e => ⟨signal, e.1, e.2, value⟩) journal) () (s.world.hub.pool.finish w) [] := by
    intro journal
    rw [← last]
    refine (works_perform [] ?_ fun _ => rfl).performOn
    have current : (s.worked p (rest.map fun e => ⟨signal, e.1, e.2, value⟩) journal).world.hub.pool.current? w =
      some ⟨signal, value, [], none⟩ := current
    simp only [Hub.step, Hub.act, current]
    rfl
  refine works_hub ?_
  cases caught : s.world.hub.pool.catches with
  | true =>
    obtain ⟨panicked, -, delivers⟩ := works_deliverIsolated listens spared doing
    have ends := delivers.bind (k := fun _ => performOn (.move (.finish w))) finishes
    rwa [List.append_nil] at ends
  | false =>
    have ends := (works_deliver listens spared caught doing).bind
      (k := fun panicked => if panicked then pure () else performOn (.move (.finish w))) finishes
    rwa [List.append_nil] at ends

end Called

end Act

/-- What those are told who are subscribed, when something that waits is taken up. -/
def Hub.telling (h : Hub V H R) : Parcel (Notice V) → List (Heard V H)
  | .job signal notice => (h.subscribersOf notice.feed signal).map fun e => ⟨signal, e.1, e.2, notice.value⟩
  | .marker _ => []

namespace Act

variable [SignalValue V] {c : Client V H R (List (Heard V H))} {s : Session V H R (List (Heard V H))} {w : Nat}
  {panics : List (Heard V H) → Heard V H → Bool} (listens : c.call = listen panics)
  (spared : s.world.hub.pool.catches = true ∨ ∀ heard told, panics heard told = false)
include listens spared

/-- **One turn of a worker.** -/
theorem works_turn (ready : s.world.hub.pool.IsReady) {parcel : Parcel (Notice V)} {rest : List (Parcel (Notice V))}
    (there : w < s.world.hub.pool.size) (head : s.world.hub.pool.queue w = parcel :: rest) :
    ∃ q, s.world.hub.pool.Turned w parcel q ∧ (runWorker c w).Works s () q (s.world.hub.telling parcel) := by
  let p := s.world.hub.pool
  have next : p.next? w = some parcel := by rw [ready.next?_eq there, head, List.head?_cons]
  have takes : ∀ {q}, (p.take w fun signal notice =>
        { signal, value := notice.value, waiting := s.world.hub.subscribersOf notice.feed signal }) = some q →
      (performOn (.move (.take w)) : Act V H R (List (Heard V H)) Unit).Works s () q [] := by
    intro q taken
    refine (works_perform [] ?_ fun _ => rfl).performOn
    simp only [Hub.step, Hub.act]
    rw [taken]
    rfl
  cases parcel with
  | marker number =>
    let q := (p.modifyWorker w fun x => { x with queue := x.queue.tail }).modifyFlush number
      fun f => { f with awaited := f.awaited.filter (· ≠ w) }
    have idle : ∀ v, q.current? v = none := by
      intro v
      refine (WorkerPool.current?_modifyWorker (g := fun x => { x with queue := x.queue.tail }) (c := id) (fun _ => rfl) there
        v).trans ?_
      rw [id, ready.idle, ite_self]
    have turned : p.Turned w (.marker number) q :=
      { alike :=
          have same : WorkerPool.Alike p (p.modifyWorker w fun x => { x with queue := x.queue.tail }) :=
            WorkerPool.alike_modifyWorker fun _ => rfl
          ⟨same.size, same.catches, same.serving⟩
        queue := WorkerPool.queue_modifyWorker (g := fun x => { x with queue := x.queue.tail }) (c := List.tail) (fun _ => rfl) there
        idle
        flushes := rfl }
    refine ⟨q, turned, (takes (by simp only [WorkerPool.take, next]; rfl)).bind (l := []) fun journal => works_hub ?_⟩
    have current : (s.worked q [] journal).world.hub.pool.current? w = none := idle w
    rw [current]
    exact works_pure ()
  | job signal notice =>
    let d : Delivery V H := { signal, value := notice.value, waiting := s.world.hub.subscribersOf notice.feed signal }
    let q := p.modifyWorker w fun x => { x with queue := x.queue.tail, current := some d }
    have current : q.current? w = some d :=
      (WorkerPool.current?_modifyWorker (c := fun _ => some d) (fun _ => rfl) there w).trans (if_pos rfl)
    have last : q.finish w = p.advanced w := by
      simp only [q, WorkerPool.finish, WorkerPool.advanced, WorkerPool.modifyWorker, List.modify_modify_eq]
      rfl
    have turned : p.Turned w (.job signal notice) (p.advanced w) :=
      { alike := WorkerPool.alike_advanced p w
        queue := WorkerPool.queue_advanced there
        idle := fun v => by rw [WorkerPool.current?_advanced there, ready.idle, ite_self]
        flushes := rfl }
    refine ⟨p.advanced w, turned, ?_⟩
    refine (takes (by simp only [WorkerPool.take, next]; rfl)).bind (q := p.advanced w) fun journal => works_hub ?_
    have current' : (s.worked q [] journal).world.hub.pool.current? w = some d := current
    rw [current', ← last]
    exact works_runDelivery (s := s.worked q [] journal) listens spared current

end Act

/-- What waits to be told of a signal, first thing first. -/
def Hub.untold (h : Hub V H R) (signal : SignalId) : List (Heard V H) :=
  (h.pool.queued signal).flatMap fun notice => h.telling (.job signal notice)

theorem Hub.untold_of_drained {h : Hub V H R} (drained : ∀ w, h.pool.queue w = []) (signal : SignalId) :
    h.untold signal = [] := by
  rw [untold, WorkerPool.queued, drained]
  rfl

/-- **What the workers do in a while**: nothing changes but their queues, and what is told. -/
structure Delivers [SignalValue V] (s : Session V H R (List (Heard V H))) (news : List (Heard V H))
    (t : Session V H R (List (Heard V H))) : Prop where
  /-- Nothing changes but the pool, and what was told so far. -/
  worked : t = s.worked t.world.hub.pool news t.journal
  /-- It happens step by step. -/
  comes : s.world.Comes t.world
  /-- The workers are the same. -/
  alike : s.world.hub.pool.Alike t.world.hub.pool
  /-- No job is being done in the end. -/
  ready : t.world.hub.pool.IsReady
  /-- What was told of a signal was the first of what waited to be told. -/
  told : ∀ signal, news.filter (·.signal = signal) ++ t.world.hub.untold signal = s.world.hub.untold signal
  /-- No flush begins. -/
  unflushed : s.world.hub.pool.flushes = [] → t.world.hub.pool.flushes = []
  /-- A flush that is under way goes on. -/
  marked : ∀ number, s.world.hub.pool.IsMarked number → t.world.hub.pool.IsMarked number

namespace Delivers

variable [SignalValue V] {s t u : Session V H R (List (Heard V H))} {news more : List (Heard V H)}

theorem refl (ready : s.world.hub.pool.IsReady) : Delivers s [] s where
  worked := by rw [Session.worked, List.append_nil]; rfl
  comes := .refl _
  alike := .refl _
  ready := ready
  told _ := rfl
  unflushed := id
  marked _ := id

theorem trans (first : Delivers s news t) (second : Delivers t more u) : Delivers s (news ++ more) u where
  worked := by
    rw [second.worked, first.worked]
    simp only [Session.worked, List.append_assoc]
    rfl
  comes := first.comes.trans second.comes
  alike := first.alike.trans second.alike
  ready := second.ready
  told signal := by rw [List.filter_append, List.append_assoc, second.told, first.told]
  unflushed := second.unflushed ∘ first.unflushed
  marked number := second.marked number ∘ first.marked number

end Delivers

namespace Act

variable [SignalValue V] {settings : Settings} {plans : List (FeedPlan V)} {c : Client V H R (List (Heard V H))}
  {s : Session V H R (List (Heard V H))} {w : Nat} {panics : List (Heard V H) → Heard V H → Bool} (listens : c.call = listen panics)
include listens

/-- **One turn of a worker** hands what is first in its queue to those who are subscribed. -/
theorem turn_at (spared : s.world.hub.pool.catches = true ∨ ∀ heard told, panics heard told = false)
    (reachable : Hub.Reachable settings plans s.world.hub) (ready : s.world.hub.pool.IsReady)
    {parcel : Parcel (Notice V)} {rest : List (Parcel (Notice V))} (there : w < s.world.hub.pool.size)
    (head : s.world.hub.pool.queue w = parcel :: rest) :
    ∃ t, runWorker c w s = some ((), t) ∧ Delivers s (s.world.hub.telling parcel) t ∧
      t.world.hub.pool.load + 1 = s.world.hub.pool.load := by
  obtain ⟨q, turned, ⟨journal, ran⟩, comes⟩ := works_turn listens spared ready there head
  refine ⟨_, ran, ⟨rfl, comes, turned.alike, turned.ready ready, fun signal => ?_, fun none => ?_, fun number => turned.marked head⟩,
    WorkerPool.load_of_tail turned.alike.size there head turned.queue⟩
  · have home : ∀ signal job, parcel = .job signal job → w = s.world.hub.pool.shard signal := by
      rintro signal job rfl
      exact (reachable.staffed.routed w signal job (head ▸ List.mem_cons_self)).1
    have taken : (s.world.hub.telling parcel).filter (·.signal = signal) =
        (jobsFor signal [parcel]).flatMap fun notice => s.world.hub.telling (.job signal notice) := by
      cases parcel with
      | marker => rfl
      | job other notice =>
        by_cases eq : other = signal
        · subst eq
          simp [Hub.telling, jobsFor, List.filter_map, Function.comp_def]
        · simp [Hub.telling, jobsFor, eq, List.filter_map, Function.comp_def]
    rw [taken, Hub.untold, Hub.untold, ← turned.queued_eq head home, List.flatMap_append]
    rfl
  · have said := turned.flushes
    rw [none] at said
    cases parcel <;> exact said

/-- **As many turns as things wait** empty all queues. -/
theorem drain_at (spared : s.world.hub.pool.catches = true ∨ ∀ heard told, panics heard told = false)
    (reachable : Hub.Reachable settings plans s.world.hub) (ready : s.world.hub.pool.IsReady) {turns : Nat}
    (enough : s.world.hub.pool.load < turns) :
    ∃ t news, drain c turns s = some ((), t) ∧ Delivers s news t ∧ ∀ w, t.world.hub.pool.queue w = [] := by
  induction turns generalizing s with
  | zero => cases enough
  | succ n ih =>
    rw [drain, bind_at (hub_at s)]
    cases first : s.world.hub.pool.firstReady? with
    | none =>
      exact ⟨s, [], rfl, .refl ready, ready.queue_eq_nil first⟩
    | some w =>
      obtain ⟨mem, some'⟩ := And.intro (List.mem_of_find?_eq_some first) (List.find?_some first)
      have there := List.mem_range.1 mem
      obtain ⟨parcel, next⟩ := Option.isSome_iff_exists.1 some'
      obtain ⟨rest, head, -⟩ := WorkerPool.next?_eq_some next
      obtain ⟨t, ran, delivers, less⟩ := turn_at listens spared reachable ready there head
      obtain ⟨u, news, onward, delivers', drained⟩ := ih (s := t) (delivers.alike.catches.symm ▸ spared)
        (delivers.comes.reachable reachable) delivers.ready (by omega)
      refine ⟨u, _, ?_, delivers.trans delivers', drained⟩
      dsimp only
      rw [bind_at ran]
      exact onward

end Act

/-! ### Flushes -/

namespace Act

variable [SignalValue V] {settings : Settings} {plans : List (FeedPlan V)} {c : Client V H R (List (Heard V H))}
  {s : Session V H R (List (Heard V H))} {panics : List (Heard V H) → Heard V H → Bool}

/-- A flush sends its markers. -/
theorem works_marks {p : WorkerPool (Notice V) (Delivery V H)} {number k n : Nat} {q : WorkerPool (Notice V) (Delivery V H)}
    (ready : p.IsReady) (marked : p.Marked number k q) (left : k + n = p.size) (l : List Nat) (long : l.length = n)
    (now : s.world.hub.pool = q) :
    ∃ r, p.Marked number p.size r ∧
      (l.forM fun _ => performOn (.move (.mark number)) : Act V H R (List (Heard V H)) PUnit).Works s () r [] := by
  induction n generalizing s k q l with
  | zero =>
    obtain rfl := List.eq_nil_of_length_eq_zero long
    obtain rfl : k = p.size := left
    exact ⟨q, marked, now ▸ works_pure ()⟩
  | succ n ih =>
    obtain ⟨_, rest, rfl⟩ := List.exists_cons_of_length_eq_add_one long
    obtain ⟨r, made, marked'⟩ := marked.mark ready (by omega)
    have sends : (performOn (.move (.mark number)) : Act V H R (List (Heard V H)) Unit).Works s () r [] := by
      refine (works_perform [] ?_ fun _ => rfl).performOn
      simp only [Hub.step, Hub.act]
      rw [now, made]
      rfl
    obtain ⟨⟨journal, ran⟩, comes⟩ := sends
    obtain ⟨r', marked'', ⟨journal', onward⟩, comes'⟩ := ih (s := s.worked r [] journal) marked' (by omega) rest
      (Nat.succ.inj long) rfl
    refine ⟨r', marked'', ⟨journal', ?_⟩, comes.trans comes'⟩
    rw [Session.worked_worked] at onward
    exact (bind_at ran).trans onward

/-- **A flush** has everything told that waits. -/
theorem flush_at (listens : c.call = listen panics)
    (spared : s.world.hub.pool.catches = true ∨ ∀ heard told, panics heard told = false)
    (reachable : Hub.Reachable settings plans s.world.hub) (ready : s.world.hub.pool.IsReady)
    (unflushed : s.world.hub.pool.flushes = []) {turns : Nat}
    (enough : s.world.hub.pool.load + s.world.hub.pool.size < turns) :
    ∃ t news, flush c turns s = some ((), t) ∧ Delivers s news t ∧ ∀ w, t.world.hub.pool.queue w = [] := by
  let p := s.world.hub.pool
  have starts : (performOn (.move .startFlush) : Act V H R (List (Heard V H)) Unit).Works s () p.startFlush [] :=
    (works_perform [] rfl fun _ => rfl).performOn
  obtain ⟨⟨journal, started⟩, comes⟩ := starts
  obtain ⟨q, marked, ⟨journal', sent⟩, comes'⟩ := works_marks (s := s.worked p.startFlush [] journal) ready
    (WorkerPool.marked_startFlush unflushed) (Nat.zero_add _) (List.range p.size) List.length_range rfl
  rw [Session.worked_worked] at sent
  let u := s.worked q [] journal'
  have comes' : s.world.Comes u.world := comes.trans comes'
  obtain ⟨t, news, drained, delivers, empty⟩ := drain_at (s := u) listens
    (marked.marks.alike.catches.symm ▸ spared) (comes'.reachable reachable) (marked.ready ready) (marked.load ▸ enough)
  have resolves := (delivers.marked _ marked.isMarked).resolve empty
  let r : WorkerPool (Notice V) (Delivery V H) := { t.world.hub.pool with flushes := [] }
  have alike : WorkerPool.Alike t.world.hub.pool r := ⟨rfl, rfl, fun _ => rfl⟩
  have ends : (performOn (.move (.resolve p.flushCount)) : Act V H R (List (Heard V H)) Unit).Works t () r [] := by
    refine (works_perform [] ?_ fun _ => rfl).performOn
    simp only [Hub.step, Hub.act]
    rw [resolves]
    rfl
  obtain ⟨⟨journal'', ended⟩, comes''⟩ := ends
  refine ⟨t.worked r [] journal'', news, ?_, ?_⟩
  · have flushes : flush c turns s = (do
        performOn (.move .startFlush)
        (List.range (← hub).pool.size).forM fun _ => performOn (.move (.mark p.flushCount))
        drain c turns
        performOn (.move (.resolve p.flushCount)) : Act V H R (List (Heard V H)) Unit) s := by
      rw [flush, bind_at (hub_at s)]
    rw [flushes, bind_at started, bind_at (hub_at _)]
    exact (bind_at sent).trans ((bind_at drained).trans ended)
  · refine ⟨⟨?_, comes'.trans (delivers.comes.trans comes''), marked.marks.alike.trans (delivers.alike.trans alike),
      ⟨delivers.ready.serving, delivers.ready.idle⟩, fun signal => ?_, fun _ => rfl, fun number marked => ?_⟩, empty⟩
    · have worked := delivers.worked
      rw [worked, Session.worked_worked, Session.worked_worked, List.nil_append, List.append_nil]
      rfl
    · have queued : q.queued signal = p.queued signal := marked.marks.queued signal
      have same : u.world.hub.untold signal = s.world.hub.untold signal := by
        change (q.queued signal).flatMap _ = (p.queued signal).flatMap _
        rw [queued]
        rfl
      rw [← same, ← delivers.told]
      rfl
    · -- no flush was under way before
      obtain ⟨awaited, flushes, -⟩ := marked
      cases unflushed.symm.trans flushes

end Act

end LazyHub
