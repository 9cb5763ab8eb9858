import LazyHub.Step

/-!
# Runs of a machine

General facts on `run`. A run of a joined word is a run of the first part and then of the second
(`run_append`), and what every step keeps a run keeps (`run_keeps`).

`trail` is the history of a run: its steps in order, each with the state in which it was made. What a
run did is read off its trail, and an invariant may speak of it (`run_remembers`).

A machine whose steps correspond to those of another one has corresponding runs (`run_map`).

Whoever sees less than the state, and not every step, sees a history all the same (`SeenAs`). If each step that
is seen can be made from what is seen, that history is a run's (`run_seen`).
-/

namespace LazyHub

variable {S L E : Type} {step : S → L → Option (Stepped S E)}

@[simp] theorem run_nil (s : S) : run step [] s = some (s, []) := rfl

theorem run_cons {l : L} {rest : List L} {s t : S} {es : List E} :
    run step (l :: rest) s = some (t, es) ↔
      ∃ r later, step s l = some r ∧ run step rest r.state = some (t, later) ∧
        es = r.effects ++ later := by
  constructor
  · intro h
    cases hs : step s l with
    | none => simp [run, hs] at h
    | some r =>
      simp only [run, hs, Option.map_eq_some_iff, Prod.mk.injEq, Prod.exists] at h
      obtain ⟨t', later, hr, rfl, rfl⟩ := h
      exact ⟨r, later, rfl, hr, rfl⟩
  · rintro ⟨r, later, hs, hr, rfl⟩
    simp [run, hs, hr]

theorem run_singleton {l : L} {s : S} {r : Stepped S E} (h : step s l = some r) :
    run step [l] s = some (r.state, r.effects) :=
  run_cons.2 ⟨r, [], h, rfl, by simp⟩

/-- A run of a joined word is a run of the first part, and then of the second. -/
theorem run_append {first second : List L} {s t : S} {es : List E} :
    run step (first ++ second) s = some (t, es) ↔
      ∃ u before after, run step first s = some (u, before) ∧ run step second u = some (t, after) ∧
        es = before ++ after := by
  induction first generalizing s es with
  | nil =>
    constructor
    · intro h
      exact ⟨s, [], es, rfl, h, rfl⟩
    · rintro ⟨u, before, after, h₁, h₂, rfl⟩
      simp only [run_nil, Option.some.injEq, Prod.mk.injEq] at h₁
      obtain ⟨rfl, rfl⟩ := h₁
      exact h₂
  | cons l rest ih =>
    rw [List.cons_append]
    constructor
    · intro h
      obtain ⟨r, later, hs, hr, rfl⟩ := run_cons.1 h
      obtain ⟨u, before, after, h₁, h₂, rfl⟩ := ih.1 hr
      exact ⟨u, r.effects ++ before, after, run_cons.2 ⟨r, before, hs, h₁, rfl⟩, h₂, by simp⟩
    · rintro ⟨u, before, after, h₁, h₂, rfl⟩
      obtain ⟨r, later, hs, hr, rfl⟩ := run_cons.1 h₁
      exact run_cons.2 ⟨r, later ++ after, hs, ih.2 ⟨u, later, after, hr, h₂, rfl⟩, by simp⟩

/-- What every step made by a word's labels keeps, a run of the word keeps. -/
theorem run_keeps {P : S → Prop} {labels : List L} {s t : S} {es : List E}
    (keeps : ∀ l ∈ labels, ∀ {s r}, P s → step s l = some r → P r.state)
    (h : run step labels s = some (t, es)) (hs : P s) : P t := by
  induction labels generalizing s es with
  | nil =>
    simp only [run_nil, Option.some.injEq, Prod.mk.injEq] at h
    exact h.1 ▸ hs
  | cons l rest ih =>
    obtain ⟨r, later, hstep, hr, rfl⟩ := run_cons.1 h
    exact ih (fun l hl => keeps l (List.mem_cons_of_mem _ hl)) hr (keeps l List.mem_cons_self hs hstep)

/-- A step as it was made: the state it was made in, its label, and what it left behind. -/
structure Moment (S L E : Type) where
  /-- The state in which the step was made. -/
  before : S
  /-- The step's label. -/
  label : L
  /-- What the step left behind. -/
  after : Stepped S E

/-- The history of a run: its steps in order. -/
def trail (step : S → L → Option (Stepped S E)) : List L → S → List (Moment S L E)
  | [], _ => []
  | l :: rest, s =>
    match step s l with
    | none => []
    | some r => ⟨s, l, r⟩ :: trail step rest r.state

@[simp] theorem trail_nil (s : S) : trail step [] s = [] := rfl

theorem trail_cons {l : L} {rest : List L} {s : S} {r : Stepped S E} (h : step s l = some r) :
    trail step (l :: rest) s = ⟨s, l, r⟩ :: trail step rest r.state := by
  simp [trail, h]

theorem trail_append {first second : List L} {s u : S} {es : List E}
    (h : run step first s = some (u, es)) :
    trail step (first ++ second) s = trail step first s ++ trail step second u := by
  induction first generalizing s es with
  | nil =>
    simp only [run_nil, Option.some.injEq, Prod.mk.injEq] at h
    simp [h.1]
  | cons l rest ih =>
    obtain ⟨r, later, hs, hr, rfl⟩ := run_cons.1 h
    rw [List.cons_append, trail_cons hs, trail_cons hs, ih hr, List.cons_append]

/-- The history of a run has its labels. -/
theorem map_label_trail {labels : List L} {s t : S} {es : List E} (h : run step labels s = some (t, es)) :
    (trail step labels s).map (·.label) = labels := by
  induction labels generalizing s es with
  | nil => rfl
  | cons l rest ih =>
    obtain ⟨r, later, hs, hr, -⟩ := run_cons.1 h
    rw [trail_cons hs, List.map_cons, ih hr]

/-- The history of a run has its effects. -/
theorem flatMap_effects_trail {labels : List L} {s t : S} {es : List E} (h : run step labels s = some (t, es)) :
    (trail step labels s).flatMap (·.after.effects) = es := by
  induction labels generalizing s es with
  | nil =>
    cases h
    rfl
  | cons l rest ih =>
    obtain ⟨r, later, hs, hr, rfl⟩ := run_cons.1 h
    rw [trail_cons hs, List.flatMap_cons, ih hr]

/-- What every step keeps, looking back on the steps before it, a run keeps. -/
theorem run_remembers {P : List (Moment S L E) → S → Prop} {labels : List L} {s t : S} {es : List E}
    (keeps : ∀ {past s l r}, P past s → step s l = some r → P (past ++ [⟨s, l, r⟩]) r.state)
    (h : run step labels s = some (t, es)) (past : List (Moment S L E)) (now : P past s) :
    P (past ++ trail step labels s) t := by
  induction labels generalizing s es past with
  | nil =>
    simp only [run_nil, Option.some.injEq, Prod.mk.injEq] at h
    simpa [← h.1] using now
  | cons l rest ih =>
    obtain ⟨r, later, hs, hr, rfl⟩ := run_cons.1 h
    rw [trail_cons hs]
    simpa using ih hr _ (keeps now hs)

/-- Every step of a history was made, and in a state with what every step keeps. -/
theorem of_mem_trail {P : S → Prop} {labels : List L} {s : S}
    (keeps : ∀ l ∈ labels, ∀ {s r}, P s → step s l = some r → P r.state) (hs : P s) :
    ∀ m ∈ trail step labels s, m.label ∈ labels ∧ P m.before ∧ step m.before m.label = some m.after := by
  induction labels generalizing s with
  | nil => simp
  | cons l rest ih =>
    intro m mem
    cases made : step s l with
    | none => simp [trail, made] at mem
    | some r =>
      rw [trail_cons made] at mem
      rcases List.mem_cons.1 mem with rfl | mem
      · exact ⟨List.mem_cons_self, hs, made⟩
      · obtain ⟨among, found⟩ :=
          ih (fun l hl => keeps l (List.mem_cons_of_mem _ hl)) (keeps l List.mem_cons_self hs made) m mem
        exact ⟨List.mem_cons_of_mem _ among, found⟩

/-- A place in the history of a run divides the run. -/
theorem split_of_trail {labels : List L} {s t : S} {es : List E} {first after : List (Moment S L E)} {m : Moment S L E}
    (h : run step labels s = some (t, es)) (split : trail step labels s = first ++ m :: after) :
    ∃ before rest es₁ es₂, labels = before ++ m.label :: rest ∧ run step before s = some (m.before, es₁) ∧
      trail step before s = first ∧ step m.before m.label = some m.after ∧
      run step rest m.after.state = some (t, es₂) ∧ trail step rest m.after.state = after := by
  induction labels generalizing s es first with
  | nil => simp at split
  | cons l rest ih =>
    obtain ⟨r, later, made, onward, -⟩ := run_cons.1 h
    rw [trail_cons made] at split
    cases first with
    | nil =>
      obtain ⟨rfl, rfl⟩ := List.cons.inj split
      exact ⟨[], rest, [], later, rfl, rfl, rfl, made, onward, rfl⟩
    | cons m' first =>
      obtain ⟨rfl, later⟩ := List.cons.inj split
      obtain ⟨before, rest', es₁, es₂, rfl, ran, past, step, onward', future⟩ := ih onward later
      exact ⟨l :: before, rest', _, es₂, rfl, run_cons.2 ⟨r, es₁, made, ran, rfl⟩, by rw [trail_cons made, past], step,
        onward', future⟩

/-- A step in the history of a run divides the run. -/
theorem split_of_mem_trail {labels : List L} {s t : S} {es : List E} {m : Moment S L E}
    (h : run step labels s = some (t, es)) (mem : m ∈ trail step labels s) :
    ∃ first rest before after, labels = first ++ rest ∧ run step first s = some (m.before, before) ∧
      run step rest m.before = some (t, after) := by
  obtain ⟨past, future, split⟩ := List.append_of_mem mem
  obtain ⟨first, rest, before, after, rfl, ran, -, made, onward, -⟩ := split_of_trail h split
  exact ⟨first, m.label :: rest, before, _, rfl, ran, run_cons.2 ⟨m.after, after, made, onward, rfl⟩⟩

/-! ### Machines whose steps correspond -/

section Map

variable {S' L' E' : Type} {step' : S' → L' → Option (Stepped S' E')} (f : S → S') (g : L → L') (k : E → E')

/-- A step as another machine makes it. -/
def Moment.map (m : Moment S L E) : Moment S' L' E' := ⟨f m.before, g m.label, m.after.map f k⟩

variable {f g k}

/-- **Where the steps of two machines correspond, their runs do.** -/
theorem run_map (same : ∀ s l, step' (f s) (g l) = (step s l).map (Stepped.map f k)) {labels : List L} {s t : S} {es : List E}
    (ran : run step labels s = some (t, es)) :
    run step' (labels.map g) (f s) = some (f t, es.map k) ∧
      trail step' (labels.map g) (f s) = (trail step labels s).map (Moment.map f g k) := by
  induction labels generalizing s es with
  | nil =>
    cases ran
    exact ⟨rfl, rfl⟩
  | cons l rest ih =>
    obtain ⟨r, later, made, onward, rfl⟩ := run_cons.1 ran
    obtain ⟨ran', trail'⟩ := ih onward
    have made' : step' (f s) (g l) = some (r.map f k) := by rw [same, made, Option.map_some]
    refine ⟨run_cons.2 ⟨_, _, made', ran', List.map_append⟩, ?_⟩
    rw [List.map_cons, trail_cons made', trail_cons made, List.map_cons]
    exact congrArg _ trail'

end Map

/-! ### Runs that are seen in part -/

section Seen

/-- A step as it is seen. -/
def Moment.seen (view : S → S) (m : Moment S L E) : Moment S L E :=
  ⟨view m.before, m.label, ⟨view m.after.state, m.after.effects, m.after.answer⟩⟩

/-- A step is hidden and changes nothing that is seen, or it is seen and can be made from what is seen. -/
def Moment.IsSeen (step : S → L → Option (Stepped S E)) (view : S → S) (hidden : Moment S L E → Prop) (m : Moment S L E) :
    Prop :=
  hidden m ∧ view m.after.state = view m.before ∨ ¬ hidden m ∧ step (view m.before) m.label = some (m.seen view).after

/-- **A history beside what is seen of it.** -/
inductive SeenAs (view : S → S) (hidden : Moment S L E → Prop) : List (Moment S L E) → List (Moment S L E) → Prop where
  /-- Nothing has happened. -/
  | nil : SeenAs view hidden [] []
  /-- A step is hidden, and changes nothing that is seen. -/
  | covert {m : Moment S L E} {past seen : List (Moment S L E)} (covert : hidden m)
      (same : view m.after.state = view m.before) (onward : SeenAs view hidden past seen) :
      SeenAs view hidden (m :: past) seen
  /-- A step is seen. -/
  | overt {m : Moment S L E} {past seen : List (Moment S L E)} (overt : ¬ hidden m) (onward : SeenAs view hidden past seen) :
      SeenAs view hidden (m :: past) (m.seen view :: seen)

/-- **What is seen of a run is a run.** -/
theorem run_seen {view : S → S} {hidden : Moment S L E → Prop} {labels : List L} {s t : S} {es : List E}
    (ran : run step labels s = some (t, es)) (each : ∀ m ∈ trail step labels s, m.IsSeen step view hidden) :
    ∃ seen es', (∀ l ∈ seen, l ∈ labels) ∧ run step seen (view s) = some (view t, es') ∧
      SeenAs view hidden (trail step labels s) (trail step seen (view s)) := by
  induction labels generalizing s es with
  | nil =>
    cases ran
    exact ⟨[], [], nofun, rfl, .nil⟩
  | cons l rest ih =>
    obtain ⟨r, later, made, onward, rfl⟩ := run_cons.1 ran
    rw [trail_cons made] at each ⊢
    obtain ⟨first, each⟩ := List.forall_mem_cons.1 each
    obtain ⟨seen, es', among, ran', onward⟩ := ih onward each
    rcases first with ⟨covert, same⟩ | ⟨overt, made'⟩
    · change view r.state = view s at same
      rw [same] at ran' onward
      exact ⟨seen, es', fun l mem => List.mem_cons_of_mem _ (among l mem), ran', .covert covert same onward⟩
    · change step (view s) l = some ⟨view r.state, r.effects, r.answer⟩ at made'
      refine ⟨l :: seen, _, ?_, run_cons.2 ⟨_, es', made', ran', rfl⟩, ?_⟩
      · exact List.forall_mem_cons.2 ⟨List.mem_cons_self, fun l mem => List.mem_cons_of_mem _ (among l mem)⟩
      · rw [trail_cons made']
        exact .overt overt onward

end Seen

end LazyHub
