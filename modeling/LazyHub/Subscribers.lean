import LazyHub.Identity

/-!
# Subscribers

The subscribers of one signal, each under the token of its subscription. `Subscribers` keeps
them in ascending order of token, which is the order in which they are called. A delivery works
on the `snapshot` taken when it starts, so what a subscriber does to the collection while it is
called shows from the next delivery on.

`deliverIsolated` calls everyone and counts the panics; `deliver` stops at the first panic. A value
that is sent (`Subscribers.sendIsolated`, `Subscribers.send`) is handed out to those in the snapshot:
the last one is given the value itself, and everyone before it a copy.
-/

namespace LazyHub

open Text

variable {H V : Type}

/-- Subscribers by token, in ascending order of token. -/
structure Subscribers (H : Type) where
  /-- The tokens and what is subscribed under them. -/
  entries : List (Token × H) := []
  /-- Tokens ascend, so no token occurs twice. -/
  ascending : entries.Pairwise fun a b => a.1.serial < b.1.serial := by exact .nil

namespace Subscribers

/-- Put an entry at its place in an ascending list, in place of one under the same token. -/
def place (token : Token) (handler : H) : List (Token × H) → List (Token × H)
  | [] => [(token, handler)]
  | (t, h) :: rest =>
    if token.serial < t.serial then (token, handler) :: (t, h) :: rest
    else if token.serial = t.serial then (token, handler) :: rest
    else (t, h) :: place token handler rest

/-- What stands in a list after an entry is placed stood there before or is the entry. -/
theorem mem_place {token : Token} {handler : H} {entries : List (Token × H)} {e : Token × H}
    (h : e ∈ place token handler entries) : e = (token, handler) ∨ e ∈ entries := by
  induction entries with
  | nil => simpa [place] using h
  | cons p rest ih =>
    obtain ⟨t, k⟩ := p
    simp only [place] at h
    split at h
    · simpa using h
    · split at h
      · rcases List.mem_cons.1 h with h | h
        · exact .inl h
        · exact .inr (List.mem_cons_of_mem _ h)
      · rcases List.mem_cons.1 h with h | h
        · exact .inr (h ▸ List.mem_cons_self)
        · exact (ih h).imp_right (List.mem_cons_of_mem _)

/-- Placing an entry keeps tokens ascending. -/
theorem ascending_place {token : Token} {handler : H} {entries : List (Token × H)}
    (h : entries.Pairwise fun a b => a.1.serial < b.1.serial) :
    (place token handler entries).Pairwise fun a b => a.1.serial < b.1.serial := by
  induction entries with
  | nil => simp [place]
  | cons p rest ih =>
    obtain ⟨t, k⟩ := p
    obtain ⟨first, later⟩ := List.pairwise_cons.1 h
    simp only [place]
    split
    · rename_i lt
      refine List.pairwise_cons.2 ⟨fun e he => ?_, h⟩
      rcases List.mem_cons.1 he with rfl | he
      · exact lt
      · exact Nat.lt_trans lt (first e he)
    · split
      · rename_i eq
        exact List.pairwise_cons.2 ⟨fun e he => eq ▸ first e he, later⟩
      · rename_i notLt ne
        refine List.pairwise_cons.2 ⟨fun e he => ?_, ih later⟩
        rcases mem_place he with rfl | he
        · simp only at notLt ne ⊢
          omega
        · exact first e he

/-- Nobody. -/
def empty : Subscribers H := {}

/-- Subscribe under a token, in place of whoever was subscribed under it. -/
def insert (s : Subscribers H) (token : Token) (handler : H) : Subscribers H :=
  ⟨place token handler s.entries, ascending_place s.ascending⟩

/-- End the subscription under a token, if there is one. -/
def erase (s : Subscribers H) (token : Token) : Subscribers H :=
  ⟨s.entries.filter (·.1 ≠ token), s.ascending.filter _⟩

/-- Whether someone is subscribed under a token. -/
def contains (s : Subscribers H) (token : Token) : Bool := s.entries.any (·.1 = token)

/-- How many are subscribed. -/
def size (s : Subscribers H) : Nat := s.entries.length

/-- Whether nobody is subscribed. -/
def isEmpty (s : Subscribers H) : Bool := s.entries.isEmpty

/-- Those subscribed now, in the order in which a delivery that starts now calls them. -/
def snapshot (s : Subscribers H) : List (Token × H) := s.entries

/-- The form used in diagnostics. -/
def inspect (s : Subscribers H) : String :=
  Diagnostic.record "Listeners" [("count", toString s.size)]

instance : Inhabited (Subscribers H) := ⟨empty⟩

end Subscribers

variable {m : Type → Type} [Monad m]

/-- Call everyone in a snapshot in order, whether or not a call panics, and count the panics. -/
def deliverIsolated (call : Token → H → m Bool) : List (Token × H) → m Nat
  | [] => pure 0
  | (token, handler) :: rest => do
    let panicked ← call token handler
    let more ← deliverIsolated call rest
    pure (if panicked then more + 1 else more)

/-- Call those in a snapshot in order up to the first whose call panics, and tell whether one did. -/
def deliver (call : Token → H → m Bool) : List (Token × H) → m Bool
  | [] => pure false
  | (token, handler) :: rest => do
    if ← call token handler then pure true else deliver call rest

/-- Hand a value out to those in a snapshot: the last one is given the value itself, the others a copy. -/
def handOut (copy : V → V) (value : V) : List (Token × H) → List (Token × H × V)
  | [] => []
  | [(token, handler)] => [(token, handler, value)]
  | (token, handler) :: next :: rest => (token, handler, copy value) :: handOut copy value (next :: rest)

/-- Make a call, and note it if it panics. -/
def noting (call : Token → H → V → m Bool) (note : Token → m Unit) (token : Token) (handler : H) (value : V) :
    m Bool := do
  let panicked ← call token handler value
  if panicked then note token
  pure panicked

namespace Subscribers

/-- Send a value to everyone who is subscribed `now`. A call that panics is noted, and the others are
made all the same; tell how many panicked. -/
def sendIsolated (now : m (Subscribers H)) (copy : V → V) (call : Token → H → V → m Bool)
    (note : Token → m Unit) (value : V) : m Nat := do
  let everyone := handOut copy value (← now).snapshot
  deliverIsolated (fun token told => noting call note token told.1 told.2) everyone

/-- Send a value to those who are subscribed `now`, up to the first whose call panics, and tell whether
one did. -/
def send (now : m (Subscribers H)) (copy : V → V) (call : Token → H → V → m Bool) (value : V) : m Bool := do
  let everyone := handOut copy value (← now).snapshot
  deliver (fun token told => call token told.1 told.2) everyone

end Subscribers

end LazyHub
