import LazyHub.Subscribers
import Mathlib.Data.List.Nodup

/-!
# The tokens of subscribers

What insertion and erasure do to a collection of subscribers, said through its tokens and its
size. A token that is not there yet makes the collection larger by one (`size_insert`), and one
that is there makes it smaller by one when it is erased (`size_erase`).
-/

namespace LazyHub.Subscribers

variable {H : Type}

/-- The tokens of the subscribers, in ascending order. -/
def tokens (s : Subscribers H) : List Token := s.entries.map (·.1)

theorem tokens_nodup (s : Subscribers H) : s.tokens.Nodup := by
  refine List.pairwise_map.2 (s.ascending.imp fun {a b} h eq => ?_)
  rw [eq] at h
  exact Nat.lt_irrefl _ h

theorem contains_iff {s : Subscribers H} {token : Token} : s.contains token ↔ token ∈ s.tokens := by
  simp [contains, tokens]

theorem length_tokens (s : Subscribers H) : s.tokens.length = s.size := by simp [tokens, size]

theorem size_pos_of_mem {s : Subscribers H} {token : Token} (h : token ∈ s.tokens) : 0 < s.size := by
  rw [← length_tokens]
  exact List.length_pos_of_mem h

/-! ### Insertion -/

/-- What stands in an ascending list after an entry is placed: the entry, and those under other
tokens that stood there before. -/
theorem mem_place_iff {token : Token} {handler : H} {entries : List (Token × H)} {e : Token × H}
    (h : entries.Pairwise fun a b => a.1.serial < b.1.serial) :
    e ∈ place token handler entries ↔ e = (token, handler) ∨ e ∈ entries ∧ e.1 ≠ token := by
  induction entries with
  | nil => simp [place]
  | cons p rest ih =>
    obtain ⟨t, k⟩ := p
    obtain ⟨first, later⟩ := List.pairwise_cons.1 h
    have apart : ∀ x ∈ rest, token.serial ≤ t.serial → x.1 ≠ token := by
      intro x hx le eq
      have := first x hx
      rw [eq] at this
      exact absurd this (Nat.not_lt.2 le)
    simp only [place]
    split
    · rename_i lt
      have ne : t ≠ token := fun eq => by simp [eq] at lt
      constructor
      · intro he
        rcases List.mem_cons.1 he with rfl | he
        · exact .inl rfl
        · refine .inr ⟨he, ?_⟩
          rcases List.mem_cons.1 he with rfl | he
          · exact ne
          · exact apart e he (Nat.le_of_lt lt)
      · rintro (rfl | ⟨he, -⟩)
        · exact List.mem_cons_self
        · exact List.mem_cons_of_mem _ he
    · split
      · rename_i eq
        have eq : t = token := by
          cases t; cases token
          simpa using eq.symm
        subst eq
        constructor
        · intro he
          rcases List.mem_cons.1 he with rfl | he
          · exact .inl rfl
          · exact .inr ⟨List.mem_cons_of_mem _ he, apart e he (Nat.le_refl _)⟩
        · rintro (rfl | ⟨he, ne⟩)
          · exact List.mem_cons_self
          · rcases List.mem_cons.1 he with rfl | he
            · exact absurd rfl ne
            · exact List.mem_cons_of_mem _ he
      · rename_i other
        have ne : t ≠ token := fun eq => other (by rw [eq])
        constructor
        · intro he
          rcases List.mem_cons.1 he with rfl | he
          · exact .inr ⟨List.mem_cons_self, ne⟩
          · rcases (ih later).1 he with rfl | ⟨he, ne⟩
            · exact .inl rfl
            · exact .inr ⟨List.mem_cons_of_mem _ he, ne⟩
        · rintro (rfl | ⟨he, ne'⟩)
          · exact List.mem_cons_of_mem _ ((ih later).2 (.inl rfl))
          · rcases List.mem_cons.1 he with rfl | he
            · exact List.mem_cons_self
            · exact List.mem_cons_of_mem _ ((ih later).2 (.inr ⟨he, ne'⟩))

theorem mem_insert_iff {s : Subscribers H} {token : Token} {handler : H} {e : Token × H} :
    e ∈ (s.insert token handler).snapshot ↔ e = (token, handler) ∨ e ∈ s.snapshot ∧ e.1 ≠ token :=
  mem_place_iff s.ascending

theorem mem_tokens_insert {s : Subscribers H} {token t : Token} {handler : H} :
    t ∈ (s.insert token handler).tokens ↔ t = token ∨ t ∈ s.tokens := by
  constructor
  · intro h
    obtain ⟨e, he, rfl⟩ := List.mem_map.1 h
    rcases mem_insert_iff.1 he with rfl | ⟨he, -⟩
    · exact .inl rfl
    · exact .inr (List.mem_map_of_mem he)
  · intro h
    by_cases eq : t = token
    · subst eq
      exact List.mem_map.2 ⟨(t, handler), mem_insert_iff.2 (.inl rfl), rfl⟩
    · obtain ⟨e, he, rfl⟩ := List.mem_map.1 (h.resolve_left eq)
      exact List.mem_map_of_mem (mem_insert_iff.2 (.inr ⟨he, eq⟩))

/-- Under a token that is not there yet, the collection gets larger by one. -/
theorem size_insert {s : Subscribers H} {token : Token} (h : token ∉ s.tokens) (handler : H) :
    (s.insert token handler).size = s.size + 1 := by
  have perm : (s.insert token handler).tokens.Perm (token :: s.tokens) :=
    (List.perm_ext_iff_of_nodup (tokens_nodup _) (List.nodup_cons.2 ⟨h, s.tokens_nodup⟩)).2 fun t => by
      rw [mem_tokens_insert, List.mem_cons]
  rw [← length_tokens, perm.length_eq, List.length_cons, length_tokens]

/-- Under a token stands one subscriber. -/
theorem filter_snapshot {s : Subscribers H} {e : Token × H} (mem : e ∈ s.snapshot) :
    s.snapshot.filter (·.1 = e.1) = [e] := by
  obtain ⟨entries, ascending⟩ := s
  simp only [snapshot] at mem ⊢
  induction entries with
  | nil => cases mem
  | cons p rest ih =>
    obtain ⟨first, later⟩ := List.pairwise_cons.1 ascending
    rcases List.mem_cons.1 mem with rfl | mem
    · have others : rest.filter (·.1 = e.1) = [] := by
        refine List.filter_eq_nil_iff.2 fun x hx same => ?_
        have lt := first x hx
        rw [of_decide_eq_true same] at lt
        exact Nat.lt_irrefl _ lt
      simp [others]
    · have ne : p.1 ≠ e.1 := fun same => by
        have lt := first e mem
        rw [same] at lt
        exact Nat.lt_irrefl _ lt
      rw [List.filter_cons_of_neg (by simpa using ne)]
      exact ih later mem

/-! ### Erasure -/

theorem mem_erase_iff {s : Subscribers H} {token : Token} {e : Token × H} :
    e ∈ (s.erase token).snapshot ↔ e ∈ s.snapshot ∧ e.1 ≠ token := by
  simp [erase, snapshot]

theorem tokens_erase (s : Subscribers H) (token : Token) :
    (s.erase token).tokens = s.tokens.erase token := by
  rw [s.tokens_nodup.erase_eq_filter]
  simp only [tokens, erase, List.filter_map, Function.comp_def]
  congr 1
  exact List.filter_congr fun e _ => by by_cases h : e.1 = token <;> simp [h]

/-- Under a token that is there, the collection gets smaller by one. -/
theorem size_erase {s : Subscribers H} {token : Token} (h : token ∈ s.tokens) :
    (s.erase token).size + 1 = s.size := by
  rw [← length_tokens, ← length_tokens, tokens_erase, List.length_erase_of_mem h]
  have := List.length_pos_of_mem h
  omega

end LazyHub.Subscribers
