/-
# Look-aside caches

A cache beside a store.  A reader takes a value from the store and puts it into the cache some time
later; a writer changes the store and drops the cell some time later; a cell may vanish at any time.
Nothing ties these steps together, so a cell can hold a value that the store has not had for long.
`AsideStep` is all that one step may do, and two things follow from it for whole runs:

* `cell_origin` -- a cell holds a value that the store had at some moment before the step that
  filled the cell, and it expires a fixed time after that step;
* `Coherent.step` -- once a key has no cell and no value of it is under way to the cache, every
  cell and every value under way is the value of the store, until the store changes.

A system is connected to this by a function from its states that takes each of its steps to an
`AsideStep`.
-/
import OrderSystem.Kit.Run

namespace OrderSystem.Kit

variable {K V σ ε : Type}

/-- A store with a cache beside it. -/
structure Aside (K V : Type) where
  clock : Int
  store : K → Option V
  /-- what was read from the store and may still be put into the cache -/
  fetched : K → V → Prop
  /-- the cells, with the time at which they expire -/
  cells : K → Option (V × Int)

/-- What one step may do: a value is fetched as it is in the store, and a cell is filled with a
value that was fetched. -/
structure AsideStep (ttl : Int) (a a' : Aside K V) : Prop where
  fetched : ∀ k v, a'.fetched k v → a.fetched k v ∨ a.store k = some v
  cells : ∀ k v expires, a'.cells k = some (v, expires) →
    a.cells k = some (v, expires) ∨ (a.fetched k v ∧ expires = a.clock + ttl)

/-! ## 1. Where a cell comes from -/

section

variable (step : σ → ε → Option σ) (view : σ → Aside K V) (s₀ : σ)

/-- The store had the value at some moment of the run. -/
def Had (es : List ε) (k : K) (v : V) : Prop :=
  ∃ before rest s, es = before ++ rest ∧ run step s₀ before = some s ∧
    (view s).store k = some v

/-- The store had the value at some moment of the run, and a later step filled the cell with it,
to expire at the given time. -/
def Filled (ttl : Int) (es : List ε) (k : K) (v : V) (expires : Int) : Prop :=
  ∃ before mid e rest s s' s'', es = before ++ mid ++ e :: rest ∧ run step s₀ before = some s ∧
    (view s).store k = some v ∧ run step s mid = some s' ∧ step s' e = some s'' ∧
    (view s'').cells k = some (v, expires) ∧ expires = (view s').clock + ttl

end

section

variable {step : σ → ε → Option σ} {view : σ → Aside K V} {s₀ : σ} {ttl : Int}

theorem Had.snoc {es : List ε} {k : K} {v : V} (h : Had step view s₀ es k v) (e : ε) :
    Had step view s₀ (es ++ [e]) k v := by
  obtain ⟨before, rest, s, rfl, hs, hv⟩ := h
  exact ⟨before, rest ++ [e], s, by simp, hs, hv⟩

theorem Filled.snoc {es : List ε} {k : K} {v : V} {expires : Int}
    (h : Filled step view s₀ ttl es k v expires) (e : ε) :
    Filled step view s₀ ttl (es ++ [e]) k v expires := by
  obtain ⟨before, mid, e', rest, s, s', s'', rfl, hs⟩ := h
  exact ⟨before, mid, e', rest ++ [e], s, s', s'', by simp, hs⟩

/-- A value that was fetched fills a cell now. -/
theorem Had.filled {es : List ε} {e : ε} {s s' : σ} (hrun : run step s₀ es = some s)
    (he : step s e = some s') {k : K} {v : V} (h : Had step view s₀ es k v)
    (hcell : (view s').cells k = some (v, (view s).clock + ttl)) :
    Filled step view s₀ ttl (es ++ [e]) k v ((view s).clock + ttl) := by
  obtain ⟨before, rest, t, rfl, ht, hv⟩ := h
  obtain ⟨t', ht', hs⟩ := run_append.mp hrun
  obtain rfl := Option.some.inj (ht.symm.trans ht')
  exact ⟨before, rest, e, [], t, s, s', rfl, ht, hv, hs, he, hcell, rfl⟩

variable (view) in
/-- **Where a cell comes from**, and a value on its way there. -/
theorem cell_origin (hview : ∀ s e s', step s e = some s' → AsideStep ttl (view s) (view s'))
    (hfetched : ∀ k v, ¬ (view s₀).fetched k v) (hcells : ∀ k, (view s₀).cells k = none)
    {es : List ε} {s : σ} (hrun : run step s₀ es = some s) :
    (∀ k v, (view s).fetched k v → Had step view s₀ es k v) ∧
      ∀ k v expires, (view s).cells k = some (v, expires) →
        Filled step view s₀ ttl es k v expires := by
  refine run_history_of (C := fun _ _ => True)
    (I := fun es s => (∀ k v, (view s).fetched k v → Had step view s₀ es k v) ∧
      ∀ k v expires, (view s).cells k = some (v, expires) →
        Filled step view s₀ ttl es k v expires) ?_ ?_ (meets_true s₀ es) hrun
  · rintro es s e s' hs ⟨hF, hc⟩ - he
    have hstep := hview s e s' he
    constructor
    · intro k v hv
      rcases hstep.fetched k v hv with hv | hv
      · exact (hF k v hv).snoc e
      · exact ⟨es, [e], s, rfl, hs, hv⟩
    · intro k v expires hv
      rcases hstep.cells k v expires hv with hold | ⟨hfetched, rfl⟩
      · exact (hc k v expires hold).snoc e
      · exact (hF k v hfetched).filled hs he hv
  · constructor
    · intro k v hv
      exact absurd hv (hfetched k v)
    · intro k v expires hv
      rw [hcells k] at hv
      cases hv

end

/-! ## 2. When a cell is current -/

/-- Whatever is in the cache under the key, or on its way there, is the value of the store. -/
structure Coherent (a : Aside K V) (k : K) : Prop where
  fetched : ∀ v, a.fetched k v → a.store k = some v
  cells : ∀ v expires, a.cells k = some (v, expires) → a.store k = some v

/-- **A key stays coherent until the store changes it.** -/
theorem Coherent.step {ttl : Int} {a a' : Aside K V} {k : K} (h : Coherent a k)
    (ha : AsideStep ttl a a') (hstore : a'.store k = a.store k) : Coherent a' k := by
  constructor
  · intro v hv
    rw [hstore]
    rcases ha.fetched k v hv with hv | hv
    · exact h.fetched v hv
    · exact hv
  · intro v expires hv
    rw [hstore]
    rcases ha.cells k v expires hv with hv | ⟨hv, -⟩
    · exact h.cells v expires hv
    · exact h.fetched v hv

end OrderSystem.Kit
