/-
# Leases on rows

Workers take rows of a shared table for some time.  A row says who has it and until when; a
worker remembers what it took and until when, and goes on working on it without looking at the
clock.  A row whose time is up may be taken by somebody else, so two workers can have one row in
hand.  What leases are for is that only one of them is in time, and that the other can do no
harm: whoever writes under a lease is checked against the owner in the row.

A `Leasing` is the part of a system's state that matters for this, and an `Advance` says what a
step may do to it: time passes, an open row is claimed, the owner of a row gives it back, a row
is closed for good.  Two results follow for every system whose steps are advances.

* `Covered.advance` -- what a worker has in hand in time is its own in the table as well, or
  closed; and two workers never have a row in hand in time (`Covered.exclusive`).
* `Lost.advance` -- a worker that does not own a row does not come to own it unless it takes it.
-/
import Mathlib.Data.Int.Order.Basic

namespace OrderSystem.Kit

/-- What there is to know about leases: `κ` are the rows and `ι` the ids of the workers.
`hand p k T` says that the process `p` has the row `k` in hand and took it until `T`. -/
structure Leasing (κ ι : Type) where
  now : Int
  owner : κ → Option ι
  expiry : κ → Option Int
  /-- nobody can claim the row any more -/
  closed : κ → Prop
  hand : Nat → κ → Int → Prop
  id : Nat → Option ι

namespace Leasing

variable {κ ι : Type}

/-- No two processes work under one id. -/
def Distinct (L : Leasing κ ι) : Prop := ∀ p p' w, L.id p = some w → L.id p' = some w → p = p'

/-- The process `p` claims the open row `k` until `T`. -/
structure Claims (L L' : Leasing κ ι) (p : Nat) (k : κ) (T : Int) : Prop where
  notClosed : ¬L.closed k
  expired : ∀ t, L.expiry k = some t → t < L.now
  owner : ∃ w, L.id p = some w ∧ L'.owner k = some w
  expiry : L'.expiry k = some T

/-- What a step may do in which the processes `takes` says take rows. -/
structure Advance (takes : Nat → κ → Prop) (L L' : Leasing κ ι) : Prop where
  clock : L.now ≤ L'.now
  closed : ∀ k, L.closed k → L'.closed k
  /-- a process that has something in hand has an id, and had it before -/
  id : ∀ p k T, L'.hand p k T → ∃ w, L'.id p = some w ∧ L.id p = some w
  hand : ∀ p k T, L'.hand p k T → L.hand p k T ∨ (takes p k ∧ Claims L L' p k T)
  /-- a row keeps its lease, or is claimed, or has it cleared: by its owner, which lets go of
  it, or for good -/
  row : ∀ k, (L'.owner k = L.owner k ∧ L'.expiry k = L.expiry k) ∨
    (∃ p T, takes p k ∧ Claims L L' p k T) ∨
    (L'.owner k = none ∧ (L'.closed k ∨ ∃ p w, L.id p = some w ∧ L.owner k = some w ∧
      ∀ T, ¬L'.hand p k T))

/-- What a worker has in hand in time is its own, or closed; and no other worker has it in hand
in time. -/
structure Covered (L : Leasing κ ι) : Prop where
  owned : ∀ p k T w, L.hand p k T → L.id p = some w → L.now ≤ T →
    (L.owner k = some w ∧ L.expiry k = some T) ∨ L.closed k
  exclusive : ∀ p p' k T T', L.hand p k T → L.hand p' k T' → L.now ≤ T → L.now ≤ T' → p = p'

variable {L L' : Leasing κ ι} {takes : Nat → κ → Prop}

/-- A row that is claimed is in nobody's hand in time. -/
theorem Covered.late (h : Covered L) {p p' : Nat} {k : κ} {T T' : Int} {w : ι}
    (hc : Claims L L' p k T) (hh : L.hand p' k T') (hid : L.id p' = some w) : T' < L.now := by
  by_contra hlate
  rcases h.owned p' k T' w hh hid (Int.not_lt.mp hlate) with ⟨-, hexp⟩ | hcl
  · exact hlate (hc.expired T' hexp)
  · exact hc.notClosed hcl

/-- **Leases stay covered.** -/
theorem Covered.advance (h : Covered L) (ha : Advance takes L L') (hd : Distinct L) :
    Covered L' := by
  refine ⟨fun p k T w hh hid hT => ?_, fun p p' k T T' hh hh' hT hT' => ?_⟩
  · obtain ⟨w₀, hid', hid₀⟩ := ha.id p k T hh
    obtain rfl := Option.some.inj (hid.symm.trans hid')
    rcases ha.hand p k T hh with hold | ⟨-, hc⟩
    · have hT₀ : L.now ≤ T := Int.le_trans ha.clock hT
      rcases h.owned p k T w hold hid₀ hT₀ with ⟨how, hex⟩ | hcl
      · rcases ha.row k with
          ⟨hsame, hsame'⟩ | ⟨p', T', -, hc⟩ | ⟨-, hcl | ⟨p', w', hid', how', hno⟩⟩
        · exact Or.inl ⟨hsame.trans how, hsame'.trans hex⟩
        · exact absurd (h.late hc hold hid₀) (Int.not_lt.mpr hT₀)
        · exact Or.inr hcl
        · -- the owner lets go of the row, and the owner is `p`
          obtain rfl := Option.some.inj (how.symm.trans how')
          obtain rfl := hd p p' w hid₀ hid'
          exact absurd hh (hno T)
      · exact Or.inr (ha.closed k hcl)
    · obtain ⟨w', hid', how⟩ := hc.owner
      obtain rfl := Option.some.inj (hid₀.symm.trans hid')
      exact Or.inl ⟨how, hc.expiry⟩
  · have hT₀ : L.now ≤ T := Int.le_trans ha.clock hT
    have hT₀' : L.now ≤ T' := Int.le_trans ha.clock hT'
    obtain ⟨w, -, hid⟩ := ha.id p k T hh
    obtain ⟨w', -, hid'⟩ := ha.id p' k T' hh'
    rcases ha.hand p k T hh with hold | ⟨-, hc⟩
    · rcases ha.hand p' k T' hh' with hold' | ⟨-, hc'⟩
      · exact h.exclusive p p' k T T' hold hold' hT₀ hT₀'
      · exact absurd (h.late hc' hold hid) (Int.not_lt.mpr hT₀)
    · rcases ha.hand p' k T' hh' with hold' | ⟨-, hc'⟩
      · exact absurd (h.late hc hold' hid') (Int.not_lt.mpr hT₀')
      · -- both are the owner that one step wrote into the row
        obtain ⟨v, hv, how⟩ := hc.owner
        obtain ⟨v', hv', how'⟩ := hc'.owner
        obtain rfl := Option.some.inj (how.symm.trans how')
        exact hd p p' v hv hv'

/-- The process does not own the row. -/
def Lost (L : Leasing κ ι) (p : Nat) (k : κ) : Prop := ∀ w, L.id p = some w → L.owner k ≠ some w

/-- **A row that is lost stays lost** to a process that does not take it. -/
theorem Lost.advance {p : Nat} {k : κ} (h : Lost L p k) (ha : Advance takes L L')
    (hd : Distinct L) (hid : ∀ w, L'.id p = some w → L.id p = some w) (hc : ¬takes p k) :
    Lost L' p k := by
  intro w hw how
  replace hw := hid w hw
  rcases ha.row k with ⟨hsame, -⟩ | ⟨p', T, ht, hc'⟩ | ⟨hnone, -⟩
  · exact h w hw (hsame.symm.trans how)
  · obtain ⟨w', hw', how'⟩ := hc'.owner
    obtain rfl := Option.some.inj (how.symm.trans how')
    obtain rfl := hd p p' w hw hw'
    exact hc ht
  · exact absurd (hnone.symm.trans how) (by simp)

end Leasing

end OrderSystem.Kit
