/-
# Codes that can be read from the left

A text that is put together from code words is unambiguous if every word can be told from what
follows it (`Instant`): two texts that begin with a word begin with the same word, and go on in
the same way.  Such codes compose: words in sequence (`Instant.prod`), with separators
(`Instant.append_fixed`), terminated by a symbol they do not contain (`Instant.terminated`), or
with their length in front (`Instant.counted`).  The concatenation of any number of words then
determines the list of them (`Instant.flatMap_injective`).
-/
import Mathlib.Logic.Function.Basic
import Mathlib.Data.List.Basic

namespace OrderSystem.Kit

variable {α β γ : Type}

/-- A word can be told from what follows it. -/
def Instant (code : α → List β) : Prop :=
  ∀ a b r s, code a ++ r = code b ++ s → a = b ∧ r = s

/-- Two texts agree up to the first occurrence of a symbol. -/
theorem append_cons_inj {t : β} {x y r s : List β} (hx : t ∉ x) (hy : t ∉ y)
    (h : x ++ t :: r = y ++ t :: s) : x = y ∧ r = s := by
  induction x generalizing y with
  | nil =>
    cases y with
    | nil => exact ⟨rfl, (List.cons.inj h).2⟩
    | cons b y =>
      have hb : t = b := (List.cons.inj h).1
      exact absurd (hb ▸ List.mem_cons_self) hy
  | cons a x ih =>
    cases y with
    | nil =>
      have ha : a = t := (List.cons.inj h).1
      exact absurd (ha ▸ List.mem_cons_self) hx
    | cons b y =>
      obtain ⟨hab, htail⟩ := List.cons.inj h
      obtain ⟨rfl, rfl⟩ := ih (fun hm => hx (List.mem_cons_of_mem a hm))
        (fun hm => hy (List.mem_cons_of_mem b hm)) htail
      exact ⟨by rw [hab], rfl⟩

variable {code : α → List β}

theorem Instant.terminated (hinj : Function.Injective code) {t : β} (ht : ∀ a, t ∉ code a) :
    Instant fun a => code a ++ [t] := by
  intro a b r s h
  simp only [List.append_assoc, List.cons_append, List.nil_append] at h
  obtain ⟨hcode, hrest⟩ := append_cons_inj (ht a) (ht b) h
  exact ⟨hinj hcode, hrest⟩

theorem Instant.counted {code : Nat → List β} (hcode : Instant code) :
    Instant fun w : List β => code w.length ++ w := by
  intro v w r s h
  simp only [List.append_assoc] at h
  obtain ⟨hlength, htail⟩ := hcode _ _ _ _ h
  exact List.append_inj htail hlength

theorem Instant.append_fixed (hcode : Instant code) (w : List β) :
    Instant fun a => code a ++ w := by
  intro a b r s h
  simp only [List.append_assoc] at h
  obtain ⟨rfl, htail⟩ := hcode _ _ _ _ h
  exact ⟨rfl, List.append_cancel_left htail⟩

theorem Instant.prod {code' : γ → List β} (hcode : Instant code) (hcode' : Instant code') :
    Instant fun p : α × γ => code p.1 ++ code' p.2 := by
  rintro ⟨a, c⟩ ⟨b, d⟩ r s h
  simp only [List.append_assoc] at h
  obtain ⟨rfl, htail⟩ := hcode _ _ _ _ h
  obtain ⟨rfl, hrest⟩ := hcode' _ _ _ _ htail
  exact ⟨rfl, hrest⟩

theorem Instant.comp (hcode : Instant code) {f : γ → α} (hf : Function.Injective f) :
    Instant fun c => code (f c) := by
  intro a b r s h
  obtain ⟨hab, hrest⟩ := hcode _ _ _ _ h
  exact ⟨hf hab, hrest⟩

theorem Instant.flatMap_injective (hcode : Instant code) (hne : ∀ a, code a ≠ []) :
    Function.Injective fun l : List α => l.flatMap code := by
  intro l
  induction l with
  | nil =>
    rintro (_ | ⟨b, m⟩) h
    · rfl
    · exact absurd (List.append_eq_nil_iff.mp h.symm).1 (hne b)
  | cons a l ih =>
    rintro (_ | ⟨b, m⟩) h
    · exact absurd (List.append_eq_nil_iff.mp h).1 (hne a)
    · simp only [List.flatMap_cons] at h
      obtain ⟨rfl, htail⟩ := hcode _ _ _ _ h
      rw [ih htail]

end OrderSystem.Kit
