/-
# Publisher confirms

Publishers send messages to a broker over channels.  The broker stores what it gets and answers
every message on the channel it came from: it confirms it, or it refuses it.  An answer does not
say what it is for; the answers on a channel are read in the order of the messages.  The broker
may lose a message that it has not confirmed, and it may answer late, or never.

A publisher here sends one message and waits for the answer before it sends the next, and it
throws its channel away when it does not get a confirmation: when it stops waiting, when the
channel closes, and when the message is refused.  Nobody reads what arrives on a channel that
was thrown away, though the messages on it may still be stored and confirmed.

* `Tidy` -- on the channel of a publisher there is what it waits for and nothing else.
* `Tidy.inbox`, `Tidy.confirmed_take` -- so the answer it reads is the answer to the message it
  waits for, and if it is a confirmation, that very message was confirmed.
* `Keeps` -- what no operation but `send` does: bring in a message or make a publisher wait.
-/
import Mathlib.Logic.Function.Basic
import Mathlib.Data.List.Perm.Basic

namespace OrderSystem.Kit

/-- A message on a channel, whether the broker has stored it, and what it answered. -/
structure Entry (μ : Type) where
  msg : μ
  stored : Bool
  verdict : Option Bool

/-- Publishers, their channels and the broker. -/
structure Confirms (μ : Type) where
  /-- what was sent on a channel and has not been answered to its publisher, oldest first -/
  channels : Nat → List (Entry μ)
  /-- the channels from here on have not been opened -/
  next : Nat
  /-- the channel a publisher has open -/
  current : Nat → Option Nat
  /-- the message a publisher waits for -/
  waiting : Nat → Option μ
  /-- stored, not lost and not confirmed -/
  held : List μ
  confirmed : List μ

namespace Confirms

variable {μ : Type}

/-! ## 1. Operations -/

/-- No channel and no message. -/
def empty : Confirms μ := ⟨fun _ => [], 0, fun _ => none, fun _ => none, [], []⟩

/-- What the broker has stored and not lost. -/
def stored (x : Confirms μ) : List μ := x.held ++ x.confirmed

/-- The oldest unanswered message on the channel of a publisher, with the answer if there is
one. -/
def inbox (x : Confirms μ) (p : Nat) : Option (Entry μ) :=
  (x.current p).bind fun c => (x.channels c).head?

/-- A publisher without a channel opens one. -/
def connect (x : Confirms μ) (p : Nat) : Option (Confirms μ) :=
  match x.current p with
  | some _ => none
  | none => some { x with
      next := x.next + 1, current := Function.update x.current p (some x.next) }

/-- A publisher that does not wait sends a message. -/
def send (x : Confirms μ) (p : Nat) (m : μ) : Option (Confirms μ) :=
  match x.current p, x.waiting p with
  | some c, none => some { x with
      channels := Function.update x.channels c (x.channels c ++ [⟨m, false, none⟩])
      waiting := Function.update x.waiting p (some m) }
  | _, _ => none

/-- Replace an entry. -/
def amend (x : Confirms μ) (c j : Nat) (e : Entry μ) : Confirms μ :=
  { x with channels := Function.update x.channels c ((x.channels c).set j e) }

/-- The broker stores a message. -/
def accept (x : Confirms μ) (c j : Nat) : Option (μ × Confirms μ) :=
  match (x.channels c)[j]? with
  | none => none
  | some e =>
    if e.stored then none
    else some (e.msg, { x.amend c j { e with stored := true } with held := x.held ++ [e.msg] })

/-- A publisher throws its channel away. -/
def drop (x : Confirms μ) (p : Nat) : Confirms μ :=
  { x with
    current := Function.update x.current p none, waiting := Function.update x.waiting p none }

/-- A waiting publisher reads the answer.  It keeps the channel only after a confirmation. -/
def take (x : Confirms μ) (p : Nat) : Option (Bool × Confirms μ) :=
  match x.current p, x.waiting p with
  | some c, some _ =>
    match x.channels c with
    | ⟨_, _, some true⟩ :: rest => some (true, { x with
        channels := Function.update x.channels c rest
        waiting := Function.update x.waiting p none })
    | ⟨_, _, some false⟩ :: rest =>
      some (false, { x with channels := Function.update x.channels c rest }.drop p)
    | _ => none
  | _, _ => none

section

variable [DecidableEq μ]

/-- The broker answers a message.  It confirms only what it has stored and not lost, and what it
has confirmed it does not lose. -/
def confirm (x : Confirms μ) (c j : Nat) (ack : Bool) : Option (Confirms μ) :=
  match (x.channels c)[j]? with
  | none => none
  | some e =>
    if e.verdict.isSome then none
    else if ack then
      if e.stored ∧ e.msg ∈ x.held then
        some { x.amend c j { e with verdict := some true } with
          held := x.held.erase e.msg, confirmed := x.confirmed ++ [e.msg] }
      else none
    else some (x.amend c j { e with verdict := some false })

/-- The broker loses a message that it has not confirmed. -/
def lose (x : Confirms μ) (m : μ) : Option (Confirms μ) :=
  if m ∈ x.held then some { x with held := x.held.erase m } else none

end

/-! ## 2. What an operation brings in -/

/-- The message is on some channel. -/
def Mentions (x : Confirms μ) (m : μ) : Prop := ∃ c, ∃ e ∈ x.channels c, e.msg = m

/-- Nothing new on a channel, nobody new that waits, and what was confirmed stays so. -/
structure Keeps (x x' : Confirms μ) : Prop where
  mentions : ∀ m, x'.Mentions m → x.Mentions m
  waiting : ∀ p m, x'.waiting p = some m → x.waiting p = some m
  confirmed : ∀ m ∈ x.confirmed, m ∈ x'.confirmed

theorem Keeps.refl (x : Confirms μ) : Keeps x x :=
  ⟨fun _ h => h, fun _ _ h => h, fun _ h => h⟩

variable {j c p : Nat} {e e' : Entry μ} {x x' : Confirms μ} {m : μ} {ok : Bool}

/-- Messages stay the same when an entry gets its answer. -/
theorem map_msg_set {l : List (Entry μ)} (he : l[j]? = some e) (hmsg : e'.msg = e.msg) :
    (l.set j e').map Entry.msg = l.map Entry.msg := by
  induction l generalizing j with
  | nil => rfl
  | cons a l ih =>
    cases j with
    | zero =>
      obtain rfl := Option.some.inj he
      simp [hmsg]
    | succ j =>
      simp only [List.set_cons_succ, List.map_cons]
      rw [ih (by simpa using he)]

theorem amend_msgs (he : (x.channels c)[j]? = some e) (hmsg : e'.msg = e.msg) (c' : Nat) :
    ((x.amend c j e').channels c').map Entry.msg = (x.channels c').map Entry.msg := by
  simp only [amend, Function.update_apply]
  split
  · rename_i hc
    rw [map_msg_set he hmsg, hc]
  · rfl

theorem mentions_iff :
    x.Mentions m ↔ ∃ c, m ∈ (x.channels c).map Entry.msg := by
  simp only [Mentions, List.mem_map]

/-- The channels got shorter. -/
theorem Keeps.of_suffix (hch : ∀ c, x'.channels c <:+ x.channels c)
    (hwait : ∀ p m, x'.waiting p = some m → x.waiting p = some m)
    (hconf : x'.confirmed = x.confirmed) : Keeps x x' := by
  refine ⟨fun m hm => ?_, hwait, fun m hm => hconf ▸ hm⟩
  obtain ⟨c, e, he, rfl⟩ := hm
  exact ⟨c, e, (hch c).mem he, rfl⟩

theorem keeps_drop (x : Confirms μ) (p : Nat) : Keeps x (x.drop p) := by
  refine .of_suffix (fun _ => List.suffix_rfl) (fun p' m h => ?_) rfl
  simp only [drop, Function.update_apply] at h
  split at h
  · exact absurd h (by simp)
  · exact h

theorem keeps_connect (h : x.connect p = some x') : Keeps x x' := by
  unfold connect at h
  split at h
  · exact absurd h (by simp)
  · obtain rfl := Option.some.inj h
    exact .of_suffix (fun _ => List.suffix_rfl) (fun _ _ h => h) rfl

theorem stored_connect (h : x.connect p = some x') :
    x'.stored = x.stored := by
  unfold connect at h
  split at h
  · exact absurd h (by simp)
  · obtain rfl := Option.some.inj h
    rfl

theorem keeps_amend (he : (x.channels c)[j]? = some e)
    (hch : x'.channels = (x.amend c j e').channels) (hmsg : e'.msg = e.msg)
    (hwait : x'.waiting = x.waiting) (hconf : ∀ m ∈ x.confirmed, m ∈ x'.confirmed) :
    Keeps x x' := by
  refine ⟨fun m hm => ?_, fun p m h => hwait ▸ h, hconf⟩
  rw [mentions_iff] at hm ⊢
  obtain ⟨c', hm⟩ := hm
  rw [hch, amend_msgs he hmsg] at hm
  exact ⟨c', hm⟩

theorem accept_eq_some (h : x.accept c j = some (m, x')) :
    ∃ e, (x.channels c)[j]? = some e ∧ e.msg = m ∧
      x' = { x.amend c j { e with stored := true } with held := x.held ++ [m] } := by
  unfold accept at h
  split at h
  · exact absurd h (by simp)
  · rename_i e he
    split at h
    · exact absurd h (by simp)
    · obtain ⟨rfl, rfl⟩ := Prod.mk.inj (Option.some.inj h)
      exact ⟨e, he, rfl, rfl⟩

/-- What the broker stores was sent. -/
theorem mentions_accept (h : x.accept c j = some (m, x')) : x.Mentions m := by
  obtain ⟨e, he, hmsg, -⟩ := accept_eq_some h
  exact ⟨c, e, List.mem_of_getElem? he, hmsg⟩

theorem keeps_accept (h : x.accept c j = some (m, x')) : Keeps x x' := by
  obtain ⟨e, he, -, rfl⟩ := accept_eq_some h
  exact keeps_amend he rfl rfl rfl fun _ hm => hm

theorem stored_accept (h : x.accept c j = some (m, x')) : x'.stored.Perm (m :: x.stored) := by
  obtain ⟨e, -, -, rfl⟩ := accept_eq_some h
  simp only [stored, amend, List.append_assoc, List.singleton_append]
  exact List.perm_middle

/-- What a publisher reads, and what is left. -/
theorem take_eq_some (h : x.take p = some (ok, x')) :
    ∃ c m e rest, x.current p = some c ∧ x.waiting p = some m ∧ x.channels c = e :: rest ∧
      e.verdict = some ok ∧
      x' = bif ok then { x with
          channels := Function.update x.channels c rest
          waiting := Function.update x.waiting p none }
        else { x with channels := Function.update x.channels c rest }.drop p := by
  unfold take at h
  split at h
  · rename_i c m hc hm
    split at h
    · rename_i msg st rest hch
      obtain ⟨rfl, rfl⟩ := Prod.mk.inj (Option.some.inj h)
      exact ⟨c, m, _, rest, hc, hm, hch, rfl, rfl⟩
    · rename_i msg st rest hch
      obtain ⟨rfl, rfl⟩ := Prod.mk.inj (Option.some.inj h)
      exact ⟨c, m, _, rest, hc, hm, hch, rfl, rfl⟩
    · exact absurd h (by simp)
  · exact absurd h (by simp)

theorem channels_take (h : x.take p = some (ok, x')) :
    ∃ c e rest, x.current p = some c ∧ x.channels c = e :: rest ∧
      x'.channels = Function.update x.channels c rest := by
  obtain ⟨c, m, e, rest, hc, -, hch, -, rfl⟩ := take_eq_some h
  exact ⟨c, e, rest, hc, hch, by cases ok <;> rfl⟩

theorem waiting_take (h : x.take p = some (ok, x')) :
    x'.waiting = Function.update x.waiting p none := by
  obtain ⟨c, m, e, rest, -, -, -, -, rfl⟩ := take_eq_some h
  cases ok <;> rfl

theorem stored_take (h : x.take p = some (ok, x')) :
    x'.stored = x.stored ∧ x'.confirmed = x.confirmed := by
  obtain ⟨c, m, e, rest, -, -, -, -, rfl⟩ := take_eq_some h
  cases ok <;> exact ⟨rfl, rfl⟩

theorem keeps_take (h : x.take p = some (ok, x')) :
    Keeps x x' := by
  obtain ⟨c, e, rest, -, hch, hx'⟩ := channels_take h
  refine .of_suffix (fun c' => ?_) (fun p' m hm => ?_) (stored_take h).2
  · rw [hx', Function.update_apply]
    split
    · rename_i hc
      rw [hc, hch]
      exact List.suffix_cons e rest
    · exact List.suffix_rfl
  · rw [waiting_take h, Function.update_apply] at hm
    split at hm
    · exact absurd hm (by simp)
    · exact hm

/-- What a message that is sent brings in. -/
theorem send_eq_some (h : x.send p m = some x') :
    ∃ c, x.current p = some c ∧ x.waiting p = none ∧ x' = { x with
      channels := Function.update x.channels c (x.channels c ++ [⟨m, false, none⟩])
      waiting := Function.update x.waiting p (some m) } := by
  unfold send at h
  split at h
  · rename_i c hc hm
    exact ⟨c, hc, hm, (Option.some.inj h).symm⟩
  · exact absurd h (by simp)

theorem stored_send (h : x.send p m = some x') :
    x'.stored = x.stored ∧ x'.confirmed = x.confirmed := by
  obtain ⟨c, -, -, rfl⟩ := send_eq_some h
  exact ⟨rfl, rfl⟩

theorem waiting_send {p' : Nat} {m' : μ} (h : x.send p m = some x') (hm : x'.waiting p' = some m') :
    x.waiting p' = some m' ∨ (p' = p ∧ m' = m) := by
  obtain ⟨c, -, -, rfl⟩ := send_eq_some h
  simp only [Function.update_apply] at hm
  split at hm
  · rename_i hp
    exact Or.inr ⟨hp, (Option.some.inj hm).symm⟩
  · exact Or.inl hm

theorem mentions_send {m' : μ} (h : x.send p m = some x') (hm : x'.Mentions m') :
    x.Mentions m' ∨ m' = m := by
  obtain ⟨c, -, -, rfl⟩ := send_eq_some h
  obtain ⟨c', e, he, rfl⟩ := hm
  simp only [Function.update_apply] at he
  split at he
  · rcases List.mem_append.mp he with he | he
    · exact Or.inl ⟨c, e, he, rfl⟩
    · exact Or.inr (by rw [List.mem_singleton.mp he])
  · exact Or.inl ⟨c', e, he, rfl⟩

section

variable [DecidableEq μ]

variable {x x' : Confirms μ} {c j : Nat} {ack : Bool} {m : μ}

theorem confirm_eq_some (h : x.confirm c j ack = some x') :
    ∃ e, (x.channels c)[j]? = some e ∧
      ((ack = true ∧ e.msg ∈ x.held ∧ x' = { x.amend c j { e with verdict := some true } with
          held := x.held.erase e.msg, confirmed := x.confirmed ++ [e.msg] }) ∨
        (ack = false ∧ x' = x.amend c j { e with verdict := some false })) := by
  unfold confirm at h
  split at h
  · exact absurd h (by simp)
  · rename_i e he
    refine ⟨e, he, ?_⟩
    split at h
    · exact absurd h (by simp)
    · split at h
      · rename_i hack
        split at h
        · rename_i hheld
          exact Or.inl ⟨hack, hheld.2, (Option.some.inj h).symm⟩
        · exact absurd h (by simp)
      · rename_i hack
        exact Or.inr ⟨by simpa using hack, (Option.some.inj h).symm⟩

theorem keeps_confirm (h : x.confirm c j ack = some x') : Keeps x x' := by
  obtain ⟨e, he, ⟨-, -, rfl⟩ | ⟨-, rfl⟩⟩ := confirm_eq_some h
  · exact keeps_amend he rfl rfl rfl fun m hm => List.mem_append_left _ hm
  · exact keeps_amend he rfl rfl rfl fun _ hm => hm

theorem stored_confirm (h : x.confirm c j ack = some x') : x'.stored.Perm x.stored := by
  obtain ⟨e, -, ⟨-, hheld, rfl⟩ | ⟨-, rfl⟩⟩ := confirm_eq_some h
  · have hmoved : (x.held.erase e.msg ++ (x.confirmed ++ [e.msg])).Perm
        (e.msg :: (x.held.erase e.msg ++ x.confirmed)) := by
      rw [← List.append_assoc]
      exact List.perm_append_singleton _ _
    exact hmoved.trans ((List.perm_cons_erase hheld).symm.append_right _)
  · exact List.Perm.refl _

theorem lose_eq_some (h : x.lose m = some x') :
    m ∈ x.held ∧ x' = { x with held := x.held.erase m } := by
  unfold lose at h
  split at h
  · rename_i hm
    exact ⟨hm, (Option.some.inj h).symm⟩
  · exact absurd h (by simp)

theorem keeps_lose (h : x.lose m = some x') : Keeps x x' := by
  obtain ⟨-, rfl⟩ := lose_eq_some h
  exact .of_suffix (fun _ => List.suffix_rfl) (fun _ _ h => h) rfl

theorem stored_lose (h : x.lose m = some x') :
    x.stored.Perm (m :: x'.stored) := by
  obtain ⟨hm, rfl⟩ := lose_eq_some h
  exact (List.perm_cons_erase hm).append_right _

end

/-! ## 3. One message at a time -/

/-- **What holds of the channels.** -/
structure Tidy (x : Confirms μ) : Prop where
  fresh : ∀ c, x.next ≤ c → x.channels c = []
  opened : ∀ p c, x.current p = some c → c < x.next
  alone : ∀ p p' c, x.current p = some c → x.current p' = some c → p = p'
  online : ∀ p, x.current p = none → x.waiting p = none
  /-- on the channel of a publisher is what it waits for -/
  awaited : ∀ p c, x.current p = some c → (x.channels c).map Entry.msg = (x.waiting p).toList
  sound : ∀ c, ∀ e ∈ x.channels c, e.verdict = some true → e.msg ∈ x.confirmed

theorem tidy_empty : Tidy (empty : Confirms μ) where
  fresh _ _ := rfl
  opened _ _ h := absurd h (by simp [empty])
  alone _ _ _ h := absurd h (by simp [empty])
  online _ _ := rfl
  awaited _ _ h := absurd h (by simp [empty])
  sound _ _ h := absurd h (by simp [empty])

variable {x x' : Confirms μ} {p c : Nat}

/-- **The answer that arrives for a publisher is the answer to the message it waits for.** -/
theorem Tidy.inbox (h : x.Tidy) {e : Entry μ} (he : x.inbox p = some e) :
    x.waiting p = some e.msg := by
  obtain ⟨c, hc, he⟩ := Option.bind_eq_some_iff.mp he
  obtain ⟨rest, hch⟩ := List.head?_eq_some_iff.mp he
  have hmap := h.awaited p c hc
  rw [hch] at hmap
  cases hw : x.waiting p with
  | none =>
    rw [hw] at hmap
    exact absurd hmap (by simp)
  | some m =>
    rw [hw] at hmap
    rw [(List.cons.inj hmap).1]

/-- A confirmation that is read is a confirmation of the message its publisher waits for. -/
theorem Tidy.confirmed_take (h : x.Tidy) (ht : x.take p = some (true, x')) :
    ∃ m, x.waiting p = some m ∧ m ∈ x.confirmed := by
  obtain ⟨c, -, e, rest, hc, -, hch, hv, -⟩ := take_eq_some ht
  have hin : x.inbox p = some e := by simp [Confirms.inbox, hc, hch]
  exact ⟨e.msg, h.inbox hin, h.sound c e (by rw [hch]; exact List.mem_cons_self) hv⟩

theorem Tidy.drop (h : x.Tidy) (p : Nat) : (x.drop p).Tidy := by
  have hcur : ∀ {p' c}, (x.drop p).current p' = some c → p' ≠ p ∧ x.current p' = some c := by
    intro p' c hc
    simp only [Confirms.drop, Function.update_apply] at hc
    split at hc
    · exact absurd hc (by simp)
    · rename_i hp
      exact ⟨hp, hc⟩
  refine ⟨h.fresh, fun p' c hc => h.opened p' c (hcur hc).2,
    fun p₁ p₂ c h₁ h₂ => h.alone p₁ p₂ c (hcur h₁).2 (hcur h₂).2, fun p' hc => ?_,
    fun p' c hc => ?_, h.sound⟩
  · by_cases hp : p' = p
    · simp [Confirms.drop, hp]
    · simp only [Confirms.drop, Function.update_of_ne hp] at hc ⊢
      exact h.online p' hc
  · obtain ⟨hp, hc⟩ := hcur hc
    simp only [Confirms.drop, Function.update_of_ne hp]
    exact h.awaited p' c hc

theorem Tidy.connect (h : x.Tidy) (hx : x.connect p = some x') :
    x'.Tidy := by
  unfold Confirms.connect at hx
  split at hx
  · exact absurd hx (by simp)
  rename_i hnone
  obtain rfl := Option.some.inj hx
  have hcur : ∀ {p' c}, Function.update x.current p (some x.next) p' = some c →
      (p' = p ∧ c = x.next) ∨ (p' ≠ p ∧ x.current p' = some c) := by
    intro p' c hc
    rw [Function.update_apply] at hc
    split at hc
    · rename_i hp
      exact Or.inl ⟨hp, (Option.some.inj hc).symm⟩
    · rename_i hp
      exact Or.inr ⟨hp, hc⟩
  refine ⟨fun c hc => h.fresh c (Nat.le_of_succ_le hc), fun p' c hc => ?_,
    fun p₁ p₂ c h₁ h₂ => ?_, fun p' hc => ?_, fun p' c hc => ?_, h.sound⟩
  · rcases hcur hc with ⟨-, rfl⟩ | ⟨-, hc⟩
    · exact Nat.lt_succ_self _
    · exact Nat.lt_succ_of_lt (h.opened p' c hc)
  · rcases hcur h₁ with ⟨rfl, rfl⟩ | ⟨-, hc₁⟩
    · rcases hcur h₂ with ⟨rfl, -⟩ | ⟨-, hc₂⟩
      · rfl
      · exact absurd (h.opened _ _ hc₂) (Nat.lt_irrefl _)
    · rcases hcur h₂ with ⟨rfl, rfl⟩ | ⟨-, hc₂⟩
      · exact absurd (h.opened _ _ hc₁) (Nat.lt_irrefl _)
      · exact h.alone p₁ p₂ c hc₁ hc₂
  · by_cases hp : p' = p
    · subst hp
      exact h.online p' hnone
    · exact h.online p' (by simpa [Function.update_of_ne hp] using hc)
  · rcases hcur hc with ⟨rfl, rfl⟩ | ⟨-, hc⟩
    · rw [h.fresh _ (Nat.le_refl _), h.online p' hnone]
      rfl
    · exact h.awaited p' c hc

theorem Tidy.send (h : x.Tidy) {m : μ} (hx : x.send p m = some x') : x'.Tidy := by
  obtain ⟨c, hc, hm, rfl⟩ := send_eq_some hx
  have hempty : x.channels c = [] := by
    have hmap := h.awaited p c hc
    rw [hm] at hmap
    exact List.map_eq_nil_iff.mp hmap
  refine ⟨fun c' hc' => ?_, h.opened, h.alone, fun p' hp' => ?_, fun p' c' hp' => ?_,
    fun c' e he hv => ?_⟩
  · have hne : c' ≠ c := by
      have := h.opened p c hc
      have hle : x.next ≤ c' := hc'
      omega
    simp only [Function.update_of_ne hne]
    exact h.fresh c' hc'
  · have hne : p' ≠ p := by
      rintro rfl
      exact absurd (hp'.symm.trans hc) (by simp)
    simp only [Function.update_of_ne hne]
    exact h.online p' hp'
  · by_cases hp : p' = p
    · subst hp
      obtain rfl := Option.some.inj (hc.symm.trans hp')
      simp [hempty]
    · have hne : c' ≠ c := by
        rintro rfl
        exact hp (h.alone p' p c' hp' hc)
      simp only [Function.update_of_ne hne, Function.update_of_ne hp]
      exact h.awaited p' c' hp'
  · simp only [Function.update_apply] at he
    split at he
    · rw [hempty, List.nil_append, List.mem_singleton] at he
      exact absurd hv (by simp [he])
    · exact h.sound c' e he hv

/-- The broker stores or answers a message. -/
theorem Tidy.amend (h : x.Tidy) {j : Nat} {e e' : Entry μ} (he : (x.channels c)[j]? = some e)
    (hch : x'.channels = (x.amend c j e').channels) (hmsg : e'.msg = e.msg)
    (hnext : x'.next = x.next) (hcur : x'.current = x.current) (hwait : x'.waiting = x.waiting)
    (hconf : ∀ m ∈ x.confirmed, m ∈ x'.confirmed)
    (hv : e'.verdict = some true → e'.msg ∈ x'.confirmed) : x'.Tidy := by
  have hmsgs : ∀ c', (x'.channels c').map Entry.msg = (x.channels c').map Entry.msg := by
    intro c'
    rw [hch]
    exact amend_msgs he hmsg c'
  refine ⟨fun c' hc' => ?_, ?_, ?_, ?_, fun p c' hp => ?_, fun c' e₁ he₁ hv₁ => ?_⟩
  · have hnil := hmsgs c'
    rw [h.fresh c' (hnext ▸ hc')] at hnil
    exact List.map_eq_nil_iff.mp hnil
  · rw [hcur, hnext]
    exact h.opened
  · rw [hcur]
    exact h.alone
  · rw [hcur, hwait]
    exact h.online
  · rw [hmsgs, hwait]
    exact h.awaited p c' (hcur ▸ hp)
  · rw [hch] at he₁
    simp only [Confirms.amend, Function.update_apply] at he₁
    split at he₁
    · rcases List.mem_or_eq_of_mem_set he₁ with he₁ | rfl
      · exact hconf _ (h.sound c e₁ he₁ hv₁)
      · exact hv hv₁
    · exact hconf _ (h.sound c' e₁ he₁ hv₁)

theorem Tidy.accept (h : x.Tidy) {j : Nat} {m : μ} (hx : x.accept c j = some (m, x')) :
    x'.Tidy := by
  obtain ⟨e, he, -, rfl⟩ := accept_eq_some hx
  exact h.amend he rfl rfl rfl rfl rfl (fun _ hm => hm)
    fun hv => h.sound c e (List.mem_of_getElem? he) hv

/-- The one message on a channel is answered. -/
theorem Tidy.emptied (h : x.Tidy) (hc : x.current p = some c) :
    Tidy { x with
      channels := Function.update x.channels c []
      waiting := Function.update x.waiting p none } := by
  refine ⟨fun c' hc' => ?_, h.opened, h.alone, fun p' hp' => ?_, fun p' c' hp' => ?_,
    fun c' e' he' hv' => ?_⟩
  · simp only [Function.update_apply]
    split
    · rfl
    · exact h.fresh c' hc'
  · simp only [Function.update_apply]
    split
    · rfl
    · exact h.online p' hp'
  · by_cases hp : p' = p
    · subst hp
      obtain rfl := Option.some.inj (hc.symm.trans hp')
      simp
    · have hne : c' ≠ c := by
        rintro rfl
        exact hp (h.alone p' p c' hp' hc)
      simp only [Function.update_of_ne hne, Function.update_of_ne hp]
      exact h.awaited p' c' hp'
  · simp only [Function.update_apply] at he'
    split at he'
    · exact absurd he' (by simp)
    · exact h.sound c' e' he' hv'

theorem Tidy.take (h : x.Tidy) {ok : Bool} (hx : x.take p = some (ok, x')) : x'.Tidy := by
  obtain ⟨c, m, e, rest, hc, hm, hch, hv, rfl⟩ := take_eq_some hx
  have hrest : rest = [] := by
    have hmap := h.awaited p c hc
    rw [hch, hm] at hmap
    exact List.map_eq_nil_iff.mp (List.cons.inj hmap).2
  subst hrest
  cases ok with
  | true => exact h.emptied hc
  | false =>
    have hdrop := (h.emptied hc).drop p
    simpa [Confirms.drop] using hdrop

section

variable [DecidableEq μ]

theorem Tidy.confirm {x x' : Confirms μ} (h : x.Tidy) {c j : Nat} {ack : Bool}
    (hx : x.confirm c j ack = some x') : x'.Tidy := by
  obtain ⟨e, he, ⟨-, -, rfl⟩ | ⟨-, rfl⟩⟩ := confirm_eq_some hx
  · exact h.amend he rfl rfl rfl rfl rfl (fun m hm => List.mem_append_left _ hm)
      fun _ => List.mem_append_right _ (List.mem_singleton.mpr rfl)
  · exact h.amend he rfl rfl rfl rfl rfl (fun _ hm => hm) fun hv => absurd hv (by simp)

theorem Tidy.lose {x x' : Confirms μ} (h : x.Tidy) {m : μ} (hx : x.lose m = some x') :
    x'.Tidy := by
  obtain ⟨-, rfl⟩ := lose_eq_some hx
  exact ⟨h.fresh, h.opened, h.alone, h.online, h.awaited, h.sound⟩

end

end Confirms

end OrderSystem.Kit
