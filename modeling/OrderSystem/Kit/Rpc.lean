/-
# Processes that call a server over a lossy network

Any number of processes share a store and call one remote server.  A process is either at a
local step, which reads and writes the store atomically, or waits for the answer to a request.
The network may do what a network does: a waiting process sends its request as often as it
likes, a request in flight may be served any number of times, at any later time or never, and
so may its answer; a process may stop waiting with an answer it made up, which is how its
client reports an error; and a process may crash between any two steps.

Invariants of such a system are assertions attached to process states, requests and answers.
What a step keeps is a matter of the assertion being stable; what it makes is said here once,
by `origin_of_at`, `origin_of_request` and `origin_of_reply`.

`Exclusive.step` is a rule about a shared value.  A process may change the value under a key
only when it controls the key or finds the value free, so one that controls a key finds the
value it left there.  `Attended.step` is the rule for the converse: if a process lets go of a
key only when it leaves the value free, then whatever is not free is controlled by somebody, or
by somebody who crashed.
-/
import OrderSystem.Kit.Run
import OrderSystem.Kit.Table

namespace OrderSystem.Kit

/-! ## 1. Components and their worlds -/

/-- The program of the processes and of their server.  `σ` is the shared store, `ρ` the
server's state, `π` a process, `ω` a request, `α` an answer; `χ`, `φ` and `ξ` are the choices a
local step, the server and the environment leave open. -/
structure Component (σ ρ π ω α χ φ ξ : Type) where
  /-- the processes that may be started -/
  mayStart : σ → Table π → π → Bool
  /-- a local step -/
  act : σ → π → χ → Option (σ × π)
  /-- the request a process waits on -/
  call : π → Option ω
  /-- how a waiting process goes on with an answer -/
  resume : π → α → π
  /-- the answers a client makes up -/
  gaveUp : α → Bool
  /-- how the server handles a request -/
  serve : ρ → ω → φ → ρ × α
  /-- what else may happen to the store and the server -/
  env : σ → ρ → ξ → Option (σ × ρ)

/-- The state of the whole system.  A message carries the process it belongs to, and an answer
the request it answers. -/
structure World (σ ρ π ω α : Type) where
  store : σ
  remote : ρ
  procs : Table π
  requests : List (Nat × ω)
  replies : List (Nat × ω × α)

/-- What can happen. -/
inductive RpcEvent (π α χ φ ξ : Type) where
  | spawn (q : π)
  | act (p : Nat) (c : χ)
  | send (p : Nat)
  | receive (p i : Nat)
  | giveUp (p : Nat) (a : α)
  | crash (p : Nat)
  | serve (i : Nat) (f : φ)
  | dropRequest (i : Nat)
  | dropReply (i : Nat)
  | env (x : ξ)

variable {σ ρ π ω α χ φ ξ : Type}

namespace World

/-- No process and no message. -/
def init (σ₀ : σ) (ρ₀ : ρ) : World σ ρ π ω α := ⟨σ₀, ρ₀, Table.empty, [], []⟩

/-- Replace the state of a process. -/
def put (s : World σ ρ π ω α) (p : Nat) (q : π) : World σ ρ π ω α :=
  { s with procs := s.procs.modify p fun _ => q }

/-- The process `p` is in the state `q`. -/
def At (s : World σ ρ π ω α) (p : Nat) (q : π) : Prop := s.procs.row p = some q

end World

/-- One event. -/
def rpcStep [DecidableEq ω] (M : Component σ ρ π ω α χ φ ξ) (s : World σ ρ π ω α) :
    RpcEvent π α χ φ ξ → Option (World σ ρ π ω α)
  | .spawn q =>
    if M.mayStart s.store s.procs q then some { s with procs := s.procs.insert q } else none
  | .act p c =>
    match s.procs.row p with
    | none => none
    | some q =>
      match M.act s.store q c with
      | none => none
      | some (σ', q') => some { s.put p q' with store := σ' }
  | .send p =>
    match (s.procs.row p).bind M.call with
    | none => none
    | some w => some { s with requests := s.requests ++ [(p, w)] }
  | .receive p i =>
    match s.procs.row p with
    | none => none
    | some q =>
      match s.replies[i]? with
      | none => none
      | some (p', w, a) =>
        if p' = p ∧ M.call q = some w then some (s.put p (M.resume q a)) else none
  | .giveUp p a =>
    match s.procs.row p with
    | none => none
    | some q => if (M.call q).isSome ∧ M.gaveUp a then some (s.put p (M.resume q a)) else none
  | .crash p =>
    match s.procs.row p with
    | none => none
    | some _ => some { s with procs := s.procs.remove p }
  | .serve i f =>
    match s.requests[i]? with
    | none => none
    | some (p, w) => some { s with
        remote := (M.serve s.remote w f).1
        replies := s.replies ++ [(p, w, (M.serve s.remote w f).2)] }
  | .dropRequest i => some { s with requests := s.requests.eraseIdx i }
  | .dropReply i => some { s with replies := s.replies.eraseIdx i }
  | .env x =>
    match M.env s.store s.remote x with
    | none => none
    | some (σ', ρ') => some { s with store := σ', remote := ρ' }

/-! ## 2. What a step can do -/

/-- The kinds of step, each with what made it possible. -/
inductive RpcMove (M : Component σ ρ π ω α χ φ ξ) (s : World σ ρ π ω α) :
    RpcEvent π α χ φ ξ → World σ ρ π ω α → Prop
  | spawn (q : π) (h : M.mayStart s.store s.procs q = true) :
      RpcMove M s (.spawn q) { s with procs := s.procs.insert q }
  | act (p : Nat) (c : χ) (q q' : π) (σ' : σ) (hq : s.At p q)
      (h : M.act s.store q c = some (σ', q')) :
      RpcMove M s (.act p c) { s.put p q' with store := σ' }
  | send (p : Nat) (q : π) (w : ω) (hq : s.At p q) (hw : M.call q = some w) :
      RpcMove M s (.send p) { s with requests := s.requests ++ [(p, w)] }
  | receive (p i : Nat) (q : π) (w : ω) (a : α) (hq : s.At p q) (hw : M.call q = some w)
      (ha : s.replies[i]? = some (p, w, a)) : RpcMove M s (.receive p i) (s.put p (M.resume q a))
  | giveUp (p : Nat) (a : α) (q : π) (w : ω) (hq : s.At p q) (hw : M.call q = some w)
      (ha : M.gaveUp a = true) : RpcMove M s (.giveUp p a) (s.put p (M.resume q a))
  | crash (p : Nat) (q : π) (hq : s.At p q) :
      RpcMove M s (.crash p) { s with procs := s.procs.remove p }
  | serve (i : Nat) (f : φ) (p : Nat) (w : ω) (h : (p, w) ∈ s.requests) :
      RpcMove M s (.serve i f) { s with
        remote := (M.serve s.remote w f).1
        replies := s.replies ++ [(p, w, (M.serve s.remote w f).2)] }
  | dropRequest (i : Nat) :
      RpcMove M s (.dropRequest i) { s with requests := s.requests.eraseIdx i }
  | dropReply (i : Nat) :
      RpcMove M s (.dropReply i) { s with replies := s.replies.eraseIdx i }
  | env (x : ξ) (σ' : σ) (ρ' : ρ) (h : M.env s.store s.remote x = some (σ', ρ')) :
      RpcMove M s (.env x) { s with store := σ', remote := ρ' }

variable [DecidableEq ω] {M : Component σ ρ π ω α χ φ ξ}

variable {s s' : World σ ρ π ω α} {e : RpcEvent π α χ φ ξ} {p : Nat} {q : π}

theorem rpcMove_of_step (h : rpcStep M s e = some s') : RpcMove M s e s' := by
  cases e with
  | spawn q =>
    simp only [rpcStep] at h
    split at h
    · rename_i hq
      exact Option.some.inj h ▸ .spawn q hq
    · exact absurd h (by simp)
  | act p c =>
    simp only [rpcStep] at h
    split at h
    · exact absurd h (by simp)
    · rename_i q hq
      split at h
      · exact absurd h (by simp)
      · rename_i σ' q' hact
        exact Option.some.inj h ▸ .act p c q q' σ' hq hact
  | send p =>
    simp only [rpcStep] at h
    split at h
    · exact absurd h (by simp)
    · rename_i w hw
      obtain ⟨q, hq, hw⟩ := Option.bind_eq_some_iff.mp hw
      exact Option.some.inj h ▸ .send p q w hq hw
  | receive p i =>
    simp only [rpcStep] at h
    split at h
    · exact absurd h (by simp)
    · rename_i q hq
      split at h
      · exact absurd h (by simp)
      · rename_i p' w a ha
        split at h
        · rename_i hw
          obtain ⟨rfl, hw⟩ := hw
          exact Option.some.inj h ▸ .receive p' i q w a hq hw ha
        · exact absurd h (by simp)
  | giveUp p a =>
    simp only [rpcStep] at h
    split at h
    · exact absurd h (by simp)
    · rename_i q hq
      split at h
      · rename_i hw
        obtain ⟨w, hw'⟩ := Option.isSome_iff_exists.mp hw.1
        exact Option.some.inj h ▸ .giveUp p a q w hq hw' hw.2
      · exact absurd h (by simp)
  | crash p =>
    simp only [rpcStep] at h
    split at h
    · exact absurd h (by simp)
    · rename_i q hq
      exact Option.some.inj h ▸ .crash p q hq
  | serve i f =>
    simp only [rpcStep] at h
    split at h
    · exact absurd h (by simp)
    · rename_i p w hw
      exact Option.some.inj h ▸ .serve i f p w (List.mem_of_getElem? hw)
  | dropRequest i => exact Option.some.inj h ▸ .dropRequest i
  | dropReply i => exact Option.some.inj h ▸ .dropReply i
  | env x =>
    simp only [rpcStep] at h
    split at h
    · exact absurd h (by simp)
    · rename_i σ' ρ' hx
      exact Option.some.inj h ▸ .env x σ' ρ' hx

omit [DecidableEq ω] in
/-- A process after another's state was replaced. -/
theorem World.at_put {p' : Nat} {q' : π} (h : (s.put p q).At p' q') :
    (p' = p ∧ q' = q) ∨ (p' ≠ p ∧ s.At p' q') := by
  unfold World.At World.put at h
  rw [Table.modify_row] at h
  split at h
  · rename_i hp
    obtain ⟨_, _, hq⟩ := Option.map_eq_some_iff.mp h
    exact Or.inl ⟨hp, hq.symm⟩
  · rename_i hp
    exact Or.inr ⟨hp, h⟩

omit [DecidableEq ω] in
theorem World.at_put_self (hq : s.At p q) (q' : π) :
    (s.put p q').At p q' := by
  have hrow : s.procs.row p = some q := hq
  rw [World.At, World.put, Table.modify_row, if_pos rfl, hrow]
  rfl

omit [DecidableEq ω] in
theorem World.at_put_of_ne {p' : Nat} (hq : s.At p' q) (hp : p' ≠ p) (q' : π) :
    (s.put p q').At p' q := by
  rw [World.At, World.put, Table.modify_row, if_neg hp]
  exact hq

/-! ## 3. Where processes and messages come from -/

/-- How a process came to be in a state: it was there before the step, or the step put it there. -/
inductive Origin (M : Component σ ρ π ω α χ φ ξ) (s : World σ ρ π ω α) (e : RpcEvent π α χ φ ξ)
    (s' : World σ ρ π ω α) (p : Nat) : π → Prop
  | kept (q : π) (hq : s.At p q) : Origin M s e s' p q
  | spawned (q : π) (he : e = .spawn q) (hp : p = s.procs.next)
      (h : M.mayStart s.store s.procs q = true) : Origin M s e s' p q
  | acted (c : χ) (q q' : π) (he : e = .act p c) (hq : s.At p q)
      (h : M.act s.store q c = some (s'.store, q')) (hr : s'.remote = s.remote) :
      Origin M s e s' p q'
  | received (i : Nat) (q : π) (w : ω) (a : α) (he : e = .receive p i) (hq : s.At p q)
      (hw : M.call q = some w) (ha : s.replies[i]? = some (p, w, a)) (hst : s'.store = s.store)
      (hr : s'.remote = s.remote) : Origin M s e s' p (M.resume q a)
  | gaveUp (q : π) (w : ω) (a : α) (he : e = .giveUp p a) (hq : s.At p q)
      (hw : M.call q = some w) (ha : M.gaveUp a = true) (hst : s'.store = s.store)
      (hr : s'.remote = s.remote) : Origin M s e s' p (M.resume q a)

/-- **Where a process state comes from.** -/
theorem origin_of_at (hs : rpcStep M s e = some s') (h : s'.At p q) : Origin M s e s' p q := by
  cases rpcMove_of_step hs with
  | spawn q' hadm =>
    rw [World.At, Table.insert_row] at h
    split at h
    · rename_i hp
      exact Option.some.inj h ▸ .spawned q' rfl hp hadm
    · exact .kept q h
  | act p' c q₀ q' σ' hq hact =>
    rcases World.at_put h with ⟨rfl, rfl⟩ | ⟨-, h⟩
    · exact .acted c q₀ q rfl hq hact rfl
    · exact .kept q h
  | send p' q' w hq hw => exact .kept q h
  | receive p' i q' w a hq hw ha =>
    rcases World.at_put h with ⟨rfl, rfl⟩ | ⟨-, h⟩
    · exact .received i q' w a rfl hq hw ha rfl rfl
    · exact .kept q h
  | giveUp p' a q' w hq hw ha =>
    rcases World.at_put h with ⟨rfl, rfl⟩ | ⟨-, h⟩
    · exact .gaveUp q' w a rfl hq hw ha rfl rfl
    · exact .kept q h
  | crash p' q' hq =>
    rw [World.At, Table.remove_row] at h
    split at h
    · exact absurd h (by simp)
    · exact .kept q h
  | serve i f p' w hw => exact .kept q h
  | dropRequest i => exact .kept q h
  | dropReply i => exact .kept q h
  | env x σ' ρ' hx => exact .kept q h

/-- **Where a request comes from.** -/
theorem origin_of_request (hs : rpcStep M s e = some s') {w : ω} (h : (p, w) ∈ s'.requests) :
    (p, w) ∈ s.requests ∨ ∃ q, e = .send p ∧ s.At p q ∧ M.call q = some w := by
  cases rpcMove_of_step hs with
  | send p' q w' hq hw =>
    rcases List.mem_append.mp h with h | h
    · exact Or.inl h
    · obtain ⟨rfl, rfl⟩ := Prod.mk.inj (List.mem_singleton.mp h)
      exact Or.inr ⟨q, rfl, hq, hw⟩
  | dropRequest i => exact Or.inl (List.mem_of_mem_eraseIdx h)
  | spawn q hadm => exact Or.inl h
  | act p' c q q' σ' hq hact => exact Or.inl h
  | receive p' i q w' a hq hw ha => exact Or.inl h
  | giveUp p' a q w' hq hw ha => exact Or.inl h
  | crash p' q hq => exact Or.inl h
  | serve i f p' w' hw => exact Or.inl h
  | dropReply i => exact Or.inl h
  | env x σ' ρ' hx => exact Or.inl h

/-- **Where an answer comes from.** -/
theorem origin_of_reply (hs : rpcStep M s e = some s') {w : ω} {a : α} (h : (p, w, a) ∈ s'.replies)
    :
    (p, w, a) ∈ s.replies ∨ ∃ i f, e = .serve i f ∧ (p, w) ∈ s.requests ∧ s'.store = s.store ∧
      M.serve s.remote w f = (s'.remote, a) := by
  cases rpcMove_of_step hs with
  | serve i f p' w' hw =>
    rcases List.mem_append.mp h with h | h
    · exact Or.inl h
    · have heq := List.mem_singleton.mp h
      simp only [Prod.mk.injEq] at heq
      obtain ⟨rfl, rfl, rfl⟩ := heq
      exact Or.inr ⟨i, f, rfl, hw, rfl, rfl⟩
  | dropReply i => exact Or.inl (List.mem_of_mem_eraseIdx h)
  | spawn q hadm => exact Or.inl h
  | act p' c q q' σ' hq hact => exact Or.inl h
  | send p' q w' hq hw => exact Or.inl h
  | receive p' i q w' a hq hw ha => exact Or.inl h
  | giveUp p' a q w' hq hw ha => exact Or.inl h
  | crash p' q hq => exact Or.inl h
  | dropRequest i => exact Or.inl h
  | env x σ' ρ' hx => exact Or.inl h

/-- The process an event moves or ends. -/
def RpcEvent.subject : RpcEvent π α χ φ ξ → Option Nat
  | .act p _ => some p
  | .receive p _ => some p
  | .giveUp p _ => some p
  | .crash p => some p
  | _ => none

/-- A process stays where it is when an event is about another. -/
theorem at_of_subject_ne (hs : rpcStep M s e = some s') (hq : s.At p q) (he : e.subject ≠ some p) :
    s'.At p q := by
  have hne : ∀ {p'}, some p' ≠ some p → p ≠ p' := fun h hp => h (congrArg some hp.symm)
  cases rpcMove_of_step hs with
  | spawn q' hadm => exact Table.insert_row_of_some hq
  | act p' c q₀ q' σ' hq' hact => exact World.at_put_of_ne hq (hne he) q'
  | receive p' i q' w a hq' hw ha => exact World.at_put_of_ne hq (hne he) _
  | giveUp p' a q' w hq' hw ha => exact World.at_put_of_ne hq (hne he) _
  | crash p' q' hq' => exact (Table.remove_row s.procs p' p).trans ((if_neg (hne he)).trans hq)
  | _ => exact hq

/-- Process ids are given out once. -/
theorem next_mono (hs : rpcStep M s e = some s') : s.procs.next ≤ s'.procs.next := by
  cases rpcMove_of_step hs with
  | spawn q hadm => exact Nat.le_succ _
  | _ => exact Nat.le_refl _

/-! ## 4. Control of a shared value -/

section Control

variable {κ ν : Type}

/-- A process that controls a key finds the value it expects there, and no two processes
control the same key. -/
structure Exclusive (control : π → Option (κ × ν)) (val : σ → κ → ν) (s : World σ ρ π ω α) :
    Prop where
  held : ∀ p q k v, s.At p q → control q = some (k, v) → val s.store k = v
  unique : ∀ p p' q q' k v v', s.At p q → s.At p' q' → control q = some (k, v) →
    control q' = some (k, v') → p = p'

/-- A local step respects control: it changes the value under a key only if the process
controls the key or the value is free, and gains control only of a free key. -/
structure Respects (control : π → Option (κ × ν)) (val : σ → κ → ν) (free : ν → Prop)
    (st st' : σ) (q q' : π) : Prop where
  changes : ∀ k, val st' k = val st k ∨ (∃ v, control q = some (k, v)) ∨ free (val st k)
  gains : ∀ k v, control q' = some (k, v) →
    val st' k = v ∧ ((∃ v', control q = some (k, v')) ∨ free (val st k))

omit [DecidableEq ω] in
theorem exclusive_init (control : π → Option (κ × ν)) (val : σ → κ → ν) (σ₀ : σ) (ρ₀ : ρ) :
    Exclusive control val (World.init σ₀ ρ₀ : World σ ρ π ω α) where
  held p q k v h := absurd h (by simp [World.At, World.init])
  unique p p' q q' k v v' h := absurd h (by simp [World.At, World.init])

variable {control : π → Option (κ × ν)} {val : σ → κ → ν} {s s' : World σ ρ π ω α} {p : Nat}
  {q q' : π} {free : ν → Prop} {lost lost' : κ → Prop}

omit [DecidableEq ω] in
/-- Control is kept when no value changes and every process in control was in control before. -/
theorem Exclusive.of_back (hE : Exclusive control val s)
    (hval : ∀ k, val s'.store k = val s.store k)
    (hback : ∀ p q x, s'.At p q → control q = some x → ∃ q₀, s.At p q₀ ∧ control q₀ = some x) :
    Exclusive control val s' where
  held p q k v hq hk := by
    obtain ⟨q₀, h0, hc0⟩ := hback p q _ hq hk
    exact (hval k).trans (hE.held p q₀ k v h0 hc0)
  unique p p' q q' k v v' hq hq' hk hk' := by
    obtain ⟨q₀, h0, hc0⟩ := hback p q _ hq hk
    obtain ⟨q₀', h0', hc0'⟩ := hback p' q' _ hq' hk'
    exact hE.unique p p' q₀ q₀' k v v' h0 h0' hc0 hc0'

omit [DecidableEq ω] in
/-- A process that resumes gains no control. -/
theorem Exclusive.put (hE : Exclusive control val s) (hq : s.At p q)
    (hc : ∀ x, control q' = some x → control q = some x) :
    Exclusive control val (s.put p q') := by
  refine hE.of_back (fun _ => rfl) fun p' r x hr hx => ?_
  rcases World.at_put hr with ⟨rfl, rfl⟩ | ⟨-, hr⟩
  · exact ⟨q, hq, hc x hx⟩
  · exact ⟨r, hr, hx⟩

omit [DecidableEq ω] in
/-- A local step that respects control keeps it. -/
theorem Exclusive.act (hE : Exclusive control val s)
    (hfree : ∀ q k v, control q = some (k, v) → ¬free v) {σ' : σ} (hq : s.At p q)
    (hr : Respects control val free s.store σ' q q') :
    Exclusive control val { s.put p q' with store := σ' } := by
  -- another process's key is not free and not controlled by `p`, so `p` leaves it alone
  have hother : ∀ p' r k v, p' ≠ p → s.At p' r → control r = some (k, v) →
      val σ' k = v ∧ (∀ v', control q ≠ some (k, v')) ∧ ¬free (val s.store k) := by
    intro p' r k v hne hr' hk
    have hval := hE.held p' r k v hr' hk
    have hnc : ∀ v', control q ≠ some (k, v') := fun v' hc =>
      hne (hE.unique p' p r q k v v' hr' hq hk hc)
    have hnf : ¬free (val s.store k) := hval ▸ hfree r k v hk
    rcases hr.changes k with h | ⟨v', h⟩ | h
    · exact ⟨h.trans hval, hnc, hnf⟩
    · exact absurd h (hnc v')
    · exact absurd h hnf
  have hgain : ∀ p' r k v, p' ≠ p → s.At p' r → control r = some (k, v) →
      ∀ v', control q' ≠ some (k, v') := by
    intro p' r k v hne hr' hk v' hc
    obtain ⟨-, hnc, hnf⟩ := hother p' r k v hne hr' hk
    rcases (hr.gains k v' hc).2 with ⟨v'', h⟩ | h
    · exact hnc v'' h
    · exact hnf h
  refine ⟨fun p' r k v hr' hk => ?_, fun p' p'' r r' k v v' hr' hr'' hk hk' => ?_⟩
  · rcases World.at_put hr' with ⟨rfl, rfl⟩ | ⟨hne, hr'⟩
    · exact (hr.gains k v hk).1
    · exact (hother p' r k v hne hr' hk).1
  · rcases World.at_put hr' with ⟨h1, h1'⟩ | ⟨hne, hold⟩
    · rcases World.at_put hr'' with ⟨h2, -⟩ | ⟨hne', hold'⟩
      · exact h1.trans h2.symm
      · exact absurd (h1' ▸ hk) (hgain p'' r' k v' hne' hold' hk' v)
    · rcases World.at_put hr'' with ⟨-, h2'⟩ | ⟨hne', hold'⟩
      · exact absurd (h2' ▸ hk') (hgain p' r k v hne hold hk v')
      · exact hE.unique p' p'' r r' k v v' hold hold' hk hk'

/-- **The rule for control.** -/
theorem Exclusive.step {e : RpcEvent π α χ φ ξ} (hE : Exclusive control val s)
    (hs : rpcStep M s e = some s') (hfree : ∀ q k v, control q = some (k, v) → ¬free v)
    (hstart : ∀ q, M.mayStart s.store s.procs q = true → control q = none)
    (hact : ∀ p c q σ' q', e = .act p c → s.At p q → M.act s.store q c = some (σ', q') →
      Respects control val free s.store σ' q q')
    (hresume : ∀ q w a x, M.call q = some w → control (M.resume q a) = some x → control q = some x)
    (henv : ∀ x σ' ρ', M.env s.store s.remote x = some (σ', ρ') → ∀ k, val σ' k = val s.store k) :
    Exclusive control val s' := by
  cases rpcMove_of_step hs with
  | spawn q hadm =>
    refine hE.of_back (fun _ => rfl) fun p' q' x hq' hx => ⟨q', ?_, hx⟩
    rw [World.At, Table.insert_row] at hq'
    split at hq'
    · rw [← Option.some.inj hq', hstart q hadm] at hx
      exact absurd hx (by simp)
    · exact hq'
  | act p c q q' σ' hq hstep =>
    have hr := hact p c q σ' q' rfl hq hstep
    exact hE.act hfree hq hr
  | send p q w hq hw => exact ⟨hE.held, hE.unique⟩
  | receive p i q w a hq hw ha => exact hE.put hq fun x => hresume q w a x hw
  | giveUp p a q w hq hw ha => exact hE.put hq fun x => hresume q w a x hw
  | crash p q hq =>
    refine hE.of_back (fun _ => rfl) fun p' q' x hq' hx => ⟨q', ?_, hx⟩
    rw [World.At, Table.remove_row] at hq'
    split at hq'
    · exact absurd hq' (by simp)
    · exact hq'
  | serve i f p w hw => exact ⟨hE.held, hE.unique⟩
  | dropRequest i => exact ⟨hE.held, hE.unique⟩
  | dropReply i => exact ⟨hE.held, hE.unique⟩
  | env x σ' ρ' hx =>
    exact hE.of_back (henv x σ' ρ' hx) fun p q y hq hy => ⟨q, hq, hy⟩

/-- Every key whose value is not free is controlled by a process, or given up as lost. -/
def Attended (control : π → Option (κ × ν)) (val : σ → κ → ν) (free : ν → Prop)
    (lost : κ → Prop) (s : World σ ρ π ω α) : Prop :=
  ∀ k, ¬free (val s.store k) → (∃ p q v, s.At p q ∧ control q = some (k, v)) ∨ lost k

/-- A local step lets go of free keys only: what is not free after it is controlled by the
process, or was neither free before nor the process's. -/
def LetsGo (control : π → Option (κ × ν)) (val : σ → κ → ν) (free : ν → Prop) (st st' : σ)
    (q q' : π) : Prop :=
  ∀ k, ¬free (val st' k) → (∃ v, control q' = some (k, v)) ∨
    (¬free (val st k) ∧ ∀ v, control q ≠ some (k, v))

omit [DecidableEq ω] in
/-- Attention is kept when no value changes and every process in control stays in control. -/
theorem Attended.of_kept (h : Attended control val free lost s)
    (hval : ∀ k, val s'.store k = val s.store k) (hlost : ∀ k, lost k → lost' k)
    (hkept : ∀ p q k v, s.At p q → control q = some (k, v) →
      (∃ p' q' v', s'.At p' q' ∧ control q' = some (k, v')) ∨ lost' k) :
    Attended control val free lost' s' := by
  intro k hk
  rw [hval] at hk
  rcases h k hk with ⟨p, q, v, hq, hc⟩ | hl
  · exact hkept p q k v hq hc
  · exact Or.inr (hlost k hl)

omit [DecidableEq ω] in
/-- A process that resumes keeps its control. -/
theorem Attended.put (h : Attended control val free lost s) (hlost : ∀ k, lost k → lost' k)
    (hq : s.At p q) (hc : control q' = control q) :
    Attended control val free lost' (s.put p q') := by
  refine h.of_kept (fun _ => rfl) hlost fun p₁ q₁ k v hq₁ hc₁ => Or.inl ?_
  by_cases hp : p₁ = p
  · subst hp
    obtain rfl := Option.some.inj (hq₁.symm.trans hq)
    exact ⟨p₁, q', v, World.at_put_self hq q', hc.trans hc₁⟩
  · exact ⟨p₁, q₁, v, World.at_put_of_ne hq₁ hp q', hc₁⟩

/-- **The rule for attention.** -/
theorem Attended.step {e : RpcEvent π α χ φ ξ} (h : Attended control val free lost s)
    (hs : rpcStep M s e = some s') (hlost : ∀ k, lost k → lost' k)
    (hact : ∀ p c q σ' q', e = .act p c → s.At p q → M.act s.store q c = some (σ', q') →
      LetsGo control val free s.store σ' q q')
    (hresume : ∀ q w a, M.call q = some w → control (M.resume q a) = control q)
    (hcrash : ∀ p q k v, e = .crash p → s.At p q → control q = some (k, v) → lost' k)
    (henv : ∀ x σ' ρ', M.env s.store s.remote x = some (σ', ρ') → ∀ k, val σ' k = val s.store k) :
    Attended control val free lost' s' := by
  cases rpcMove_of_step hs with
  | spawn q hadm =>
    exact h.of_kept (fun _ => rfl) hlost fun p' q' k v hq' hc =>
      Or.inl ⟨p', q', v, Table.insert_row_of_some hq', hc⟩
  | act p c q q' σ' hq hstep =>
    intro k hk
    rcases hact p c q σ' q' rfl hq hstep k hk with ⟨v, hc⟩ | ⟨hk₀, hnc⟩
    · exact Or.inl ⟨p, q', v, World.at_put_self hq q', hc⟩
    · rcases h k hk₀ with ⟨p₁, q₁, v, hq₁, hc₁⟩ | hl
      · have hp : p₁ ≠ p := by
          rintro rfl
          obtain rfl := Option.some.inj (hq₁.symm.trans hq)
          exact hnc v hc₁
        exact Or.inl ⟨p₁, q₁, v, World.at_put_of_ne hq₁ hp q', hc₁⟩
      · exact Or.inr (hlost k hl)
  | receive p i q w a hq hw ha => exact h.put hlost hq (hresume q w a hw)
  | giveUp p a q w hq hw ha => exact h.put hlost hq (hresume q w a hw)
  | crash p q hq =>
    refine h.of_kept (fun _ => rfl) hlost fun p' q' k v hq' hc => ?_
    by_cases hp : p' = p
    · subst hp
      exact Or.inr (hcrash p' q' k v rfl hq' hc)
    · refine Or.inl ⟨p', q', v, ?_, hc⟩
      rw [World.At, Table.remove_row, if_neg hp]
      exact hq'
  | env x σ' ρ' hx =>
    exact h.of_kept (henv x σ' ρ' hx) hlost fun p' q' k v hq' hc => Or.inl ⟨p', q', v, hq', hc⟩
  | send p q w hq hw =>
    exact h.of_kept (fun _ => rfl) hlost fun p' q' k v hq' hc => Or.inl ⟨p', q', v, hq', hc⟩
  | serve i f p w hw =>
    exact h.of_kept (fun _ => rfl) hlost fun p' q' k v hq' hc => Or.inl ⟨p', q', v, hq', hc⟩
  | dropRequest i =>
    exact h.of_kept (fun _ => rfl) hlost fun p' q' k v hq' hc => Or.inl ⟨p', q', v, hq', hc⟩
  | dropReply i =>
    exact h.of_kept (fun _ => rfl) hlost fun p' q' k v hq' hc => Or.inl ⟨p', q', v, hq', hc⟩

end Control

/-! ## 5. Making a call -/

variable {s : World σ ρ π ω α} {q : π}

theorem rpcStep_spawn (h : M.mayStart s.store s.procs q = true) :
    rpcStep M s (.spawn q) = some { s with procs := s.procs.insert q } := by
  rw [rpcStep, if_pos h]

theorem rpcStep_act {p : Nat} {q' : π} {c : χ} {σ' : σ} (hq : s.At p q)
    (h : M.act s.store q c = some (σ', q')) :
    rpcStep M s (.act p c) = some { s.put p q' with store := σ' } := by
  have hrow : s.procs.row p = some q := hq
  simp only [rpcStep, hrow, h]

/-- **A call that is answered**: the request is sent, served and its answer received. -/
theorem run_call {p : Nat} {w : ω} {f : φ} {ρ' : ρ} {a : α} (hq : s.At p q) (hw : M.call q = some w)
    (ha : M.serve s.remote w f = (ρ', a)) :
    ∃ s', run (rpcStep M) s
        [.send p, .serve s.requests.length f, .receive p s.replies.length] = some s' ∧
      s'.At p (M.resume q a) ∧ s'.store = s.store := by
  have hrow : s.procs.row p = some q := hq
  exact ⟨{ s.put p (M.resume q a) with
      remote := ρ', requests := s.requests ++ [(p, w)], replies := s.replies ++ [(p, w, a)] },
    by simp [run, rpcStep, hrow, hw, ha, World.put], World.at_put_self hq _, rfl⟩

end OrderSystem.Kit
