/-
# The failure texts

Where an order, a task or an outbox row is given a new status or lease because something failed,
the same update records the message of the error, cut to the 500 characters of its column by
`truncate`.  Such an update is refused as a whole if the database does not accept the text, and
the services ignore most of its errors; so the text has to be acceptable, whatever the message.

`truncate` counts bytes.  A text of at most 500 bytes is short enough, but the cut can fall into
a character of several bytes, and then the text is not UTF-8.  `recorded_iff` says for which
messages it is: those of at most 500 bytes, and those whose byte 500 starts a character.

A message that a state of a program is about to record is its `message`; `issued_text` ties it to
the statements of `Service.lean` and `Workers.lean`.
-/
import OrderSystem.OrderSvc.Workers

namespace OrderSystem.OrderSvc

/-! ## 1. Cutting UTF-8 -/

theorem toByteArray_take (s : GoString) (n : Nat) :
    (s.take n).toByteArray = s.toByteArray.extract 0 n := by
  ext1
  simp

/-- A text is cut between two characters when the next byte starts one. -/
theorem validUTF8_take_iff {s : GoString} (hs : ValidUTF8 s) {n : Nat} (hn : n < s.length) :
    ValidUTF8 (s.take n) ↔ s[n].IsUTF8FirstByte := by
  -- the text as a string, in which a position is valid when the bytes before it are
  let text : String := ⟨s.toByteArray, hs⟩
  have hend : (⟨n⟩ : String.Pos.Raw) < text.rawEndPos := by
    simpa [text, String.Pos.Raw.lt_iff, ← String.size_toByteArray] using hn
  have hcut := String.Pos.Raw.isValid_iff_isValidUTF8_extract_zero (s := text) (p := ⟨n⟩)
  have hbyte := String.Pos.Raw.isValid_iff_isUTF8FirstByte (s := text) (p := ⟨n⟩)
  rw [ValidUTF8, toByteArray_take]
  constructor
  · intro h
    rcases hbyte.mp (hcut.mpr ⟨Nat.le_of_lt hend, h⟩) with heq | ⟨_, hfirst⟩
    · exact absurd (heq ▸ hend) (Nat.lt_irrefl _)
    · simpa [text, String.getUTF8Byte] using hfirst
  · intro h
    refine (hcut.mp (hbyte.mpr (Or.inr ⟨hend, ?_⟩))).2
    simpa [text, String.getUTF8Byte] using h

theorem charCount_le (s : GoString) : charCount s ≤ s.length := List.length_filter_le _ s

theorem truncate_prefix (s : GoString) (limit : Nat) : truncate s limit <+: s := by
  rw [truncate]
  split
  · exact List.prefix_rfl
  · exact List.take_prefix limit s

theorem length_truncate_le (s : GoString) (limit : Nat) : (truncate s limit).length ≤ limit := by
  rw [truncate]
  split
  · assumption
  · exact List.length_take_le limit s

/-! ## 2. The writes -/

/-- The message that a state of `Create` is about to record... -/
def CreatePc.message : CreatePc → Option GoString
  | .fail _ cause => some cause.text
  | .compensate _ _ reason _ => some reason
  | _ => none

/-- ...a state of `cancel` or `Pay`... -/
def SettlePc.message : SettlePc → Option GoString
  | .revert cause => some cause.text
  | .compensate cause => some cause.text
  | _ => none

/-- ...of the reconciliation worker... -/
def ReconPc.message : ReconPc → Option GoString
  | .markFailed _ cause _ => some cause.text
  | .markUnresolved _ reason _ => some reason
  | _ => none

/-- ...of the publisher... -/
def PublishPc.message : PublishPc → Option GoString
  | .markFailure _ cause _ => some cause
  | _ => none

/-- ...and of `handleDelivery`. -/
def DeliveryPc.message : DeliveryPc → Option GoString
  | .recordFailure cause => some cause.text
  | _ => none

/-- A program is about to run a statement, in a state with this message. -/
inductive Issued : Option GoString → Stmt → Prop where
  | create {c : CreateCall} {pc : CreatePc} {stmt : Stmt} :
      pc.stmt c = some stmt → Issued pc.message stmt
  | settle {c : SettleCall} {pc : SettlePc} {stmt : Stmt} :
      pc.stmt c = some stmt → Issued pc.message stmt
  | reconciliation {cfg : ReconciliationWorkerConfig} {pc : ReconPc} {stmt : Stmt} :
      pc.stmt cfg = some stmt → Issued pc.message stmt
  | publisher {cfg : WorkerConfig} {pc : PublishPc} {stmt : Stmt} :
      pc.stmt cfg = some stmt → Issued pc.message stmt
  | delivery {d : Delivery} {pc : DeliveryPc} {stmt : Stmt} :
      pc.stmt d = some stmt → Issued pc.message stmt

/-- The text of a failure that a statement passes to the database, next to a new status or
lease. -/
def Stmt.failureText : Stmt → Option GoString
  | .writeStatus _ _ reason => some reason
  | .revert _ _ reason => some reason
  | .markTask _ _ _ lastError _ _ => some lastError
  | .markOutboxFailure _ _ lastError _ => some lastError
  | .recordFailure _ lastError => some lastError
  | _ => none

/-- The statements that record a failure are those of the states with a message, and they all
pass it through `truncate`. -/
theorem issued_text {message : Option GoString} {stmt : Stmt} (h : Issued message stmt) :
    stmt.failureText = message.map (truncate · 500) := by
  rcases h with @⟨_, pc, _, h⟩ | @⟨_, pc, _, h⟩ | @⟨_, pc, _, h⟩ | @⟨_, pc, _, h⟩ | @⟨_, pc, _, h⟩
  all_goals
    cases pc <;> cases h <;> rfl

/-! ## 3. Which texts the database accepts -/

/-- What a `VARCHAR(500)` column accepts. -/
structure Storable (text : GoString) : Prop where
  valid : ValidUTF8 text
  length : charCount text ≤ 500

/-- The statement passes a text that the database accepts: a prefix of the message, of at most
500 bytes. -/
structure Recorded (message : GoString) (stmt : Stmt) (text : GoString) : Prop where
  passed : stmt.failureText = some text
  storable : Storable text
  ofMessage : text <+: message
  bytes : text.length ≤ 500

/-- A cut after 500 bytes splits no character of the message. -/
def WholeAt500 (message : GoString) : Prop :=
  message.length ≤ 500 ∨ ∃ b ∈ message[500]?, b.IsUTF8FirstByte

theorem validUTF8_truncate_iff {message : GoString} (hvalid : ValidUTF8 message) :
    ValidUTF8 (truncate message 500) ↔ WholeAt500 message := by
  rw [truncate]
  split
  · rename_i hshort
    exact ⟨fun _ => Or.inl hshort, fun _ => hvalid⟩
  · rename_i hlong
    have hlt : 500 < message.length := Nat.lt_of_not_le hlong
    rw [validUTF8_take_iff hvalid hlt, WholeAt500, List.getElem?_eq_getElem hlt]
    simp [hlong]

/-- A failure is recorded with its status change exactly when the cut splits no character. -/
theorem recorded_iff {message : GoString} {stmt : Stmt} (hissued : Issued (some message) stmt)
    (hvalid : ValidUTF8 message) : (∃ text, Recorded message stmt text) ↔ WholeAt500 message := by
  have hpassed : stmt.failureText = some (truncate message 500) := issued_text hissued
  rw [← validUTF8_truncate_iff hvalid]
  constructor
  · rintro ⟨text, hrecorded⟩
    obtain rfl : truncate message 500 = text :=
      Option.some.inj (hpassed.symm.trans hrecorded.passed)
    exact hrecorded.storable.valid
  · intro h
    have hbytes := length_truncate_le message 500
    exact ⟨_, hpassed, ⟨h, (charCount_le _).trans hbytes⟩, truncate_prefix message 500, hbytes⟩

/-- An answer of the inventory service with `n` letters and then a character of two bytes. -/
def longReply (n : Nat) : Err := .remote 409 (List.replicate n 0x61 ++ [0xC3, 0xA9])

theorem validUTF8_longReply (n : Nat) : ValidUTF8 (longReply n).text := by
  have hletters : ValidUTF8 (List.replicate n 0x61) := by
    induction n with
    | zero => decide
    | succ n ih => exact ValidUTF8.append (s := [0x61]) (by decide) ih
  refine ValidUTF8.append ?_ (hletters.append (by decide))
  decide +kernel

/-- What `cancel` runs when the inventory service refuses the release of order 7. -/
def revertCancel (cause : Err) : Stmt := .revert 7 .cancelling (truncate cause.text 500)

theorem issued_revertCancel (cause : Err) : Issued (some cause.text) (revertCancel cause) :=
  @Issued.settle ⟨.cancel, false, 1, 7, none⟩ (.revert cause) _ rfl

/-- The character begins at byte 500. -/
theorem recorded_iff_between :
    ∃ text, Recorded (longReply 468).text (revertCancel (longReply 468)) text := by
  refine (recorded_iff (issued_revertCancel _) (validUTF8_longReply 468)).mpr (Or.inr ?_)
  exact ⟨0xC3, by decide +kernel, by decide⟩

/-- The character begins a byte earlier: the update that should bring the order back to `pending`
passes a text that is not UTF-8. -/
theorem split_not_recorded :
    ValidUTF8 (longReply 467).text ∧
      Issued (some (longReply 467).text) (revertCancel (longReply 467)) ∧
      ∀ text, ¬ Recorded (longReply 467).text (revertCancel (longReply 467)) text := by
  refine ⟨validUTF8_longReply 467, issued_revertCancel _, ?_⟩
  intro text hrecorded
  obtain rfl : truncate (longReply 467).text 500 = text := Option.some.inj hrecorded.passed
  have hwhole := (validUTF8_truncate_iff (validUTF8_longReply 467)).mp hrecorded.storable.valid
  have hbyte : (longReply 467).text[500]? = some 0xA9 := by decide +kernel
  rcases hwhole with hshort | ⟨b, hb, hfirst⟩
  · exact absurd (List.getElem?_eq_none hshort) (by rw [hbyte]; nofun)
  · obtain rfl : b = 0xA9 := Option.some.inj (hb.symm.trans hbyte)
    exact absurd hfirst (by decide)

end OrderSystem.OrderSvc
