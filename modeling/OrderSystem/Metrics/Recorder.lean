/-
# The recorders around a response writer

`ObserveHTTP` wraps a handler twice: the handler writes to a `responseRecorder` of the metrics,
which writes to a `statusRecorder` of the tracing, which writes to the writer of `net/http`.  A
recorder remembers a status, which is 200 at first, and passes a header on only if it has
remembered 200 so far and the header is another one.

So one field stands for "nothing was written" and for "200 was written".  The handler is not
observed as it behaves in two cases: it sends an interim response, after which the recorders
take the interim status for the final one and swallow what follows; or it goes on to send a
header after the status was fixed at 200, which `net/http` would ignore.  `Plain` says that
neither happens, and `instrumentation_faithful` that nothing else goes wrong.
-/
import OrderSystem.Platform

namespace OrderSystem.Metrics

/-! ## 1. Writers -/

/-- `http.ResponseWriter`; `write` returns the number of bytes written. -/
structure ResponseWriter (ω : Type) where
  writeHeader : ω → Int → ω
  write : ω → GoString → ω × Nat

/-- The state of the writer of `net/http`: what it has emitted. -/
structure Emitted where
  interim : List Int
  /-- the final status, once it is fixed -/
  status : Option Int
  body : GoString
  deriving DecidableEq

/-- A status that is sent as an interim response. -/
def Interim (status : Int) : Prop := 100 ≤ status ∧ status ≤ 199 ∧ status ≠ 101

instance (status : Int) : Decidable (Interim status) := inferInstanceAs (Decidable (_ ∧ _))

/-- `http.StatusOK`. -/
def statusOK : Int := 200

/-- The writer of `net/http`, by its contract. -/
def netHTTP : ResponseWriter Emitted where
  writeHeader w status :=
    if w.status.isSome then w
    else if Interim status then { w with interim := w.interim ++ [status] }
    else { w with status := some status }
  write w data :=
    ({ w with status := some (w.status.getD statusOK), body := w.body ++ data }, data.length)

/-- The handler returns: a status that was not fixed is 200. -/
def Emitted.finish (w : Emitted) : Emitted := { w with status := some (w.status.getD statusOK) }

structure StatusRecorder (ω : Type) where
  inner : ω
  status : Int
  deriving DecidableEq

def statusRecorder {ω : Type} (W : ResponseWriter ω) : ResponseWriter (StatusRecorder ω) where
  writeHeader recorder status :=
    if recorder.status ≠ statusOK ∨ status = statusOK then recorder
    else ⟨W.writeHeader recorder.inner status, status⟩
  write recorder data :=
    let (inner, written) := W.write recorder.inner data
    ({ recorder with inner }, written)

structure ResponseRecorder (ω : Type) where
  inner : ω
  status : Int
  bytes : Int
  deriving DecidableEq

def responseRecorder {ω : Type} (W : ResponseWriter ω) : ResponseWriter (ResponseRecorder ω) where
  writeHeader recorder status :=
    if recorder.status ≠ statusOK ∨ status = statusOK then recorder
    else { recorder with inner := W.writeHeader recorder.inner status, status }
  write recorder data :=
    let (inner, written) := W.write recorder.inner data
    ({ recorder with inner, bytes := wrap64 (recorder.bytes + written) }, written)

/-- What a handler does to its writer. -/
inductive HandlerCall where
  | writeHeader (status : Int)
  | write (data : GoString)
  deriving DecidableEq

def HandlerCall.run {ω : Type} (W : ResponseWriter ω) (w : ω) : HandlerCall → ω
  | .writeHeader status => W.writeHeader w status
  | .write data => (W.write w data).1

def serve {ω : Type} (W : ResponseWriter ω) (w : ω) (calls : List HandlerCall) : ω :=
  calls.foldl (HandlerCall.run W) w

/-- The writer of `net/http` before the handler is called. -/
def blank : Emitted := ⟨[], none, []⟩

/-- The two recorders of `ObserveHTTP`, around the writer. -/
def recorders : ResponseWriter (ResponseRecorder (StatusRecorder Emitted)) :=
  responseRecorder (statusRecorder netHTTP)

/-- The recorders as they are made around a writer. -/
def observed (w : Emitted) : ResponseRecorder (StatusRecorder Emitted) :=
  ⟨⟨w, statusOK⟩, statusOK, 0⟩

/-! ## 2. What the recorders see -/

/-- At the end, the writer has emitted the same as without the recorders, and each recorder
holds the final status. -/
structure Faithful (direct : Emitted) (r : ResponseRecorder (StatusRecorder Emitted)) :
    Prop where
  transparent : r.inner.inner.finish = direct.finish
  metrics : some r.status = direct.finish.status
  tracing : some r.inner.status = direct.finish.status

instance (direct : Emitted) (r : ResponseRecorder (StatusRecorder Emitted)) :
    Decidable (Faithful direct r) :=
  decidable_of_iff (r.inner.inner.finish = direct.finish ∧ some r.status = direct.finish.status ∧
    some r.inner.status = direct.finish.status)
    ⟨fun h => ⟨h.1, h.2.1, h.2.2⟩, fun h => ⟨h.transparent, h.metrics, h.tracing⟩⟩

/-- No interim response, and no other header once the status is fixed at 200. -/
def Plain : Option Int → List HandlerCall → Prop
  | _, [] => True
  | none, .writeHeader status :: calls => ¬ Interim status ∧ Plain (some status) calls
  | none, .write _ :: calls => Plain (some statusOK) calls
  | some fixed, .writeHeader status :: calls =>
    (fixed = statusOK → status = statusOK) ∧ Plain (some fixed) calls
  | some fixed, .write _ :: calls => Plain (some fixed) calls

/-- So far the recorders have seen what the handler did.  An explicit 200 has not been passed
on. -/
structure Seen (direct : Emitted) (r : ResponseRecorder (StatusRecorder Emitted)) : Prop where
  interim : r.inner.inner.interim = direct.interim
  body : r.inner.inner.body = direct.body
  status : r.inner.inner.status = direct.status ∨
    (r.inner.inner.status = none ∧ direct.status = some statusOK)
  metrics : r.status = direct.status.getD statusOK
  tracing : r.inner.status = direct.status.getD statusOK

theorem Seen.faithful {direct : Emitted} {r : ResponseRecorder (StatusRecorder Emitted)}
    (h : Seen direct r) : Faithful direct r := by
  refine ⟨?_, ?_, ?_⟩
  · have hstatus : r.inner.inner.status.getD statusOK = direct.status.getD statusOK := by
      rcases h.status with hsame | ⟨hnone, hok⟩
      · rw [hsame]
      · rw [hnone, hok]
        rfl
    simp only [Emitted.finish, h.interim, h.body, hstatus]
  · rw [h.metrics, Emitted.finish]
  · rw [h.tracing, Emitted.finish]

theorem Seen.write {direct : Emitted} {r : ResponseRecorder (StatusRecorder Emitted)}
    (h : Seen direct r) (data : GoString) :
    Seen (netHTTP.write direct data).1 (recorders.write r data).1 := by
  refine ⟨h.interim, ?_, ?_, ?_, ?_⟩
  · simp only [recorders, responseRecorder, statusRecorder, netHTTP, h.body]
  · left
    simp only [recorders, responseRecorder, statusRecorder, netHTTP]
    rcases h.status with hsame | ⟨hnone, hok⟩
    · rw [hsame]
    · rw [hnone, hok]
      rfl
  · exact h.metrics
  · exact h.tracing

/-- A recorder that remembers another status than 200 passes nothing on. -/
theorem recorders_ignore {r : ResponseRecorder (StatusRecorder Emitted)} {status : Int}
    (h : r.status ≠ statusOK ∨ status = statusOK) : recorders.writeHeader r status = r := by
  simp only [recorders, responseRecorder]
  exact if_pos h

section

variable {direct : Emitted} {r : ResponseRecorder (StatusRecorder Emitted)} {status : Int}

/-- Both recorders pass a header on as long as the status is 200 or not fixed. -/
theorem Seen.pass (h : Seen direct r) (hok : direct.status.getD statusOK = statusOK)
    (hne : status ≠ statusOK) : recorders.writeHeader r status =
      { r with inner := ⟨netHTTP.writeHeader r.inner.inner status, status⟩, status } := by
  have hmetrics : r.status = statusOK := h.metrics.trans hok
  have htracing : r.inner.status = statusOK := h.tracing.trans hok
  simp [recorders, responseRecorder, statusRecorder, hmetrics, htracing, hne]

/-- **A header that is not an interim one**, before the status is fixed. -/
theorem Seen.fixes (h : Seen direct r) (hnone : direct.status = none) (hfinal : ¬ Interim status) :
    Seen (netHTTP.writeHeader direct status) (recorders.writeHeader r status) ∧
      (netHTTP.writeHeader direct status).status = some status := by
  have hdirect : netHTTP.writeHeader direct status = { direct with status := some status } := by
    simp [netHTTP, hnone, hfinal]
  have hinner : r.inner.inner.status = none := by
    rcases h.status with hsame | ⟨hnone', -⟩
    · exact hsame.trans hnone
    · exact hnone'
  have hok : direct.status.getD statusOK = statusOK := by rw [hnone, Option.getD_none]
  rw [hdirect]
  refine ⟨?_, rfl⟩
  by_cases h200 : status = statusOK
  · -- an explicit 200 is not passed on
    subst h200
    rw [recorders_ignore (.inr rfl)]
    exact ⟨h.interim, h.body, .inr ⟨hinner, rfl⟩, h.metrics.trans hok, h.tracing.trans hok⟩
  · have hpassed : netHTTP.writeHeader r.inner.inner status =
        { r.inner.inner with status := some status } := by
      simp [netHTTP, hinner, hfinal]
    rw [h.pass hok h200, hpassed]
    exact ⟨h.interim, h.body, .inl rfl, rfl, rfl⟩

/-- **A header after the status is fixed**, to 200 only by another 200. -/
theorem Seen.ignores {fixed : Int} (h : Seen direct r) (hfixed : direct.status = some fixed)
    (hok : fixed = statusOK → status = statusOK) :
    Seen (netHTTP.writeHeader direct status) (recorders.writeHeader r status) ∧
      (netHTTP.writeHeader direct status).status = some fixed := by
  have hdirect : netHTTP.writeHeader direct status = direct := by simp [netHTTP, hfixed]
  have hmetrics : r.status = fixed := by rw [h.metrics, hfixed, Option.getD_some]
  rw [hdirect, recorders_ignore]
  · exact ⟨h, hfixed⟩
  · by_cases h200 : fixed = statusOK
    · exact .inr (hok h200)
    · exact .inl (hmetrics ▸ h200)

/-- The metrics have recorded a status that will not be the final one. -/
def Mistaken (direct : Emitted) (r : ResponseRecorder (StatusRecorder Emitted)) : Prop :=
  r.status ≠ statusOK ∧
    (direct.status = some statusOK ∨
      Interim r.status ∧ ∀ status ∈ direct.status, ¬ Interim status)

theorem Mistaken.call (h : Mistaken direct r) (call : HandlerCall) :
    Mistaken (call.run netHTTP direct) (call.run recorders r) := by
  obtain ⟨hne, hwrong⟩ := h
  cases call with
  | writeHeader status =>
    simp only [HandlerCall.run]
    rw [recorders_ignore (.inl hne)]
    refine ⟨hne, ?_⟩
    rcases hwrong with hfixed | ⟨hinterim, hfinal⟩
    · left
      simp [netHTTP, hfixed]
    · right
      refine ⟨hinterim, fun final hstatus => ?_⟩
      simp only [netHTTP] at hstatus
      split at hstatus
      · exact hfinal final hstatus
      · split at hstatus
        · exact hfinal final hstatus
        · rename_i hnot
          exact Option.some.inj hstatus ▸ hnot
  | write data =>
    refine ⟨hne, ?_⟩
    rcases hwrong with hfixed | ⟨hinterim, hfinal⟩
    · left
      simp [HandlerCall.run, netHTTP, hfixed]
    · right
      refine ⟨hinterim, fun final hstatus => ?_⟩
      obtain rfl := Option.some.inj hstatus
      cases hdirect : direct.status with
      | none => decide
      | some fixed => exact hfinal fixed hdirect

theorem Mistaken.not_faithful (h : Mistaken direct r) (calls : List HandlerCall) :
    ¬ Faithful (serve netHTTP direct calls) (serve recorders r calls) := by
  induction calls generalizing direct r with
  | nil =>
    rintro ⟨-, hmetrics, -⟩
    obtain ⟨hne, hwrong⟩ := h
    have hstatus : r.status = direct.status.getD statusOK := Option.some.inj hmetrics
    rcases hwrong with hfixed | ⟨hinterim, hfinal⟩
    · exact hne (by rw [hstatus, hfixed, Option.getD_some])
    · cases hdirect : direct.status with
      | none => exact hne (by rw [hstatus, hdirect, Option.getD_none])
      | some fixed =>
        rw [hstatus, hdirect, Option.getD_some] at hinterim
        exact hfinal fixed hdirect hinterim
  | cons call calls ih => exact ih (h.call call)

/-- **When the recorders are faithful.**  From a state in which they are, they are so at the end
exactly when the handler sends no interim response and no other header after a 200. -/
theorem faithful_iff (h : Seen direct r) (calls : List HandlerCall) :
    Faithful (serve netHTTP direct calls) (serve recorders r calls) ↔
      Plain direct.status calls := by
  induction calls generalizing direct r with
  | nil => exact ⟨fun _ => trivial, fun _ => h.faithful⟩
  | cons call calls ih =>
    cases call with
    | write data =>
      have hfixed : (netHTTP.write direct data).1.status =
          some (direct.status.getD statusOK) := rfl
      have hrest := ih (h.write data)
      rw [hfixed] at hrest
      cases hstatus : direct.status with
      | none | some fixed =>
        rw [hstatus] at hrest
        exact hrest
    | writeHeader status =>
      cases hstatus : direct.status with
      | none =>
        by_cases hinterim : Interim status
        · have hne : status ≠ statusOK := by
            rintro rfl
            exact absurd hinterim (by decide)
          have hmistaken : Mistaken (netHTTP.writeHeader direct status)
              (recorders.writeHeader r status) := by
            rw [h.pass (by rw [hstatus, Option.getD_none]) hne]
            refine ⟨hne, .inr ⟨hinterim, fun final hfinal => ?_⟩⟩
            simp [netHTTP, hstatus, hinterim] at hfinal
          exact iff_of_false (hmistaken.not_faithful calls) fun hplain => hplain.1 hinterim
        · obtain ⟨hseen, hfixed⟩ := h.fixes hstatus hinterim
          have hrest := ih hseen
          rw [hfixed] at hrest
          exact hrest.trans ⟨fun hplain => ⟨hinterim, hplain⟩, fun hplain => hplain.2⟩
      | some fixed =>
        by_cases hok : fixed = statusOK → status = statusOK
        · obtain ⟨hseen, hfixed⟩ := h.ignores hstatus hok
          have hrest := ih hseen
          rw [hfixed] at hrest
          exact hrest.trans ⟨fun hplain => ⟨hok, hplain⟩, fun hplain => hplain.2⟩
        · obtain ⟨rfl, hne⟩ := Classical.not_imp.mp hok
          have hmistaken : Mistaken (netHTTP.writeHeader direct status)
              (recorders.writeHeader r status) := by
            rw [h.pass (by rw [hstatus, Option.getD_some]) hne]
            exact ⟨hne, .inl (by simp [netHTTP, hstatus])⟩
          exact iff_of_false (hmistaken.not_faithful calls) fun hplain => hok hplain.1

end

theorem seen_blank : Seen blank (observed blank) := ⟨rfl, rfl, .inl rfl, rfl, rfl⟩

/-- **The instrumentation is transparent and truthful** for a handler if and only if the handler
sends no interim response before its final status, and no header but 200 once the status is fixed
at 200. -/
theorem instrumentation_faithful (calls : List HandlerCall) :
    ((serve recorders (observed blank) calls).inner.inner.finish =
        (serve netHTTP blank calls).finish ∧
      some (serve recorders (observed blank) calls).status =
        (serve recorders (observed blank) calls).inner.inner.finish.status ∧
      some (serve recorders (observed blank) calls).inner.status =
        (serve recorders (observed blank) calls).inner.inner.finish.status) ↔
      Plain none calls := by
  refine Iff.trans ?_ (faithful_iff seen_blank calls)
  constructor
  · rintro ⟨htransparent, hmetrics, htracing⟩
    rw [htransparent] at hmetrics htracing
    exact ⟨htransparent, hmetrics, htracing⟩
  · rintro ⟨htransparent, hmetrics, htracing⟩
    rw [htransparent]
    exact ⟨rfl, hmetrics, htracing⟩

/-- After an interim response the final 404 is swallowed and the recorders hold 103; after an
explicit 200 another header gets through; after a body the recorders hold a status that was
never sent. -/
theorem instrumentation_unfaithful :
    ((serve netHTTP blank [.writeHeader 103, .writeHeader 404]).finish = ⟨[103], some 404, []⟩ ∧
      (serve recorders (observed blank) [.writeHeader 103, .writeHeader 404]).inner.inner.finish =
        ⟨[103], some 200, []⟩ ∧
      (serve recorders (observed blank) [.writeHeader 103, .writeHeader 404]).status = 103) ∧
    ((serve netHTTP blank [.writeHeader 200, .writeHeader 404]).finish = ⟨[], some 200, []⟩ ∧
      (serve recorders (observed blank) [.writeHeader 200, .writeHeader 404]).inner.inner.finish =
        ⟨[], some 404, []⟩) ∧
    ((serve recorders (observed blank) [.write [0x78], .writeHeader 404]).inner.inner.finish =
        ⟨[], some 200, [0x78]⟩ ∧
      (serve recorders (observed blank) [.write [0x78], .writeHeader 404]).status = 404) := by
  decide

end OrderSystem.Metrics
