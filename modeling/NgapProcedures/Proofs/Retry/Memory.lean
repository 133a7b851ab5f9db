import NgapProcedures.Proofs.Settlement

/-! What a retry procedure remembers of the rejections that it was told. It keeps the last one that
imposed a wait, whether it waits that out or its retries are exhausted by it. A rejection without a
wait ends the procedure and goes into its outcome, while the memory stays at the one before. -/

namespace NgapProcedures

namespace RetryProcedure

open Passage

variable {ρ σ : Type} {P : RetryProtocol ρ σ} {p p' : RetryProcedure ρ σ} {event : RetryEvent σ}
  {fx : List Effect} {id : ProcedureId} {request : ProcedureRequest ρ}
  {passages : List (Passage σ)}

theorem rejections_snoc_other (passages : List (Passage σ)) (fx : List Effect)
    (h : event.rejection? = none) :
    rejections (passages ++ [⟨event, fx⟩]) = rejections passages := by
  simp [rejections, h]

inductive Remembers (passages : List (Passage σ)) (p : RetryProcedure ρ σ) : Prop where
  | kept (ho : ∀ r, p.outcome ≠ some (.failure (.rejected r)))
      (hw : ∀ r ∈ rejections passages, r.wait?.isSome = true)
      (hl : p.lastFailure = (rejections passages).getLast?)
  | dropped {earlier : List Rejection} {r : Rejection}
      (ho : p.outcome = some (.failure (.rejected r))) (hr : rejections passages = earlier ++ [r])
      (hn : r.wait? = none) (hw : ∀ r ∈ earlier, r.wait?.isSome = true)
      (hl : p.lastFailure = earlier.getLast?)

/-- an event that is no rejection leaves the memory as it is -/
theorem Remembers.keep (hw : ∀ r ∈ rejections passages, r.wait?.isSome = true)
    (hl : p.lastFailure = (rejections passages).getLast?) (he : event.rejection? = none)
    (hl' : p'.lastFailure = p.lastFailure)
    (ho : ∀ r, p'.outcome ≠ some (.failure (.rejected r))) :
    Remembers (passages ++ [⟨event, fx⟩]) p' := by
  apply Remembers.kept ho
  · rwa [rejections_snoc_other _ _ he]
  · rw [rejections_snoc_other _ _ he, hl', hl]

/-- a rejection with a wait is remembered -/
theorem Remembers.learn {r : Rejection} {delay : Duration} (hr : r.wait? = some delay)
    (hw : ∀ r ∈ rejections passages, r.wait?.isSome = true) (hl : p'.lastFailure = some r)
    (ho : ∀ r, p'.outcome ≠ some (.failure (.rejected r))) :
    Remembers (passages ++ [⟨.reply (.failure r), fx⟩]) p' := by
  apply Remembers.kept ho
  · intro s hs
    rw [rejections_snoc] at hs
    rcases List.mem_append.1 hs with hs | hs
    · exact hw s hs
    · rw [List.mem_singleton.1 hs, hr]
      rfl
  · rw [rejections_snoc, List.getLast?_concat, hl]

theorem Remembers.accepted (h : Remembers passages p) (hc : p.Consistent)
    (ha : Accepted P p event p' fx) : Remembers (passages ++ [⟨event, fx⟩]) p' := by
  have hopen : p.outcome = none := hc.undecided ha.not_isTerminal
  -- an open procedure has dropped nothing
  obtain ⟨hw, hl⟩ : (∀ r ∈ rejections passages, r.wait?.isSome = true) ∧
      p.lastFailure = (rejections passages).getLast? := by
    cases h with
    | kept _ hw hl => exact ⟨hw, hl⟩
    | dropped ho => simp [hopen] at ho
  cases ha with
  | launched hs => exact .keep hw hl rfl rfl (by simp [RetryProcedure.launched, hopen])
  | succeeded hs response => exact .keep hw hl rfl rfl (by simp)
  | rejected hs hn => exact .dropped rfl (rejections_snoc ..) hn hw hl
  | backedOff hs hr hb => exact .learn hr hw rfl (by simp [RetryProcedure.backedOff, hopen])
  | exhausted hs hr hb => exact .learn hr hw rfl (by simp [RetryProcedure.exhausted])
  | resent hs hb => exact .keep hw hl rfl rfl (by simp [RetryProcedure.resent, hopen])
  | cancelled hs => exact .keep hw hl rfl rfl (by simp [RetryProcedure.cancelled])

theorem Run.remembers (h : Run P id request passages p) : Remembers passages p := by
  induction h with
  | start => exact .kept (by simp [new]) (by simp [rejections]) rfl
  | snoc h ha ih => exact ih.accepted h.consistent ha

theorem Remembers.lastFailure_eq (h : Remembers passages p) :
    p.lastFailure = ((rejections passages).filter (·.wait?.isSome)).getLast? := by
  cases h with
  | kept _ hw hl => rw [List.filter_eq_self.2 hw, hl]
  | dropped _ hr hn hw hl => simp [hr, hn, List.filter_eq_self.2 hw, hl]

/-- the rejection that an outcome tells was the last one, and was remembered if it imposed a wait -/
theorem Run.lastFailure_of_failure (h : Run P id request passages p) {f : RetryFailure}
    (ho : p.outcome = some (.failure f)) :
    (rejections passages).getLast? = some f.last ∧
      (p.lastFailure = some f.last ↔ f.isExhausted = true) := by
  cases h.remembers with
  | kept hno _ hl =>
    cases f with
    | rejected r => exact absurd ho (hno r)
    | retriesExhausted last attempts =>
      have hlast := (h.counted.bounded.of_exhausted ho).2.2
      exact ⟨hlast, by simp [hl, hlast, RetryFailure.last, RetryFailure.isExhausted]⟩
  | @dropped earlier r hd hr hn hw hl =>
    obtain rfl : RetryFailure.rejected r = f := by simpa [hd] using ho
    refine ⟨by rw [hr, List.getLast?_concat]; rfl, iff_of_false (fun hsame => ?_) (by
      simp [RetryFailure.isExhausted])⟩
    have hm : r ∈ earlier := List.mem_of_getLast? (hl ▸ hsame)
    simpa [hn] using hw r hm

/-- After any events a procedure remembers the last of the rejections it accepted that imposed a wait,
and none if there was none. That is the last rejection of all unless the outcome is that of a rejection
without a wait. The outcome of a failure tells the last rejection, and the memory agrees with it just
when the retries were exhausted. -/
theorem remembers_imposed_waits (P : RetryProtocol ρ σ) (id : ProcedureId)
    (request : ProcedureRequest ρ) (events : List (RetryEvent σ)) :
    let q : RetryProcedure ρ σ := (new id request).after P events
    let told := rejections ((new id request).course P events)
    q.lastFailure = (told.filter (·.wait?.isSome)).getLast? ∧
      ((∀ r, q.outcome ≠ some (.failure (.rejected r))) → q.lastFailure = told.getLast?) ∧
      ∀ f, q.outcome = some (.failure f) →
        told.getLast? = some f.last ∧ (q.lastFailure = some f.last ↔ f.isExhausted = true) := by
  intro q told
  have hrun := (run_after P id request events).1
  refine ⟨hrun.remembers.lastFailure_eq, fun hno => ?_, fun f => hrun.lastFailure_of_failure⟩
  cases hrun.remembers with
  | kept _ _ hl => exact hl
  | dropped ho => exact absurd ho (hno _)

/-- Two rejections with different waits on a budget of one retry: the second exhausts it. -/
theorem remembers_imposed_waits_exhausted :
    let first : Rejection := ⟨⟨.misc, "unspecified"⟩, some .s1⟩
    let second : Rejection := ⟨⟨.transport, "resource-unavailable"⟩, some .s2⟩
    let p : RetryProcedure RanConfigurationUpdate Unit := new ⟨"proc-1"⟩ ⟨⟨"amf-1"⟩, ⟨none, []⟩, 1⟩
    let events := [.launch, .reply (.failure first), .timerFired, .reply (.failure second)]
    let q := p.after ranConfigurationUpdate events
    q.outcome = some (.failure (.retriesExhausted second 2)) ∧ q.lastFailure = some second ∧
      q.lastFailure = (rejections (p.course ranConfigurationUpdate events)).getLast? := by
  intro first second p events q
  have ho : q.outcome = some (.failure (.retriesExhausted second 2)) := rfl
  obtain ⟨-, hlast, hfailure⟩ := remembers_imposed_waits ranConfigurationUpdate ⟨"proc-1"⟩
    ⟨⟨"amf-1"⟩, ⟨none, []⟩, 1⟩ events
  have hno (r : Rejection) : q.outcome ≠ some (.failure (.rejected r)) := by simp [ho]
  exact ⟨ho, (hfailure _ ho).2.2 rfl, hlast hno⟩

/-- A rejection with a wait and then one without: the procedure fails with the second, and still
remembers the first. -/
theorem final_rejection_dropped :
    let first : Rejection := ⟨⟨.misc, "unspecified"⟩, some .s1⟩
    let second : Rejection := ⟨⟨.misc, "unspecified"⟩, none⟩
    let p : RetryProcedure NgSetupRequest NgSetupResponse := new ⟨"proc-1"⟩ ⟨⟨"amf-1"⟩,
      ⟨⟨"00101", 411, 22⟩, some "srsgnb01", [⟨7, ["00101"]⟩], .v256⟩, 1⟩
    let events := [.launch, .reply (.failure first), .timerFired, .reply (.failure second)]
    (rejections (p.course ngSetup events)).getLast? = some second ∧
      (p.after ngSetup events).outcome = some (.failure (.rejected second)) ∧
      (p.after ngSetup events).lastFailure = some first ∧ first ≠ second := by
  intro first second p events
  exact ⟨rfl, rfl, rfl, by simp [first, second]⟩

end RetryProcedure

end NgapProcedures
