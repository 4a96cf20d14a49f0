/-
The phase of a verification request in a run. A call of `handleEvent` works out how far the events
lead and sets the phase to it, but it may have to wait in between, for the QR code; and the verifier
may cancel the request before the call goes on. So a call can set the phase to where earlier events
led, after another one has set it to where later events lead.

A run in which this does not happen, and in which the events themselves do not lead back, never
leaves a phase for an earlier one: [`RequestRun.phase_forward`].
-/
import MatrixSdk.Crypto.VerificationRequest

set_option autoImplicit false

namespace MatrixSdk.Crypto

open MatrixSdk.Lib

/-! ## What the calls do to the phase -/

theorem newTransitions_eq_nil {phase : Phase} {transitions : List PhaseTransition}
    (hne : transitions ≠ []) (h : newTransitions phase transitions = []) :
    EventLog.phaseOf transitions = phase := by
  rw [newTransitions] at h
  cases hfind : transitions.findIdx? (fun transition => transition.phase = phase) with
  | none =>
    rw [hfind] at h
    exact absurd h hne
  | some i =>
    rw [hfind] at h
    obtain ⟨hlt, hphase, -⟩ := List.findIdx?_eq_some_iff_getElem.1 hfind
    have hlast : i = transitions.length - 1 := by
      have hlength := List.drop_eq_nil_iff.1 h
      omega
    rw [EventLog.phaseOf, List.getLast?_eq_getElem?, ← hlast, List.getElem?_eq_getElem hlt]
    exact of_decide_eq_true hphase

/-- The last of the new transitions is the last of all. -/
theorem phaseOf_newTransitions {phase : Phase} {transitions : List PhaseTransition}
    (h : newTransitions phase transitions ≠ []) :
    EventLog.phaseOf (newTransitions phase transitions) = EventLog.phaseOf transitions := by
  rw [newTransitions] at h ⊢
  cases hfind : transitions.findIdx? (fun transition => transition.phase = phase) with
  | none => rfl
  | some i =>
    rw [hfind] at h
    have hlt : ¬ transitions.length ≤ i + 1 := fun hle => h (List.drop_eq_nil_iff.2 hle)
    show EventLog.phaseOf (transitions.drop (i + 1)) = _
    rw [EventLog.phaseOf, EventLog.phaseOf, List.getLast?_drop, if_neg hlt]

theorem EventLog.calculatePhaseTransitions_ne_nil (log : EventLog) (canCreateFromStart : Bool) :
    log.calculatePhaseTransitions canCreateFromStart ≠ [] := by
  have hgrow : ∀ {transitions added : List PhaseTransition} {p : Prop} [Decidable p],
      transitions ≠ [] → (if p then transitions ++ added else transitions) ≠ [] := by
    intro transitions added p _ hne
    split
    · exact List.append_ne_nil_of_left_ne_nil hne _
    · exact hne
  have hrequested : log.addRequested [⟨.unsent, none⟩] ≠ [] := by
    rw [addRequested]
    split
    · exact List.cons_ne_nil _ _
    · exact List.cons_ne_nil _ _
  have hready : log.addReady (log.addRequested [⟨.unsent, none⟩]) ≠ [] := by
    rw [addReady]
    split
    · exact hgrow hrequested
    · exact hrequested
  have hstarted : log.addStarted canCreateFromStart
      (log.addReady (log.addRequested [⟨.unsent, none⟩])) ≠ [] := by
    rw [addStarted]
    split
    · exact hgrow hready
    · exact hready
  exact hgrow (hgrow hstarted)

namespace RequestState

variable {ctx : RequestContext} {s : RequestState}

theorem pendingTransitions_eq_nil (h : s.pendingTransitions ctx = []) :
    s.log.lastPhase ctx.canCreateFromStart = s.phase :=
  newTransitions_eq_nil (s.log.calculatePhaseTransitions_ne_nil _) h

theorem phaseOf_pendingTransitions (h : s.pendingTransitions ctx ≠ []) :
    EventLog.phaseOf (s.pendingTransitions ctx) = s.log.lastPhase ctx.canCreateFromStart :=
  phaseOf_newTransitions h

theorem cancelUnverified_frame : s.cancelUnverified.log = s.log ∧
    s.cancelUnverified.phase = s.phase := by
  rw [cancelUnverified]
  split
  · exact ⟨rfl, rfl⟩
  · exact ⟨rfl, rfl⟩

theorem createVerifier_frame (phase : Phase) (event : VerificationEvent) :
    (s.createVerifier ctx phase event).1.log = s.log ∧
      (s.createVerifier ctx phase event).1.phase = s.phase := by
  rw [createVerifier]
  split
  · split
    · exact ⟨rfl, rfl⟩
    · split
      · exact ⟨rfl, rfl⟩
      · exact cancelUnverified_frame
    · exact cancelUnverified_frame
  · exact ⟨rfl, rfl⟩

variable (ctx s) in

/-- A transition changes neither the events nor the phase. -/
theorem transitionToPhase_frame (transition : PhaseTransition) :
    (s.transitionToPhase ctx transition).1.log = s.log ∧
      (s.transitionToPhase ctx transition).1.phase = s.phase := by
  have hmake : ∀ (phase : Phase) (event : VerificationEvent),
      (((s.takeMethods ctx phase event).observeOtherDevice ctx event).createVerifier ctx
          phase event).1.log = s.log ∧
        (((s.takeMethods ctx phase event).observeOtherDevice ctx event).createVerifier ctx
          phase event).1.phase = s.phase := by
    intro phase event
    rw [(createVerifier_frame _ _).1, (createVerifier_frame _ _).2, observeOtherDevice, takeMethods]
    split
    · split
      · exact ⟨rfl, rfl⟩
      · exact ⟨rfl, rfl⟩
    · split
      · exact ⟨rfl, rfl⟩
      · exact ⟨rfl, rfl⟩
  rw [transitionToPhase]
  split
  · exact hmake _ _
  · exact hmake _ _
  · exact hmake _ _
  · exact ⟨rfl, rfl⟩

variable (ctx s) in

theorem transitionToPhases_frame (transitions : List PhaseTransition) :
    (s.transitionToPhases ctx transitions).1.log = s.log ∧
      (s.transitionToPhases ctx transitions).1.phase = s.phase := by
  induction transitions generalizing s with
  | nil => exact ⟨rfl, rfl⟩
  | cons transition transitions ih =>
    obtain ⟨hlog, hphase⟩ := transitionToPhase_frame ctx s transition
    rw [transitionToPhases]
    cases hresult : s.transitionToPhase ctx transition with
    | mk t returns =>
      rw [hresult] at hlog hphase
      cases returns with
      | false => exact ⟨hlog, hphase⟩
      | true => exact ⟨(ih t).1.trans hlog, (ih t).2.trans hphase⟩

variable (ctx s) in

/-- What is told by the verifier leaves the phase as it is, or sets it to where the events lead. -/
theorem applyAndSet_frame : (s.applyAndSet ctx).log = s.log ∧
    ((s.applyAndSet ctx).phase = s.phase ∨
      (s.applyAndSet ctx).phase = s.log.lastPhase ctx.canCreateFromStart) := by
  obtain ⟨hlog, hphase⟩ := transitionToPhases_frame ctx s (s.pendingTransitions ctx)
  rw [applyAndSet]
  cases hresult : s.transitionToPhases ctx (s.pendingTransitions ctx) with
  | mk t returns =>
    rw [hresult] at hlog hphase
    cases returns with
    | false => exact ⟨hlog, .inl hphase⟩
    | true =>
      dsimp only
      split
      · exact ⟨hlog, .inl hphase⟩
      next hne => exact ⟨hlog, .inr (phaseOf_pendingTransitions hne)⟩

end RequestState

/-! ## The order in which the phase is set -/

/-- The phase, how far the events lead, and the calls that have yet to set the phase. Each of them
sets it to where the events led at its version, and later versions lead further. -/
structure PhaseOrder (phase last : Phase) (left : List PhaseCall) (version phaseVersion : ℕ) :
    Prop where
  phase_forward : Phase.Forward phase last
  phaseVersion_le : phaseVersion ≤ version
  version_le : ∀ call ∈ left, call.version ≤ version
  forward_last : ∀ call ∈ left, Phase.Forward call.phase last
  eq_last : ∀ call ∈ left, call.version = version → call.phase = last
  forward_phase : ∀ call ∈ left, phaseVersion ≤ call.version → Phase.Forward phase call.phase
  order : ∀ call ∈ left, ∀ call' ∈ left, call.version ≤ call'.version →
    Phase.Forward call.phase call'.phase

namespace PhaseOrder

variable {phase last last' : Phase} {left left' : List PhaseCall}
  {version version' phaseVersion : ℕ}

theorem mono (h : PhaseOrder phase last left version phaseVersion)
    (hsub : ∀ call ∈ left', call ∈ left) : PhaseOrder phase last left' version phaseVersion where
  phase_forward := h.phase_forward
  phaseVersion_le := h.phaseVersion_le
  version_le call hcall := h.version_le call (hsub call hcall)
  forward_last call hcall := h.forward_last call (hsub call hcall)
  eq_last call hcall := h.eq_last call (hsub call hcall)
  forward_phase call hcall := h.forward_phase call (hsub call hcall)
  order call hcall call' hcall' := h.order call (hsub call hcall) call' (hsub call' hcall')

/-- The events change. -/
theorem grow (h : PhaseOrder phase last left version phaseVersion)
    (hlast : Phase.Forward last last') (hversion : version < version' ∨ version' = version ∧
      last' = last) : PhaseOrder phase last' left version' phaseVersion := by
  have hle : version ≤ version' := by
    rcases hversion with hlt | ⟨heq, -⟩
    · exact Nat.le_of_lt hlt
    · exact Nat.le_of_eq heq.symm
  refine ⟨h.phase_forward.trans hlast, Nat.le_trans h.phaseVersion_le hle,
    fun call hcall => Nat.le_trans (h.version_le call hcall) hle,
    fun call hcall => (h.forward_last call hcall).trans hlast, ?_, h.forward_phase, h.order⟩
  intro call hcall heq
  rcases hversion with hlt | ⟨hsame, hlasts⟩
  · have hcallLe := h.version_le call hcall
    omega
  · rw [hlasts]
    exact h.eq_last call hcall (heq.trans hsame)

/-- The events change, and the phase is set at once if it is. -/
theorem told {phase' : Phase} (h : PhaseOrder phase last left version phaseVersion)
    (hlast : Phase.Forward last last') (hphase : phase' = phase ∨ phase' = last') :
    PhaseOrder phase' last' left (version + 1) (version + 1) where
  phase_forward := by
    rcases hphase with rfl | rfl
    · exact h.phase_forward.trans hlast
    · exact .refl _
  phaseVersion_le := Nat.le_refl _
  version_le call hcall := Nat.le_succ_of_le (h.version_le call hcall)
  forward_last call hcall := (h.forward_last call hcall).trans hlast
  eq_last call hcall heq := absurd (heq ▸ h.version_le call hcall) (Nat.not_succ_le_self _)
  forward_phase call hcall hle :=
    absurd (Nat.le_trans hle (h.version_le call hcall)) (Nat.not_succ_le_self _)
  order := h.order

/-- A call has worked out how far the events lead. -/
theorem push (h : PhaseOrder phase last left version phaseVersion)
    (hsub : ∀ call ∈ left', call ∈ left ∨ call = ⟨last, version⟩) :
    PhaseOrder phase last left' version phaseVersion := by
  refine ⟨h.phase_forward, h.phaseVersion_le, ?_, ?_, ?_, ?_, ?_⟩
  · intro call hcall
    rcases hsub call hcall with hmem | rfl
    · exact h.version_le call hmem
    · exact Nat.le_refl _
  · intro call hcall
    rcases hsub call hcall with hmem | rfl
    · exact h.forward_last call hmem
    · exact .refl _
  · intro call hcall heq
    rcases hsub call hcall with hmem | rfl
    · exact h.eq_last call hmem heq
    · rfl
  · intro call hcall hle
    rcases hsub call hcall with hmem | rfl
    · exact h.forward_phase call hmem hle
    · exact h.phase_forward
  · intro call hcall call' hcall' hle
    rcases hsub call hcall with hmem | rfl
    · rcases hsub call' hcall' with hmem' | rfl
      · exact h.order call hmem call' hmem' hle
      · exact h.forward_last call hmem
    · rcases hsub call' hcall' with hmem' | rfl
      · -- the other call is from the same version
        rw [h.eq_last call' hmem' (Nat.le_antisymm (h.version_le call' hmem') hle)]
        exact .refl _
      · exact .refl _

/-- A call sets the phase that no later call has set before it. -/
theorem set {call : PhaseCall} (h : PhaseOrder phase last left version phaseVersion)
    (hcall : call ∈ left) :
    PhaseOrder call.phase last left version call.version where
  phase_forward := h.forward_last call hcall
  phaseVersion_le := h.version_le call hcall
  version_le := h.version_le
  forward_last := h.forward_last
  eq_last := h.eq_last
  forward_phase call' hcall' hle := h.order call hcall call' hcall' hle
  order := h.order

end PhaseOrder

namespace RequestRun

variable {ctx : RequestContext} {s t : RequestRun} {call : HandleCall}

/-- The calls that have yet to set the phase. -/
def left (s : RequestRun) : List PhaseCall := s.creating ++ s.running.toList

variable (ctx s) in

def Ordered : Prop :=
  PhaseOrder s.request.phase (s.request.log.lastPhase ctx.canCreateFromStart) s.left s.version
    s.phaseVersion

variable (ctx s) in

/-- An event can be taken in: a request while the events lead to no other phase than its own, and
after a cancellation nothing that completes the request. -/
def Takes (call : HandleCall) : Prop :=
  s.request.isDuplicateEvent call = false →
    (call.type = .request →
      s.request.log.lastPhase ctx.canCreateFromStart = .unsent ∨
        s.request.log.lastPhase ctx.canCreateFromStart = .requested) ∧
    (s.request.log.IsCancelled →
      (s.request.log.addEvent s.request.otherUserId call.type call.event
        call.isSentByUs).Completes ctx.canCreateFromStart →
      s.request.log.Completes ctx.canCreateFromStart)

theorem Takes.forward (h : s.Takes ctx call) (hnew : s.request.isDuplicateEvent call = false) :
    Phase.Forward (s.request.log.lastPhase ctx.canCreateFromStart)
      ((s.request.log.addEvent s.request.otherUserId call.type call.event
        call.isSentByUs).lastPhase ctx.canCreateFromStart) := by
  obtain ⟨hrequest, hcompletes⟩ := h hnew
  by_cases htype : call.type = .request
  · have hlast := hrequest htype
    rw [RequestState.isDuplicateEvent, htype] at hnew
    rw [htype]
    exact EventLog.forward_addRequest hnew hlast
  · exact (EventLog.grows_addEvent htype hnew).forward hcompletes

variable (ctx) in

/-- The verifier cancels: the events lead to the end, if they have not before. -/
theorem forward_cancelled (log : EventLog) :
    Phase.Forward (log.lastPhase ctx.canCreateFromStart)
      (({ log with cancelled := true } : EventLog).lastPhase ctx.canCreateFromStart) := by
  have hgrows : log.Grows { log with cancelled := true } :=
    ⟨fun _ _ => id, fun _ _ => id, rfl, rfl, id, fun _ => rfl⟩
  exact hgrows.forward fun _ hcompletes => hcompletes

/-- [`RequestState.cancelVerifier`], told by a verifier that is not settled. -/
theorem Ordered.toldCancelled {v : Verifier} (h : s.Ordered ctx) (hv : v.settled = false) :
    (s.told (s.request.cancelVerifier ctx v)).Ordered ctx ∧
      Phase.Forward s.request.phase (s.request.cancelVerifier ctx v).phase := by
  have hcancel : s.request.cancelVerifier ctx v =
      { s.request.onVerifierCancelled ctx with verifier := some v.cancel } := by
    rw [RequestState.cancelVerifier, hv]
    rfl
  obtain ⟨hlog, hphase⟩ := RequestState.applyAndSet_frame ctx
    { s.request with log := { s.request.log with cancelled := true } }
  have hforward := forward_cancelled ctx s.request.log
  have htold := PhaseOrder.told h hforward hphase
  rw [hcancel]
  refine ⟨?_, ?_⟩
  · show PhaseOrder (s.request.onVerifierCancelled ctx).phase
      ((s.request.onVerifierCancelled ctx).log.lastPhase _) s.left _ _
    rw [RequestState.onVerifierCancelled, hlog]
    exact htold
  · rcases hphase with hphase | hphase
    · exact .inl hphase.symm
    · exact h.phase_forward.trans (hforward.trans (.inl hphase.symm))

/-- A step keeps the order, and the phase does not go back. -/
def StepsOn (ctx : RequestContext) (s t : RequestRun) : Prop :=
  t.Ordered ctx ∧ Phase.Forward s.request.phase t.request.phase

theorem Ordered.cancelVerifier (h : s.Ordered ctx) (v : Verifier) :
    StepsOn ctx s (s.cancelVerifier ctx v) := by
  rw [RequestRun.cancelVerifier]
  split
  · exact ⟨h, .refl _⟩
  next hsettled => exact h.toldCancelled (Bool.eq_false_iff.2 hsettled)

/-- A step that leaves the phase, the events and the calls alone. -/
theorem Ordered.idle (h : s.Ordered ctx) (hphase : t.request.phase = s.request.phase)
    (hlog : t.request.log = s.request.log) (hleft : ∀ call ∈ t.left, call ∈ s.left)
    (hversion : t.version = s.version) (hphaseVersion : t.phaseVersion = s.phaseVersion) :
    StepsOn ctx s t := by
  refine ⟨?_, .inl hphase.symm⟩
  rw [Ordered, hphase, hlog, hversion, hphaseVersion]
  exact h.mono hleft

theorem leave_request (creates : Bool) (call : PhaseCall) :
    (s.leave creates call).request = s.request := by
  cases creates with
  | true => rfl
  | false => rfl

theorem told_leave (request : RequestState) (creates : Bool) (call : PhaseCall) :
    (s.told request).leave creates call = (s.leave creates call).told request := by
  cases creates with
  | true => rfl
  | false => rfl

/-- A call that is left has worked out how far the events lead. -/
theorem Ordered.leave (h : s.Ordered ctx) (creates : Bool) :
    (s.leave creates ⟨s.request.log.lastPhase ctx.canCreateFromStart, s.version⟩).Ordered ctx := by
  cases creates with
  | true =>
    refine PhaseOrder.push h ?_
    intro call hcall
    simp only [left, RequestRun.leave, if_true, List.mem_append, List.mem_singleton] at hcall ⊢
    tauto
  | false =>
    refine PhaseOrder.push h ?_
    intro call hcall
    simp only [left, RequestRun.leave, Bool.false_eq_true, if_false, Option.toList_some,
      List.mem_append, List.mem_singleton] at hcall ⊢
    tauto

/-- The event is added, and the phase is as it was. -/
theorem Ordered.add (h : s.Ordered ctx) (htakes : s.Takes ctx call)
    (hnew : s.request.isDuplicateEvent call = false) : (s.add call).Ordered ctx := by
  refine PhaseOrder.grow h (htakes.forward hnew) ?_
  show s.version < (if call.type.movesPhase then s.version + 1 else s.version) ∨
    (if call.type.movesPhase then s.version + 1 else s.version) = s.version ∧ _
  cases hmoves : call.type.movesPhase with
  | true => exact .inl (Nat.lt_succ_self _)
  | false => exact .inr ⟨rfl, EventLog.lastPhase_addEvent_of_not_moves hmoves⟩

/-- A verifier that does not cancel leaves the phase and the events alone. -/
theorem passToVerifier_frame {request passed : RequestState}
    (h : request.passToVerifier ctx call = (passed, false)) :
    passed.log = request.log ∧ passed.phase = request.phase := by
  rw [RequestState.passToVerifier] at h
  split at h
  · cases h
    exact ⟨rfl, rfl⟩
  · split at h
    · cases h
      exact ⟨rfl, rfl⟩
    · split at h
      · cases h
        exact ⟨rfl, rfl⟩
      · split at h
        · cases h
          exact ⟨rfl, rfl⟩
        · split at h
          · split at h
            · exact nomatch (Prod.mk.inj h).2
            · cases h
              exact ⟨rfl, rfl⟩
          · cases h
            exact ⟨rfl, rfl⟩

/-- A verifier that cancels when it is handed an event is not settled. -/
theorem passToVerifier_cancels {request passed : RequestState}
    (h : request.passToVerifier ctx call = (passed, true)) :
    ∃ v : Verifier, v.settled = false ∧
      passed = ({ request with verifier := some v } : RequestState).cancelVerifier ctx v := by
  rw [RequestState.passToVerifier] at h
  split at h
  · exact nomatch (Prod.mk.inj h).2
  next v hverifier =>
    split at h
    · exact nomatch (Prod.mk.inj h).2
    · split at h
      · exact nomatch (Prod.mk.inj h).2
      · split at h
        · exact nomatch (Prod.mk.inj h).2
        · split at h
          · split at h
            next v' hhandle =>
              refine ⟨v', ?_, (Prod.mk.inj h).1.symm⟩
              rw [Verifier.handleEvent] at hhandle
              split at hhandle
              · exact nomatch (Prod.mk.inj hhandle).2
              next hsettled =>
                have hnot : v.settled = false := Bool.eq_false_iff.2 hsettled
                split at hhandle
                · split at hhandle
                  · exact nomatch (Prod.mk.inj hhandle).2
                  · exact nomatch (Prod.mk.inj hhandle).2
                · split at hhandle
                  · split at hhandle
                    · exact nomatch (Prod.mk.inj hhandle).2
                    · exact nomatch (Prod.mk.inj hhandle).2
                  · split at hhandle
                    · obtain ⟨rfl, -⟩ := Prod.mk.inj hhandle
                      exact hnot
                    · exact nomatch (Prod.mk.inj hhandle).2
            · exact nomatch (Prod.mk.inj h).2
          · exact nomatch (Prod.mk.inj h).2

/-- **Taking an event in.** -/
theorem Ordered.process (h : s.Ordered ctx) (htakes : s.Takes ctx call) :
    StepsOn ctx s (s.process ctx call) := by
  rw [RequestRun.process]
  by_cases hdup : s.request.isDuplicateEvent call
  · rw [if_pos hdup]
    exact ⟨h, .refl _⟩
  · rw [if_neg hdup]
    have hadd := h.add htakes (Bool.eq_false_iff.2 hdup)
    obtain ⟨hlog, hphase⟩ := RequestState.transitionToPhases_frame ctx
      (s.add call).request ((s.add call).request.pendingTransitions ctx)
    dsimp only
    cases hresult : (s.add call).request.transitionToPhases ctx
        ((s.add call).request.pendingTransitions ctx) with
    | mk t returns =>
      rw [hresult] at hlog hphase
      cases returns with
      | false =>
        exact hadd.idle (t := { s.add call with request := t }) hphase hlog (fun _ => id) rfl rfl
      | true =>
        dsimp only at hlog hphase ⊢
        -- the order with the call that is left, whatever else the request becomes
        have hleft : ∀ (request : RequestState) (creates : Bool),
            request.log = (s.add call).request.log →
            request.phase = (s.add call).request.phase →
            (s.add call).request.pendingTransitions ctx ≠ [] →
            (({ s.add call with request := request } : RequestRun).leave creates
              ⟨EventLog.phaseOf ((s.add call).request.pendingTransitions ctx),
                (s.add call).version⟩).Ordered ctx := by
          intro request creates hlog hphase hne
          have hrequest : ({ s.add call with request := request } : RequestRun).Ordered ctx :=
            (hadd.idle (t := { s.add call with request := request }) hphase hlog (fun _ => id)
              rfl rfl).1
          rw [RequestState.phaseOf_pendingTransitions hne, ← hlog]
          exact hrequest.leave creates
        cases hpass : t.passToVerifier ctx call with
        | mk passed cancels =>
          cases cancels with
          | false =>
            obtain ⟨hlog', hphase'⟩ := passToVerifier_frame hpass
            split
            · exact hadd.idle (t := { s.add call with request := passed })
                (hphase'.trans hphase) (hlog'.trans hlog) (fun _ => id) rfl rfl
            next hne =>
              generalize passed.createsQRCode call _ = creates
              have hstep := hleft passed creates (hlog'.trans hlog)
                (hphase'.trans hphase) hne
              exact ⟨hstep, .inl (by rw [leave_request]; exact (hphase'.trans hphase).symm)⟩
          | true =>
            obtain ⟨v, hv, rfl⟩ := passToVerifier_cancels hpass
            split
            · have hcancel := (hadd.idle
                (t := { s.add call with request := { t with verifier := some v } })
                hphase hlog (fun _ => id) rfl rfl).1.toldCancelled hv
              exact ⟨hcancel.1, (Phase.Forward.refl _).trans (hphase ▸ hcancel.2)⟩
            next hne =>
              generalize RequestState.createsQRCode _ call _ = creates
              have hcancel := (hleft { t with verifier := some v } creates hlog hphase
                hne).toldCancelled hv
              rw [told_leave]
              cases creates with
              | true => exact ⟨hcancel.1, hphase ▸ hcancel.2⟩
              | false => exact ⟨hcancel.1, hphase ▸ hcancel.2⟩

variable (ctx s) in

/-- What keeps the phase from going back. An event can be taken in when it is, the verifier does not
finish what has been cancelled, and a call sets the phase only if no later version has been set. -/
def InOrder : RequestStep → Prop
  | .handleEvent call =>
    s.request.phase ≠ .done → s.request.phase ≠ .cancelled →
      (s.request.observeOnly || !call.isLiveEvent || call.expiring || call.isRemoteEcho) = true →
        s.Takes ctx call
  | .checked i => ∀ call, s.checking[i]? = some call → s.Takes ctx call
  | .setPhase => ∀ call, s.running = some call → s.phaseVersion ≤ call.version
  | .qrCode i created =>
    created = true → ∀ call, s.creating[i]? = some call → s.phaseVersion ≤ call.version
  | .finished =>
    ∀ v, s.request.verifier = some v → v.settled = false → s.request.log.IsCancelled →
      s.request.log.Completes ctx.canCreateFromStart
  | _ => True

/-- A call that is not late sets the phase. -/
theorem Ordered.setPhase {call : PhaseCall} (h : s.Ordered ctx) (hcall : call ∈ s.left)
    (hnotLate : s.phaseVersion ≤ call.version) {creating : List PhaseCall}
    {running : Option PhaseCall} (hleft : ∀ call' ∈ creating ++ running.toList, call' ∈ s.left) :
    StepsOn ctx s
      { s.setPhase call with creating := creating, running := running } :=
  ⟨(PhaseOrder.set h hcall).mono hleft, h.forward_phase call hcall hnotLate⟩

theorem Ordered.cancel (h : s.Ordered ctx) : StepsOn ctx s (s.cancel ctx) := by
  rw [RequestRun.cancel]
  split
  next v hverifier =>
    split
    · have hdeclines : ({ s with
          request := { s.request with declining := true } } : RequestRun).Ordered ctx :=
        (h.idle (t := { s with request := { s.request with declining := true } }) rfl rfl
          (fun _ => id) rfl rfl).1
      exact hdeclines.cancelVerifier v
    · exact ⟨h, .refl _⟩
  · exact h.idle (t := { s with request := s.request.cancelUnverified })
      RequestState.cancelUnverified_frame.2 RequestState.cancelUnverified_frame.1 (fun _ => id)
      rfl rfl

theorem Ordered.handleEvent (h : s.Ordered ctx) (hin : s.InOrder ctx (.handleEvent call)) :
    StepsOn ctx s (s.handleEvent ctx call) := by
  rw [RequestRun.handleEvent]
  by_cases hfinal : s.request.phase = .done ∨ s.request.phase = .cancelled
  · rw [if_pos hfinal]
    exact ⟨h, .refl _⟩
  · rw [if_neg hfinal]
    dsimp only
    have hobserve : ∀ observeOnly, ({ s with
        request := { s.request with observeOnly := observeOnly } } : RequestRun).Ordered ctx :=
      fun observeOnly => (h.idle (t := { s with
        request := { s.request with observeOnly := observeOnly } }) rfl rfl (fun _ => id) rfl rfl).1
    generalize hobserving : (s.request.observeOnly || !call.isLiveEvent || call.expiring) =
      observing
    split
    next hchecks =>
      split
      · exact (hobserve observing).cancel
      · exact h.idle (t := { s with
          request := { s.request with observeOnly := observing }
          checking := s.checking ++ [call] }) rfl rfl (fun _ => id) rfl rfl
    next hnow =>
      refine (hobserve observing).process ?_
      intro hnew
      refine hin (fun hdone => hfinal (.inl hdone)) (fun hcancelled => hfinal (.inr hcancelled)) ?_
        hnew
      rw [hobserving]
      cases observing with
      | true => rfl
      | false =>
        cases hecho : call.isRemoteEcho with
        | true => rfl
        | false =>
          rw [hecho] at hnow
          exact absurd ⟨rfl, rfl⟩ hnow

/-- The verifier finishes what has not been cancelled. -/
theorem Ordered.finished {v : Verifier} (h : s.Ordered ctx)
    (hin : s.request.log.IsCancelled → s.request.log.Completes ctx.canCreateFromStart) :
    StepsOn ctx s (s.told { s.request.onVerifierFinished ctx with verifier := some v }) := by
  obtain ⟨hlog, hphase⟩ := RequestState.applyAndSet_frame ctx
    { s.request with log := { s.request.log with verifierHasFinished := true } }
  have hgrows : s.request.log.Grows { s.request.log with verifierHasFinished := true } :=
    ⟨fun _ _ => id, fun _ _ => id, rfl, rfl, fun _ => rfl, id⟩
  have hforward : Phase.Forward (s.request.log.lastPhase ctx.canCreateFromStart)
      (({ s.request.log with verifierHasFinished := true } : EventLog).lastPhase
        ctx.canCreateFromStart) := hgrows.forward fun hcancelled _ => hin hcancelled
  have htold := PhaseOrder.told h hforward hphase
  refine ⟨?_, ?_⟩
  · show PhaseOrder (s.request.onVerifierFinished ctx).phase
      ((s.request.onVerifierFinished ctx).log.lastPhase _) s.left _ _
    rw [RequestState.onVerifierFinished, hlog]
    exact htold
  · rcases hphase with hphase | hphase
    · exact .inl hphase.symm
    · exact h.phase_forward.trans (hforward.trans (.inl hphase.symm))

/-- **One step in order.** -/
theorem Ordered.step {otherUserId : Option String} {e : RequestStep} (h : s.Ordered ctx)
    (hin : s.InOrder ctx e) (hstep : (requestSystem ctx otherUserId).step s e = some t) :
    StepsOn ctx s t := by
  have hrest : ∀ request : RequestState, request.phase = s.request.phase →
      request.log = s.request.log → StepsOn ctx s { s with request := request } :=
    fun request hphase hlog => h.idle (t := { s with request := request }) hphase hlog
      (fun _ => id) rfl rfl
  cases hrunning : s.running with
  | some call =>
    cases e with
    | setPhase =>
      simp only [requestSystem, hrunning, Option.some.injEq] at hstep
      subst hstep
      have hcall : call ∈ s.left := by
        rw [left, hrunning]
        exact List.mem_append_right _ (List.mem_singleton.2 rfl)
      have hleft : ∀ call' ∈ s.creating ++ (none : Option PhaseCall).toList,
          call' ∈ s.left := by
        intro call' hcall'
        rw [Option.toList_none, List.append_nil] at hcall'
        exact List.mem_append_left _ hcall'
      exact h.setPhase hcall (hin call hrunning) hleft
    | _ =>
      simp only [requestSystem, hrunning] at hstep
      exact nomatch hstep
  | none =>
    replace hstep : s.step ctx e = some t := by
      simpa only [requestSystem, hrunning] using hstep
    cases e with
    | setPhase => exact nomatch hstep
    | handleEvent call =>
      obtain rfl := Option.some.inj hstep
      exact h.handleEvent hin
    | checked i =>
      obtain ⟨call, hcall, rfl⟩ := Option.map_eq_some_iff.1 hstep
      exact (h.idle (t := { s with checking := s.checking.eraseIdx i }) rfl rfl (fun _ => id)
        rfl rfl).1.process (hin call hcall)
    | qrCode i created =>
      obtain ⟨call, hcall, rfl⟩ := Option.map_eq_some_iff.1 hstep
      have hsub : ∀ call' ∈ s.creating.eraseIdx i ++ s.running.toList, call' ∈ s.left := by
        intro call' hcall'
        rcases List.mem_append.1 hcall' with hmem | hmem
        · exact List.mem_append_left _ (List.mem_of_mem_eraseIdx hmem)
        · exact List.mem_append_right _ hmem
      cases created with
      | true =>
        exact h.setPhase (List.mem_append_left _ (List.mem_of_getElem? hcall))
          (hin rfl call hcall) hsub
      | false =>
        exact h.idle (t := { s with creating := s.creating.eraseIdx i }) rfl rfl hsub rfl rfl
    | adoptUserId userId =>
      rw [RequestRun.step] at hstep
      split at hstep
      · obtain rfl := Option.some.inj hstep
        exact hrest { s.request with otherUserId := some userId } rfl rfl
      · exact nomatch hstep
    | accept =>
      rw [RequestRun.step] at hstep
      split at hstep
      · obtain rfl := Option.some.inj hstep
        exact hrest { s.request with accepting := true } rfl rfl
      · obtain rfl := Option.some.inj hstep
        exact ⟨h, .refl _⟩
    | cancel =>
      obtain rfl := Option.some.inj hstep
      exact h.cancel
    | timeout =>
      rw [RequestRun.step] at hstep
      split at hstep
      · obtain rfl := Option.some.inj hstep
        exact h.cancel
      · exact nomatch hstep
    | beginKeyVerification method hasTarget =>
      obtain rfl := Option.some.inj hstep
      rw [beginKeyVerification]
      split
      · exact hrest { s.request with
          verifier := some (.new method none), chosenMethod := some method } rfl rfl
      · exact ⟨h, .refl _⟩
    | verify =>
      obtain ⟨v, -, rfl⟩ := Option.map_eq_some_iff.1 hstep
      exact hrest { s.request with verifier := some v.verify } rfl rfl
    | verification startEvent waitingForAccept expectedEvent waiting =>
      obtain ⟨v, -, rfl⟩ := Option.map_eq_some_iff.1 hstep
      exact hrest { s.request with verifier := some { v with
        startEvent := startEvent, waitingForAccept := waitingForAccept
        expectedEvent := expectedEvent, waiting := waiting } } rfl rfl
    | finished =>
      rw [RequestRun.step] at hstep
      split at hstep
      next v hverifier =>
        split at hstep
        · split at hstep
          · obtain rfl := Option.some.inj hstep
            exact ⟨h, .refl _⟩
          next hsettled =>
            obtain rfl := Option.some.inj hstep
            exact h.finished (hin v hverifier (Bool.eq_false_iff.2 hsettled))
        · exact nomatch hstep
      · exact nomatch hstep
    | failed =>
      rw [RequestRun.step] at hstep
      split at hstep
      next v hverifier =>
        split at hstep
        · obtain rfl := Option.some.inj hstep
          exact h.cancelVerifier v
        · exact nomatch hstep
      · exact nomatch hstep

theorem ordered_init (otherUserId : Option String) :
    (requestSystem ctx otherUserId).init.Ordered ctx where
  phase_forward := Phase.forward_of_unsent _
  phaseVersion_le := Nat.le_refl 0
  version_le _ hcall := absurd hcall List.not_mem_nil
  forward_last _ hcall := absurd hcall List.not_mem_nil
  eq_last _ hcall := absurd hcall List.not_mem_nil
  forward_phase _ hcall := absurd hcall List.not_mem_nil
  order _ hcall := absurd hcall List.not_mem_nil

variable (ctx) in

/-- **The phase goes forward.** In a run whose steps are in order the phase of every state is that
of any state before it, or comes after it; so what is done or cancelled remains so. -/
theorem phase_forward (otherUserId : Option String) {tr : List (RequestRun × RequestStep)}
    (htr : (requestSystem ctx otherUserId).Trace tr s)
    (hin : System.Meets (InOrder ctx) tr) :
    ∀ r ∈ tr, Phase.Forward r.1.request.phase s.request.phase := by
  have hordered : s.Ordered ctx ∧ ∀ r ∈ tr, Phase.Forward r.1.request.phase s.request.phase := by
    induction htr with
    | start => exact ⟨ordered_init otherUserId, fun r hr => absurd hr List.not_mem_nil⟩
    | snoc htr hstep ih =>
      obtain ⟨hin, hlast⟩ := System.meets_snoc.1 hin
      obtain ⟨hordered, hforward⟩ := ih hin
      obtain ⟨hnext, hphase⟩ := hordered.step hlast hstep
      refine ⟨hnext, fun r hr => ?_⟩
      rcases List.mem_append.1 hr with hr | hr
      · exact (hforward r hr).trans hphase
      · obtain rfl := List.mem_singleton.1 hr
        exact hphase
  exact hordered.2

end RequestRun

/-! ## A request that is cancelled while its QR code is made -/

instance (log : EventLog) : Decidable log.IsCancelled := inferInstanceAs (Decidable (_ ∨ _))

instance (canCreateFromStart : Bool) (log : EventLog) : Decidable (log.Starts canCreateFromStart) :=
  match h : log.startEvent with
  | none => isFalse fun ⟨_, hevent, _⟩ => nomatch h.symm.trans hevent
  | some event =>
    decidable_of_iff (log.readyEvent.isSome ∨
        log.requestEvent.isSome ∧
          log.requestEvent.map VerificationEvent.sender ≠ some event.sender ∨
        log.requestEvent = none ∧ canCreateFromStart = true)
      ⟨fun hcounts => ⟨event, h, hcounts⟩,
        fun ⟨_, hevent, hcounts⟩ => Option.some.inj (h.symm.trans hevent) ▸ hcounts⟩

instance (canCreateFromStart : Bool) (log : EventLog) :
    Decidable (log.Completes canCreateFromStart) :=
  inferInstanceAs (Decidable (_ ∨ _))

namespace RequestRun

instance (ctx : RequestContext) (s : RequestRun) (call : HandleCall) :
    Decidable (s.Takes ctx call) :=
  inferInstanceAs (Decidable (_ → _))

instance (ctx : RequestContext) (s : RequestRun) : ∀ e, Decidable (s.InOrder ctx e)
  | .handleEvent _ => inferInstanceAs (Decidable (_ → _))
  | .checked i => inferInstanceAs (Decidable (∀ call ∈ s.checking[i]?, _))
  | .setPhase => inferInstanceAs (Decidable (∀ call ∈ s.running, _))
  | .qrCode i _ => inferInstanceAs (Decidable (_ → ∀ call ∈ s.creating[i]?, _))
  | .finished => inferInstanceAs (Decidable (∀ v ∈ s.request.verifier, _))
  | .adoptUserId _ | .accept | .cancel | .timeout | .beginKeyVerification .. | .verify
  | .verification .. | .failed => inferInstanceAs (Decidable True)

/-- Alice on her phone, in a room. -/
def aliceInRoom : RequestContext := ⟨"@alice:hs", "PHONE", [SAS_NAME], false, true⟩

/-- Bob's request comes in, and we accept it. He can scan a QR code. -/
def acceptedRequest : List RequestStep :=
  [.handleEvent ⟨.request, ⟨"$1", "@bob:hs", some "LAPTOP", [SAS_NAME, SCAN_QR_CODE_METHOD], none⟩,
      true, false, false, false⟩,
    .checked 0, .setPhase, .accept,
    .handleEvent ⟨.ready, ⟨"$2", "@alice:hs", some "PHONE", [SAS_NAME], none⟩,
      true, true, true, false⟩]

/-- The user begins a verification and cancels it before the QR code is there. -/
def cancelledBefore : List RequestStep :=
  acceptedRequest ++ [.beginKeyVerification SAS_NAME false, .cancel, .qrCode 0 true]

theorem cancelledBefore_runs :
    ((requestSystem aliceInRoom (some "@bob:hs")).run cancelledBefore).isSome := by decide

/-- When the QR code is there, a request that was cancelled becomes ready. -/
theorem phase_forward_fails :
    ¬ ∀ (ctx : RequestContext) (otherUserId : Option String) (s : RequestRun)
        (tr : List (RequestRun × RequestStep)), (requestSystem ctx otherUserId).Trace tr s →
      ∀ r ∈ tr, Phase.Forward r.1.request.phase s.request.phase := by
  intro h
  obtain ⟨r, hr, hcancelled⟩ : ∃ r ∈ (requestSystem aliceInRoom (some "@bob:hs")).steps
      cancelledBefore, r.1.request.phase = .cancelled := by decide
  have hready : (((requestSystem aliceInRoom (some "@bob:hs")).run cancelledBefore).get
      cancelledBefore_runs).request.phase = .ready := by decide
  have hforward := h _ _ _ _ (System.trace_get cancelledBefore_runs) r hr
  rw [hcancelled, hready] at hforward
  rcases hforward with heq | hlt
  · exact nomatch heq
  · exact absurd hlt (by decide)

/-- The same, after the QR code is there. -/
def cancelledAfter : List RequestStep :=
  acceptedRequest ++ [.qrCode 0 true, .beginKeyVerification SAS_NAME false, .cancel]

theorem cancelledAfter_runs :
    ((requestSystem aliceInRoom (some "@bob:hs")).run cancelledAfter).isSome := by decide

/-- If the QR code is there first, the request becomes ready, and is cancelled then. -/
theorem phase_forward_cancelledAfter :
    System.Meets (fun s _ => Phase.Forward s.request.phase
        (((requestSystem aliceInRoom (some "@bob:hs")).run cancelledAfter).get
          cancelledAfter_runs).request.phase)
      ((requestSystem aliceInRoom (some "@bob:hs")).steps cancelledAfter) :=
  phase_forward aliceInRoom _ (System.trace_get cancelledAfter_runs) (by decide)

end RequestRun

end MatrixSdk.Crypto
