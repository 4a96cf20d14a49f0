/-
The candidates of this side of a call: `sendCandidate` and `_sendCandidateQueue` of
`webrtc/call.js`.

Candidates are queued, and sent together when a timer fires. A message that cannot be sent goes back
to the end of the queue, behind what was gathered in the meantime: the marker of the end of the
candidates may come first then. And what was queued while the call was ringing is sent when the
answer has been sent, but not when the call stops ringing otherwise. No candidate is lost, and what
becomes of the rest is decided step by step ([`rightQueue_iff`]).

The state of the call is whatever the other functions set, see `MatrixCall.lean`.
-/
import MatrixSdk.Client.MatrixCall
import Mathlib.Data.List.Infix
import Mathlib.Data.List.Perm.Basic

set_option autoImplicit false

namespace MatrixSdk.Calls

open MatrixSdk.Lib

/-! ## The queue -/

/-- A candidate that is passed to `sendCandidate`. It is known by how many were passed before. -/
structure LocalCandidate where
  number : ℕ
  candidate : String
  sdpMid : Option String
  sdpMLineIndex : Option ℕ
  deriving DecidableEq

/-- The marker of the end of the candidates. -/
def LocalCandidate.isEnd (c : LocalCandidate) : Bool := c.candidate = ""

/-- What `_gotLocalIceCandidate` reads of a candidate. -/
structure IceCandidate where
  candidate : String
  sdpMid : Option String
  sdpMLineIndex : Option ℕ

/-- A call, as far as its candidates go. What was passed, what has been sent, and whether the last
attempts were given up, is observed. -/
structure CandidateQueue where
  state : CallState
  candidateSendQueue : List LocalCandidate
  candidateSendTries : ℕ
  sentEndOfCandidates : Bool
  /-- The timers that have been set, and have not fired. -/
  timers : ℕ
  /-- The messages in flight. -/
  inFlight : List (List LocalCandidate)
  passed : List LocalCandidate
  sent : List (List LocalCandidate)
  gaveUp : Bool

namespace CandidateQueue

variable (s : CandidateQueue)

def new : CandidateQueue where
  state := .fledgling
  candidateSendQueue := []
  candidateSendTries := 0
  sentEndOfCandidates := false
  timers := 0
  inFlight := []
  passed := []
  sent := []
  gaveUp := false

/-- `_sendCandidateQueue`, up to the sending of the message. -/
def sendCandidateQueue : CandidateQueue :=
  if s.candidateSendQueue = [] then s
  else
    { s with
      candidateSendQueue := []
      candidateSendTries := s.candidateSendTries + 1
      inFlight := s.inFlight ++ [s.candidateSendQueue]
      gaveUp := false }

/-- The message `cands` has been sent. -/
def candidatesSent (i : ℕ) (cands : List LocalCandidate) : CandidateQueue :=
  sendCandidateQueue
    { s with
      candidateSendTries := 0
      inFlight := s.inFlight.eraseIdx i
      sent := s.sent ++ [cands] }

/-- It has not. -/
def candidatesFailed (i : ℕ) (cands : List LocalCandidate) : CandidateQueue :=
  let s := { s with
    inFlight := s.inFlight.eraseIdx i
    candidateSendQueue := s.candidateSendQueue ++ cands }
  if s.candidateSendTries > 5 then { s with candidateSendTries := 0, gaveUp := true }
  else { s with candidateSendTries := s.candidateSendTries + 1, timers := s.timers + 1 }

/-- `sendCandidate` -/
def sendCandidate (content : IceCandidate) : CandidateQueue :=
  let c : LocalCandidate :=
    ⟨s.passed.length, content.candidate, content.sdpMid, content.sdpMLineIndex⟩
  let s := { s with
    candidateSendQueue := s.candidateSendQueue ++ [c]
    passed := s.passed ++ [c] }
  -- "Don't send the ICE candidates yet if the call is in the ringing state"
  if s.state = .ringing then s
  else if s.candidateSendTries = 0 then { s with timers := s.timers + 1 }
  else s

/-- `_gotLocalIceCandidate` -/
def gotLocalIceCandidate (candidate : Option IceCandidate) : CandidateQueue :=
  match candidate with
  | none => s
  | some candidate =>
    if s.state = .ended then s
    else if candidate.candidate ≠ "" ∨ s.sentEndOfCandidates = false then
      let s := s.sendCandidate candidate
      if candidate.candidate = "" then { s with sentEndOfCandidates := true } else s
    else s

/-- `_onIceGatheringStateChange` -/
def onIceGatheringStateChange (complete : Bool) : CandidateQueue :=
  if complete ∧ s.sentEndOfCandidates = false then
    { s.sendCandidate ⟨"", none, none⟩ with sentEndOfCandidates := true }
  else s

/-- `_sendAnswer`, when the answer has been sent. -/
def answerSent : CandidateQueue :=
  sendCandidateQueue { s with state := .connecting }

end CandidateQueue

inductive CandidateEvent
  | gotLocalIceCandidate (candidate : Option IceCandidate)
  | onIceGatheringStateChange (complete : Bool)
  /-- A timer fires. -/
  | timer
  /-- A message in flight arrives, or fails. -/
  | sent (i : ℕ)
  | failed (i : ℕ)
  | answerSent
  /-- The state of the call is set, also where the answer could not be sent. -/
  | setState (state : CallState)

def CandidateQueue.step (s : CandidateQueue) : CandidateEvent → Option CandidateQueue
  | .gotLocalIceCandidate candidate => some (s.gotLocalIceCandidate candidate)
  | .onIceGatheringStateChange complete => some (s.onIceGatheringStateChange complete)
  | .timer => if s.timers = 0 then none
    else some (CandidateQueue.sendCandidateQueue { s with timers := s.timers - 1 })
  | .sent i => s.inFlight[i]?.map (s.candidatesSent i)
  | .failed i => s.inFlight[i]?.map (s.candidatesFailed i)
  | .answerSent => some s.answerSent
  | .setState state => some { s with state := state }

def candidateSystem : System CandidateQueue CandidateEvent where
  init := .new
  step := CandidateQueue.step

/-! ## What should hold -/

namespace CandidateQueue

variable (s : CandidateQueue)

/-- The candidates wherever they are. -/
def held : List LocalCandidate :=
  s.candidateSendQueue ++ (s.inFlight.flatten ++ s.sent.flatten)

/-- Every candidate that was passed is in one place. -/
def Conserved : Prop :=
  s.held.Perm s.passed ∧ (s.passed.map LocalCandidate.number).Nodup

/-- The marker of the end comes after what was gathered before it. -/
def EndLast (sent passed : List LocalCandidate) : Prop :=
  ∀ before c after, sent = before ++ c :: after → c.isEnd = true →
    ∀ c' ∈ passed, c'.number < c.number → c' ∈ before

/-- Nothing is left in the queue when nothing is going on. -/
def NotStranded : Prop :=
  s.inFlight = [] → s.timers = 0 →
    s.candidateSendQueue = [] ∨ s.state = .ringing ∨ s.gaveUp = true

/-- **The candidates are where they should be.** -/
structure Right : Prop where
  conserved : s.Conserved
  endLast : EndLast s.sent.flatten s.passed
  notStranded : s.NotStranded

end CandidateQueue

/-- **The steps that are safe.** A message with the marker arrives when nothing that was gathered
before it is in the queue, in flight elsewhere or behind it. The call stops ringing when the queue
is empty, is being sent or was given up, unless the answer has been sent. -/
def CandidateEvent.IsSafe (s : CandidateQueue) : CandidateEvent → Prop
  | .sent i => ∀ cands ∈ s.inFlight[i]?, ∀ rest ∈ cands.tails, ∀ c ∈ rest.head?, c.isEnd = true →
    ∀ c' ∈ s.candidateSendQueue ++ ((s.inFlight.eraseIdx i).flatten ++ rest.tail),
      ¬ c'.number < c.number
  | .setState state => s.state = .ringing → state ≠ .ringing →
    s.candidateSendQueue = [] ∨ s.inFlight ≠ [] ∨ s.timers ≠ 0 ∨ s.gaveUp = true
  | _ => True

instance (s : CandidateQueue) : (e : CandidateEvent) → Decidable (e.IsSafe s)
  | .sent i => inferInstanceAs (Decidable (∀ cands ∈ s.inFlight[i]?, ∀ rest ∈ cands.tails,
      ∀ c ∈ rest.head?, c.isEnd = true →
        ∀ c' ∈ s.candidateSendQueue ++ ((s.inFlight.eraseIdx i).flatten ++ rest.tail),
          ¬ c'.number < c.number))
  | .setState state => inferInstanceAs (Decidable (s.state = .ringing → state ≠ .ringing →
      s.candidateSendQueue = [] ∨ s.inFlight ≠ [] ∨ s.timers ≠ 0 ∨ s.gaveUp = true))
  | .gotLocalIceCandidate _ | .onIceGatheringStateChange _ | .timer | .failed _ | .answerSent =>
    .isTrue trivial

/-! ## What always holds -/

namespace CandidateQueue

/-- **Of every run**: no candidate is lost, they are numbered as they were passed, no message is
empty, and while tries are counted something is going on. -/
structure Inv (s : CandidateQueue) : Prop where
  held : s.held.Perm s.passed
  numbers : s.passed.map LocalCandidate.number = List.range s.passed.length
  nonempty : ∀ cands ∈ s.inFlight, cands ≠ []
  tries : s.candidateSendTries ≠ 0 →
    s.inFlight ≠ [] ∨ s.timers ≠ 0 ∧ s.candidateSendQueue ≠ []

variable {s s' : CandidateQueue} {i : ℕ} {cands : List LocalCandidate}

theorem Inv.conserved (h : s.Inv) : s.Conserved :=
  ⟨h.held, h.numbers ▸ List.nodup_range⟩

theorem Inv.number_lt (h : s.Inv) {c : LocalCandidate} (hc : c ∈ s.passed) :
    c.number < s.passed.length := by
  have hmem := List.mem_map_of_mem (f := LocalCandidate.number) hc
  rw [h.numbers] at hmem
  exact List.mem_range.1 hmem

/-- A message in flight and the others are all that is in flight. -/
theorem flatten_perm {α : Type*} {l : List (List α)} {a : List α} (h : l[i]? = some a) :
    l.flatten.Perm (a ++ (l.eraseIdx i).flatten) := by
  obtain ⟨hi, rfl⟩ := List.getElem?_eq_some_iff.1 h
  exact (List.getElem_cons_eraseIdx_perm hi).symm.flatten

/-- What is in the queue goes into a message. -/
theorem held_sendCandidateQueue : s.sendCandidateQueue.held.Perm s.held := by
  unfold sendCandidateQueue
  split
  · exact .refl _
  · unfold held
    simp only [List.flatten_append, List.flatten_singleton, List.nil_append, ← List.append_assoc]
    exact List.perm_append_comm.append_right _

/-- A message that has been sent, or has not, is not in flight any more. -/
theorem held_landed (h : s.inFlight[i]? = some cands) :
    s.held.Perm (s.candidateSendQueue ++
      ((s.inFlight.eraseIdx i).flatten ++ (s.sent.flatten ++ cands))) := by
  unfold held
  refine List.Perm.append_left _ (((flatten_perm h).append_right _).trans ?_)
  rw [List.append_assoc, ← List.append_assoc _ s.sent.flatten]
  exact List.perm_append_comm

theorem inv_sendCandidateQueue (hheld : s.held.Perm s.passed)
    (hnumbers : s.passed.map LocalCandidate.number = List.range s.passed.length)
    (hnonempty : ∀ cands ∈ s.inFlight, cands ≠ [])
    (htries : s.candidateSendQueue = [] → s.candidateSendTries ≠ 0 → s.inFlight ≠ []) :
    s.sendCandidateQueue.Inv := by
  refine ⟨held_sendCandidateQueue.trans ?_, ?_, ?_, ?_⟩
  all_goals unfold sendCandidateQueue; split
  · exact hheld
  · exact hheld
  · exact hnumbers
  · exact hnumbers
  · exact hnonempty
  next hne =>
    intro cands hcands
    rcases List.mem_append.1 hcands with hold | hnew
    · exact hnonempty cands hold
    · obtain rfl := List.mem_singleton.1 hnew
      exact hne
  next hnil => exact fun h => .inl (htries hnil h)
  · exact fun _ => .inl (List.append_ne_nil_of_right_ne_nil _ (List.cons_ne_nil _ _))

/-! ## Candidates that are passed -/

variable (s) in
/-- A candidate is put at the end of the queue, and perhaps a timer is set. -/
theorem sendCandidate_cases (content : IceCandidate) :
    ∃ c : LocalCandidate, c.number = s.passed.length ∧
      ∃ timers, s.sendCandidate content = { s with
        candidateSendQueue := s.candidateSendQueue ++ [c], passed := s.passed ++ [c],
        timers := timers } ∧
      s.timers ≤ timers ∧
      (s.state = .ringing ∨ s.candidateSendTries = 0 ∧ timers ≠ 0 ∨ s.candidateSendTries ≠ 0) := by
  refine ⟨⟨s.passed.length, content.candidate, content.sdpMid, content.sdpMLineIndex⟩, rfl, ?_⟩
  unfold sendCandidate
  by_cases hringing : s.state = .ringing
  · rw [if_pos hringing]
    exact ⟨s.timers, rfl, Nat.le_refl _, .inl hringing⟩
  · rw [if_neg hringing]
    by_cases hzero : s.candidateSendTries = 0
    · rw [if_pos hzero]
      exact ⟨s.timers + 1, rfl, Nat.le_succ _, .inr (.inl ⟨hzero, Nat.succ_ne_zero _⟩)⟩
    · rw [if_neg hzero]
      exact ⟨s.timers, rfl, Nat.le_refl _, .inr (.inr hzero)⟩

theorem Inv.sendCandidate (h : s.Inv) (content : IceCandidate) : (s.sendCandidate content).Inv := by
  obtain ⟨c, hnumber, timers, heq, hle, -⟩ := s.sendCandidate_cases content
  rw [heq]
  refine ⟨?_, ?_, h.nonempty, fun htries => ?_⟩
  · unfold CandidateQueue.held
    rw [List.append_assoc]
    refine (List.Perm.append_left _ List.perm_append_comm).trans ?_
    rw [← List.append_assoc]
    exact h.held.append_right _
  · dsimp only
    rw [List.map_append, h.numbers, List.length_append, List.length_singleton, List.range_succ,
      List.map_singleton, hnumber]
  · rcases h.tries htries with hflight | ⟨htimers, -⟩
    · exact .inl hflight
    · refine .inr ⟨fun hzero => htimers (Nat.le_zero.1 (hzero ▸ hle)), ?_⟩
      exact List.append_ne_nil_of_right_ne_nil _ (List.cons_ne_nil _ _)

/-- **Passing a candidate is right**: it comes last, and a timer is set if nothing is going on. -/
theorem Right.sendCandidate (hright : s.Right) (h : s.Inv) (content : IceCandidate) :
    (s.sendCandidate content).Right := by
  refine ⟨(h.sendCandidate content).conserved, ?_, ?_⟩
  all_goals obtain ⟨c, hnumber, timers, heq, hle, hgoes⟩ := s.sendCandidate_cases content; rw [heq]
  · intro before e after hsent hend c' hc' hlt
    rcases List.mem_append.1 hc' with hold | hnew
    · exact hright.endLast before e after hsent hend c' hold hlt
    · -- what has been sent was passed before
      obtain rfl := List.mem_singleton.1 hnew
      have hmem : e ∈ s.held := by
        refine List.mem_append_right _ (List.mem_append_right _ ?_)
        rw [show s.sent.flatten = before ++ e :: after from hsent]
        exact List.mem_append_right _ List.mem_cons_self
      have := h.number_lt (h.held.mem_iff.1 hmem)
      omega
  · intro hflight htimers
    rcases hgoes with hringing | ⟨-, hset⟩ | htries
    · exact .inr (.inl hringing)
    · exact absurd htimers hset
    · rcases h.tries htries with hflight' | ⟨htimers', -⟩
      · exact absurd hflight hflight'
      · exact absurd (Nat.le_zero.1 ((show timers = 0 from htimers) ▸ hle)) htimers'

variable (s) in
theorem gotLocalIceCandidate_cases (candidate : Option IceCandidate) :
    s.gotLocalIceCandidate candidate = s ∨ ∃ content sentEnd, s.gotLocalIceCandidate candidate =
      { s.sendCandidate content with sentEndOfCandidates := sentEnd } := by
  unfold gotLocalIceCandidate
  split
  next => exact .inl rfl
  next candidate =>
    split
    next => exact .inl rfl
    next =>
      split
      next =>
        split
        next => exact .inr ⟨candidate, true, rfl⟩
        next => exact .inr ⟨candidate, (s.sendCandidate candidate).sentEndOfCandidates, rfl⟩
      next => exact .inl rfl

variable (s) in
theorem onIceGatheringStateChange_cases (complete : Bool) :
    s.onIceGatheringStateChange complete = s ∨ ∃ content sentEnd,
      s.onIceGatheringStateChange complete =
        { s.sendCandidate content with sentEndOfCandidates := sentEnd } := by
  unfold onIceGatheringStateChange
  split
  next => exact .inr ⟨_, true, rfl⟩
  next => exact .inl rfl

/-- A step by which candidates are passed. -/
theorem passes (h : s.Inv) (hs' : s' = s ∨ ∃ content sentEnd,
    s' = { s.sendCandidate content with sentEndOfCandidates := sentEnd }) :
    s'.Inv ∧ (s.Right → s'.Right) := by
  rcases hs' with rfl | ⟨content, sentEnd, rfl⟩
  · exact ⟨h, id⟩
  · have hinv := h.sendCandidate content
    refine ⟨⟨hinv.held, hinv.numbers, hinv.nonempty, hinv.tries⟩, fun hright => ?_⟩
    have hright' := hright.sendCandidate h content
    exact ⟨hright'.conserved, hright'.endLast, hright'.notStranded⟩

/-! ## Messages -/

/-- When the queue has been sent, it is empty or in flight. -/
theorem notStranded_sendCandidateQueue : s.sendCandidateQueue.NotStranded := by
  unfold sendCandidateQueue
  split
  next hnil => exact fun _ _ => .inl hnil
  next => exact fun _ _ => .inl rfl

theorem right_sendCandidateQueue (hinv : s.sendCandidateQueue.Inv) :
    s.sendCandidateQueue.Right ↔ EndLast s.sent.flatten s.passed := by
  have hsame : s.sendCandidateQueue.sent = s.sent ∧ s.sendCandidateQueue.passed = s.passed := by
    unfold sendCandidateQueue
    split <;> exact ⟨rfl, rfl⟩
  constructor
  · intro hright
    rw [← hsame.1, ← hsame.2]
    exact hright.endLast
  · intro hend
    refine ⟨hinv.conserved, ?_, notStranded_sendCandidateQueue⟩
    rw [hsame.1, hsame.2]
    exact hend

/-- The marker of a message, with what is before it and after it. -/
theorem isSafe_sent_iff (hi : s.inFlight[i]? = some cands) :
    CandidateEvent.IsSafe s (.sent i) ↔ ∀ before c after, cands = before ++ c :: after →
      c.isEnd = true → ∀ c' ∈ s.candidateSendQueue ++ ((s.inFlight.eraseIdx i).flatten ++ after),
        ¬ c'.number < c.number := by
  constructor
  · intro hsafe before c after heq
    exact hsafe cands hi (c :: after) ((List.mem_tails _ _).2 ⟨before, heq.symm⟩) c rfl
  · intro h cands' hi' rest hrest c hc
    obtain rfl := Option.some.inj (hi.symm.trans hi')
    obtain ⟨before, rfl⟩ := (List.mem_tails _ _).1 hrest
    cases rest with
    | nil => exact nomatch hc
    | cons c₁ after =>
      obtain rfl := Option.some.inj hc
      exact h before c₁ after rfl

/-- **When a message arrives in order.** -/
theorem endLast_append_iff (h : s.Inv) (hend : EndLast s.sent.flatten s.passed)
    (hi : s.inFlight[i]? = some cands) :
    EndLast (s.sent.flatten ++ cands) s.passed ↔ CandidateEvent.IsSafe s (.sent i) := by
  have hheld := (held_landed hi).symm.trans h.held
  have hnodup := hheld.nodup_iff.2 (List.Nodup.of_map _ h.conserved.2)
  rw [isSafe_sent_iff hi]
  constructor
  · intro hright before c after heq hmarker c' hc' hlt
    subst heq
    have hpassed : c' ∈ s.passed := by
      refine hheld.mem_iff.1 ?_
      simp only [List.mem_append, List.mem_cons] at hc' ⊢
      tauto
    have hbefore := hright (s.sent.flatten ++ before) c after (by rw [List.append_assoc]) hmarker
      c' hpassed hlt
    -- it would be in two places
    simp only [List.nodup_append, List.mem_append, List.mem_cons] at hnodup hc' hbefore
    grind
  · intro hsafe before c after heq hmarker c' hc' hlt
    rcases List.append_eq_append_iff.1 heq with ⟨front, rfl, hcands⟩ | ⟨rest, hsent, hrest⟩
    · have hne : c' ≠ c := fun h => absurd hlt (by rw [h]; exact Nat.lt_irrefl _)
      have hmem := hheld.mem_iff.2 hc'
      have hnot := fun hmem => hsafe front c after hcands hmarker c' hmem hlt
      rw [hcands] at hmem
      simp only [List.mem_append, List.mem_cons] at hmem hnot ⊢
      tauto
    · cases rest with
      | nil =>
        rw [List.append_nil] at hsent
        have hnot := fun hmem => hsafe [] c after hrest.symm hmarker c' hmem hlt
        have hne : c' ≠ c := fun h => absurd hlt (by rw [h]; exact Nat.lt_irrefl _)
        have hmem := hheld.mem_iff.2 hc'
        rw [← hsent]
        rw [show cands = c :: after from hrest.symm] at hmem
        simp only [List.mem_append, List.mem_cons] at hmem hnot ⊢
        tauto
      | cons c₁ rest =>
        obtain ⟨rfl, -⟩ := List.cons.inj hrest
        exact hend before c rest hsent hmarker c' hc' hlt

/-! ## Runs -/

theorem inv_new : new.Inv :=
  ⟨.refl _, rfl, fun _ h => absurd h List.not_mem_nil, fun h => absurd rfl h⟩

theorem Inv.mem_inFlight (h : s.Inv) (hi : s.inFlight[i]? = some cands) :
    cands ≠ [] ∧ ∀ cands' ∈ s.inFlight.eraseIdx i, cands' ≠ [] :=
  ⟨h.nonempty cands (List.mem_of_getElem? hi), fun cands' h' =>
    h.nonempty cands' (List.mem_of_mem_eraseIdx h')⟩

theorem Inv.candidatesSent (h : s.Inv) (hi : s.inFlight[i]? = some cands) :
    (s.candidatesSent i cands).Inv := by
  refine inv_sendCandidateQueue ?_ h.numbers (h.mem_inFlight hi).2 fun _ hzero => absurd rfl hzero
  unfold CandidateQueue.held
  rw [List.flatten_append, List.flatten_singleton]
  exact (held_landed hi).symm.trans h.held

theorem Inv.candidatesFailed (h : s.Inv) (hi : s.inFlight[i]? = some cands) :
    (s.candidatesFailed i cands).Inv := by
  have hheld : ((s.candidateSendQueue ++ cands) ++
      ((s.inFlight.eraseIdx i).flatten ++ s.sent.flatten)).Perm s.passed := by
    refine List.Perm.trans ?_ ((held_landed hi).symm.trans h.held)
    rw [List.append_assoc]
    refine List.Perm.append_left _ (List.perm_append_comm.trans ?_)
    rw [List.append_assoc]
  have hne : s.candidateSendQueue ++ cands ≠ [] :=
    List.append_ne_nil_of_right_ne_nil _ (h.mem_inFlight hi).1
  unfold CandidateQueue.candidatesFailed
  dsimp only
  split
  next => exact ⟨hheld, h.numbers, (h.mem_inFlight hi).2, fun hzero => absurd rfl hzero⟩
  next =>
    exact ⟨hheld, h.numbers, (h.mem_inFlight hi).2, fun _ => .inr ⟨Nat.succ_ne_zero _, hne⟩⟩

/-- A message that fails is put back, and sent again unless it is given up. -/
theorem Right.candidatesFailed (hright : s.Right) (h : s.Inv) (hi : s.inFlight[i]? = some cands) :
    (s.candidatesFailed i cands).Right := by
  have hend := hright.endLast
  refine ⟨(h.candidatesFailed hi).conserved, ?_, ?_⟩
  all_goals unfold CandidateQueue.candidatesFailed; dsimp only; split
  · exact hend
  · exact hend
  · exact fun _ _ => .inr (.inr rfl)
  · exact fun _ hzero => absurd hzero (Nat.succ_ne_zero _)

theorem Inv.timer (h : s.Inv) :
    (sendCandidateQueue { s with timers := s.timers - 1 }).Inv := by
  refine inv_sendCandidateQueue h.held h.numbers h.nonempty fun hnil htries => ?_
  rcases h.tries htries with hflight | ⟨-, hne⟩
  · exact hflight
  · exact absurd hnil hne

theorem Inv.answerSent (h : s.Inv) : s.answerSent.Inv := by
  refine inv_sendCandidateQueue h.held h.numbers h.nonempty fun hnil htries => ?_
  rcases h.tries htries with hflight | ⟨-, hne⟩
  · exact hflight
  · exact absurd hnil hne

/-- **One step keeps what always holds.** -/
theorem Inv.step (h : s.Inv) {e : CandidateEvent} (hstep : s.step e = some s') : s'.Inv := by
  cases e with
  | gotLocalIceCandidate candidate =>
    obtain rfl := Option.some.inj hstep
    exact (passes h (s.gotLocalIceCandidate_cases candidate)).1
  | onIceGatheringStateChange complete =>
    obtain rfl := Option.some.inj hstep
    exact (passes h (s.onIceGatheringStateChange_cases complete)).1
  | timer =>
    rw [CandidateQueue.step] at hstep
    split at hstep
    next => exact nomatch hstep
    next =>
      obtain rfl := Option.some.inj hstep
      exact h.timer
  | sent i =>
    obtain ⟨cands, hi, rfl⟩ := Option.map_eq_some_iff.1 hstep
    exact h.candidatesSent hi
  | failed i =>
    obtain ⟨cands, hi, rfl⟩ := Option.map_eq_some_iff.1 hstep
    exact h.candidatesFailed hi
  | answerSent =>
    obtain rfl := Option.some.inj hstep
    exact h.answerSent
  | setState state =>
    obtain rfl := Option.some.inj hstep
    exact ⟨h.held, h.numbers, h.nonempty, h.tries⟩

/-- **One step** leaves the candidates where they should be when it is safe. -/
theorem right_step_iff (h : s.Inv) (hright : s.Right) {e : CandidateEvent}
    (hstep : s.step e = some s') : s'.Right ↔ e.IsSafe s := by
  cases e with
  | gotLocalIceCandidate candidate =>
    obtain rfl := Option.some.inj hstep
    exact iff_of_true ((passes h (s.gotLocalIceCandidate_cases candidate)).2 hright) trivial
  | onIceGatheringStateChange complete =>
    obtain rfl := Option.some.inj hstep
    exact iff_of_true ((passes h (s.onIceGatheringStateChange_cases complete)).2 hright) trivial
  | timer =>
    rw [CandidateQueue.step] at hstep
    split at hstep
    next => exact nomatch hstep
    next =>
      obtain rfl := Option.some.inj hstep
      exact iff_of_true ((right_sendCandidateQueue h.timer).2 hright.endLast) trivial
  | sent i =>
    obtain ⟨cands, hi, rfl⟩ := Option.map_eq_some_iff.1 hstep
    refine (right_sendCandidateQueue (h.candidatesSent hi)).trans ?_
    rw [← endLast_append_iff h hright.endLast hi, List.flatten_append, List.flatten_singleton]
  | failed i =>
    obtain ⟨cands, hi, rfl⟩ := Option.map_eq_some_iff.1 hstep
    exact iff_of_true (hright.candidatesFailed h hi) trivial
  | answerSent =>
    obtain rfl := Option.some.inj hstep
    exact iff_of_true ((right_sendCandidateQueue h.answerSent).2 hright.endLast) trivial
  | setState state =>
    obtain rfl := Option.some.inj hstep
    constructor
    · intro hright' hringing hleaves
      by_cases hflight : s.inFlight = []
      · by_cases htimers : s.timers = 0
        · rcases hright'.notStranded hflight htimers with hnil | hstate | hgaveUp
          · exact .inl hnil
          · exact absurd hstate hleaves
          · exact .inr (.inr (.inr hgaveUp))
        · exact .inr (.inr (.inl htimers))
      · exact .inr (.inl hflight)
    · intro hsafe
      refine ⟨hright.conserved, hright.endLast, fun hflight htimers => ?_⟩
      rcases hright.notStranded hflight htimers with hnil | hringing | hgaveUp
      · exact .inl hnil
      · by_cases hstate : state = .ringing
        · exact .inr (.inl hstate)
        · rcases hsafe hringing hstate with hnil | hne | hne | hgaveUp
          · exact .inl hnil
          · exact absurd hflight hne
          · exact absurd htimers hne
          · exact .inr (.inr hgaveUp)
      · exact .inr (.inr hgaveUp)

/-- Whatever happens, no candidate is lost or sent twice. -/
theorem conserved_of_reachable (h : candidateSystem.Reachable s) : s.Conserved :=
  (h.invariant inv_new fun _ _ _ hs hstep => hs.step hstep : s.Inv).conserved

end CandidateQueue

/-- **When the candidates are where they should be**, all along a run. -/
theorem rightQueue_iff {tr : List (CandidateQueue × CandidateEvent)} {s : CandidateQueue}
    (h : candidateSystem.Trace tr s) :
    System.HoldsAlong CandidateQueue.Right tr s ↔ System.Meets (fun s e => e.IsSafe s) tr := by
  refine h.holdsAlong_iff CandidateQueue.inv_new (fun _ _ _ hs hstep => hs.step hstep) ?_
    fun _ _ _ hs hright hstep => CandidateQueue.right_step_iff hs hright hstep
  refine ⟨CandidateQueue.inv_new.conserved, fun before c after heq => ?_, fun _ _ => .inl rfl⟩
  exact absurd (List.append_eq_nil_iff.1 heq.symm).2 (List.cons_ne_nil _ _)

/-! ## The end before a candidate -/

/-- A candidate is gathered and sent, and then the gathering is complete. -/
def sentInTurn : List CandidateEvent :=
  [.setState .createOffer, .gotLocalIceCandidate (some ⟨"host", some "audio", some 0⟩), .timer,
    .sent 0, .onIceGatheringStateChange true, .timer, .sent 0]

theorem sentInTurn_runs : (candidateSystem.run sentInTurn).isSome := by decide +kernel

/-- The marker is sent last. -/
theorem rightQueue_iff_sentInTurn :
    System.HoldsAlong CandidateQueue.Right (candidateSystem.steps sentInTurn)
      ((candidateSystem.run sentInTurn).get sentInTurn_runs) :=
  (rightQueue_iff (System.trace_get sentInTurn_runs)).2 (by decide +kernel)

/-- The gathering is complete while the candidate is in flight, and the message fails. -/
def sentAgain : List CandidateEvent :=
  [.setState .createOffer, .gotLocalIceCandidate (some ⟨"host", some "audio", some 0⟩), .timer,
    .onIceGatheringStateChange true, .failed 0, .timer, .sent 0]

theorem sentAgain_runs : (candidateSystem.run sentAgain).isSome := by decide +kernel

/-- The candidate is put behind the marker, and sent after it. -/
theorem rightQueue_fails : ¬ ∀ (tr : List (CandidateQueue × CandidateEvent)) (s : CandidateQueue),
    candidateSystem.Trace tr s → System.HoldsAlong CandidateQueue.Right tr s := by
  intro h
  have hright := (h _ _ (System.trace_get sentAgain_runs)).2
  have hmem := hright.endLast [] ⟨1, "", none, none⟩ [⟨0, "host", some "audio", some 0⟩]
    (by decide +kernel) (by decide) ⟨0, "host", some "audio", some 0⟩ (by decide +kernel)
    (by decide)
  exact absurd hmem List.not_mem_nil

end MatrixSdk.Calls
