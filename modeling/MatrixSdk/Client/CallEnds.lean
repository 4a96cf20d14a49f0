/-
How a call ends: `setState`, `terminate` and `stopAllMedia` of `webrtc/call.js` among everything
that can happen to a call, in any order.

A call that has ended is to stay ended, to tell so once, and to leave no camera and no microphone
on, see [`EndsForGood`]. Most callbacks ask whether the call has ended; those that do not are
where this fails. Media that is granted after the end is nobody's, and media that is granted twice
is not stopped at the end, so that [`endsForGood_along`] has a condition for each of these.

A live stream is always in the hands of a call that has not ended. While it is handed from one
place to another it is in nobody's hands for a moment, which is what [`Inv`] has a parameter for.
-/
import MatrixSdk.Client.CallEventHandler
import Mathlib.Data.List.Count

set_option autoImplicit false

namespace MatrixSdk.Calls.CallEnds

open MatrixSdk.Lib

variable {χ : Type*}

/-! ## What is to hold, and when -/

inductive CallsEvent (χ : Type*)
  /-- The handler gets an event of a call. -/
  | callEvent (type : String) (content : CallContent χ)
  | calls (event : LocalEvent)

def step (userId : String) (s : Client χ) : CallsEvent χ → Option (Client χ)
  | .callEvent type content => some (afterwards (s.callEventHandler userId type content))
  | .calls event => s.localStep event

/-- All runs of the calls of a client of this user. -/
def system (χ : Type*) (userId : String) : System (Client χ) (CallsEvent χ) where
  init := .new
  step := step userId

/-- **Every call ends once and for all.** A stream is the one's it was obtained for, or the one's
it was handed to. -/
structure EndsForGood (s : Client χ) : Prop where
  staysEnded : ∀ a, (s.call a).hasEnded = true → (s.call a).state = .ended
  oneHangup : ∀ a, (s.call a).hangups ≤ 1
  oneHangupSent : ∀ a, s.sent.count (.hangup a) ≤ 1
  mediaStopped : ∀ i, s.live i = true → (s.call (s.owner i)).state ≠ .ended

/-- A call that can be given a stream: it has not ended, and has none yet but that of the screen. -/
def TakesStream (s : Client χ) (a : ℕ) : Prop :=
  (s.call a).state ≠ .ended ∧
    ∀ i ∈ (s.call a).localAVStream.getD [], i ∈ (s.call a).screenSharingStream.getD []

/-- What is under way for a call comes in time. -/
def InTime (s : Client χ) : Task → Outcome → Prop
  | .displayMedia a, .succeeds =>
    (s.call a).state ≠ .ended ∧
      ∀ i ∈ (s.call a).screenSharingStream.getD [], i ∈ (s.call a).localAVStream.getD []
  | .userMediaForInvite a, .succeeds => TakesStream s ((s.call a).successor.getD a)
  | .userMediaForAnswer a, .succeeds => TakesStream s a
  | .sendInvite a, .succeeds => (s.call a).state ≠ .ended
  | .sendAnswer a, _ => (s.call a).state ≠ .ended
  | _, _ => True

/-- **Nothing comes for a call that has ended** which does not ask whether it has, and no stream
for a call that has one. -/
def Harmless (s : Client χ) : CallsEvent χ → Prop
  | .calls (.placeCall a) => (s.call a).state ≠ .ended
  | .calls (.answer a) =>
    (s.call a).state = .ended →
      (s.call a).answerContent = true ∨ (s.call a).localAVStream.isSome = true
  | .calls (.completes task outcome) => InTime s task outcome
  | .calls (.remoteStreamStarts a _) => (s.call a).state ≠ .ended
  | .calls (.remoteStreamEnds a) => (s.call a).hangups = 0
  | _ => True

instance (s : Client χ) (a : ℕ) : Decidable (TakesStream s a) :=
  inferInstanceAs (Decidable (_ ∧ _))

instance (s : Client χ) (task : Task) (outcome : Outcome) : Decidable (InTime s task outcome) := by
  unfold InTime
  split <;> infer_instance

instance (s : Client χ) (e : CallsEvent χ) : Decidable (Harmless s e) := by
  unfold Harmless
  split <;> infer_instance

/-! ## The invariant -/

def taskCall : Task → ℕ
  | .displayMedia a | .userMediaForInvite a | .userMediaForAnswer a | .createOffer a
  | .setLocalOffer a | .sendInvite a | .inviteTimeout a | .createAnswer a | .setLocalAnswer a
  | .sendAnswer a | .inviteExpires a => a

/-- A call that has sent `sent` hangups. Before it ends, it neither tells of the end nor sends it.
-/
structure CallInv (call : MatrixCall χ) (sent : ℕ) : Prop where
  staysEnded : call.hasEnded = true → call.state = .ended
  before : call.state ≠ .ended → call.hangups = 0 ∧ sent = 0
  hangups : call.hangups ≤ 1
  sent : sent ≤ 1

/-- A stream that is in the hands of the call it belongs to, which has not ended. -/
def InHands (s : Client χ) (i : ℕ) : Prop :=
  s.owner i < s.created ∧ (s.call (s.owner i)).state ≠ .ended ∧ i ∈ (s.call (s.owner i)).held

/-- What holds when all is harmless, but for the stream `x`, which has just been granted. -/
structure Inv (x : Option ℕ) (s : Client χ) : Prop where
  call : ∀ a, CallInv (s.call a) (s.sent.count (.hangup a))
  inHands : ∀ i, s.live i = true → x ≠ some i → InHands s i
  unmade : ∀ a, s.created ≤ a → s.sent.count (.hangup a) = 0
  tasks : ∀ task ∈ s.tasks, taskCall task < s.created
  callList : ∀ callId a, s.callList.get callId = some a → a < s.created
  successor : ∀ a b, (s.call a).successor = some b → b < s.created

variable {x : Option ℕ} {s : Client χ} {a : ℕ} {f : MatrixCall χ → MatrixCall χ}
  {stream : MediaStream} {outcome : Outcome} {b : ℕ}

theorem Inv.endsForGood (h : Inv none s) : EndsForGood s where
  staysEnded := fun a => (h.call a).staysEnded
  oneHangup := fun a => (h.call a).hangups
  oneHangupSent := fun a => (h.call a).sent
  mediaStopped := fun i hi => (h.inHands i hi (nomatch ·)).2.1

theorem Inv.new : Inv none (Client.new : Client χ) where
  call := fun _ => ⟨(nomatch ·), fun _ => ⟨rfl, rfl⟩, Nat.zero_le 1, Nat.zero_le 1⟩
  inHands := fun _ hlive => nomatch hlive
  unmade := fun _ _ => rfl
  tasks := fun _ htask => absurd htask List.not_mem_nil
  callList := fun _ _ hget => nomatch hget
  successor := fun _ _ hsuccessor => nomatch hsuccessor

/-! ## What changes a call and not its end -/

/-- A property of all calls, of which one is changed. -/
theorem forall_modify {P : ℕ → MatrixCall χ → Prop} (hP : ∀ b, P b (s.call b))
    (hf : P a (s.call a) → P a (f (s.call a))) (b : ℕ) : P b ((s.modify a f).call b) := by
  by_cases hb : b = a
  · rw [hb, modify_call_self]
    exact hf (hP a)
  · rw [modify_call_ne s hb]
    exact hP b

/-- The successors stay. -/
theorem Inv.successor_modify (h : Inv x s) (hf : (f (s.call a)).successor = (s.call a).successor) :
    ∀ b c, ((s.modify a f).call b).successor = some c → c < s.created := by
  refine forall_modify (P := fun _ call => ∀ c, call.successor = some c → c < s.created)
    h.successor fun hold c hc => ?_
  rw [hf] at hc
  exact hold c hc

/-- The call is as far from its end as before, and lets go of no stream. -/
structure KeepsEnd (s : Client χ) (call call' : MatrixCall χ) : Prop where
  state : call'.state = .ended ↔ call.state = .ended
  hasEnded : call'.hasEnded = call.hasEnded
  hangups : call'.hangups = call.hangups
  held : ∀ i ∈ call.held, i ∈ call'.held
  successor : ∀ b, call'.successor = some b → b < s.created

theorem Inv.modify (h : Inv x s) (hf : KeepsEnd s (s.call a) (f (s.call a))) :
    Inv x (s.modify a f) where
  call := by
    refine forall_modify (P := fun b call => CallInv call (s.sent.count (.hangup b))) h.call ?_
    rintro ⟨hstays, hbefore, hhangups, hsent⟩
    refine ⟨fun hended => ?_, fun hnot => ?_, ?_, hsent⟩
    · rw [hf.hasEnded] at hended
      exact hf.state.2 (hstays hended)
    · rw [hf.hangups]
      exact hbefore fun hcontra => hnot (hf.state.2 hcontra)
    · rw [hf.hangups]
      exact hhangups
  inHands := by
    intro i hlive hi
    obtain ⟨hmade, hstate, hheld⟩ := h.inHands i hlive hi
    refine ⟨hmade, ?_⟩
    by_cases howner : s.owner i = a
    · have hcall : (s.modify a f).call (s.owner i) = f (s.call a) := by
        rw [howner, modify_call_self]
      rw [show (s.modify a f).owner i = s.owner i from rfl, hcall]
      rw [howner] at hstate hheld
      exact ⟨fun hcontra => hstate (hf.state.1 hcontra), hf.held i hheld⟩
    · rw [show (s.modify a f).owner i = s.owner i from rfl, modify_call_ne s howner]
      exact ⟨hstate, hheld⟩
  unmade := h.unmade
  tasks := h.tasks
  callList := h.callList
  successor := forall_modify (P := fun _ call => ∀ b, call.successor = some b → b < s.created)
    h.successor fun _ => hf.successor

/-- Most changes are to fields that have nothing to do with the end. -/
theorem Inv.keepsEnd (h : Inv x s) {call : MatrixCall χ}
    (hstate : call.state = .ended ↔ (s.call a).state = .ended)
    (hhasEnded : call.hasEnded = (s.call a).hasEnded) (hhangups : call.hangups = (s.call a).hangups)
    (hlocal : call.localAVStream = (s.call a).localAVStream)
    (hscreen : call.screenSharingStream = (s.call a).screenSharingStream)
    (hsuccessor : call.successor = (s.call a).successor) : KeepsEnd s (s.call a) call where
  state := hstate
  hasEnded := hhasEnded
  hangups := hhangups
  held := by
    intro i hi
    rw [MatrixCall.held, hlocal, hscreen]
    exact hi
  successor := by
    intro b hb
    rw [hsuccessor] at hb
    exact h.successor a b hb

theorem Inv.addTask (h : Inv x s) {t : Task} (ht : taskCall t < s.created) :
    Inv x (s.addTask t) where
  call := h.call
  inHands := h.inHands
  unmade := h.unmade
  tasks := by
    intro task htask
    rcases List.mem_append.1 htask with hold | hnew
    · exact h.tasks task hold
    · rw [List.mem_singleton.1 hnew]
      exact ht
  callList := h.callList
  successor := h.successor

/-- Something else than a hangup is sent. -/
theorem Inv.sendEvent (h : Inv x s) {e : SentEvent} (he : ∀ a, e ≠ .hangup a) :
    Inv x (s.sendEvent e) := by
  have hcount : ∀ a, (s.sendEvent e).sent.count (.hangup a) = s.sent.count (.hangup a) := by
    intro a
    rw [Client.sendEvent, List.count_append, List.count_singleton,
      if_neg (by rw [beq_iff_eq]; exact he a), Nat.add_zero]
  refine ⟨fun a => ?_, h.inHands, fun a ha => ?_, h.tasks, h.callList, h.successor⟩
  · rw [hcount]
    exact h.call a
  · rw [hcount]
    exact h.unmade a ha

/-- A call that has not ended goes on to another state. -/
theorem Inv.setState (h : Inv x s) {c : CallState} (hold : (s.call a).state ≠ .ended)
    (hnew : c ≠ .ended) : Inv x (s.setState a c) := by
  refine h.modify (h.keepsEnd (iff_of_false hnew hold) ?_ rfl rfl rfl rfl)
  rw [beq_eq_false_iff_ne.2 hnew]
  exact Bool.or_false _

/-! ## The end -/

/-- The call ends, and its media stop. -/
theorem Inv.endCall (h : Inv x s) (a : ℕ) : Inv x ((s.setState a .ended).stopAllMedia a) where
  call := by
    rw [endCall_call]
    refine forall_modify (P := fun b call => CallInv call (s.sent.count (.hangup b))) h.call ?_
    rintro ⟨-, -, hhangups, hsent⟩
    exact ⟨fun _ => rfl, fun hcontra => absurd rfl hcontra, hhangups, hsent⟩
  inHands := by
    intro i hlive hi
    have hboth : (s.live i && !((s.modify a ending).call a).held.contains i) = true := hlive
    rw [modify_call_self, Bool.and_eq_true, Bool.not_eq_true', ← Bool.not_eq_true,
      List.contains_iff_mem] at hboth
    obtain ⟨hmade, hstate, hheld⟩ := h.inHands i hboth.1 hi
    have howner : s.owner i ≠ a := by
      intro heq
      rw [heq] at hheld
      exact hboth.2 hheld
    refine ⟨hmade, ?_⟩
    rw [endCall_call, show ((s.setState a .ended).stopAllMedia a).owner i = s.owner i from rfl,
      modify_call_ne s howner]
    exact ⟨hstate, hheld⟩
  unmade := h.unmade
  tasks := h.tasks
  callList := h.callList
  successor := by
    rw [endCall_call]
    exact h.successor_modify rfl

theorem endCall_state (s : Client χ) (a : ℕ) :
    (((s.setState a .ended).stopAllMedia a).call a).state = .ended := by
  show ((s.setState a .ended).call a).state = .ended
  rw [Client.setState, modify_call_self]

theorem endCall_hangups (s : Client χ) (a : ℕ) :
    (((s.setState a .ended).stopAllMedia a).call a).hangups = (s.call a).hangups := by
  show ((s.setState a .ended).call a).hangups = _
  rw [Client.setState, modify_call_self]

/-- It is told for the first time that the call has ended. -/
theorem Inv.emitHangup (h : Inv x s) (hended : (s.call a).state = .ended)
    (hfirst : (s.call a).hangups = 0) : Inv x (s.emitHangup a) where
  call := by
    refine forall_modify (P := fun b call => CallInv call (s.sent.count (.hangup b))) h.call ?_
    rintro ⟨hstays, -, -, hsent⟩
    refine ⟨hstays, fun hcontra => absurd hended hcontra, ?_, hsent⟩
    show (s.call a).hangups + 1 ≤ 1
    rw [hfirst]
  inHands := by
    intro i hlive hi
    obtain ⟨hmade, hstate, hheld⟩ := h.inHands i hlive hi
    have howner : s.owner i ≠ a := by
      intro heq
      rw [heq] at hstate
      exact hstate hended
    refine ⟨hmade, ?_⟩
    rw [Client.emitHangup, show (s.modify a _).owner i = s.owner i from rfl,
      modify_call_ne s howner]
    exact ⟨hstate, hheld⟩
  unmade := h.unmade
  tasks := h.tasks
  callList := h.callList
  successor := h.successor_modify rfl

/-- The hangup is sent for the first time. -/
theorem Inv.sendHangup (h : Inv x s) (hended : (s.call a).state = .ended)
    (hfirst : s.sent.count (.hangup a) = 0) (hmade : a < s.created) :
    Inv x (s.sendEvent (.hangup a)) := by
  have hself : (s.sendEvent (.hangup a)).sent.count (.hangup a) = 1 := by
    rw [Client.sendEvent, List.count_append, hfirst, List.count_singleton_self]
  have hother : ∀ b, b ≠ a →
      (s.sendEvent (.hangup a)).sent.count (.hangup b) = s.sent.count (.hangup b) := by
    intro b hb
    have hne : ¬ (SentEvent.hangup a == SentEvent.hangup b) = true := by
      rw [beq_iff_eq, SentEvent.hangup.injEq]
      exact fun heq => hb heq.symm
    rw [Client.sendEvent, List.count_append, List.count_singleton, if_neg hne, Nat.add_zero]
  refine ⟨fun b => ?_, h.inHands, fun b hb => ?_, h.tasks, h.callList, h.successor⟩
  · by_cases hb : b = a
    · rw [hb, hself]
      obtain ⟨hstays, -, hhangups, -⟩ := h.call a
      exact ⟨hstays, fun hcontra => absurd hended hcontra, hhangups, Nat.le_refl 1⟩
    · rw [hother b hb]
      exact h.call b
  · rw [hother b (Nat.ne_of_gt (Nat.lt_of_lt_of_le hmade hb))]
    exact h.unmade b hb

theorem Inv.terminate (h : Inv x s) {shouldEmit : Bool}
    (hfirst : shouldEmit = true → (s.call a).hangups = 0) : Inv x (s.terminate a shouldEmit) := by
  have hended := h.endCall a
  cases shouldEmit with
  | true =>
    exact hended.emitHangup (endCall_state s a) ((endCall_hangups s a).trans (hfirst rfl))
  | false => exact hended

theorem Inv.onHangupReceived (h : Inv x s) (hnot : (s.call a).state ≠ .ended) :
    Inv x (s.onHangupReceived a) :=
  h.terminate fun _ => ((h.call a).before hnot).1

theorem Inv.onAnsweredElsewhere (h : Inv x s) (hnot : (s.call a).state ≠ .ended) :
    Inv x (s.onAnsweredElsewhere a) :=
  h.terminate fun _ => ((h.call a).before hnot).1

/-- It is not told that the call has ended. -/
theorem Inv.getUserMediaFailed (h : Inv x s) (a : ℕ) : Inv x (s.getUserMediaFailed a) :=
  h.terminate nofun

theorem terminate_state (s : Client χ) (a : ℕ) (shouldEmit : Bool) :
    ((s.terminate a shouldEmit).call a).state = .ended := by
  cases shouldEmit with
  | true =>
    show ((((s.setState a .ended).stopAllMedia a).emitHangup a).call a).state = .ended
    rw [Client.emitHangup, modify_call_self]
    exact endCall_state s a
  | false => exact endCall_state s a

theorem terminate_sent (s : Client χ) (a : ℕ) (shouldEmit : Bool) :
    (s.terminate a shouldEmit).sent = s.sent ∧
      (s.terminate a shouldEmit).created = s.created := by
  cases shouldEmit <;> exact ⟨rfl, rfl⟩

/-- **`hangup` asks whether the call has ended**, and so does no harm. -/
theorem Inv.hangup (h : Inv x s) (hmade : a < s.created) (suppressEvent : Bool) :
    Inv x (s.hangup a suppressEvent) := by
  rw [Client.hangup]
  split
  · exact h
  next hnot =>
    obtain ⟨hhangups, hsent⟩ := (h.call a).before hnot
    obtain ⟨hsame, hcreated⟩ := terminate_sent s a (!suppressEvent)
    refine (h.terminate fun _ => hhangups).sendHangup (terminate_state s a _) ?_ ?_
    · rw [hsame]
      exact hsent
    · rw [hcreated]
      exact hmade

theorem Inv.inviteExpires (h : Inv x s) (a : ℕ) : Inv x (s.inviteExpires a) := by
  rw [Client.inviteExpires]
  split
  next hringing =>
    have hnot : (s.call a).state ≠ .ended := by
      rw [hringing]
      exact nofun
    dsimp only
    split
    · exact (h.endCall a).emitHangup (endCall_state s a)
        ((endCall_hangups s a).trans ((h.call a).before hnot).1)
    · exact h.endCall a
  · exact h

/-! ## Streams -/

/-- A stream is granted, and is in nobody's hands. -/
theorem Inv.grant (h : Inv none s) (a : ℕ) : Inv (some s.granted) (s.grant a) where
  call := h.call
  inHands := by
    intro i hlive hi
    have hne : i ≠ s.granted := fun heq => hi (congrArg some heq.symm)
    have hlive : Function.update s.live s.granted true i = true := hlive
    rw [Function.update_of_ne hne] at hlive
    obtain ⟨hmade, hstate, hheld⟩ := h.inHands i hlive (nomatch ·)
    have howner : (s.grant a).owner i = s.owner i := Function.update_of_ne hne _ _
    rw [InHands, howner]
    exact ⟨hmade, hstate, hheld⟩
  unmade := h.unmade
  tasks := h.tasks
  callList := h.callList
  successor := h.successor

/-- The call takes the stream, and lets go of none. -/
theorem Inv.takeStream (h : Inv x s) (hmade : a < s.created) (hnot : (s.call a).state ≠ .ended)
    (hlocal : ∀ i ∈ (s.call a).localAVStream.getD [],
      i ∈ stream ∨ i ∈ (s.call a).screenSharingStream.getD []) (hx : ∀ i, x = some i → i ∈ stream) :
    Inv none (s.takeStream a stream) where
  call := by
    rw [takeStream_call]
    refine forall_modify (P := fun b call => CallInv call (s.sent.count (.hangup b))) h.call ?_
    rintro ⟨hstays, hbefore, hhangups, hsent⟩
    exact ⟨hstays, hbefore, hhangups, hsent⟩
  inHands := by
    intro i hlive _
    have howner : (s.takeStream a stream).owner i = if i ∈ stream then a else s.owner i := rfl
    rw [InHands, howner, takeStream_call]
    by_cases hi : i ∈ stream
    · rw [if_pos hi, modify_call_self]
      exact ⟨hmade, hnot, List.mem_append_left _ hi⟩
    · rw [if_neg hi]
      obtain ⟨hmade', hstate, hheld⟩ := h.inHands i hlive fun heq => hi (hx i heq)
      refine ⟨hmade', ?_⟩
      by_cases ha : s.owner i = a
      · rw [ha] at hheld ⊢
        rw [modify_call_self]
        refine ⟨hnot, List.mem_append_right _ ?_⟩
        rcases List.mem_append.1 hheld with hl | hr
        · exact (hlocal i hl).resolve_left hi
        · exact hr
      · rw [modify_call_ne s ha]
        exact ⟨hstate, hheld⟩
  unmade := h.unmade
  tasks := h.tasks
  callList := h.callList
  successor := by
    rw [takeStream_call]
    exact h.successor_modify rfl

/-- The call takes the stream of the screen, which is its own. -/
theorem Inv.takeScreen {i : ℕ} (h : Inv (some i) s) (hmade : a < s.created)
    (hnot : (s.call a).state ≠ .ended) (howner : s.owner i = a)
    (hscreen : ∀ j ∈ (s.call a).screenSharingStream.getD [],
      j ∈ (s.call a).localAVStream.getD []) :
    Inv none (s.modify a fun call => { call with screenSharingStream := some [i] }) where
  call := by
    refine forall_modify (P := fun b call => CallInv call (s.sent.count (.hangup b))) h.call ?_
    rintro ⟨hstays, hbefore, hhangups, hsent⟩
    exact ⟨hstays, hbefore, hhangups, hsent⟩
  inHands := by
    intro j hlive _
    by_cases ha : s.owner j = a
    · refine ⟨ha.symm ▸ hmade, ?_⟩
      rw [show (s.modify a _).owner j = s.owner j from rfl, ha, modify_call_self]
      refine ⟨hnot, ?_⟩
      by_cases hj : j = i
      · rw [hj]
        exact List.mem_append_right _ (List.mem_singleton_self i)
      · obtain ⟨-, -, hheld⟩ := h.inHands j hlive fun heq => hj (Option.some.inj heq).symm
        rw [ha] at hheld
        rcases List.mem_append.1 hheld with hl | hr
        · exact List.mem_append_left _ hl
        · exact List.mem_append_left _ (hscreen j hr)
    · have hj : some i ≠ some j := by
        intro heq
        rw [← Option.some.inj heq] at ha
        exact ha howner
      obtain ⟨hmade', hstate, hheld⟩ := h.inHands j hlive hj
      refine ⟨hmade', ?_⟩
      rw [show (s.modify a _).owner j = s.owner j from rfl, modify_call_ne s ha]
      exact ⟨hstate, hheld⟩
  unmade := h.unmade
  tasks := h.tasks
  callList := h.callList
  successor := h.successor_modify rfl

theorem withScreen_spec (s : Client χ) (a : ℕ) (stream : MediaStream) :
    (s.withScreen a stream).created = s.created ∧
      ((s.withScreen a stream).call a).state = (s.call a).state := by
  rw [Client.withScreen]
  split
  · refine ⟨rfl, ?_⟩
    rw [takeStream_call, modify_call_self, modify_call_self]
  · refine ⟨rfl, ?_⟩
    rw [takeStream_call, modify_call_self]

/-- The stream goes to a call that has none but that of the screen. -/
theorem Inv.withScreen (h : Inv x s) (hmade : a < s.created) (htakes : TakesStream s a)
    (hx : ∀ i, x = some i → i ∈ stream) : Inv none (s.withScreen a stream) := by
  rw [Client.withScreen]
  cases hscreen : (s.call a).screenSharingStream with
  | none =>
    refine h.takeStream hmade htakes.1 (fun i hi => .inr (htakes.2 i hi)) hx
  | some screen =>
    have hmodified : Inv x (s.modify a fun call =>
        { call with screenSharingStream := some (screen ++ stream) }) := by
      refine h.modify ⟨Iff.rfl, rfl, rfl, fun i hi => ?_, h.successor a⟩
      rw [MatrixCall.held, hscreen] at hi
      rcases List.mem_append.1 hi with hl | hr
      · exact List.mem_append_left _ hl
      · exact List.mem_append_right _ (List.mem_append_left stream hr)
    refine hmodified.takeStream hmade ?_ ?_ fun i hi => List.mem_append_right _ (hx i hi)
    · rw [modify_call_self]
      exact htakes.1
    · rw [modify_call_self]
      intro i hi
      have hin := htakes.2 i hi
      rw [hscreen] at hin
      exact .inl (List.mem_append_left stream hin)

/-! ## Placing and answering calls -/

/-- A call is found under its id. -/
theorem Inv.register (h : Inv x s) (callId : String) (hmade : a < s.created) :
    Inv x { s with callList := s.callList.set callId a } := by
  refine ⟨h.call, h.inHands, h.unmade, h.tasks, fun callId' b hget => ?_, h.successor⟩
  rw [JsObject.get_set] at hget
  split at hget
  · rw [← Option.some.inj hget]
    exact hmade
  · exact h.callList callId' b hget

theorem Inv.placeCallWithConstraints (h : Inv x s) (hmade : a < s.created)
    (hnot : (s.call a).state ≠ .ended) : Inv x (s.placeCallWithConstraints a) := by
  have hplaced := ((h.register (s.call a).callId hmade).addTask (t := .userMediaForInvite a)
    hmade).setState hnot (c := .waitLocalMedia) nofun
  unfold Client.placeCallWithConstraints
  exact hplaced.modify (hplaced.keepsEnd Iff.rfl rfl rfl rfl rfl rfl)

theorem Inv.gotDisplayMedia (h : Inv none s) (hmade : a < s.created)
    (htime : InTime s (.displayMedia a) outcome) : Inv none (s.gotDisplayMedia a outcome) := by
  cases outcome with
  | succeeds =>
    obtain ⟨hnot, hscreen⟩ := htime
    have hgranted := (h.grant a).takeScreen hmade hnot (Function.update_self _ _ _) hscreen
    refine hgranted.placeCallWithConstraints hmade ?_
    rw [modify_call_self]
    exact hnot
  | permissionDenied => exact h
  | fails => exact h

theorem Inv.startAnswer (h : Inv x s) (hmade : a < s.created) (hnot : (s.call a).state ≠ .ended) :
    Inv x (afterwards (s.startAnswer a)) := by
  rw [Client.startAnswer]
  split
  · exact (h.addTask (t := .createAnswer a) hmade).setState hnot nofun
  · exact h

/-- A stream for the answer, which comes in time. -/
theorem Inv.gotStream (h : Inv x s) (hmade : a < s.created) (hnot : (s.call a).state ≠ .ended)
    (hlocal : ∀ i ∈ (s.call a).localAVStream.getD [],
      i ∈ stream ∨ i ∈ (s.call a).screenSharingStream.getD []) (hx : ∀ i, x = some i → i ∈ stream) :
    Inv none (afterwards (s.maybeGotUserMediaForAnswer a (.stream stream))) := by
  rw [Client.maybeGotUserMediaForAnswer, if_neg hnot]
  refine (h.takeStream hmade hnot hlocal hx).startAnswer hmade ?_
  rw [takeStream_call, modify_call_self]
  exact hnot

/-- No stream for the answer. -/
theorem Inv.gotNoStream (h : Inv none s) {media : UserMedia} (hmade : a < s.created)
    (hmedia : ∀ stream, media ≠ .stream stream) :
    Inv none (afterwards (s.maybeGotUserMediaForAnswer a media)) := by
  unfold Client.maybeGotUserMediaForAnswer
  split
  · exact h
  next hnot =>
    cases media with
    | stream stream => exact absurd rfl (hmedia stream)
    | permissionDenied => exact h.startAnswer hmade hnot
    | failed => exact h.getUserMediaFailed a

theorem Inv.startOffer (h : Inv x s) (hmade : a < s.created) (hnot : (s.call a).state ≠ .ended) :
    Inv x (s.startOffer a) := by
  have hconnected : Inv x (s.modify a fun call => { call with peerConn := some [] }) :=
    h.modify (h.keepsEnd Iff.rfl rfl rfl rfl rfl rfl)
  refine (hconnected.addTask (t := .createOffer a) hmade).setState ?_ nofun
  show ((s.modify a fun call => { call with peerConn := some [] }).call a).state ≠ .ended
  rw [modify_call_self]
  exact hnot

theorem Inv.maybeGotUserMediaForInvite (h : Inv none s) (hmade : a < s.created)
    (htime : InTime s (.userMediaForInvite a) outcome) :
    Inv none (afterwards ((s.userMedia a outcome).1.maybeGotUserMediaForInvite a
      (s.userMedia a outcome).2)) := by
  have hsame : (s.userMedia a outcome).1.call a = s.call a := by
    cases outcome <;> rfl
  unfold Client.maybeGotUserMediaForInvite
  rw [hsame]
  cases hsuccessor : (s.call a).successor with
  | some b =>
    have hb := h.successor a b hsuccessor
    cases outcome with
    | succeeds =>
      obtain ⟨hnot, hlocal⟩ : TakesStream s b := by
        rw [InTime, hsuccessor] at htime
        exact htime
      refine (h.grant a).gotStream hb hnot (fun i hi => .inr (hlocal i hi)) fun i hi => ?_
      rw [Option.some.inj hi]
      exact List.mem_singleton_self i
    | permissionDenied => exact h.gotNoStream hb nofun
    | fails => exact h.gotNoStream hb nofun
  | none =>
    dsimp only
    cases outcome with
    | succeeds =>
      have htakes : TakesStream s a := by
        rw [InTime, hsuccessor] at htime
        exact htime
      rw [if_neg htakes.1]
      have htaken : Inv none ((s.grant a).withScreen a [s.granted]) := by
        refine (h.grant a).withScreen hmade htakes fun i hi => ?_
        rw [Option.some.inj hi]
        exact List.mem_singleton_self i
      obtain ⟨hcreated, hstate⟩ := withScreen_spec (s.grant a) a [s.granted]
      refine htaken.startOffer ?_ ?_
      · rw [hcreated]
        exact hmade
      · rw [hstate]
        exact htakes.1
    | permissionDenied =>
      split
      · exact h
      next hnot => exact h.startOffer hmade hnot
    | fails =>
      split
      · exact h
      · exact h.getUserMediaFailed a

theorem Inv.maybeGotUserMedia (h : Inv none s) (hmade : a < s.created)
    (htime : InTime s (.userMediaForAnswer a) outcome) :
    Inv none (afterwards ((s.userMedia a outcome).1.maybeGotUserMediaForAnswer a
      (s.userMedia a outcome).2)) := by
  cases outcome with
  | succeeds =>
    refine (h.grant a).gotStream hmade htime.1 (fun i hi => .inr (htime.2 i hi)) fun i hi => ?_
    rw [Option.some.inj hi]
    exact List.mem_singleton_self i
  | permissionDenied => exact h.gotNoStream hmade nofun
  | fails => exact h.gotNoStream hmade nofun

/-- **`answer`** sets the state of a call that has neither its answer nor a stream yet. -/
theorem Inv.answer (h : Inv none s) (hmade : a < s.created) (hended : (s.call a).state = .ended →
      (s.call a).answerContent = true ∨ (s.call a).localAVStream.isSome = true) :
    Inv none (afterwards (s.answer a)) := by
  rw [Client.answer]
  split
  · exact (h.sendEvent (e := .answer a) nofun).addTask (t := .sendAnswer a) hmade
  next hcontent =>
    cases hlocal : (s.call a).localAVStream with
    | some stream =>
      by_cases hnot : (s.call a).state = .ended
      · dsimp only
        rw [Client.maybeGotUserMediaForAnswer, if_pos hnot]
        exact h
      · refine h.gotStream hmade hnot (fun i hi => .inl ?_) nofun
        rw [hlocal] at hi
        exact hi
    | none =>
      have hnot : (s.call a).state ≠ .ended := by
        intro hcontra
        rcases hended hcontra with hanswer | hstream
        · exact hcontent hanswer
        · rw [hlocal] at hstream
          exact nomatch hstream
      dsimp only
      split
      · exact h.setState hnot nofun
      · exact (h.addTask (t := .userMediaForAnswer a) hmade).setState hnot nofun

/-! ## Glare -/

/-- A function of two stages: what either leaves. -/
theorem afterwards_bind {σ : Type*} {P : σ → Prop} {made : Except σ σ} {f : σ → Except σ σ}
    (herror : P (afterwards made)) (hok : ∀ s, made = .ok s → P (afterwards (f s))) :
    P (afterwards (made.bind f)) := by
  cases made with
  | error s => exact herror
  | ok s => exact hok s rfl

/-- A call lets go of its stream, which is another call's by now. -/
theorem Inv.letGo (h : Inv none s) (hgone : ∀ i ∈ (s.call a).localAVStream.getD [], s.owner i ≠ a) :
    Inv none (s.modify a fun call => { call with localAVStream := none }) where
  call := by
    refine forall_modify (P := fun b call => CallInv call (s.sent.count (.hangup b))) h.call ?_
    rintro ⟨hstays, hbefore, hhangups, hsent⟩
    exact ⟨hstays, hbefore, hhangups, hsent⟩
  inHands := by
    intro i hlive hi
    obtain ⟨hmade, hstate, hheld⟩ := h.inHands i hlive hi
    refine ⟨hmade, ?_⟩
    rw [show (s.modify a _).owner i = s.owner i from rfl]
    by_cases ha : s.owner i = a
    · rw [ha] at hstate hheld ⊢
      rw [modify_call_self]
      refine ⟨hstate, ?_⟩
      rcases List.mem_append.1 hheld with hl | hr
      · exact absurd ha (hgone i hl)
      · exact List.mem_append_right _ hr
    · rw [modify_call_ne s ha]
      exact ⟨hstate, hheld⟩
  unmade := h.unmade
  tasks := h.tasks
  callList := h.callList
  successor := h.successor_modify rfl

/-- An incoming call that has just been made. -/
structure Ready (s : Client χ) (a : ℕ) : Prop where
  made : a < s.created
  inbound : (s.call a).outbound = false
  notEnded : (s.call a).state ≠ .ended
  noStream : (s.call a).localAVStream = none

/-- The stream is handed from call `a` to call `b`. -/
theorem Inv.handStream (h : Inv none s) (hab : a ≠ b) (hready : Ready s b) :
    Inv none (afterwards (s.handStream a b)) ∧ ∀ s', s.handStream a b = .ok s' →
      s'.created = s.created ∧ (s'.call b).state ≠ .ended := by
  rw [Client.handStream]
  cases hlocal : (s.call a).localAVStream with
  | none =>
    rw [if_neg hready.notEnded]
    exact ⟨h, fun _ hcontra => nomatch hcontra⟩
  | some stream =>
    dsimp only
    have hgot : Inv none (afterwards (s.maybeGotUserMediaForAnswer b (.stream stream))) := by
      refine h.gotStream hready.made hready.notEnded (fun i hi => ?_) nofun
      rw [hready.noStream] at hi
      exact absurd hi List.not_mem_nil
    cases hmade : s.maybeGotUserMediaForAnswer b (.stream stream) with
    | error s₁ =>
      rw [hmade] at hgot
      exact ⟨hgot, fun _ hcontra => nomatch hcontra⟩
    | ok s₁ =>
      rw [hmade] at hgot
      have hgot : Inv none s₁ := hgot
      obtain ⟨hnot, hcreated, howner, hother⟩ := gotStream_spec hmade hready.notEnded
      refine ⟨hgot.letGo fun i hi => ?_, fun s' hs' => ?_⟩
      · rw [hother a hab, hlocal] at hi
        rw [howner i hi]
        exact hab.symm
      · obtain rfl := Except.ok.inj hs'
        rw [modify_call_ne s₁ hab.symm]
        exact ⟨hcreated, hnot⟩

theorem Inv.handOver (h : Inv none s) (hab : a ≠ b) (hready : Ready s b) :
    Inv none (afterwards (s.handOver a b)) ∧ ∀ s', s.handOver a b = .ok s' →
      s'.created = s.created ∧ (s'.call b).state ≠ .ended := by
  unfold Client.handOver
  split
  · have hwaits : Inv none (s.modify b fun call => { call with waitForLocalAVStream := true }) :=
      h.modify (h.keepsEnd Iff.rfl rfl rfl rfl rfl rfl)
    refine ⟨hwaits, fun s' hs' => ?_⟩
    obtain rfl := Except.ok.inj hs'
    rw [modify_call_self]
    exact ⟨rfl, hready.notEnded⟩
  · exact h.handStream hab hready
  · exact h.handStream hab hready
  · refine ⟨h, fun s' hs' => ?_⟩
    obtain rfl := Except.ok.inj hs'
    exact ⟨rfl, hready.notEnded⟩

/-- The call that is replaced ends. -/
theorem Inv.giveWay (h : Inv none s) (ha : a < s.created) (hb : b < s.created) :
    Inv none (s.giveWay a b) := by
  have hmodified : Inv none (s.modify a fun call => { call with successor := some b }) := by
    refine h.modify ⟨Iff.rfl, rfl, rfl, fun _ hi => hi, fun c hc => ?_⟩
    rw [← Option.some.inj hc]
    exact hb
  exact hmodified.hangup ha false

theorem giveWay_spec (s : Client χ) (hab : a ≠ b) :
    (s.giveWay a b).created = s.created ∧ (s.giveWay a b).call b = s.call b := by
  rw [Client.giveWay, hangup_created, hangup_call_ne _ hab.symm, modify_call_ne s hab.symm]
  exact ⟨rfl, rfl⟩

theorem Inv.replacedBy (h : Inv none s) (hab : a ≠ b) (hmade : a < s.created) (hready : Ready s b) :
    Inv none (afterwards (s.replacedBy a b)) ∧ ∀ s', s.replacedBy a b = .ok s' →
      s'.created = s.created ∧ (s'.call b).state ≠ .ended := by
  obtain ⟨hinv, hok⟩ := h.handOver hab hready
  rw [Client.replacedBy]
  cases hhanded : s.handOver a b with
  | error s₁ =>
    rw [hhanded] at hinv
    exact ⟨hinv, fun _ hcontra => nomatch hcontra⟩
  | ok s₁ =>
    rw [hhanded] at hinv
    obtain ⟨hcreated, hnot⟩ := hok s₁ hhanded
    obtain ⟨hcreated', hcall⟩ := giveWay_spec s₁ hab
    refine ⟨Inv.giveWay hinv ?_ ?_, fun s' hs' => ?_⟩
    · show a < s₁.created
      rw [hcreated]
      exact hmade
    · show b < s₁.created
      rw [hcreated]
      exact hready.made
    · obtain rfl := Except.ok.inj hs'
      rw [hcreated', hcall]
      exact ⟨hcreated, hnot⟩

/-- **The incoming call is announced**, or one of the two calls is given up. -/
theorem Inv.announce (h : Inv none s) (hready : Ready s a) :
    Inv none (afterwards (s.announce a)) := by
  rw [Client.announce]
  cases hexisting : s.existingCall a with
  | none => exact ⟨h.call, h.inHands, h.unmade, h.tasks, h.callList, h.successor⟩
  | some b =>
    obtain ⟨his, callId, hget⟩ := existingCall_spec hexisting
    obtain ⟨-, houtbound, -⟩ := isExistingCall_spec his
    have hba : b ≠ a := by
      rintro rfl
      exact nomatch hready.inbound.symm.trans houtbound
    dsimp only
    split
    · obtain ⟨hinv, hok⟩ := h.replacedBy hba (h.callList callId b hget) hready
      refine afterwards_bind hinv fun s' hs' => ?_
      rw [hs'] at hinv
      obtain ⟨hcreated, hnot⟩ := hok s' hs'
      refine Inv.answer hinv ?_ fun hcontra => absurd hcontra hnot
      show a < s'.created
      rw [hcreated]
      exact hready.made
    · exact h.hangup hready.made false

/-! ## The events of calls -/

theorem Inv.newCall (h : Inv none s) (callId roomId : String) :
    Inv none (s.newCall callId roomId) where
  call := by
    intro a
    by_cases ha : a = s.created
    · rw [ha, show (s.newCall callId roomId).call s.created = .new callId roomId from
        Function.update_self _ _ _, show (s.newCall callId roomId).sent = s.sent from rfl,
        h.unmade s.created (Nat.le_refl _)]
      exact ⟨nofun, fun _ => ⟨rfl, rfl⟩, Nat.zero_le 1, Nat.zero_le 1⟩
    · rw [show (s.newCall callId roomId).call a = s.call a from Function.update_of_ne ha _ _]
      exact h.call a
  inHands := by
    intro i hlive hi
    obtain ⟨hmade, hstate, hheld⟩ := h.inHands i hlive hi
    refine ⟨Nat.lt_succ_of_lt hmade, ?_⟩
    rw [show (s.newCall callId roomId).call ((s.newCall callId roomId).owner i) =
      s.call (s.owner i) from Function.update_of_ne (Nat.ne_of_lt hmade) _ _]
    exact ⟨hstate, hheld⟩
  unmade := fun a ha => h.unmade a (Nat.le_of_succ_le ha)
  tasks := fun task htask => Nat.lt_succ_of_lt (h.tasks task htask)
  callList := fun callId' a hget => Nat.lt_succ_of_lt (h.callList callId' a hget)
  successor := by
    intro a b hb
    by_cases ha : a = s.created
    · rw [ha, show (s.newCall callId roomId).call s.created = .new callId roomId from
        Function.update_self _ _ _] at hb
      exact nomatch hb
    · rw [show (s.newCall callId roomId).call a = s.call a from
        Function.update_of_ne ha _ _] at hb
      exact Nat.lt_succ_of_lt (h.successor a b hb)

theorem Inv.clientRegister (h : Inv x s) (callId : String) (hmade : a < s.created) :
    Inv x (s.register callId a) := by
  rw [Client.register]
  split
  · exact h
  · exact h.register callId hmade

/-- The call of an invite is made. -/
theorem Inv.initWithInvite (h : Inv none s) (hmade : a < s.created)
    (hinbound : (s.call a).outbound = false) (hnot : (s.call a).state ≠ .ended)
    (hstream : (s.call a).localAVStream = none) (content : CallContent χ) :
    Inv none (afterwards (s.initWithInvite a content)) ∧
      ∀ s', s.initWithInvite a content = .ok s' → Ready s' a := by
  have hconnected : Inv none (s.modify a fun call => { call with peerConn := some [] }) :=
    h.modify (h.keepsEnd Iff.rfl rfl rfl rfl rfl rfl)
  have hringing : Inv none ((s.modify a fun call =>
      { call with peerConn := some [] }).setState a .ringing) := by
    refine hconnected.setState ?_ fun hcontra => by cases hcontra
    rw [modify_call_self]
    exact hnot
  have hready : Ready ((s.modify a fun call =>
      { call with peerConn := some [] }).setState a .ringing) a := by
    refine ⟨hmade, ?_, ?_, ?_⟩
    · rw [Client.setState, modify_call_self, modify_call_self]
      exact hinbound
    · rw [Client.setState, modify_call_self]
      rintro ⟨⟩
    · rw [Client.setState, modify_call_self, modify_call_self]
      exact hstream
  unfold Client.initWithInvite
  split
  · exact ⟨hconnected, fun _ hcontra => by cases hcontra⟩
  · split
    · refine ⟨hringing.addTask (t := .inviteExpires a) hmade, fun s' hs' => ?_⟩
      obtain rfl := Except.ok.inj hs'
      exact ⟨hready.made, hready.inbound, hready.notEnded, hready.noStream⟩
    · refine ⟨hringing, fun s' hs' => ?_⟩
      obtain rfl := Except.ok.inj hs'
      exact hready

/-- What each turn of a loop keeps, whether it returns or throws. -/
theorem afterwards_foldlM {σ β : Type*} {P : σ → Prop} {f : σ → β → Except σ σ}
    (hf : ∀ s b, P s → P (afterwards (f s b))) (l : List β) :
    ∀ s, P s → P (afterwards (l.foldlM f s)) := by
  induction l with
  | nil => exact fun _ hs => hs
  | cons b l ih =>
    intro s hs
    rw [List.foldlM_cons]
    refine afterwards_bind (hf s b hs) fun s' hs' => ih s' ?_
    have hturn := hf s b hs
    rw [hs'] at hturn
    exact hturn

theorem Inv.gotRemoteIceCandidate (h : Inv none s) (a : ℕ) (cand : Option χ) :
    Inv none (afterwards (s.gotRemoteIceCandidate a cand)) := by
  obtain ⟨peerConn, heq⟩ := gotRemoteIceCandidate_spec s a cand
  rw [heq]
  exact h.modify (h.keepsEnd Iff.rfl rfl rfl rfl rfl rfl)

theorem Ready.gotRemoteIceCandidate (h : Ready s a) (cand : Option χ) :
    Ready (afterwards (s.gotRemoteIceCandidate a cand)) a := by
  obtain ⟨peerConn, heq⟩ := gotRemoteIceCandidate_spec s a cand
  rw [heq]
  refine ⟨h.made, ?_, ?_, ?_⟩ <;> rw [modify_call_self]
  · exact h.inbound
  · exact h.notEnded
  · exact h.noStream

theorem playBack_keeps (h : Inv none s) (hready : Ready s a) (callId : String) :
    Inv none (afterwards (s.playBack callId a)) ∧ Ready (afterwards (s.playBack callId a)) a := by
  have hkeeps : ∀ (s : Client χ) (cand : Option χ), Inv none s ∧ Ready s a →
      Inv none (afterwards (s.gotRemoteIceCandidate a cand)) ∧
        Ready (afterwards (s.gotRemoteIceCandidate a cand)) a :=
    fun s cand hs => ⟨hs.1.gotRemoteIceCandidate a cand, hs.2.gotRemoteIceCandidate cand⟩
  rw [Client.playBack]
  split
  · exact afterwards_foldlM (P := fun s => Inv none s ∧ Ready s a) hkeeps _ s ⟨h, hready⟩
  · exact afterwards_foldlM (P := fun s => Inv none s ∧ Ready s a) hkeeps _ s ⟨h, hready⟩
  · exact ⟨h, hready⟩

theorem Inv.onInvite (h : Inv none s) (userId : String) (content : CallContent χ) :
    Inv none (afterwards (s.onInvite userId content)) := by
  unfold Client.onInvite
  split
  · exact h
  · split
    · exact h
    · split
      · exact h
      · have hmade : (s.newCall content.key content.roomId).call s.created =
            .new content.key content.roomId := Function.update_self _ _ _
        obtain ⟨hinit, hready⟩ := (h.newCall content.key content.roomId).initWithInvite
          (Nat.lt_succ_self s.created) (by rw [hmade]; rfl) (by rw [hmade]; exact nofun)
          (by rw [hmade]; rfl) content
        refine afterwards_bind hinit fun s₁ hs₁ => ?_
        rw [hs₁] at hinit
        have hinit : Inv none s₁ := hinit
        have hready₁ := hready s₁ hs₁
        have hregistered := hinit.clientRegister content.key hready₁.made
        have hreadyRegistered : Ready (s₁.register content.key s.created) s.created := by
          unfold Client.register
          split
          · exact hready₁
          · exact ⟨hready₁.made, hready₁.inbound, hready₁.notEnded, hready₁.noStream⟩
        obtain ⟨hplayed, hreadyPlayed⟩ := playBack_keeps hregistered hreadyRegistered content.key
        refine afterwards_bind hplayed fun s₂ hs₂ => ?_
        rw [hs₂] at hplayed hreadyPlayed
        exact Inv.announce hplayed hreadyPlayed

theorem Inv.receivedAnswer (h : Inv none s) (a : ℕ) (described : Bool) :
    Inv none (afterwards (s.receivedAnswer a described)) := by
  unfold Client.receivedAnswer
  split
  · exact h
  next hnot =>
    split
    · exact h.setState hnot nofun
    · exact h

theorem Inv.onAnswer (h : Inv none s) (userId : String) (content : CallContent χ) :
    Inv none (afterwards (s.onAnswer userId content)) := by
  unfold Client.onAnswer
  split
  · exact h
  · split <;> exact h
  next a ha =>
    split
    · split
      next hringing =>
        have hnot : (s.call a).state ≠ .ended := by
          rw [hringing]
          exact nofun
        exact h.onAnsweredElsewhere hnot
      · exact h
    · exact h.receivedAnswer a content.answer

theorem Inv.onCandidates (h : Inv none s) (userId : String) (content : CallContent χ) :
    Inv none (afterwards (s.onCandidates userId content)) := by
  unfold Client.onCandidates
  split
  · exact h
  · split
    · exact ⟨h.call, h.inHands, h.unmade, h.tasks, h.callList, h.successor⟩
    · exact h
    next a candidates hfound hcandidates =>
      exact afterwards_foldlM (fun s cand hs => hs.gotRemoteIceCandidate a cand) candidates s h
    · exact h
    · exact h

theorem Inv.onHangup (h : Inv none s) (content : CallContent χ) :
    Inv none (afterwards (s.onHangup content)) := by
  unfold Client.onHangup
  split
  · have hnone : ((s.newCall content.key content.roomId).setState s.created .ended).live =
        (((s.newCall content.key content.roomId).setState s.created .ended).stopAllMedia
          s.created).live := by
      funext i
      show s.live i = (s.live i && !((((s.newCall content.key content.roomId).setState s.created
        .ended).call s.created).held.contains i))
      rw [Client.setState, modify_call_self, show (s.newCall content.key content.roomId).call
        s.created = .new content.key content.roomId from Function.update_self _ _ _]
      exact (Bool.and_true _).symm
    have hended := (h.newCall content.key content.roomId).endCall s.created
    have hended : Inv none ((s.newCall content.key content.roomId).setState s.created .ended) :=
      ⟨hended.call, fun i hlive => hended.inHands i (hnone ▸ hlive), hended.unmade, hended.tasks,
        hended.callList, hended.successor⟩
    exact hended.clientRegister content.key (Nat.lt_succ_self s.created)
  · exact h
  next a ha =>
    split
    · exact h
    next hnot =>
      have hended := h.onHangupReceived hnot
      refine ⟨hended.call, hended.inHands, hended.unmade, hended.tasks, fun callId b hget => ?_,
        hended.successor⟩
      have hget : ((s.onHangupReceived a).callList.delete content.key).get callId = some b := hget
      rw [JsObject.get_delete] at hget
      split at hget
      · cases hget
      · exact hended.callList callId b hget

/-- **The handler does no harm**, to any event of a call. -/
theorem Inv.callEventHandler (h : Inv none s) (userId type : String) (content : CallContent χ) :
    Inv none (afterwards (s.callEventHandler userId type content)) := by
  unfold Client.callEventHandler
  split
  · exact h.onInvite userId content
  · split
    · exact h.onAnswer userId content
    · split
      · exact h.onCandidates userId content
      · split
        · exact h.onHangup content
        · exact h

/-! ## Runs -/

/-- The task is no longer under way. -/
theorem Inv.eraseTask (h : Inv x s) (task : Task) :
    Inv x { s with tasks := s.tasks.erase task } :=
  ⟨h.call, h.inHands, h.unmade, fun task' htask' => h.tasks task' (List.mem_of_mem_erase htask'),
    h.callList, h.successor⟩

/-- **A task that comes in time** does no harm. -/
theorem Inv.complete (h : Inv none s) {task : Task} (hmade : taskCall task < s.created)
    (htime : InTime s task outcome) : Inv none (s.complete task outcome) := by
  cases task with
  | displayMedia a => exact h.gotDisplayMedia hmade htime
  | userMediaForInvite a => exact h.maybeGotUserMediaForInvite hmade htime
  | userMediaForAnswer a => exact h.maybeGotUserMedia hmade htime
  | createOffer a =>
    cases outcome with
    | succeeds =>
      show Inv none (s.gotLocalOffer a)
      rw [Client.gotLocalOffer]
      split
      · exact h
      · exact h.addTask hmade
    | permissionDenied => exact h
    | fails => exact h
  | setLocalOffer a =>
    cases outcome with
    | succeeds =>
      exact (h.sendEvent (e := .invite a) nofun).addTask (t := .sendInvite a) hmade
    | permissionDenied => exact h
    | fails => exact h
  | sendInvite a =>
    cases outcome with
    | succeeds =>
      exact (h.setState (c := .inviteSent) htime nofun).addTask (t := .inviteTimeout a) hmade
    | permissionDenied => exact h.getUserMediaFailed a
    | fails => exact h.getUserMediaFailed a
  | inviteTimeout a =>
    show Inv none (s.inviteTimeout a)
    rw [Client.inviteTimeout]
    split
    · exact h.hangup hmade false
    · exact h
  | createAnswer a =>
    cases outcome with
    | succeeds => exact h.addTask (t := .setLocalAnswer a) hmade
    | permissionDenied => exact h
    | fails => exact h
  | setLocalAnswer a =>
    cases outcome with
    | succeeds =>
      have hset : Inv none (s.modify a fun call => { call with answerContent := true }) :=
        h.modify (h.keepsEnd Iff.rfl rfl rfl rfl rfl rfl)
      exact (hset.sendEvent (e := .answer a) nofun).addTask (t := .sendAnswer a) hmade
    | permissionDenied => exact h
    | fails => exact h
  | sendAnswer a =>
    cases outcome with
    | succeeds => exact h.setState htime nofun
    | permissionDenied => exact h.setState htime nofun
    | fails => exact h.setState htime nofun
  | inviteExpires a => exact h.inviteExpires a

/-- The remote stream ends, of a call that has not told of its end. -/
theorem Inv.onRemoteStreamEnded (h : Inv x s) (hfirst : (s.call a).hangups = 0) :
    Inv x (s.onRemoteStreamEnded a) :=
  (h.endCall a).emitHangup (endCall_state s a) ((endCall_hangups s a).trans hfirst)

theorem Inv.onIceConnectionStateChanged (h : Inv none s) (hmade : a < s.created)
    (ice : IceConnectionState) : Inv none (s.onIceConnectionStateChanged a ice) := by
  unfold Client.onIceConnectionStateChanged
  split
  · exact h
  next hnot =>
    cases ice with
    | connected => exact h.setState hnot nofun
    | failed => exact h.hangup hmade false
    | other => exact h

/-- **One step that is harmless** keeps the invariant. -/
theorem Inv.step (h : Inv none s) {userId : String} {e : CallsEvent χ} {s' : Client χ}
    (hharmless : Harmless s e) (hstep : CallEnds.step userId s e = some s') : Inv none s' := by
  cases e with
  | callEvent type content =>
    obtain rfl := Option.some.inj hstep
    exact h.callEventHandler userId type content
  | calls event =>
    have hstep : s.localStep event = some s' := hstep
    cases event with
    | createCall callId roomId =>
      obtain ⟨-, heq⟩ := Option.ite_none_right_eq_some.1 hstep
      obtain rfl := Option.some.inj heq
      exact h.newCall callId roomId
    | placeCall a =>
      obtain ⟨hmade, heq⟩ := Option.ite_none_right_eq_some.1 hstep
      obtain rfl := Option.some.inj heq
      exact h.placeCallWithConstraints hmade hharmless
    | placeScreenSharingCall a =>
      obtain ⟨hmade, heq⟩ := Option.ite_none_right_eq_some.1 hstep
      obtain rfl := Option.some.inj heq
      exact h.addTask hmade
    | answer a =>
      obtain ⟨hmade, heq⟩ := Option.ite_none_right_eq_some.1 hstep
      obtain rfl := Option.some.inj heq
      exact h.answer hmade hharmless
    | hangup a suppressEvent =>
      obtain ⟨hmade, heq⟩ := Option.ite_none_right_eq_some.1 hstep
      obtain rfl := Option.some.inj heq
      exact h.hangup hmade suppressEvent
    | completes task outcome =>
      obtain ⟨htask, heq⟩ := Option.ite_none_right_eq_some.1 hstep
      obtain rfl := Option.some.inj heq
      exact (h.eraseTask task).complete (h.tasks task htask) hharmless
    | iceConnectionStateChanges a ice =>
      obtain ⟨⟨hmade, -⟩, heq⟩ := Option.ite_none_right_eq_some.1 hstep
      obtain rfl := Option.some.inj heq
      exact h.onIceConnectionStateChanged hmade ice
    | streamAdded a =>
      obtain ⟨-, heq⟩ := Option.ite_none_right_eq_some.1 hstep
      obtain rfl := Option.some.inj heq
      exact h.modify (h.keepsEnd Iff.rfl rfl rfl rfl rfl rfl)
    | remoteStreamStarts a start =>
      obtain ⟨-, heq⟩ := Option.ite_none_right_eq_some.1 hstep
      obtain rfl := Option.some.inj heq
      cases start <;> exact h.setState hharmless nofun
    | remoteStreamEnds a =>
      obtain ⟨-, heq⟩ := Option.ite_none_right_eq_some.1 hstep
      obtain rfl := Option.some.inj heq
      exact h.onRemoteStreamEnded hharmless

/-- bob calls; the call is answered, connects and is hung up. -/
def answerAndHangUp : List (CallsEvent String) :=
  [.callEvent "m.call.invite"
      ⟨"@bob", "!room", none, some 60000, some "1", true, false, none⟩,
    .calls (.answer 0), .calls (.completes (.userMediaForAnswer 0) .succeeds),
    .calls (.completes (.createAnswer 0) .succeeds),
    .calls (.completes (.setLocalAnswer 0) .succeeds),
    .calls (.completes (.sendAnswer 0) .succeeds),
    .calls (.iceConnectionStateChanges 0 .connected), .calls (.hangup 0 false)]

theorem answerAndHangUp_runs : ((system String "@alice").run answerAndHangUp).isSome := by
  decide +kernel

/-- A call is placed and hung up, and only then the user grants the microphone. -/
def hangUpBeforeMedia : List (CallsEvent String) :=
  [.calls (.createCall "c1" "!room"), .calls (.placeCall 0), .calls (.hangup 0 false),
    .calls (.completes (.userMediaForInvite 0) .succeeds)]

theorem hangUpBeforeMedia_runs : ((system String "@alice").run hangUpBeforeMedia).isSome := by
  decide +kernel

end MatrixSdk.Calls.CallEnds
