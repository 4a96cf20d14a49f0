/-
How often an outbound group session is used, and what `forceDiscardSession` does: two things that
the preparations of a room ([`MegolmState`]) hand on from one to the next.

Of the state only an outline matters here: which session `_setupPromise` holds, the jobs
that wait for it, the preparation that runs, the calls that have their session and are yet to
encrypt, and the use counts. [`setupStep_of_step`] says once what each step does to the outline.

The use count of a session goes up when a message has been encrypted, and is looked at when a
preparation starts. In between, the calls that have been given the session are counted nowhere.
[`rotation_and_discard`] says when this does no harm, and that a discarded session is not used
again.
-/
import MatrixSdk.Crypto.MegolmEncryption
import Mathlib.Data.List.Perm.Basic

set_option autoImplicit false

namespace MatrixSdk.Crypto

open MatrixSdk.Lib

/-! ## The outline of a state -/

/-- A preparation: its number, its call and its session, which `_prepareNewSession` may be about to
make. -/
structure RunningCall where
  id : ℕ
  call : MegolmCall
  session : ℕ
  creating : Bool

/-- What the handing on of sessions is about. -/
structure SetupOutline where
  useCount : ℕ → ℕ
  nextSession : ℕ
  nextPrepare : ℕ
  setup : Option ℕ
  queue : List SetupJob
  running : Option RunningCall
  prepared : List (MegolmCall × ℕ)
  /-- The sessions of the messages. -/
  encrypted : List ℕ

def Preparing.outline (prepare : Preparing) : RunningCall where
  id := prepare.id
  call := prepare.call
  session := prepare.session
  creating := match prepare.stage with
    | .creating => true
    | _ => false

def MegolmState.outline (s : MegolmState) : SetupOutline where
  useCount session := (s.sessions session).useCount
  nextSession := s.nextSession
  nextPrepare := s.nextPrepare
  setup := s.setup
  queue := s.queue
  running := s.running.map Preparing.outline
  prepared := s.prepared
  encrypted := s.encrypted.map MessageEncrypted.session

/-- The steps in which keys are shared: they belong to a preparation, or to the background. -/
def MegolmStep.shares : MegolmStep → Bool
  | .call _ | .forceDiscardSession | .start _ | .encrypt .. => false
  | _ => true

/-- What a step can do to the outline. -/
inductive SetupStep (config : RotationConfig) (s : MegolmState) : MegolmStep → SetupOutline → Prop
  | call (call : MegolmCall) : SetupStep config s (.call call)
      { s.outline with queue := s.outline.queue ++ [.prepareSession call] }
  | forceDiscardSession : SetupStep config s .forceDiscardSession
      { s.outline with queue := s.outline.queue ++ [.forceDiscardSession] }
  | discards (now : ℤ) (queue : List SetupJob) : s.outline.running = none →
      s.outline.queue = .forceDiscardSession :: queue →
        SetupStep config s (.start now) { s.outline with queue := queue, setup := none }
  | takesOver (now : ℤ) (call : MegolmCall) (queue : List SetupJob) (session : ℕ) :
      s.outline.running = none → s.outline.queue = .prepareSession call :: queue →
        s.outline.setup = some session → s.oldSession config now call = some session →
          SetupStep config s (.start now) { s.outline with
            queue := queue
            nextPrepare := s.outline.nextPrepare + 1
            running := some ⟨s.outline.nextPrepare, call, session, false⟩ }
  | startsNew (now : ℤ) (call : MegolmCall) (queue : List SetupJob) : s.outline.running = none →
      s.outline.queue = .prepareSession call :: queue →
        SetupStep config s (.start now) { s.outline with
          queue := queue
          nextPrepare := s.outline.nextPrepare + 1
          nextSession := s.outline.nextSession + 1
          running := some ⟨s.outline.nextPrepare, call, s.outline.nextSession, true⟩ }
  | created (e : MegolmStep) (r : RunningCall) : e.shares → s.outline.running = some r →
      r.creating = true → SetupStep config s e { s.outline with
        useCount := Function.update s.outline.useCount r.session 0
        running := some { r with creating := false } }
  | same (e : MegolmStep) : e.shares → SetupStep config s e s.outline
  | fulfil (e : MegolmStep) (r : RunningCall) : e.shares → s.outline.running = some r →
      r.creating = false → SetupStep config s e { s.outline with
        setup := some r.session
        running := none
        prepared := if r.call.encrypts then s.outline.prepared ++ [(r.call, r.session)]
          else s.outline.prepared }
  | reject (e : MegolmStep) (r : RunningCall) (setup : Option ℕ) : e.shares →
      s.outline.running = some r → (∀ session, setup = some session → session = r.session) →
        SetupStep config s e { s.outline with setup := setup, running := none }
  | encrypt (i : ℕ) (call : MegolmCall) (session : ℕ) :
      s.outline.prepared[i]? = some (call, session) → SetupStep config s (.encrypt i true)
        { s.outline with
          useCount := Function.update s.outline.useCount session (s.outline.useCount session + 1)
          prepared := s.outline.prepared.eraseIdx i
          encrypted := s.outline.encrypted ++ [session] }
  | encryptFails (i : ℕ) : SetupStep config s (.encrypt i false)
        { s.outline with prepared := s.outline.prepared.eraseIdx i }

/-! ## What a step does to the outline -/

namespace MegolmState

variable {s t : MegolmState} {config : RotationConfig} {e : MegolmStep}

theorem outline_tasks (s : MegolmState) (tasks : List ShareTask) :
    ({ s with tasks := tasks } : MegolmState).outline = s.outline := rfl

theorem useCount_markFailed (session : OutboundSessionInfo) (chainIndex : ℕ)
    (failed : List DeviceRef) :
    (failed.foldl (OutboundSessionInfo.markSharedWithDevice chainIndex) session).useCount =
      session.useCount := by
  induction failed generalizing session with
  | nil => rfl
  | cons device failed ih =>
    rw [List.foldl_cons, ih]
    rfl

/-- Marking devices leaves the use counts alone. -/
theorem outline_markFailed (s : MegolmState) (task : ShareTask) (failed : List DeviceRef) :
    (s.markFailed task failed).outline = s.outline := by
  unfold markFailed updateSession outline
  congr 1
  funext session
  dsimp only
  by_cases hsession : session = task.session
  · subst hsession
    rw [Function.update_self, useCount_markFailed]
  · rw [Function.update_of_ne hsession]

/-- What the end of a branch does: nothing, or it settles the promise of the preparation. -/
theorem setupStep_branchDone (he : e.shares) (h : t.outline = s.outline) (owner : Option ℕ)
    (ok : Bool) : SetupStep config s e (t.branchDone owner ok).outline := by
  have hsame : SetupStep config s e t.outline := by
    rw [h]
    exact .same e he
  have hrun : ∀ prepare, t.running = some prepare → s.outline.running = some prepare.outline := by
    intro prepare hrunning
    rw [← h]
    show t.running.map Preparing.outline = _
    rw [hrunning, Option.map_some]
  unfold branchDone
  split
  · exact hsame
  next prepare hrunning =>
    split
    · split
      · split
        next unfinished hstage =>
          -- one branch less, which the outline does not see
          have heq : ({ t with running := some { prepare with
              stage := .sharing (unfinished + 1) } } : MegolmState).outline = t.outline := by
            unfold outline
            rw [hrunning, Option.map_some, Option.map_some]
            unfold Preparing.outline
            rw [hstage]
          rw [heq]
          exact hsame
        next unfinished hstage =>
          have hfulfil : SetupStep config s e _ := SetupStep.fulfil e prepare.outline he
            (hrun prepare hrunning) (by unfold Preparing.outline; rw [hstage])
          rw [← h] at hfulfil
          exact hfulfil
        · exact hsame
      · have hreject : SetupStep config s e _ := SetupStep.reject e prepare.outline
          (some prepare.session) he (hrun prepare hrunning) fun _ hsession =>
            (Option.some.inj hsession).symm
        rw [← h] at hreject
        exact hreject
    · exact hsame

variable {deviceCurve25519Key : String}

/-- The second half of `prepareSession` goes on with the preparation that is running. -/
theorem outline_shareSession (s : MegolmState) (id session : ℕ) (call : MegolmCall) :
    (s.shareSession deviceCurve25519Key id call session).outline =
      { s.outline with running := some ⟨id, call, session, false⟩ } := rfl

/-- **What a step does to the outline.** -/
theorem setupStep_of_step (h : (megolmSystem deviceCurve25519Key config).step s e = some t) :
    SetupStep config s e t.outline := by
  cases e with
  | call call =>
    obtain rfl := Option.some.inj h
    exact .call call
  | forceDiscardSession =>
    obtain rfl := Option.some.inj h
    exact .forceDiscardSession
  | start now =>
    unfold megolmSystem at h
    dsimp only at h
    split at h
    next call queue hrunning hqueue =>
      obtain rfl := Option.some.inj h
      have hrun : s.outline.running = none := by
        show s.running.map Preparing.outline = none
        rw [hrunning, Option.map_none]
      unfold prepareSession
      split
      next session hold =>
        have hold : s.oldSession config now call = some session := hold
        have hsetup : s.setup = some session := (Option.filter_eq_some_iff.1 hold).1
        exact .takesOver now call queue session hrun hqueue hsetup hold
      · exact .startsNew now call queue hrun hqueue
    next queue hrunning hqueue =>
      obtain rfl := Option.some.inj h
      refine .discards now queue ?_ hqueue
      show s.running.map Preparing.outline = none
      rw [hrunning, Option.map_none]
    · exact nomatch h
  | created now =>
    unfold megolmSystem at h
    dsimp only at h
    split at h
    next id call session hrunning =>
      have hrun : s.outline.running = some ⟨id, call, session, true⟩ := by
        show s.running.map Preparing.outline = _
        rw [hrunning, Option.map_some]
        rfl
      split at h
      · obtain rfl := Option.some.inj h
        exact .reject _ _ none rfl hrun fun _ hsession => nomatch hsession
      next now =>
        obtain rfl := Option.some.inj h
        rw [outline_shareSession]
        have hcreated : SetupStep config s (.created (some now)) _ :=
          SetupStep.created _ _ rfl hrun rfl
        have heq : (s.updateSession session fun _ => .new now).outline =
            { s.outline with useCount := Function.update s.outline.useCount session 0 } := by
          unfold updateSession outline
          congr 1
          funext session'
          dsimp only
          by_cases hsession : session' = session
          · subst hsession
            rw [Function.update_self, Function.update_self]
            rfl
          · rw [Function.update_of_ne hsession, Function.update_of_ne hsession]
        rw [heq]
        exact hcreated
    · exact nomatch h
  | lookedUp hasSession =>
    unfold megolmSystem at h
    dsimp only at h
    split at h
    next id call session shareMap chainIndex hrunning =>
      have hrun : s.outline.running = some ⟨id, call, session, false⟩ := by
        show s.running.map Preparing.outline = _
        rw [hrunning, Option.map_some]
        rfl
      split at h
      · obtain rfl := Option.some.inj h
        exact .reject _ _ (some session) rfl hrun fun _ hsession =>
          (Option.some.inj hsession).symm
      next hasSession =>
        obtain rfl := Option.some.inj h
        have heq : (s.startBranches ⟨id, call, session, .lookingUp shareMap chainIndex⟩ shareMap
            chainIndex hasSession).outline = s.outline := by
          unfold startBranches outline
          rw [hrunning]
          rfl
        rw [heq]
        exact .same _ rfl
    · exact nomatch h
  | claimed i hasSession =>
    unfold megolmSystem at h
    dsimp only at h
    split at h
    next task htask =>
      split at h
      · split at h
        · obtain rfl := Option.some.inj h
          exact setupStep_branchDone rfl (outline_tasks s _) _ _
        · obtain rfl := Option.some.inj h
          exact .same _ rfl
      · exact nomatch h
    · exact nomatch h
  | send i canEncrypt =>
    unfold megolmSystem at h
    dsimp only at h
    split at h
    next task htask =>
      split at h
      · split at h
        · obtain rfl := Option.some.inj h
          exact setupStep_branchDone rfl (outline_tasks s _) _ _
        · obtain rfl := Option.some.inj h
          exact .same _ rfl
      · exact nomatch h
    · exact nomatch h
  | sent i ok =>
    unfold megolmSystem at h
    dsimp only at h
    split at h
    next task htask =>
      split at h
      · split at h
        · obtain rfl := Option.some.inj h
          rw [outline_markFailed]
          exact .same _ rfl
        · obtain rfl := Option.some.inj h
          exact setupStep_branchDone rfl (outline_tasks s _) _ _
      · exact nomatch h
    · exact nomatch h
  | finish i fast failedServer =>
    unfold megolmSystem at h
    dsimp only at h
    split at h
    next task htask =>
      split at h
      next failed hphase =>
        obtain rfl := Option.some.inj h
        have hnotify : SetupStep config s (.finish i fast failedServer) ({ s.markFailed task failed
            with tasks := s.tasks.set i { task with phase := .notifying } } :
              MegolmState).outline := by
          rw [outline_tasks, outline_markFailed]
          exact .same _ rfl
        unfold finishTask
        split
        · exact setupStep_branchDone rfl (outline_tasks s _) _ _
        · exact hnotify
        · split
          · exact setupStep_branchDone rfl (outline_tasks s _) _ _
          · exact hnotify
      · exact nomatch h
    · exact nomatch h
  | notified i ok =>
    unfold megolmSystem at h
    dsimp only at h
    split at h
    next task htask =>
      split at h
      · obtain rfl := Option.some.inj h
        exact setupStep_branchDone rfl (outline_tasks s _) _ _
      · exact nomatch h
    · exact nomatch h
  | encrypt i ok =>
    unfold megolmSystem at h
    dsimp only at h
    split at h
    next call session hprepared =>
      obtain rfl := Option.some.inj h
      cases ok with
      | false => exact .encryptFails i
      | true =>
        have heq : (({ s with prepared := s.prepared.eraseIdx i } : MegolmState).encryptMessage
            call session).outline = { s.outline with
              useCount := Function.update s.outline.useCount session
                (s.outline.useCount session + 1)
              prepared := s.outline.prepared.eraseIdx i
              encrypted := s.outline.encrypted ++ [session] } := by
          unfold encryptMessage updateSession outline
          dsimp only
          rw [List.map_append]
          congr 1
          funext session'
          by_cases hsession : session' = session
          · subst hsession
            rw [Function.update_self, Function.update_self]
          · rw [Function.update_of_ne hsession, Function.update_of_ne hsession]
        rw [if_pos rfl, heq]
        exact .encrypt i call session hprepared
    · exact nomatch h

end MegolmState

/-! ## Runs in which the calls are told apart -/

/-- How many calls there are in the queue. -/
def waitingCalls (queue : List SetupJob) : ℕ :=
  queue.countP fun
    | .prepareSession _ => true
    | .forceDiscardSession => false

/-- How many calls have read their devices so far. The preparations take them in this order, so the
number of a call is that of its preparation. -/
def MegolmState.callsMade (s : MegolmState) : ℕ := s.nextPrepare + waitingCalls s.queue

/-- A state, with the number and the session of each call in `prepared` and of each message, and
what there was at each `forceDiscardSession`: the number of calls and of sessions. -/
structure MegolmCalls where
  state : MegolmState
  waiting : List (ℕ × ℕ)
  messages : List (ℕ × ℕ)
  discards : List (ℕ × ℕ)

namespace MegolmCalls

/-- `waiting` after a step: a call in `prepared` encrypts, or a preparation has been fulfilled. -/
def waitingAfter (r : MegolmCalls) (t : MegolmState) : MegolmStep → List (ℕ × ℕ)
  | .encrypt i _ => r.waiting.eraseIdx i
  | _ =>
    if r.state.prepared.length < t.prepared.length then
      r.waiting ++ (r.state.running.map fun prepare => (prepare.id, prepare.session)).toList
    else r.waiting

def messagesAfter (r : MegolmCalls) : MegolmStep → List (ℕ × ℕ)
  | .encrypt i true => r.messages ++ r.waiting[i]?.toList
  | _ => r.messages

def discardsAfter (r : MegolmCalls) : MegolmStep → List (ℕ × ℕ)
  | .forceDiscardSession => r.discards ++ [(r.state.callsMade, r.state.nextSession)]
  | _ => r.discards

end MegolmCalls

/-- The runs of [`megolmSystem`], with the numbers of the calls. -/
def megolmCalls (deviceCurve25519Key : String) (config : RotationConfig) :
    System MegolmCalls MegolmStep where
  init := ⟨(megolmSystem deviceCurve25519Key config).init, [], [], []⟩
  step r e := ((megolmSystem deviceCurve25519Key config).step r.state e).map fun t =>
    ⟨t, r.waitingAfter t e, r.messagesAfter e, r.discardsAfter e⟩

namespace MegolmCalls

variable {r r' : MegolmCalls} {config : RotationConfig} {e : MegolmStep}
  {deviceCurve25519Key : String} {o : SetupOutline} {s : MegolmState}
  {tr : List (MegolmCalls × MegolmStep)} {t : MegolmState}

/-! ## The bound on the use of a session -/

/-- How many calls have the session and are yet to encrypt. -/
def pending (s : MegolmState) (session : ℕ) : ℕ := (s.prepared.map Prod.snd).count session

/-- How many messages have been encrypted with the session. -/
def uses (s : MegolmState) (session : ℕ) : ℕ :=
  (s.encrypted.map MessageEncrypted.session).count session

/-- An `encryptMessage` call that takes over a session finds room for its message: what has been
encrypted, and what the calls before it are yet to encrypt, is less than the session is for. -/
def FindsRoom (config : RotationConfig) (r : MegolmCalls) : MegolmStep → Prop
  | .start now => ∀ call queue session, r.state.running = none →
      r.state.queue = .prepareSession call :: queue → call.encrypts = true →
        r.state.oldSession config now call = some session →
          (r.state.sessions session).useCount + pending r.state session < config.rotationPeriodMsgs
  | _ => True

/-- [`FindsRoom`], evaluated. -/
def hasRoom (config : RotationConfig) (r : MegolmCalls) : MegolmStep → Bool
  | .start now =>
    match r.state.queue with
    | .prepareSession call :: _ =>
      match r.state.oldSession config now call with
      | some session =>
        (r.state.sessions session).useCount + pending r.state session < config.rotationPeriodMsgs
      | none => true
    | _ => true
  | _ => true

theorem findsRoom_of_hasRoom (h : hasRoom config r e = true) : FindsRoom config r e := by
  cases e with
  | start now =>
    intro call queue session _ hqueue _ hold
    simpa only [hasRoom, hqueue, hold, decide_eq_true_eq] using h
  | _ => trivial

/-- 1 for the session of the call that is being prepared, if it is to encrypt. -/
def beingPrepared (o : SetupOutline) (session : ℕ) : ℕ :=
  match o.running with
  | some running =>
    if running.call.encrypts ∧ running.creating = false ∧ running.session = session then 1 else 0
  | none => 0

/-- What is known of the sessions of an outline. -/
structure Counted (o : SetupOutline) : Prop where
  setup_lt : ∀ session, o.setup = some session → session < o.nextSession
  running_lt : ∀ running, o.running = some running → running.session < o.nextSession
  prepared_lt : ∀ entry ∈ o.prepared, entry.2 < o.nextSession
  encrypted_lt : ∀ session ∈ o.encrypted, session < o.nextSession
  /-- A session that is being made has not been used. -/
  creating : ∀ running, o.running = some running → running.creating = true →
    running.session ∉ o.prepared.map Prod.snd ∧ running.session ∉ o.encrypted
  count_le : ∀ session, o.encrypted.count session ≤ o.useCount session

/-- The bound, with the messages that are still to come. -/
def Bounded (config : RotationConfig) (o : SetupOutline) : Prop :=
  ∀ session, o.useCount session + (o.prepared.map Prod.snd).count session +
    beingPrepared o session ≤ config.rotationPeriodMsgs

variable (deviceCurve25519Key config) in
theorem counted_init : Counted (megolmSystem deviceCurve25519Key config).init.outline where
  setup_lt _ h := nomatch h
  running_lt _ h := nomatch h
  prepared_lt _ h := absurd h List.not_mem_nil
  encrypted_lt _ h := absurd h List.not_mem_nil
  creating _ h := nomatch h
  count_le _ := Nat.zero_le _

theorem mem_sessions_lt (h : Counted o) {session : ℕ} (hmem : session ∈ o.prepared.map Prod.snd) :
    session < o.nextSession := by
  obtain ⟨entry, hentry, rfl⟩ := List.mem_map.1 hmem
  exact h.prepared_lt entry hentry

/-- **What is known of the sessions is kept** by every step. -/
theorem Counted.step (h : Counted s.outline) (hstep : SetupStep config s e o) : Counted o := by
  cases hstep with
  | call call | forceDiscardSession | same => exact { h with }
  | discards now queue hrunning hqueue =>
    exact { h with setup_lt := fun _ hsetup => nomatch hsetup }
  | takesOver now call queue session hrunning hqueue hsetup hold =>
    refine { h with running_lt := ?_, creating := ?_ }
    · rintro _ ⟨⟩
      exact h.setup_lt session hsetup
    · rintro _ ⟨⟩ hcreating
      exact nomatch hcreating
  | startsNew now call queue hrunning hqueue =>
    refine ⟨fun session hsetup => Nat.lt_succ_of_lt (h.setup_lt session hsetup), ?_,
      fun entry hentry => Nat.lt_succ_of_lt (h.prepared_lt entry hentry),
      fun session hmem => Nat.lt_succ_of_lt (h.encrypted_lt session hmem), ?_, h.count_le⟩
    · rintro _ ⟨⟩
      exact Nat.lt_succ_self _
    · -- the new session has a number that nothing has had before
      rintro _ ⟨⟩ -
      exact ⟨fun hmem => absurd (mem_sessions_lt h hmem) (Nat.lt_irrefl _),
        fun hmem => absurd (h.encrypted_lt _ hmem) (Nat.lt_irrefl _)⟩
  | created _ r hshares hrunning hcreating =>
    refine { h with running_lt := ?_, creating := ?_, count_le := fun session => ?_ }
    · rintro _ ⟨⟩
      exact h.running_lt r hrunning
    · rintro _ ⟨⟩ hnot
      exact nomatch hnot
    · show s.outline.encrypted.count session ≤ Function.update s.outline.useCount r.session 0 session
      by_cases hsession : session = r.session
      · subst hsession
        rw [List.count_eq_zero.2 (h.creating r hrunning hcreating).2]
        exact Nat.zero_le _
      · rw [Function.update_of_ne hsession]
        exact h.count_le session
  | fulfil _ r hshares hrunning hcreating =>
    refine { h with setup_lt := ?_, running_lt := ?_, prepared_lt := ?_, creating := ?_ }
    · rintro _ ⟨⟩
      exact h.running_lt r hrunning
    · exact fun _ hnone => nomatch hnone
    · intro entry hentry
      dsimp only at hentry
      split at hentry
      · rcases List.mem_append.1 hentry with hentry | hentry
        · exact h.prepared_lt entry hentry
        · obtain rfl := List.mem_singleton.1 hentry
          exact h.running_lt r hrunning
      · exact h.prepared_lt entry hentry
    · exact fun _ hnone => nomatch hnone
  | reject _ r setup hshares hrunning hsetup =>
    refine { h with setup_lt := ?_, running_lt := ?_, creating := ?_ }
    · intro session hsession
      rw [hsetup session hsession]
      exact h.running_lt r hrunning
    · exact fun _ hnone => nomatch hnone
    · exact fun _ hnone => nomatch hnone
  | encrypt i call session hprepared =>
    have hmem : (call, session) ∈ s.outline.prepared := List.mem_of_getElem? hprepared
    refine ⟨h.setup_lt, h.running_lt, ?_, ?_, ?_, fun session' => ?_⟩
    · exact fun entry hentry => h.prepared_lt entry (List.mem_of_mem_eraseIdx hentry)
    · intro session' hsession'
      rcases List.mem_append.1 hsession' with hold | hnew
      · exact h.encrypted_lt session' hold
      · obtain rfl := List.mem_singleton.1 hnew
        exact h.prepared_lt _ hmem
    · intro running hrunning hcreating
      obtain ⟨hprep, henc⟩ := h.creating running hrunning hcreating
      constructor
      · rintro hin
        obtain ⟨entry, hentry, heq⟩ := List.mem_map.1 hin
        exact hprep (List.mem_map.2 ⟨entry, List.mem_of_mem_eraseIdx hentry, heq⟩)
      · intro hin
        rcases List.mem_append.1 hin with hold | hnew
        · exact henc hold
        · exact hprep (List.mem_map.2 ⟨_, hmem, (List.mem_singleton.1 hnew).symm⟩)
    · show (s.outline.encrypted ++ [session]).count session' ≤
        Function.update s.outline.useCount session (s.outline.useCount session + 1) session'
      have hle := h.count_le session'
      rw [List.count_append]
      by_cases hsession : session' = session
      · subst hsession
        rw [Function.update_self, List.count_singleton_self]
        omega
      · rw [Function.update_of_ne hsession, List.count_eq_zero.2 fun hmem =>
          hsession (List.mem_singleton.1 hmem)]
        omega
  | encryptFails i =>
    refine { h with prepared_lt := ?_, creating := ?_ }
    · exact fun entry hentry => h.prepared_lt entry (List.mem_of_mem_eraseIdx hentry)
    · intro running hrunning hcreating
      refine ⟨fun hin => ?_, (h.creating running hrunning hcreating).2⟩
      obtain ⟨entry, hentry, heq⟩ := List.mem_map.1 hin
      exact (h.creating running hrunning hcreating).1
        (List.mem_map.2 ⟨entry, List.mem_of_mem_eraseIdx hentry, heq⟩)

/-- The sessions of the calls that wait, with one of them gone. -/
theorem count_eraseIdx {prepared : List (MegolmCall × ℕ)} {i : ℕ} {call : MegolmCall}
    {session : ℕ} (h : prepared[i]? = some (call, session)) (session' : ℕ) :
    (prepared.map Prod.snd).count session' =
      ((prepared.eraseIdx i).map Prod.snd).count session' + if session' = session then 1 else 0 := by
  obtain ⟨hi, heq⟩ := List.getElem?_eq_some_iff.1 h
  have hperm := (List.getElem_cons_eraseIdx_perm hi).map Prod.snd
  rw [← hperm.count_eq, List.map_cons, heq, List.count_cons]
  by_cases hsession : session' = session
  · rw [if_pos hsession, if_pos (by simpa using hsession.symm)]
  · rw [if_neg hsession, if_neg (by simpa using Ne.symm hsession)]

theorem count_eraseIdx_le (prepared : List (MegolmCall × ℕ)) (i session : ℕ) :
    ((prepared.eraseIdx i).map Prod.snd).count session ≤ (prepared.map Prod.snd).count session :=
  ((List.eraseIdx_sublist prepared i).map Prod.snd).count_le session

/-- **The step lemma of the bound.** A preparation counts as a message to come, and all that is
counted stays within the bound if a call that takes over a session finds room. -/
theorem Bounded.step (hn : 1 ≤ config.rotationPeriodMsgs) (hc : Counted s.outline)
    (h : Bounded config s.outline) (hstep : SetupStep config s e o)
    (hroom : ∀ now call session, e = .start now → s.outline.running = none →
      s.outline.queue.head? = some (.prepareSession call) → call.encrypts = true →
        s.oldSession config now call = some session →
          s.outline.useCount session + (s.outline.prepared.map Prod.snd).count session <
            config.rotationPeriodMsgs) : Bounded config o := by
  intro session'
  have hold := h session'
  cases hstep with
  | call call | forceDiscardSession | same => exact hold
  | discards now queue hrunning hqueue => exact hold
  | takesOver now call queue session hrunning hqueue hsetup hsession =>
    show s.outline.useCount session' + (s.outline.prepared.map Prod.snd).count session' +
      (if call.encrypts ∧ false = false ∧ session = session' then 1 else 0) ≤ _
    split
    next hthis =>
      obtain ⟨hencrypts, -, rfl⟩ := hthis
      have := hroom now call session rfl hrunning (by rw [hqueue]; rfl) hencrypts hsession
      omega
    · omega
  | startsNew now call queue hrunning hqueue =>
    show s.outline.useCount session' + (s.outline.prepared.map Prod.snd).count session' +
      (if call.encrypts ∧ true = false ∧ s.outline.nextSession = session' then 1 else 0) ≤ _
    rw [if_neg (by simp)]
    omega
  | created _ r hshares hrunning hcreating =>
    show Function.update s.outline.useCount r.session 0 session' +
      (s.outline.prepared.map Prod.snd).count session' +
        (if r.call.encrypts ∧ false = false ∧ r.session = session' then 1 else 0) ≤ _
    by_cases hsession : session' = r.session
    · -- nothing has been counted of the session that is made
      subst hsession
      rw [Function.update_self, List.count_eq_zero.2 (hc.creating r hrunning hcreating).1]
      split <;> omega
    · rw [Function.update_of_ne hsession, if_neg fun hthis => hsession hthis.2.2.symm]
      omega
  | fulfil _ r hshares hrunning hcreating =>
    unfold beingPrepared at hold
    rw [hrunning] at hold
    dsimp only at hold
    show s.outline.useCount session' + ((if r.call.encrypts then
      s.outline.prepared ++ [(r.call, r.session)] else s.outline.prepared).map
        Prod.snd).count session' + 0 ≤ _
    by_cases hencrypts : r.call.encrypts
    · rw [if_pos hencrypts, List.map_append, List.count_append]
      by_cases hsession : r.session = session'
      · rw [if_pos ⟨hencrypts, hcreating, hsession⟩] at hold
        rw [List.map_singleton, hsession, List.count_singleton_self]
        omega
      · rw [if_neg fun hthis => hsession hthis.2.2] at hold
        rw [List.map_singleton, List.count_eq_zero.2 fun hmem =>
          hsession (List.mem_singleton.1 hmem).symm]
        omega
    · rw [if_neg hencrypts]
      omega
  | reject _ r setup hshares hrunning hsetup =>
    show s.outline.useCount session' + (s.outline.prepared.map Prod.snd).count session' + 0 ≤ _
    omega
  | encrypt i call session hprepared =>
    have hcount := count_eraseIdx hprepared session'
    show Function.update s.outline.useCount session (s.outline.useCount session + 1) session' +
      ((s.outline.prepared.eraseIdx i).map Prod.snd).count session' +
        beingPrepared s.outline session' ≤ _
    by_cases hsession : session' = session
    · subst hsession
      rw [if_pos rfl] at hcount
      rw [Function.update_self]
      omega
    · rw [if_neg hsession] at hcount
      rw [Function.update_of_ne hsession]
      omega
  | encryptFails i =>
    have hcount := count_eraseIdx_le s.outline.prepared i session'
    show s.outline.useCount session' +
      ((s.outline.prepared.eraseIdx i).map Prod.snd).count session' +
        beingPrepared s.outline session' ≤ _
    omega

/-- **No session is used too often** in a run in which the calls that take one over find room. -/
theorem uses_le (hn : 1 ≤ config.rotationPeriodMsgs)
    (h : (megolmCalls deviceCurve25519Key config).Trace tr r)
    (hroom : System.Meets (FindsRoom config) tr) (session : ℕ) :
    uses r.state session ≤ config.rotationPeriodMsgs := by
  have hinv : Counted r.state.outline ∧ Bounded config r.state.outline := by
    refine System.Trace.invariant_under (C := FindsRoom config)
      (P := fun r => Counted r.state.outline ∧ Bounded config r.state.outline) ?_ ?_ h hroom
    · refine ⟨counted_init config deviceCurve25519Key, fun session => ?_⟩
      show 0 + 0 + 0 ≤ _
      omega
    · rintro r e r' ⟨hc, hb⟩ hfinds hstep
      obtain ⟨t, ht, rfl⟩ := Option.map_eq_some_iff.1 hstep
      have hsetup := MegolmState.setupStep_of_step ht
      refine ⟨hc.step hsetup, hb.step hn hc hsetup ?_⟩
      rintro now call session rfl hrunning hqueue hencrypts hsession
      obtain ⟨queue, hqueue⟩ := List.head?_eq_some_iff.1 hqueue
      have hnone : r.state.running = none := Option.map_eq_none_iff.1 hrunning
      exact hfinds call queue session hnone hqueue hencrypts hsession
  have hcount := hinv.1.count_le session
  have hbound := hinv.2 session
  show r.state.outline.encrypted.count session ≤ _
  omega

/-! ## The numbers of the calls -/

/-- A call that waits after a step has waited before, or has been prepared just now. -/
theorem mem_waitingAfter {entry : ℕ × ℕ} (h : entry ∈ r.waitingAfter t e) :
    entry ∈ r.waiting ∨ ∃ running, r.state.outline.running = some running ∧
      entry = (running.id, running.session) := by
  have hgrown : entry ∈ (if r.state.prepared.length < t.prepared.length then
      r.waiting ++ (r.state.running.map fun prepare => (prepare.id, prepare.session)).toList
      else r.waiting) → entry ∈ r.waiting ∨ ∃ running, r.state.outline.running = some running ∧
        entry = (running.id, running.session) := by
    intro h
    split at h
    · rcases List.mem_append.1 h with h | h
      · exact .inl h
      · obtain ⟨prepare, hprepare, rfl⟩ := Option.map_eq_some_iff.1 (Option.mem_toList.1 h)
        refine .inr ⟨prepare.outline, ?_, rfl⟩
        show r.state.running.map Preparing.outline = _
        rw [hprepare, Option.map_some]
    · exact .inl h
  cases e with
  | encrypt i ok => exact .inl (List.mem_of_mem_eraseIdx h)
  | _ => exact hgrown h

theorem mem_messagesAfter {entry : ℕ × ℕ} (h : entry ∈ r.messagesAfter e) :
    entry ∈ r.messages ∨ entry ∈ r.waiting := by
  unfold messagesAfter at h
  split at h
  next i =>
    rcases List.mem_append.1 h with h | h
    · exact .inl h
    · exact .inr (List.mem_of_getElem? (Option.mem_toList.1 h))
  · exact .inl h

/-! ## Discarded sessions -/

/-- Where a discard is that was asked for after `calls` calls, when there were `floor` sessions: in
the queue behind these calls, or done, and what is handed on since then is newer. -/
def Handed (o : SetupOutline) (calls floor : ℕ) : Prop :=
  floor ≤ o.nextSession ∧
    ((∃ before after, o.queue = before ++ .forceDiscardSession :: after ∧
        o.nextPrepare + waitingCalls before = calls) ∨
      calls ≤ o.nextPrepare ∧ (∀ session, o.setup = some session → floor ≤ session) ∧
        ∀ running, o.running = some running → floor ≤ running.session)

/-- The preparation that runs has the number before that of the next one. -/
def RunningLast (o : SetupOutline) : Prop :=
  ∀ running, o.running = some running → running.id < o.nextPrepare

theorem RunningLast.step (h : RunningLast s.outline) (hstep : SetupStep config s e o) :
    RunningLast o := by
  cases hstep with
  | takesOver | startsNew =>
    rintro _ ⟨⟩
    exact Nat.lt_succ_self _
  | created _ r hshares hrunning hcreating =>
    rintro _ ⟨⟩
    exact h r hrunning
  | fulfil | reject => exact fun _ hnone => nomatch hnone
  | _ => exact h

/-- A discard that is behind the next call is behind one call less, once it is prepared. -/
theorem behind_prepared {jobs queue : List SetupJob} {call : MegolmCall} {nextPrepare calls : ℕ}
    (hqueue : jobs = .prepareSession call :: queue)
    (h : ∃ before after, jobs = before ++ .forceDiscardSession :: after ∧
      nextPrepare + waitingCalls before = calls) :
    ∃ before after, queue = before ++ .forceDiscardSession :: after ∧
      nextPrepare + 1 + waitingCalls before = calls := by
  obtain ⟨before, after, hplace, hcalls⟩ := h
  rw [hqueue] at hplace
  cases before with
  | nil => exact nomatch hplace
  | cons job before =>
    obtain ⟨rfl, hrest⟩ := List.cons.inj hplace
    refine ⟨before, after, hrest, ?_⟩
    rw [waitingCalls, List.countP_cons_of_pos rfl] at hcalls
    rw [waitingCalls]
    omega

/-- **The step lemma of a discard.** The calls before it are prepared first; then it is its turn, and
nothing that was there before is handed on. -/
theorem Handed.step {calls floor : ℕ} (h : Handed s.outline calls floor)
    (hstep : SetupStep config s e o) : Handed o calls floor := by
  obtain ⟨hfloor, hplace⟩ := h
  cases hstep with
  | call call =>
    refine ⟨hfloor, hplace.imp ?_ id⟩
    rintro ⟨before, after, hqueue, hcalls⟩
    refine ⟨before, after ++ [.prepareSession call], ?_, hcalls⟩
    show s.outline.queue ++ [_] = _
    rw [hqueue, List.append_assoc, List.cons_append]
  | forceDiscardSession =>
    refine ⟨hfloor, hplace.imp ?_ id⟩
    rintro ⟨before, after, hqueue, hcalls⟩
    refine ⟨before, after ++ [.forceDiscardSession], ?_, hcalls⟩
    show s.outline.queue ++ [_] = _
    rw [hqueue, List.append_assoc, List.cons_append]
  | discards now queue hrunning hqueue =>
    refine ⟨hfloor, ?_⟩
    rcases hplace with ⟨before, after, hplace, hcalls⟩ | ⟨hcalls, -, -⟩
    · rw [hqueue] at hplace
      cases before with
      | nil =>
        refine .inr ⟨?_, fun _ hnone => (nomatch hnone), fun running hsome => ?_⟩
        · exact Nat.le_of_eq hcalls.symm
        · rw [hrunning] at hsome
          exact nomatch hsome
      | cons job before =>
        obtain ⟨rfl, hrest⟩ := List.cons.inj hplace
        exact .inl ⟨before, after, hrest, hcalls⟩
    · refine .inr ⟨hcalls, fun _ hnone => (nomatch hnone), fun running hsome => ?_⟩
      rw [hrunning] at hsome
      exact nomatch hsome
  | takesOver now call queue session hrunning hqueue hsetup hold =>
    refine ⟨hfloor, ?_⟩
    rcases hplace with hplace | ⟨hcalls, hsetups, -⟩
    · exact .inl (behind_prepared hqueue hplace)
    · refine .inr ⟨Nat.le_succ_of_le hcalls, hsetups, ?_⟩
      rintro _ ⟨⟩
      exact hsetups session hsetup
  | startsNew now call queue hrunning hqueue =>
    refine ⟨Nat.le_succ_of_le hfloor, ?_⟩
    rcases hplace with hplace | ⟨hcalls, hsetups, -⟩
    · exact .inl (behind_prepared hqueue hplace)
    · refine .inr ⟨Nat.le_succ_of_le hcalls, hsetups, ?_⟩
      rintro _ ⟨⟩
      exact hfloor
  | created _ r hshares hrunning hcreating =>
    refine ⟨hfloor, hplace.imp id ?_⟩
    rintro ⟨hcalls, hsetups, hrun⟩
    refine ⟨hcalls, hsetups, ?_⟩
    rintro _ ⟨⟩
    exact hrun r hrunning
  | fulfil _ r hshares hrunning hcreating =>
    refine ⟨hfloor, hplace.imp id ?_⟩
    rintro ⟨hcalls, hsetups, hrun⟩
    refine ⟨hcalls, ?_, fun _ hnone => nomatch hnone⟩
    rintro _ ⟨⟩
    exact hrun r hrunning
  | reject _ r setup hshares hrunning hsetup =>
    refine ⟨hfloor, hplace.imp id ?_⟩
    rintro ⟨hcalls, hsetups, hrun⟩
    refine ⟨hcalls, fun session hsession => ?_, fun _ hnone => nomatch hnone⟩
    rw [hsetup session hsession]
    exact hrun r hrunning
  | same | encrypt | encryptFails => exact ⟨hfloor, hplace⟩

/-- What has been asked of a discard holds of the calls that wait and of the messages. -/
structure DiscardKept (r : MegolmCalls) (calls floor : ℕ) : Prop where
  handed : Handed r.state.outline calls floor
  waiting : ∀ entry ∈ r.waiting, calls ≤ entry.1 → floor ≤ entry.2
  messages : ∀ entry ∈ r.messages, calls ≤ entry.1 → floor ≤ entry.2

/-- A preparation whose call came after the discard has a newer session. -/
theorem Handed.running {calls floor : ℕ} (h : Handed o calls floor) (hlast : RunningLast o)
    {running : RunningCall} (hrunning : o.running = some running) (hcall : calls ≤ running.id) :
    floor ≤ running.session := by
  rcases h.2 with ⟨before, after, -, hcalls⟩ | ⟨-, -, hrun⟩
  · have hlt := hlast running hrunning
    omega
  · exact hrun running hrunning

theorem DiscardKept.step {calls floor : ℕ} (h : DiscardKept r calls floor)
    (hlast : RunningLast r.state.outline) (hstep : SetupStep config r.state e t.outline) :
    DiscardKept ⟨t, r.waitingAfter t e, r.messagesAfter e, r.discardsAfter e⟩ calls floor where
  handed := h.handed.step hstep
  waiting entry hentry hcall := by
    rcases mem_waitingAfter hentry with hold | ⟨running, hrunning, rfl⟩
    · exact h.waiting entry hold hcall
    · exact h.handed.running hlast hrunning hcall
  messages entry hentry hcall := by
    rcases mem_messagesAfter hentry with hold | hold
    · exact h.messages entry hold hcall
    · exact h.waiting entry hold hcall

/-- The numbers of the calls that wait, and of the messages, have been given away. -/
structure NumbersUsed (r : MegolmCalls) : Prop where
  last : RunningLast r.state.outline
  waiting : ∀ entry ∈ r.waiting, entry.1 < r.state.nextPrepare
  messages : ∀ entry ∈ r.messages, entry.1 < r.state.nextPrepare

theorem nextPrepare_le (hstep : SetupStep config s e o) :
    s.outline.nextPrepare ≤ o.nextPrepare := by
  cases hstep with
  | takesOver | startsNew => exact Nat.le_succ _
  | _ => exact Nat.le_refl _

theorem NumbersUsed.step (h : NumbersUsed r) (hstep : SetupStep config r.state e t.outline) :
    NumbersUsed ⟨t, r.waitingAfter t e, r.messagesAfter e, r.discardsAfter e⟩ := by
  have hle : r.state.nextPrepare ≤ t.nextPrepare := nextPrepare_le hstep
  refine ⟨h.last.step hstep, fun entry hentry => ?_, fun entry hentry => ?_⟩
  · rcases mem_waitingAfter hentry with hold | ⟨running, hrunning, rfl⟩
    · exact Nat.lt_of_lt_of_le (h.waiting entry hold) hle
    · exact Nat.lt_of_lt_of_le (h.last running hrunning) hle
  · rcases mem_messagesAfter hentry with hold | hold
    · exact Nat.lt_of_lt_of_le (h.messages entry hold) hle
    · exact Nat.lt_of_lt_of_le (h.waiting entry hold) hle

/-- **A discarded session is not used for a later call.** -/
theorem discards_along (h : (megolmCalls deviceCurve25519Key config).Trace tr r) :
    NumbersUsed r ∧ ∀ calls floor, (calls, floor) ∈ r.discards → DiscardKept r calls floor := by
  induction h with
  | start =>
    refine ⟨⟨fun _ hnone => (nomatch hnone), fun _ hmem => ?_, fun _ hmem => ?_⟩,
      fun _ _ hmem => ?_⟩
    · exact absurd hmem List.not_mem_nil
    · exact absurd hmem List.not_mem_nil
    · exact absurd hmem List.not_mem_nil
  | @snoc tr r r' e htr hstep ih =>
    obtain ⟨t, ht, rfl⟩ := Option.map_eq_some_iff.1 hstep
    have hsetup := MegolmState.setupStep_of_step ht
    obtain ⟨hused, hkept⟩ := ih
    refine ⟨hused.step hsetup, fun calls floor hmem => ?_⟩
    have hold : (calls, floor) ∈ r.discards →
        DiscardKept ⟨t, r.waitingAfter t e, r.messagesAfter e, r.discardsAfter e⟩ calls floor :=
      fun hmem => (hkept calls floor hmem).step hused.last hsetup
    cases e with
    | forceDiscardSession =>
      rcases List.mem_append.1 hmem with hmem | hmem
      · exact hold hmem
      · -- this discard: all calls so far are before it in the queue
        obtain ⟨rfl, rfl⟩ := Prod.mk.inj (List.mem_singleton.1 hmem)
        obtain rfl := Option.some.inj ht
        have hlate : ∀ {n : ℕ}, n < r.state.nextPrepare → ¬ r.state.callsMade ≤ n := by
          intro n hn hle
          rw [MegolmState.callsMade] at hle
          omega
        refine ⟨⟨Nat.le_refl _, .inl ⟨r.state.queue, [], rfl, rfl⟩⟩, ?_, ?_⟩
        · intro entry hentry hcall
          have hentry : entry ∈ r.waitingAfter _ .forceDiscardSession := hentry
          rcases mem_waitingAfter hentry with hmem | ⟨running, hrunning, rfl⟩
          · exact absurd hcall (hlate (hused.waiting entry hmem))
          · exact absurd hcall (hlate (hused.last running hrunning))
        · exact fun entry hentry hcall => absurd hcall (hlate (hused.messages entry hentry))
    | _ => exact hold hmem

/-- **How often a session is used, and what a discard does.** In a run in which every
`encryptMessage` call that takes over a session finds room in it, no session encrypts more messages
than `rotation_period_msgs`. In any run, a message of a call made after `forceDiscardSession` is
encrypted with a session made after it too. -/
theorem rotation_and_discard {tr : List (MegolmCalls × MegolmStep)}
    (hn : 1 ≤ config.rotationPeriodMsgs)
    (h : (megolmCalls deviceCurve25519Key config).Trace tr r) :
    (System.Meets (FindsRoom config) tr → ∀ session, uses r.state session ≤
        config.rotationPeriodMsgs) ∧
      ∀ calls floor, (calls, floor) ∈ r.discards → ∀ call session, (call, session) ∈ r.messages →
        calls ≤ call → floor ≤ session :=
  ⟨uses_le hn h, fun calls floor hmem call session hentry hcall =>
    ((discards_along h).2 calls floor hmem).messages (call, session) hentry hcall⟩

end MegolmCalls

/-! ## Two messages at once -/

/-- Sessions that are good for one message. -/
def exampleRotation : System MegolmCalls MegolmStep := megolmCalls "laptop" ⟨1, 604800000⟩

/-- The second call has been made by the time the first one is prepared, and its preparation, which
has no key to send, starts before the first message is encrypted. -/
def messagesAtOnce : List MegolmStep :=
  [.call ⟨roomOf ["alice"], true⟩, .call ⟨roomOf ["alice"], true⟩, .start 0, .created (some 0)] ++
    shareAll ++ [.start 1, .encrypt 0 true, .lookedUp (some fun _ => true),
      .finish 1 true fun _ => false, .claimed 1 (some fun _ => true),
      .finish 1 true fun _ => false, .notified 2 true, .encrypt 0 true]

theorem messagesAtOnce_runs : (exampleRotation.run messagesAtOnce).isSome := by decide

namespace MegolmCalls

/-- Both messages are encrypted with the first session. -/
theorem rotation_fails :
    ¬ ∀ r, exampleRotation.Reachable r → ∀ session, uses r.state session ≤ 1 := by
  intro h
  exact absurd (h _ (System.reachable_get messagesAtOnce_runs) 0) (by decide)

/-- A message, a discard, and another message. -/
def discardBetween : List MegolmStep :=
  [.call ⟨roomOf ["alice"], true⟩, .start 0, .created (some 0)] ++ shareAll ++
    [.encrypt 0 true, .forceDiscardSession, .call ⟨roomOf ["alice"], true⟩, .start 1, .start 1,
      .created (some 1), .lookedUp (some fun _ => true), .send 1 (some fun _ => true), .sent 1 true,
      .finish 1 true fun _ => false, .claimed 1 (some fun _ => true),
      .finish 1 true fun _ => false, .notified 2 true, .encrypt 0 true]

theorem discardBetween_runs : (exampleRotation.run discardBetween).isSome := by decide

def discardedBetween : MegolmCalls := (exampleRotation.run discardBetween).get discardBetween_runs

/-- The second message has a session of its own, and each session has one message. -/
theorem rotation_and_discard_between :
    discardedBetween.discards = [(1, 1)] ∧ discardedBetween.messages = [(0, 0), (1, 1)] ∧
      (∀ session, uses discardedBetween.state session ≤ 1) ∧
      ∀ call session, (call, session) ∈ discardedBetween.messages → 1 ≤ call → 1 ≤ session := by
  obtain ⟨hbound, hdiscard⟩ :=
    rotation_and_discard (Nat.le_refl 1) (System.trace_get discardBetween_runs)
  refine ⟨by decide, by decide, hbound ?_, hdiscard 1 1 (by decide)⟩
  have hroom : ∀ q ∈ exampleRotation.steps discardBetween,
      hasRoom ⟨1, 604800000⟩ q.1 q.2 = true := by
    decide
  exact fun q hq => findsRoom_of_hasRoom (hroom q hq)

end MegolmCalls

end MatrixSdk.Crypto
