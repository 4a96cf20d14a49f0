/-
Calls of `addInboundGroupSession` of `crypto/OlmDevice.js`, one after the other.

A session that is there is replaced by one that can decrypt more, and only for the room it is for.
So what is stored is the session with the lowest first known index of all calls that succeed
([`firstKnownIndex_isLeast`]).

A transaction whose callback throws writes nothing.
-/
import MatrixSdk.Crypto.GroupSessions
import Mathlib.Order.Bounds.Basic

set_option autoImplicit false

namespace MatrixSdk.Crypto

open MatrixSdk.Lib

section Adds

variable {Session Plaintext : Type} (olm : GroupSessions Session Plaintext)

/-! ## A call -/

/-- The session that a call loads: in the export format, or as it is shared. -/
def loadSession (new : NewSession) : Option Session :=
  (if new.exportFormat then olm.importSession else olm.create) new.sessionKey

/-- The call does not throw. -/
def Succeeds (s : GroupSessionStore Session) (new : NewSession) : Prop :=
  (addInboundGroupSession olm s new).isOk = true

/-- The store after a call. -/
def afterAdd (s : GroupSessionStore Session) (new : NewSession) : GroupSessionStore Session :=
  match addInboundGroupSession olm s new with
  | .ok (some data) => s.setSession new.senderKey new.sessionId (some data)
  | _ => s

/-- Calls for one sender key and session id. -/
def addSystem (senderKey sessionId : String) : System (GroupSessionStore Session) NewSession where
  init := .empty
  step s new :=
    if new.senderKey = senderKey ∧ new.sessionId = sessionId then some (afterAdd olm s new)
    else none

variable {olm} {s s' : GroupSessionStore Session} {new : NewSession}

/-- **What a call can do.** It throws, and nothing changes. Or it keeps the session that is there,
for the same room and with an index that is not higher. Or it stores its own one, and one that was
there was for the same room and had a higher index. -/
theorem afterAdd_cases (s : GroupSessionStore Session) (new : NewSession) :
    (¬ Succeeds olm s new ∧ afterAdd olm s new = s) ∨
      ∃ session, loadSession olm new = some session ∧ Succeeds olm s new ∧
        ((∃ data, s.sessions new.senderKey new.sessionId = some data ∧
            data.roomId = new.roomId ∧
            olm.firstKnownIndex data.session ≤ olm.firstKnownIndex session ∧
            afterAdd olm s new = s) ∨
          (∀ data, s.sessions new.senderKey new.sessionId = some data →
            data.roomId = new.roomId ∧
              olm.firstKnownIndex session < olm.firstKnownIndex data.session) ∧
          afterAdd olm s new = s.setSession new.senderKey new.sessionId
            (some ⟨new.roomId, session, new.keysClaimed, new.forwardingKeyChain⟩)) := by
  unfold Succeeds afterAdd loadSession addInboundGroupSession
  dsimp only
  split
  · left
    exact ⟨Bool.false_ne_true, rfl⟩
  · next hroom =>
      -- the session that is there is for the room
      have hsame : ∀ data, s.sessions new.senderKey new.sessionId = some data →
          data.roomId = new.roomId := by
        intro data hdata
        rw [hdata, Option.filter_some] at hroom
        split_ifs at hroom with hne
        exact (not_not.1 fun hne' => hne (decide_eq_true hne')).symm
      split
      · left
        exact ⟨Bool.false_ne_true, rfl⟩
      · next session hload =>
          by_cases hid : new.sessionId ≠ olm.sessionId session
          · left
            simp only [if_pos hid]
            exact ⟨Bool.false_ne_true, trivial⟩
          · right
            refine ⟨session, hload, ?_⟩
            simp only [if_neg hid]
            cases hold : s.sessions new.senderKey new.sessionId with
            | none => exact ⟨rfl, .inr ⟨fun _ hdata => (nomatch hdata), rfl⟩⟩
            | some data =>
              rw [Option.any_some]
              by_cases hle : olm.firstKnownIndex data.session ≤ olm.firstKnownIndex session
              · rw [if_pos (decide_eq_true hle)]
                exact ⟨rfl, .inl ⟨data, rfl, hsame data hold, hle, rfl⟩⟩
              · rw [if_neg (by simpa using hle)]
                refine ⟨rfl, .inr ⟨?_, rfl⟩⟩
                intro data' hdata'
                obtain rfl := Option.some.inj hdata'
                exact ⟨hsame data hold, not_le.1 hle⟩

/-! ## Runs -/

/-- The record of the sender key and session id. -/
structure MinimumSoFar (olm : GroupSessions Session Plaintext)
    (tr : List (GroupSessionStore Session × NewSession))
    (record : Option (InboundGroupSessionData Session)) : Prop where
  /-- Without a record no call has succeeded. -/
  none : record = none → ∀ p ∈ tr, ¬ Succeeds olm p.1 p.2
  /-- Its index is the least one of the calls that have. -/
  least : ∀ data, record = some data → IsLeast {n | ∃ p ∈ tr, Succeeds olm p.1 p.2 ∧
    ∃ session, loadSession olm p.2 = some session ∧ n = olm.firstKnownIndex session}
    (olm.firstKnownIndex data.session)

/-- One record may come after another one: the index is not higher, and the room is the same. -/
def MayFollow (olm : GroupSessions Session Plaintext)
    (record record' : Option (InboundGroupSessionData Session)) : Prop :=
  ∀ data, record = some data → ∃ data', record' = some data' ∧
    olm.firstKnownIndex data'.session ≤ olm.firstKnownIndex data.session ∧
    data'.roomId = data.roomId

theorem MayFollow.refl (record : Option (InboundGroupSessionData Session)) :
    MayFollow olm record record :=
  fun data hdata => ⟨data, hdata, le_rfl, rfl⟩

theorem MayFollow.trans {r₁ r₂ r₃ : Option (InboundGroupSessionData Session)}
    (h12 : MayFollow olm r₁ r₂) (h23 : MayFollow olm r₂ r₃) : MayFollow olm r₁ r₃ := by
  intro data hdata
  obtain ⟨data', hdata', hle, hroom⟩ := h12 data hdata
  obtain ⟨data'', hdata'', hle', hroom'⟩ := h23 data' hdata'
  exact ⟨data'', hdata'', hle'.trans hle, hroom'.trans hroom⟩

/-- What one call does to the record. -/
theorem mayFollow_afterAdd (s : GroupSessionStore Session) (new : NewSession) :
    MayFollow olm (s.sessions new.senderKey new.sessionId)
      ((afterAdd olm s new).sessions new.senderKey new.sessionId) := by
  rcases afterAdd_cases s new with ⟨-, hafter⟩ | ⟨session, -, -, hcases⟩
  · rw [hafter]
    exact .refl _
  · rcases hcases with ⟨data, -, -, -, hafter⟩ | ⟨hold, hafter⟩
    · rw [hafter]
      exact .refl _
    · intro data hdata
      obtain ⟨hroom, hlt⟩ := hold data hdata
      rw [hafter, GroupSessionStore.setSession_sessions, if_pos ⟨rfl, rfl⟩]
      exact ⟨_, rfl, hlt.le, hroom.symm⟩

/-- The record is still the least after one more call. -/
theorem MinimumSoFar.snoc {tr : List (GroupSessionStore Session × NewSession)}
    (h : MinimumSoFar olm tr (s.sessions new.senderKey new.sessionId)) :
    MinimumSoFar olm (tr ++ [(s, new)])
      ((afterAdd olm s new).sessions new.senderKey new.sessionId) := by
  rcases afterAdd_cases s new with ⟨hthrows, hafter⟩ | ⟨session, hload, hsucceeds, hcases⟩
  · -- the call that throws adds nothing
    rw [hafter]
    constructor
    · intro hnone p hp
      rcases List.mem_append.1 hp with hp | hp
      · exact h.none hnone p hp
      · rw [List.mem_singleton.1 hp]
        exact hthrows
    · intro data hdata
      obtain ⟨⟨p, hp, hsucceeds, hindex⟩, hlower⟩ := h.least data hdata
      refine ⟨⟨p, List.mem_append_left _ hp, hsucceeds, hindex⟩, ?_⟩
      rintro n ⟨p', hp', hsucceeds', hindex'⟩
      rcases List.mem_append.1 hp' with hp' | hp'
      · exact hlower ⟨p', hp', hsucceeds', hindex'⟩
      · rw [List.mem_singleton.1 hp'] at hsucceeds'
        exact absurd hsucceeds' hthrows
  · have hnew : (s, new) ∈ tr ++ [(s, new)] :=
      List.mem_append_right _ (List.mem_singleton_self _)
    rcases hcases with ⟨data, hdata, -, hle, hafter⟩ | ⟨hold, hafter⟩
    · rw [hafter]
      refine ⟨fun hnone => absurd (hdata.symm.trans hnone) (Option.some_ne_none data), ?_⟩
      intro data' hdata'
      obtain rfl := Option.some.inj (hdata.symm.trans hdata')
      obtain ⟨⟨p, hp, hsucceeds', hindex⟩, hlower⟩ := h.least data hdata
      refine ⟨⟨p, List.mem_append_left _ hp, hsucceeds', hindex⟩, ?_⟩
      rintro n ⟨p', hp', hsucceeds', session', hload', rfl⟩
      rcases List.mem_append.1 hp' with hp' | hp'
      · exact hlower ⟨p', hp', hsucceeds', session', hload', rfl⟩
      · rw [List.mem_singleton.1 hp'] at hload'
        rw [← Option.some.inj (hload.symm.trans hload')]
        exact hle
    · rw [hafter, GroupSessionStore.setSession_sessions, if_pos ⟨rfl, rfl⟩]
      refine ⟨fun hnone => absurd hnone (Option.some_ne_none _), ?_⟩
      intro data' hdata'
      obtain rfl := Option.some.inj hdata'
      refine ⟨⟨(s, new), hnew, hsucceeds, session, hload, rfl⟩, ?_⟩
      rintro n ⟨p', hp', hsucceeds', session', hload', rfl⟩
      rcases List.mem_append.1 hp' with hp' | hp'
      · -- it succeeded before, so there was a record, with a higher index
        cases hrecord : s.sessions new.senderKey new.sessionId with
        | none => exact absurd hsucceeds' (h.none hrecord p' hp')
        | some data =>
          have hlower := (h.least data hrecord).2 ⟨p', hp', hsucceeds', session', hload', rfl⟩
          exact (hold data hrecord).2.le.trans hlower
      · rw [List.mem_singleton.1 hp'] at hload'
        rw [← Option.some.inj (hload.symm.trans hload')]

variable {senderKey sessionId : String} {tr : List (GroupSessionStore Session × NewSession)}

theorem addSystem_step (h : (addSystem olm senderKey sessionId).step s new = some s') :
    (new.senderKey = senderKey ∧ new.sessionId = sessionId) ∧ s' = afterAdd olm s new := by
  unfold addSystem at h
  dsimp only at h
  split at h
  · next hkey => exact ⟨hkey, (Option.some.inj h).symm⟩
  · exact nomatch h

/-- **The stored session has the least first known index of the calls that have succeeded.** The
index never increases and the room never changes; and a call that throws leaves the record. -/
theorem firstKnownIndex_isLeast (h : (addSystem olm senderKey sessionId).Trace tr s) :
    MinimumSoFar olm tr (s.sessions senderKey sessionId) ∧
      (∀ p ∈ tr, MayFollow olm (p.1.sessions senderKey sessionId)
        (s.sessions senderKey sessionId)) ∧
      ∀ new s', (addSystem olm senderKey sessionId).step s new = some s' →
        ¬ Succeeds olm s new → s' = s := by
  refine ⟨?_, ?_, ?_⟩
  · induction h with
    | start =>
      exact ⟨fun _ p hp => absurd hp List.not_mem_nil, fun _ hdata => nomatch hdata⟩
    | snoc _ hstep ih =>
      obtain ⟨⟨rfl, rfl⟩, rfl⟩ := addSystem_step hstep
      exact ih.snoc
  · induction h with
    | start => exact fun p hp => absurd hp List.not_mem_nil
    | @snoc tr s s' new _ hstep ih =>
      obtain ⟨⟨rfl, rfl⟩, rfl⟩ := addSystem_step hstep
      have hfollow : MayFollow olm (s.sessions new.senderKey new.sessionId)
          ((afterAdd olm s new).sessions new.senderKey new.sessionId) := mayFollow_afterAdd s new
      intro p hp
      rcases List.mem_append.1 hp with hp | hp
      · exact (ih p hp).trans hfollow
      · rw [List.mem_singleton.1 hp]
        exact hfollow
  · intro new s' hstep hthrows
    obtain ⟨-, rfl⟩ := addSystem_step hstep
    rcases afterAdd_cases s new with ⟨-, hafter⟩ | ⟨_, -, hsucceeds, -⟩
    · exact hafter
    · exact absurd hsucceeds hthrows

end Adds

/-! A session is shared, comes in an export with a lower index, and as one for another room. -/

/-- Sessions that are their indices, as the length of the key; all have one id. -/
def lengthSessions : GroupSessions ℕ String where
  create key := some key.length
  importSession key := some key.length
  sessionId _ := "session"
  firstKnownIndex session := session
  decrypt session body := .ok (body, some 0, session)

def shareAndImport : List NewSession :=
  [⟨"!room:a", "alice", [], "session", "12345", none, false⟩,
    ⟨"!room:a", "alice", ["bob"], "session", "12", none, true⟩,
    ⟨"!room:b", "alice", [], "session", "", none, true⟩]

theorem shareAndImport_runs :
    ((addSystem lengthSessions "alice" "session").run shareAndImport).isSome := by
  decide

theorem firstKnownIndex_shareAndImport :
    MinimumSoFar lengthSessions
      ((addSystem lengthSessions "alice" "session").steps shareAndImport)
      ((((addSystem lengthSessions "alice" "session").run shareAndImport).get
        shareAndImport_runs).sessions "alice" "session") :=
  (firstKnownIndex_isLeast (System.trace_get shareAndImport_runs)).1

end MatrixSdk.Crypto
