/-
What is found in event maps.

A map that state events have been put into has the last one for each type and state key
([`lastSet_append`]), one that they have been rolled back into the first ([`getState_rollBackState`]).
-/
import Mathlib.Data.List.Induction
import MatrixSdk.Sync.SyncAccumulator

set_option autoImplicit false

namespace MatrixSdk.Sync

open MatrixSdk.Lib SyncAccumulator

variable {J : Type} {evType stateKey : String} {e : SyncEvent J} {events : List (SyncEvent J)}

/-- The event sets the state for the type and the state key. -/
def Sets (e : SyncEvent J) (evType stateKey : String) : Prop :=
  e.type = evType ∧ e.stateKey = some stateKey ∧ evType ≠ ""

instance (e : SyncEvent J) (evType stateKey : String) : Decidable (Sets e evType stateKey) :=
  inferInstanceAs (Decidable (_ ∧ _ ∧ _))

/-- **Setting the state.** -/
theorem getState_setState (eventMap : EventMap J) (e : SyncEvent J) (evType stateKey : String) :
    getState (setState eventMap e) evType stateKey =
      if Sets e evType stateKey then some e else getState eventMap evType stateKey := by
  unfold setState
  cases hkey : e.stateKey with
  | none =>
    rw [if_neg]
    rintro ⟨-, hsome, -⟩
    rw [hkey] at hsome
    exact nomatch hsome
  | some key =>
    dsimp only
    by_cases htype : e.type = ""
    · rw [if_pos htype, if_neg]
      rintro ⟨heq, -, hne⟩
      exact hne (heq.symm.trans htype)
    · rw [if_neg htype]
      unfold getState
      rw [JsObject.get_set]
      by_cases hof : evType = e.type
      · rw [if_pos hof, Option.bind_some, JsObject.get_set]
        by_cases hsame : stateKey = key
        · rw [if_pos hsame, if_pos ⟨hof.symm, by rw [hkey, hsame], hof ▸ htype⟩]
        · rw [if_neg hsame, if_neg, ← hof]
          · cases eventMap.get evType <;> rfl
          · rintro ⟨-, heq, -⟩
            rw [hkey] at heq
            exact hsame (Option.some.inj heq).symm
      · rw [if_neg hof, if_neg]
        exact fun hsets => hof hsets.1.symm

/-- What events have set last. -/
def lastSet (events : List (SyncEvent J)) (evType stateKey : String) : Option (SyncEvent J) :=
  getState (events.foldl setState .empty) evType stateKey

theorem getState_foldl (eventMap : EventMap J) (events : List (SyncEvent J))
    (evType stateKey : String) :
    getState (events.foldl setState eventMap) evType stateKey =
      (lastSet events evType stateKey).or (getState eventMap evType stateKey) := by
  induction events using List.reverseRecOn with
  | nil => rfl
  | append_singleton events e ih =>
    unfold lastSet
    rw [List.foldl_append, List.foldl_append, List.foldl_cons, List.foldl_cons, List.foldl_nil,
      List.foldl_nil, getState_setState, getState_setState]
    split
    · rfl
    · exact ih

theorem lastSet_append (events events' : List (SyncEvent J)) (evType stateKey : String) :
    lastSet (events ++ events') evType stateKey =
      (lastSet events' evType stateKey).or (lastSet events evType stateKey) := by
  unfold lastSet
  rw [List.foldl_append]
  exact getState_foldl ..

theorem lastSet_singleton (e : SyncEvent J) (evType stateKey : String) :
    lastSet [e] evType stateKey = if Sets e evType stateKey then some e else none := by
  unfold lastSet
  rw [List.foldl_cons, List.foldl_nil, getState_setState]
  rfl

theorem lastSet_mem (h : lastSet events evType stateKey = some e) :
    e ∈ events ∧ Sets e evType stateKey := by
  induction events using List.reverseRecOn with
  | nil => exact nomatch h
  | append_singleton events e' ih =>
    rw [lastSet_append, lastSet_singleton] at h
    by_cases hsets : Sets e' evType stateKey
    · rw [if_pos hsets] at h
      obtain rfl := Option.some.inj h
      exact ⟨List.mem_append_right _ (List.mem_singleton.2 rfl), hsets⟩
    · rw [if_neg hsets] at h
      obtain ⟨hmem, hof⟩ := ih h
      exact ⟨List.mem_append_left _ hmem, hof⟩

/-- Something is set if an event sets it. -/
theorem lastSet_isSome : (lastSet events evType stateKey).isSome ↔
    ∃ e ∈ events, Sets e evType stateKey := by
  constructor
  · intro h
    obtain ⟨e, he⟩ := Option.isSome_iff_exists.1 h
    exact ⟨e, lastSet_mem he⟩
  · rintro ⟨e, hmem, hsets⟩
    obtain ⟨before, after, rfl⟩ := List.append_of_mem hmem
    rw [List.append_cons, lastSet_append, lastSet_append, lastSet_singleton, if_pos hsets]
    cases lastSet after evType stateKey <;> rfl

theorem lastSet_eq_none (h : ∀ e ∈ events, ¬Sets e evType stateKey) :
    lastSet events evType stateKey = none := by
  rw [← Option.not_isSome_iff_eq_none, lastSet_isSome]
  rintro ⟨e, hmem, hsets⟩
  exact h e hmem hsets

/-- If there is one event only for the type and the state key it is what has been set. -/
theorem lastSet_eq_some (hmem : e ∈ events) (hsets : Sets e evType stateKey)
    (honly : ∀ e' ∈ events, Sets e' evType stateKey → e' = e) :
    lastSet events evType stateKey = some e := by
  obtain ⟨e', he'⟩ := Option.isSome_iff_exists.1 (lastSet_isSome.2 ⟨e, hmem, hsets⟩)
  obtain ⟨hmem', hsets'⟩ := lastSet_mem he'
  rw [he', honly e' hmem' hsets']

/-! ## Rolling back -/

theorem prevStateEvent_sets {evType stateKey : String} :
    Sets (prevStateEvent e) evType stateKey ↔ Sets e evType stateKey := by
  unfold prevStateEvent Sets
  cases e.unsigned <;> rfl

/-- **Rolling back** goes to what is before the first event. -/
theorem getState_rollBackState (events : List (SyncEvent J)) (evType stateKey : String) :
    getState (rollBackState events) evType stateKey =
      (events.find? fun e => Sets e evType stateKey).map prevStateEvent := by
  induction events with
  | nil => rfl
  | cons e events ih =>
    unfold rollBackState at ih ⊢
    rw [List.foldr_cons, List.find?_cons]
    by_cases hsets : Sets e evType stateKey
    · have hkey : e.stateKey ≠ none := by
        rw [hsets.2.1]
        exact Option.some_ne_none _
      rw [if_neg hkey, getState_setState, if_pos (prevStateEvent_sets.2 hsets)]
      simp only [decide_eq_true hsets, Option.map_some]
    · simp only [decide_eq_false hsets]
      split
      · exact ih
      · rw [getState_setState, if_neg (fun h => hsets (prevStateEvent_sets.1 h))]
        exact ih

/-- The events of the map are under their types and state keys. -/
def WellKeyed (eventMap : EventMap J) : Prop :=
  ∀ evType stateKey e, getState eventMap evType stateKey = some e → Sets e evType stateKey

theorem wellKeyed_foldl (events : List (SyncEvent J)) : WellKeyed (events.foldl setState .empty) :=
  fun _ _ _ h => (lastSet_mem h).2

/-- **The state that is saved** has the events of the map, rolled back if there is something to roll
them back to. -/
theorem lastSet_stateJson {currentState : EventMap J} (hkeyed : WellKeyed currentState)
    (events : List (SyncEvent J)) (evType stateKey : String) :
    lastSet (stateJson currentState (rollBackState events)) evType stateKey =
      (getState currentState evType stateKey).map fun ev =>
        (getState (rollBackState events) evType stateKey).getD ev := by
  -- what is there for another type and state key sets those
  have hof : ∀ evType' stateKey' ev, getState currentState evType' stateKey' = some ev →
      Sets ((getState (rollBackState events) evType' stateKey').getD ev) evType' stateKey' := by
    intro evType' stateKey' ev hev
    rw [getState_rollBackState]
    cases hfind : events.find? fun e => Sets e evType' stateKey' with
    | none => exact hkeyed evType' stateKey' ev hev
    | some e =>
      have hsets := List.find?_some hfind
      exact prevStateEvent_sets.2 (of_decide_eq_true hsets)
  have hmem : ∀ e, e ∈ stateJson currentState (rollBackState events) ↔
      ∃ evType' stateKey' ev, getState currentState evType' stateKey' = some ev ∧
        (getState (rollBackState events) evType' stateKey').getD ev = e := by
    intro e
    unfold stateJson
    simp only [List.mem_flatMap, List.mem_map, Prod.exists, JsObject.mem_entries]
    constructor
    · rintro ⟨evType', inner, hinner, stateKey', ev, hev, rfl⟩
      exact ⟨evType', stateKey', ev, by rw [getState, hinner]; exact hev, rfl⟩
    · rintro ⟨evType', stateKey', ev, hev, rfl⟩
      obtain ⟨inner, hinner, hget⟩ := Option.bind_eq_some_iff.1 hev
      exact ⟨evType', inner, hinner, stateKey', ev, hget, rfl⟩
  cases hcurrent : getState currentState evType stateKey with
  | none =>
    refine lastSet_eq_none fun e he hsets => ?_
    obtain ⟨evType', stateKey', ev, hev, rfl⟩ := (hmem e).1 he
    obtain ⟨htype, hkey, -⟩ := hof evType' stateKey' ev hev
    obtain rfl : evType' = evType := htype.symm.trans hsets.1
    obtain rfl : stateKey' = stateKey := Option.some.inj (hkey.symm.trans hsets.2.1)
    rw [hcurrent] at hev
    cases hev
  | some ev =>
    refine lastSet_eq_some ((hmem _).2 ⟨evType, stateKey, ev, hcurrent, rfl⟩)
      (hof evType stateKey ev hcurrent) fun e' he' hsets => ?_
    obtain ⟨evType', stateKey', ev', hev', rfl⟩ := (hmem e').1 he'
    obtain ⟨htype, hkey, -⟩ := hof evType' stateKey' ev' hev'
    obtain rfl : evType' = evType := htype.symm.trans hsets.1
    obtain rfl : stateKey' = stateKey := Option.some.inj (hkey.symm.trans hsets.2.1)
    rw [hcurrent] at hev'
    rw [Option.some.inj hev']

end MatrixSdk.Sync
