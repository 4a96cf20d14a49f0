/-
Timers that make up for clock jumps: `realtime-callbacks.js`.

The callbacks to be run are kept in a list that is sorted by the time they are due, and one real
timer looks after them. When it fires, what is due is taken out of the list before any of it is
called, so that a callback may set and clear timers, and what it sets is not called before the real
timer fires again. For the same reason it is too late to clear what is due at the same time:
[`TimersRun.of_run`].
-/
import MatrixSdk.Lib.System
import Mathlib.Data.Nat.Notation
import Mathlib.Data.List.Sublists
import Mathlib.Data.List.TakeWhile
import Mathlib.Algebra.Order.Ring.Int

set_option autoImplicit false

namespace MatrixSdk.Client

open MatrixSdk.Lib

/-! ## Binary search -/

section BinarySearch

variable {α T : Type} [Zero T] [LinearOrder T]

/-- The loop of `binarySearch`, which makes at most `fuel` iterations. -/
def searchLoop (array : List α) (func : α → T) : ℕ → ℕ → ℕ → ℕ
  | 0, min, _ => min
  | fuel + 1, min, max =>
    if min < max then
      let mid := (min + max) / 2
      match array[mid]? with
      | some el =>
        -- the element at `mid` is too big, or too small
        if 0 < func el then searchLoop array func fuel min mid
        else searchLoop array func fuel (mid + 1) max
      | none => min
    else min

/-- `binarySearch`; each iteration makes the interval smaller. -/
def binarySearch (array : List α) (func : α → T) : ℕ :=
  searchLoop array func array.length 0 array.length

variable {array : List α} {func : α → T}

theorem searchLoop_spec
    (hsorted : array.Pairwise fun a b => 0 < func a → 0 < func b) (fuel : ℕ) {min max : ℕ}
    (hfuel : max ≤ min + fuel) (hle : min ≤ max) (hmax : max ≤ array.length)
    (hsmall : ∀ a ∈ array.take min, ¬ 0 < func a) (hbig : ∀ a ∈ array.drop max, 0 < func a) :
    (∀ a ∈ array.take (searchLoop array func fuel min max), ¬ 0 < func a) ∧
      ∀ a ∈ array.drop (searchLoop array func fuel min max), 0 < func a := by
  induction fuel generalizing min max with
  | zero =>
    obtain rfl : max = min := by omega
    exact ⟨hsmall, hbig⟩
  | succ fuel ih =>
    rw [searchLoop]
    by_cases hlt : min < max
    · rw [if_pos hlt]
      dsimp only
      have hmid : (min + max) / 2 < array.length := by omega
      rw [List.getElem?_eq_getElem hmid]
      dsimp only
      rw [List.pairwise_iff_getElem] at hsorted
      by_cases hpos : 0 < func array[(min + max) / 2]
      · -- what comes after it is too big as well
        rw [if_pos hpos]
        refine ih (by omega) (by omega) (by omega) hsmall ?_
        intro a ha
        obtain ⟨i, hi, rfl⟩ := List.mem_iff_getElem.1 ha
        rw [List.length_drop] at hi
        rw [List.getElem_drop]
        by_cases hzero : i = 0
        · subst hzero
          exact hpos
        · exact hsorted _ _ hmid (by omega) (by omega) hpos
      · -- what comes before it is too small as well
        rw [if_neg hpos]
        refine ih (by omega) (by omega) hmax ?_ hbig
        intro a ha hcontra
        obtain ⟨i, hi, rfl⟩ := List.mem_iff_getElem.1 ha
        rw [List.length_take] at hi
        rw [List.getElem_take] at hcontra
        by_cases hlast : i = (min + max) / 2
        · subst hlast
          exact hpos hcontra
        · exact hpos (hsorted _ _ (by omega) hmid (by omega) hcontra)
    · rw [if_neg hlt]
      obtain rfl : max = min := by omega
      exact ⟨hsmall, hbig⟩

/-- **What the search finds**, in a list in which what is too big comes last. -/
theorem binarySearch_spec (hsorted : array.Pairwise fun a b => 0 < func a → 0 < func b) :
    (∀ a ∈ array.take (binarySearch array func), ¬ 0 < func a) ∧
      ∀ a ∈ array.drop (binarySearch array func), 0 < func a := by
  refine searchLoop_spec hsorted array.length (by omega) (Nat.zero_le _) (Nat.le_refl _) ?_ ?_
  · rw [List.take_zero]
    exact fun a ha => absurd ha List.not_mem_nil
  · rw [List.drop_length]
    exact fun a ha => absurd ha List.not_mem_nil

end BinarySearch

/-! ## The timers -/

variable {T : Type}

/-- An item of `_callbackList`. The key stands for the function and its parameters as well. -/
structure Callback (T : Type) where
  runAt : T
  key : ℕ
  deriving DecidableEq

/-- The state of the module. `running` is the callback that is being called by `_runCallbacks`, and
`callbacksToRun` what is left to be called after it. -/
structure Timers (T : Type) where
  count : ℕ
  callbackList : List (Callback T)
  /-- The delay of the real timer, if there is one pending. -/
  realCallback : Option T
  callbacksToRun : List (Callback T)
  running : Option (Callback T)
  /-- When the clock was last read. -/
  clock : T

/-- What happens, with what the clock says each time it is read. -/
inductive TimerStep (T : Type)
  /-- The delay may be missing. -/
  | setTimeout (delayMs : Option T) (now later : T)
  | clearTimeout (key : ℕ) (now : T)
  /-- The real timer fires. -/
  | runCallbacks (now later : T)
  /-- The next callback is called. -/
  | call (now : T)
  /-- It returns or throws. -/
  | finish (throws : Bool)
  deriving DecidableEq

section Model

variable [Ring T] [LinearOrder T]

def TIMER_CHECK_PERIOD_MS : T := 1000

namespace Timers

variable (s : Timers T)

/-- `_scheduleRealCallback`; a real timer that is pending is cleared. -/
def scheduleRealCallback (now : T) : Timers T :=
  match s.callbackList with
  | [] => { s with realCallback := none, clock := now }
  | first :: _ =>
    { s with realCallback := some (min (first.runAt - now) TIMER_CHECK_PERIOD_MS), clock := now }

/-- The delay that is meant. -/
def delayOf (delayMs : Option T) : T :=
  let delayMs := delayMs.getD 0
  if delayMs < 0 then 0 else delayMs

/-- `setTimeout`, which returns the key [`count`]. -/
def setTimeout (delayMs : Option T) (now later : T) : Timers T :=
  let runAt := now + delayOf delayMs
  let idx := binarySearch s.callbackList fun el => el.runAt - runAt
  let data : Callback T := ⟨runAt, s.count⟩
  let added : Timers T :=
    { s with
      count := s.count + 1
      callbackList := s.callbackList.take idx ++ data :: s.callbackList.drop idx }
  added.scheduleRealCallback later

def clearTimeout (key : ℕ) (now : T) : Timers T :=
  if s.callbackList = [] then s
  else
    let i := s.callbackList.findIdx fun cb => cb.key = key
    let cleared : Timers T := { s with callbackList := s.callbackList.eraseIdx i }
    -- iff it was the first one in the list
    if i = 0 then cleared.scheduleRealCallback now else cleared

/-- `_runCallbacks`, up to its loop. -/
def runCallbacks (now later : T) : Timers T :=
  let taken : Timers T :=
    { s with
      callbackList := s.callbackList.dropWhile fun cb => cb.runAt ≤ now
      callbacksToRun := s.callbackList.takeWhile fun cb => cb.runAt ≤ now }
  taken.scheduleRealCallback later

/-- Other code runs in a callback, or when `_runCallbacks` does not. -/
def MayCall : Prop := s.running.isSome ∨ s.callbacksToRun = []

instance : Decidable s.MayCall := inferInstanceAs (Decidable (_ ∨ _))

end Timers

open Timers in

/-- The timers, from the clock value `clock` on. -/
def timerSystem (clock : T) : System (Timers T) (TimerStep T) where
  init := ⟨0, [], none, [], none, clock⟩
  step s
    | .setTimeout delayMs now later =>
      if s.MayCall ∧ s.clock ≤ now ∧ now ≤ later then some (s.setTimeout delayMs now later)
      else none
    | .clearTimeout key now =>
      if s.MayCall ∧ s.clock ≤ now then some (s.clearTimeout key now) else none
    | .runCallbacks now later =>
      if s.realCallback.isSome ∧ s.running = none ∧ s.callbacksToRun = [] ∧ s.clock ≤ now ∧
          now ≤ later then
        some (s.runCallbacks now later)
      else none
    | .call now =>
      match s.running, s.callbacksToRun with
      | none, cb :: callbacksToRun =>
        if s.clock ≤ now then
          some { s with callbacksToRun := callbacksToRun, running := some cb, clock := now }
        else none
      | _, _ => none
    | .finish _ => if s.running.isSome then some { s with running := none } else none

end Model

/-! ## What the operations do -/

/-- `_callbackList` is sorted by the time, and the older of two goes first. -/
def Callback.Before [LT T] (a b : Callback T) : Prop :=
  a.runAt < b.runAt ∨ a.runAt = b.runAt ∧ a.key < b.key

namespace Timers

variable [Ring T] [LinearOrder T] (s : Timers T)

/-- A real timer looks after the list. -/
def Armed : Prop := s.callbackList ≠ [] → s.realCallback.isSome

theorem scheduleRealCallback_frame (s : Timers T) (now : T) :
    (s.scheduleRealCallback now).callbackList = s.callbackList ∧
      (s.scheduleRealCallback now).callbacksToRun = s.callbacksToRun ∧
      (s.scheduleRealCallback now).running = s.running ∧
      (s.scheduleRealCallback now).count = s.count ∧
      (s.scheduleRealCallback now).clock = now := by
  rw [scheduleRealCallback]
  split
  · exact ⟨rfl, rfl, rfl, rfl, rfl⟩
  · exact ⟨rfl, rfl, rfl, rfl, rfl⟩

theorem scheduleRealCallback_armed (s : Timers T) (now : T) : (s.scheduleRealCallback now).Armed := by
  intro hlist
  rw [(s.scheduleRealCallback_frame now).1] at hlist
  rw [scheduleRealCallback]
  cases hfirst : s.callbackList with
  | nil => exact absurd hfirst hlist
  | cons first rest => rfl

variable {s} [IsStrictOrderedRing T]

/-- **Setting a timer.** The new callback goes after what is due at the same time. -/
theorem setTimeout_list (delayMs : Option T) (now later : T)
    (hsorted : s.callbackList.Pairwise Callback.Before) :
    ∃ l₁ l₂ data, s.callbackList = l₁ ++ l₂ ∧
      (s.setTimeout delayMs now later).callbackList = l₁ ++ data :: l₂ ∧ data.key = s.count ∧
      now ≤ data.runAt ∧ (∀ cb ∈ l₁, cb.runAt ≤ data.runAt) ∧ ∀ cb ∈ l₂, data.runAt < cb.runAt := by
  have hbig : s.callbackList.Pairwise fun a b =>
      0 < a.runAt - (now + delayOf delayMs) → 0 < b.runAt - (now + delayOf delayMs) := by
    refine hsorted.imp ?_
    intro a b hab hpos
    rw [sub_pos] at hpos ⊢
    rcases hab with hlt | ⟨heq, -⟩
    · exact hpos.trans hlt
    · exact heq ▸ hpos
  obtain ⟨hbefore, hafter⟩ := binarySearch_spec hbig
  refine ⟨_, _, ⟨now + delayOf delayMs, s.count⟩, (List.take_append_drop _ _).symm,
    (scheduleRealCallback_frame _ later).1, rfl, ?_, ?_, ?_⟩
  · refine le_add_of_nonneg_right ?_
    rw [delayOf]
    split
    · exact le_rfl
    next hneg => exact not_lt.1 hneg
  · intro cb hcb
    exact sub_nonpos.1 (not_lt.1 (hbefore cb hcb))
  · intro cb hcb
    exact sub_pos.1 (hafter cb hcb)

section

omit [IsStrictOrderedRing T]

theorem setTimeout_frame (delayMs : Option T) (now later : T) :
    (s.setTimeout delayMs now later).callbacksToRun = s.callbacksToRun ∧
      (s.setTimeout delayMs now later).running = s.running ∧
      (s.setTimeout delayMs now later).count = s.count + 1 ∧
      (s.setTimeout delayMs now later).clock = later ∧
      (s.setTimeout delayMs now later).Armed := by
  obtain ⟨-, hbatch, hrunning, hcount, hclock⟩ := scheduleRealCallback_frame
    { s with
      count := s.count + 1
      callbackList :=
        s.callbackList.take
            (binarySearch s.callbackList fun el => el.runAt - (now + delayOf delayMs)) ++
          ⟨now + delayOf delayMs, s.count⟩ ::
            s.callbackList.drop
              (binarySearch s.callbackList fun el => el.runAt - (now + delayOf delayMs)) } later
  exact ⟨hbatch, hrunning, hcount, hclock, scheduleRealCallback_armed _ later⟩

/-- **Clearing a timer.** If its callback is in the list, it is taken out. -/
theorem clearTimeout_frame (key : ℕ) (now : T) :
    (s.clearTimeout key now).callbackList =
        s.callbackList.eraseIdx (s.callbackList.findIdx fun cb => cb.key = key) ∧
      (s.clearTimeout key now).callbacksToRun = s.callbacksToRun ∧
      (s.clearTimeout key now).running = s.running ∧ (s.clearTimeout key now).count = s.count ∧
      (s.clock ≤ now → s.clock ≤ (s.clearTimeout key now).clock) ∧
      (s.Armed → (s.clearTimeout key now).Armed) := by
  rw [clearTimeout]
  by_cases hempty : s.callbackList = []
  · rw [if_pos hempty, hempty]
    exact ⟨rfl, rfl, rfl, rfl, fun _ => le_rfl, id⟩
  · rw [if_neg hempty]
    by_cases hfirst : (s.callbackList.findIdx fun cb => cb.key = key) = 0
    · rw [if_pos hfirst]
      obtain ⟨hlist, hbatch, hrunning, hcount, hclock⟩ := scheduleRealCallback_frame
        { s with callbackList :=
            s.callbackList.eraseIdx (s.callbackList.findIdx fun cb => cb.key = key) } now
      exact ⟨hlist, hbatch, hrunning, hcount, fun hle => le_of_le_of_eq hle hclock.symm,
        fun _ => scheduleRealCallback_armed _ now⟩
    · rw [if_neg hfirst]
      exact ⟨rfl, rfl, rfl, rfl, fun _ => le_rfl, fun harmed _ => harmed hempty⟩

/-- **The real timer fires.** What is due is taken out of the list. -/
theorem runCallbacks_frame (now later : T) :
    (s.runCallbacks now later).callbacksToRun ++ (s.runCallbacks now later).callbackList =
        s.callbackList ∧
      (∀ cb ∈ (s.runCallbacks now later).callbacksToRun, cb.runAt ≤ now) ∧
      (s.runCallbacks now later).running = s.running ∧
      (s.runCallbacks now later).count = s.count ∧ (s.runCallbacks now later).clock = later ∧
      (s.runCallbacks now later).Armed := by
  obtain ⟨hlist, hbatch, hrunning, hcount, hclock⟩ := scheduleRealCallback_frame
    { s with
      callbackList := s.callbackList.dropWhile fun cb => cb.runAt ≤ now
      callbacksToRun := s.callbackList.takeWhile fun cb => cb.runAt ≤ now } later
  refine ⟨?_, ?_, hrunning, hcount, hclock, scheduleRealCallback_armed _ later⟩
  · rw [runCallbacks, hlist, hbatch]
    exact List.takeWhile_append_dropWhile
  · intro cb hcb
    rw [runCallbacks, hbatch] at hcb
    replace hcb : cb ∈ s.callbackList.takeWhile fun cb => decide (cb.runAt ≤ now) := hcb
    exact of_decide_eq_true (List.mem_takeWhile_imp (p := fun cb : Callback T => decide (cb.runAt ≤ now)) hcb)

end

end Timers

/-! ## Runs -/

section Runs

/-- The callback that a step calls, and when. -/
def calledBy (p : Timers T × TimerStep T) : List (Callback T × T) :=
  match p.2, p.1.callbacksToRun with
  | .call now, cb :: _ => [(cb, now)]
  | _, _ => []

/-- The calls of a run, in order. -/
def called (tr : List (Timers T × TimerStep T)) : List (Callback T × T) := tr.flatMap calledBy

/-- The callbacks that have been called, in order. -/
def calledCallbacks (tr : List (Timers T × TimerStep T)) : List (Callback T) :=
  (called tr).map Prod.fst

def IsCleared (tr : List (Timers T × TimerStep T)) (key : ℕ) : Prop :=
  ∃ p ∈ tr, ∃ now, p.2 = .clearTimeout key now

/-- What has been called, what is going to be called and what is in the list. -/
def queue (tr : List (Timers T × TimerStep T)) (s : Timers T) : List (Callback T) :=
  calledCallbacks tr ++ s.callbacksToRun ++ s.callbackList

/-- What is known of the callbacks after a run. -/
structure Queued [LinearOrder T] (tr : List (Timers T × TimerStep T)) (s : Timers T) : Prop where
  nodup : ((queue tr s).map Callback.key).Nodup
  fresh : ∀ cb ∈ queue tr s, cb.key < s.count
  sorted : s.callbackList.Pairwise Callback.Before
  due : ∀ cb ∈ s.callbacksToRun, cb.runAt ≤ s.clock
  notEarly : ∀ p ∈ called tr, p.1.runAt ≤ p.2
  armed : s.Armed

variable {tr : List (Timers T × TimerStep T)} {s t : Timers T} {e : TimerStep T} {clock : T}

theorem called_snoc : called (tr ++ [(s, e)]) = called tr ++ calledBy (s, e) := by
  rw [called, List.flatMap_append, List.flatMap_singleton]
  rfl

theorem called_snoc_of_ne (h : ∀ now, e ≠ .call now) : called (tr ++ [(s, e)]) = called tr := by
  rw [called_snoc]
  cases e with
  | call now => exact absurd rfl (h now)
  | _ => exact List.append_nil _

theorem queue_snoc_of_ne (h : ∀ now, e ≠ .call now) :
    queue (tr ++ [(s, e)]) t = calledCallbacks tr ++ t.callbacksToRun ++ t.callbackList := by
  rw [queue, calledCallbacks, called_snoc_of_ne h]
  rfl

/-- How a step changes the queue: not at all, or a new callback gets into it, or a cleared one is
taken out. -/
def QueueStep (s t : Timers T) (e : TimerStep T) (before after : List (Callback T)) : Prop :=
  after = before ∨
    (∃ l₁ l₂ data, before = l₁ ++ l₂ ∧ after = l₁ ++ data :: l₂ ∧ data.key = s.count ∧
      s.count < t.count) ∨
    ∃ key now, e = .clearTimeout key now ∧ after = before.filter (·.key ≠ key)

namespace Queued

variable [Ring T] [LinearOrder T]

omit [Ring T] in
/-- What a clearing takes out of the list. -/
theorem eraseIdx_list (h : Queued tr s) (key : ℕ) :
    s.callbackList.eraseIdx (s.callbackList.findIdx fun cb => cb.key = key) =
      s.callbackList.filter (·.key ≠ key) := by
  have hnodup : (s.callbackList.map Callback.key).Nodup := by
    have hnodup := h.nodup
    rw [queue, List.map_append] at hnodup
    exact (List.nodup_append.1 hnodup).2.1
  generalize s.callbackList = l at hnodup
  induction l with
  | nil => rfl
  | cons cb l ih =>
    obtain ⟨hnotin, hnodup⟩ := List.nodup_cons.1 hnodup
    rw [List.findIdx_cons]
    by_cases hkey : cb.key = key
    · rw [decide_eq_true hkey, List.filter_cons_of_neg (by simpa using hkey)]
      refine (List.filter_eq_self.2 ?_).symm
      intro cb' hcb'
      refine decide_eq_true ?_
      intro hkey'
      exact hnotin (List.mem_map.2 ⟨cb', hcb', hkey'.trans hkey.symm⟩)
    · rw [decide_eq_false hkey, List.filter_cons_of_pos (p := fun cb : Callback T => decide (cb.key ≠ key))
        (decide_eq_true hkey)]
      exact congrArg (cb :: ·) (ih hnodup)

omit [Ring T] in
/-- A clearing takes a callback out of the queue, if it is in the list. -/
theorem queue_filter (h : Queued tr s) (key : ℕ) :
    calledCallbacks tr ++ s.callbacksToRun ++ s.callbackList.filter (·.key ≠ key) = queue tr s ∨
      calledCallbacks tr ++ s.callbacksToRun ++ s.callbackList.filter (·.key ≠ key) =
        (queue tr s).filter (·.key ≠ key) := by
  by_cases hin : ∃ cb ∈ s.callbackList, cb.key = key
  · obtain ⟨cb, hcb, hkey⟩ := hin
    refine .inr ?_
    have hnodup := h.nodup
    rw [queue, List.map_append] at hnodup
    rw [queue, List.filter_append]
    refine congrArg (· ++ _) (List.filter_eq_self.2 ?_).symm
    intro cb' hcb'
    refine decide_eq_true ?_
    intro hkey'
    exact (List.nodup_append.1 hnodup).2.2 _ (List.mem_map_of_mem hcb') _
      (List.mem_map_of_mem hcb) (hkey'.trans hkey.symm)
  · refine .inl (congrArg (_ ++ ·) (List.filter_eq_self.2 ?_))
    intro cb hcb
    exact decide_eq_true fun hkey => hin ⟨cb, hcb, hkey⟩

omit [Ring T] in
theorem called_of_ne (h : Queued tr s) (hne : ∀ now, e ≠ .call now) :
    ∀ p ∈ called (tr ++ [(s, e)]), p.1.runAt ≤ p.2 := by
  rw [called_snoc_of_ne hne]
  exact h.notEarly

/-- The new callback goes where it belongs. -/
theorem setTimeout [IsStrictOrderedRing T] (h : Queued tr s) (delayMs : Option T) {now later : T}
    (hnow : s.clock ≤ now) (hlater : now ≤ later) :
    Queued (tr ++ [(s, .setTimeout delayMs now later)]) (s.setTimeout delayMs now later) ∧
      QueueStep s (s.setTimeout delayMs now later) (.setTimeout delayMs now later) (queue tr s)
        (queue (tr ++ [(s, .setTimeout delayMs now later)])
          (s.setTimeout delayMs now later)) := by
  have hne : ∀ now', TimerStep.setTimeout delayMs now later ≠ .call now' := fun _ => nofun
  obtain ⟨l₁, l₂, data, hsplit, hlist, hkey, -, hsmall, hbig⟩ :=
    Timers.setTimeout_list delayMs now later h.sorted
  obtain ⟨hbatch, -, hcount, hclock, harmed⟩ := s.setTimeout_frame delayMs now later
  have hbefore : queue tr s = (calledCallbacks tr ++ s.callbacksToRun ++ l₁) ++ l₂ := by
    rw [queue, hsplit, ← List.append_assoc]
  have hafter : queue (tr ++ [(s, .setTimeout delayMs now later)])
      (s.setTimeout delayMs now later) =
        (calledCallbacks tr ++ s.callbacksToRun ++ l₁) ++ data :: l₂ := by
    rw [queue_snoc_of_ne hne, hlist, hbatch, ← List.append_assoc]
  have hperm : (queue (tr ++ [(s, .setTimeout delayMs now later)])
      (s.setTimeout delayMs now later)).Perm (data :: queue tr s) := by
    rw [hafter, hbefore]
    exact List.perm_middle
  refine ⟨⟨?_, ?_, ?_, ?_, h.called_of_ne hne, harmed⟩, ?_⟩
  · rw [(hperm.map Callback.key).nodup_iff, List.map_cons, List.nodup_cons]
    refine ⟨?_, h.nodup⟩
    intro hmem
    obtain ⟨cb, hcb, hcbkey⟩ := List.mem_map.1 hmem
    exact Nat.lt_irrefl _ (hkey ▸ hcbkey ▸ h.fresh cb hcb)
  · intro cb hcb
    rw [hcount]
    rcases List.mem_cons.1 (hperm.mem_iff.1 hcb) with rfl | hcb
    · exact hkey ▸ Nat.lt_succ_self _
    · exact Nat.lt_succ_of_lt (h.fresh cb hcb)
  · have hsorted := h.sorted
    rw [hsplit] at hsorted
    obtain ⟨hsorted₁, hsorted₂, hcross⟩ := List.pairwise_append.1 hsorted
    rw [hlist]
    refine List.pairwise_append.2 ⟨hsorted₁, List.pairwise_cons.2 ⟨?_, hsorted₂⟩, ?_⟩
    · exact fun cb hcb => .inl (hbig cb hcb)
    · intro cb hcb cb' hcb'
      rcases List.mem_cons.1 hcb' with rfl | hcb'
      · -- of two that are due at the same time the new one has the greater key
        rcases (hsmall cb hcb).lt_or_eq with hlt | heq
        · exact .inl hlt
        · refine .inr ⟨heq, ?_⟩
          rw [hkey]
          refine h.fresh cb ?_
          rw [hbefore]
          exact List.mem_append_left _ (List.mem_append_right _ hcb)
      · exact hcross cb hcb cb' hcb'
  · intro cb hcb
    rw [hbatch] at hcb
    rw [hclock]
    exact (h.due cb hcb).trans (hnow.trans hlater)
  · exact .inr (.inl ⟨_, _, data, hbefore, hafter, hkey, hcount ▸ Nat.lt_succ_self _⟩)

omit [Ring T] in
/-- What does not change the queue. -/
theorem of_queue (h : Queued tr s) {tr' : List (Timers T × TimerStep T)}
    (hqueue : queue tr' t = queue tr s) (hcount : t.count = s.count)
    (hsorted : t.callbackList.Pairwise Callback.Before)
    (hdue : ∀ cb ∈ t.callbacksToRun, cb.runAt ≤ t.clock)
    (hcalled : ∀ p ∈ called tr', p.1.runAt ≤ p.2) (harmed : t.Armed) : Queued tr' t where
  nodup := hqueue ▸ h.nodup
  fresh := by
    rw [hqueue, hcount]
    exact h.fresh
  sorted := hsorted
  due := hdue
  notEarly := hcalled
  armed := harmed

theorem clearTimeout (h : Queued tr s) {key : ℕ} {now : T} (hnow : s.clock ≤ now) :
    Queued (tr ++ [(s, .clearTimeout key now)]) (s.clearTimeout key now) ∧
      QueueStep s (s.clearTimeout key now) (.clearTimeout key now) (queue tr s)
        (queue (tr ++ [(s, .clearTimeout key now)]) (s.clearTimeout key now)) := by
  have hne : ∀ now', TimerStep.clearTimeout key now ≠ .call now' := fun _ => nofun
  obtain ⟨hlist, hbatch, -, hcount, hclock, harmed⟩ := s.clearTimeout_frame key now
  rw [h.eraseIdx_list] at hlist
  have hafter : queue (tr ++ [(s, .clearTimeout key now)]) (s.clearTimeout key now) =
      calledCallbacks tr ++ s.callbacksToRun ++ s.callbackList.filter (·.key ≠ key) := by
    rw [queue_snoc_of_ne hne, hlist, hbatch]
  have hsublist : (queue (tr ++ [(s, .clearTimeout key now)])
      (s.clearTimeout key now)).Sublist (queue tr s) := by
    rw [hafter]
    exact (List.Sublist.refl _).append List.filter_sublist
  refine ⟨⟨?_, ?_, ?_, ?_, h.called_of_ne hne, harmed h.armed⟩, ?_⟩
  · exact (hsublist.map Callback.key).nodup h.nodup
  · intro cb hcb
    rw [hcount]
    exact h.fresh cb (hsublist.subset hcb)
  · rw [hlist]
    exact h.sorted.filter _
  · intro cb hcb
    rw [hbatch] at hcb
    exact (h.due cb hcb).trans (hclock hnow)
  · rcases h.queue_filter key with hsame | hfilter
    · exact .inl (hafter.trans hsame)
    · exact .inr (.inr ⟨key, now, rfl, hafter.trans hfilter⟩)

theorem runCallbacks (h : Queued tr s) (hbatch : s.callbacksToRun = []) {now later : T}
    (hlater : now ≤ later) :
    Queued (tr ++ [(s, .runCallbacks now later)]) (s.runCallbacks now later) ∧
      queue (tr ++ [(s, .runCallbacks now later)]) (s.runCallbacks now later) = queue tr s := by
  have hne : ∀ now', TimerStep.runCallbacks now later ≠ .call now' := fun _ => nofun
  obtain ⟨hsplit, hdue, -, hcount, hclock, harmed⟩ := s.runCallbacks_frame now later
  have hqueue : queue (tr ++ [(s, .runCallbacks now later)]) (s.runCallbacks now later) =
      queue tr s := by
    rw [queue_snoc_of_ne hne, queue, hbatch, List.append_assoc, hsplit, List.append_nil]
  refine ⟨h.of_queue hqueue hcount ?_ ?_ (h.called_of_ne hne) harmed, hqueue⟩
  · have hsorted := h.sorted
    rw [← hsplit] at hsorted
    exact (List.pairwise_append.1 hsorted).2.1
  · intro cb hcb
    rw [hclock]
    exact (hdue cb hcb).trans hlater

omit [Ring T] in
/-- What is due is called, and is still due. -/
theorem call (h : Queued tr s) {cb : Callback T} {callbacksToRun : List (Callback T)}
    (hbatch : s.callbacksToRun = cb :: callbacksToRun) {now : T} (hnow : s.clock ≤ now) :
    Queued (tr ++ [(s, .call now)])
        { s with callbacksToRun := callbacksToRun, running := some cb, clock := now } ∧
      queue (tr ++ [(s, .call now)])
        { s with callbacksToRun := callbacksToRun, running := some cb, clock := now } =
          queue tr s := by
  have hcalled : called (tr ++ [(s, .call now)]) = called tr ++ [(cb, now)] := by
    rw [called_snoc, calledBy, hbatch]
  have hqueue : queue (tr ++ [(s, .call now)])
      { s with callbacksToRun := callbacksToRun, running := some cb, clock := now } =
        queue tr s := by
    rw [queue, queue, calledCallbacks, hcalled, hbatch, List.map_append]
    show calledCallbacks tr ++ [cb] ++ callbacksToRun ++ s.callbackList = _
    rw [List.append_assoc (calledCallbacks tr)]
    rfl
  have hdue : ∀ cb' ∈ cb :: callbacksToRun, cb'.runAt ≤ now :=
    fun cb' hcb' => (h.due cb' (hbatch ▸ hcb')).trans hnow
  refine ⟨h.of_queue hqueue rfl h.sorted ?_ ?_ h.armed, hqueue⟩
  · exact fun cb' hcb' => hdue cb' (List.mem_cons_of_mem _ hcb')
  · intro p hp
    rw [hcalled] at hp
    rcases List.mem_append.1 hp with hp | hp
    · exact h.notEarly p hp
    · rw [List.mem_singleton.1 hp]
      exact hdue cb List.mem_cons_self

/-- **One step.** -/
theorem step [IsStrictOrderedRing T] (h : Queued tr s)
    (hstep : (timerSystem clock).step s e = some t) :
    Queued (tr ++ [(s, e)]) t ∧ s.count ≤ t.count ∧
      QueueStep s t e (queue tr s) (queue (tr ++ [(s, e)]) t) := by
  cases e with
  | setTimeout delayMs now later =>
    simp only [timerSystem, Option.ite_none_right_eq_some, Option.some.injEq] at hstep
    obtain ⟨⟨-, hnow, hlater⟩, rfl⟩ := hstep
    obtain ⟨hqueued, hqueue⟩ := h.setTimeout delayMs hnow hlater
    obtain ⟨-, -, hcount, -⟩ := s.setTimeout_frame delayMs now later
    exact ⟨hqueued, hcount ▸ Nat.le_succ _, hqueue⟩
  | clearTimeout key now =>
    simp only [timerSystem, Option.ite_none_right_eq_some, Option.some.injEq] at hstep
    obtain ⟨⟨-, hnow⟩, rfl⟩ := hstep
    obtain ⟨hqueued, hqueue⟩ := h.clearTimeout hnow
    obtain ⟨-, -, -, hcount, -⟩ := s.clearTimeout_frame key now
    exact ⟨hqueued, hcount.ge, hqueue⟩
  | runCallbacks now later =>
    simp only [timerSystem, Option.ite_none_right_eq_some, Option.some.injEq] at hstep
    obtain ⟨⟨-, -, hbatch, -, hlater⟩, rfl⟩ := hstep
    obtain ⟨hqueued, hqueue⟩ := h.runCallbacks hbatch hlater
    obtain ⟨-, -, -, hcount, -⟩ := s.runCallbacks_frame now later
    exact ⟨hqueued, hcount.ge, .inl hqueue⟩
  | call now =>
    simp only [timerSystem] at hstep
    split at hstep
    next cb callbacksToRun hrunning hbatch =>
      simp only [Option.ite_none_right_eq_some, Option.some.injEq] at hstep
      obtain ⟨hnow, rfl⟩ := hstep
      obtain ⟨hqueued, hqueue⟩ := h.call hbatch hnow
      exact ⟨hqueued, le_rfl, .inl hqueue⟩
    · exact nomatch hstep
  | finish throws =>
    simp only [timerSystem, Option.ite_none_right_eq_some, Option.some.injEq] at hstep
    obtain ⟨-, rfl⟩ := hstep
    have hne : ∀ now, TimerStep.finish (T := T) throws ≠ .call now := fun _ => nofun
    have hqueue : queue (tr ++ [(s, .finish throws)]) { s with running := none } = queue tr s :=
      queue_snoc_of_ne hne
    exact ⟨h.of_queue hqueue rfl h.sorted h.due (h.called_of_ne hne) h.armed, le_rfl,
      .inl hqueue⟩

theorem of_trace [IsStrictOrderedRing T] (h : (timerSystem clock).Trace tr s) : Queued tr s := by
  induction h with
  | start =>
    exact ⟨List.nodup_nil, fun cb hcb => absurd hcb List.not_mem_nil, List.Pairwise.nil,
      fun cb hcb => absurd hcb List.not_mem_nil, fun p hp => absurd hp List.not_mem_nil,
      fun hcontra => absurd rfl hcontra⟩
  | snoc _ hstep ih => exact (ih.step hstep).1

end Queued

/-! ## The order of the calls -/

/-- Of two callbacks the first comes first, or it has been cleared, or else the second has. -/
def InOrder (tr : List (Timers T × TimerStep T)) (s : Timers T) (a b : Callback T) : Prop :=
  [a, b].Sublist (queue tr s) ∨ a ∉ queue tr s ∧ IsCleared tr a.key ∨ b ∉ queue tr s

theorem IsCleared.snoc {key : ℕ} (h : IsCleared tr key) : IsCleared (tr ++ [(s, e)]) key := by
  obtain ⟨p, hp, now, hclear⟩ := h
  exact ⟨p, List.mem_append_left _ hp, now, hclear⟩

/-- A step keeps two callbacks in order. -/
theorem InOrder.step {a b : Callback T} (h : InOrder tr s a b)
    (ha : a.key < s.count) (hb : b.key < s.count)
    (hstep : QueueStep s t e (queue tr s) (queue (tr ++ [(s, e)]) t)) :
    InOrder (tr ++ [(s, e)]) t a b := by
  rcases hstep with hsame | ⟨l₁, l₂, data, hbefore, hafter, hkey, -⟩ | ⟨key, now, rfl, hafter⟩
  · rw [InOrder, hsame]
    exact h.imp id (Or.imp (And.imp id IsCleared.snoc) id)
  · -- neither is the new one
    have hmem : ∀ cb : Callback T, cb.key < s.count →
        cb ∉ queue tr s → cb ∉ queue (tr ++ [(s, e)]) t := by
      intro cb hcb hnotin hin
      rw [hafter] at hin
      rcases List.mem_cons.1 (List.perm_middle.mem_iff.1 hin) with rfl | hin
      · exact Nat.lt_irrefl _ (hkey ▸ hcb)
      · exact hnotin (hbefore ▸ hin)
    rcases h with hordered | ⟨hnotin, hcleared⟩ | hnotin
    · refine .inl (hordered.trans ?_)
      rw [hbefore, hafter]
      exact (List.Sublist.refl l₁).append (List.sublist_cons_self data l₂)
    · exact .inr (.inl ⟨hmem a ha hnotin, hcleared.snoc⟩)
    · exact .inr (.inr (hmem b hb hnotin))
  · have hnone : ∀ cb : Callback T, cb ∉ queue tr s →
        cb ∉ queue (tr ++ [(s, .clearTimeout key now)]) t := by
      intro cb hnotin hin
      rw [hafter] at hin
      exact hnotin (List.mem_of_mem_filter hin)
    rcases h with hordered | ⟨hnotin, hcleared⟩ | hnotin
    · by_cases hakey : a.key = key
      · refine .inr (.inl ⟨?_, ?_⟩)
        · rw [hafter, List.mem_filter]
          exact fun hcontra => of_decide_eq_true hcontra.2 hakey
        · exact ⟨_, List.mem_append_right _ (List.mem_singleton.2 rfl), now, hakey ▸ rfl⟩
      · by_cases hbkey : b.key = key
        · refine .inr (.inr ?_)
          rw [hafter, List.mem_filter]
          exact fun hcontra => of_decide_eq_true hcontra.2 hbkey
        · refine .inl ?_
          rw [hafter]
          have hkept := hordered.filter (fun cb : Callback T => cb.key ≠ key)
          rwa [List.filter_eq_self.2] at hkept
          intro cb hcb
          rcases List.mem_cons.1 hcb with rfl | hcb
          · exact decide_eq_true hakey
          · rw [List.mem_singleton.1 hcb]
            exact decide_eq_true hbkey
    · exact .inr (.inl ⟨hnone a hnotin, hcleared.snoc⟩)
    · exact .inr (.inr (hnone b hnotin))

/-- Two callbacks that have been in the list keep their order. -/
theorem InOrder.of_trace [Ring T] [LinearOrder T] [IsStrictOrderedRing T]
    (h : (timerSystem clock).Trace tr s) {r : Timers T × TimerStep T} (hr : r ∈ tr)
    {a b : Callback T} (hlist : [a, b].Sublist r.1.callbackList) :
    InOrder tr s a b ∧ a.key < s.count ∧ b.key < s.count := by
  induction h with
  | start => exact absurd hr List.not_mem_nil
  | @snoc tr s s' e htr hstep ih =>
    have hqueued := Queued.of_trace htr
    obtain ⟨-, hcount, hqueue⟩ := hqueued.step hstep
    have hbefore : InOrder tr s a b ∧ a.key < s.count ∧ b.key < s.count := by
      rcases List.mem_append.1 hr with hr | hr
      · exact ih hr
      · obtain rfl := List.mem_singleton.1 hr
        have hsub : [a, b].Sublist (queue tr s) := hlist.trans (List.sublist_append_right _ _)
        exact ⟨.inl hsub, hqueued.fresh a (hsub.subset List.mem_cons_self),
          hqueued.fresh b (hsub.subset (List.mem_cons_of_mem _ List.mem_cons_self))⟩
    exact ⟨hbefore.1.step hbefore.2.1 hbefore.2.2 hqueue,
      Nat.lt_of_lt_of_le hbefore.2.1 hcount, Nat.lt_of_lt_of_le hbefore.2.2 hcount⟩

/-- Of two callbacks that have been in the list, the second is called after the first, unless the
first has been cleared and is not called. -/
theorem InOrder.calls [LinearOrder T] {a b : Callback T} (hqueued : Queued tr s)
    (h : InOrder tr s a b) (hb : b ∈ calledCallbacks tr) :
    a ∈ calledCallbacks tr ∧ [a, b].Sublist (calledCallbacks tr) ∨
      a ∉ calledCallbacks tr ∧ IsCleared tr a.key := by
  have hbqueue : b ∈ queue tr s := List.mem_append_left _ (List.mem_append_left _ hb)
  rcases h with hordered | ⟨hnotin, hcleared⟩ | hnotin
  · refine .inl ?_
    have hnodup := List.Nodup.of_map _ hqueued.nodup
    rw [queue, List.append_assoc] at hordered hnodup
    obtain ⟨m₁, m₂, hsplit, hm₁, hm₂⟩ := List.sublist_append_iff.1 hordered
    -- the second is not among the rest
    have hm₂nil : m₂ = [] := by
      by_contra hne
      have hlast : b ∈ m₂ := by
        have hgetLast : (m₁ ++ m₂).getLast? = some b := by
          rw [← hsplit]
          rfl
        rw [List.getLast?_append_of_ne_nil _ hne] at hgetLast
        exact List.mem_of_getLast? hgetLast
      exact (List.nodup_append.1 hnodup).2.2 b hb b (hm₂.subset hlast) rfl
    rw [hm₂nil, List.append_nil] at hsplit
    rw [← hsplit] at hm₁
    exact ⟨hm₁.subset List.mem_cons_self, hm₁⟩
  · exact .inr ⟨fun hcontra => hnotin (List.mem_append_left _ (List.mem_append_left _ hcontra)),
      hcleared⟩
  · exact absurd hbqueue hnotin

/-! ## Cleared callbacks -/

/-- What has been taken out of the list is not cleared before it is called. -/
def Untaken (s : Timers T) (e : TimerStep T) : Prop :=
  match e with
  | .clearTimeout key _ => ∀ cb ∈ s.callbacksToRun, cb.key ≠ key
  | _ => True

instance (s : Timers T) (e : TimerStep T) : Decidable (Untaken s e) :=
  match e with
  | .clearTimeout key _ => inferInstanceAs (Decidable (∀ cb ∈ s.callbacksToRun, cb.key ≠ key))
  | .setTimeout _ _ _ | .runCallbacks _ _ | .call _ | .finish _ => .isTrue trivial

/-- **A callback that is cleared in time leaves the queue.** -/
theorem not_mem_queue_of_cleared [Ring T] [LinearOrder T] [IsStrictOrderedRing T]
    (h : (timerSystem clock).Trace tr s) (huntaken : System.Meets Untaken tr)
    {tr₁ tr₂ : List (Timers T × TimerStep T)} {r : Timers T} {key : ℕ} {now : T}
    (hsplit : tr = tr₁ ++ (r, .clearTimeout key now) :: tr₂) (hkey : key < r.count)
    (hcalled : ∀ cb ∈ calledCallbacks tr₁, cb.key ≠ key) :
    key < s.count ∧ ∀ cb ∈ queue tr s, cb.key ≠ key := by
  induction h generalizing tr₂ with
  | start => exact absurd hsplit.symm (List.append_ne_nil_of_right_ne_nil _ (List.cons_ne_nil _ _))
  | @snoc tr s s' e htr hstep ih =>
    obtain ⟨huntaken, hlast⟩ := System.meets_snoc.1 huntaken
    have hqueued := Queued.of_trace htr
    obtain ⟨-, hcount, hqueue⟩ := hqueued.step hstep
    rcases List.eq_nil_or_concat tr₂ with rfl | ⟨tr₂, p, rfl⟩
    · -- it is cleared in this step
      obtain ⟨rfl, heq⟩ := List.append_inj' hsplit rfl
      obtain ⟨rfl, rfl⟩ := Prod.mk.inj (List.singleton_inj.1 heq)
      refine ⟨Nat.lt_of_lt_of_le hkey hcount, ?_⟩
      simp only [timerSystem, Option.ite_none_right_eq_some, Option.some.injEq] at hstep
      obtain ⟨-, rfl⟩ := hstep
      have hne : ∀ now', TimerStep.clearTimeout key now ≠ .call now' := fun _ => nofun
      obtain ⟨hlist, hbatch, -⟩ := s.clearTimeout_frame key now
      rw [queue_snoc_of_ne hne, hlist, hqueued.eraseIdx_list, hbatch]
      intro cb hcb
      rcases List.mem_append.1 hcb with hcb | hcb
      · rcases List.mem_append.1 hcb with hcb | hcb
        · exact hcalled cb hcb
        · exact hlast cb hcb
      · exact of_decide_eq_true (List.mem_filter.1 hcb).2
    · have hassoc : tr ++ [(s, e)] = (tr₁ ++ (r, .clearTimeout key now) :: tr₂) ++ [p] := by
        rw [hsplit, List.concat_eq_append, List.append_assoc]
        rfl
      obtain ⟨hfront, -⟩ := List.append_inj' hassoc rfl
      obtain ⟨hless, hnone⟩ := ih huntaken hfront
      refine ⟨Nat.lt_of_lt_of_le hless hcount, ?_⟩
      intro cb hcb
      rcases hqueue with hsame | ⟨l₁, l₂, data, hbefore, hafter, hdata, -⟩ | ⟨_, _, -, hafter⟩
      · exact hnone cb (hsame ▸ hcb)
      · rw [hafter] at hcb
        rcases List.mem_cons.1 (List.perm_middle.mem_iff.1 hcb) with rfl | hcb
        · rw [hdata]
          exact Nat.ne_of_gt hless
        · exact hnone cb (hbefore ▸ hcb)
      · rw [hafter] at hcb
        exact hnone cb (List.mem_of_mem_filter hcb)

/-- What is guaranteed of a run. -/
structure TimersRun [LinearOrder T] (tr : List (Timers T × TimerStep T)) (s : Timers T) : Prop where
  /-- The list is sorted, and of two that are due at the same time the older goes first. -/
  sorted : s.callbackList.Pairwise Callback.Before
  /-- Each callback is called at most once. -/
  once : ((calledCallbacks tr).map Callback.key).Nodup
  /-- None is called before it is due. -/
  notEarly : ∀ p ∈ called tr, p.1.runAt ≤ p.2
  /-- The calls are made in the order of the list, but for what has been cleared. -/
  inOrder : ∀ r ∈ tr, ∀ a b, [a, b].Sublist r.1.callbackList → b ∈ calledCallbacks tr →
    a ∈ calledCallbacks tr ∧ [a, b].Sublist (calledCallbacks tr) ∨
      a ∉ calledCallbacks tr ∧ IsCleared tr a.key
  armed : s.Armed

/-- A callback that is cleared before it is called is not called. -/
def ClearedNotCalled (tr : List (Timers T × TimerStep T)) : Prop :=
  ∀ tr₁ tr₂ r key now, tr = tr₁ ++ (r, .clearTimeout key now) :: tr₂ → key < r.count →
    (∀ cb ∈ calledCallbacks tr₁, cb.key ≠ key) → ∀ cb ∈ calledCallbacks tr, cb.key ≠ key

/-- **The timers.** In every run the list is sorted, each callback is called at most once, in the
order of the list and not before it is due, and a real timer looks after the list. If what has been
taken out of the list is not cleared before it is called, then nothing that has been cleared is
called. -/
theorem TimersRun.of_run [Ring T] [LinearOrder T] [IsStrictOrderedRing T] {clock : T}
    {tr : List (Timers T × TimerStep T)} {s : Timers T} (h : (timerSystem clock).Trace tr s) :
    TimersRun tr s ∧ (System.Meets Untaken tr → ClearedNotCalled tr) := by
  have hqueued := Queued.of_trace h
  refine ⟨⟨hqueued.sorted, ?_, hqueued.notEarly, ?_, hqueued.armed⟩, ?_⟩
  · have hnodup := hqueued.nodup
    rw [queue, List.append_assoc, List.map_append] at hnodup
    exact (List.nodup_append.1 hnodup).1
  · intro r hr a b hlist hb
    exact (InOrder.of_trace h hr hlist).1.calls hqueued hb
  · intro huntaken tr₁ tr₂ r key now hsplit hkey hcalled cb hcb
    exact (not_mem_queue_of_cleared h huntaken hsplit hkey hcalled).2 cb
      (List.mem_append_left _ (List.mem_append_left _ hcb))

/-- Two timers are due at the same time, and the first callback clears the second timer. -/
def clearedTogether : List (TimerStep ℤ) :=
  [.setTimeout (some 10) 0 0, .setTimeout (some 10) 0 0, .runCallbacks 10 10, .call 10,
    .clearTimeout 1 10, .finish false, .call 10]

theorem clearedTogether_runs : ((timerSystem (0 : ℤ)).run clearedTogether).isSome := by decide

/-- What is due at the same time is called although it has been cleared. -/
theorem clearedNotCalled_fails :
    ¬ ∀ (clock : ℤ) (tr : List (Timers ℤ × TimerStep ℤ)) (s : Timers ℤ),
      (timerSystem clock).Trace tr s → ClearedNotCalled tr := by
  intro h
  have hnot := h 0 _ _ (System.trace_get clearedTogether_runs)
    (((timerSystem (0 : ℤ)).steps clearedTogether).take 4)
    (((timerSystem (0 : ℤ)).steps clearedTogether).drop 5) _ 1 10 rfl (by decide) (by decide)
  exact absurd (hnot ⟨10, 1⟩ (by decide)) (by decide)

/-- The second timer is cleared before, and a third one is set by the callback. -/
def clearedBefore : List (TimerStep ℤ) :=
  [.setTimeout (some 10) 0 0, .setTimeout (some 10) 0 0, .clearTimeout 1 5, .runCallbacks 10 10,
    .call 10, .setTimeout none 10 10, .finish true, .runCallbacks 11 11, .call 11]

theorem clearedBefore_runs : ((timerSystem (0 : ℤ)).run clearedBefore).isSome := by decide

/-- What is cleared before is not called. -/
theorem timersRun_clearedBefore :
    TimersRun ((timerSystem (0 : ℤ)).steps clearedBefore)
        (((timerSystem (0 : ℤ)).run clearedBefore).get clearedBefore_runs) ∧
      ClearedNotCalled ((timerSystem (0 : ℤ)).steps clearedBefore) :=
  have h := TimersRun.of_run (System.trace_get clearedBefore_runs)
  ⟨h.1, h.2 (by decide)⟩

end Runs

end MatrixSdk.Client
