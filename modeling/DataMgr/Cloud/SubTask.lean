import DataMgr.Cloud.TaskChain
import DataMgr.Foundation.Machine
import DataMgr.Foundation.OrderedMap

/-! # Renewing subscriptions

A task renews the subscriptions of a user twelve hours before the first of them expires. There
is one such task for all users: while it is outstanding, another call of `InitSubTask` can only
move it, and it stays the task of the user it was made for. The times are unsigned, in
milliseconds, and a delay is handed to the executor as a signed number of nanoseconds.
-/

namespace DataMgr.Cloud

open DataMgr.Foundation

structure Subscription where
  userId : Int
  expiresTime : OrderedMap String (BitVec 64)

def timeBeforeSub : BitVec 64 := 43200000

namespace Subscription

variable (sub : Subscription)

def getMinExpireTime : BitVec 64 :=
  match sub.expiresTime.values with
  | [] => 0
  | first :: rest => rest.foldl (fun expire time =>
      if time = 0 then expire else if time < expire then time else expire) first

def earliest : Option Nat :=
  ((sub.expiresTime.values.map BitVec.toNat).filter (· ≠ 0)).min?

end Subscription

/-- The task of `GenSubTask`, due at a time in nanoseconds. -/
structure RenewalTask where
  user : Int
  due : Int
deriving DecidableEq, Repr

/-- `subTask_` is valid while its task is outstanding, since the task resets it when it fires. -/
structure SubTaskState where
  executor : Bool := true
  subTask : Option RenewalTask := none
  expireTime : BitVec 64
  /-- What the tasks that fired have submitted. -/
  renewals : List ServiceTask := []
  /-- For a user who has asked since the last renewal: when that is to be, in milliseconds. -/
  asked : Int → Option Int := fun _ => none

variable (now expire minInterval : BitVec 64) (s : SubTaskState) (sub : Subscription)

/-- `milliseconds(delay)` is a signed number, converted to nanoseconds for the executor. -/
def dueTime (now delay : BitVec 64) : Int :=
  now.toNat * 1000000 + (delay.toInt * 1000000).bmod (2 ^ 64)

def renewalDelay : BitVec 64 :=
  let left := if expire > now then expire - now else 0
  if left < minInterval then minInterval else left

def Subscription.bound (now minInterval : BitVec 64) : Option Int :=
  sub.earliest.map fun (earliest : Nat) =>
    max (now.toNat + minInterval.toNat : Int) (earliest - timeBeforeSub.toNat)

namespace SubTaskState

def initSubTask (now : BitVec 64) (sub : Subscription) (minInterval : BitVec 64) : SubTaskState :=
  let expire := sub.getMinExpireTime
  if expire = 0 ∨ s.executor = false then s
  else
    let expire := expire - timeBeforeSub
    let due := dueTime now (renewalDelay now expire minInterval)
    let expireTime := if expire > now then expire else now
    match s.subTask with
    | some task =>
        if expire < s.expireTime then { s with subTask := some { task with due }, expireTime }
        else s
    | none => { s with subTask := some ⟨sub.userId, due⟩, expireTime }

/-- The task of `GenSubTask`; `subscribes` says that the user has cloud info with the cloud and
some application switched on. -/
def fire (task : RenewalTask) (subscribes : Bool) : SubTaskState :=
  { s with
    subTask := none
    renewals := if subscribes then s.renewals ++ [⟨0, task.user, [.doSubscribe]⟩] else s.renewals }

end SubTaskState

inductive SubAction where
  | initSubTask (now : BitVec 64) (sub : Subscription) (minInterval : BitVec 64)
  | fire (subscribes : Bool)

namespace SubTaskState

def step : SubAction → Option SubTaskState
  | .initSubTask now sub minInterval =>
      some { s.initSubTask now sub minInterval with
        asked := Function.update s.asked sub.userId (sub.bound now minInterval) }
  | .fire subscribes =>
      s.subTask.map fun task =>
        { s.fire task subscribes with asked := Function.update s.asked task.user none }

end SubTaskState

def subTaskMachine : Machine SubTaskState SubAction := ⟨SubTaskState.step⟩

theorem toNat_foldl_min (times : List (BitVec 64)) (expire : BitVec 64) :
    (times.foldl (fun expire time =>
        if time = 0 then expire else if time < expire then time else expire) expire).toNat =
      ((times.map BitVec.toNat).filter (· ≠ 0)).foldl min expire.toNat := by
  induction times generalizing expire with
  | nil => rfl
  | cons time rest ih =>
      rw [List.foldl_cons, ih, List.map_cons]
      by_cases hzero : time = 0
      · simp [hzero]
      have hnat : time.toNat ≠ 0 := fun h => hzero (BitVec.eq_of_toNat_eq h)
      rw [if_neg hzero, List.filter_cons_of_pos (by simpa using hnat), List.foldl_cons]
      congr 1
      split
      · rename_i hlt
        have : time.toNat < expire.toNat := hlt
        omega
      · rename_i hle
        have : ¬ time.toNat < expire.toNat := hle
        omega

namespace Subscription

theorem getMinExpireTime_of_zero {sub : Subscription} {rest : List (BitVec 64)}
    (h : sub.expiresTime.values = 0 :: rest) : sub.getMinExpireTime = 0 := by
  have hzero : ∀ times : List Nat, times.foldl min 0 = 0 := by
    intro times
    induction times with
    | nil => rfl
    | cons time times ih => rw [List.foldl_cons, Nat.zero_min, ih]
  apply BitVec.eq_of_toNat_eq
  rw [getMinExpireTime, h]
  rw [toNat_foldl_min]
  exact hzero _

theorem toNat_getMinExpireTime {sub : Subscription} {first : BitVec 64} {rest : List (BitVec 64)}
    (h : sub.expiresTime.values = first :: rest) (hfirst : first ≠ 0) :
    sub.earliest = some sub.getMinExpireTime.toNat := by
  have hnat : first.toNat ≠ 0 := fun hzero => hfirst (BitVec.eq_of_toNat_eq hzero)
  unfold earliest getMinExpireTime
  rw [h]
  rw [toNat_foldl_min, List.map_cons, List.filter_cons_of_pos (by simpa using hnat),
    List.min?_cons']

theorem getMinExpireTime_of_earliest_none {sub : Subscription} (h : sub.earliest = none) :
    sub.getMinExpireTime = 0 := by
  cases hvalues : sub.expiresTime.values with
  | nil => rw [getMinExpireTime, hvalues]
  | cons first rest =>
      by_cases hfirst : first = 0
      · exact getMinExpireTime_of_zero (hfirst ▸ hvalues)
      · rw [toNat_getMinExpireTime hvalues hfirst] at h
        cases h

end Subscription

theorem dueTime_le (now delay : BitVec 64) :
    dueTime now delay ≤ (now.toNat + delay.toNat : Int) * 1000000 := by
  have hle : (delay.toInt * 1000000).bmod (2 ^ 64) ≤ (delay.toNat : Int) * 1000000 := by
    rw [BitVec.toInt_eq_toNat_bmod, Int.bmod_mul_bmod]
    by_cases hsmall : (delay.toNat : Int) * 1000000 < 2 ^ 63
    · rw [Int.bmod_eq_of_le] <;> omega
    · have hlt := Int.bmod_lt (x := (delay.toNat : Int) * 1000000) (m := 2 ^ 64) (by norm_num)
      omega
  unfold dueTime
  omega

theorem toNat_renewalDelay :
    (renewalDelay now expire minInterval).toNat =
      max (expire.toNat - now.toNat) minInterval.toNat := by
  have hleft : (if expire > now then expire - now else 0).toNat = expire.toNat - now.toNat := by
    split
    · bv_omega
    rename_i hle
    have hle : ¬ now.toNat < expire.toNat := hle
    have hzero : (0 : BitVec 64).toNat = 0 := rfl
    omega
  unfold renewalDelay
  simp only
  generalize (if expire > now then expire - now else 0) = left at hleft ⊢
  split
  · rename_i hlt
    have hlt : left.toNat < minInterval.toNat := hlt
    omega
  · rename_i hge
    have hge : ¬ left.toNat < minInterval.toNat := hge
    omega

/-- Where twelve hours before the expiry time would be before zero, the delay comes out
negative, as long as the clock is not near its end. -/
theorem dueTime_of_lt {now expire : BitVec 64} (minInterval : BitVec 64)
    (h : expire.toNat < timeBeforeSub.toNat)
    (hclock : (now.toNat + timeBeforeSub.toNat - expire.toNat) * 1000000 ≤ 2 ^ 63) :
    dueTime now (renewalDelay now (expire - timeBeforeSub) minInterval) ≤
      (now.toNat + minInterval.toNat : Int) * 1000000 := by
  have hexpire : (expire - timeBeforeSub).toNat =
      2 ^ 64 - (timeBeforeSub.toNat - expire.toNat) := by
    bv_omega
  have hdelay := toNat_renewalDelay now (expire - timeBeforeSub) minInterval
  rw [hexpire] at hdelay
  by_cases hinterval : 2 ^ 64 - (timeBeforeSub.toNat - expire.toNat) - now.toNat ≤
      minInterval.toNat
  · have hdue := dueTime_le now (renewalDelay now (expire - timeBeforeSub) minInterval)
    rw [hdelay, max_eq_right hinterval] at hdue
    exact hdue
  · have hint : (renewalDelay now (expire - timeBeforeSub) minInterval).toInt =
        -(now.toNat + timeBeforeSub.toNat - expire.toNat : Int) := by
      rw [BitVec.toInt_eq_toNat_cond, hdelay]
      split <;> omega
    unfold dueTime
    rw [hint, Int.bmod_eq_of_le] <;> omega

namespace SubTaskState

variable {s s' : SubTaskState} {a : SubAction}

/-- For every user who has asked since the last renewal, a task is outstanding that is due in
time. -/
def RenewedInTime (s : SubTaskState) : Prop :=
  ∀ user bound, s.asked user = some bound →
    ∃ task, s.subTask = some task ∧ task.user = user ∧ task.due ≤ bound * 1000000

/-- A call asks for a renewal only while no task of another user is outstanding; the user's own
is due in time or is moved; the first expiry time is not zero; and the earliest one is at least
twelve hours, or the clock is not near its end. -/
def InTurn (s : SubTaskState) : SubAction → Prop
  | .initSubTask now sub minInterval =>
      ∀ earliest ∈ sub.earliest, ∀ bound ∈ sub.bound now minInterval,
      sub.expiresTime.values.head? ≠ some 0 ∧
        (timeBeforeSub.toNat ≤ earliest ∨
          (now.toNat + timeBeforeSub.toNat - earliest) * 1000000 ≤ 2 ^ 63) ∧
        ∀ task ∈ s.subTask, task.user = sub.userId ∧
          (task.due ≤ bound * 1000000 ∨
            timeBeforeSub.toNat ≤ earliest ∧ earliest < s.expireTime.toNat + timeBeforeSub.toNat)
  | .fire _ => True

instance (s : SubTaskState) (a : SubAction) : Decidable (s.InTurn a) :=
  match a with
  | .initSubTask .. => inferInstanceAs (Decidable (∀ _ ∈ _, ∀ _ ∈ _, _))
  | .fire _ => isTrue trivial

theorem initSubTask_subTask (hexecutor : s.executor = true) {now minInterval : BitVec 64}
    {sub : Subscription} (hguard : s.InTurn (.initSubTask now sub minInterval)) {bound : Int}
    (hbound : sub.bound now minInterval = some bound) :
    ∃ task, (s.initSubTask now sub minInterval).subTask = some task ∧ task.user = sub.userId ∧
      task.due ≤ bound * 1000000 := by
  obtain ⟨earliest, hearliest, rfl⟩ := Option.map_eq_some_iff.mp hbound
  obtain ⟨hhead, hclock, htask⟩ := hguard earliest hearliest _ hbound
  obtain ⟨hnonzero, htoNat⟩ : sub.getMinExpireTime ≠ 0 ∧
      sub.getMinExpireTime.toNat = earliest := by
    cases hvalues : sub.expiresTime.values with
    | nil => simp [Subscription.earliest, hvalues] at hearliest
    | cons first rest =>
        rw [hvalues] at hhead
        have hfirst : first ≠ 0 := fun hzero => hhead (by rw [hzero]; rfl)
        have hmin := Subscription.toNat_getMinExpireTime hvalues hfirst
        have heq : sub.getMinExpireTime.toNat = earliest :=
          Option.some.inj (hmin.symm.trans hearliest)
        refine ⟨fun hzero => ?_, heq⟩
        rw [hzero] at heq
        have hmem := List.min?_mem hearliest
        rw [List.mem_filter] at hmem
        exact of_decide_eq_true hmem.2 heq.symm
  have hdue : dueTime now (renewalDelay now (sub.getMinExpireTime - timeBeforeSub) minInterval) ≤
      max (now.toNat + minInterval.toNat : Int) (earliest - timeBeforeSub.toNat) * 1000000 := by
    by_cases hhours : timeBeforeSub.toNat ≤ earliest
    · rw [← htoNat] at hhours ⊢
      have hdue := dueTime_le now
        (renewalDelay now (sub.getMinExpireTime - timeBeforeSub) minInterval)
      have hexpire : (sub.getMinExpireTime - timeBeforeSub).toNat =
          sub.getMinExpireTime.toNat - timeBeforeSub.toNat := by bv_omega
      rw [toNat_renewalDelay, hexpire] at hdue
      omega
    rw [← htoNat] at hclock hhours ⊢
    have hlt := dueTime_of_lt minInterval (Nat.lt_of_not_le hhours)
      (hclock.resolve_left hhours)
    omega
  unfold initSubTask
  simp only [hnonzero, hexecutor, Bool.true_eq_false, or_self, if_false]
  cases hsub : s.subTask with
  | none => exact ⟨_, rfl, rfl, hdue⟩
  | some task =>
      obtain ⟨huser, hmoves⟩ := htask task hsub
      simp only
      split
      · exact ⟨_, rfl, huser, hdue⟩
      rename_i hstays
      refine ⟨task, hsub, huser, hmoves.resolve_right ?_⟩
      rintro ⟨hhours, hearlier⟩
      refine hstays ?_
      have hexpire : (sub.getMinExpireTime - timeBeforeSub).toNat =
          sub.getMinExpireTime.toNat - timeBeforeSub.toNat := by
        bv_omega
      change (sub.getMinExpireTime - timeBeforeSub).toNat < s.expireTime.toNat
      omega

theorem executor_step (hstep : s.step a = some s') : s'.executor = s.executor := by
  cases a with
  | initSubTask now sub minInterval =>
      cases hstep
      unfold initSubTask
      simp only
      split
      · rfl
      · split
        · split <;> rfl
        · rfl
  | fire subscribes =>
      obtain ⟨task, -, rfl⟩ := Option.map_eq_some_iff.mp hstep
      rfl

theorem renewedInTime_step (hexecutor : s.executor = true) (h : s.RenewedInTime)
    (hguard : s.InTurn a) (hstep : s.step a = some s') : s'.RenewedInTime := by
  cases a with
  | initSubTask now sub minInterval =>
      cases hstep
      intro user bound hasked
      simp only at hasked
      cases hbound : sub.bound now minInterval with
      | none =>
          have hnone : sub.getMinExpireTime = 0 :=
            Subscription.getMinExpireTime_of_earliest_none (Option.map_eq_none_iff.mp hbound)
          have hsame : s.initSubTask now sub minInterval = s := by
            simp [initSubTask, hnone]
          rw [hbound] at hasked
          by_cases huser : user = sub.userId
          · rw [huser, Function.update_self] at hasked
            cases hasked
          · rw [Function.update_of_ne huser] at hasked
            rw [hsame]
            exact h user bound hasked
      | some asks =>
          obtain ⟨task, htask, hown, hdue⟩ := initSubTask_subTask hexecutor hguard hbound
          rw [hbound] at hasked
          by_cases huser : user = sub.userId
          · subst huser
            rw [Function.update_self] at hasked
            cases hasked
            exact ⟨task, htask, hown, hdue⟩
          · rw [Function.update_of_ne huser] at hasked
            obtain ⟨old, hold, holdUser, -⟩ := h user bound hasked
            obtain ⟨earliest, hearliest, -⟩ := Option.map_eq_some_iff.mp hbound
            have hcalls := ((hguard earliest hearliest _ hbound).2.2 old hold).1
            exact absurd (holdUser.symm.trans hcalls) huser
  | fire subscribes =>
      obtain ⟨task, htask, rfl⟩ := Option.map_eq_some_iff.mp hstep
      intro user bound hasked
      simp only at hasked
      by_cases huser : user = task.user
      · rw [huser, Function.update_self] at hasked
        cases hasked
      rw [Function.update_of_ne huser] at hasked
      obtain ⟨old, hold, holdUser, -⟩ := h user bound hasked
      obtain rfl : task = old := Option.some.inj (htask.symm.trans hold)
      exact absurd holdUser.symm huser

end SubTaskState

/-- As long as every call is in turn, the subscriptions are renewed in time. -/
theorem subscriptions_renewed (expireTime : BitVec 64) {actions : List SubAction}
    {s : SubTaskState} (hrun : subTaskMachine.exec { expireTime } actions = some s)
    (hguard : subTaskMachine.Guarded SubTaskState.InTurn { expireTime } actions) :
    s.RenewedInTime := by
  have hkeeps : ∀ (s : SubTaskState) (a : SubAction) (s' : SubTaskState),
      s.executor = true ∧ s.RenewedInTime → s.InTurn a → subTaskMachine.step s a = some s' →
        s'.executor = true ∧ s'.RenewedInTime := by
    rintro s a s' ⟨hexecutor, hrenewed⟩ hturn hstep
    exact ⟨(SubTaskState.executor_step hstep).trans hexecutor,
      SubTaskState.renewedInTime_step hexecutor hrenewed hturn hstep⟩
  have hinit : ({ expireTime } : SubTaskState).RenewedInTime := by
    intro user bound hasked
    cases hasked
  exact (subTaskMachine.exec_guarded_invariant hkeeps ⟨rfl, hinit⟩ hguard hrun).2

def notesExpire (userId : Int) (time : BitVec 64) : Subscription :=
  ⟨userId, ⟨[("notes", time)], List.pairwise_singleton _ _⟩⟩

/-- A user asks for a renewal and for an earlier one; it takes place, and another user asks. -/
def renewedTwice : List SubAction :=
  [.initSubTask 1000 (notesExpire 100 864000000) 0,
    .initSubTask 2000 (notesExpire 100 432000000) 3600000, .fire true,
    .initSubTask 3000 (notesExpire 101 864000000) 0]

theorem subscriptions_renewed_twice :
    ∃ s, subTaskMachine.exec { expireTime := 0 } renewedTwice = some s ∧
      s.subTask = some ⟨101, 820800000000000⟩ ∧ s.renewals.map ServiceTask.user = [100] ∧
        s.asked 101 = some 820800000 ∧ s.RenewedInTime := by
  have hrun : (subTaskMachine.exec { expireTime := 0 } renewedTwice).map
      (fun s => (s.subTask, s.renewals.map ServiceTask.user, s.asked 101)) =
        some (some ⟨101, 820800000000000⟩, [100], some 820800000) := by
    decide +kernel
  obtain ⟨s, hs, hfields⟩ := Option.map_eq_some_iff.mp hrun
  simp only [Prod.mk.injEq] at hfields
  obtain ⟨htask, hrenewals, hasked⟩ := hfields
  exact ⟨s, hs, htask, hrenewals, hasked, subscriptions_renewed 0 hs (by decide +kernel)⟩

/-- The run leaves a renewal that was asked for without a task in time. -/
def MissesRenewal (actions : List SubAction) : Prop :=
  ∃ s, subTaskMachine.exec { expireTime := 0 } actions = some s ∧ ¬ s.RenewedInTime

theorem missesRenewal_of_due {actions : List SubAction} (bound : Int) (due : Option (Int × Int))
    (hrun : (subTaskMachine.exec { expireTime := 0 } actions).map (fun s =>
      (s.asked 101, s.subTask.map fun task => (task.user, task.due))) = some (some bound, due))
    (hlate : ∀ task ∈ due, task.1 = 101 → bound * 1000000 < task.2) : MissesRenewal actions := by
  obtain ⟨s, hs, hfields⟩ := Option.map_eq_some_iff.mp hrun
  obtain ⟨hasked, hdue⟩ := Prod.mk.inj hfields
  refine ⟨s, hs, fun hrenewed => ?_⟩
  obtain ⟨task, htask, huser, hle⟩ := hrenewed 101 bound hasked
  rw [htask] at hdue
  have hlt := hlate (task.user, task.due) hdue.symm huser
  omega

/-- A user asks while the task of another is outstanding; a zero comes first; or the earlier
renewal a user asks for would be before zero. -/
theorem renewals_missing :
    MissesRenewal [.initSubTask 1000 (notesExpire 100 864000000) 0,
      .initSubTask 1000 (notesExpire 101 432000000) 0] ∧
    MissesRenewal
      [.initSubTask 1000 ⟨101, ⟨[("mail", 0), ("notes", 864000000)], by decide⟩⟩ 0] ∧
    MissesRenewal [.initSubTask 1000 (notesExpire 101 864000000) 0,
      .initSubTask 1000 (notesExpire 101 1000) 0] :=
  ⟨missesRenewal_of_due 388800000 (some (100, 388800000000000)) (by decide +kernel) (by decide),
    missesRenewal_of_due 820800000 none (by decide +kernel) (by decide),
    missesRenewal_of_due 1000 (some (101, 820800000000000)) (by decide +kernel) (by decide)⟩

end DataMgr.Cloud
