import BcmServer.Dispatcher.Address
import BcmServer.Lts.Run
import Mathlib.Logic.Function.Basic

/-!
# BcmServer.Push.ApnsQos — resending notifications to devices that do not connect

After a notification was sent to a device it is sent again from time to time until the
device connects, or a number of times at most. For each address there is a task with a
timer that goes off again and again. When it goes off, a CHECK is published on the
channel of the device; the reply says how many subscribers there are. If there is none
the notification is sent again. A task goes away when its device connects, when it is
online, and after the last time.

`resend_bounds`: the bounds hold in every run in which each reply finds the task that
asked for it, and no reply says that there are two subscribers or more. Two subscribers
count as nobody (`resent_to_subscribers`); and a reply keeps a bare pointer to its task,
so what it does to a task that has gone away is not defined at all.

All of this runs on the thread of one event loop. Subscribing to the channels on which
connections are announced is left out: messages come at any time.
-/

namespace BcmServer.Push

open Util Dispatcher Lts

/-- `DispatchAddress::getSerializedForOnlineNotify` -/
def onlineNotify (addr : DispatchAddress) : Bytes := ascii ['o', 'n', ':'] ++ addr.getSerialized

/-- `ResendTask`: a task that has its timer. Tasks are told apart by numbers, as by pointers. -/
structure ResendTask (N : Type) where
  id : ℕ
  addr : DispatchAddress
  apnsType : Bytes
  notification : N
  resendCount : ℕ := 0

/-- What the publication of a CHECK is answered -/
structure CheckReply where
  res : Int32
  integer : Int64
deriving DecidableEq, Repr

/-- A reply says how many subscribers there are, if the publication succeeded. -/
def CheckReply.subscribers (reply : CheckReply) : ℤ :=
  if reply.res = 0 then reply.integer.toInt else 0

/-- A CHECK that has not been answered: the task that asked, and its address -/
structure Check where
  taskId : ℕ
  chan : Bytes
deriving DecidableEq, Repr

/-- What happened, by the channel of an address -/
inductive QosEvent (N : Type) where
  | scheduled (chan : Bytes)
  | connected (chan : Bytes)
  | resent (chan : Bytes) (apnsType : Bytes) (notification : N) (reply : CheckReply)

/-- `QosMgrImpl`, with the CHECKs that are under way and what happened, the last event first -/
structure QosMgr (N : Type) where
  maxResendCount : Int32
  tasks : Bytes → Option (ResendTask N) := fun _ => none
  checks : List Check := []
  nextId : ℕ := 0
  log : List (QosEvent N) := []

namespace QosMgr

variable {N : Type}

def setTask (s : QosMgr N) (chan : Bytes) (task : Option (ResendTask N)) : QosMgr N :=
  { s with tasks := Function.update s.tasks chan task }

def note (s : QosMgr N) (e : QosEvent N) : QosMgr N := { s with log := e :: s.log }

/-- `isTaskExists` -/
def isTaskExists (s : QosMgr N) (addr : DispatchAddress) : Bool :=
  (s.tasks (onlineNotify addr)).isSome

/-- `doScheduleResend`; a timer that cannot be added leaves no task. -/
def doScheduleResend (s : QosMgr N) (addr : DispatchAddress) (apnsType : Bytes) (notification : N)
    (added : Bool) : QosMgr N :=
  let chan := onlineNotify addr
  match s.tasks chan with
  | some task =>
      let task : ResendTask N :=
        { task with
          apnsType := apnsType
          notification := notification
          resendCount := 0 }
      (s.setTask chan (some task)).note (.scheduled chan)
  | none =>
      let task : ResendTask N := ⟨s.nextId, addr, apnsType, notification, 0⟩
      if added then
        { (s.setTask chan (some task)).note (.scheduled chan) with nextId := s.nextId + 1 }
      else { s with nextId := s.nextId + 1 }

/-- `doUnscheduleResend` -/
def doUnscheduleResend (s : QosMgr N) (chan : Bytes) : QosMgr N := s.setTask chan none

/-- `ResendTask::onTimeout`, of the task of a channel -/
def onTimeout (s : QosMgr N) (chan : Bytes) : Option (QosMgr N) :=
  (s.tasks chan).map fun task => { s with checks := s.checks ++ [⟨task.id, chan⟩] }

/-- `ResendTask::onCheckUserOnline`, of a task that is there -/
def onCheckUserOnline (s : QosMgr N) (task : ResendTask N) (reply : CheckReply) : QosMgr N :=
  let isOnline := reply.res = 0 && reply.integer = 1
  let chan := onlineNotify task.addr
  if !s.isTaskExists task.addr then s
  else if isOnline then s.doUnscheduleResend chan
  else
    let s := s.note (.resent chan task.apnsType task.notification reply)
    let task := { task with resendCount := task.resendCount + 1 }
    if s.maxResendCount.toInt ≤ task.resendCount then s.doUnscheduleResend chan
    else s.setTask chan (some task)

/-- `onMessage`; only CONNECTED does anything. -/
def onMessage (s : QosMgr N) (chan : Bytes) (isConnected : Bool) : QosMgr N :=
  if isConnected then (s.doUnscheduleResend chan).note (.connected chan) else s

/-- The task that asked is the one of its address. -/
def Alive (s : QosMgr N) (c : Check) : Prop := (s.tasks c.chan).any fun task => task.id = c.taskId

instance (s : QosMgr N) (c : Check) : Decidable (s.Alive c) :=
  inferInstanceAs (Decidable (_ = true))

/-- A step of the event loop. What a reply does to a task that has gone away is not defined:
any state may come after it. -/
inductive Step (N : Type) where
  | schedule (addr : DispatchAddress) (apnsType : Bytes) (notification : N) (added : Bool)
  | timeout (chan : Bytes)
  | reply (i : ℕ) (reply : CheckReply) (undefined : QosMgr N)
  | message (chan : Bytes) (isConnected : Bool)

/-- The reply of a CHECK, in the order in which they come -/
def onReply (s : QosMgr N) (i : ℕ) (reply : CheckReply) (undefined : QosMgr N) :
    Option (QosMgr N) :=
  match s.checks[i]? with
  | none => none
  | some c =>
      let s : QosMgr N := { s with checks := s.checks.eraseIdx i }
      match (s.tasks c.chan).filter fun task => task.id = c.taskId with
      | some task => some (s.onCheckUserOnline task reply)
      | none => some undefined

def machine : Machine (QosMgr N) (Step N) where
  step s
    | .schedule addr apnsType notification added =>
        some (s.doScheduleResend addr apnsType notification added)
    | .timeout chan => s.onTimeout chan
    | .reply i reply undefined => s.onReply i reply undefined
    | .message chan isConnected => some (s.onMessage chan isConnected)

/-- No task is there yet. -/
def start (maxResendCount : Int32) : QosMgr N := { maxResendCount := maxResendCount }

end QosMgr

/-! ## The bounds -/

namespace QosEvent

variable {N : Type}

/-- The address an event is about -/
def chan : QosEvent N → Bytes
  | scheduled c => c
  | connected c => c
  | resent c _ _ _ => c

def isScheduled (chan : Bytes) : QosEvent N → Bool
  | scheduled c => c = chan
  | _ => false

def isConnected (chan : Bytes) : QosEvent N → Bool
  | connected c => c = chan
  | _ => false

def isResent (chan : Bytes) : QosEvent N → Bool
  | resent c _ _ _ => c = chan
  | _ => false

theorem other {e : QosEvent N} {c : Bytes} (h : e.chan ≠ c) :
    e.isScheduled c = false ∧ e.isConnected c = false ∧ e.isResent c = false := by
  cases e <;> simpa [isScheduled, isConnected, isResent, chan] using h

end QosEvent

namespace QosMgr

variable {N : Type}

/-- What happened since the address was scheduled last -/
def sinceSchedule (chan : Bytes) (log : List (QosEvent N)) : List (QosEvent N) :=
  log.takeWhile fun e => !e.isScheduled chan

/-- How often the notification was sent again since then -/
def resends (chan : Bytes) (log : List (QosEvent N)) : ℕ :=
  (sinceSchedule chan log).countP (QosEvent.isResent chan)

/-- The device has connected since then. -/
def hasConnected (chan : Bytes) (log : List (QosEvent N)) : Bool :=
  (sinceSchedule chan log).any (QosEvent.isConnected chan)

/-- `max(1, maxResendCount)` -/
def maxResends (maxResendCount : Int32) : ℕ := max 1 maxResendCount.toInt.toNat

/-- The bounds, at every time up to now -/
structure Obeys (maxResendCount : Int32) (log : List (QosEvent N)) : Prop where
  bounded : ∀ l, l <:+ log → ∀ chan, resends chan l ≤ maxResends maxResendCount
  silent : ∀ e l, e :: l <:+ log → ∀ chan, e.isResent chan = true → hasConnected chan l = false
  offline : ∀ (chan apnsType : Bytes) (notification : N) (reply : CheckReply),
    .resent chan apnsType notification reply ∈ log → reply.subscribers < 1

/-- A step changes no task but the one that asked. -/
def OnlyTask (s t : QosMgr N) (c : Check) : Prop :=
  (∀ chan task, s.tasks chan = some task → task.id ≠ c.taskId → t.tasks chan = some task) ∧
    ∀ chan, s.tasks chan = none → t.tasks chan = none

/-- A reply finds the task that asked, and does not say that there are two subscribers or more. -/
def Orderly (s : QosMgr N) : Step N → Prop
  | .reply i reply _ => ∀ c ∈ s.checks[i]?, s.Alive c ∧ reply.subscribers < 2
  | _ => True

instance (s : QosMgr N) : DecidablePred s.Orderly
  | .reply i reply _ =>
      inferInstanceAs (Decidable (∀ c ∈ s.checks[i]?, s.Alive c ∧ reply.subscribers < 2))
  | .schedule .. => inferInstanceAs (Decidable True)
  | .timeout _ => inferInstanceAs (Decidable True)
  | .message .. => inferInstanceAs (Decidable True)

/-! ## Events of other addresses -/

section Log

variable {chan chan' : Bytes} {log : List (QosEvent N)} {e : QosEvent N}

theorem sinceSchedule_scheduled : sinceSchedule chan (.scheduled chan :: log) = [] := by
  simp [sinceSchedule, QosEvent.isScheduled]

theorem sinceSchedule_cons (h : e.isScheduled chan = false) :
    sinceSchedule chan (e :: log) = e :: sinceSchedule chan log := by
  simp [sinceSchedule, h]

theorem resends_scheduled : resends chan (.scheduled chan :: log) = 0 := by
  rw [resends, sinceSchedule_scheduled, List.countP_nil]

theorem hasConnected_scheduled : hasConnected chan (.scheduled chan :: log) = false := by
  rw [hasConnected, sinceSchedule_scheduled, List.any_nil]

/-- What happens to another address counts for nothing. -/
theorem resends_cons (hs : e.isScheduled chan = false) :
    resends chan (e :: log) = resends chan log + if e.isResent chan then 1 else 0 := by
  rw [resends, sinceSchedule_cons hs, List.countP_cons, resends]

theorem resends_resent {apnsType : Bytes} {notification : N} {reply : CheckReply} :
    resends chan (.resent chan apnsType notification reply :: log) = resends chan log + 1 := by
  rw [resends_cons rfl]
  simp [QosEvent.isResent]

theorem hasConnected_cons (hs : e.isScheduled chan = false) :
    hasConnected chan (e :: log) = (e.isConnected chan || hasConnected chan log) := by
  rw [hasConnected, sinceSchedule_cons hs, List.any_cons, hasConnected]

theorem resends_cons_le (hr : e.isResent chan = false) :
    resends chan (e :: log) ≤ resends chan log := by
  by_cases hs : e.isScheduled chan = true
  · have hnil : sinceSchedule chan (e :: log) = [] := by simp [sinceSchedule, hs]
    rw [resends, hnil, List.countP_nil]
    exact Nat.zero_le _
  · rw [resends_cons (Bool.not_eq_true _ ▸ hs), hr]
    exact Nat.le_of_eq rfl

theorem suffix_cons_cases {l : List (QosEvent N)} (h : l <:+ e :: log) :
    l = e :: log ∨ l <:+ log := List.suffix_cons_iff.mp h

variable {maxResendCount : Int32}

/-- An event that is no resending breaks nothing. -/
theorem Obeys.cons (h : Obeys maxResendCount log) (hr : ∀ chan, e.isResent chan = false) :
    Obeys maxResendCount (e :: log) := by
  constructor
  · intro l hl chan
    obtain rfl | hl := suffix_cons_cases hl
    · exact (resends_cons_le (hr chan)).trans (h.bounded log List.suffix_rfl chan)
    · exact h.bounded l hl chan
  · intro e' l hl chan hresent
    obtain heq | hl := suffix_cons_cases hl
    · obtain ⟨rfl, rfl⟩ := List.cons.inj heq
      rw [hr chan] at hresent
      cases hresent
    · exact h.silent e' l hl chan hresent
  · intro chan apnsType notification reply hmem
    obtain rfl | hmem := List.mem_cons.mp hmem
    · have hself := hr chan
      simp [QosEvent.isResent] at hself
    · exact h.offline chan apnsType notification reply hmem

/-- A resending for a task that has some left and whose device is not there -/
theorem Obeys.resent (h : Obeys maxResendCount log) {apnsType : Bytes} {notification : N}
    {reply : CheckReply} (hcount : resends chan log < maxResends maxResendCount)
    (hconnected : hasConnected chan log = false) (hreply : reply.subscribers < 1) :
    Obeys maxResendCount (.resent chan apnsType notification reply :: log) := by
  constructor
  · intro l hl chan'
    obtain rfl | hl := suffix_cons_cases hl
    · -- one more for this address, none for another
      rw [resends_cons rfl]
      by_cases hchan : chan = chan'
      · subst hchan
        simpa [QosEvent.isResent] using hcount
      · simpa [QosEvent.isResent, hchan] using h.bounded log List.suffix_rfl chan'
    · exact h.bounded l hl chan'
  · intro e l hl chan' hresent
    obtain heq | hl := suffix_cons_cases hl
    · obtain ⟨rfl, rfl⟩ := List.cons.inj heq
      simp only [QosEvent.isResent, decide_eq_true_eq] at hresent
      rw [← hresent]
      exact hconnected
    · exact h.silent e l hl chan' hresent
  · intro chan' apnsType' notification' reply' hmem
    obtain heq | hmem := List.mem_cons.mp hmem
    · cases heq
      exact hreply
    · exact h.offline chan' apnsType' notification' reply' hmem

end Log

/-! ## Tasks -/

/-- A task has counted how often it sent, has some left, and its device has not connected. -/
structure TaskOk (s : QosMgr N) (chan : Bytes) (task : ResendTask N) : Prop where
  addr : onlineNotify task.addr = chan
  counted : resends chan s.log = task.resendCount
  left : task.resendCount < maxResends s.maxResendCount
  waiting : hasConnected chan s.log = false

/-- What holds in every state -/
structure Inv (maxResendCount : Int32) (s : QosMgr N) : Prop where
  max : s.maxResendCount = maxResendCount
  obeys : Obeys maxResendCount s.log
  tasks : ∀ chan task, s.tasks chan = some task → TaskOk s chan task

variable {maxResendCount : Int32} {s t : QosMgr N} {chan : Bytes}

/-- An address is scheduled when nothing has been sent again. -/
theorem taskOk_scheduled {task : ResendTask N} (haddr : onlineNotify task.addr = chan)
    (hcount : task.resendCount = 0) (hlog : t.log = .scheduled chan :: s.log) :
    TaskOk t chan task := by
  refine ⟨haddr, ?_, ?_, ?_⟩
  · rw [hlog, resends_scheduled, hcount]
  · rw [hcount]
    exact Nat.lt_of_lt_of_le Nat.zero_lt_one (Nat.le_max_left _ _)
  · rw [hlog, hasConnected_scheduled]

/-- The task of one address changes, and something happens to this address. -/
theorem Inv.change (h : Inv maxResendCount s) {task? : Option (ResendTask N)} {e : QosEvent N}
    (hmax : t.maxResendCount = s.maxResendCount) (hlog : t.log = e :: s.log)
    (htasks : t.tasks = Function.update s.tasks e.chan task?)
    (hobeys : Obeys maxResendCount (e :: s.log))
    (htask : ∀ task ∈ task?, TaskOk t e.chan task) : Inv maxResendCount t := by
  refine ⟨hmax.trans h.max, hlog ▸ hobeys, fun chan task hget => ?_⟩
  rw [htasks] at hget
  by_cases hchan : chan = e.chan
  · subst hchan
    rw [Function.update_self] at hget
    exact htask task hget
  · rw [Function.update_of_ne hchan] at hget
    obtain ⟨haddr, hcounted, hleft, hwaiting⟩ := h.tasks chan task hget
    obtain ⟨hs, hc, hr⟩ := QosEvent.other (Ne.symm hchan)
    refine ⟨haddr, ?_, hmax ▸ hleft, ?_⟩
    · rw [hlog, resends_cons hs, hr]
      exact hcounted
    · rw [hlog, hasConnected_cons hs, hc]
      exact hwaiting

/-- Tasks go away. -/
theorem Inv.drop (h : Inv maxResendCount s) (hmax : t.maxResendCount = s.maxResendCount)
    (hlog : t.log = s.log) (htasks : ∀ chan task, t.tasks chan = some task →
      s.tasks chan = some task) : Inv maxResendCount t := by
  refine ⟨hmax.trans h.max, hlog ▸ h.obeys, fun chan task hget => ?_⟩
  obtain ⟨haddr, hcounted, hleft, hwaiting⟩ := h.tasks chan task (htasks chan task hget)
  exact ⟨haddr, hlog ▸ hcounted, hmax ▸ hleft, hlog ▸ hwaiting⟩

theorem update_none {chan chan' : Bytes} {task : ResendTask N}
    (h : (s.doUnscheduleResend chan).tasks chan' = some task) : s.tasks chan' = some task := by
  by_cases hchan : chan' = chan
  · subst hchan
    simp [doUnscheduleResend, setTask] at h
  · simpa [doUnscheduleResend, setTask, hchan] using h

theorem inv_doScheduleResend (h : Inv maxResendCount s) (addr : DispatchAddress) (apnsType : Bytes)
    (notification : N) (added : Bool) :
    Inv maxResendCount (s.doScheduleResend addr apnsType notification added) := by
  have hobeys : Obeys maxResendCount (.scheduled (onlineNotify addr) :: s.log) :=
    h.obeys.cons fun _ => rfl
  cases hget : s.tasks (onlineNotify addr) with
  | some task =>
      simp only [doScheduleResend, hget]
      refine h.change rfl rfl rfl hobeys fun task' htask' => ?_
      cases htask'
      exact taskOk_scheduled (h.tasks _ task hget).addr rfl rfl
  | none =>
      simp only [doScheduleResend, hget]
      cases added with
      | true =>
          refine h.change rfl rfl rfl hobeys fun task' htask' => ?_
          cases htask'
          exact taskOk_scheduled rfl rfl rfl
      | false => exact h.drop rfl rfl fun _ _ hget => hget

theorem inv_onTimeout (h : Inv maxResendCount s) (hstep : s.onTimeout chan = some t) :
    Inv maxResendCount t := by
  obtain ⟨task, -, rfl⟩ := Option.map_eq_some_iff.mp hstep
  exact h.drop rfl rfl fun _ _ hget => hget

theorem inv_onMessage (h : Inv maxResendCount s) (chan : Bytes) (isConnected : Bool) :
    Inv maxResendCount (s.onMessage chan isConnected) := by
  cases isConnected with
  | false => exact h
  | true =>
      have hobeys : Obeys maxResendCount (.connected chan :: s.log) := h.obeys.cons fun _ => rfl
      exact h.change (e := .connected chan) rfl rfl rfl hobeys fun task htask => by cases htask

/-- A device that is not online has no subscribers, if it does not have two. -/
theorem subscribers_of_offline {reply : CheckReply} (hreply : reply.subscribers < 2)
    (honline : ¬ (reply.res = 0 && reply.integer = 1) = true) : reply.subscribers < 1 := by
  unfold CheckReply.subscribers at hreply ⊢
  by_cases hres : reply.res = 0
  · rw [if_pos hres] at hreply ⊢
    have hne : reply.integer.toInt ≠ 1 := by
      intro hone
      apply honline
      have hint : reply.integer = 1 := Int64.toInt_inj.mp hone
      simp [hres, hint]
    omega
  · rw [if_neg hres]
    exact Int.zero_lt_one

/-- A task that is not online and has not connected sends once more. -/
theorem inv_onCheckUserOnline (h : Inv maxResendCount s) {task : ResendTask N}
    (hget : s.tasks chan = some task) {reply : CheckReply} (hreply : reply.subscribers < 2) :
    Inv maxResendCount (s.onCheckUserOnline task reply) := by
  obtain ⟨rfl, hcounted, hleft, hwaiting⟩ := h.tasks chan task hget
  have hexists : s.isTaskExists task.addr = true := by rw [isTaskExists, hget, Option.isSome_some]
  simp only [onCheckUserOnline, hexists, Bool.not_true, Bool.false_eq_true, if_false]
  by_cases honline : (reply.res = 0 && reply.integer = 1) = true
  · rw [if_pos honline]
    exact h.drop rfl rfl fun _ _ => update_none
  · rw [if_neg honline]
    have hnobody : reply.subscribers < 1 := subscribers_of_offline hreply honline
    have hobeys : Obeys maxResendCount
        (.resent (onlineNotify task.addr) task.apnsType task.notification reply :: s.log) :=
      h.obeys.resent (hcounted ▸ h.max ▸ hleft) hwaiting hnobody
    split
    · -- it was sent for the last time
      refine h.change rfl rfl rfl hobeys fun task' htask' => ?_
      cases htask'
    · rename_i hmore
      refine h.change rfl rfl rfl hobeys fun task' htask' => ?_
      cases htask'
      refine ⟨rfl, ?_, ?_, ?_⟩
      · exact resends_resent.trans (congrArg Nat.succ hcounted)
      · have hlt : task.resendCount + 1 < s.maxResendCount.toInt.toNat := by
          rw [not_le] at hmore
          change ((task.resendCount + 1 : ℕ) : ℤ) < s.maxResendCount.toInt at hmore
          omega
        exact Nat.lt_of_lt_of_le hlt (Nat.le_max_right _ _)
      · exact (hasConnected_cons rfl).trans hwaiting

/-- A reply that is orderly finds the task that asked. -/
theorem onReply_cases {i : ℕ} {reply : CheckReply} {undefined : QosMgr N}
    (horderly : s.Orderly (.reply i reply undefined))
    (hstep : s.onReply i reply undefined = some t) : ∃ c task, s.checks[i]? = some c ∧
      s.tasks c.chan = some task ∧ task.id = c.taskId ∧ reply.subscribers < 2 ∧
      t = onCheckUserOnline { s with checks := s.checks.eraseIdx i } task reply := by
  unfold onReply at hstep
  cases hc : s.checks[i]? with
  | none =>
      rw [hc] at hstep
      cases hstep
  | some c =>
      obtain ⟨halive, hreply⟩ := horderly c hc
      obtain ⟨task, hget, hid⟩ := (Option.any_eq_true _ _).mp halive
      have hfilter : (s.tasks c.chan).filter (fun task => task.id = c.taskId) = some task := by
        rw [hget]
        simpa using hid
      rw [hc] at hstep
      simp only [hfilter, Option.some.injEq] at hstep
      exact ⟨c, task, rfl, hget, by simpa using hid, hreply, hstep.symm⟩

/-- What a task does when it is answered changes no task of another address. -/
theorem onCheckUserOnline_tasks (s : QosMgr N) (task : ResendTask N) (reply : CheckReply)
    {chan : Bytes} (h : chan ≠ onlineNotify task.addr) :
    (s.onCheckUserOnline task reply).tasks chan = s.tasks chan := by
  unfold onCheckUserOnline
  dsimp only
  split_ifs <;> simp [doUnscheduleResend, setTask, note, h]

theorem onlyTask_onReply (h : Inv maxResendCount s) {i : ℕ} {reply : CheckReply}
    {undefined : QosMgr N} (horderly : s.Orderly (.reply i reply undefined))
    (hstep : s.onReply i reply undefined = some t) : ∀ c ∈ s.checks[i]?, OnlyTask s t c := by
  obtain ⟨c, task, hc, hget, hid, -, rfl⟩ := onReply_cases horderly hstep
  have haddr := (h.tasks c.chan task hget).addr
  intro c' hc'
  obtain rfl : c = c' := Option.some.inj (hc.symm.trans hc')
  constructor
  · intro chan other hother hne
    have hchan : chan ≠ onlineNotify task.addr := by
      rintro rfl
      rw [haddr, hget] at hother
      cases hother
      exact hne hid
    rw [onCheckUserOnline_tasks _ _ _ hchan]
    exact hother
  · intro chan hnone
    have hchan : chan ≠ onlineNotify task.addr := by
      rintro rfl
      rw [haddr, hget] at hnone
      cases hnone
    rw [onCheckUserOnline_tasks _ _ _ hchan]
    exact hnone

/-! ## Runs -/

theorem inv_step {a : Step N} (h : Inv maxResendCount s) (horderly : s.Orderly a)
    (hstep : machine.step s a = some t) : Inv maxResendCount t := by
  cases a with
  | schedule addr apnsType notification added =>
      cases hstep
      exact inv_doScheduleResend h addr apnsType notification added
  | timeout chan => exact inv_onTimeout h hstep
  | reply i reply undefined =>
      obtain ⟨c, task, -, hget, -, hreply, rfl⟩ := onReply_cases horderly hstep
      have hanswered : Inv maxResendCount { s with checks := s.checks.eraseIdx i } :=
        h.drop rfl rfl fun _ _ hget => hget
      exact inv_onCheckUserOnline hanswered hget hreply
  | message chan isConnected =>
      cases hstep
      exact inv_onMessage h chan isConnected

theorem inv_run {maxResendCount : Int32} {steps : List (Step N)} {s : QosMgr N}
    (hrun : machine.run (start maxResendCount) steps = some s)
    (horderly : machine.Meets Orderly (start maxResendCount) steps) : Inv maxResendCount s := by
  refine machine.run_invariant (Inv maxResendCount) (fun s a t h ha hstep => inv_step h ha hstep)
    ⟨rfl, ⟨?_, ?_, ?_⟩, ?_⟩ horderly hrun
  · intro l hl chan
    rw [List.suffix_nil.mp hl]
    exact Nat.zero_le _
  · intro e l hl
    cases List.suffix_nil.mp hl
  · intro chan apnsType notification reply hmem
    cases hmem
  · intro chan task hget
    cases hget

/-- In every run in which each reply finds the task that asked and does not say that there are
two subscribers or more, notifications are sent again so often as they may, and a reply changes
no task but the one that asked. -/
theorem resend_bounds {maxResendCount : Int32} {steps : List (Step N)} {s : QosMgr N}
    (hrun : machine.run (start maxResendCount) steps = some s)
    (horderly : machine.Meets Orderly (start maxResendCount) steps) :
    Obeys maxResendCount s.log ∧ ∀ i reply undefined t, s.Orderly (.reply i reply undefined) →
      machine.step s (.reply i reply undefined) = some t →
        ∀ c ∈ s.checks[i]?, OnlyTask s t c := by
  have h := inv_run hrun horderly
  exact ⟨h.obeys, fun i reply undefined t ho hstep => onlyTask_onReply h ho hstep⟩

/-- Device 1 of a user -/
private def device : DispatchAddress := ⟨[117], 1⟩

/-- A notification is sent again twice, and its device connects. -/
private def twice : List (Step Unit) :=
  [.schedule device [] () true, .timeout (onlineNotify device), .timeout (onlineNotify device),
    .reply 1 ⟨0, 0⟩ (start 0), .reply 0 ⟨0, 0⟩ (start 0), .message (onlineNotify device) true]

theorem resend_bounds_twice : ∃ s, machine.run (start 3) twice = some s ∧ s.log.length = 4 ∧
    Obeys 3 s.log := by
  have hlength : (machine.run (start 3) twice).map (fun s => s.log.length) = some 4 := by
    decide +kernel
  obtain ⟨s, hs, heq⟩ := Option.map_eq_some_iff.mp hlength
  have horderly : machine.Meets Orderly (start 3) twice := by decide +kernel
  exact ⟨s, hs, heq, (resend_bounds hs horderly).1⟩

/-- A CHECK reaches two subscribers, and the notification is sent again. -/
theorem resent_to_subscribers :
    ¬ ∀ (N : Type) (maxResendCount : Int32) (steps : List (Step N)) (s : QosMgr N),
      machine.run (start maxResendCount) steps = some s → Obeys maxResendCount s.log := by
  intro h
  let steps : List (Step Unit) :=
    [.schedule device [] () true, .timeout (onlineNotify device), .reply 0 ⟨0, 2⟩ (start 0)]
  have hlog : (machine.run (start 3) steps).map (fun s => s.log) =
      some [.resent (onlineNotify device) [] () ⟨0, 2⟩, .scheduled (onlineNotify device)] := by
    rfl
  obtain ⟨s, hs, heq⟩ := Option.map_eq_some_iff.mp hlog
  have hoffline := (h Unit 3 steps s hs).offline (onlineNotify device) [] () ⟨0, 2⟩
    (heq ▸ List.mem_cons_self)
  exact absurd hoffline (by decide)

end QosMgr

end BcmServer.Push
