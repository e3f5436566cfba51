import BcmServer.Offline.GroupMsgList

/-!
# BcmServer.Offline.GroupMsgTasks — what comes into the tasks

What a page puts into the tasks is said by the list of its kept messages: a task
has those of its group and counts them (`Tallies`), and putting in the users from
the hash changes nothing but the users (`Tallies.joinAll`).
-/

namespace BcmServer.Offline

open BcmServer.Util BcmServer.Redis
open BcmServer.Group (Gid)

/-! ## What a task has -/

/-- A message without what the hash has of it -/
def GroupMessageIdInfo.bare (gm : GroupMessageIdInfo) : GroupMessageIdInfo :=
  { gm with gmm := .initial }

namespace GroupMessageInfoTask

variable {t : GroupMessageInfoTask} {parse : Bytes → Except JsonError Json} {mid : UInt64}
  {value uid : Bytes}

/-- What is stored of the users in a value of the hash: none, if it is malformed. -/
def storedMembers (parse : Bytes → Except JsonError Json) (value : Bytes) : Finset Bytes :=
  if (GroupMultibroadMessageInfo.initial.fromString parse value).2 then
    (GroupMultibroadMessageInfo.initial.fromString parse value).1.members
  else ∅

/-- What a value says does not depend on what has been read before it. -/
theorem members_fromString (parse : Bytes → Except JsonError Json)
    (gmm : GroupMultibroadMessageInfo) (value : Bytes) (members : Finset Bytes) :
    (if (gmm.fromString parse value).2 then members ∪ (gmm.fromString parse value).1.members
      else members) = members ∪ storedMembers parse value := by
  unfold storedMembers GroupMultibroadMessageInfo.fromString
  split
  · simp
  · split
    · simp
    · split
      · simp
      · simp
      · split <;> simp

theorem mem_join : uid ∈ (t.join parse mid value).multicastMembers ↔ uid ∈ t.multicastMembers ∨
    (∃ gm ∈ t.gms, gm.lastMid = mid) ∧ uid ∈ storedMembers parse value := by
  have hfold : ∀ (gms : List GroupMessageIdInfo) (members : Finset Bytes),
      uid ∈ gms.foldl (fun members gm =>
        if gm.lastMid ≠ mid then members
        else if (gm.gmm.fromString parse value).2 then
          members ∪ (gm.gmm.fromString parse value).1.members
        else members) members ↔
      uid ∈ members ∨ (∃ gm ∈ gms, gm.lastMid = mid) ∧ uid ∈ storedMembers parse value := by
    intro gms
    induction gms with
    | nil => simp
    | cons gm gms ih =>
        intro members
        rw [List.foldl_cons, ih]
        by_cases hmid : gm.lastMid = mid
        · rw [if_neg (by simpa using hmid), members_fromString, Finset.mem_union]
          simp only [List.mem_cons, exists_eq_or_imp, hmid, true_or, true_and]
          tauto
        · simp [hmid]
  exact hfold t.gms t.multicastMembers

theorem bare_join : (t.join parse mid value).gms.map (·.bare) = t.gms.map (·.bare) := by
  rw [join, List.map_map]
  refine List.map_congr_left fun gm _ => ?_
  simp only [Function.comp]
  split <;> rfl

end GroupMessageInfoTask

/-! ## What the tasks have of a list of kept messages -/

namespace Kept

/-- The messages of a group -/
def ofGroup (ks : Kept) (gid : Gid) : List GroupMessageIdInfo :=
  (ks.filter fun k => k.1 = gid).map Prod.snd

/-- A field is named by the group and the number of a message. -/
def Names (field : Bytes) (k : Gid × GroupMessageIdInfo) : Prop :=
  ∃ gidText midText typeText, field.splitOn '_'.toUInt8 = [gidText, midText, typeText] ∧
    stoull gidText = some k.1 ∧ stoull midText = some k.2.lastMid

theorem Names.group_eq {field : Bytes} {k k' : Gid × GroupMessageIdInfo} (h : Names field k)
    (h' : Names field k') : k.1 = k'.1 := by
  obtain ⟨a, b, c, hsplit, hgid, -⟩ := h
  obtain ⟨a', b', c', hsplit', hgid', -⟩ := h'
  rw [hsplit] at hsplit'
  cases hsplit'
  rw [hgid] at hgid'
  exact Option.some.inj hgid'

end Kept

namespace RoundConfig

/-- The tasks have the kept messages besides those that were there, each in the
task of its group, and count them by their kind. -/
structure Tallies (cfg : RoundConfig) (base tasks : GroupTasks) (ks : Kept) : Prop where
  gms : ∀ gid, (cfg.taskOf tasks gid).gms.map (·.bare) =
    (cfg.taskOf base gid).gms.map (·.bare) ++ (ks.ofGroup gid).map (·.bare)
  broadcastCount : ∀ gid, (cfg.taskOf tasks gid).broadcastCount =
    (cfg.taskOf base gid).broadcastCount + (ks.ofGroup gid).countP fun gm => !gm.multicast
  multicastCount : ∀ gid, (cfg.taskOf tasks gid).multicastCount =
    (cfg.taskOf base gid).multicastCount + (ks.ofGroup gid).countP fun gm => gm.multicast

variable {cfg : RoundConfig} {base tasks tasks' : GroupTasks} {ks ls : Kept} {gid : Gid}
  {uid : Bytes}

theorem tallies_refl (cfg : RoundConfig) (base : GroupTasks) : cfg.Tallies base base [] := by
  constructor <;> intro gid <;> simp [Kept.ofGroup]

theorem taskOf_insert (tasks : GroupTasks) (gid gid' : Gid) (t : GroupMessageInfoTask) :
    cfg.taskOf (tasks.insert gid t) gid' = if gid' = gid then t else cfg.taskOf tasks gid' := by
  unfold taskOf
  split
  · next h => rw [h, AList.lookup_insert, Option.getD_some]
  · next h => rw [AList.lookup_insert_ne h]

/-- One more message -/
theorem Tallies.push (h : cfg.Tallies base tasks ks) (k : Gid × GroupMessageIdInfo) :
    cfg.Tallies base (cfg.pushTask tasks k) (ks ++ [k]) := by
  have hother : ∀ gid, gid ≠ k.1 → (ks ++ [k]).ofGroup gid = ks.ofGroup gid := by
    intro gid hne
    simp [Kept.ofGroup, Ne.symm hne]
  have hown : (ks ++ [k]).ofGroup k.1 = ks.ofGroup k.1 ++ [k.2] := by simp [Kept.ofGroup]
  constructor
  · intro gid
    rw [pushTask, taskOf_insert]
    by_cases hg : gid = k.1
    · subst hg
      simp only [if_true, hown, GroupMessageInfoTask.push, List.map_append, h.gms,
        List.append_assoc]
    · simp only [hg, if_false, hother gid hg, h.gms]
  · intro gid
    rw [pushTask, taskOf_insert]
    by_cases hg : gid = k.1
    · subst hg
      simp only [if_true, hown, GroupMessageInfoTask.push, List.countP_append,
        h.broadcastCount, List.countP_singleton]
      cases k.2.multicast <;> simp [Nat.add_assoc]
    · simp only [hg, if_false, hother gid hg, h.broadcastCount]
  · intro gid
    rw [pushTask, taskOf_insert]
    by_cases hg : gid = k.1
    · subst hg
      simp only [if_true, hown, GroupMessageInfoTask.push, List.countP_append,
        h.multicastCount, List.countP_singleton]
      cases k.2.multicast <;> simp [Nat.add_assoc]
    · simp only [hg, if_false, hother gid hg, h.multicastCount]

theorem Tallies.pushAll (h : cfg.Tallies base tasks ks) (ls : Kept) :
    cfg.Tallies base (ls.foldl cfg.pushTask tasks) (ks ++ ls) := by
  induction ls generalizing tasks ks with
  | nil => simpa using h
  | cons k ls ih =>
      have hnext := ih (h.push k)
      rwa [List.append_assoc] at hnext

/-- Putting messages into tasks leaves the users as they are. -/
theorem multicastMembers_pushAll (tasks : GroupTasks) (ls : Kept) :
    (cfg.taskOf (ls.foldl cfg.pushTask tasks) gid).multicastMembers =
      (cfg.taskOf tasks gid).multicastMembers := by
  induction ls generalizing tasks with
  | nil => rfl
  | cons k ls ih =>
      rw [List.foldl_cons, ih, pushTask, taskOf_insert]
      split
      · next h => rw [h, GroupMessageInfoTask.push]
      · rfl

/-- The task of a kept message is there. -/
theorem Tallies.exists_task (h : cfg.Tallies base tasks ks) {k : Gid × GroupMessageIdInfo}
    (hk : k ∈ ks) :
    tasks.lookup k.1 = some (cfg.taskOf tasks k.1) ∧
      ∃ gm ∈ (cfg.taskOf tasks k.1).gms, gm.lastMid = k.2.lastMid := by
  have hmem : k.2.bare ∈ (cfg.taskOf tasks k.1).gms.map (·.bare) := by
    rw [h.gms]
    refine List.mem_append_right _ (List.mem_map_of_mem (List.mem_map.mpr ⟨k, ?_, rfl⟩))
    simpa using hk
  obtain ⟨gm, hgm, hbare⟩ := List.mem_map.mp hmem
  have hmid : gm.bare.lastMid = k.2.bare.lastMid := by rw [hbare]
  refine ⟨?_, gm, hgm, hmid⟩
  unfold taskOf at hgm ⊢
  cases hlookup : tasks.lookup k.1 with
  | none => simp [hlookup, newTask] at hgm
  | some t => rfl

/-- The users in a value of the hash are added to the task that the field
names. -/
theorem Tallies.join (h : cfg.Tallies base tasks ks) {k : Gid × GroupMessageIdInfo} (hk : k ∈ ks)
    {e : Bytes × Bytes} (hnames : Kept.Names e.1 k) : ∃ tasks',
      cfg.joinField tasks e = .ok tasks' ∧ cfg.Tallies base tasks' ks ∧
        ∀ gid uid, uid ∈ (cfg.taskOf tasks' gid).multicastMembers ↔
          uid ∈ (cfg.taskOf tasks gid).multicastMembers ∨
            gid = k.1 ∧ uid ∈ GroupMessageInfoTask.storedMembers cfg.parse e.2 := by
  obtain ⟨a, b, c, hsplit, hgid, hmid⟩ := hnames
  obtain ⟨hlookup, hgm⟩ := h.exists_task hk
  have htask : ∀ gid, cfg.taskOf (tasks.insert k.1
      ((cfg.taskOf tasks k.1).join cfg.parse k.2.lastMid e.2)) gid =
        if gid = k.1 then (cfg.taskOf tasks k.1).join cfg.parse k.2.lastMid e.2
        else cfg.taskOf tasks gid := fun gid => taskOf_insert _ _ _ _
  refine ⟨tasks.insert k.1 ((cfg.taskOf tasks k.1).join cfg.parse k.2.lastMid e.2), ?_, ?_, ?_⟩
  · simp only [joinField, hsplit, hgid, hmid, number, Option.elim_some, bind, Except.bind, hlookup]
  · constructor
    · intro gid
      rw [htask]
      split
      · next hg => rw [GroupMessageInfoTask.bare_join, h.gms, hg]
      · exact h.gms gid
    · intro gid
      rw [htask]
      split
      · next hg => rw [GroupMessageInfoTask.join, h.broadcastCount, hg]
      · exact h.broadcastCount gid
    · intro gid
      rw [htask]
      split
      · next hg => rw [GroupMessageInfoTask.join, h.multicastCount, hg]
      · exact h.multicastCount gid
  · intro gid uid
    rw [htask]
    split
    · next hg =>
      rw [GroupMessageInfoTask.mem_join, hg]
      simp [hgm]
    · next hg => simp [hg]

theorem Tallies.joinAll (h : cfg.Tallies base tasks ks) {m : List (Bytes × Bytes)}
    (hm : ∀ e ∈ m, ∃ k ∈ ks, Kept.Names e.1 k) : ∃ tasks',
      m.foldlM cfg.joinField tasks = .ok tasks' ∧ cfg.Tallies base tasks' ks ∧
        ∀ gid uid, uid ∈ (cfg.taskOf tasks' gid).multicastMembers ↔
          uid ∈ (cfg.taskOf tasks gid).multicastMembers ∨
            ∃ e ∈ m, (∃ k ∈ ks, Kept.Names e.1 k ∧ gid = k.1) ∧
              uid ∈ GroupMessageInfoTask.storedMembers cfg.parse e.2 := by
  induction m generalizing tasks with
  | nil => exact ⟨tasks, rfl, h, by simp⟩
  | cons e m ih =>
      obtain ⟨k, hk, hnames⟩ := hm e List.mem_cons_self
      obtain ⟨tasks₁, hjoin, htallies, hmembers⟩ := h.join hk hnames
      obtain ⟨tasks', hfold, htallies', hmembers'⟩ :=
        ih htallies fun e' he' => hm e' (List.mem_cons_of_mem e he')
      refine ⟨tasks', ?_, htallies', ?_⟩
      · rw [List.foldlM_cons, hjoin]
        exact hfold
      · intro gid uid
        have hgroup : (∃ k' ∈ ks, Kept.Names e.1 k' ∧ gid = k'.1) ↔ gid = k.1 := by
          constructor
          · rintro ⟨k', -, hnames', rfl⟩
            exact hnames'.group_eq hnames
          · rintro rfl
            exact ⟨k, hk, hnames, rfl⟩
        rw [hmembers', hmembers]
        simp only [List.mem_cons, exists_eq_or_imp, hgroup]
        tauto

end RoundConfig

end BcmServer.Offline
