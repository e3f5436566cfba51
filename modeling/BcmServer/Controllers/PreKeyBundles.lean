import BcmServer.Controllers.AccountLife

/-!
# BcmServer.Controllers.PreKeyBundles — the keys that are given away

Somebody who asks for the keys of an account starts a session with whoever holds them.

* `bundles_authentic`: in every state, the identity key of every response has the uid as its
  hash, and the key of each of its devices is certified by such a key, where it is another one.
* `onetime_keys_counted`: no one-time key was given away more often than devices that were let
  in have uploaded it.

The keys that were given away, those that are stored and those on the way to the store are
never more than were uploaded (`Accounted`); a step of a request only moves them.
-/

namespace BcmServer.Controllers

open Util Lts Store Auth

/-- The one-time keys that are uploaded -/
def uploadKeys (upload : Option KeyUpload) : List OnetimeKey :=
  match upload with
  | none => []
  | some upload => upload.keys

namespace AccountStore

/-- The one-time keys that were given away -/
def given (s : AccountStore) : List OnetimeKey := s.responses.flatMap PreKeyResponse.onetimeKeys

/-- The one-time keys in requests of devices that were let in -/
def uploaded (s : AccountStore) : List OnetimeKey :=
  s.admitted.flatMap fun admitted => uploadKeys (admitted.2.upload admitted.1)

end AccountStore

/-- The one-time keys that a request is going to store -/
def AccountCall.pending : AccountCall → List OnetimeKey
  | .seen _ _ deviceId req _ => uploadKeys (req.upload deviceId)
  | .write _ upload => uploadKeys upload
  | .setKeys upload => upload.keys
  | _ => []

/-- The devices of an account have different numbers. -/
def Registered.Numbered (r : Registered) : Prop := (r.account.devices.map Store.Device.id).Nodup

namespace AccountServer

variable {F K : Type} {server : AccountServer F K} {uid : Bytes}

/-- The devices of an account that is going to be created, or from which keys are taken, have
different numbers. -/
def CallNumbered : AccountCall → Prop
  | .create r | .takeKeys r _ => r.Numbered
  | _ => True

/-- What holds in every state -/
structure Accounted (p : Pool AccountStore AccountCall) : Prop where
  row : ∀ r, p.shared.row = some r → r.Numbered
  calls : ∀ call ∈ p.calls, CallNumbered call
  counted : ∀ k, p.shared.given.count k + p.shared.keys.count k +
    (p.calls.flatMap AccountCall.pending).count k ≤ p.shared.uploaded.count k

/-! ## Steps of requests -/

theorem pending_uploadCalls (upload : Option KeyUpload) :
    (uploadCalls upload).flatMap AccountCall.pending = uploadKeys upload := by
  cases upload with
  | none => rfl
  | some upload => exact List.append_nil _

theorem numbered_uploadCalls (upload : Option KeyUpload) :
    ∀ call ∈ uploadCalls upload, CallNumbered call := by
  intro call hcall
  cases upload with
  | none => cases hcall
  | some upload =>
      rw [List.mem_singleton.mp hcall]
      trivial

/-- A handler that goes on stores the keys of its request at most. -/
theorem pending_proceed (server : AccountServer F K) (r : Registered) (deviceId : UInt32)
    (req : AuthedRequest) (clock : Clock) (k : OnetimeKey) :
    ((server.proceed r deviceId req clock).flatMap AccountCall.pending).count k ≤
      (uploadKeys (req.upload deviceId)).count k := by
  unfold proceed
  cases server.handle r deviceId clock req with
  | none =>
      simp only
      rw [pending_uploadCalls]
  | some h =>
      cases h with
      | error status => exact Nat.zero_le _
      | ok w =>
          show ((uploadKeys (req.upload deviceId)) ++ []).count k ≤ _
          rw [List.append_nil]

theorem numbered_proceed (server : AccountServer F K) (r : Registered) (deviceId : UInt32)
    (req : AuthedRequest) (clock : Clock) :
    ∀ call ∈ server.proceed r deviceId req clock, CallNumbered call := by
  unfold proceed
  cases server.handle r deviceId clock req with
  | none => exact numbered_uploadCalls _
  | some h =>
      intro call hcall
      cases h with
      | error status => cases hcall
      | ok w =>
          rw [List.mem_singleton.mp hcall]
          trivial

/-- A write leaves the numbers of the devices different, and all keys where they are. -/
theorem numbered_write (hnumbered : server.dao.Numbered) {s : AccountStore}
    (hrow : ∀ r, s.row = some r → r.Numbered) (w : AccountWrite) (result : WriteResult) :
    ∀ r, (s.write server.dao w result).2.row = some r → r.Numbered := by
  intro r hr
  unfold AccountStore.write at hr
  cases hstored : s.row with
  | none =>
      simp only [hstored] at hr
      exact hrow r (hstored.trans hr)
  | some stored =>
      have hbefore := hrow stored hstored
      simp only [hstored] at hr
      cases hr
      show ((w.perform server.dao stored.account result).2.devices.map Store.Device.id).Nodup
      rcases perform_cases server.dao w stored.account result with heq | heq | ⟨e, -, heq⟩
      · rw [heq]
        exact hbefore
      · rw [heq]
        exact hnumbered.updateAccount w.edited.field w.edited.account _ hbefore
      · rw [heq]
        exact hnumbered.updateDevice e w.edited.account _ hbefore

theorem keys_write (dao : AccountsDao) (s : AccountStore) (w : AccountWrite)
    (result : WriteResult) :
    (s.write dao w result).2.given = s.given ∧ (s.write dao w result).2.keys = s.keys ∧
      (s.write dao w result).2.uploaded = s.uploaded := by
  unfold AccountStore.write
  cases s.row with
  | none => exact ⟨rfl, rfl, rfl⟩
  | some r => exact ⟨rfl, rfl, rfl⟩

theorem numbered_signupCreate {req : SignRequest} {auth : AuthorizationHeader}
    {lookup : AccountLookup} {r : Registered} (h : server.signupCreate req auth lookup = .ok r) :
    r.Numbered := by
  unfold signupCreate at h
  cases lookup with
  | failed => cases h
  | found r' => cases h
  | noSuchData =>
      simp only at h
      split at h
      · cases h
        exact List.nodup_singleton _
      · cases h

/-- What a step of a request keeps: no key is added, and numbers stay different. -/
structure Moves (s s' : AccountStore) (before after : List AccountCall) : Prop where
  row : ∀ r, s'.row = some r → r.Numbered
  calls : ∀ call ∈ after, CallNumbered call
  counted : ∀ k, s'.given.count k + s'.keys.count k +
      (after.flatMap AccountCall.pending).count k + s.uploaded.count k ≤
    s.given.count k + s.keys.count k + (before.flatMap AccountCall.pending).count k +
      s'.uploaded.count k

/-- The keys are where they were. -/
theorem moves_of_eq {s s' : AccountStore} {before after : List AccountCall}
    (hrow : ∀ r, s'.row = some r → r.Numbered) (hcalls : ∀ call ∈ after, CallNumbered call)
    (hkeys : s'.given = s.given ∧ s'.keys = s.keys ∧ s'.uploaded = s.uploaded)
    (hpending : ∀ k, (after.flatMap AccountCall.pending).count k ≤
      (before.flatMap AccountCall.pending).count k) : Moves s s' before after := by
  refine ⟨hrow, hcalls, fun k => ?_⟩
  have hk := hpending k
  rw [hkeys.1, hkeys.2.1, hkeys.2.2]
  omega

/-- Keys are given away. -/
theorem given_response (s : AccountStore) (keys : List OnetimeKey)
    {response : Option PreKeyResponse} {k : OnetimeKey} {n : ℕ}
    (h : ∀ r, response = some r → r.onetimeKeys.count k ≤ n) :
    (AccountStore.given { s with keys := keys, responses := response.toList ++ s.responses }).count
      k ≤ n + s.given.count k := by
  cases response with
  | none => exact Nat.le_add_left _ _
  | some r =>
      show (r.onetimeKeys ++ s.given).count k ≤ _
      rw [List.count_append]
      exact Nat.add_le_add_right (h r rfl) _

theorem keys_noteChallenged (s : AccountStore) (req : SignRequest) (lookup : ChallengeLookup)
    (clock : Clock) :
    (s.noteChallenged req lookup clock).row = s.row ∧
      (s.noteChallenged req lookup clock).given = s.given ∧
      (s.noteChallenged req lookup clock).keys = s.keys ∧
      (s.noteChallenged req lookup clock).uploaded = s.uploaded := by
  cases lookup with
  | found c => exact ⟨rfl, rfl, rfl, rfl⟩
  | missing => exact ⟨rfl, rfl, rfl, rfl⟩
  | internalError => exact ⟨rfl, rfl, rfl, rfl⟩

/-- The next step of a request only moves keys. -/
theorem moves_next {create : Registered → Option Registered → Option Registered}
    (hcreate : ∀ r row, create r row = some r ∨ create r row = row)
    (hnumbered : server.dao.Numbered) (hkeys : server.keysDao.Lawful) {s : AccountStore}
    (hrow : ∀ r, s.row = some r → r.Numbered) {call : AccountCall} (hcall : CallNumbered call)
    (e : Effect) :
    Moves s (server.next create s e call).1 [call] (server.next create s e call).2 := by
  have hsame : s.given = s.given ∧ s.keys = s.keys ∧ s.uploaded = s.uploaded := ⟨rfl, rfl, rfl⟩
  have hnone : ∀ k, (([] : List AccountCall).flatMap AccountCall.pending).count k ≤
      ([call].flatMap AccountCall.pending).count k := fun k => Nat.zero_le _
  have hdone : ∀ call ∈ ([] : List AccountCall), CallNumbered call := by simp
  cases call with
  | getChallenge req auth =>
      obtain ⟨hnote, hkept⟩ := keys_noteChallenged s req (s.lookupChallenge e.result) e.clock
      have hstored : ∀ r, (s.noteChallenged req (s.lookupChallenge e.result) e.clock).row = some r →
          r.Numbered := fun r hr => hrow r (hnote.symm.trans hr)
      unfold next
      cases hc : server.signupChallenge req auth (s.lookupChallenge e.result) e.clock with
      | error status =>
          simp only [hc]
          exact moves_of_eq hstored hdone hkept hnone
      | ok u =>
          simp only [hc]
          exact moves_of_eq hstored (by simp [CallNumbered]) hkept fun k => Nat.zero_le _
  | delChallenge req auth =>
      unfold next
      simp only
      split
      · exact moves_of_eq hrow (by simp [CallNumbered]) hsame fun k => Nat.zero_le _
      · exact moves_of_eq hrow (by simp [CallNumbered]) ⟨rfl, rfl, rfl⟩ fun k => Nat.zero_le _
  | getAccount req auth =>
      unfold next
      cases hr : server.signupCreate req auth (s.lookup (e.result = .done)) with
      | error status =>
          simp only [hr]
          exact moves_of_eq hrow hdone hsame hnone
      | ok r =>
          simp only [hr]
          refine moves_of_eq hrow ?_ hsame fun k => Nat.zero_le _
          rw [List.forall_mem_singleton]
          exact numbered_signupCreate hr
  | create r =>
      unfold next
      simp only
      split
      · exact moves_of_eq hrow hdone hsame hnone
      · refine moves_of_eq ?_ hdone ⟨rfl, rfl, rfl⟩ hnone
        intro r' hr'
        rcases hcreate r s.row with heq | heq
        · simp only [heq, Option.some.injEq] at hr'
          exact hr' ▸ hcall
        · simp only [heq] at hr'
          exact hrow r' hr'
  | seen r w deviceId req clock =>
      refine moves_of_eq (numbered_write hnumbered hrow w e.result) ?_
        (keys_write server.dao s w e.result) ?_
      · unfold next
        simp only
        split
        · exact numbered_proceed server r deviceId req clock
        · exact hdone
      · intro k
        unfold next
        simp only
        split
        · rw [List.flatMap_singleton]
          exact pending_proceed server r deviceId req clock k
        · exact hnone k
  | clearKeys deviceId w =>
      unfold next
      simp only
      split
      · exact moves_of_eq hrow (by simp [CallNumbered]) hsame fun k => Nat.zero_le _
      · refine ⟨hrow, by simp [CallNumbered], fun k => ?_⟩
        have hcount : (server.keysDao.clear deviceId s.keys).count k ≤ s.keys.count k :=
          (hkeys.clear deviceId s.keys).count_le k
        show s.given.count k + (server.keysDao.clear deviceId s.keys).count k + 0 +
          s.uploaded.count k ≤ s.given.count k + s.keys.count k + 0 + s.uploaded.count k
        omega
  | write w upload =>
      refine moves_of_eq (numbered_write hnumbered hrow w e.result) ?_
        (keys_write server.dao s w e.result) ?_
      · unfold next
        simp only
        split
        · exact numbered_uploadCalls upload
        · exact hdone
      · intro k
        unfold next
        simp only
        split
        · rw [pending_uploadCalls, List.flatMap_singleton]
          exact Nat.le_refl _
        · exact hnone k
  | setKeys upload =>
      unfold next
      simp only
      split
      · exact moves_of_eq hrow hdone hsame hnone
      · refine ⟨hrow, hdone, fun k => ?_⟩
        have hcount := (hkeys.set upload.deviceId upload.keys s.keys).count_le k
        rw [List.count_append] at hcount
        rw [List.flatMap_singleton]
        show s.given.count k + (server.keysDao.set upload.deviceId upload.keys s.keys).count k + 0 +
          s.uploaded.count k ≤
            s.given.count k + s.keys.count k + upload.keys.count k + s.uploaded.count k
        omega
  | takeKeys target deviceId =>
      let taken := server.keysDao.get deviceId s.keys
      have htaken : ∀ k, taken.1.count k + taken.2.count k = s.keys.count k := by
        intro k
        rw [← List.count_append]
        exact (hkeys.get deviceId s.keys).count_eq k
      unfold next
      cases e.result with
      | failed => exact moves_of_eq hrow hdone hsame hnone
      | lost =>
          refine ⟨hrow, hdone, fun k => ?_⟩
          have hk := htaken k
          show s.given.count k + taken.2.count k + 0 + s.uploaded.count k ≤
            s.given.count k + s.keys.count k + 0 + s.uploaded.count k
          omega
      | done =>
          refine ⟨hrow, hdone, fun k => ?_⟩
          have hk := htaken k
          let response :=
            getDeviceKeys server.masterId e.clock.nowInMilli target.account deviceId taken.1
          let answered : AccountStore :=
            { s with
              keys := taken.2
              responses := response.toList ++ s.responses }
          have hgiven : answered.given.count k ≤ taken.1.count k + s.given.count k :=
            given_response s taken.2 fun r hr => count_response hcall hr k
          show answered.given.count k + taken.2.count k + 0 + s.uploaded.count k ≤
            s.given.count k + s.keys.count k + 0 + s.uploaded.count k
          omega

theorem pending_admit (server : AccountServer F K) (r : Registered) (deviceId : UInt32)
    (client : Option ClientVersion) (req : AuthedRequest) (clock : Clock) (k : OnetimeKey) :
    ((server.authedCalls r deviceId client req clock).flatMap AccountCall.pending).count k ≤
      (uploadKeys (req.upload deviceId)).count k := by
  unfold authedCalls
  simp only
  split
  · exact pending_proceed server r deviceId req clock k
  · rw [List.flatMap_singleton]
    exact Nat.le_refl _

theorem numbered_admit (server : AccountServer F K) (r : Registered) (deviceId : UInt32)
    (client : Option ClientVersion) (req : AuthedRequest) (clock : Clock) :
    ∀ call ∈ server.authedCalls r deviceId client req clock, CallNumbered call := by
  unfold authedCalls
  simp only
  split
  · exact numbered_proceed server r deviceId req clock
  · simp [CallNumbered]

/-- Calls that store no one-time keys and read none -/
def Idle (calls : List AccountCall) : Prop :=
  (∀ call ∈ calls, CallNumbered call) ∧ calls.flatMap AccountCall.pending = []

theorem idle_nil : Idle [] := ⟨by simp, rfl⟩

theorem idle_singleton {call : AccountCall} (hcall : CallNumbered call)
    (hpending : call.pending = []) : Idle [call] := by
  constructor
  · rw [List.forall_mem_singleton]
    exact hcall
  · rw [List.flatMap_singleton]
    exact hpending

theorem idle_calls {next : AccountWrite → AccountCall}
    (hcall : ∀ w, CallNumbered (next w)) (hnext : ∀ w, (next w).pending = []) (h : Handled) :
    Idle (h.calls next) := by
  cases h with
  | error status => exact idle_nil
  | ok w => exact idle_singleton (hcall w) (hnext w)

theorem idle_proceedSignin (uid : Bytes) (req : SignRequest) (h : Handled) :
    Idle (proceedSignin uid req h) := by
  unfold proceedSignin
  cases req.auth with
  | none => exact idle_nil
  | some auth =>
      simp only
      split
      · have hcall : ∀ w, CallNumbered (.clearKeys (UInt32.ofInt auth.deviceId) w) :=
          fun w => trivial
        exact idle_calls hcall (fun w => rfl) h
      · exact idle_nil

/-- A request that has nothing to do with one-time keys -/
theorem moves_of_idle {s s' : AccountStore} {calls : List AccountCall}
    (hrow : ∀ r, s'.row = some r → r.Numbered)
    (hkeys : s'.given = s.given ∧ s'.keys = s.keys ∧ s'.uploaded = s.uploaded)
    (hcalls : Idle calls) : Moves s s' [] calls := by
  refine moves_of_eq hrow hcalls.1 hkeys fun k => ?_
  rw [hcalls.2]
  exact Nat.le_refl _

/-- What comes in uploads what it stores later. -/
theorem moves_respond (server : AccountServer F K) (uid : Bytes) {s : AccountStore}
    (hrow : ∀ r, s.row = some r → r.Numbered) (event : AccountEvent) :
    Moves s (server.respond uid s event).1 [] (server.respond uid s event).2 := by
  have hsame : s.given = s.given ∧ s.keys = s.keys ∧ s.uploaded = s.uploaded := ⟨rfl, rfl, rfl⟩
  cases event with
  | challenge nonce clock result =>
      unfold respond
      cases hc : server.challenge uid nonce clock with
      | none =>
          simp only [hc]
          exact moves_of_idle hrow hsame idle_nil
      | some c =>
          simp only [hc]
          split
          · exact moves_of_idle hrow hsame idle_nil
          · exact moves_of_idle hrow ⟨rfl, rfl, rfl⟩ idle_nil
  | signup req =>
      unfold respond
      cases hauth : server.signup req with
      | error status =>
          simp only [hauth]
          exact moves_of_idle hrow hsame idle_nil
      | ok auth =>
          simp only [hauth]
          split
          · exact moves_of_idle hrow hsame (idle_singleton trivial rfl)
          · exact moves_of_idle hrow hsame idle_nil
  | signin req reads => exact moves_of_idle hrow hsame (idle_proceedSignin uid req _)
  | signinDevice req reads => exact moves_of_idle hrow hsame (idle_proceedSignin uid req _)
  | destroy sign reads =>
      have hcall : ∀ w, CallNumbered (.write w none) := fun w => trivial
      exact moves_of_idle hrow hsame (idle_calls hcall (fun w => rfl) _)
  | request header client req clock reads =>
      unfold respond
      simp only
      split
      swap
      · exact moves_of_idle hrow hsame idle_nil
      cases hlookup : s.lookup reads with
      | noSuchData => exact moves_of_idle hrow hsame idle_nil
      | failed => exact moves_of_idle hrow hsame idle_nil
      | found r =>
          let deviceId := UInt32.ofInt header.deviceId
          refine ⟨hrow, numbered_admit server r deviceId client req clock, fun k => ?_⟩
          have hpending := pending_admit server r deviceId client req clock k
          show s.given.count k + s.keys.count k +
              ((server.authedCalls r deviceId client req clock).flatMap AccountCall.pending).count k +
              s.uploaded.count k ≤
            s.given.count k + s.keys.count k + 0 +
              (uploadKeys (req.upload deviceId) ++ s.uploaded).count k
          rw [List.count_append]
          omega
  | getDeviceKeys targetDeviceIdSelector clock reads =>
      unfold respond
      cases hlookup : s.lookup reads with
      | noSuchData =>
          simp only [hlookup]
          exact moves_of_idle hrow hsame idle_nil
      | failed =>
          simp only [hlookup]
          exact moves_of_idle hrow hsame idle_nil
      | found target =>
          simp only [hlookup]
          split
          · have htarget : target.Numbered := hrow target (found_of_lookup hlookup)
            exact moves_of_idle hrow hsame (idle_singleton htarget rfl)
          · exact moves_of_idle hrow hsame idle_nil

/-! ## Runs -/

/-- A step that moves keys, beside requests that go on -/
theorem Accounted.of_moves {p q : Pool AccountStore AccountCall}
    {before after rest : List AccountCall} (hp : Accounted p)
    (hbefore : p.calls.Perm (before ++ rest)) (hafter : q.calls.Perm (after ++ rest))
    (h : Moves p.shared q.shared before after) : Accounted q where
  row := h.row
  calls call hcall := by
    rcases List.mem_append.mp (hafter.mem_iff.mp hcall) with hcall | hcall
    · exact h.calls call hcall
    · exact hp.calls call (hbefore.mem_iff.mpr (List.mem_append_right before hcall))
  counted k := by
    have hcounted := hp.counted k
    have hmoves := h.counted k
    have hpending : ∀ calls more l : List AccountCall, l.Perm (calls ++ more) →
        (l.flatMap AccountCall.pending).count k =
          (calls.flatMap AccountCall.pending).count k +
            (more.flatMap AccountCall.pending).count k := by
      intro calls more l hl
      rw [(hl.flatMap_right AccountCall.pending).count_eq k, List.flatMap_append,
        List.count_append]
    rw [hpending before rest p.calls hbefore] at hcounted
    rw [hpending after rest q.calls hafter]
    omega

/-- Everything holds in every state. -/
theorem accounted_of_run {create : Registered → Option Registered → Option Registered}
    (hcreate : ∀ r row, create r row = some r ∨ create r row = row)
    (hnumbered : server.dao.Numbered) (hkeys : server.keysDao.Lawful)
    {p q : Pool AccountStore AccountCall} {schedule : List (Sched Effect AccountEvent)}
    (hp : Accounted p) (hrun : (server.system create uid).machine.run p schedule = some q) :
    Accounted q := by
  refine (server.system create uid).reachable_invariant Accounted ?_ ?_ hp hrun
  · intro p q call rest e s ks hp hperm hnext hshared hcalls
    obtain ⟨rfl, rfl⟩ := Prod.ext_iff.mp (Option.some.inj hnext)
    have hmem : call ∈ p.calls := hperm.mem_iff.mpr List.mem_cons_self
    have hmoves := moves_next hcreate hnumbered hkeys hp.row (hp.calls call hmem) e
    rw [← hshared] at hmoves
    exact hp.of_moves hperm hcalls hmoves
  · intro p event s ks hp henv
    obtain ⟨rfl, rfl⟩ := Prod.ext_iff.mp (Option.some.inj henv)
    have hmoves := moves_respond server uid
      (s := { p.shared with received := event :: p.shared.received }) hp.row event
    have hcalls : p.calls.Perm ([] ++ p.calls) := List.Perm.refl _
    exact hp.of_moves hcalls List.perm_append_comm ⟨hmoves.row, hmoves.calls, hmoves.counted⟩

theorem accounted_start : Accounted start := by
  refine ⟨?_, ?_, fun k => ?_⟩
  · intro r hr
    simp [start] at hr
  · intro call hcall
    simp [start] at hcall
  · exact Nat.le_refl _

/-! ## The keys that are given away -/

/-- In every order of requests and their steps: the identity key of a response is a key of the uid
with which somebody has signed up. Each device in it has a signed key, and its own key is the
identity key, for the master device, or such a key has certified it for the number of the device,
if it has one. -/
theorem bundles_authentic (server : AccountServer F K) (uid : Bytes)
    (create : Registered → Option Registered → Option Registered)
    (hcreate : ∀ r row, create r row = some r ∨ create r row = row) (hdao : server.dao.Lawful)
    {schedule : List (Sched Effect AccountEvent)} {p : Pool AccountStore AccountCall}
    (hrun : (server.system create uid).machine.run start schedule = some p) :
    ∀ response ∈ p.shared.responses, server.Authentic uid p.shared.received response :=
  (inv_of_run hcreate hdao inv_start hrun).store.responses

/-- The device uploads a key after it has signed up, and somebody asks for the keys. -/
def asksForKeys : List (Sched Effect AccountEvent) :=
  signsUp ++ [.env (.request plainHeader none (.setKeys
      { preKeys := [{ keyid := 5, publickey := [9] }]
        signedPreKey := { keyid := 1, publickey := [3], signature := [4] } })
      { nowInMilli := 0, todayInMilli := 0 } true), .call 0 {}, .call 0 {},
    .env (.getDeviceKeys (ascii "*".toList) { nowInMilli := 0, todayInMilli := 0 } true),
    .call 0 {}]

theorem bundles_authentic_asked : ∃ p response,
    (plainServer.system keepFirst [1, 2]).machine.run start asksForKeys = some p ∧
      response ∈ p.shared.responses ∧
      plainServer.Authentic [1, 2] p.shared.received response := by
  have hresult : (((plainServer.system keepFirst [1, 2]).machine.run start asksForKeys).map
      fun p => p.shared.responses.length) = some 1 := by decide +kernel
  obtain ⟨p, hp, hlength⟩ := Option.map_eq_some_iff.mp hresult
  obtain ⟨response, hresponse⟩ := List.length_eq_one_iff.mp hlength
  have hmem : response ∈ p.shared.responses := by simp [hresponse]
  exact ⟨p, response, hp, hmem, bundles_authentic plainServer [1, 2] keepFirst keepFirst_cases
    AccountsDao.lawful_copying hp response hmem⟩

/-- In every order of requests and their steps: a one-time key was given away, and is stored, not
more often in all than devices that were let in have uploaded it. -/
theorem onetime_keys_counted (server : AccountServer F K) (uid : Bytes)
    (create : Registered → Option Registered → Option Registered)
    (hcreate : ∀ r row, create r row = some r ∨ create r row = row)
    (hnumbered : server.dao.Numbered) (hkeys : server.keysDao.Lawful)
    {schedule : List (Sched Effect AccountEvent)} {p : Pool AccountStore AccountCall}
    (hrun : (server.system create uid).machine.run start schedule = some p) (k : OnetimeKey) :
    p.shared.given.count k + p.shared.keys.count k ≤ p.shared.uploaded.count k := by
  have hcounted := (accounted_of_run hcreate hnumbered hkeys accounted_start hrun).counted k
  omega

theorem onetime_keys_counted_asked : ∃ p,
    (plainServer.system keepFirst [1, 2]).machine.run start asksForKeys = some p ∧
      p.shared.given = [{ deviceid := 1, keyid := 5, publickey := [9] }] ∧
      p.shared.given.count { deviceid := 1, keyid := 5, publickey := [9] } +
          p.shared.keys.count { deviceid := 1, keyid := 5, publickey := [9] } ≤
        p.shared.uploaded.count { deviceid := 1, keyid := 5, publickey := [9] } := by
  have hresult : (((plainServer.system keepFirst [1, 2]).machine.run start asksForKeys).map
      fun p => p.shared.given) = some [{ deviceid := 1, keyid := 5, publickey := [9] }] := by
    decide +kernel
  obtain ⟨p, hp, hgiven⟩ := Option.map_eq_some_iff.mp hresult
  exact ⟨p, hp, hgiven, onetime_keys_counted plainServer [1, 2] keepFirst keepFirst_cases
    AccountsDao.numbered_copying OnetimeKeys.lawful_sorted hp _⟩

end AccountServer

end BcmServer.Controllers
