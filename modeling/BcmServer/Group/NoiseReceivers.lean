import BcmServer.Auth.Authenticator
import BcmServer.Group.NoiseSearch
import BcmServer.Group.Notifications

/-!
# BcmServer.Group.NoiseReceivers — who gets the noise copy of a group message

With a group message `OnlineMsgHandler` sends a copy of it, marked as noise, to some
devices that are online and not in the group. They are found by `getOnlineUsers`, whose
test of the client version is a `static` variable: it is made in the first call of the
process and keeps the versions of that call.

* `getOnlineUsers_ends_iff`: when a call returns.
* `returned_qualified`: what is returned is new enough, if no call asks for more than the
  first one did.
* `noiseApart_iff`: no noise goes to a recipient of the message if the users that a member
  update names have no device online which is not in the group.
-/

namespace BcmServer.Group

open BcmServer.Util BcmServer.Lts BcmServer.Dispatcher

/-! ## The calls -/

/-- The oldest versions that are supported -/
structure ClientBounds where
  iosVer : UInt64
  androidVer : UInt64
deriving DecidableEq, Repr

/-- `versionSupported` -/
def ClientBounds.versionSupported (b : ClientBounds) (target : Auth.ClientVersion) : Bool :=
  match target.ostype with
  | .ios => b.iosVer ≤ target.bcmbuildcode
  | .android => b.androidVer ≤ target.bcmbuildcode
  | .unknown => false

/-- A call of `getOnlineUsers`, with the account of the session of a device, if it has one -/
structure NoiseCall where
  onlineUsers : UserMap
  groupMembers : Gid → UserSet
  getSession : DispatchAddress → Option Auth.Account
  start : Bytes
  excludedGid : Gid
  bounds : ClientBounds
  count : ℕ

/-- The test of a device; a device without a client version has the operating system unknown. -/
def deviceSupported (b : ClientBounds) (getSession : DispatchAddress → Option Auth.Account)
    (user : DispatchAddress) : Bool :=
  match getSession user with
  | none => false
  | some account =>
      match account.getAuthDevice with
      | none => false
      | some dev => b.versionSupported dev.clientversion

/-- `getOnlineUsers`; the versions are those of `versionSupported` if it has been made. -/
def NoiseCall.search (c : NoiseCall) (versionSupported : Option ClientBounds) : NoiseSearch where
  onlineUsers := c.onlineUsers
  excludedUids := c.groupMembers c.excludedGid
  supported := deviceSupported (versionSupported.getD c.bounds) c.getSession
  start := c.start
  count := c.count

/-- `versionSupported`, and what the calls have returned -/
structure NoiseProcess where
  versionSupported : Option ClientBounds := none
  returned : List (NoiseCall × UserSet) := []

/-- A call that goes at most so many rounds; one that does not return is left waiting. -/
def NoiseProcess.step (s : NoiseProcess) (call : NoiseCall × ℕ) : Option NoiseProcess :=
  let q := call.1.search s.versionSupported
  some {
    versionSupported := some (s.versionSupported.getD call.1.bounds)
    returned := s.returned ++ ((loop q.round call.2 q.init).map fun t => (call.1, t.result)).toList }

def NoiseProcess.machine : Machine NoiseProcess (NoiseCall × ℕ) := ⟨NoiseProcess.step⟩

/-- At most `count` devices that are online, not in the group, and new enough for the call -/
def Qualified (c : NoiseCall) (result : UserSet) : Prop :=
  result.length ≤ c.count ∧ result.Nodup ∧ ∀ a ∈ result,
    (∃ e ∈ c.onlineUsers.entries, a ∈ e.2) ∧ a ∉ c.groupMembers c.excludedGid ∧
      deviceSupported c.bounds c.getSession a

/-- The call does not ask for newer versions than the first call of the process. -/
def BoundsKept (s : NoiseProcess) (call : NoiseCall × ℕ) : Prop :=
  ∀ b, s.versionSupported = some b →
    call.1.bounds.iosVer ≤ b.iosVer ∧ call.1.bounds.androidVer ≤ b.androidVer

theorem versionSupported_mono {b b' : ClientBounds} (hios : b.iosVer ≤ b'.iosVer)
    (handroid : b.androidVer ≤ b'.androidVer) {target : Auth.ClientVersion}
    (h : b'.versionSupported target = true) : b.versionSupported target = true := by
  unfold ClientBounds.versionSupported at h ⊢
  split at h
  · exact decide_eq_true (UInt64.le_trans hios (of_decide_eq_true h))
  · exact decide_eq_true (UInt64.le_trans handroid (of_decide_eq_true h))
  · cases h

theorem deviceSupported_mono {b b' : ClientBounds} (hios : b.iosVer ≤ b'.iosVer)
    (handroid : b.androidVer ≤ b'.androidVer) {getSession : DispatchAddress → Option Auth.Account}
    {a : DispatchAddress} (h : deviceSupported b' getSession a = true) :
    deviceSupported b getSession a = true := by
  unfold deviceSupported at h ⊢
  split at h
  · cases h
  · split at h
    · cases h
    · exact versionSupported_mono hios handroid h

theorem qualified_of_exits {s : NoiseProcess} {c : NoiseCall} {n : ℕ} (hok : BoundsKept s (c, n))
    {t : SearchState}
    (h : Exits (c.search s.versionSupported).round (c.search s.versionSupported).init t) :
    Qualified c t.result := by
  have hcollected := NoiseSearch.collected_of_exits h
  refine ⟨hcollected.length_le, hcollected.nodup, fun a ha => ?_⟩
  obtain ⟨honline, -, hnot, hsupported⟩ := hcollected.eligible a ha
  refine ⟨honline, hnot, ?_⟩
  have hdevice : deviceSupported (s.versionSupported.getD c.bounds) c.getSession a = true :=
    hsupported
  cases hkept : s.versionSupported with
  | none => rwa [hkept] at hdevice
  | some b =>
      obtain ⟨hios, handroid⟩ := hok b hkept
      rw [hkept] at hdevice
      exact deviceSupported_mono hios handroid hdevice

/-- In a process whose calls do not ask for newer versions than the first one did, everything that
is returned qualifies. -/
theorem returned_qualified (calls : List (NoiseCall × ℕ)) (s : NoiseProcess)
    (hrun : NoiseProcess.machine.run {} calls = some s)
    (hok : NoiseProcess.machine.Meets BoundsKept {} calls) :
    ∀ r ∈ s.returned, Qualified r.1 r.2 := by
  refine NoiseProcess.machine.run_invariant
    (fun s => ∀ r ∈ s.returned, Qualified r.1 r.2) ?_ ?_ hok hrun
  · rintro s ⟨c, n⟩ t hs hcall hstep
    obtain rfl := Option.some.inj hstep
    intro r hr
    rcases List.mem_append.mp hr with hr | hr
    · exact hs r hr
    · rw [Option.mem_toList] at hr
      obtain ⟨u, hu, rfl⟩ := Option.map_eq_some_iff.mp hr
      exact qualified_of_exits hcall ⟨n, hu⟩
  · exact fun r hr => absurd hr List.not_mem_nil

/-! ## Calls that go wrong -/

/-- The device 1 of the user `u` is online. -/
def oneOnline : UserMap where
  entries := [([117], [⟨[117], 1⟩])]
  sorted := List.pairwise_singleton _ _
  uid_eq := by simp
  ordered := by simp

/-- A session of an Android client with the build 3 -/
def buildThree : Auth.Account where
  uid := [117]
  devices := [⟨1, .normal, [], [], 0, { ostype := .android, bcmbuildcode := 3 }⟩]
  authdeviceid := 1

/-- A call for one device of clients that are new enough -/
def callFor (bounds : ClientBounds) : NoiseCall where
  onlineUsers := oneOnline
  groupMembers := fun _ => []
  getSession := fun _ => some buildThree
  start := []
  excludedGid := 7
  bounds := bounds
  count := 1

/-- The user `a` was picked once and has gone offline; the only device online is in the group. -/
def onlyMembers : UserMap where
  entries := [([97], []), ([109], [⟨[109], 1⟩])]
  sorted := by decide
  uid_eq := by simp
  ordered := by simp

def stuckCall : NoiseCall where
  onlineUsers := onlyMembers
  groupMembers := fun _ => [⟨[109], 1⟩]
  getSession := fun _ => some buildThree
  start := [97]
  excludedGid := 7
  bounds := ⟨0, 0⟩
  count := 1

theorem step_of_loop {s : NoiseProcess} {c : NoiseCall} {n : ℕ} {t : SearchState}
    (h : loop (c.search s.versionSupported).round n (c.search s.versionSupported).init = some t) :
    NoiseProcess.machine.step s (c, n) =
      some ⟨some (s.versionSupported.getD c.bounds), s.returned ++ [(c, t.result)]⟩ := by
  simp only [NoiseProcess.machine, NoiseProcess.step, h, Option.map_some, Option.toList_some]

/-- The first call asks for the build 0, the second one for `b`. -/
theorem run_two (b : ClientBounds) :
    NoiseProcess.machine.run {} [(callFor ⟨0, 0⟩, 1), (callFor b, 1)] =
      some ⟨some ⟨0, 0⟩, [(callFor ⟨0, 0⟩, [⟨[117], 1⟩]), (callFor b, [⟨[117], 1⟩])]⟩ := by
  have hloop : loop ((callFor ⟨0, 0⟩).search none).round 1 ((callFor ⟨0, 0⟩).search none).init =
      some ⟨[117], false, [⟨[117], 1⟩], [117]⟩ := by decide +kernel
  -- the second search is the same: its bounds are not used
  have hloop' : loop ((callFor b).search (some ⟨0, 0⟩)).round 1
      ((callFor b).search (some ⟨0, 0⟩)).init = some ⟨[117], false, [⟨[117], 1⟩], [117]⟩ := hloop
  refine NoiseProcess.machine.run_cons_eq_some.mpr ⟨_, step_of_loop hloop, ?_⟩
  exact NoiseProcess.machine.run_cons_eq_some.mpr ⟨_, step_of_loop hloop', rfl⟩

theorem returned_qualified_two : Qualified (callFor ⟨0, 0⟩) [⟨[117], 1⟩] := by
  refine returned_qualified [(callFor ⟨0, 0⟩, 1), (callFor ⟨0, 0⟩, 1)] _ (run_two ⟨0, 0⟩) ?_
    (callFor ⟨0, 0⟩, [⟨[117], 1⟩]) (by simp)
  refine (NoiseProcess.machine.meets_cons rfl).mpr ⟨fun b hb => ?_,
    (NoiseProcess.machine.meets_cons rfl).mpr ⟨fun b hb => ?_, trivial⟩⟩
  · cases hb
  · obtain rfl := Option.some.inj hb
    exact ⟨by decide, by decide⟩

/-- The second call asks for the build 5 and is given a device with the build 3. -/
theorem returned_unqualified : ¬ ∀ (calls : List (NoiseCall × ℕ)) (s : NoiseProcess),
    NoiseProcess.machine.run {} calls = some s → ∀ r ∈ s.returned, Qualified r.1 r.2 := by
  intro h
  have hsecond := h _ _ (run_two ⟨5, 5⟩) (callFor ⟨5, 5⟩, [⟨[117], 1⟩]) (by simp)
  exact absurd (hsecond.2.2 ⟨[117], 1⟩ (by simp)).2.2 (by decide)

/-! ## The recipients of a message -/

namespace OnlineMsgHandler

variable {H : OnlineMsgHandler} {s : MemberMgr} {msgObj : Json} {type : GroupMsgType} {gid : Gid}
  {message : Option GroupMsgOut} {a : DispatchAddress}

/-- The uids of the members before one without a uid -/
def uidsOf : List Json → List Bytes
  | [] => []
  | m :: members =>
      match do (← m.at_ "uid").getString with
      | .error _ => []
      | .ok uid => uid :: uidsOf members

/-- The users that the text of a member update names -/
def namedUids (H : OnlineMsgHandler) (msgObj : Json) : List Bytes :=
  match do (← msgObj.at_ "text").getString with
  | .error _ => []
  | .ok text =>
      if text.isEmpty then []
      else
        match do (← parseJson H.parse text).at_ "members" with
        | .error _ => []
        | .ok members => uidsOf members.elements

theorem mem_foldl_insert (users targetUsers : UserSet) :
    a ∈ users.foldl (fun t a => t.insert a) targetUsers ↔ a ∈ targetUsers ∨ a ∈ users := by
  induction users generalizing targetUsers with
  | nil => simp
  | cons b users ih =>
      rw [List.foldl_cons, ih, List.mem_insert_iff, List.mem_cons]
      tauto

theorem mem_addMembers (members : List Json) (targetUsers : UserSet) :
    a ∈ addMembers s members targetUsers ↔
      a ∈ targetUsers ∨ ∃ uid ∈ uidsOf members, a ∈ s.onlineUsers uid := by
  induction members generalizing targetUsers with
  | nil => simp [addMembers, uidsOf]
  | cons m members ih =>
      cases huid : (do (← m.at_ "uid").getString : Except JsonError Bytes) with
      | error e => simp [addMembers, uidsOf, huid]
      | ok uid =>
          simp only [addMembers, uidsOf, huid]
          rw [ih, mem_foldl_insert]
          simp only [List.mem_cons, exists_eq_or_imp, or_assoc]

/-- A member update goes to the named users, too. -/
theorem mem_memberUpdateTargets (targetUsers : UserSet) :
    a ∈ H.memberUpdateTargets s msgObj targetUsers ↔
      a ∈ targetUsers ∨ ∃ uid ∈ H.namedUids msgObj, a ∈ s.onlineUsers uid := by
  cases htext : (do (← msgObj.at_ "text").getString : Except JsonError Bytes) with
  | error e => simp [memberUpdateTargets, namedUids, htext]
  | ok text =>
      simp only [memberUpdateTargets, namedUids, htext]
      by_cases hempty : text.isEmpty
      · simp [hempty]
      · cases hmembers : (do (← parseJson H.parse text).at_ "members" : Except JsonError Json) with
        | error e => simp [hempty]
        | ok members => simpa [hempty] using mem_addMembers _ _

/-- What `read` yields has the type and the group of the message. -/
theorem type_of_read {isNoise : Bool} {built : Option (Option GroupMsgOut)}
    (h : H.read msgObj isNoise = .ok (type, gid, built)) :
    (∃ n, (do (← msgObj.at_ "type").getInt) = Except.ok n ∧ H.msgType n = type) ∧
      (do (← msgObj.at_ "gid").getUInt64) = Except.ok gid := by
  obtain ⟨j, hj, h⟩ := bind_eq_ok.mp h
  obtain ⟨n, hn, h⟩ := bind_eq_ok.mp h
  obtain ⟨j', hj', h⟩ := bind_eq_ok.mp h
  obtain ⟨gid', hgid, h⟩ := bind_eq_ok.mp h
  have hpair : H.msgType n = type ∧ gid' = gid := by
    split at h
    · cases h
      exact ⟨rfl, rfl⟩
    · obtain ⟨m, -, h⟩ := bind_eq_ok.mp h
      cases h
      exact ⟨rfl, rfl⟩
  refine ⟨⟨n, bind_eq_ok.mpr ⟨j, hj, hn⟩, hpair.1⟩, bind_eq_ok.mpr ⟨j', hj', ?_⟩⟩
  rw [hgid, hpair.2]

/-- Reading the message for the noise yields the same type and group. -/
theorem read_same {isNoise isNoise' : Bool} {type' : GroupMsgType} {gid' : Gid}
    {built built' : Option (Option GroupMsgOut)}
    (h : H.read msgObj isNoise = .ok (type, gid, built))
    (h' : H.read msgObj isNoise' = .ok (type', gid', built')) : type' = type ∧ gid' = gid := by
  obtain ⟨⟨n, hn, rfl⟩, hgid⟩ := type_of_read h
  obtain ⟨⟨n', hn', rfl⟩, hgid'⟩ := type_of_read h'
  rw [hn] at hn'
  rw [hgid] at hgid'
  exact ⟨by rw [Except.ok.inj hn'], (Except.ok.inj hgid').symm⟩

/-- The recipients of a message of a known type -/
theorem targetUsers_of_read (hread : H.read msgObj false = .ok (type, gid, some message)) :
    ∃ push, H.handleGroupMessage s msgObj = .ok push ∧
      (type ≠ .memberUpdate → push.targetUsers = s.groupMembers gid) ∧
      (type = .memberUpdate →
        push.targetUsers = H.memberUpdateTargets s msgObj (s.groupMembers gid)) := by
  obtain ⟨mid, hmid⟩ := H.mid_of_read hread
  obtain ⟨j, hj, hj'⟩ := bind_eq_ok.mp hmid
  have hpush : ∀ targets : UserSet, ∃ push : GroupPush,
      (if targets.isEmpty then (.ok ⟨[], message, none⟩ : Except JsonError GroupPush)
        else .ok ⟨targets, message, some (mid, (targets.filter fun u => u.deviceid = 1).map
          DispatchAddress.uid)⟩) = .ok push ∧ push.targetUsers = targets := by
    intro targets
    split
    · next hempty => exact ⟨_, rfl, (List.isEmpty_iff.mp hempty).symm⟩
    · exact ⟨_, rfl, rfl⟩
  unfold handleGroupMessage
  rw [hread, hj]
  simp only [bind, Except.bind, hj', pure, Except.pure]
  cases type with
  | memberUpdate =>
      obtain ⟨push, hok, htargets⟩ := hpush (H.memberUpdateTargets s msgObj (s.groupMembers gid))
      exact ⟨push, hok, fun hne => absurd rfl hne, fun _ => htargets⟩
  | _ =>
      obtain ⟨push, hok, htargets⟩ := hpush (s.groupMembers gid)
      exact ⟨push, hok, fun _ => htargets, fun heq => by cases heq⟩

/-- A text that makes a message makes a noise copy. -/
theorem buildFromText_noise {parse : Bytes → Option Json}
    {fromUid : Json → Except JsonError Bytes}
    {body : Gid → UInt64 → Bytes → Json → Except JsonError GroupMsgBody}
    (h : buildFromText parse msgObj fromUid body type false = .ok message) :
    ∃ message', buildFromText parse msgObj fromUid body type true = .ok message' := by
  obtain ⟨j, hj, h⟩ := bind_eq_ok.mp h
  obtain ⟨gid, hgid, h⟩ := bind_eq_ok.mp h
  obtain ⟨j', hj', h⟩ := bind_eq_ok.mp h
  obtain ⟨mid, hmid, h⟩ := bind_eq_ok.mp h
  obtain ⟨uid, huid, h⟩ := bind_eq_ok.mp h
  obtain ⟨j'', hj'', h⟩ := bind_eq_ok.mp h
  obtain ⟨text, htext, h⟩ := bind_eq_ok.mp h
  suffices hrest : ∃ message', (if text.isEmpty then pure none else do
      let textObj ← parseJson parse text
      return some (buildOutMessage type true (← body gid mid uid textObj)) :
        Except JsonError (Option GroupMsgOut)) = .ok message' by
    obtain ⟨message', hmessage⟩ := hrest
    exact ⟨message', bind_eq_ok.mpr ⟨j, hj, bind_eq_ok.mpr ⟨gid, hgid, bind_eq_ok.mpr ⟨j', hj',
      bind_eq_ok.mpr ⟨mid, hmid, bind_eq_ok.mpr ⟨uid, huid, bind_eq_ok.mpr ⟨j'', hj'',
        bind_eq_ok.mpr ⟨text, htext, hmessage⟩⟩⟩⟩⟩⟩⟩⟩
  split at h
  · next hempty => exact ⟨none, if_pos hempty⟩
  · next hempty =>
    obtain ⟨textObj, htextObj, h⟩ := bind_eq_ok.mp h
    obtain ⟨b, hb, -⟩ := bind_eq_ok.mp h
    refine ⟨some (buildOutMessage type true b), (if_neg hempty).trans ?_⟩
    exact bind_eq_ok.mpr ⟨textObj, htextObj, bind_eq_ok.mpr ⟨b, hb, rfl⟩⟩

/-- A member update that can be read makes a noise copy. -/
theorem read_noise (hread : H.read msgObj false = .ok (.memberUpdate, gid, some message)) :
    ∃ message', H.read msgObj true = .ok (.memberUpdate, gid, some message') := by
  obtain ⟨⟨n, hn, htype⟩, -⟩ := type_of_read hread
  obtain ⟨j, hj, h⟩ := bind_eq_ok.mp hread
  obtain ⟨n', hn', h⟩ := bind_eq_ok.mp h
  obtain ⟨j', hj', h⟩ := bind_eq_ok.mp h
  obtain ⟨gid', hgid, h⟩ := bind_eq_ok.mp h
  have hnn : n' = n := by
    obtain ⟨j'', hj'', hn''⟩ := bind_eq_ok.mp hn
    rw [hj] at hj''
    rw [← Except.ok.inj hj'', hn'] at hn''
    exact Except.ok.inj hn''
  rw [hnn, htype] at h
  obtain ⟨m, hm, h⟩ := bind_eq_ok.mp h
  obtain ⟨m', hm'⟩ := buildFromText_noise hm
  cases h
  refine ⟨m', bind_eq_ok.mpr ⟨j, hj, bind_eq_ok.mpr ⟨n', hn', bind_eq_ok.mpr ⟨j', hj',
    bind_eq_ok.mpr ⟨gid, hgid, ?_⟩⟩⟩⟩⟩
  rw [hnn, htype]
  exact bind_eq_ok.mpr ⟨m', hm', rfl⟩

end OnlineMsgHandler

/-! ## The noise copy -/

/-- `NoiseConfig`; `share n` is `percentage * n` without its fraction. -/
structure NoiseConfig where
  share : ℕ → ℕ
  bounds : ClientBounds

/-- `nReceivers` -/
def NoiseConfig.nReceivers (cfg : NoiseConfig) (onlineUids : UserSet) : ℕ :=
  let n := cfg.share onlineUids.length
  if n = 0 ∧ 0 < onlineUids.length then 1 else n

/-- What else the choice of receivers depends on: the sessions, the versions of the first call, and
`m_lastNoiseUid` -/
structure NoiseWorld where
  getSession : DispatchAddress → Option Auth.Account
  versionSupported : Option ClientBounds
  lastNoiseUid : Bytes

/-- The search of `pickNoiseReceivers` -/
def NoiseConfig.search (cfg : NoiseConfig) (w : NoiseWorld) (s : MemberMgr) (users : UserMap)
    (gid : Gid) (onlineUids : UserSet) : NoiseSearch :=
  NoiseCall.search
    { onlineUsers := users
      groupMembers := s.groupMembers
      getSession := w.getSession
      start := w.lastNoiseUid
      excludedGid := gid
      bounds := cfg.bounds
      count := cfg.nReceivers onlineUids } w.versionSupported

/-- `pickNoiseReceivers` returns with these receivers. -/
def NoiseConfig.Picks (cfg : NoiseConfig) (w : NoiseWorld) (s : MemberMgr) (users : UserMap)
    (gid : Gid) (onlineUids targetUids : UserSet) : Prop :=
  if cfg.nReceivers onlineUids = 0 then targetUids = []
  else
    let q := cfg.search w s users gid onlineUids
    ∃ t, Exits q.round q.init t ∧ targetUids = t.result

/-- Whatever the sessions are, the first call was, and the last receiver was: nobody is sent both the
message and the noise copy of it. -/
def NoiseApart (H : OnlineMsgHandler) (cfg : NoiseConfig) (s : MemberMgr) (users : UserMap)
    (msgObj : Json) : Prop :=
  ∀ w push pick noise message, H.handleGroupMessage s msgObj = .ok push →
    (∀ gid, (do (← msgObj.at_ "gid").getUInt64) = Except.ok gid →
      cfg.Picks w s users gid push.targetUsers (pick gid push.targetUsers)) →
    H.generateNoiseForGroupMessage pick msgObj push.targetUsers = .ok (noise, message) →
    ∀ a ∈ push.targetUsers, a ∉ noise

theorem picked_eligible {cfg : NoiseConfig} {w : NoiseWorld} {s : MemberMgr} {users : UserMap}
    {gid : Gid} {onlineUids targetUids : UserSet}
    (h : cfg.Picks w s users gid onlineUids targetUids) {a : DispatchAddress}
    (ha : a ∈ targetUids) : NoiseSearch.Eligible (cfg.search w s users gid onlineUids) a := by
  unfold NoiseConfig.Picks at h
  split at h
  · rw [h] at ha
    exact absurd ha List.not_mem_nil
  · obtain ⟨t, ht, rfl⟩ := h
    exact (NoiseSearch.collected_of_exits ht).eligible a ha

/-- An account whose device has the newest version there can be -/
def newestClient (a : DispatchAddress) : Auth.Account where
  uid := a.uid
  devices := [⟨a.deviceid, .normal, [], [], 0,
    { ostype := .android, bcmbuildcode := 0xFFFFFFFFFFFFFFFF }⟩]
  authdeviceid := a.deviceid

theorem deviceSupported_newestClient (b : ClientBounds) (d a : DispatchAddress) :
    deviceSupported b (fun x => if x = d then some (newestClient d) else none) a = true ↔ a = d := by
  by_cases had : a = d
  · have hle : b.androidVer ≤ 0xFFFFFFFFFFFFFFFF := by
      have hlt := b.androidVer.toNat_lt
      rw [UInt64.le_iff_toNat_le]
      exact Nat.le_of_lt_succ hlt
    simp [deviceSupported, had, newestClient, Auth.Account.getAuthDevice, Auth.Account.getDevice,
      ClientBounds.versionSupported, hle]
  · simp [deviceSupported, had]

/-- A device online that is named in a member update and is not in the group can be sent both: no
other device is supported, and the search begins at the beginning. -/
theorem picks_outsider (cfg : NoiseConfig) {s : MemberMgr} {users : UserMap} {gid : Gid}
    {onlineUids : UserSet} {e : Bytes × UserSet} {d : DispatchAddress} (he : e ∈ users.entries)
    (hne : e.1 ≠ []) (hhead : (e.2.filter (· ∉ s.groupMembers gid)).head? = some d)
    (hd : d ∈ onlineUids) :
    ∃ w targetUids, cfg.Picks w s users gid onlineUids targetUids ∧ d ∈ targetUids := by
  have hcount : 0 < cfg.nReceivers onlineUids := by
    have hlen := List.length_pos_of_mem hd
    simp only [NoiseConfig.nReceivers]
    split
    · exact Nat.one_pos
    · omega
  let w : NoiseWorld := ⟨fun x => if x = d then some (newestClient d) else none, none, []⟩
  obtain ⟨t, ht⟩ := NoiseSearch.ends_of_canEnd (q := cfg.search w s users gid onlineUids) hcount
    (Or.inr (Or.inl rfl))
  refine ⟨w, t.result, ?_, ?_⟩
  · rw [NoiseConfig.Picks, if_neg (Nat.ne_of_gt hcount)]
    exact ⟨t, ht, rfl⟩
  · exact NoiseSearch.mem_of_exits hcount rfl he hne hhead
      (deviceSupported_newestClient cfg.bounds d) ht

/-- A device of a named user that is online and outside the group is sent the message, and it may be
picked for the noise. -/
theorem NoiseApart.named {H : OnlineMsgHandler} {cfg : NoiseConfig} {s : MemberMgr}
    {users : UserMap} {msgObj : Json}
    (husers : ∀ uid a, a ∈ s.onlineUsers uid ↔ a ∈ users.devices uid)
    (hapart : NoiseApart H cfg s users msgObj) {gid : Gid} {message : Option GroupMsgOut}
    (hread : H.read msgObj false = .ok (.memberUpdate, gid, some message)) {uid : Bytes}
    (huid : uid ∈ H.namedUids msgObj) (hne : uid ≠ []) {a : DispatchAddress}
    (ha : a ∈ s.onlineUsers uid) : a ∈ s.groupMembers gid := by
  by_contra hnot
  obtain ⟨e, he, rfl, hae⟩ := UserMap.mem_devices.mp ((husers uid a).mp ha)
  -- the first device of the user outside the group is the one that a search gets to
  have hfilter : a ∈ e.2.filter (· ∉ s.groupMembers gid) :=
    List.mem_filter.mpr ⟨hae, decide_eq_true hnot⟩
  obtain ⟨d, rest, hd⟩ := List.exists_cons_of_ne_nil (List.ne_nil_of_mem hfilter)
  have hdmem : d ∈ e.2 := List.mem_of_mem_filter (hd ▸ List.mem_cons_self)
  obtain ⟨push, hpush, -, htargets⟩ := OnlineMsgHandler.targetUsers_of_read (s := s) hread
  have hdpush : d ∈ push.targetUsers := by
    rw [htargets rfl, OnlineMsgHandler.mem_memberUpdateTargets]
    exact Or.inr ⟨e.1, huid, (husers e.1 d).mpr (UserMap.mem_devices.mpr ⟨e, he, rfl, hdmem⟩)⟩
  obtain ⟨w, noise, hpicks, hdnoise⟩ := picks_outsider cfg he hne
    (by rw [hd]; rfl) hdpush
  obtain ⟨message', hread'⟩ := OnlineMsgHandler.read_noise hread
  refine hapart w push (fun _ _ => noise) noise message' hpush (fun gid' hgid' => ?_) ?_ d hdpush
    hdnoise
  · rw [(OnlineMsgHandler.type_of_read hread).2] at hgid'
    rwa [← Except.ok.inj hgid']
  · rw [OnlineMsgHandler.generateNoiseForGroupMessage, hread']
    rfl

/-- Noise goes to devices outside the group only. The members of the group are the recipients, and
the named users, whose devices are in the group. -/
theorem noiseApart_of_named {H : OnlineMsgHandler} {cfg : NoiseConfig} {s : MemberMgr}
    {users : UserMap} {msgObj : Json}
    (husers : ∀ uid a, a ∈ s.onlineUsers uid ↔ a ∈ users.devices uid)
    (hnamed : ∀ gid message, H.read msgObj false = .ok (.memberUpdate, gid, some message) →
      ∀ uid ∈ H.namedUids msgObj, uid ≠ [] → ∀ a ∈ s.onlineUsers uid, a ∈ s.groupMembers gid) :
    NoiseApart H cfg s users msgObj := by
  intro w push pick noise message hpush hpick hgen a ha hnoise
  obtain ⟨⟨type', gid', built'⟩, hread', hgen⟩ := bind_eq_ok.mp hgen
  obtain ⟨⟨type, gid, built⟩, hread, hpush'⟩ := bind_eq_ok.mp hpush
  obtain ⟨rfl, rfl⟩ := OnlineMsgHandler.read_same hread hread'
  cases built' with
  | none =>
      cases hgen
      exact List.not_mem_nil hnoise
  | some m' =>
      cases hgen
      cases built with
      | none =>
          cases hpush'
          exact List.not_mem_nil ha
      | some m =>
          have hpicks := hpick gid' (OnlineMsgHandler.type_of_read hread').2
          have heligible := picked_eligible hpicks hnoise
          have hnot : a ∉ s.groupMembers gid' := heligible.notExcluded
          obtain ⟨push', hok, hother, hupdate⟩ := OnlineMsgHandler.targetUsers_of_read hread
          obtain rfl := Except.ok.inj (hok.symm.trans hpush)
          by_cases htype : type' = .memberUpdate
          · rw [hupdate htype, OnlineMsgHandler.mem_memberUpdateTargets] at ha
            obtain ⟨uid, huid, haonline⟩ := ha.resolve_left hnot
            obtain ⟨e, he, rfl, hae⟩ := UserMap.mem_devices.mp ((husers uid a).mp haonline)
            have hne : e.1 ≠ [] := users.uid_eq e he a hae ▸ heligible.uid_ne
            exact hnot (hnamed gid' m (htype ▸ hread) e.1 huid hne a haonline)
          · -- the other types go to the devices of the group
            rw [hother htype] at ha
            exact hnot ha

/-- No noise goes to a recipient of the message if and only if the message is no member update, or
the users it names have no device online that is not in the group. (A user with the empty uid is
never found.) -/
theorem noiseApart_iff (H : OnlineMsgHandler) (cfg : NoiseConfig) (s : MemberMgr) (users : UserMap)
    (husers : ∀ uid a, a ∈ s.onlineUsers uid ↔ a ∈ users.devices uid) (msgObj : Json) :
    NoiseApart H cfg s users msgObj ↔
      ∀ gid message, H.read msgObj false = .ok (.memberUpdate, gid, some message) →
        ∀ uid ∈ H.namedUids msgObj, uid ≠ [] → ∀ a ∈ s.onlineUsers uid,
          a ∈ s.groupMembers gid := by
  constructor
  · intro hapart gid message hread uid huid hne a ha
    exact hapart.named husers hread huid hne ha
  · exact noiseApart_of_named husers

/-! ## A member update that names somebody outside -/

/-- The text of a member update that names the user `u` -/
def leaveText : Bytes :=
  ascii ("\x7b\x22action\x22:3,\x22members\x22:[\x7b\x22uid\x22:\x22u\x22,\x22nick\x22:\x22\x22," ++
    "\x22role\x22:3\x7d]\x7d").toList

def leaveTextJson : Json :=
  .object [("action", .number 3), ("members", .array [.object [("uid", .string [117]),
    ("nick", .string []), ("role", .number 3)]])]

/-- The user `u` has left the group 7. -/
def leaveJson : Json :=
  .object [("gid", .number 7), ("mid", .number 9), ("type", .number 4), ("from_uid", .string [109]),
    ("text", .string leaveText)]

def leaveHandler : OnlineMsgHandler where
  parse := fun text => if text = leaveText then some leaveTextJson else none
  msgType := fun n => if n = 4 then .memberUpdate else .other n
  pickNoiseReceivers := none

/-- The users `m` and `u` are online. -/
def memberAndLeaver : UserMap where
  entries := [([109], [⟨[109], 1⟩]), ([117], [⟨[117], 1⟩])]
  sorted := by decide
  uid_eq := by simp
  ordered := by simp

/-- The group 7 has these devices online. -/
def groupSeven (members : UserSet) : MemberMgr :=
  { MemberMgr.initial fun _ => ⟨[], List.nodup_nil⟩ with
    onlineUsers := memberAndLeaver.devices
    groupMembers := fun gid => if gid = 7 then members else [] }

/-- Half of the recipients, and any version -/
def halfNoise : NoiseConfig := ⟨fun n => n / 2, ⟨0, 0⟩⟩

/-- The user is still in the index of the group. -/
theorem noiseApart_iff_member :
    NoiseApart leaveHandler halfNoise (groupSeven [⟨[109], 1⟩, ⟨[117], 1⟩]) memberAndLeaver
      leaveJson := by
  refine (noiseApart_iff _ _ _ _ (fun _ _ => Iff.rfl) _).mpr ?_
  intro gid message hread uid huid _ a ha
  have hgid : gid = 7 :=
    (Except.ok.inj (OnlineMsgHandler.type_of_read hread).2.symm).trans (by decide)
  have hnamed : leaveHandler.namedUids leaveJson = [[117]] := by decide +kernel
  rw [hnamed, List.mem_singleton] at huid
  subst hgid huid
  have hall : ∀ a ∈ memberAndLeaver.devices [117],
      a ∈ (groupSeven [⟨[109], 1⟩, ⟨[117], 1⟩]).groupMembers 7 := by decide +kernel
  exact hall a ha

/-- The user has been taken out of the index: the message and the noise copy of it both go to the
device of the user. -/
theorem noise_to_recipient :
    ¬ NoiseApart leaveHandler halfNoise (groupSeven [⟨[109], 1⟩]) memberAndLeaver leaveJson := by
  intro hapart
  have hread : ∃ message, leaveHandler.read leaveJson false =
      .ok (.memberUpdate, 7, some message) := ⟨_, rfl⟩
  obtain ⟨message, hread⟩ := hread
  obtain ⟨push, hpush, -, htargets⟩ :=
    OnlineMsgHandler.targetUsers_of_read (s := groupSeven [⟨[109], 1⟩]) hread
  have hrecipients : push.targetUsers = [⟨[117], 1⟩, ⟨[109], 1⟩] := by
    rw [htargets rfl]
    decide +kernel
  obtain ⟨noiseMessage, hread'⟩ := OnlineMsgHandler.read_noise hread
  -- every device has a session, and the search begins at the beginning
  refine hapart ⟨fun _ => some buildThree, none, []⟩ push (fun _ _ => [⟨[117], 1⟩]) [⟨[117], 1⟩]
    noiseMessage hpush (fun gid hgid => ?_) ?_ ⟨[117], 1⟩ ?_ List.mem_cons_self
  · rw [(OnlineMsgHandler.type_of_read hread).2] at hgid
    rw [← Except.ok.inj hgid, hrecipients, NoiseConfig.Picks, if_neg (by decide)]
    exact ⟨⟨[117], false, [⟨[117], 1⟩], [117]⟩, ⟨1, by decide +kernel⟩, rfl⟩
  · rw [OnlineMsgHandler.generateNoiseForGroupMessage, hread']
    rfl
  · rw [hrecipients]
    exact List.mem_cons_self

end BcmServer.Group
