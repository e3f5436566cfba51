import BcmServer.Controllers.AccountTrust

/-!
# BcmServer.Controllers.AccountLife — who can be let in, and for how long

Requests about an account come in and take their steps in any order.

* `tokens_trusted`: in every state, a device that `Authenticator::auth` lets in has a token
  with the digest of one that was signed in some request, by a key whose hash is the uid or by
  a key that such a key has certified for the number of the device.
* `signup_challenged`: there is an account only where a challenge was given, answered in time
  and solved by the request to sign up, which has signed its token.
* `deleted_for_good`: an account that is deleted stays deleted, nobody is let in and nobody
  signs in, unless an account is created over it.
-/

namespace BcmServer.Controllers

open Util Lts Store Auth

namespace AccountServer

variable {F K : Type} {server : AccountServer F K} {uid : Bytes} {log : List AccountEvent}

/-! ## Signing up -/

/-- A request to sign up for the uid that names a key of the uid -/
structure Asked (server : AccountServer F K) (uid : Bytes) (s : AccountStore) (req : SignRequest)
    (auth : AuthorizationHeader) : Prop where
  received : .signup req ∈ s.received
  sent : req.auth = some auth
  own : auth.uid = uid
  key : server.lib.checkUid uid req.attr.attributes.publicKey true = true

/-- The challenge that was read for the request was given by the server, it was answered in time,
and solved. -/
def Solved (server : AccountServer F K) (uid : Bytes) (s : AccountStore) (req : SignRequest) :
    Prop :=
  ∃ challenge clock, (req, challenge, clock) ∈ s.challenged ∧ challenge ∈ s.issued ∧
    challenge.difficulty = server.difficulty ∧
    clock.nowInMilli.toUInt64 - challenge.timestamp ≤ server.expiration ∧
    verifyChallenge server.lib.getDoubleHash uid challenge.difficulty challenge.nonce
      req.attr.nonce = true

/-- Somebody has signed up with the key: the challenge was solved, and the token was signed. -/
def SignedUp (server : AccountServer F K) (uid : Bytes) (s : AccountStore) (key : Bytes) : Prop :=
  ∃ req auth, server.Asked uid s req auth ∧ server.Solved uid s req ∧
    req.attr.attributes.publicKey = key ∧
    server.lib.verifySignature key auth.token req.attr.sign = true

/-- Nothing that happened is forgotten. -/
structure Later (s s' : AccountStore) : Prop where
  received : s.received ⊆ s'.received
  challenged : s.challenged ⊆ s'.challenged
  issued : s.issued ⊆ s'.issued

theorem later_refl (s : AccountStore) : Later s s :=
  ⟨List.Subset.refl _, List.Subset.refl _, List.Subset.refl _⟩

variable {s s' : AccountStore}

theorem Later.trans {s'' : AccountStore} (h : Later s s') (h' : Later s' s'') : Later s s'' :=
  ⟨fun _ hmem => h'.received (h.received hmem), fun _ hmem => h'.challenged (h.challenged hmem),
    fun _ hmem => h'.issued (h.issued hmem)⟩

theorem Asked.mono {req : SignRequest} {auth : AuthorizationHeader}
    (h : server.Asked uid s req auth) (hs : Later s s') : server.Asked uid s' req auth :=
  ⟨hs.received h.received, h.sent, h.own, h.key⟩

theorem Solved.mono {req : SignRequest} (h : server.Solved uid s req) (hs : Later s s') :
    server.Solved uid s' req := by
  rcases h with ⟨challenge, clock, hmem, hissued, h⟩
  exact ⟨challenge, clock, hs.challenged hmem, hs.issued hissued, h⟩

theorem SignedUp.mono {key : Bytes} (h : server.SignedUp uid s key) (hs : Later s s') :
    server.SignedUp uid s' key := by
  rcases h with ⟨req, auth, hasked, hsolved, h⟩
  exact ⟨req, auth, hasked.mono hs, hsolved.mono hs, h⟩

/-- What holds of an account that is stored, or is going to be -/
structure Genuine (server : AccountServer F K) (uid : Bytes) (s : AccountStore) (r : Registered) :
    Prop where
  trusted : server.Trusted uid s.received r
  signedUp : server.SignedUp uid s r.publickey
  identityKey : r.account.values .identityKey = r.publickey

theorem Genuine.mono {r : Registered} (h : server.Genuine uid s r) (hs : Later s s') :
    server.Genuine uid s' r :=
  ⟨h.trusted.mono hs.received, h.signedUp.mono hs, h.identityKey⟩

/-- The device that signs up -/
theorem values_signupDevice (server : AccountServer F K) (req : SignRequest)
    (auth : AuthorizationHeader) :
    let d := server.signupDevice req auth
    let cert := Authenticator.getCredential server.lib.ext req.randNum auth.token
    d.id = UInt32.ofInt auth.deviceId ∧ d.values .authToken = cert.token ∧
      d.values .salt = cert.salt ∧ d.values .publicKey = ([] : Bytes) := by
  unfold signupDevice
  cases req.client with
  | none => exact ⟨rfl, rfl, rfl, rfl⟩
  | some client => exact ⟨rfl, rfl, rfl, rfl⟩

/-- An account is created with a token that its key has signed. -/
theorem genuine_signupCreate {req : SignRequest} {auth : AuthorizationHeader}
    {lookup : AccountLookup} {r : Registered} (hasked : server.Asked uid s req auth)
    (hsolved : server.Solved uid s req) (h : server.signupCreate req auth lookup = .ok r) :
    server.Genuine uid s r := by
  unfold signupCreate at h
  cases lookup with
  | failed => cases h
  | found r' => cases h
  | noSuchData =>
      simp only at h
      split at h
      swap
      · cases h
      rename_i hsigned
      cases h
      have hown : server.OwnKey uid s.received req.attr.attributes.publicKey :=
        ⟨hasked.key, req, hasked.received, rfl⟩
      have hvouched : server.Vouched uid s.received (UInt32.ofInt auth.deviceId) auth.token :=
        ⟨req, auth, req.attr.attributes.publicKey, Or.inl hasked.received, hasked.sent, rfl, rfl,
          Or.inl hown, hsigned⟩
      obtain ⟨hid, htoken, hsalt, hkey⟩ := values_signupDevice server req auth
      refine ⟨⟨hown, ?_, ?_⟩, ⟨req, auth, hasked, hsolved, rfl, hsigned⟩, rfl⟩
      · intro d hd
        rw [List.mem_singleton.mp hd]
        refine Or.inr ⟨auth.token, ?_, ?_⟩
        · rw [hid]
          exact hvouched
        · exact htoken.trans (congrArg (fun salt : Bytes => Crypto.HexEncoder.encode
            (server.lib.ext.sha1 (salt ++ auth.token)) true []) hsalt.symm)
      · intro d hd
        rw [List.mem_singleton.mp hd]
        exact Or.inl hkey

/-! ## Keys that are given away -/

/-- The keys of a response: the identity key is one of the uid, and each device has a signed key.
The key of a device is the identity key, for the master device, or it is certified, if there is
one. -/
structure Authentic (server : AccountServer F K) (uid : Bytes) (log : List AccountEvent)
    (response : PreKeyResponse) : Prop where
  own : server.OwnKey uid log response.identityKey
  signedPreKey : ∀ item ∈ response.devices, item.signedPreKey.isSome
  device : ∀ item ∈ response.devices, item.deviceIdentityKey = [] ∨
    item.deviceId = server.masterId ∧ item.deviceIdentityKey = response.identityKey ∨
    server.Certified uid log item.deviceId item.deviceIdentityKey item.accountSignature

theorem Authentic.mono {log' : List AccountEvent} {response : PreKeyResponse}
    (h : server.Authentic uid log response) (hlog : log ⊆ log') :
    server.Authentic uid log' response where
  own := h.own.mono hlog
  signedPreKey := h.signedPreKey
  device item hitem := by
    rcases h.device item hitem with h | h | h
    · exact Or.inl h
    · exact Or.inr (Or.inl h)
    · exact Or.inr (Or.inr (h.mono hlog))

/-- The keys of a genuine account -/
theorem authentic_getDeviceKeys {target : Registered} (htarget : server.Genuine uid s target)
    {nowInMilli : Int64} {deviceId : Option UInt32} {targetKeys : List OnetimeKey}
    {response : PreKeyResponse}
    (h : getDeviceKeys server.masterId nowInMilli target.account deviceId targetKeys =
      some response) : server.Authentic uid s.received response := by
  obtain ⟨hkey, devices, hdevices, hactive, hitems⟩ := getDeviceKeys_cases h
  refine ⟨?_, ?_, ?_⟩
  · rw [hkey, htarget.identityKey]
    exact htarget.trusted.own
  · intro item hitem
    rcases List.mem_map.mp (hitems.subset hitem) with ⟨d, hd, rfl⟩
    exact signedPreKey_of_active (hactive d hd)
  · intro item hitem
    rcases List.mem_map.mp (hitems.subset hitem) with ⟨d, hd, rfl⟩
    rcases deviceIdentityKey_responseItem (target.account.values .identityKey) targetKeys d with
      hpublickey | ⟨hmaster, hidentity⟩
    · rw [hpublickey]
      rcases htarget.trusted.certificates d (hdevices.subset hd) with hempty | hcertified
      · exact Or.inl hempty
      · exact Or.inr (Or.inr hcertified)
    · exact Or.inr (Or.inl ⟨hmaster, hidentity.trans hkey.symm⟩)

/-! ## Runs -/

/-- What a request that goes on has made sure of -/
def CallSound (server : AccountServer F K) (uid : Bytes) (s : AccountStore) :
    AccountCall → Prop
  | .getChallenge req auth => server.Asked uid s req auth
  | .delChallenge req auth | .getAccount req auth =>
      server.Asked uid s req auth ∧ server.Solved uid s req
  | .create r => server.Genuine uid s r
  | .seen r w _ req _ => server.Trusted uid s.received r ∧ server.Sound uid s.received w ∧
      ∃ header client clock reads, .request header client req clock reads ∈ s.received
  | .clearKeys _ w | .write w _ => server.Sound uid s.received w
  | .setKeys _ => True
  | .takeKeys target _ => server.Genuine uid s target

/-- What holds of what is stored, and of the keys that were given away -/
structure StoreSound (server : AccountServer F K) (uid : Bytes) (s : AccountStore) : Prop where
  row : ∀ r, s.row = some r → server.Genuine uid s r
  challenge : ∀ c, s.challenge = some c → c ∈ s.issued
  issued : ∀ c ∈ s.issued, c.difficulty = server.difficulty
  responses : ∀ response ∈ s.responses, server.Authentic uid s.received response

/-- What holds in every state -/
structure Inv (server : AccountServer F K) (uid : Bytes) (p : Pool AccountStore AccountCall) :
    Prop where
  store : server.StoreSound uid p.shared
  calls : ∀ call ∈ p.calls, server.CallSound uid p.shared call

theorem CallSound.mono {call : AccountCall} (h : server.CallSound uid s call) (hs : Later s s') :
    server.CallSound uid s' call := by
  cases call with
  | getChallenge req auth => exact Asked.mono h hs
  | delChallenge req auth => exact ⟨h.1.mono hs, h.2.mono hs⟩
  | getAccount req auth => exact ⟨h.1.mono hs, h.2.mono hs⟩
  | create r => exact Genuine.mono h hs
  | seen r w deviceId req clock =>
      obtain ⟨htrusted, hsound, header, client, clock', reads, hmem⟩ := h
      exact ⟨htrusted.mono hs.received, hsound.mono hs.received, header, client, clock', reads,
        hs.received hmem⟩
  | clearKeys deviceId w => exact Sound.mono h hs.received
  | write w upload => exact Sound.mono h hs.received
  | setKeys upload => trivial
  | takeKeys target deviceId => exact Genuine.mono h hs

/-- Something happened, and neither an account nor a challenge is stored anew. -/
theorem StoreSound.later (h : server.StoreSound uid s) (hs : Later s s') (hrow : s'.row = s.row)
    (hchallenge : s'.challenge = s.challenge) (hissued : s'.issued = s.issued)
    (hresponses : s'.responses = s.responses) : server.StoreSound uid s' where
  row r hr := (h.row r (hrow ▸ hr)).mono hs
  challenge c hc := hs.issued (h.challenge c (hchallenge ▸ hc))
  issued c hc := h.issued c (hissued ▸ hc)
  responses response hmem := (h.responses response (hresponses ▸ hmem)).mono hs.received

theorem found_of_lookup {reads : Bool} {r : Registered} (h : s.lookup reads = .found r) :
    s.row = some r := by
  unfold AccountStore.lookup at h
  cases reads with
  | false => cases h
  | true =>
      cases hrow : s.row with
      | none =>
          rw [hrow] at h
          cases h
      | some r' =>
          rw [hrow] at h
          cases h
          rfl

theorem found_of_lookupChallenge {result : WriteResult} {c : SignUpChallenge}
    (h : s.lookupChallenge result = .found c) : s.challenge = some c := by
  unfold AccountStore.lookupChallenge at h
  cases result with
  | done =>
      cases hc : s.challenge with
      | none =>
          rw [hc] at h
          cases h
      | some c' =>
          rw [hc] at h
          cases h
          rfl
  | lost => cases h
  | failed => cases h

/-- A challenge was read, which is noted. -/
theorem later_noteChallenged (s : AccountStore) (req : SignRequest) (lookup : ChallengeLookup)
    (clock : Clock) : Later s (s.noteChallenged req lookup clock) := by
  cases lookup with
  | found c =>
      exact ⟨List.Subset.refl _, List.subset_cons_self _ _, List.Subset.refl _⟩
  | missing => exact later_refl s
  | internalError => exact later_refl s

/-- A challenge that passes was given by the server, and is solved. -/
theorem solved_of_signupChallenge (hs : server.StoreSound uid s) {req : SignRequest}
    {auth : AuthorizationHeader} (huid : auth.uid = uid) {result : WriteResult} {clock : Clock}
    (h : server.signupChallenge req auth (s.lookupChallenge result) clock = .ok ()) :
    server.Solved uid (s.noteChallenged req (s.lookupChallenge result) clock) req := by
  unfold signupChallenge at h
  cases hlookup : s.lookupChallenge result with
  | internalError =>
      rw [hlookup] at h
      cases h
  | missing =>
      rw [hlookup] at h
      cases h
  | found c =>
      rw [hlookup] at h
      simp only at h
      split at h
      · cases h
      rename_i hintime
      split at h
      · rename_i hsolved
        have hmem : c ∈ s.issued := hs.challenge c (found_of_lookupChallenge hlookup)
        rw [huid] at hsolved
        exact ⟨c, clock, List.mem_cons_self, hmem, hs.issued c hmem, UInt64.not_lt.mp hintime,
          hsolved⟩
      · cases h

/-- The call for what a handler does is sound. -/
theorem SoundHandled.calls {h : Handled} (hh : server.SoundHandled uid s.received h)
    {next : AccountWrite → AccountCall}
    (hnext : ∀ w, server.Sound uid s.received w → server.CallSound uid s (next w)) :
    ∀ call ∈ h.calls next, server.CallSound uid s call := by
  intro call hcall
  cases h with
  | error status => cases hcall
  | ok w =>
      rw [List.mem_singleton.mp hcall]
      exact hnext w (hh w rfl)

theorem sound_uploadCalls (upload : Option KeyUpload) :
    ∀ call ∈ uploadCalls upload, server.CallSound uid s call := by
  intro call hcall
  cases upload with
  | none => cases hcall
  | some upload =>
      rw [List.mem_singleton.mp hcall]
      trivial

theorem sound_proceedSignin {req : SignRequest} {h : Handled}
    (hh : server.SoundHandled uid s.received h) :
    ∀ call ∈ proceedSignin uid req h, server.CallSound uid s call := by
  unfold proceedSignin
  cases req.auth with
  | none => simp
  | some auth =>
      simp only
      split
      · exact hh.calls fun w hw => hw
      · simp

theorem sound_proceed {r : Registered} (hr : server.Trusted uid s.received r) (deviceId : UInt32)
    {req : AuthedRequest} (clock : Clock)
    (hreq : ∃ header client clock reads, .request header client req clock reads ∈ s.received) :
    ∀ call ∈ server.proceed r deviceId req clock, server.CallSound uid s call := by
  intro call hcall
  unfold proceed at hcall
  cases hh : server.handle r deviceId clock req with
  | none =>
      simp only [hh] at hcall
      exact sound_uploadCalls _ call hcall
  | some h =>
      simp only [hh] at hcall
      refine (sound_handle hr deviceId clock req hreq hh).calls ?_ call hcall
      exact fun w hw => hw

/-- What is noted of a device that is let in has nothing to do with trust. -/
theorem plain_checkAndUpdateDevice (r : Registered) (deviceId : UInt32)
    (client : Option ClientVersion) (clock : Clock) :
    (checkAndUpdateDevice r deviceId client clock).all plain = true := by
  unfold checkAndUpdateDevice
  cases r.account.getDevice deviceId with
  | none => rfl
  | some device =>
      simp only [List.all_append, Bool.and_eq_true]
      constructor
      · split
        · rfl
        · rfl
      · cases client with
        | none => rfl
        | some client =>
            simp only
            split
            · rfl
            · rfl

theorem sound_admit {r : Registered} (hr : server.Trusted uid s.received r) (deviceId : UInt32)
    (client : Option ClientVersion) {req : AuthedRequest} (clock : Clock)
    (hreq : ∃ header client clock reads, .request header client req clock reads ∈ s.received) :
    ∀ call ∈ server.authedCalls r deviceId client req clock, server.CallSound uid s call := by
  intro call hcall
  unfold authedCalls at hcall
  simp only at hcall
  split at hcall
  · exact sound_proceed hr deviceId clock hreq call hcall
  · rw [List.mem_singleton.mp hcall]
    have hplain := plain_checkAndUpdateDevice r deviceId client clock
    have hsound : server.SoundHandled uid s.received
        (.ok
          { edited := server.edit r (checkAndUpdateDevice r deviceId client clock)
            device := some deviceId }) := sound_plain hr hplain
    have hsound := hsound _ rfl
    exact ⟨⟨hr.own, hsound.credentials.devices, hsound.certificates.devices⟩, hsound, hreq⟩

/-- A sound write into a sound store -/
theorem StoreSound.write (hs : server.StoreSound uid s) (hdao : server.dao.Lawful)
    {w : AccountWrite} (hw : server.Sound uid s.received w) (result : WriteResult) :
    server.StoreSound uid (s.write server.dao w result).2 ∧
      Later s (s.write server.dao w result).2 := by
  unfold AccountStore.write
  cases hrow : s.row with
  | none => exact ⟨hs, later_refl s⟩
  | some r =>
      have hr := hs.row r hrow
      have hlater : Later s { s with
          row := some { r with account := (w.perform server.dao r.account result).2 } } :=
        ⟨List.Subset.refl _, List.Subset.refl _, List.Subset.refl _⟩
      refine ⟨⟨?_, hs.challenge, hs.issued, hs.responses⟩, hlater⟩
      intro r' hr'
      cases hr'
      exact ⟨hw.trusted hdao hr.trusted result, hr.signedUp.mono hlater,
        (hw.identityKey hdao r.account result).trans hr.identityKey⟩

/-- One-time keys are stored or taken, and keys are given away. -/
theorem StoreSound.withKeys (hs : server.StoreSound uid s) (keys : List OnetimeKey)
    {responses : List PreKeyResponse}
    (h : ∀ response ∈ responses, server.Authentic uid s.received response) :
    server.StoreSound uid { s with keys := keys, responses := responses } ∧
      Later s { s with keys := keys, responses := responses } := by
  have hlater : Later s { s with keys := keys, responses := responses } :=
    ⟨List.Subset.refl _, List.Subset.refl _, List.Subset.refl _⟩
  exact ⟨⟨fun r hr => (hs.row r hr).mono hlater, hs.challenge, hs.issued, h⟩, hlater⟩

/-- The next step of a request keeps what is stored sound, and the calls that go on are sound. -/
theorem sound_next {create : Registered → Option Registered → Option Registered}
    (hcreate : ∀ r row, create r row = some r ∨ create r row = row) (hdao : server.dao.Lawful)
    (hs : server.StoreSound uid s) {call : AccountCall} (hcall : server.CallSound uid s call)
    (e : Effect) :
    server.StoreSound uid (server.next create s e call).1 ∧
      Later s (server.next create s e call).1 ∧
      ∀ k ∈ (server.next create s e call).2,
        server.CallSound uid (server.next create s e call).1 k := by
  have hdone : ∀ s', ∀ k ∈ ([] : List AccountCall), server.CallSound uid s' k := by simp
  cases call with
  | getChallenge req auth =>
      unfold next
      have hlater := later_noteChallenged s req (s.lookupChallenge e.result) e.clock
      refine ⟨?_, hlater, ?_⟩
      · refine hs.later hlater ?_ ?_ ?_ ?_ <;> cases s.lookupChallenge e.result <;> rfl
      · cases hchallenge : server.signupChallenge req auth (s.lookupChallenge e.result)
          e.clock with
        | error status =>
            simp only [hchallenge]
            exact hdone _
        | ok u =>
            simp only [hchallenge, List.mem_singleton, forall_eq]
            exact ⟨Asked.mono hcall hlater, solved_of_signupChallenge hs hcall.own hchallenge⟩
  | delChallenge req auth =>
      unfold next
      simp only [List.mem_singleton, forall_eq]
      split
      · exact ⟨hs, later_refl s, hcall⟩
      · have hlater : Later s { s with challenge := none } :=
          ⟨List.Subset.refl _, List.Subset.refl _, List.Subset.refl _⟩
        exact ⟨⟨fun r hr => (hs.row r hr).mono hlater, nofun, hs.issued, hs.responses⟩, hlater,
          hcall.1.mono hlater, hcall.2.mono hlater⟩
  | getAccount req auth =>
      unfold next
      cases hr : server.signupCreate req auth (s.lookup (e.result = .done)) with
      | error status =>
          simp only [hr]
          exact ⟨hs, later_refl s, hdone _⟩
      | ok r =>
          simp only [hr, List.mem_singleton, forall_eq]
          exact ⟨hs, later_refl s, genuine_signupCreate hcall.1 hcall.2 hr⟩
  | create r =>
      unfold next
      simp only
      split
      · exact ⟨hs, later_refl s, hdone _⟩
      · have hlater : Later s { s with row := create r s.row } :=
          ⟨List.Subset.refl _, List.Subset.refl _, List.Subset.refl _⟩
        refine ⟨⟨?_, hs.challenge, hs.issued, hs.responses⟩, hlater, hdone _⟩
        intro r' hr'
        rcases hcreate r s.row with heq | heq
        · rw [heq] at hr'
          cases hr'
          exact Genuine.mono hcall hlater
        · rw [heq] at hr'
          exact (hs.row r' hr').mono hlater
  | seen r w deviceId req clock =>
      obtain ⟨htrusted, hw, header, client, clock', reads, hmem⟩ := hcall
      obtain ⟨hstore, hlater⟩ := hs.write hdao hw e.result
      refine ⟨hstore, hlater, ?_⟩
      unfold next
      simp only
      split
      · exact sound_proceed (htrusted.mono hlater.received) deviceId clock
          ⟨header, client, clock', reads, hlater.received hmem⟩
      · exact hdone _
  | clearKeys deviceId w =>
      unfold next
      simp only [List.mem_singleton, forall_eq]
      split
      · exact ⟨hs, later_refl s, hcall⟩
      · obtain ⟨hstore, hlater⟩ := hs.withKeys (server.keysDao.clear deviceId s.keys) hs.responses
        exact ⟨hstore, hlater, hcall⟩
  | write w upload =>
      obtain ⟨hstore, hlater⟩ := hs.write hdao hcall e.result
      refine ⟨hstore, hlater, ?_⟩
      unfold next
      simp only
      split
      · exact sound_uploadCalls upload
      · exact hdone _
  | setKeys upload =>
      unfold next
      simp only
      split
      · exact ⟨hs, later_refl s, hdone _⟩
      · obtain ⟨hstore, hlater⟩ :=
          hs.withKeys (server.keysDao.set upload.deviceId upload.keys s.keys) hs.responses
        exact ⟨hstore, hlater, hdone _⟩
  | takeKeys target deviceId =>
      let taken := server.keysDao.get deviceId s.keys
      have htaken : ∀ response ∈ (getDeviceKeys server.masterId e.clock.nowInMilli target.account
          deviceId taken.1).toList ++ s.responses,
            server.Authentic uid s.received response := by
        intro response hmem
        rcases List.mem_append.mp hmem with hmem | hmem
        · exact authentic_getDeviceKeys hcall (Option.mem_toList.mp hmem)
        · exact hs.responses response hmem
      unfold next
      cases e.result with
      | failed => exact ⟨hs, later_refl s, hdone _⟩
      | lost =>
          obtain ⟨hstore, hlater⟩ := hs.withKeys taken.2 hs.responses
          exact ⟨hstore, hlater, hdone _⟩
      | done =>
          obtain ⟨hstore, hlater⟩ := hs.withKeys taken.2 htaken
          exact ⟨hstore, hlater, hdone _⟩

/-- What is done at once when a request comes in that was received -/
theorem sound_respond (hs : server.StoreSound uid s) {event : AccountEvent}
    (hevent : event ∈ s.received) :
    server.StoreSound uid (server.respond uid s event).1 ∧
      Later s (server.respond uid s event).1 ∧
      ∀ k ∈ (server.respond uid s event).2,
        server.CallSound uid (server.respond uid s event).1 k := by
  have hdone : ∀ s', ∀ k ∈ ([] : List AccountCall), server.CallSound uid s' k := by simp
  have hread : ∀ reads r, s.lookup reads = .found r → server.Trusted uid s.received r :=
    fun reads r h => (hs.row r (found_of_lookup h)).trusted
  cases event with
  | challenge nonce clock result =>
      unfold respond
      cases hc : server.challenge uid nonce clock with
      | none =>
          simp only [hc]
          exact ⟨hs, later_refl s, hdone _⟩
      | some c =>
          simp only [hc]
          have hdifficulty : c.difficulty = server.difficulty := by
            unfold challenge at hc
            split at hc
            · cases hc
              rfl
            · cases hc
          split
          · exact ⟨hs, later_refl s, hdone _⟩
          · have hlater : Later s { s with challenge := some c, issued := c :: s.issued } :=
              ⟨List.Subset.refl _, List.Subset.refl _, List.subset_cons_self _ _⟩
            refine ⟨⟨fun r hr => (hs.row r hr).mono hlater, ?_, ?_, hs.responses⟩, hlater,
              hdone _⟩
            · intro c' hc'
              cases hc'
              exact List.mem_cons_self
            · rw [List.forall_mem_cons]
              exact ⟨hdifficulty, hs.issued⟩
  | signup req =>
      unfold respond
      cases hauth : server.signup req with
      | error status =>
          simp only [hauth]
          exact ⟨hs, later_refl s, hdone _⟩
      | ok auth =>
          simp only [hauth]
          refine ⟨hs, later_refl s, ?_⟩
          split
          swap
          · exact hdone _
          rename_i huid
          simp only [List.mem_singleton, forall_eq]
          unfold signup at hauth
          split at hauth
          · cases hauth
          cases hheader : req.auth with
          | none =>
              rw [hheader] at hauth
              cases hauth
          | some header =>
              rw [hheader] at hauth
              simp only at hauth
              split at hauth
              · rename_i hcheck
                cases hauth
                rw [huid] at hcheck
                exact ⟨hevent, hheader, huid, hcheck⟩
              · cases hauth
  | signin req reads =>
      exact ⟨hs, later_refl s,
        sound_proceedSignin (sound_signin (Or.inr ⟨reads, Or.inl hevent⟩) (hread reads))⟩
  | signinDevice req reads =>
      exact ⟨hs, later_refl s,
        sound_proceedSignin (sound_signinDevice (Or.inr ⟨reads, Or.inr hevent⟩) (hread reads))⟩
  | destroy sign reads =>
      exact ⟨hs, later_refl s, (sound_destroy (hread reads)).calls fun w hw => hw⟩
  | request header client req clock reads =>
      unfold respond
      simp only
      split
      · cases hlookup : s.lookup reads with
        | found r =>
            have hlater : Later s { s with
                admitted := (UInt32.ofInt header.deviceId, req) :: s.admitted } :=
              ⟨List.Subset.refl _, List.Subset.refl _, List.Subset.refl _⟩
            have hcalls := sound_admit (hread reads r hlookup) (UInt32.ofInt header.deviceId) client
              clock ⟨header, client, clock, reads, hevent⟩
            exact ⟨hs.later hlater rfl rfl rfl rfl, hlater,
              fun call hcall => (hcalls call hcall).mono hlater⟩
        | noSuchData => exact ⟨hs, later_refl s, hdone _⟩
        | failed => exact ⟨hs, later_refl s, hdone _⟩
      · exact ⟨hs, later_refl s, hdone _⟩
  | getDeviceKeys targetDeviceIdSelector clock reads =>
      unfold respond
      cases hlookup : s.lookup reads with
      | noSuchData =>
          simp only [hlookup]
          exact ⟨hs, later_refl s, hdone _⟩
      | failed =>
          simp only [hlookup]
          exact ⟨hs, later_refl s, hdone _⟩
      | found target =>
          simp only [hlookup]
          refine ⟨hs, later_refl s, ?_⟩
          split
          · rename_i deviceId _
            simp only [List.mem_singleton, forall_eq]
            exact hs.row target (found_of_lookup hlookup)
          · exact hdone _

/-- A request comes in. -/
theorem sound_receive (hs : server.StoreSound uid s) (event : AccountEvent) :
    server.StoreSound uid (server.receive uid s event).1 ∧
      Later s (server.receive uid s event).1 ∧
      ∀ k ∈ (server.receive uid s event).2,
        server.CallSound uid (server.receive uid s event).1 k := by
  have hlater : Later s { s with received := event :: s.received } :=
    ⟨List.subset_cons_self _ _, List.Subset.refl _, List.Subset.refl _⟩
  have hevent : event ∈ event :: s.received := List.mem_cons_self
  obtain ⟨hstore, hlater', hcalls⟩ := sound_respond (hs.later hlater rfl rfl rfl rfl) hevent
  exact ⟨hstore, hlater.trans hlater', hcalls⟩

/-- The next step of a request -/
theorem inv_call {create : Registered → Option Registered → Option Registered}
    (hcreate : ∀ r row, create r row = some r ∨ create r row = row) (hdao : server.dao.Lawful)
    {p q : Pool AccountStore AccountCall} {call : AccountCall} {rest ks : List AccountCall}
    {e : Effect} (hp : server.Inv uid p) (hperm : p.calls.Perm (call :: rest))
    (hnext : (server.system create uid).next p.shared call e = some (s, ks))
    (hshared : q.shared = s) (hcalls : q.calls.Perm (ks ++ rest)) : server.Inv uid q := by
  obtain ⟨rfl, rfl⟩ := Prod.ext_iff.mp (Option.some.inj hnext)
  have hmem : call ∈ p.calls := hperm.mem_iff.mpr List.mem_cons_self
  obtain ⟨hstore, hlater, hks⟩ := sound_next hcreate hdao hp.store (hp.calls call hmem) e
  rw [← hshared] at hstore hlater hks
  refine ⟨hstore, fun k hk => ?_⟩
  rcases List.mem_append.mp (hcalls.mem_iff.mp hk) with hk | hk
  · exact hks k hk
  · exact (hp.calls k (hperm.mem_iff.mpr (List.mem_cons_of_mem call hk))).mono hlater

/-- A request comes in. -/
theorem inv_env {create : Registered → Option Registered → Option Registered}
    {p : Pool AccountStore AccountCall} {event : AccountEvent} {ks : List AccountCall}
    (hp : server.Inv uid p) (henv : (server.system create uid).env p event = some (s, ks)) :
    server.Inv uid ⟨s, p.calls ++ ks⟩ := by
  obtain ⟨rfl, rfl⟩ := Prod.ext_iff.mp (Option.some.inj henv)
  obtain ⟨hstore, hlater, hks⟩ := sound_receive hp.store event
  refine ⟨hstore, fun k hk => ?_⟩
  rcases List.mem_append.mp hk with hk | hk
  · exact (hp.calls k hk).mono hlater
  · exact hks k hk

/-- Everything holds in every state. -/
theorem inv_of_run {create : Registered → Option Registered → Option Registered}
    (hcreate : ∀ r row, create r row = some r ∨ create r row = row) (hdao : server.dao.Lawful)
    {p q : Pool AccountStore AccountCall} {schedule : List (Sched Effect AccountEvent)}
    (hp : server.Inv uid p)
    (hrun : (server.system create uid).machine.run p schedule = some q) : server.Inv uid q := by
  refine (server.system create uid).reachable_invariant (server.Inv uid) ?_ ?_ hp hrun
  · intro p q call rest e s ks hp hperm hnext hshared hcalls
    exact inv_call hcreate hdao hp hperm hnext hshared hcalls
  · intro p event s ks hp henv
    exact inv_env hp henv

theorem inv_start : server.Inv uid start := by
  refine ⟨⟨?_, ?_, ?_, ?_⟩, ?_⟩
  · intro r hr
    simp [start] at hr
  · intro c hc
    simp [start] at hc
  · intro c hc
    simp [start] at hc
  · intro response hmem
    simp [start] at hmem
  · intro call hcall
    simp [start] at hcall

/-! ## Who is let in -/

/-- A device that is let in has the digest of a token that was vouched for. -/
theorem vouched_of_auth {r : Registered} (hr : server.Trusted uid log r)
    (hsha : ∀ s, (server.lib.ext.sha1 s).length = 20) {m : Authenticator}
    {header : AuthorizationHeader} {client : Option ClientVersion} {type : AuthType}
    (hget : m.accounts.get header.uid = .found (r.seen uid)) (htype : type ≠ .noAuth)
    (h : (m.auth server.lib.ext header client type).1 = .success) :
    ∃ token salt, server.Vouched uid log (UInt32.ofInt header.deviceId) token ∧
      server.lib.ext.sha1 (salt ++ header.token) = server.lib.ext.sha1 (salt ++ token) := by
  obtain hno | ⟨-, account, device, hfound, -, hdevice, -, hverify, -⟩ :=
    (Authenticator.auth_success server.lib.ext m header client type).mp h
  · exact absurd hno htype
  rw [hget] at hfound
  cases hfound
  -- the device is one that is stored
  have hmem : device ∈ (r.seen uid).devices := List.mem_of_find?_eq_some hdevice
  have hid : device.id = UInt32.ofInt header.deviceId := by
    simpa using List.find?_some hdevice
  obtain ⟨d, hd, rfl⟩ := List.mem_map.mp hmem
  have hdigest : ∀ s, Crypto.HexEncoder.encode (server.lib.ext.sha1 s) true [] ≠ [] := by
    intro s hs
    have hempty : server.lib.ext.sha1 s = [] := Crypto.HexEncoder.encode_inj hs
    have hlength := hsha s
    rw [hempty] at hlength
    cases hlength
  let salt : Bytes := d.values .salt
  let authtoken : Bytes := d.values .authToken
  have hverify : Crypto.HexEncoder.encode (server.lib.ext.sha1 (salt ++ header.token)) true [] =
      authtoken := eq_of_beq hverify
  rcases hr.credentials d hd with hempty | ⟨token, hvouched, htoken⟩
  · exact absurd (hverify.trans hempty) (hdigest _)
  · have hkey : d.id = UInt32.ofInt header.deviceId := hid
    exact ⟨token, salt, hkey ▸ hvouched, Crypto.HexEncoder.encode_inj (hverify.trans htoken)⟩

/-- In every order in which requests come in and take their steps: a device that is let in has the
digest of a token that the key of the account, or a key it has certified for the number of the
device, has signed. -/
theorem tokens_trusted (server : AccountServer F K) (uid : Bytes)
    (create : Registered → Option Registered → Option Registered)
    (hcreate : ∀ r row, create r row = some r ∨ create r row = row) (hdao : server.dao.Lawful)
    (hsha : ∀ s, (server.lib.ext.sha1 s).length = 20)
    {schedule : List (Sched Effect AccountEvent)} {p : Pool AccountStore AccountCall}
    (hrun : (server.system create uid).machine.run start schedule = some p)
    {r : Registered} (hr : p.shared.row = some r) {m : Authenticator}
    {header : AuthorizationHeader} {client : Option ClientVersion} {type : AuthType}
    (hget : m.accounts.get header.uid = .found (r.seen uid)) (htype : type ≠ .noAuth)
    (h : (m.auth server.lib.ext header client type).1 = .success) :
    ∃ token salt, server.Vouched uid p.shared.received (UInt32.ofInt header.deviceId) token ∧
      server.lib.ext.sha1 (salt ++ header.token) = server.lib.ext.sha1 (salt ++ token) :=
  vouched_of_auth ((inv_of_run hcreate hdao inv_start hrun).store.row r hr).trusted hsha hget htype h

/-- Digests are prefixes. -/
def plainServer : AccountServer (List (Bytes × Bytes)) Bytes where
  lib := .plain (Http.External.ofList (fun s => (s ++ List.replicate 20 0).take 20)
    Crypto.Base64.readDigits)
  base64Encode := Util.Base64.encode
  dao := .copying
  keysDao := .sorted
  difficulty := 1

/-- The account is kept that was stored first. -/
def keepFirst (r : Registered) (row : Option Registered) : Option Registered :=
  row.or (some r)

theorem keepFirst_cases (r : Registered) (row : Option Registered) :
    keepFirst r row = some r ∨ keepFirst r row = row := by
  cases row with
  | none => exact Or.inl rfl
  | some r' => exact Or.inr rfl

/-- The text of the key 5, 1, 2, whose uid is 1, 2 -/
def plainKey : Bytes := ascii "BQEC".toList

def plainHeader : AuthorizationHeader := { uid := [1, 2], token := [7], deviceId := 1 }

/-- The token 7 with a signature of the key -/
def plainRequest : SignRequest where
  auth := some plainHeader
  attr :=
    { sign := ascii "BQECBw==".toList
      attributes := { publicKey := plainKey, fetchesMessages := true } }
  clock := { nowInMilli := 0, todayInMilli := 0 }

/-- A challenge is given, and the request to sign up takes its steps. -/
def signsUp : List (Sched Effect AccountEvent) :=
  [.env (.challenge 9 { nowInMilli := 0, todayInMilli := 0 } .done), .env (.signup plainRequest),
    .call 0 {}, .call 0 {}, .call 0 {}, .call 0 {}]

private def plainAuthenticator (r : Registered) : Authenticator :=
  authenticator [1, 2] (.found r) { nowInMilli := 0, todayInMilli := 0 }

theorem tokens_trusted_signup : ∃ p r,
    (plainServer.system keepFirst [1, 2]).machine.run start signsUp = some p ∧
      p.shared.row = some r ∧
      ((plainAuthenticator r).auth plainServer.lib.ext plainHeader none .allowAll).1 = .success ∧
      ∃ token salt, plainServer.Vouched [1, 2] p.shared.received 1 token ∧
        plainServer.lib.ext.sha1 (salt ++ [7]) = plainServer.lib.ext.sha1 (salt ++ token) := by
  have hresult : (((plainServer.system keepFirst [1, 2]).machine.run start signsUp).map fun p =>
      p.shared.row.map fun r =>
        ((plainAuthenticator r).auth plainServer.lib.ext plainHeader none .allowAll).1) =
          some (some .success) := by decide +kernel
  obtain ⟨p, hp, hrow⟩ := Option.map_eq_some_iff.mp hresult
  obtain ⟨r, hr, hauth⟩ := Option.map_eq_some_iff.mp hrow
  have hsha : ∀ s, (plainServer.lib.ext.sha1 s).length = 20 := by
    intro s
    show ((s ++ List.replicate 20 0).take 20).length = 20
    simp
  exact ⟨p, r, hp, hr, hauth, tokens_trusted plainServer [1, 2] keepFirst keepFirst_cases
    AccountsDao.lawful_copying hsha hp hr rfl (by decide) hauth⟩

/-! ## Where an account comes from -/

/-- In every order of requests and their steps: an account that is stored was signed up for by a
request that came in, with a key whose hash is the uid and a token that the key has signed, after
a challenge of the server was answered in time and solved. -/
theorem signup_challenged (server : AccountServer F K) (uid : Bytes)
    (create : Registered → Option Registered → Option Registered)
    (hcreate : ∀ r row, create r row = some r ∨ create r row = row) (hdao : server.dao.Lawful)
    {schedule : List (Sched Effect AccountEvent)} {p : Pool AccountStore AccountCall}
    (hrun : (server.system create uid).machine.run start schedule = some p)
    {r : Registered} (hr : p.shared.row = some r) : server.SignedUp uid p.shared r.publickey :=
  ((inv_of_run hcreate hdao inv_start hrun).store.row r hr).signedUp

theorem signup_challenged_once : ∃ p r,
    (plainServer.system keepFirst [1, 2]).machine.run start signsUp = some p ∧
      p.shared.row = some r ∧ plainServer.SignedUp [1, 2] p.shared r.publickey := by
  have hstored : (((plainServer.system keepFirst [1, 2]).machine.run start signsUp).map fun p =>
      p.shared.row.isSome) = some true := by decide +kernel
  obtain ⟨p, hp, hrow⟩ := Option.map_eq_some_iff.mp hstored
  obtain ⟨r, hr⟩ := Option.isSome_iff_exists.mp hrow
  exact ⟨p, r, hp, hr, signup_challenged plainServer [1, 2] keepFirst keepFirst_cases
    AccountsDao.lawful_copying hp hr⟩

/-! ## Deleted accounts -/

/-- An account is created where none is stored. -/
def NoneStored (p : Pool AccountStore AccountCall) (call : AccountCall) (_ : Effect) : Prop :=
  match call with
  | .create _ => p.shared.row.isNone
  | _ => True

instance : ∀ (p : Pool AccountStore AccountCall) (call : AccountCall) (e : Effect),
    Decidable (NoneStored p call e)
  | p, .create _, _ => inferInstanceAs (Decidable (p.shared.row.isNone = true))
  | _, .getChallenge _ _, _ => .isTrue trivial
  | _, .delChallenge _ _, _ => .isTrue trivial
  | _, .getAccount _ _, _ => .isTrue trivial
  | _, .seen _ _ _ _ _, _ => .isTrue trivial
  | _, .clearKeys _ _, _ => .isTrue trivial
  | _, .write _ _, _ => .isTrue trivial
  | _, .setKeys _, _ => .isTrue trivial
  | _, .takeKeys _ _, _ => .isTrue trivial

/-- A deleted account is stored. -/
def Deleted (s : AccountStore) : Prop := ∃ r, s.row = some r ∧ r.state = .deleted

theorem Deleted.write (hdeleted : Deleted s) (hdao : server.dao.Lawful) {w : AccountWrite}
    (hw : server.Sound uid log w) (result : WriteResult) :
    Deleted (s.write server.dao w result).2 := by
  obtain ⟨r, hr, hstate⟩ := hdeleted
  unfold AccountStore.write
  rw [hr]
  exact ⟨_, rfl, hw.deleted hdao hstate result⟩

/-- A step that creates no account over it leaves the account deleted. -/
theorem deleted_next {create : Registered → Option Registered → Option Registered}
    (hdao : server.dao.Lawful) {p : Pool AccountStore AccountCall} (hp : server.Inv uid p)
    (hdeleted : Deleted p.shared) {call : AccountCall} (hcall : call ∈ p.calls) {e : Effect}
    (hnone : NoneStored p call e) : Deleted (server.next create p.shared e call).1 := by
  have hsound := hp.calls call hcall
  cases call with
  | getChallenge req auth =>
      obtain ⟨r, hr, hstate⟩ := hdeleted
      refine ⟨r, ?_, hstate⟩
      unfold next
      cases p.shared.lookupChallenge e.result <;> exact hr
  | delChallenge req auth =>
      unfold next
      simp only
      split
      · exact hdeleted
      · exact hdeleted
  | getAccount req auth =>
      unfold next
      cases hr : server.signupCreate req auth (p.shared.lookup (e.result = .done)) with
      | error status =>
          simp only [hr]
          exact hdeleted
      | ok r =>
          simp only [hr]
          exact hdeleted
  | create r =>
      obtain ⟨r', hr', -⟩ := hdeleted
      have hempty : p.shared.row.isNone = true := hnone
      rw [hr'] at hempty
      cases hempty
  | seen r w deviceId req clock => exact hdeleted.write hdao hsound.2.1 e.result
  | clearKeys deviceId w =>
      unfold next
      simp only
      split
      · exact hdeleted
      · exact hdeleted
  | write w upload => exact hdeleted.write hdao hsound e.result
  | setKeys upload =>
      unfold next
      simp only
      split
      · exact hdeleted
      · exact hdeleted
  | takeKeys target deviceId =>
      unfold next
      cases e.result with
      | done => exact hdeleted
      | lost => exact hdeleted
      | failed => exact hdeleted

theorem row_receive (event : AccountEvent) : (server.receive uid s event).1.row = s.row := by
  unfold receive respond
  cases event with
  | challenge nonce clock result =>
      simp only
      split
      · rfl
      · split
        · rfl
        · rfl
  | signup req =>
      simp only
      split
      · rfl
      · rfl
  | signin req reads => rfl
  | signinDevice req reads => rfl
  | destroy sign reads => rfl
  | request header client req clock reads =>
      simp only
      split
      · split
        · rfl
        · rfl
      · rfl
  | getDeviceKeys targetDeviceIdSelector clock reads =>
      simp only
      split
      · rfl
      · rfl

/-- Nobody is let in, or signs in, to a deleted account. -/
structure Closed (server : AccountServer F K) (uid : Bytes) (r : Registered) : Prop where
  auth : ∀ (m : Authenticator) (header : AuthorizationHeader) (client : Option ClientVersion)
    (type : AuthType), m.accounts.get header.uid = .found (r.seen uid) → type ≠ .noAuth →
      (m.auth server.lib.ext header client type).1 ≠ .success
  signin : ∀ req : SignRequest, req.auth.isSome →
    (∀ w, server.signin (.found r) req ≠ .ok w) ∧ ∀ w, server.signinDevice (.found r) req ≠ .ok w
  signup : ∀ (req : SignRequest) (auth : AuthorizationHeader),
    server.signupCreate req auth (.found r) = .error .conflict

theorem closed_of_deleted {r : Registered} (h : r.state = .deleted) : server.Closed uid r where
  auth m header client type hget htype hsuccess := by
    obtain hno | ⟨-, account, device, hfound, hstate, -⟩ :=
      (Authenticator.auth_success server.lib.ext m header client type).mp hsuccess
    · exact htype hno
    · rw [hget] at hfound
      cases hfound
      exact hstate h
  signin req hauth := by
    obtain ⟨auth, hauth⟩ := Option.isSome_iff_exists.mp hauth
    constructor
    · intro w hw
      simp [AccountServer.signin, hauth, h] at hw
    · intro w hw
      simp [AccountServer.signinDevice, hauth, h] at hw
  signup req auth := rfl

/-- From a state in which the account is deleted, in every order of requests and their steps in
which no account is created over it: the account stays deleted, nobody is let in and nobody signs
in or up. -/
theorem deleted_for_good (server : AccountServer F K) (uid : Bytes)
    (create : Registered → Option Registered → Option Registered)
    (hcreate : ∀ r row, create r row = some r ∨ create r row = row) (hdao : server.dao.Lawful)
    {before after : List (Sched Effect AccountEvent)} {p q : Pool AccountStore AccountCall}
    (hbefore : (server.system create uid).machine.run start before = some p)
    (hdeleted : Deleted p.shared)
    (hafter : (server.system create uid).machine.run p after = some q)
    (hnone : (server.system create uid).machine.Meets
      (CallSystem.allow NoneStored fun _ _ => True) p after) :
    ∃ r, q.shared.row = some r ∧ r.state = .deleted ∧ server.Closed uid r := by
  have hp : server.Inv uid p := inv_of_run hcreate hdao inv_start hbefore
  have hq : server.Inv uid q ∧ Deleted q.shared := by
    refine (server.system create uid).run_invariant
      (fun p => server.Inv uid p ∧ Deleted p.shared) ?_ ?_ ⟨hp, hdeleted⟩ hnone hafter
    · intro p q call rest e s ks ⟨hinv, hdel⟩ hperm hcond hnext hshared hcalls
      refine ⟨inv_call hcreate hdao hinv hperm hnext hshared hcalls, ?_⟩
      have hmem : call ∈ p.calls := hperm.mem_iff.mpr List.mem_cons_self
      obtain ⟨rfl, rfl⟩ := Prod.ext_iff.mp (Option.some.inj hnext)
      rw [hshared]
      exact deleted_next hdao hinv hdel hmem hcond
    · intro p event s ks ⟨hinv, ⟨r, hr, hstate⟩⟩ _ henv
      refine ⟨inv_env hinv henv, r, ?_, hstate⟩
      obtain ⟨rfl, rfl⟩ := Prod.ext_iff.mp (Option.some.inj henv)
      rw [row_receive]
      exact hr
  obtain ⟨r, hr, hstate⟩ := hq.2
  exact ⟨r, hr, hstate, closed_of_deleted hstate⟩

/-- The account is destroyed after somebody has signed up. -/
private def signsUpAndDestroys : List (Sched Effect AccountEvent) :=
  signsUp ++ [.env (.destroy (ascii "BQECAQI=".toList) true), .call 0 {}]

/-- To sign in, and to give the account a name -/
private def triesAgain : List (Sched Effect AccountEvent) :=
  [.env (.signin plainRequest true), .env (.request plainHeader none (.setName [1])
    { nowInMilli := 0, todayInMilli := 0 } true)]

theorem deleted_for_good_tries : ∃ p q r,
    (plainServer.system keepFirst [1, 2]).machine.run start signsUpAndDestroys = some p ∧
      (plainServer.system keepFirst [1, 2]).machine.run p triesAgain = some q ∧
      q.shared.row = some r ∧ r.state = .deleted ∧ plainServer.Closed [1, 2] r := by
  let system := (plainServer.system keepFirst [1, 2]).machine
  have hresult : ((system.run start signsUpAndDestroys).map fun p =>
      (p.shared.row.map Registered.state, (system.run p triesAgain).isSome,
        decide (system.Meets (CallSystem.allow NoneStored fun _ _ => True) p triesAgain))) =
      some (some .deleted, true, true) := by decide +kernel
  obtain ⟨p, hp, hrest⟩ := Option.map_eq_some_iff.mp hresult
  simp only [Prod.mk.injEq] at hrest
  obtain ⟨hrow, hsome, hmeets⟩ := hrest
  obtain ⟨r, hr, hstate⟩ := Option.map_eq_some_iff.mp hrow
  obtain ⟨q, hq⟩ := Option.isSome_iff_exists.mp hsome
  have hmeets : system.Meets (CallSystem.allow NoneStored fun _ _ => True) p triesAgain :=
    of_decide_eq_true hmeets
  obtain ⟨r', hr', hdeleted, hclosed⟩ := deleted_for_good plainServer [1, 2] keepFirst
    keepFirst_cases AccountsDao.lawful_copying hp ⟨r, hr, hstate⟩ hq hmeets
  exact ⟨p, q, r', hp, hq, hr', hdeleted, hclosed⟩

end AccountServer

end BcmServer.Controllers
