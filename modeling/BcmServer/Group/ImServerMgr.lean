import BcmServer.Group.OnlineMembers
import BcmServer.Util.CircleChanges
import BcmServer.Util.Text

/-!
# BcmServer.Group.ImServerMgr — which server handles a group

Every IM server subscribes to a channel of its own for each of its addresses, and
asks redis for the channels there are. It places the addresses on a circle, and the
server that the circle gives for the id of a group handles the group. A server takes
an address for its own if one of its channels *contains* it.

* `run_updated`: the circle is always that of the server list.
* `handledByOne_iff`: a group is handled by one server just if the address that the
  circle gives is contained in the channels of one server at most.
* `infix_registerKey_iff`: an address is contained in the channel of another if its ip
  ends the other ip and its port begins the other port.
-/

namespace BcmServer.Group

open BcmServer.Util

/-- The part of `ServiceConfig` that is registered -/
structure ServiceConfig where
  ips : List Bytes
  port : ℤ
deriving DecidableEq, Repr

/-- `kChannelPrefix` -/
def kChannelPrefix : Bytes := ascii ['i', 'm', 's', 'e', 'r', 'v', 'e', 'r', '_']

/-- The address of a service -/
def ServiceConfig.address (ip : Bytes) (port : ℤ) : Bytes := ip ++ colon :: intDecimal port

/-- `IMServiceRegister::getRegisterKeys` -/
def ServiceConfig.registerKeys (service : ServiceConfig) : List Bytes :=
  service.ips.map fun ip => kChannelPrefix ++ ServiceConfig.address ip service.port

/-- The bytes of a `uint64_t` in memory -/
def gidBytes (gid : Gid) : Bytes :=
  (List.range 8).map fun i => UInt8.ofNat (gid.toNat / 2 ^ (8 * i))

/-- The answer to `PUBSUB CHANNELS imserver_*` -/
inductive ChannelsReply where
  /-- no answer, an error or a reply that is no array -/
  | failed
  | channels (serverDescList : List Bytes)
deriving DecidableEq, Repr

/-- `ImServerMgr` -/
structure ImServerMgr where
  imsvrs : List Bytes := []
  consistentHash : HashCircle := []
  regKeys : List Bytes := []

namespace ImServerMgr

/-- `ImServerMgr::addRegKey` -/
def addRegKey (m : ImServerMgr) (key : Bytes) : ImServerMgr :=
  if key ∈ m.regKeys then m else { m with regKeys := m.regKeys ++ [key] }

/-- The loop of `updateImServerList` -/
def addChannel (m : ImServerMgr) (ipPortEnt : Bytes) : ImServerMgr :=
  match ipPortEnt.splitOn '_'.toUInt8 with
  | _ :: ipport :: _ =>
      if ipport ∈ m.imsvrs then m
      else { m with
        imsvrs := m.imsvrs ++ [ipport]
        consistentHash := m.consistentHash.addServer ipport }
  | _ => m

/-- `ImServerMgr::updateImServerList` -/
def updateImServerList (m : ImServerMgr) : ChannelsReply → ImServerMgr
  | .failed => m
  | .channels [] => m
  | .channels serverDescList =>
      serverDescList.foldl addChannel { m with imsvrs := [], consistentHash := [] }

/-- `ImServerMgr::getServerByGroup` -/
def getServerByGroup (m : ImServerMgr) (gid : Gid) : Bytes :=
  m.consistentHash.getServer (gidBytes gid)

/-- `ImServerMgr::isSelf`: a key in which the address is found -/
def isSelf (m : ImServerMgr) (addr : Bytes) : Bool := m.regKeys.any fun key => addr <:+: key

/-- `ImServerMgr::shouldHandleGroup` -/
def shouldHandleGroup (m : ImServerMgr) (gid : Gid) : Bool :=
  let addr := m.getServerByGroup gid
  if addr.isEmpty then false else m.isSelf addr

/-! ## The server list -/

/-- What happens to a manager -/
inductive Event where
  | addRegKey (key : Bytes)
  | updateImServerList (reply : ChannelsReply)
deriving DecidableEq, Repr

def step (m : ImServerMgr) : Event → ImServerMgr
  | .addRegKey key => m.addRegKey key
  | .updateImServerList reply => m.updateImServerList reply

/-- A manager after the events -/
def run (events : List Event) : ImServerMgr := events.foldl step {}

/-- The circle is that of the list. -/
def Updated (m : ImServerMgr) : Prop := m.consistentHash = HashCircle.ofServers m.imsvrs

variable {m : ImServerMgr}

theorem Updated.addChannel (h : m.Updated) (ipPortEnt : Bytes) :
    (m.addChannel ipPortEnt).Updated := by
  unfold ImServerMgr.addChannel
  split
  · next ipport _ _ =>
    split
    · exact h
    · have hc : m.consistentHash = HashCircle.ofServers m.imsvrs := h
      simp only [Updated, HashCircle.ofServers_concat, hc]
  · exact h

theorem Updated.step (h : m.Updated) (event : Event) : (m.step event).Updated := by
  cases event with
  | addRegKey key =>
      simp only [ImServerMgr.step, addRegKey]
      split
      · exact h
      · exact h
  | updateImServerList reply =>
      simp only [ImServerMgr.step, updateImServerList]
      split
      · exact h
      · exact h
      · next serverDescList _ =>
        have hfold : ∀ (l : List Bytes) (m : ImServerMgr), m.Updated →
            (l.foldl ImServerMgr.addChannel m).Updated := by
          intro l
          induction l with
          | nil => exact fun _ hm => hm
          | cons e l ih => exact fun m hm => ih _ (hm.addChannel e)
        exact hfold _ _ rfl

theorem run_updated (events : List Event) : (run events).Updated := by
  have hfold : ∀ m : ImServerMgr, m.Updated → (events.foldl ImServerMgr.step m).Updated := by
    induction events with
    | nil => exact fun _ hm => hm
    | cons event events ih => exact fun m hm => ih _ (hm.step event)
  exact hfold _ rfl

/-- The order in which redis lists the channels does not matter, unless points collide. -/
theorem consistentHash_eq_of_perm {m' : ImServerMgr} (h : m.Updated) (h' : m'.Updated)
    (hsep : HashCircle.Separate {n | n ∈ m.imsvrs}) (hperm : m'.imsvrs.Perm m.imsvrs) :
    m'.consistentHash = m.consistentHash := by
  have hsame : {n | n ∈ m'.imsvrs} = {n | n ∈ m.imsvrs} := Set.ext fun n => hperm.mem_iff
  have hm' := HashCircle.holds_ofServers (hsame ▸ hsep)
  rw [hsame] at hm'
  rw [h, h']
  exact hm'.unique (HashCircle.holds_ofServers hsep)

/-! ## Who handles a group -/

theorem shouldHandleGroup_iff {gid : Gid} : m.shouldHandleGroup gid ↔
    m.getServerByGroup gid ≠ [] ∧ ∃ key ∈ m.regKeys, m.getServerByGroup gid <:+: key := by
  by_cases hempty : m.getServerByGroup gid = []
  · simp [shouldHandleGroup, hempty]
  · simp [shouldHandleGroup, isSelf, hempty]

section Cluster

variable {ι : Type} (servers : ι → ImServerMgr) (gid : Gid)

/-- The server whose address the circle gives: it has subscribed to the channel of the address. -/
def IsNamed (i : ι) : Prop :=
  (servers i).getServerByGroup gid ≠ [] ∧
    kChannelPrefix ++ (servers i).getServerByGroup gid ∈ (servers i).regKeys

/-- At most one server handles the group, and the one whose address the circle gives is it. -/
def HandledByOne : Prop :=
  (∀ i j, (servers i).shouldHandleGroup gid → (servers j).shouldHandleGroup gid → i = j) ∧
    ∀ i, IsNamed servers gid i → ∀ j, (servers j).shouldHandleGroup gid ↔ j = i

variable {servers} {gid}

/-- The named server always takes the group. -/
theorem IsNamed.shouldHandleGroup {i : ι} (h : IsNamed servers gid i) :
    (servers i).shouldHandleGroup gid :=
  shouldHandleGroup_iff.mpr ⟨h.1, _, h.2, (List.suffix_append _ _).isInfix⟩

/-- So it is enough that no two servers do. -/
theorem handledByOne_iff_unique : HandledByOne servers gid ↔
    ∀ i j, (servers i).shouldHandleGroup gid → (servers j).shouldHandleGroup gid → i = j := by
  refine ⟨And.left, fun h => ⟨h, fun i hi j => ⟨fun hj => h j i hj hi.shouldHandleGroup, ?_⟩⟩⟩
  rintro rfl
  exact hi.shouldHandleGroup

/-- All servers have the same circle. The group is handled by one server if and only if there are
no two with channels that contain the address which the circle gives. -/
theorem handledByOne_iff (servers : ι → ImServerMgr)
    (hsame : ∀ i j, (servers i).consistentHash = (servers j).consistentHash) (gid : Gid) :
    HandledByOne servers gid ↔
      ∀ i j, i ≠ j → (servers i).getServerByGroup gid ≠ [] →
        ∀ key ∈ (servers i).regKeys, ∀ key' ∈ (servers j).regKeys,
          ¬ ((servers i).getServerByGroup gid <:+: key ∧
            (servers i).getServerByGroup gid <:+: key') := by
  have haddr : ∀ i j, (servers j).getServerByGroup gid = (servers i).getServerByGroup gid :=
    fun i j => congrArg (HashCircle.getServer · (gidBytes gid)) (hsame j i)
  rw [handledByOne_iff_unique]
  constructor
  · intro h i j hne haddr' key hkey key' hkey' hfound
    -- both servers find the address in a key of theirs
    refine hne (h i j ?_ ?_)
    · exact shouldHandleGroup_iff.mpr ⟨haddr', key, hkey, hfound.1⟩
    · rw [shouldHandleGroup_iff, haddr i j]
      exact ⟨haddr', key', hkey', hfound.2⟩
  · intro h i j hi hj
    obtain ⟨hne, key, hkey, hfound⟩ := shouldHandleGroup_iff.mp hi
    obtain ⟨-, key', hkey', hfound'⟩ := shouldHandleGroup_iff.mp hj
    rw [haddr i j] at hfound'
    by_contra hij
    exact h i j hij hne key hkey key' hkey' ⟨hfound, hfound'⟩

end Cluster

/-! ## Addresses that contain one another -/

/-- An address is contained in the channel of another one just if its ip ends the other ip and the
digits of its port begin the other port. -/
theorem infix_registerKey_iff {ip ip' : Bytes} {port port' : ℤ} (hip : '_'.toUInt8 ∉ ip)
    (hip' : colon ∉ ip') :
    ServiceConfig.address ip port <:+: kChannelPrefix ++ ServiceConfig.address ip' port' ↔
      ip <:+ ip' ∧ intDecimal port <+: intDecimal port' := by
  have hport : colon ∉ intDecimal port' := notMem_intDecimal (by decide) (by decide) port'
  constructor
  · rintro ⟨s, t, h⟩
    have hsplit : (s ++ ip) ++ colon :: (intDecimal port ++ t) =
        (kChannelPrefix ++ ip') ++ colon :: intDecimal port' := by
      simpa [ServiceConfig.address] using h
    -- the channel has one colon, so the colons are the same
    have hcount : (s ++ ip).count colon = 0 ∧ (intDecimal port ++ t).count colon = 0 := by
      have hcolons := congrArg (List.count colon) hsplit
      have hprefix : kChannelPrefix.count colon = 0 := by decide
      have hip0 : ip'.count colon = 0 := List.count_eq_zero.mpr hip'
      have hport0 : (intDecimal port').count colon = 0 := List.count_eq_zero.mpr hport
      simp only [List.count_append, List.count_cons_self] at hcolons ⊢
      omega
    obtain ⟨hleft, hright⟩ := append_separator_inj (List.count_eq_zero.mp hcount.2) hport hsplit
    refine ⟨?_, t, hright⟩
    rcases List.append_eq_append_iff.mp hleft with ⟨c, hc, hip''⟩ | ⟨c, hc, hip''⟩
    · -- the ip does not reach into the prefix, which ends with an underscore
      rcases List.eq_nil_or_concat c with rfl | ⟨c', x, rfl⟩
      · exact ⟨[], by simpa using hip''⟩
      · rw [List.concat_eq_append, ← List.append_assoc] at hc
        have hlast : x = '_'.toUInt8 := by
          have hends := congrArg List.getLast? hc
          rw [List.getLast?_concat] at hends
          exact (Option.some.inj hends).symm
        exact absurd (hip'' ▸ List.mem_append_left ip' (by simp [hlast])) hip
    · exact ⟨c, hip''.symm⟩
  · rintro ⟨⟨s, hs⟩, t, ht⟩
    refine ⟨kChannelPrefix ++ s, t, ?_⟩
    simp [ServiceConfig.address, ← hs, ← ht]

/-- The circle gives an address of the service `o`. The group is handled by one server if and only
if no other service has an ip that ends with the ip of the address, and a port whose digits begin
with those of its port. -/
theorem handledByOne_services {ι : Type} {services : ι → ServiceConfig}
    {servers : ι → ImServerMgr} (hkeys : ∀ i, (servers i).regKeys = (services i).registerKeys)
    (hips : ∀ i, ∀ ip ∈ (services i).ips, '_'.toUInt8 ∉ ip ∧ colon ∉ ip) {gid : Gid} {o : ι}
    {ip : Bytes} (hip : ip ∈ (services o).ips)
    (haddr : ∀ i, (servers i).getServerByGroup gid =
      ServiceConfig.address ip (services o).port) :
    HandledByOne servers gid ↔ ∀ i, i ≠ o → ∀ ip' ∈ (services i).ips,
      ¬ (ip <:+ ip' ∧ intDecimal (services o).port <+: intDecimal (services i).port) := by
  have hhandle : ∀ i, (servers i).shouldHandleGroup gid ↔ ∃ ip' ∈ (services i).ips,
      ip <:+ ip' ∧ intDecimal (services o).port <+: intDecimal (services i).port := by
    intro i
    have hne : ServiceConfig.address ip (services o).port ≠ [] := by simp [ServiceConfig.address]
    rw [shouldHandleGroup_iff, haddr i, hkeys i, ServiceConfig.registerKeys]
    simp only [List.mem_map, exists_exists_and_eq_and, ne_eq, hne, not_false_eq_true, true_and]
    refine exists_congr fun ip' => and_congr_right fun hip' => ?_
    exact infix_registerKey_iff (hips o ip hip).1 (hips i ip' hip').2
  -- the owner is one of those, with the address itself
  have howner : (servers o).shouldHandleGroup gid :=
    (hhandle o).mpr ⟨ip, hip, List.suffix_rfl, List.prefix_rfl⟩
  rw [handledByOne_iff_unique]
  constructor
  · intro h i hi ip' hip' hends
    exact hi (h i o ((hhandle i).mpr ⟨ip', hip', hends⟩) howner)
  · intro h i j hi hj
    have honly : ∀ i, (servers i).shouldHandleGroup gid → i = o := by
      intro i hi
      obtain ⟨ip', hip', hends⟩ := (hhandle i).mp hi
      by_contra hne
      exact h i hne ip' hip' hends
    rw [honly i hi, honly j hj]

/-! ## Two servers for a group -/

/-- A server that has its keys and has heard of the channels of two services, its own and another
one -/
def ofServices (services : Bool → ServiceConfig) (i : Bool) : ImServerMgr :=
  run ((services i).registerKeys.map Event.addRegKey ++ [.updateImServerList
    (.channels ((services true).registerKeys ++ (services false).registerKeys))])

/-- `1.1.1.1:80` and `11.1.1.1:80` -/
def alike : Bool → ServiceConfig
  | false => { ips := [ascii ['1', '.', '1', '.', '1', '.', '1']], port := 80 }
  | true => { ips := [ascii ['1', '1', '.', '1', '.', '1', '.', '1']], port := 80 }

/-- `1.1.1.1:80` and `2.2.2.2:80` -/
def distinct : Bool → ServiceConfig
  | false => { ips := [ascii ['1', '.', '1', '.', '1', '.', '1']], port := 80 }
  | true => { ips := [ascii ['2', '.', '2', '.', '2', '.', '2']], port := 80 }

theorem same_circle {services : Bool → ServiceConfig}
    (h : ∀ i, (ofServices services i).imsvrs = (ofServices services false).imsvrs) (i j : Bool) :
    (ofServices services i).consistentHash = (ofServices services j).consistentHash := by
  have hi : (ofServices services i).consistentHash = _ := run_updated _
  have hj : (ofServices services j).consistentHash = _ := run_updated _
  rw [hi, hj]
  exact congrArg HashCircle.ofServers ((h i).trans (h j).symm)

/-- Servers whose addresses do not contain one another -/
theorem handledByOne_distinct : HandledByOne (ofServices distinct) 3 := by
  have hsame : ∀ i, (ofServices distinct i).imsvrs = (ofServices distinct false).imsvrs := by
    decide +kernel
  refine (handledByOne_iff (ofServices distinct) (same_circle hsame) 3).mpr ?_
  intro i j hij hne
  -- the address is one of the two that are registered
  have hmem : (ofServices distinct i).getServerByGroup 3 ∈ (ofServices distinct i).imsvrs := by
    have hcircle : (ofServices distinct i).consistentHash =
        HashCircle.ofServers (ofServices distinct i).imsvrs := run_updated _
    rw [getServerByGroup, hcircle] at hne ⊢
    have hnil : HashCircle.ofServers (ofServices distinct i).imsvrs ≠ [] := by
      intro hnil
      rw [hnil] at hne
      exact hne rfl
    obtain ⟨e, he, hserver⟩ := HashCircle.getServer_mem hnil (gidBytes 3)
    exact hserver ▸ ((HashCircle.mem_ofServers _).2 e he).1
  have hapart : ∀ i j, i ≠ j → ∀ addr ∈ (ofServices distinct i).imsvrs,
      ∀ key ∈ (ofServices distinct i).regKeys, ∀ key' ∈ (ofServices distinct j).regKeys,
        ¬ (addr <:+: key ∧ addr <:+: key') := by
    decide +kernel
  exact hapart i j hij _ hmem

theorem getServerByGroup_alike (i : Bool) : (ofServices alike i).getServerByGroup 3 =
    ascii ['1', '.', '1', '.', '1', '.', '1', ':', '8', '0'] := by
  have himsvrs : (ofServices alike i).imsvrs =
      [ascii ['1', '1', '.', '1', '.', '1', '.', '1', ':', '8', '0']] ++
        [ascii ['1', '.', '1', '.', '1', '.', '1', ':', '8', '0']] := by
    cases i <;> decide +kernel
  have hcircle : (ofServices alike i).consistentHash =
      HashCircle.ofServers (ofServices alike i).imsvrs := run_updated _
  rw [getServerByGroup, hcircle, himsvrs]
  -- the point with the index 15 is the nearest of the 400
  have hdistances : ∀ m ∈ [ascii ['1', '1', '.', '1', '.', '1', '.', '1', ':', '8', '0']] ++
      [ascii ['1', '.', '1', '.', '1', '.', '1', ':', '8', '0']],
      ∀ i ∈ List.range HashCircle.numberOfReplicas,
        (2 ^ 32 - fnvNat (gidBytes 3) + fnvNat (HashCircle.hashbuf
          (ascii ['1', '.', '1', '.', '1', '.', '1', ':', '8', '0']) 15)) % 2 ^ 32 ≤
        (2 ^ 32 - fnvNat (gidBytes 3) + fnvNat (HashCircle.hashbuf m i)) % 2 ^ 32 := by
    decide +kernel
  refine HashCircle.getServer_ofServers_concat (List.mem_map.mpr ⟨15, by decide, rfl⟩) ?_
  intro m hm k' hk'
  obtain ⟨i, hi, rfl⟩ := List.mem_map.mp hk'
  rw [HashCircle.clockwise_fnvHash, HashCircle.clockwise_fnvHash]
  exact hdistances m hm i hi

/-- `1.1.1.1:80` is found in the channel of `11.1.1.1:80`: both servers take the group. -/
theorem two_servers_handle :
    (∀ i j, (ofServices alike i).consistentHash = (ofServices alike j).consistentHash) ∧
      IsNamed (ofServices alike) 3 false ∧ ¬ HandledByOne (ofServices alike) 3 := by
  have hkeys : ∀ i, (ofServices alike i).regKeys = (alike i).registerKeys := by decide +kernel
  have himsvrs : ∀ i, (ofServices alike i).imsvrs = (ofServices alike false).imsvrs := by
    decide +kernel
  have hhandle : ∀ i, (ofServices alike i).shouldHandleGroup 3 := by
    intro i
    rw [shouldHandleGroup_iff, getServerByGroup_alike, hkeys]
    cases i
    · exact ⟨by decide, by decide +kernel⟩
    · exact ⟨by decide, by decide +kernel⟩
  refine ⟨same_circle himsvrs, ⟨?_, ?_⟩, fun h => ?_⟩
  · rw [getServerByGroup_alike]
    decide
  · rw [getServerByGroup_alike, hkeys]
    decide +kernel
  · exact absurd (h.1 false true (hhandle false) (hhandle true)) Bool.false_ne_true

end ImServerMgr

end BcmServer.Group
