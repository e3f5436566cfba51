import BcmServer.Offline.GroupStoreFormat
import BcmServer.Offline.Register
import BcmServer.Util.Keyed

/-!
# BcmServer.Offline.GroupPost — group messages that another offline server pushes

A user whose push type an offline server does not have is not pushed to by it. It posts the
records of such users, one message for each push type, to a server that it has drawn for the
type. This one makes the notifications from the records and sends them.

`posts_refine`: the notifications that the server and the ones it posts to send for a message
are, but for the order, those that one server with all the push types would send.
-/

namespace BcmServer.Offline

open Util Lts
open BcmServer.Group (Gid)

/-- `GroupOfflinePushMessage` -/
structure GroupOfflinePushMessage where
  groupId : Bytes
  messageId : Bytes
  destinations : List (Bytes × Bytes)

/-- The bytes of a key -/
def keyBytes (key : String) : Bytes := key.toUTF8.data.toList

/-- A map of strings as the fields of an object; `dump` throws if a key is no UTF-8. -/
def mapFields (rows : List (Bytes × Bytes)) : Option (List (String × Json)) :=
  rows.mapM fun d => (String.fromUTF8? d.1.toByteArray).map fun key => (key, .string d.2)

/-- `get` of a map of strings -/
def getStringMap : Json → Except JsonError (List (Bytes × Bytes))
  | .object fields => fields.mapM fun f => f.2.getString.map fun s => (keyBytes f.1, s)
  | _ => .error .typeError

namespace GroupOfflinePushMessage

/-- What `doPostGroupMessage` posts: the records are texts in the text. -/
def postData (dump : Json → Bytes) (gid : Gid) (mid : UInt64) (destinations : List (Bytes × Json)) :
    Option Bytes :=
  (mapFields (destinations.map fun d => (d.1, dump d.2.mapOrder))).map fun fields =>
    dump (Json.object [("gid", .string (decimal gid.toNat)), ("mid", .string (decimal mid.toNat)),
      ("destinations", (Json.object fields).mapOrder)]).mapOrder

/-- `from_json` -/
def ofJson (j : Json) : Except JsonError GroupOfflinePushMessage := do
  let groupId ← j.toString "gid"
  let messageId ← j.toString "mid"
  let destinations ← j.toGeneric getStringMap "destinations"
  .ok ⟨groupId, messageId, destinations⟩

/-- The notification that is made of a record -/
def notification (msg : GroupOfflinePushMessage) (gumi : GroupUserMessageIdInfo) : Notification where
  gid := msg.groupId
  mid := msg.messageId
  apnsType := gumi.apnType
  apnsId := gumi.apnId
  voipApnsId := gumi.voipApnId
  fcmId := gumi.gcmId
  umengId := gumi.umengId
  clientVersion := ⟨gumi.osType, gumi.osVersion, gumi.bcmBuildCode, gumi.phoneModel⟩
  targetAddress := Dispatcher.DispatchAddress.deserialize gumi.targetAddress

end GroupOfflinePushMessage

/-- The server at an address -/
def serverAt (numbers : ProtoNumbers) (services : List OfflineService) (address : Bytes) :
    Option PushServer :=
  (services.find? fun s => s.address = address).map fun s => ⟨numbers, s.config⟩

section Wire

-- the printer and the parser, and what is left of a record that is not read
variable (dump : Json → Bytes) (parse : Bytes → Except JsonError Json)
  (unread : Bytes → GroupUserMessageIdInfo)

namespace PushServer

variable (srv : PushServer)

/-- The loop of `sendGroupOfflinePush` over the destinations, with whether it came to its end -/
def sendDestinations (msg : GroupOfflinePushMessage) : List (Bytes × Bytes) → Bool × List PushAction
  | [] => (true, [])
  | d :: rest =>
      let gumi := (GroupUserMessageIdInfo.fromString parse d.2).getD (unread d.2)
      let notification := msg.notification gumi
      let pushType := notification.getPushType srv.numbers
      if !srv.config.checkPushType pushType then (false, [])
      else
        let r := sendDestinations msg rest
        (r.1, if srv.config.isPush then .sendNotification d.1 pushType notification :: r.2 else r.2)

/-- `sendGroupOfflinePush`: whether the request is answered with OK, and what is sent -/
def sendGroupOfflinePush (body : Bytes) : Bool × List PushAction :=
  match parse body >>= GroupOfflinePushMessage.ofJson with
  | .error _ => (false, [])
  | .ok msg => srv.sendDestinations parse unread msg msg.destinations

end PushServer

/-- What becomes of an action: a notification is sent, and a post gets to the server at its
address. -/
def PushAction.delivered (numbers : ProtoNumbers) (services : List OfflineService) :
    PushAction → List PushAction
  | .sendNotification uid pushType notification => [.sendNotification uid pushType notification]
  | .postGroupMessage address gid mid destinations =>
      match serverAt numbers services address,
        GroupOfflinePushMessage.postData dump gid mid destinations with
      | some srv, some body => (srv.sendGroupOfflinePush parse unread body).2
      | _, _ => []
  | .hdel _ _ _ => []
  | .hmset _ _ _ _ => []

end Wire

/-! ## Maps of strings -/

theorem fromUTF8?_of_utf8 {s : Bytes} (h : Utf8 s) :
    ∃ key, String.fromUTF8? s.toByteArray = some key ∧ keyBytes key = s := by
  refine ⟨⟨s.toByteArray, h⟩, dif_pos h, ?_⟩
  show s.toByteArray.data.toList = s
  rw [List.data_toByteArray, List.toList_toArray]

/-- The fields have the keys and the values of the map. -/
theorem mapFields_utf8 {rows : List (Bytes × Bytes)} (h : ∀ d ∈ rows, Utf8 d.1) :
    ∃ fields, mapFields rows = some fields ∧
      fields.map (fun f => (keyBytes f.1, f.2)) = rows.map fun d => (d.1, Json.string d.2) := by
  induction rows with
  | nil => exact ⟨[], rfl, rfl⟩
  | cons d rows ih =>
      rw [List.forall_mem_cons] at h
      rcases ih h.2 with ⟨fields, hfields, hmap⟩
      rcases fromUTF8?_of_utf8 h.1 with ⟨key, hkey, hbytes⟩
      refine ⟨(key, .string d.2) :: fields, ?_, ?_⟩
      · unfold mapFields at hfields ⊢
        rw [List.mapM_cons, hkey, hfields]
        rfl
      · rw [List.map_cons, List.map_cons, hmap, hbytes]

/-- A map is read from its fields, in whatever order they are. -/
theorem getStringMap_perm {rows : List (Bytes × Bytes)} {fields fields' : List (String × Json)}
    (hmap : fields.map (fun f => (keyBytes f.1, f.2)) = rows.map fun d => (d.1, Json.string d.2))
    (hperm : fields'.Perm fields) :
    ∃ rows', getStringMap (.object fields') = .ok rows' ∧ rows'.Perm rows := by
  have hread : ∀ l : List (String × Json), (∀ f ∈ l, ∃ s, f.2 = .string s) →
      ∃ rows', getStringMap (.object l) = .ok rows' ∧
        rows'.map (fun d => (d.1, Json.string d.2)) = l.map fun f => (keyBytes f.1, f.2) := by
    intro l hl
    induction l with
    | nil => exact ⟨[], rfl, rfl⟩
    | cons f l ih =>
        rw [List.forall_mem_cons] at hl
        rcases hl.1 with ⟨s, hs⟩
        rcases ih hl.2 with ⟨rows', hrows, hmap⟩
        refine ⟨(keyBytes f.1, s) :: rows', ?_, ?_⟩
        · simp only [getStringMap] at hrows ⊢
          rw [List.mapM_cons, hs, hrows]
          rfl
        · rw [List.map_cons, List.map_cons, hmap, hs]
  have hstring : ∀ f ∈ fields', ∃ s, f.2 = .string s := by
    intro f hf
    have hmem := List.mem_map_of_mem (f := fun f : String × Json => (keyBytes f.1, f.2))
      (hperm.mem_iff.mp hf)
    rw [hmap, List.mem_map] at hmem
    rcases hmem with ⟨d, -, hd⟩
    exact ⟨d.2, (Prod.ext_iff.mp hd).2.symm⟩
  rcases hread fields' hstring with ⟨rows', hrows, hmap'⟩
  refine ⟨rows', hrows, ?_⟩
  have hrowsPerm : (rows'.map fun d => (d.1, Json.string d.2)).Perm
      (rows.map fun d => (d.1, Json.string d.2)) := by
    rw [hmap', ← hmap]
    exact hperm.map _
  have hinj : Function.Injective fun d : Bytes × Bytes => (d.1, Json.string d.2) := by
    rintro ⟨a, b⟩ ⟨a', b'⟩ heq
    cases heq
    rfl
  exact (List.map_perm_map_iff hinj).mp hrowsPerm

/-! ## Posting and reading -/

section Lawful

variable {dump : Json → Bytes} {parse : Bytes → Except JsonError Json}
  {unread : Bytes → GroupUserMessageIdInfo}

/-- What is relied on of JSON texts: they are read back, and are UTF-8 themselves. -/
structure JsonLawful (dump : Json → Bytes) (parse : Bytes → Except JsonError Json) : Prop where
  roundTrips : JsonRoundTrips dump parse
  utf8 : ∀ j : Json, j.Storable → Utf8 (dump j)

/-- The users of a post, with their records -/
structure Postable (group : List (Bytes × GroupUserMessageIdInfo)) : Prop where
  uid : ∀ e ∈ group, Utf8 e.1
  nodup : (group.map Prod.fst).Nodup
  record : ∀ e ∈ group, e.2.Utf8Strings

variable {group : List (Bytes × GroupUserMessageIdInfo)}

/-- A text that is posted is read, with the records in some order. -/
theorem ofJson_postData (hjson : JsonLawful dump parse) (hgroup : Postable group) (gid : Gid)
    (mid : UInt64) :
    ∃ body destinations,
      GroupOfflinePushMessage.postData dump gid mid (group.map fun e => (e.1, e.2.toJson)) =
        some body ∧
      (parse body >>= GroupOfflinePushMessage.ofJson) =
        .ok ⟨decimal gid.toNat, decimal mid.toNat, destinations⟩ ∧
      destinations.Perm (group.map fun e => (e.1, e.2.toString dump)) := by
  have hutf8 : ∀ d ∈ group.map (fun e => (e.1, e.2.toString dump)), Utf8 d.1 := by
    intro d hd
    rcases List.mem_map.mp hd with ⟨e, he, rfl⟩
    exact hgroup.uid e he
  rcases mapFields_utf8 hutf8 with ⟨fields, hfields, hmap⟩
  have hperm := List.perm_insertionSort (fun f g : String × Json => f.1 ≤ g.1) fields
  rcases getStringMap_perm hmap hperm with ⟨destinations, hread, hdestinations⟩
  -- the keys are different, and ascend in the text
  have hnodup : (fields.map Prod.fst).Nodup := by
    have hkeys : (fields.map Prod.fst).map keyBytes = group.map Prod.fst := by
      have h := congrArg (List.map Prod.fst) hmap
      simpa [List.map_map, Function.comp_def] using h
    exact List.Nodup.of_map keyBytes (hkeys ▸ hgroup.nodup)
  have hsorted : ((fields.insertionSort fun f g => f.1 ≤ g.1).map Prod.fst).Pairwise (· < ·) := by
    have hle := List.pairwise_map.mpr
      (List.pairwise_insertionSort (fun f g : String × Json => f.1 ≤ g.1) fields)
    have hne := (hperm.map Prod.fst).nodup_iff.mpr hnodup
    exact (hle.and hne).imp fun h => Std.lt_of_le_of_ne h.1 h.2
  have hrecords : ∀ f ∈ fields.insertionSort fun f g => f.1 ≤ g.1, f.2.Storable := by
    intro f hf
    have hmem := List.mem_map_of_mem (f := fun f : String × Json => (keyBytes f.1, f.2))
      (hperm.mem_iff.mp hf)
    rw [hmap, List.mem_map] at hmem
    rcases hmem with ⟨d, hd, heq⟩
    rcases List.mem_map.mp hd with ⟨e, he, rfl⟩
    rw [← (Prod.ext_iff.mp heq).2]
    exact .string (hjson.utf8 _ (GroupUserMessageIdInfo.storable_toJson (hgroup.record e he)))
  have horder : (Json.object [("gid", .string (decimal gid.toNat)),
      ("mid", .string (decimal mid.toNat)), ("destinations", (Json.object fields).mapOrder)]).mapOrder =
      .object [("destinations", .object (fields.insertionSort fun f g => f.1 ≤ g.1)),
        ("gid", .string (decimal gid.toNat)), ("mid", .string (decimal mid.toNat))] := by
    simp [Json.mapOrder, List.insertionSort, List.orderedInsert]
  have hstorable : (Json.object [("destinations", .object (fields.insertionSort fun f g => f.1 ≤ g.1)),
      ("gid", .string (decimal gid.toNat)), ("mid", .string (decimal mid.toNat))]).Storable := by
    have hkeys : ["destinations", "gid", "mid"].Pairwise (· < ·) := by decide
    have hdecimal : ∀ n : ℕ, (Json.string (decimal n)).Storable := by
      intro n
      exact .string (JsonText.utf8_intDecimal n)
    refine .of_keys hkeys ?_
    simp only [List.forall_mem_cons, List.not_mem_nil, false_imp_iff, implies_true, and_true]
    exact ⟨.of_keys hsorted hrecords, hdecimal _, hdecimal _⟩
  have hrows : (group.map fun e => (e.1, e.2.toJson)).map (fun d => (d.1, dump d.2.mapOrder)) =
      group.map fun e => (e.1, e.2.toString dump) := List.map_map
  have hpost : GroupOfflinePushMessage.postData dump gid mid
      (group.map fun e => (e.1, e.2.toJson)) = some (dump (Json.object [
        ("destinations", .object (fields.insertionSort fun f g => f.1 ≤ g.1)),
        ("gid", .string (decimal gid.toNat)), ("mid", .string (decimal mid.toNat))])) := by
    rw [GroupOfflinePushMessage.postData, hrows, hfields, Option.map_some, horder]
  refine ⟨_, destinations, hpost, ?_, hdestinations⟩
  rw [hjson.roundTrips _ hstorable]
  simp [GroupOfflinePushMessage.ofJson, Json.toString, Json.toGeneric, Json.at_, List.lookup_cons,
    Json.getString, hread, bind, Except.bind]

/-- A notification is sent to a user. -/
def sendOf (numbers : ProtoNumbers) (gid : Gid) (e : Bytes × GroupUserMessageIdInfo) : PushAction :=
  .sendNotification e.1 (e.2.pushType numbers) (e.2.notification gid)

variable {srv : PushServer} {gid : Gid} {mid : UInt64}

/-- The records that are read are sent to, if the server has their push types. -/
theorem sendDestinations_eq (hpush : srv.config.isPush = true) {destinations l : List (Bytes × Bytes)}
    (h : ∀ d ∈ l, ∃ gu, GroupUserMessageIdInfo.fromString parse d.2 = some gu ∧ gu.lastMid = mid ∧
      srv.config.checkPushType (gu.pushType srv.numbers) = true) :
    (srv.sendDestinations parse unread ⟨decimal gid.toNat, decimal mid.toNat, destinations⟩ l).2 =
      l.map fun d => sendOf srv.numbers gid
        (d.1, (GroupUserMessageIdInfo.fromString parse d.2).getD (unread d.2)) := by
  induction l with
  | nil => rfl
  | cons d l ih =>
      rw [List.forall_mem_cons] at h
      rcases h.1 with ⟨gu, hgu, hmid, hcheck⟩
      have hnotification : GroupOfflinePushMessage.notification
          ⟨decimal gid.toNat, decimal mid.toNat, destinations⟩ gu = gu.notification gid := by
        rw [← hmid]
        rfl
      rw [PushServer.sendDestinations, List.map_cons, ← ih h.2, hgu]
      simp only [Option.getD_some, hnotification, GroupUserMessageIdInfo.getPushType_notification,
        hcheck, hpush, Bool.not_true, Bool.false_eq_true, if_false, if_true]
      rfl

/-- What is posted is sent by a server that has the push type. -/
theorem sendGroupOfflinePush_perm (hjson : JsonLawful dump parse) (hgroup : Postable group)
    (hpush : srv.config.isPush = true) (hmid : ∀ e ∈ group, e.2.lastMid = mid)
    (hcheck : ∀ e ∈ group, srv.config.checkPushType (e.2.pushType srv.numbers) = true) :
    ∃ body,
      GroupOfflinePushMessage.postData dump gid mid (group.map fun e => (e.1, e.2.toJson)) =
        some body ∧
      (srv.sendGroupOfflinePush parse unread body).2.Perm (group.map (sendOf srv.numbers gid)) := by
  rcases ofJson_postData hjson hgroup gid mid with ⟨body, destinations, hpost, hread, hperm⟩
  refine ⟨body, hpost, ?_⟩
  have hrecord : ∀ e ∈ group, GroupUserMessageIdInfo.fromString parse (e.2.toString dump) = some e.2 :=
    fun e he => GroupUserMessageIdInfo.fromString_toString hjson.roundTrips (hgroup.record e he)
  have hall : ∀ d ∈ destinations, ∃ gu, GroupUserMessageIdInfo.fromString parse d.2 = some gu ∧
      gu.lastMid = mid ∧ srv.config.checkPushType (gu.pushType srv.numbers) = true := by
    intro d hd
    rcases List.mem_map.mp (hperm.mem_iff.mp hd) with ⟨e, he, rfl⟩
    exact ⟨e.2, hrecord e he, hmid e he, hcheck e he⟩
  rw [PushServer.sendGroupOfflinePush, hread]
  simp only
  rw [sendDestinations_eq hpush hall]
  refine (hperm.map _).trans ?_
  rw [List.map_map]
  refine List.Perm.of_eq (List.map_congr_left ?_)
  intro e he
  simp only [Function.comp_apply, hrecord e he, Option.getD_some]

end Lawful

/-! ## All servers together -/

/-- One server with the push types of all -/
def PushServer.joined (srv : PushServer) (services : List OfflineService) : PushServer where
  numbers := srv.numbers
  config :=
    { isPush := srv.config.isPush
      pushType := srv.config.pushType ++ services.flatMap fun s => s.config.pushType }

theorem checkPushType_iff {config : OfflineServerConfig} {t : Bytes} :
    config.checkPushType t = true ↔ t ∈ config.pushType := by
  rw [OfflineServerConfig.checkPushType, List.any_eq_true]
  constructor
  · rintro ⟨it, hit, heq⟩
    exact of_decide_eq_true heq ▸ hit
  · intro ht
    exact ⟨t, ht, decide_eq_true rfl⟩

/-- The servers that can be drawn: they are in the list of a register, push, and have different
addresses. -/
structure Cluster (services : List OfflineService) (r : OfflineServiceRegister) : Prop where
  wellFormed : ∀ s ∈ services, s.WellFormed
  nodup : (services.map OfflineService.address).Nodup
  isPush : ∀ s ∈ services, s.config.isPush = true
  lists : r.Lists services

/-- Servers are drawn from a register, with any count. -/
def DrawnFrom (r : OfflineServiceRegister) (offlineServer : Bytes → Bytes) : Prop :=
  ∀ t, ∃ count, offlineServer t =
    (OfflineServiceRegister.getRandomOfflineServerByType { r with iRoundRobin := count } t).1

section Posts

variable {dump : Json → Bytes} {parse : Bytes → Except JsonError Json}
  {unread : Bytes → GroupUserMessageIdInfo} {services : List OfflineService}
  {r : OfflineServiceRegister} {srv : PushServer} {ans : PushAnswers} {gid : Gid} {mid : UInt64}

/-- The server of an address -/
theorem serverAt_address (hcluster : Cluster services r) {s : OfflineService} (hs : s ∈ services) :
    serverAt srv.numbers services s.address = some ⟨srv.numbers, s.config⟩ := by
  have hsome : (services.find? fun s' => s'.address = s.address).isSome :=
    List.find?_isSome.mpr ⟨s, hs, by simp⟩
  rcases Option.isSome_iff_exists.mp hsome with ⟨s', hs'⟩
  have haddress : s'.address = s.address := by simpa using List.find?_some hs'
  have heq : s' = s :=
    List.inj_on_of_nodup_map hcluster.nodup (List.mem_of_find?_eq_some hs') hs haddress
  rw [serverAt, hs', Option.map_some, heq]

/-- A post gets to a server that has the push type, if there is one in the list. -/
theorem delivered_postOther (hjson : JsonLawful dump parse) (hcluster : Cluster services r)
    (hdrawn : DrawnFrom r ans.offlineServer) (hpush : srv.config.isPush = true) {t : Bytes}
    (ht : t ≠ []) {group : List (Bytes × GroupUserMessageIdInfo)} (hgroup : Postable group)
    (hmid : ∀ e ∈ group, e.2.lastMid = mid) (htype : ∀ e ∈ group, e.2.pushType srv.numbers = t) :
    ((srv.postOther ans gid mid (t, group.map fun e => (e.1, e.2.toJson))).flatMap
      (PushAction.delivered dump parse unread srv.numbers services)).Perm
      (if t ∈ services.flatMap (fun s => s.config.pushType) then
        group.map (sendOf srv.numbers gid) else []) := by
  rcases hdrawn t with ⟨count, hcount⟩
  have hsupports := OfflineServiceRegister.supports_draw
    (r := { r with iRoundRobin := count }) hcluster.lists t
  rw [← hcount] at hsupports
  rw [PushServer.postOther]
  simp only [hpush, Bool.and_true]
  rcases eq_or_ne (ans.offlineServer t) [] with hnone | hsome
  · rw [hnone, List.isEmpty_nil, Bool.not_true, if_neg Bool.false_ne_true]
    have hmissing : t ∉ services.flatMap fun s => s.config.pushType := by
      intro hmem
      rcases List.mem_flatMap.mp hmem with ⟨s, hs, hts⟩
      rcases hsupports.2 hnone with hnil | hnot
      · exact ht hnil
      · exact hnot s hs hts
    rw [if_neg hmissing]
    exact List.Perm.refl _
  · rcases hsupports.1 hsome with ⟨s, hs, haddress, hts⟩
    have haddress : s.address = ans.offlineServer t := haddress
    have hempty : (ans.offlineServer t).isEmpty = false := by simpa using hsome
    rw [hempty, Bool.not_false, if_pos rfl, if_pos (List.mem_flatMap.mpr ⟨s, hs, hts⟩),
      List.flatMap_singleton, PushAction.delivered, ← haddress, serverAt_address hcluster hs]
    have hcheck : ∀ e ∈ group, s.config.checkPushType (e.2.pushType srv.numbers) = true := by
      intro e he
      rw [htype e he]
      exact checkPushType_iff.mpr hts
    have hsent : ∃ body,
        GroupOfflinePushMessage.postData dump gid mid (group.map fun e => (e.1, e.2.toJson)) =
          some body ∧
        (PushServer.sendGroupOfflinePush parse unread ⟨srv.numbers, s.config⟩ body).2.Perm
          (group.map (sendOf srv.numbers gid)) :=
      sendGroupOfflinePush_perm hjson hgroup (hcluster.isPush s hs) hmid hcheck
    rcases hsent with ⟨body, hpost, hperm⟩
    rw [hpost]
    exact hperm

/-- What a server sends itself -/
theorem flatMap_pushSelf (hpush : srv.config.isPush = true)
    (rows : List (Bytes × GroupUserMessageIdInfo)) :
    rows.flatMap (srv.pushSelf gid) =
      (rows.filter fun e => srv.config.checkPushType (e.2.pushType srv.numbers)).map
        (sendOf srv.numbers gid) := by
  induction rows with
  | nil => rfl
  | cons e rows ih =>
      rw [List.flatMap_cons, ih, PushServer.pushSelf]
      simp only [GroupUserMessageIdInfo.getPushType_notification, hpush, Bool.and_true]
      rw [List.filter_cons]
      split_ifs
      · rfl
      · rfl

theorem flatMap_delivered_sendOf (numbers : ProtoNumbers)
    (rows : List (Bytes × GroupUserMessageIdInfo)) :
    (rows.map (sendOf numbers gid)).flatMap
      (PushAction.delivered dump parse unread numbers services) = rows.map (sendOf numbers gid) := by
  induction rows with
  | nil => rfl
  | cons e rows ih =>
      rw [List.map_cons, List.flatMap_cons, ih]
      rfl

/-- Records that are written are no notifications. -/
theorem flatMap_delivered_hmsetOne (numbers : ProtoNumbers) (values : List (Bytes × Json))
    (vecDbList : List UInt32) :
    (hmsetOne ans gid values vecDbList).flatMap
      (PushAction.delivered dump parse unread numbers services) = [] := by
  induction vecDbList with
  | nil => rfl
  | cons redis vecDbList ih =>
      rw [hmsetOne, List.flatMap_cons]
      split_ifs
      · rfl
      · rw [ih]
        rfl

/-- The users whose push type the server does not have, and who have one -/
def others (srv : PushServer) (rows : List (Bytes × GroupUserMessageIdInfo)) :
    List (Bytes × GroupUserMessageIdInfo) :=
  rows.filter fun e =>
    !(srv.config.checkPushType (e.2.pushType srv.numbers) || (e.2.pushType srv.numbers).isEmpty)

/-- What is posted are these users, push type by push type. -/
theorem pushOther_eq (rows : List (Bytes × GroupUserMessageIdInfo)) :
    srv.pushOther gid rows =
      (inOrder ((others srv rows).map fun e => e.2.pushType srv.numbers).toFinset).map fun t =>
        (t, ((others srv rows).filter fun e => e.2.pushType srv.numbers = t).map fun e =>
          (e.1, e.2.toJson)) := by
  have hrows : rows.filterMap (fun e =>
      if srv.config.checkPushType (e.2.pushType srv.numbers) ||
          (e.2.pushType srv.numbers).isEmpty then none
      else some (e.2.pushType srv.numbers, e.1, e.2.toJson)) =
      (others srv rows).map fun e => (e.2.pushType srv.numbers, e.1, e.2.toJson) := by
    rw [others, ← List.filterMap_eq_map, List.filterMap_filter]
    refine List.filterMap_congr fun e _ => ?_
    simp only [Function.comp_apply, Bool.not_eq_true']
    split_ifs with hown hnot hnot
    · rw [hown] at hnot
      cases hnot
    · rfl
    · rfl
    · exact absurd (Bool.eq_false_of_not_eq_true hown) hnot
  have hpushOther : srv.pushOther gid rows =
      (inOrder (((others srv rows).map fun e => (e.2.pushType srv.numbers, e.1, e.2.toJson)).map
        Prod.fst).toFinset).map fun t =>
          (t, (((others srv rows).map fun e =>
            (e.2.pushType srv.numbers, e.1, e.2.toJson)).filter fun e => e.1 = t).map Prod.snd) := by
    rw [← hrows]
    rfl
  rw [hpushOther, List.map_map]
  refine List.map_congr_left fun t _ => ?_
  rw [List.filter_map, List.map_map]
  rfl

theorem mem_others {rows : List (Bytes × GroupUserMessageIdInfo)}
    {e : Bytes × GroupUserMessageIdInfo} : e ∈ others srv rows ↔ e ∈ rows ∧
      srv.config.checkPushType (e.2.pushType srv.numbers) = false ∧
        e.2.pushType srv.numbers ≠ [] := by
  rw [others, List.mem_filter, Bool.not_eq_true', Bool.or_eq_false_iff]
  simp

/-- What is posted is sent, as far as there are servers for it. -/
theorem delivered_posts (hjson : JsonLawful dump parse) (hcluster : Cluster services r)
    (hdrawn : DrawnFrom r ans.offlineServer) (hpush : srv.config.isPush = true)
    {rows : List (Bytes × GroupUserMessageIdInfo)} (hrows : Postable rows)
    (hmid : ∀ e ∈ rows, e.2.lastMid = mid) :
    (((srv.pushOther gid rows).flatMap (srv.postOther ans gid mid)).flatMap
      (PushAction.delivered dump parse unread srv.numbers services)).Perm
      (((others srv rows).filter fun e =>
        e.2.pushType srv.numbers ∈ services.flatMap fun s => s.config.pushType).map
          (sendOf srv.numbers gid)) := by
  have hsub : (others srv rows).Sublist rows := List.filter_sublist
  rw [pushOther_eq, List.flatMap_map, List.flatMap_assoc]
  -- the users of a push type are posted together
  have hpost : ∀ t ∈ inOrder ((others srv rows).map fun e => e.2.pushType srv.numbers).toFinset,
      ((srv.postOther ans gid mid (t, ((others srv rows).filter fun e =>
        e.2.pushType srv.numbers = t).map fun e => (e.1, e.2.toJson))).flatMap
          (PushAction.delivered dump parse unread srv.numbers services)).Perm
        ((((others srv rows).filter fun e =>
          e.2.pushType srv.numbers ∈ services.flatMap fun s => s.config.pushType).filter fun e =>
            e.2.pushType srv.numbers = t).map (sendOf srv.numbers gid)) := by
    intro t ht
    rw [mem_inOrder, List.mem_toFinset, List.mem_map] at ht
    rcases ht with ⟨e, he, rfl⟩
    have hgroup : ((others srv rows).filter fun e' =>
        e'.2.pushType srv.numbers = e.2.pushType srv.numbers).Sublist rows :=
      List.filter_sublist.trans hsub
    have hpostable : Postable ((others srv rows).filter fun e' =>
        e'.2.pushType srv.numbers = e.2.pushType srv.numbers) :=
      ⟨fun e' he' => hrows.uid e' (hgroup.subset he'), hrows.nodup.sublist (hgroup.map Prod.fst),
        fun e' he' => hrows.record e' (hgroup.subset he')⟩
    refine (delivered_postOther hjson hcluster hdrawn hpush (mem_others.mp he).2.2 hpostable
      (fun e' he' => hmid e' (hgroup.subset he')) ?_).trans (List.Perm.of_eq ?_)
    · intro e' he'
      exact of_decide_eq_true (List.mem_filter.mp he').2
    · split_ifs with hmem
      · rw [List.filter_filter]
        congr 1
        refine List.filter_congr fun e' _ => ?_
        rcases eq_or_ne (e'.2.pushType srv.numbers) (e.2.pushType srv.numbers) with heq | hne
        · simp [heq, hmem]
        · simp [hne]
      · rw [List.filter_filter, eq_comm, List.map_eq_nil_iff, List.filter_eq_nil_iff]
        intro e' _ hboth
        rw [Bool.and_eq_true, decide_eq_true_eq, decide_eq_true_eq] at hboth
        exact hmem (hboth.1 ▸ hboth.2)
  refine (List.Perm.flatMap_left _ hpost).trans ?_
  rw [← List.map_flatMap]
  refine List.Perm.map _ (Keyed.perm_flatMap_filter
    (fun e : Bytes × GroupUserMessageIdInfo => e.2.pushType srv.numbers) (nodup_inOrder _) ?_)
  intro e he
  rw [mem_inOrder, List.mem_toFinset]
  exact List.mem_map_of_mem (List.mem_filter.mp he).1

end Posts

/-- The users of a message, with their records -/
theorem postable_pushRows (gm : GroupMessageIdInfo) {offlineUids : GroupUserMsgs}
    (hutf8 : ∀ e ∈ offlineUids.rowsInOrder, Utf8 e.1 ∧ e.2.Utf8Strings) :
    Postable (pushRows gm offlineUids) where
  uid e he := by
    rcases List.mem_map.mp he with ⟨e', he', rfl⟩
    exact (hutf8 e' he').1
  nodup := by
    have hkeys : (pushRows gm offlineUids).map Prod.fst = offlineUids.rowsInOrder.map Prod.fst := by
      rw [pushRows, List.map_map]
      rfl
    rw [hkeys]
    exact Table.nodup_keys_rowsInOrder offlineUids
  record e he := by
    rcases List.mem_map.mp he with ⟨e', he', rfl⟩
    have h := (hutf8 e' he').2
    exact ⟨h.gcmId, h.umengId, h.osVersion, h.phoneModel, h.apnId, h.apnType, h.voipApnId,
      h.targetAddress⟩

/-- The users that one server with all the push types sends to -/
theorem filter_joined (srv : PushServer) {services : List OfflineService}
    (hwf : ∀ s ∈ services, s.WellFormed) (rows : List (Bytes × GroupUserMessageIdInfo)) :
    ((rows.filter fun e => srv.config.checkPushType (e.2.pushType srv.numbers)) ++
      ((others srv rows).filter fun e =>
        e.2.pushType srv.numbers ∈ services.flatMap fun s => s.config.pushType)).Perm
      (rows.filter fun e => (srv.joined services).config.checkPushType (e.2.pushType srv.numbers)) := by
  have hjoined : ∀ t, (srv.joined services).config.checkPushType t =
      (srv.config.checkPushType t || decide (t ∈ services.flatMap fun s => s.config.pushType)) := by
    intro t
    rw [Bool.eq_iff_iff, checkPushType_iff, Bool.or_eq_true, checkPushType_iff, decide_eq_true_eq]
    exact List.mem_append
  have hnonempty : ∀ t ∈ services.flatMap fun s => s.config.pushType, t ≠ [] := by
    intro t ht
    rcases List.mem_flatMap.mp ht with ⟨s, hs, hts⟩
    exact ((hwf s hs).pushType t hts).1
  -- those whose push type the server has, and the others
  have hown : (rows.filter fun e => srv.config.checkPushType (e.2.pushType srv.numbers)) =
      (rows.filter fun e => (srv.joined services).config.checkPushType
        (e.2.pushType srv.numbers)).filter fun e =>
          srv.config.checkPushType (e.2.pushType srv.numbers) := by
    rw [List.filter_filter]
    refine List.filter_congr fun e _ => ?_
    rw [hjoined]
    cases srv.config.checkPushType (e.2.pushType srv.numbers) <;> simp
  have hothers : ((others srv rows).filter fun e =>
        e.2.pushType srv.numbers ∈ services.flatMap fun s => s.config.pushType) =
      (rows.filter fun e => (srv.joined services).config.checkPushType
        (e.2.pushType srv.numbers)).filter fun e =>
          !srv.config.checkPushType (e.2.pushType srv.numbers) := by
    rw [others, List.filter_filter, List.filter_filter]
    refine List.filter_congr fun e _ => ?_
    rw [hjoined]
    cases srv.config.checkPushType (e.2.pushType srv.numbers) with
    | true => simp
    | false =>
        rcases eq_or_ne (e.2.pushType srv.numbers) [] with hnil | hne
        · have hnot : e.2.pushType srv.numbers ∉ services.flatMap fun s => s.config.pushType :=
            fun hmem => hnonempty _ hmem hnil
          simp [hnot]
        · simp [hne]
  rw [hown, hothers]
  exact List.filter_append_perm _ _

/-- The notifications that a server and those it posts to send for a message are those that one
server with all the push types sends, but for the order. -/
theorem posts_refine {dump : Json → Bytes} {parse : Bytes → Except JsonError Json}
    (hjson : JsonLawful dump parse) (unread : Bytes → GroupUserMessageIdInfo)
    {services : List OfflineService} {r : OfflineServiceRegister} (hcluster : Cluster services r)
    (srv : PushServer) (hpush : srv.config.isPush = true) (ans : PushAnswers)
    (hdrawn : DrawnFrom r ans.offlineServer) (vecDbList : List UInt32) (gid : Gid)
    (gm : GroupMessageIdInfo) (offlineUids : GroupUserMsgs)
    (hutf8 : ∀ e ∈ offlineUids.rowsInOrder, Utf8 e.1 ∧ e.2.Utf8Strings) :
    ((srv.doPushMessage ans vecDbList gid gm offlineUids).flatMap
      (PushAction.delivered dump parse unread srv.numbers services)).Perm
      ((pushRows gm offlineUids).flatMap ((srv.joined services).pushSelf gid)) := by
  have hmid : ∀ e ∈ pushRows gm offlineUids, e.2.lastMid = gm.lastMid := by
    intro e he
    rcases List.mem_map.mp he with ⟨e', -, rfl⟩
    rfl
  have hrows := postable_pushRows gm hutf8
  have hjoined : (srv.joined services).config.isPush = true := hpush
  have hposts : (((srv.pushOther gid (pushRows gm offlineUids)).flatMap
      (srv.postOther ans gid gm.lastMid)).flatMap
        (PushAction.delivered dump parse unread srv.numbers services)).Perm
      (((others srv (pushRows gm offlineUids)).filter fun e =>
        e.2.pushType srv.numbers ∈ services.flatMap fun s => s.config.pushType).map
          (sendOf srv.numbers gid)) :=
    delivered_posts hjson hcluster hdrawn hpush hrows hmid
  rw [PushServer.doPushMessage, List.flatMap_append, List.flatMap_append, flatMap_pushSelf hpush,
    flatMap_delivered_sendOf, flatMap_delivered_hmsetOne, List.append_nil, flatMap_pushSelf hjoined]
  refine (hposts.append_left _).trans ?_
  rw [← List.map_append]
  exact (filter_joined srv hcluster.wellFormed _).map _

open OfflineRegistry (iosService androidService wellFormed_iosService wellFormed_androidService)

/-- A user with an Android phone, and a register with a server for it -/
def androidUser : GroupUserMessageIdInfo :=
  { GroupUserMessageIdInfo.initial with gcmId := ascii "token".toList, osType := 2 }

def twoServices : OfflineServiceRegister :=
  OfflineServiceRegister.updateOfflineServerList {}
    (.channels ([iosService, androidService].flatMap OfflineService.registerKeys))

/-- The server for iOS, to which redis and the database answer nothing -/
def iosServer : PushServer := ⟨⟨1, 1, 2⟩, iosService.config⟩

def drawsOnly : PushAnswers where
  accounts _ := none
  now _ := 0
  offlineServer t := (twoServices.getRandomOfflineServerByType t).1
  hmset _ := false

theorem cluster_twoServices : Cluster [iosService, androidService] twoServices where
  wellFormed := by
    rw [List.forall_mem_cons, List.forall_mem_singleton]
    exact ⟨wellFormed_iosService, wellFormed_androidService⟩
  nodup := by decide +kernel
  isPush := by decide
  lists := by
    have hwf : ∀ s ∈ [iosService, androidService], s.WellFormed := by
      rw [List.forall_mem_cons, List.forall_mem_singleton]
      exact ⟨wellFormed_iosService, wellFormed_androidService⟩
    exact OfflineServiceRegister.lists_update (List.Perm.refl _) hwf (by decide +kernel) (by decide)

/-- The message is for this user. -/
def oneUser : GroupUserMsgs := Table.insertAll ∅ [(ascii "bob".toList, androidUser)]

theorem utf8_oneUser : ∀ e ∈ oneUser.rowsInOrder, Utf8 e.1 ∧ e.2.Utf8Strings := by
  have hall : ∀ e ∈ oneUser.rowsInOrder, e = (ascii "bob".toList, androidUser) := by
    decide +kernel
  intro e he
  rw [hall e he]
  exact ⟨utf8_of_all (by decide), utf8_of_all (by decide), utf8_nil, utf8_nil, utf8_nil, utf8_nil,
    utf8_nil, utf8_nil, utf8_nil⟩

def groupMessage : GroupMessageIdInfo := ⟨5, 0, PushPeopleType.toAll.value, [], 0, ⟨∅, []⟩⟩

theorem posts_refine_android :
    ((iosServer.doPushMessage drawsOnly [] 7 groupMessage oneUser).flatMap
      (PushAction.delivered JsonText.dump JsonText.parse (fun _ => .initial) iosServer.numbers
        [iosService, androidService])).length = 1 ∧
    ((iosServer.doPushMessage drawsOnly [] 7 groupMessage oneUser).flatMap
      (PushAction.delivered JsonText.dump JsonText.parse (fun _ => .initial) iosServer.numbers
        [iosService, androidService])).Perm
      ((pushRows groupMessage oneUser).flatMap
        ((iosServer.joined [iosService, androidService]).pushSelf 7)) := by
  refine ⟨by decide +kernel, ?_⟩
  exact posts_refine ⟨JsonText.parse_dump, fun _ h => JsonText.utf8_dump h⟩ (fun _ => .initial)
    cluster_twoServices iosServer rfl drawsOnly (fun t => ⟨0, rfl⟩) [] 7 groupMessage oneUser
    utf8_oneUser

end BcmServer.Offline
