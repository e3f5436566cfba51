import BcmServer.Group.ImServerMgr
import BcmServer.Lts.Run
import BcmServer.Offline.PushMessage

/-!
# BcmServer.Offline.Register — which offline server is asked

An offline server subscribes to a channel whose name is its address and its push types. The
other servers ask redis for such channels every five seconds, and take the names apart. Who
has a notification that an offline server is to send draws one of those that were listed for
its push type, by a counter that goes on with every draw.

`drawn_supports`: in every run in which servers come and go, redis names them in any order and
answers are lost, a server that is drawn was in the list and has the push type, and nothing
is drawn only if no server in the list has it.

No answer and an empty list leave the list as it was.
-/

namespace BcmServer.Offline

open Util Lts
open BcmServer.Group (ServiceConfig ChannelsReply)

/-- An offline server: where it is reached, and what it pushes -/
structure OfflineService where
  service : ServiceConfig
  config : OfflineServerConfig
deriving DecidableEq, Repr

/-- `kChannelPrefix` without the separator -/
def kChannelName : Bytes := ascii "offlinesvr".toList

namespace OfflineService

/-- `m_pushType` -/
def pushTypeText (s : OfflineService) : Bytes := [','.toUInt8].intercalate s.config.pushType

/-- The address of the first ip -/
def address (s : OfflineService) : Bytes :=
  ServiceConfig.address (s.service.ips.headD []) s.service.port

/-- `m_registerKeys`: the loop over the ips is left after the first one. -/
def registerKeys (s : OfflineService) : List Bytes :=
  if s.service.ips.isEmpty then []
  else [kChannelName ++ '_'.toUInt8 :: (s.address ++ '_'.toUInt8 :: s.pushTypeText)]

end OfflineService

/-- `OfflineServiceRegister`: a push type that is not found has no servers. -/
structure OfflineServiceRegister where
  pushOfflineSvrs : Bytes → List Bytes := fun _ => []
  iRoundRobin : UInt64 := 0

namespace OfflineServiceRegister

/-- The loop over the channels, with `tmpPushOfflineSvrs` and `tmpOfflineSrvs` -/
def addDescriptor (s : (Bytes → List Bytes) × List Bytes) (ipPortEnt : Bytes) :
    (Bytes → List Bytes) × List Bytes :=
  match ipPortEnt.splitOn '_'.toUInt8 with
  | _ :: ipport :: types :: _ =>
      if ipport ∈ s.2 then s
      else ((types.splitOn ','.toUInt8).foldl
        (fun m it => Function.update m it (m it ++ [ipport])) s.1, ipport :: s.2)
  | _ => s

/-- `updateOfflineServerList`, with the answer to `PUBSUB CHANNELS offlinesvr_*` -/
def updateOfflineServerList (r : OfflineServiceRegister) : ChannelsReply → OfflineServiceRegister
  | .failed => r
  | .channels serverDescList =>
      if serverDescList.isEmpty then r
      else { r with
        pushOfflineSvrs := (serverDescList.foldl addDescriptor (fun _ => [], [])).1 }

/-- `getRandomOfflineServerByType`, with the register afterwards -/
def getRandomOfflineServerByType (r : OfflineServiceRegister) (pushType : Bytes) :
    Bytes × OfflineServiceRegister :=
  let svrPush := r.pushOfflineSvrs pushType
  if pushType.isEmpty || svrPush.isEmpty then ([], r)
  else (svrPush.getD (r.iRoundRobin.toNat % svrPush.length) [],
    { r with iRoundRobin := r.iRoundRobin + 1 })

end OfflineServiceRegister

/-! ## Reading the channels -/

namespace OfflineService

/-- The separators are not in the ips and the push types. -/
structure WellFormed (s : OfflineService) : Prop where
  ips : s.service.ips ≠ []
  ip : ∀ ip ∈ s.service.ips, '_'.toUInt8 ∉ ip
  pushType : ∀ t ∈ s.config.pushType, t ≠ [] ∧ '_'.toUInt8 ∉ t ∧ ','.toUInt8 ∉ t

/-- What the server is listed as for a push type -/
def listing (s : OfflineService) (t : Bytes) : List Bytes :=
  (s.config.pushType.filter fun it => it = t).map fun _ => s.address

variable {s : OfflineService}

theorem mem_listing {t a : Bytes} : a ∈ s.listing t ↔ t ∈ s.config.pushType ∧ a = s.address := by
  rw [listing, List.mem_map]
  constructor
  · rintro ⟨it, hit, rfl⟩
    rw [List.mem_filter, decide_eq_true_eq] at hit
    exact ⟨hit.2 ▸ hit.1, rfl⟩
  · rintro ⟨ht, rfl⟩
    exact ⟨t, List.mem_filter.mpr ⟨ht, decide_eq_true rfl⟩, rfl⟩

theorem WellFormed.address (h : s.WellFormed) : '_'.toUInt8 ∉ s.address := by
  have hip : '_'.toUInt8 ∉ s.service.ips.headD [] := by
    cases hips : s.service.ips with
    | nil => exact List.not_mem_nil
    | cons ip ips => exact h.ip ip (hips ▸ List.mem_cons_self)
  have hport : '_'.toUInt8 ∉ intDecimal s.service.port :=
    notMem_intDecimal (by decide) (by decide) _
  intro hmem
  rcases List.mem_append.mp hmem with hmem | hmem
  · exact hip hmem
  · rcases List.mem_cons.mp hmem with heq | hmem
    · exact absurd heq (by decide)
    · exact hport hmem

theorem WellFormed.pushTypeText (h : s.WellFormed) : '_'.toUInt8 ∉ s.pushTypeText := by
  intro hmem
  rcases (mem_intercalate (by decide) _).mp hmem with ⟨t, ht, hmem⟩
  exact (h.pushType t ht).2.1 hmem

/-- The name of the channel is taken apart. -/
theorem WellFormed.splitOn_registerKeys (h : s.WellFormed) : ∃ key, s.registerKeys = [key] ∧
    key.splitOn '_'.toUInt8 = [kChannelName, s.address, s.pushTypeText] := by
  have hparts : ([ '_'.toUInt8].intercalate [kChannelName, s.address, s.pushTypeText]).splitOn
      '_'.toUInt8 = [kChannelName, s.address, s.pushTypeText] := by
    refine List.splitOn_intercalate _ ?_ (List.cons_ne_nil _ _)
    simp only [List.forall_mem_cons, List.not_mem_nil, false_imp_iff, implies_true, and_true]
    exact ⟨by decide, h.address, h.pushTypeText⟩
  refine ⟨_, by rw [registerKeys, if_neg (by simpa using h.ips)], ?_⟩
  simpa [List.intercalate] using hparts

end OfflineService

namespace OfflineServiceRegister

/-- The servers of a push type in the loop over the push types of a channel -/
theorem foldl_update (types : List Bytes) (m : Bytes → List Bytes) (ipport t : Bytes) :
    types.foldl (fun m it => Function.update m it (m it ++ [ipport])) m t =
      m t ++ (types.filter fun it => it = t).map fun _ => ipport := by
  induction types generalizing m with
  | nil => exact (List.append_nil _).symm
  | cons it types ih =>
      rw [List.foldl_cons, ih]
      rcases eq_or_ne it t with rfl | hne
      · rw [Function.update_self, List.filter_cons_of_pos (by simp), List.map_cons,
          List.append_assoc, List.singleton_append]
      · rw [Function.update_of_ne hne.symm, List.filter_cons_of_neg (by simpa using hne)]

variable {s : OfflineService}

/-- The channel of a server whose address is new -/
theorem addDescriptor_registerKeys (hs : s.WellFormed) {m : Bytes → List Bytes} {seen : List Bytes}
    (hnew : s.address ∉ seen) :
    ∃ m', s.registerKeys.foldl addDescriptor (m, seen) = (m', s.address :: seen) ∧
      ∀ t, t ≠ [] → m' t = m t ++ s.listing t := by
  rcases hs.splitOn_registerKeys with ⟨key, hkey, hsplit⟩
  rw [hkey, List.foldl_cons, List.foldl_nil, addDescriptor, hsplit]
  simp only
  rw [if_neg hnew]
  refine ⟨_, rfl, ?_⟩
  intro t ht
  rw [foldl_update, OfflineService.listing]
  congr 1
  -- without a push type the text is one empty push type
  rcases eq_or_ne s.config.pushType [] with hnil | hne
  · have htext : s.pushTypeText.splitOn ','.toUInt8 = [[]] := by
      rw [OfflineService.pushTypeText, hnil]
      rfl
    rw [htext, hnil, List.filter_cons_of_neg (by simpa using ht.symm)]
  · have htypes : s.pushTypeText.splitOn ','.toUInt8 = s.config.pushType :=
      List.splitOn_intercalate _ (fun t ht => (hs.pushType t ht).2.2) hne
    rw [htypes]

/-- The servers of a push type, when the channels were those of some servers -/
theorem foldl_addDescriptor {order : List OfflineService} (hwf : ∀ s ∈ order, s.WellFormed)
    (hnodup : (order.map OfflineService.address).Nodup) {m : Bytes → List Bytes}
    {seen : List Bytes} (hnew : ∀ s ∈ order, s.address ∉ seen) {t : Bytes} (ht : t ≠ []) :
    ((order.flatMap OfflineService.registerKeys).foldl addDescriptor (m, seen)).1 t =
      m t ++ order.flatMap fun s => s.listing t := by
  induction order generalizing m seen with
  | nil => exact (List.append_nil _).symm
  | cons s order ih =>
      rw [List.forall_mem_cons] at hwf hnew
      rw [List.map_cons, List.nodup_cons] at hnodup
      rcases addDescriptor_registerKeys (m := m) hwf.1 hnew.1 with ⟨m', hfold, hm'⟩
      rw [List.flatMap_cons, List.foldl_append, hfold, List.flatMap_cons]
      rw [ih hwf.2 hnodup.2, hm' t ht, List.append_assoc]
      intro s' hs' hmem
      rcases List.mem_cons.mp hmem with heq | hmem
      · exact hnodup.1 (heq ▸ List.mem_map_of_mem hs')
      · exact hnew.2 s' hs' hmem

/-- The register has the servers of a list, each with its push types. -/
def Lists (r : OfflineServiceRegister) (services : List OfflineService) : Prop :=
  ∀ t, t ≠ [] → ∀ a, a ∈ r.pushOfflineSvrs t ↔
    ∃ s ∈ services, t ∈ s.config.pushType ∧ a = s.address

theorem lists_update {order services : List OfflineService} (hperm : order.Perm services)
    (hwf : ∀ s ∈ services, s.WellFormed) (hnodup : (services.map OfflineService.address).Nodup)
    {r : OfflineServiceRegister} (hne : (order.flatMap OfflineService.registerKeys).isEmpty = false) :
    (r.updateOfflineServerList
      (.channels (order.flatMap OfflineService.registerKeys))).Lists services := by
  intro t ht a
  have hwf' : ∀ s ∈ order, s.WellFormed := fun s hs => hwf s (hperm.mem_iff.mp hs)
  have hnodup' : (order.map OfflineService.address).Nodup :=
    (hperm.map OfflineService.address).nodup_iff.mpr hnodup
  have hservers : ((order.flatMap OfflineService.registerKeys).foldl addDescriptor
      (fun _ => [], [])).1 t = [] ++ order.flatMap fun s => s.listing t :=
    foldl_addDescriptor hwf' hnodup' (by simp) ht
  rw [updateOfflineServerList, hne, if_neg Bool.false_ne_true]
  simp only
  rw [hservers, List.nil_append, List.mem_flatMap]
  constructor
  · rintro ⟨s, hs, ha⟩
    exact ⟨s, hperm.mem_iff.mp hs, OfflineService.mem_listing.mp ha⟩
  · rintro ⟨s, hs, ha⟩
    exact ⟨s, hperm.mem_iff.mpr hs, OfflineService.mem_listing.mpr ha⟩

end OfflineServiceRegister

/-! ## Runs -/

/-- What was drawn, and the servers in the list -/
structure DrawnServer where
  pushType : Bytes
  address : Bytes
  listed : List OfflineService

/-- The servers that have subscribed to their channels, the register of another server, and
what it has drawn -/
structure OfflineRegistry where
  services : List OfflineService := []
  register : OfflineServiceRegister := {}
  listed : List OfflineService := []
  drawn : List DrawnServer := []

/-- A server comes up at an address that is free, or goes away; redis names the channels in some
order, or does not answer; a server is drawn. -/
inductive RegistryEvent where
  | subscribe (s : OfflineService)
  | unsubscribe (address : Bytes)
  | update (order : List OfflineService)
  | updateFailed
  | draw (pushType : Bytes)

namespace OfflineRegistry

def step (g : OfflineRegistry) : RegistryEvent → Option OfflineRegistry
  | .subscribe s =>
      if s.address ∈ g.services.map OfflineService.address then none
      else some { g with services := s :: g.services }
  | .unsubscribe address =>
      some { g with services := g.services.filter fun s => s.address ≠ address }
  | .update order =>
      if order.Perm g.services then
        let channels := order.flatMap OfflineService.registerKeys
        some { g with
          register := g.register.updateOfflineServerList (.channels channels)
          listed := if channels.isEmpty then g.listed else g.services }
      else none
  | .updateFailed => some { g with register := g.register.updateOfflineServerList .failed }
  | .draw pushType =>
      let r := g.register.getRandomOfflineServerByType pushType
      some { g with
        register := r.2
        drawn := ⟨pushType, r.1, g.listed⟩ :: g.drawn }

def machine : Machine OfflineRegistry RegistryEvent := ⟨step⟩

end OfflineRegistry

/-- The server that was drawn, if there was one, is in the list and has the push type. -/
def DrawnServer.Supports (d : DrawnServer) : Prop :=
  (d.address ≠ [] → ∃ s ∈ d.listed, s.address = d.address ∧ d.pushType ∈ s.config.pushType) ∧
    (d.address = [] → d.pushType = [] ∨ ∀ s ∈ d.listed, d.pushType ∉ s.config.pushType)

namespace OfflineServiceRegister

variable {r : OfflineServiceRegister} {services : List OfflineService}

theorem supports_draw (h : r.Lists services) (pushType : Bytes) :
    DrawnServer.Supports ⟨pushType, (r.getRandomOfflineServerByType pushType).1, services⟩ := by
  rw [getRandomOfflineServerByType]
  rcases eq_or_ne pushType [] with rfl | hne
  · rw [List.isEmpty_nil, Bool.true_or, if_pos rfl]
    exact ⟨fun hnil => absurd rfl hnil, fun _ => Or.inl rfl⟩
  · cases hservers : r.pushOfflineSvrs pushType with
    | nil =>
        rw [List.isEmpty_nil, Bool.or_true, if_pos rfl]
        refine ⟨fun hnil => absurd rfl hnil, fun _ => Or.inr ?_⟩
        intro s hs ht
        have hmem := (h pushType hne s.address).mpr ⟨s, hs, ht, rfl⟩
        rw [hservers] at hmem
        exact List.not_mem_nil hmem
    | cons a l =>
        have hempty : pushType.isEmpty = false := by simpa using hne
        rw [hempty, if_neg (by simp)]
        simp only
        have hlt : r.iRoundRobin.toNat % (a :: l).length < (a :: l).length :=
          Nat.mod_lt _ (Nat.succ_pos _)
        have hmem : (a :: l).getD (r.iRoundRobin.toNat % (a :: l).length) [] ∈
            r.pushOfflineSvrs pushType := by
          rw [hservers, List.getD_eq_getElem?_getD, List.getElem?_eq_getElem hlt]
          exact List.getElem_mem hlt
        rcases (h pushType hne _).mp hmem with ⟨s, hs, ht, ha⟩
        refine ⟨fun _ => ⟨s, hs, ha.symm, ht⟩, ?_⟩
        intro hnil
        -- an address has a colon
        rw [ha] at hnil
        exact absurd hnil (by simp [OfflineService.address, ServiceConfig.address])

/-- The counter makes no difference to the list. -/
theorem Lists.draw (h : r.Lists services) (pushType : Bytes) :
    (r.getRandomOfflineServerByType pushType).2.Lists services := by
  unfold getRandomOfflineServerByType
  simp only
  split_ifs
  · exact h
  · exact h

end OfflineServiceRegister

namespace OfflineRegistry

/-- The invariant of the runs -/
structure Inv (g : OfflineRegistry) : Prop where
  services : ∀ s ∈ g.services, s.WellFormed
  nodup : (g.services.map OfflineService.address).Nodup
  lists : g.register.Lists g.listed
  drawn : ∀ d ∈ g.drawn, d.Supports

theorem inv_step {g g' : OfflineRegistry} (hg : Inv g) {event : RegistryEvent}
    (hwf : ∀ s, event = .subscribe s → s.WellFormed) (hstep : g.step event = some g') : Inv g' := by
  cases event with
  | subscribe s =>
      simp only [step] at hstep
      split_ifs at hstep with hfree
      cases hstep
      refine ⟨?_, ?_, hg.lists, hg.drawn⟩
      · rw [List.forall_mem_cons]
        exact ⟨hwf s rfl, hg.services⟩
      · rw [List.map_cons, List.nodup_cons]
        exact ⟨hfree, hg.nodup⟩
  | unsubscribe address =>
      cases hstep
      have hsub : (g.services.filter fun s => s.address ≠ address).Sublist g.services :=
        List.filter_sublist
      exact ⟨fun s hs => hg.services s (hsub.subset hs),
        hg.nodup.sublist (hsub.map OfflineService.address), hg.lists, hg.drawn⟩
  | update order =>
      simp only [step] at hstep
      split at hstep
      · rename_i hperm
        cases hstep
        refine ⟨hg.services, hg.nodup, ?_, hg.drawn⟩
        cases hempty : (order.flatMap OfflineService.registerKeys).isEmpty with
        | true =>
            simp only [OfflineServiceRegister.updateOfflineServerList, hempty, if_true]
            exact hg.lists
        | false =>
            simp only [Bool.false_eq_true, if_false]
            exact OfflineServiceRegister.lists_update hperm hg.services hg.nodup hempty
      · cases hstep
  | updateFailed =>
      cases hstep
      exact hg
  | draw pushType =>
      cases hstep
      refine ⟨hg.services, hg.nodup, hg.lists.draw pushType, ?_⟩
      rw [List.forall_mem_cons]
      exact ⟨OfflineServiceRegister.supports_draw hg.lists pushType, hg.drawn⟩

/-- In every run: a server that was drawn was in the list at that time and has the push type, and
where none was drawn no server in the list has it. -/
theorem drawn_supports {events : List RegistryEvent} {g : OfflineRegistry}
    (hwf : ∀ s, .subscribe s ∈ events → s.WellFormed) (hrun : machine.run {} events = some g) :
    ∀ d ∈ g.drawn, d.Supports := by
  have hstart : Inv {} := by
    refine ⟨by simp, by simp, ?_, by simp⟩
    intro t _ a
    simp
  have hmeets : machine.Meets (fun _ event => ∀ s, event = .subscribe s → s.WellFormed) {} events := by
    refine machine.meets_of_mem ?_ {}
    rintro event hevent s rfl
    exact hwf s hevent
  refine (machine.run_invariant Inv ?_ hstart hmeets hrun).drawn
  intro g event g' hg hok hstep
  exact inv_step hg hok hstep

/-- A server for iOS and one for Android -/
def iosService : OfflineService :=
  ⟨⟨[ascii "10.0.0.1".toList], 9000⟩, ⟨true, [TYPE_SYSTEM_PUSH_APNS]⟩⟩

def androidService : OfflineService :=
  ⟨⟨[ascii "10.0.0.2".toList], 9000⟩, ⟨true, [TYPE_SYSTEM_PUSH_FCM, TYPE_SYSTEM_PUSH_UMENG]⟩⟩

theorem wellFormed_iosService : iosService.WellFormed := ⟨by decide, by decide, by decide⟩

theorem wellFormed_androidService : androidService.WellFormed := ⟨by decide, by decide, by decide⟩

/-- The second server goes away when it has been drawn. -/
def comesAndGoes : List RegistryEvent :=
  [.subscribe iosService, .draw TYPE_SYSTEM_PUSH_APNS, .subscribe androidService,
    .update [iosService, androidService], .draw TYPE_SYSTEM_PUSH_FCM,
    .unsubscribe androidService.address, .update [iosService], .draw TYPE_SYSTEM_PUSH_FCM]

theorem drawn_supports_twice : ∃ g, machine.run {} comesAndGoes = some g ∧
    g.drawn.map DrawnServer.address = [[], androidService.address, []] ∧
      ∀ d ∈ g.drawn, d.Supports := by
  have hdrawn : (machine.run {} comesAndGoes).map (fun g => g.drawn.map DrawnServer.address) =
      some [[], androidService.address, []] := by decide +kernel
  rcases Option.map_eq_some_iff.mp hdrawn with ⟨g, hrun, hdrawn⟩
  refine ⟨g, hrun, hdrawn, drawn_supports ?_ hrun⟩
  intro s hs
  have hs : s = iosService ∨ s = androidService := by simpa [comesAndGoes] using hs
  rcases hs with rfl | rfl
  · exact wellFormed_iosService
  · exact wellFormed_androidService

end OfflineRegistry

end BcmServer.Offline
