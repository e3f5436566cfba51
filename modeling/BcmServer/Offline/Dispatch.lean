import BcmServer.Http.Url
import BcmServer.Offline.GroupPost
import BcmServer.Offline.WireNotification

/-!
# BcmServer.Offline.Dispatch — notifications that an offline server is asked to send

A notification is put to an offline server that is drawn for its push type. The request goes to
the host and the port that are in the URL, which is made of the address that the server is
listed with. The server reads the notifications in the body, and sends those whose push type
it has.

`dispatched_once`: in every run in which servers come and go and redis names them late or not at
all, a notification is sent at most once, as it was made and by its own push type. As long as
the servers in the list that have the push type are up, it is sent unless there are none.
-/

namespace BcmServer.Offline

open Util Lts Http
open BcmServer.Group (ServiceConfig)

/-- `kOfflineNotificationsUrl` -/
def kOfflineNotificationsUrl : Bytes := ascii "/v1/offline/notifications".toList

/-! ## The request -/

/-- `HttpPut`, with its body -/
structure HttpPut where
  url : HttpUrl
  contentType : Bytes
  body : Bytes

/-- What is sent, where to, and whether over TLS -/
structure HttpRequest where
  secure : Bool
  host : Bytes
  port : ℤ
  target : Bytes
  contentType : Bytes
  body : Bytes

/-- `process`: nothing is sent if the URL is invalid, or `port` throws. -/
def HttpPut.process (put : HttpPut) : Option HttpRequest :=
  if put.url.invalid then none
  else if put.url.protocol = ascii "https".toList ∨ put.url.protocol = ascii "http".toList then
    put.url.portNumber.map fun port =>
      { secure := put.url.protocol = ascii "https".toList
        host := put.url.host
        port := port
        target := put.url.path ++ put.url.query
        contentType := put.contentType
        body := put.body }
  else none

/-- `to_json` of `push::Notifications` -/
def notificationsJson (notifications : List WireNotification) : Json :=
  .object [("notifications", .array (notifications.map fun n => n.toJson.mapOrder))]

/-- `from_json` of `push::Notifications` -/
def notificationsOfJson (j : Json) : Except JsonError (List WireNotification) :=
  j.toGeneric (Json.getList WireNotification.ofJson) "notifications"

section Dispatch

-- `toPrintable` throws for what is no UTF-8
variable (toPrintable : Json → Option Bytes) (parse : Bytes → Except JsonError Json)

/-- `OfflineDispatcher::dispatch`: the request that is made, with the register afterwards -/
def OfflineServiceRegister.dispatch (r : OfflineServiceRegister) (pushType : Bytes)
    (notifications : List WireNotification) : Option HttpRequest × OfflineServiceRegister :=
  let (dispatchAddress, r) := r.getRandomOfflineServerByType pushType
  if dispatchAddress.isEmpty then (none, r)
  else
    let url := HttpUrl.ofString
      (ascii "https://".toList ++ dispatchAddress ++ kOfflineNotificationsUrl)
    ((toPrintable (notificationsJson notifications)).bind fun body =>
      HttpPut.process ⟨url, ascii "application/json".toList, body⟩, r)

/-- `OfflinePushController::dispatchNotifications`: what is sent of a body -/
def PushServer.dispatchNotifications (srv : PushServer) (body : Bytes) :
    List (Bytes × WireNotification) :=
  match parse body >>= notificationsOfJson with
  | .error _ => []
  | .ok notifications =>
      if !srv.config.isPush then []
      else notifications.filterMap fun n =>
        let pushType := n.getPushType srv.numbers
        if srv.config.checkPushType pushType then some (pushType, n) else none

/-- What becomes of a request: the server at its host and port has a route for the target. -/
def HttpRequest.delivered (numbers : ProtoNumbers) (services : List OfflineService)
    (req : HttpRequest) : List (Bytes × WireNotification) :=
  match serverAt numbers services (ServiceConfig.address req.host req.port) with
  | none => []
  | some srv =>
      if req.target = kOfflineNotificationsUrl then srv.dispatchNotifications parse req.body else []

end Dispatch

/-! ## Runs -/

/-- A notification that was dispatched, the servers in the list and those that were up, and
what was sent -/
structure Dispatched where
  notification : WireNotification
  listed : List OfflineService
  up : List OfflineService
  delivered : List (Bytes × WireNotification)

structure OfflinePushes where
  registry : OfflineRegistry := {}
  log : List Dispatched := []

/-- What happens to the servers and their register, and a notification that is made -/
inductive OfflinePushEvent where
  | registry (event : RegistryEvent)
  | dispatch (notification : WireNotification)

namespace OfflinePushes

variable (toPrintable : Json → Option Bytes) (parse : Bytes → Except JsonError Json)
  (numbers : ProtoNumbers)

/-- A notification without a push type is not dispatched by those who make it. -/
def step (g : OfflinePushes) : OfflinePushEvent → Option OfflinePushes
  | .registry event => (g.registry.step event).map fun registry => { g with registry := registry }
  | .dispatch n =>
      if (n.getPushType numbers).isEmpty then some g
      else
        let (req, register) := g.registry.register.dispatch toPrintable (n.getPushType numbers) [n]
        some {
          registry := { g.registry with register := register }
          log := ⟨n, g.registry.listed, g.registry.services,
            req.elim [] fun req => req.delivered parse numbers g.registry.services⟩ :: g.log }

def machine : Machine OfflinePushes OfflinePushEvent := ⟨step toPrintable parse numbers⟩

end OfflinePushes

/-- What is relied on of JSON texts -/
def Prints (toPrintable : Json → Option Bytes) (parse : Bytes → Except JsonError Json) : Prop :=
  ∀ j : Json, j.Storable → ∃ text, toPrintable j = some text ∧ parse text = .ok j

/-- The address of a server can be a part of a URL, and the server sends what it is asked to. -/
structure OfflineService.Reachable (s : OfflineService) : Prop where
  ip : ∀ c ∈ s.service.ips.headD [], c ∉ ascii [':', '/', '?', '#'] ∧ c ≠ 0
  noBracket : (s.service.ips.headD []).head? ≠ some '['.toUInt8
  port : 0 ≤ s.service.port ∧ s.service.port < 2 ^ 31
  isPush : s.config.isPush = true

/-- A notification is sent as it was made and at most once, and not at all only if no server in
the list has its push type, or one that has is not up any more. -/
structure Dispatched.Right (numbers : ProtoNumbers) (d : Dispatched) : Prop where
  once : d.delivered = [] ∨
    d.delivered = [(d.notification.getPushType numbers, d.notification)]
  sent : (∀ s ∈ d.listed, d.notification.getPushType numbers ∈ s.config.pushType → s ∈ d.up) →
    (d.delivered = [] ↔ ∀ s ∈ d.listed, d.notification.getPushType numbers ∉ s.config.pushType)

/-! ## One notification -/

namespace OfflineService

variable {s : OfflineService}

/-- The parts of the URL -/
def urlParts (s : OfflineService) : UrlParts where
  protocol := ascii "https".toList
  host := s.service.ips.headD []
  port := some (intDecimal s.service.port)
  path := some kOfflineNotificationsUrl

theorem Reachable.decimal_port (h : s.Reachable) :
    intDecimal s.service.port = padded 0 s.service.port.toNat := by
  have hnat : s.service.port.natAbs = s.service.port.toNat := by
    have hport := h.port.1
    omega
  rw [intDecimal, if_neg (by have hport := h.port.1; omega), hnat]
  simp [padded]

theorem render_urlParts (s : OfflineService) :
    ascii "https://".toList ++ s.address ++ kOfflineNotificationsUrl = s.urlParts.render := by
  have hhttps : ascii "https://".toList = ascii "https".toList ++ ascii [':', '/', '/'] := by decide
  have hcolon : colon = ':'.toUInt8 := by decide
  rw [hhttps, address, ServiceConfig.address, hcolon]
  simp [UrlParts.render, urlParts, UrlParts.hostText, UrlParts.marked]

theorem Reachable.wellFormed_urlParts (h : s.Reachable) : s.urlParts.WellFormed where
  protocol := by
    show ':'.toUInt8 ∉ ascii "https".toList
    decide
  host c hc := (h.ip c hc).1
  noBracket _ := h.noBracket
  port := by
    intro port hport
    cases hport
    rcases padded_eq_map 0 s.service.port.toNat with ⟨digits, hdigits, hne, hlt, -⟩
    rw [h.decimal_port, hdigits]
    refine ⟨by simpa using hne, ?_⟩
    rw [List.all_map, List.all_eq_true]
    exact fun d hd => isDigit_digitByte (hlt d hd)
  path := by
    intro path hpath
    cases hpath
    exact ⟨by decide, by decide +kernel, forall_mem_of_all (by decide)⟩
  query := by
    intro query hquery
    cases hquery

theorem Reachable.zero_notMem (h : s.Reachable) : 0 ∉ s.urlParts.render := by
  have hport : (0 : UInt8) ∉ intDecimal s.service.port :=
    notMem_intDecimal (by decide) (by decide) _
  have hip : (0 : UInt8) ∉ s.service.ips.headD [] := fun hmem => (h.ip 0 hmem).2 rfl
  have hhttps : (0 : UInt8) ∉ ascii "https://".toList := by decide
  have hpath : (0 : UInt8) ∉ kOfflineNotificationsUrl := by decide
  have hcolon : (0 : UInt8) ≠ colon := by decide
  rw [← render_urlParts, address, ServiceConfig.address]
  simp only [List.mem_append, List.mem_cons, not_or]
  exact ⟨⟨hhttps, hip, hcolon, hport⟩, hpath⟩

theorem Reachable.portNumber (h : s.Reachable) :
    s.urlParts.url.portNumber = some s.service.port := by
  have hne : (intDecimal s.service.port).isEmpty = false := by
    rcases padded_eq_map 0 s.service.port.toNat with ⟨digits, hdigits, hne, -, -⟩
    rw [h.decimal_port, hdigits]
    simpa using hne
  have hnat : (s.service.port.toNat : ℤ) = s.service.port := Int.toNat_of_nonneg h.port.1
  have hport : s.urlParts.url.port = intDecimal s.service.port := rfl
  rw [HttpUrl.portNumber, hport, hne, Bool.not_false, if_pos rfl, h.decimal_port, stoi,
    readInt_padded, hnat, Option.filter_some, if_pos]
  have hrange := h.port
  simp only [Bool.and_eq_true, decide_eq_true_eq]
  omega

/-- The request to a server with a body -/
def request (s : OfflineService) (body : Bytes) : HttpRequest where
  secure := true
  host := s.service.ips.headD []
  port := s.service.port
  target := kOfflineNotificationsUrl
  contentType := ascii "application/json".toList
  body := body

/-- The request goes to the server whose address is in the URL. -/
theorem Reachable.process (h : s.Reachable) (body : Bytes) :
    HttpPut.process ⟨HttpUrl.ofString (ascii "https://".toList ++ s.address ++
      kOfflineNotificationsUrl), ascii "application/json".toList, body⟩ = some (s.request body) := by
  have hprotocol : s.urlParts.url.protocol = ascii "https".toList := by
    show (ascii "https".toList).map toLower = ascii "https".toList
    decide
  have htarget : s.urlParts.url.path ++ s.urlParts.url.query = kOfflineNotificationsUrl :=
    List.append_nil _
  have hinvalid : s.urlParts.url.invalid = false := rfl
  rw [render_urlParts, UrlParts.ofString_render h.wellFormed_urlParts h.zero_notMem, HttpPut.process]
  simp only [hinvalid, hprotocol, htarget, h.portNumber, Bool.false_eq_true, if_false, true_or,
    if_true, Option.map_some, decide_true]
  rfl

end OfflineService

section Sent

variable {toPrintable : Json → Option Bytes} {parse : Bytes → Except JsonError Json}
  {numbers : ProtoNumbers} {n : WireNotification} {services : List OfflineService}

theorem storable_notificationsJson (h : n.Sendable) : (notificationsJson [n]).Storable := by
  have harray : (Json.array ([n].map fun n => n.toJson.mapOrder)).Storable := by
    refine .array ?_
    intro j hj
    rw [List.mem_singleton.mp hj]
    exact WireNotification.storable_toJson h
  refine .of_keys (List.pairwise_singleton _ _) ?_
  intro f hf
  rw [List.mem_singleton.mp hf]
  exact harray

theorem notificationsOfJson_singleton (h : n.Sendable) :
    notificationsOfJson (notificationsJson [n]) = .ok [n] := by
  simp [notificationsOfJson, notificationsJson, Json.toGeneric, Json.at_, Json.getList,
    WireNotification.ofJson_mapOrder h.noColon, bind, Except.bind, pure, Except.pure]

/-- A server sends what it reads, if it has the push type. -/
theorem dispatchNotifications_singleton (h : n.Sendable) {body : Bytes}
    (hbody : parse body = .ok (notificationsJson [n])) {srv : PushServer}
    (hpush : srv.config.isPush = true) :
    srv.dispatchNotifications parse body =
      if srv.config.checkPushType (n.getPushType srv.numbers) then [(n.getPushType srv.numbers, n)]
      else [] := by
  have hread : (parse body >>= notificationsOfJson) = .ok [n] := by
    rw [hbody, ← notificationsOfJson_singleton h]
    simp only [bind, Except.bind]
  unfold PushServer.dispatchNotifications
  simp only [hread, hpush, Bool.not_true, Bool.false_eq_true, if_false, List.filterMap_cons,
    List.filterMap_nil]
  split_ifs
  · rfl
  · rfl

/-- A notification that is dispatched goes to a server in the list that has its push type, or
there is none. -/
theorem dispatch_cases (hprints : Prints toPrintable parse) (h : n.Sendable)
    {r : OfflineServiceRegister} (hlists : r.Lists services)
    (hreachable : ∀ s ∈ services, s.Reachable) {t : Bytes} (ht : t ≠ []) :
    ((r.dispatch toPrintable t [n]).1 = none ∧ ∀ s ∈ services, t ∉ s.config.pushType) ∨
      ∃ s ∈ services, t ∈ s.config.pushType ∧ ∃ body,
        (r.dispatch toPrintable t [n]).1 = some (s.request body) ∧
          parse body = .ok (notificationsJson [n]) := by
  have hsupports := OfflineServiceRegister.supports_draw hlists t
  rw [OfflineServiceRegister.dispatch]
  simp only
  rcases eq_or_ne (r.getRandomOfflineServerByType t).1 [] with hnone | hsome
  · left
    rw [hnone]
    exact ⟨rfl, (hsupports.2 hnone).resolve_left ht⟩
  · right
    rcases hsupports.1 hsome with ⟨s, hs, haddress, hts⟩
    rcases hprints _ (storable_notificationsJson h) with ⟨body, hbody, hparse⟩
    have haddress : (r.getRandomOfflineServerByType t).1 = s.address := haddress.symm
    have hempty : s.address.isEmpty = false := by
      rw [haddress] at hsome
      simpa using hsome
    refine ⟨s, hs, hts, body, ?_, hparse⟩
    rw [haddress, hempty, hbody]
    exact (hreachable s hs).process body

/-- Whatever server is at the address sends the notification or nothing. -/
theorem delivered_request (h : n.Sendable) (hreachable : ∀ s ∈ services, s.Reachable) {body : Bytes}
    (hbody : parse body = .ok (notificationsJson [n])) (s : OfflineService) :
    (s.request body).delivered parse numbers services =
      (services.find? fun s' => s'.address = s.address).elim [] fun s' =>
        if s'.config.checkPushType (n.getPushType numbers) then [(n.getPushType numbers, n)]
        else [] := by
  have haddress : ServiceConfig.address (s.request body).host (s.request body).port = s.address := rfl
  rw [HttpRequest.delivered, haddress, serverAt]
  cases hfind : services.find? fun s' => s'.address = s.address with
  | none => rfl
  | some s' =>
      have hpush := (hreachable s' (List.mem_of_find?_eq_some hfind)).isPush
      have htarget : (s.request body).target = kOfflineNotificationsUrl := rfl
      simp only [Option.map_some, htarget, if_true]
      exact dispatchNotifications_singleton h hbody hpush

end Sent

/-! ## All notifications -/

/-- What holds of the servers that come up holds of those that are up, and of those in the list. -/
theorem OfflineRegistry.forall_step {P : OfflineService → Prop} {g g' : OfflineRegistry}
    {event : RegistryEvent} (hup : ∀ s ∈ g.services, P s) (hlisted : ∀ s ∈ g.listed, P s)
    (hevent : ∀ s, event = .subscribe s → P s) (hstep : g.step event = some g') :
    (∀ s ∈ g'.services, P s) ∧ ∀ s ∈ g'.listed, P s := by
  cases event with
  | subscribe s =>
      simp only [OfflineRegistry.step] at hstep
      split_ifs at hstep
      cases hstep
      rw [List.forall_mem_cons]
      exact ⟨⟨hevent s rfl, hup⟩, hlisted⟩
  | unsubscribe address =>
      cases hstep
      exact ⟨fun s hs => hup s (List.mem_of_mem_filter hs), hlisted⟩
  | update order =>
      simp only [OfflineRegistry.step] at hstep
      split_ifs at hstep
      · cases hstep
        exact ⟨hup, hlisted⟩
      · cases hstep
        exact ⟨hup, hup⟩
  | updateFailed =>
      cases hstep
      exact ⟨hup, hlisted⟩
  | draw pushType =>
      cases hstep
      exact ⟨hup, hlisted⟩

/-- Servers that come up are well formed and can be reached, and notifications can be sent. -/
def OfflinePushEvent.Fits : OfflinePushEvent → Prop
  | .registry event => ∀ s, event = .subscribe s → s.WellFormed ∧ s.Reachable
  | .dispatch n => n.Sendable

namespace OfflinePushes

variable {toPrintable : Json → Option Bytes} {parse : Bytes → Except JsonError Json}
  {numbers : ProtoNumbers}

/-- The invariant of the runs -/
structure Inv (numbers : ProtoNumbers) (g : OfflinePushes) : Prop where
  registry : OfflineRegistry.Inv g.registry
  up : ∀ s ∈ g.registry.services, s.Reachable
  listed : ∀ s ∈ g.registry.listed, s.Reachable
  log : ∀ d ∈ g.log, d.Right numbers

/-- A notification is dispatched as it should be. -/
theorem right_dispatch (hprints : Prints toPrintable parse) {g : OfflinePushes}
    (hg : Inv numbers g) {n : WireNotification} (h : n.Sendable) (ht : n.getPushType numbers ≠ []) :
    Dispatched.Right numbers ⟨n, g.registry.listed, g.registry.services,
      (g.registry.register.dispatch toPrintable (n.getPushType numbers) [n]).1.elim [] fun req =>
        req.delivered parse numbers g.registry.services⟩ := by
  rcases dispatch_cases hprints h hg.registry.lists hg.listed ht with
    ⟨hnone, hmissing⟩ | ⟨s, hs, hts, body, hreq, hbody⟩
  · rw [hnone, Option.elim_none]
    exact ⟨Or.inl rfl, fun _ => ⟨fun _ => hmissing, fun _ => rfl⟩⟩
  · rw [hreq, Option.elim_some, delivered_request h hg.up hbody]
    have hlisted : ¬ ∀ s ∈ g.registry.listed, n.getPushType numbers ∉ s.config.pushType :=
      fun hall => hall s hs hts
    -- the server that was drawn is up, if all of those are that have the push type
    have hfound : s ∈ g.registry.services →
        (g.registry.services.find? fun s' => s'.address = s.address) = some s := by
      intro hup
      have hsome : (g.registry.services.find? fun s' => s'.address = s.address).isSome :=
        List.find?_isSome.mpr ⟨s, hup, by simp⟩
      rcases Option.isSome_iff_exists.mp hsome with ⟨s', hs'⟩
      have haddress : s'.address = s.address := by simpa using List.find?_some hs'
      rw [hs', List.inj_on_of_nodup_map hg.registry.nodup (List.mem_of_find?_eq_some hs') hup haddress]
    have hcheck : s.config.checkPushType (n.getPushType numbers) = true := checkPushType_iff.mpr hts
    constructor
    · cases g.registry.services.find? fun s' => s'.address = s.address with
      | none => exact Or.inl rfl
      | some s' =>
          rw [Option.elim_some]
          split_ifs
          · exact Or.inr rfl
          · exact Or.inl rfl
    · intro hup
      rw [hfound (hup s hs hts), Option.elim_some, if_pos hcheck]
      exact ⟨fun hnil => absurd hnil (List.cons_ne_nil _ _), fun hall => absurd hall hlisted⟩

theorem inv_step (hprints : Prints toPrintable parse) {g g' : OfflinePushes} (hg : Inv numbers g)
    {event : OfflinePushEvent} (hevent : event.Fits)
    (hstep : g.step toPrintable parse numbers event = some g') : Inv numbers g' := by
  cases event with
  | registry event =>
      rcases Option.map_eq_some_iff.mp hstep with ⟨registry, hregistry, rfl⟩
      have hinv := OfflineRegistry.inv_step hg.registry (fun s hs => (hevent s hs).1) hregistry
      rcases OfflineRegistry.forall_step hg.up hg.listed (fun s hs => (hevent s hs).2) hregistry
        with ⟨hup, hlisted⟩
      exact ⟨hinv, hup, hlisted, hg.log⟩
  | dispatch n =>
      simp only [step] at hstep
      split_ifs at hstep with hempty
      · cases hstep
        exact hg
      · have ht : n.getPushType numbers ≠ [] := by simpa using hempty
        have hright := right_dispatch hprints hg hevent ht
        cases hstep
        refine ⟨⟨hg.registry.services, hg.registry.nodup, ?_, hg.registry.drawn⟩, hg.up, hg.listed, ?_⟩
        · have hregister : (g.registry.register.dispatch toPrintable (n.getPushType numbers) [n]).2 =
              (g.registry.register.getRandomOfflineServerByType (n.getPushType numbers)).2 := by
            simp only [OfflineServiceRegister.dispatch]
            split_ifs
            · rfl
            · rfl
          show (g.registry.register.dispatch toPrintable (n.getPushType numbers) [n]).2.Lists
            g.registry.listed
          rw [hregister]
          exact hg.registry.lists.draw _
        · rw [List.forall_mem_cons]
          exact ⟨hright, hg.log⟩

/-- In every run: a notification is sent at most once, as it was made and by a server that has its
push type. If the servers in the list that have the push type are up, it is sent unless there
are none. -/
theorem dispatched_once (hprints : Prints toPrintable parse) {events : List OfflinePushEvent}
    {g : OfflinePushes} (hevents : ∀ event ∈ events, event.Fits)
    (hrun : (machine toPrintable parse numbers).run {} events = some g) :
    ∀ d ∈ g.log, d.Right numbers := by
  have hstart : Inv numbers {} := by
    refine ⟨⟨by simp, by simp, ?_, by simp⟩, by simp, by simp, by simp⟩
    intro t _ a
    simp
  have hmeets : (machine toPrintable parse numbers).Meets (fun _ event => event.Fits) {} events :=
    (machine toPrintable parse numbers).meets_of_mem hevents {}
  refine ((machine toPrintable parse numbers).run_invariant (Inv numbers) ?_ hstart hmeets hrun).log
  intro g event g' hg hevent hstep
  exact inv_step hprints hg hevent hstep

open OfflineRegistry (iosService androidService wellFormed_iosService wellFormed_androidService)

/-- A phone with a token -/
def phone (ostype : UInt32) : Device where
  id := 1
  apnid := ascii "token".toList
  apntype := []
  voipapnid := []
  gcmid := ascii "token".toList
  umengid := []
  lastseentime := 0
  clientversion := ⟨ostype, [], 0, []⟩

/-- The notification of a message for it -/
def toPhone (ostype : UInt32) : WireNotification :=
  (WireNotification.ofStored (ascii "alice".toList) 1 ⟨ascii "bob".toList, 1⟩ (phone ostype)
    [] 0).toOption.getD {}

/-- The server for Android goes away, and is still in the list. -/
def twoPhones : List OfflinePushEvent :=
  [.registry (.subscribe iosService), .registry (.subscribe androidService),
    .registry (.update [iosService, androidService]), .dispatch (toPhone 1), .dispatch (toPhone 2),
    .registry (.unsubscribe androidService.address), .dispatch (toPhone 2)]

theorem sendable_toPhone (ostype : UInt32) : (toPhone ostype).Sendable := by
  have htoken : Utf8 (ascii "token".toList) := utf8_of_all (by decide)
  have hdevice : WireNotification.DeviceUtf8 (phone ostype) :=
    ⟨utf8_nil, htoken, utf8_nil, htoken, utf8_nil, utf8_nil, utf8_nil⟩
  have hsource : Utf8 (ascii "alice".toList) := utf8_of_all (by decide)
  have hcolon : colon ∉ (⟨ascii "bob".toList, 1⟩ : Dispatcher.DispatchAddress).uid := by decide
  have huid : Utf8 (⟨ascii "bob".toList, 1⟩ : Dispatcher.DispatchAddress).uid := utf8_of_all (by decide)
  have hmade := WireNotification.sendable_ofStored hsource 1 hcolon huid hdevice utf8_nil 0
  rcases hmade with ⟨n, hn, hsendable⟩
  rw [toPhone, hn]
  exact hsendable

theorem dispatched_once_twoPhones : ∃ g,
    (machine (fun j => some (JsonText.dump j)) JsonText.parse ⟨1, 1, 2⟩).run {} twoPhones = some g ∧
      g.log.map (fun d => d.delivered.length) = [0, 1, 1] ∧
      ∀ d ∈ g.log, d.Right ⟨1, 1, 2⟩ := by
  have hlog : ((machine (fun j => some (JsonText.dump j)) JsonText.parse ⟨1, 1, 2⟩).run {}
      twoPhones).map (fun g => g.log.map fun d => d.delivered.length) = some [0, 1, 1] := by
    decide +kernel
  rcases Option.map_eq_some_iff.mp hlog with ⟨g, hrun, hlog⟩
  have hprints : Prints (fun j => some (JsonText.dump j)) JsonText.parse :=
    fun j hj => ⟨_, rfl, JsonText.parse_dump j hj⟩
  refine ⟨g, hrun, hlog, dispatched_once hprints ?_ hrun⟩
  have hios : iosService.Reachable :=
    ⟨forall_mem_of_all (by decide), by decide, by decide, rfl⟩
  have handroid : androidService.Reachable :=
    ⟨forall_mem_of_all (by decide), by decide, by decide, rfl⟩
  simp only [twoPhones, List.forall_mem_cons, List.not_mem_nil, false_imp_iff, implies_true, and_true]
  refine ⟨?_, ?_, ?_, sendable_toPhone 1, sendable_toPhone 2, ?_, sendable_toPhone 2⟩
  · intro s hs
    cases hs
    exact ⟨wellFormed_iosService, hios⟩
  · intro s hs
    cases hs
    exact ⟨wellFormed_androidService, handroid⟩
  · intro s hs
    cases hs
  · intro s hs
    cases hs

end OfflinePushes

end BcmServer.Offline
