import BcmServer.Lts.Run
import Mathlib.Logic.Function.Basic

/-!
# BcmServer.Offline.MasterLease — which offline server runs the rounds

Each `MasterLeaseAgent` asks the lease service for the lease, and renews it half
a period after it got or renewed it. That it is the master is a flag of its own:
set when `getLease` succeeds, cleared when `renewLease` fails. The timer of the
offline server tests the flag and starts a round, which goes on in the worker
threads.

* `two_masters`: nothing clears the flag when the lease runs out at the service
  before the agent hears about it, and another agent gets the lease then.
* `at_most_one_master`: in every run whose steps are `Timely` there is at most
  one master and at most one server that runs a round.

The service gives the lease to one agent at a time, so it is enough that whoever
is active holds it, and not only until now (`Inv`).
-/

namespace BcmServer.Offline

open BcmServer.Lts

/-- `ProcessHARole` -/
inductive ProcessHARole where
  | undefined
  | master
  | slave
deriving DecidableEq, Repr

/-- A request to the lease service. -/
inductive LeaseRequest where
  | getLease
  | renewLease
deriving DecidableEq, Repr

/-- Where `MasterLeaseAgent::loop` is. -/
inductive LeaseStage where
  /-- a request is made and not executed yet -/
  | calling (request : LeaseRequest)
  /-- the service has executed it -/
  | served (request : LeaseRequest) (success : Bool)
  /-- before the role is set to `Master` -/
  | promote
  /-- before the role is set to `Slave` -/
  | demote
  /-- asleep until a time, before the next request -/
  | asleep (until' : ℕ) (next : LeaseRequest)
  /-- after `stop` -/
  | stopped
deriving DecidableEq, Repr

/-- The request under way. -/
def LeaseStage.pending : LeaseStage → List LeaseRequest
  | calling request => [request]
  | served _ _ | promote | demote | asleep _ _ | stopped => []

/-- Where the timer and the worker threads of the offline server are. -/
inductive RoundStage where
  | idle
  /-- past the test of `isMaster`, before `runRoundOfflinePush` -/
  | checked
  /-- some task of the round is not finished -/
  | running
deriving DecidableEq, Repr

/-- An offline server with its agent. -/
structure Server where
  /-- `m_currentRole` -/
  role : ProcessHARole
  stage : LeaseStage
  round : RoundStage
  /-- requests the agent has given up, which may still reach the service -/
  abandoned : List LeaseRequest
deriving DecidableEq, Repr

namespace Server

def initial : Server := ⟨.undefined, .calling .getLease, .idle, []⟩

/-- `MasterLeaseAgent::isMaster` -/
def isMaster (a : Server) : Bool := a.role = .master

/-- The server is the master, is about to be, or still works on a round. -/
def active (a : Server) : Bool := a.isMaster || a.stage = .promote || a.round ≠ .idle

end Server

/-- The lease of a key, with its holder and the time it runs out. -/
structure Lease where
  holder : ℕ
  expiry : ℕ
deriving DecidableEq, Repr

/-- The servers that share a lease, numbered, on one clock in milliseconds. -/
structure LeaseSystem where
  now : ℕ
  lease : Option Lease
  servers : ℕ → Server

/-- A step. -/
inductive LeaseLabel where
  | tick (ms : ℕ)
  /-- the service executes the request of an agent -/
  | serve (i : ℕ)
  /-- or one it has given up -/
  | serveLate (i k : ℕ)
  /-- the call of an agent returns, with the answer or an error -/
  | answer (i : ℕ) (ok : Bool)
  /-- the agent sets its role, or wakes up -/
  | proceed (i : ℕ)
  /-- `stop`, with whether the release reaches the service -/
  | stop (i : ℕ) (released : Bool)
  /-- the timer tests `isMaster` -/
  | check (i : ℕ)
  | startRound (i : ℕ)
  /-- the last task of a round is finished -/
  | endRound (i : ℕ)
deriving DecidableEq, Repr

namespace LeaseSystem

def initial : LeaseSystem := ⟨0, none, fun _ => .initial⟩

/-- The lease is free: nobody has it, or it has run out. -/
def free (s : LeaseSystem) : Bool := s.lease.all fun l => l.expiry ≤ s.now

/-- The agent holds the lease. -/
def holds (s : LeaseSystem) (i : ℕ) : Bool :=
  s.lease.any fun l => l.holder = i && s.now < l.expiry

/-- The service executes a request: whether it succeeds, and the lease after
it. -/
def execute (ttlMs : ℕ → ℕ) (s : LeaseSystem) (i : ℕ) (request : LeaseRequest) :
    Bool × Option Lease :=
  let success := match request with
    | .getLease => s.free
    | .renewLease => s.holds i
  (success, if success then some ⟨i, s.now + ttlMs i⟩ else s.lease)

def set (s : LeaseSystem) (i : ℕ) (a : Server) : LeaseSystem :=
  { s with servers := Function.update s.servers i a }

/-- What the loop does when a call returns. -/
def returned (s : LeaseSystem) (request : LeaseRequest) (success : Bool) (ttlMs : ℕ) :
    LeaseStage :=
  match request, success with
  | .getLease, true => .promote
  | .getLease, false => .asleep (s.now + 1000) .getLease
  | .renewLease, true => .asleep (s.now + ttlMs / 2) .renewLease
  | .renewLease, false => .demote

variable (ttlMs : ℕ → ℕ)

def step (s : LeaseSystem) : LeaseLabel → Option LeaseSystem
  | .tick ms => some { s with now := s.now + ms }
  | .serve i =>
      match (s.servers i).stage with
      | .calling request =>
          let (success, lease) := s.execute ttlMs i request
          some ({ s with lease := lease }.set i
            { s.servers i with stage := .served request success })
      | _ => none
  | .serveLate i k =>
      match (s.servers i).abandoned[k]? with
      | none => none
      | some request =>
          some ({ s with lease := (s.execute ttlMs i request).2 }.set i
            { s.servers i with abandoned := (s.servers i).abandoned.eraseIdx k })
  | .answer i ok =>
      match (s.servers i).stage with
      | .calling request =>
          -- the call fails before the service has executed it
          if ok then none
          else some (s.set i { s.servers i with
            stage := s.returned request false (ttlMs i)
            abandoned := (s.servers i).abandoned ++ [request] })
      | .served request success =>
          some (s.set i { s.servers i with
            stage := s.returned request (success && ok) (ttlMs i) })
      | _ => none
  | .proceed i =>
      match (s.servers i).stage with
      | .promote =>
          some (s.set i { s.servers i with
            role := .master
            stage := .asleep (s.now + ttlMs i / 2) .renewLease })
      | .demote =>
          some (s.set i { s.servers i with
            role := .slave
            stage := .asleep (s.now + 1000) .getLease })
      | .asleep until' request =>
          if until' ≤ s.now then some (s.set i { s.servers i with stage := .calling request })
          else none
      | _ => none
  | .stop i released =>
      some ({ s with lease := if released && s.holds i then none else s.lease }.set i
        { s.servers i with
          stage := .stopped
          abandoned := (s.servers i).abandoned ++ (s.servers i).stage.pending })
  | .check i =>
      if (s.servers i).isMaster && (s.servers i).round = .idle then
        some (s.set i { s.servers i with round := .checked })
      else none
  | .startRound i =>
      if (s.servers i).round = .checked then
        some (s.set i { s.servers i with round := .running })
      else none
  | .endRound i =>
      if (s.servers i).round = .running then some (s.set i { s.servers i with round := .idle })
      else none

def machine : Machine LeaseSystem LeaseLabel := ⟨step ttlMs⟩

/-! ## The condition -/

/-- The time does not pass the end of the lease of an active server, a lease is
heard of before it runs out, is renewed for some time, and is not given back by
`stop` while the server is active. -/
def timely (s : LeaseSystem) : LeaseLabel → Bool
  | .tick ms => s.lease.all fun l => !(s.servers l.holder).active || s.now + ms < l.expiry
  | .serve i =>
      match (s.servers i).stage with
      | .calling .renewLease => 0 < ttlMs i
      | _ => true
  | .serveLate i k => (s.servers i).abandoned[k]? ≠ some .renewLease || 0 < ttlMs i
  | .answer i ok =>
      match (s.servers i).stage with
      | .served .getLease true => !ok || s.holds i
      | _ => true
  | .stop i _ => !(s.servers i).active
  | .proceed _ | .check _ | .startRound _ | .endRound _ => true

def Timely (s : LeaseSystem) (l : LeaseLabel) : Prop := s.timely ttlMs l = true

instance (s : LeaseSystem) (l : LeaseLabel) : Decidable (s.Timely ttlMs l) :=
  inferInstanceAs (Decidable (s.timely ttlMs l = true))

/-! ## The invariant -/

/-- Who is active holds the lease. -/
def Inv (s : LeaseSystem) : Prop := ∀ i, (s.servers i).active = true → s.holds i = true

variable {ttlMs} {s : LeaseSystem} {i j : ℕ}

theorem holds_iff : s.holds i = true ↔ ∃ l, s.lease = some l ∧ l.holder = i ∧ s.now < l.expiry := by
  simp [holds, Option.any_eq_true]

/-- The lease has one holder. -/
theorem holds_unique (hi : s.holds i = true) (hj : s.holds j = true) : i = j := by
  obtain ⟨l, hl, rfl, -⟩ := holds_iff.mp hi
  obtain ⟨l', hl', rfl, -⟩ := holds_iff.mp hj
  rw [hl, Option.some.injEq] at hl'
  rw [hl']

theorem not_free_of_holds (h : s.holds i = true) : s.free = false := by
  obtain ⟨l, hl, -, hlt⟩ := holds_iff.mp h
  simp [free, hl, hlt]

theorem inv_initial : initial.Inv := by
  intro i h
  simp [initial, Server.initial, Server.active, Server.isMaster] at h

/-- One server changes, and the lease does not. -/
theorem Inv.set (h : s.Inv) {a : Server} (ha : a.active = true → s.holds i = true) :
    (s.set i a).Inv := by
  intro j hj
  show s.holds j = true
  by_cases hij : j = i
  · subst hij
    refine ha ?_
    simpa [LeaseSystem.set] using hj
  · refine h j ?_
    simpa [LeaseSystem.set, hij] using hj

/-- A server whose role and round stay as they are, and that is not about to be
the master, is active only if it was. -/
theorem Inv.setStage (h : s.Inv) {a : Server} (hrole : a.role = (s.servers i).role)
    (hround : a.round = (s.servers i).round) (hstage : a.stage ≠ .promote) :
    (s.set i a).Inv := by
  refine h.set fun ha => h i ?_
  simp only [Server.active, Server.isMaster, hrole, hround, hstage, Bool.or_eq_true,
    decide_eq_true_eq, or_false] at ha ⊢
  rcases ha with ha | ha
  · exact Or.inl (Or.inl ha)
  · exact Or.inr ha

/-- What the service executes takes the lease from nobody who is active. -/
theorem Inv.execute (h : s.Inv) (request : LeaseRequest)
    (hpos : request = .renewLease → 0 < ttlMs i) :
    ({ s with lease := (s.execute ttlMs i request).2 } : LeaseSystem).Inv := by
  intro j hj
  have hholds : s.holds j = true := h j hj
  cases request with
  | getLease =>
      -- a free lease means that nobody is active
      simp only [LeaseSystem.execute, not_free_of_holds hholds]
      exact hholds
  | renewLease =>
      cases hi : s.holds i with
      | false =>
          simp only [LeaseSystem.execute, hi]
          exact hholds
      | true =>
          obtain rfl : i = j := holds_unique hi hholds
          have hlt := hpos rfl
          simp only [LeaseSystem.execute, hi, if_true]
          rw [holds_iff]
          refine ⟨_, rfl, rfl, ?_⟩
          show s.now < s.now + ttlMs i
          omega

theorem inv_step {t : LeaseSystem} {l : LeaseLabel} (h : s.Inv) (hok : s.Timely ttlMs l)
    (hstep : s.step ttlMs l = some t) : t.Inv := by
  simp only [Timely] at hok
  cases l with
  | tick ms =>
      cases hstep
      intro j hj
      have hholds : s.holds j = true := h j hj
      obtain ⟨lease, hlease, hholder, -⟩ := holds_iff.mp hholds
      simp only [timely, hlease, Option.all_some, hholder] at hok
      rw [show (s.servers j).active = true from hj] at hok
      refine holds_iff.mpr ⟨lease, hlease, hholder, ?_⟩
      simpa using hok
  | serve i =>
      simp only [step] at hstep
      split at hstep
      · next request hstage =>
        cases hstep
        refine (h.execute request fun hr => ?_).setStage rfl rfl (by simp)
        subst hr
        simpa [timely, hstage] using hok
      · cases hstep
  | serveLate i k =>
      simp only [step] at hstep
      split at hstep
      · cases hstep
      · next request hrequest =>
        cases hstep
        have hexec := h.execute (i := i) request fun hr => by
          subst hr
          simpa [timely, hrequest] using hok
        refine hexec.set fun ha => hexec i ?_
        exact ha
  | answer i ok =>
      simp only [step] at hstep
      split at hstep
      · next request hstage =>
        split at hstep
        · cases hstep
        · cases hstep
          refine h.setStage rfl rfl ?_
          cases request <;> simp [returned]
      · next request success hstage =>
        cases hstep
        by_cases hgranted : request = .getLease ∧ (success && ok) = true
        · -- the lease has been granted and not run out since
          obtain ⟨rfl, hboth⟩ := hgranted
          obtain ⟨rfl, rfl⟩ := Bool.and_eq_true_iff.mp hboth
          refine h.set fun _ => ?_
          simpa [timely, hstage] using hok
        · refine h.setStage rfl rfl ?_
          cases request <;> cases hb : (success && ok) <;> simp_all [returned]
      · cases hstep
  | proceed i =>
      simp only [step] at hstep
      split at hstep
      · next hstage =>
        cases hstep
        -- who is about to be the master is active already
        refine h.set fun _ => h i ?_
        simp [Server.active, hstage]
      · next hstage =>
        cases hstep
        refine h.set fun ha => h i ?_
        simp only [Server.active, Server.isMaster, Bool.or_eq_true, decide_eq_true_eq] at ha ⊢
        rcases ha with (ha | ha) | ha
        · cases ha
        · cases ha
        · exact Or.inr ha
      · split at hstep
        · cases hstep
          exact h.setStage rfl rfl (by simp)
        · cases hstep
      · cases hstep
  | stop i released =>
      cases hstep
      simp only [timely, Bool.not_eq_true'] at hok
      -- what is given back was not the lease of somebody active
      have hkept : ({ s with lease := if released && s.holds i then none else s.lease } :
          LeaseSystem).Inv := by
        intro j hj
        have hholds : s.holds j = true := h j hj
        cases hi : s.holds i with
        | false =>
            simp only [Bool.and_false]
            exact hholds
        | true =>
            obtain rfl : i = j := holds_unique hi hholds
            rw [show (s.servers i).active = true from hj] at hok
            cases hok
      exact hkept.setStage rfl rfl (by simp)
  | check i =>
      simp only [step, Bool.and_eq_true] at hstep
      split at hstep
      · next hcheck =>
        cases hstep
        refine h.set fun _ => h i ?_
        simp [Server.active, hcheck.1]
      · cases hstep
  | startRound i =>
      simp only [step] at hstep
      split at hstep
      · next hround =>
        cases hstep
        refine h.set fun _ => h i ?_
        simp [Server.active, hround]
      · cases hstep
  | endRound i =>
      simp only [step] at hstep
      split at hstep
      · next hround =>
        cases hstep
        refine h.set fun _ => h i ?_
        simp [Server.active, hround]
      · cases hstep

theorem inv_run {ls : List LeaseLabel} (hok : (machine ttlMs).Meets (Timely ttlMs) initial ls)
    (hrun : (machine ttlMs).run initial ls = some s) : s.Inv :=
  (machine ttlMs).run_invariant Inv (fun _ _ _ hinv hok hstep => inv_step hinv hok hstep)
    inv_initial hok hrun

/-- At most one agent reports that it is the master, and at most one server runs
a round. -/
structure OneMaster (s : LeaseSystem) : Prop where
  master : ∀ i j, (s.servers i).isMaster = true → (s.servers j).isMaster = true → i = j
  round : ∀ i j, (s.servers i).round = .running → (s.servers j).round = .running → i = j

theorem Inv.oneMaster (h : s.Inv) : s.OneMaster where
  master i j hi hj := by
    refine holds_unique (h i ?_) (h j ?_)
    · simp [Server.active, hi]
    · simp [Server.active, hj]
  round i j hi hj := by
    refine holds_unique (h i ?_) (h j ?_)
    · simp [Server.active, hi]
    · simp [Server.active, hj]

end LeaseSystem

open LeaseSystem in
/-- In every run whose steps are timely there is at most one master, and at most
one server runs a round. -/
theorem at_most_one_master {ttlMs : ℕ → ℕ} {ls : List LeaseLabel} {s : LeaseSystem}
    (hok : (LeaseSystem.machine ttlMs).Meets (Timely ttlMs) .initial ls)
    (hrun : (LeaseSystem.machine ttlMs).run .initial ls = some s) : s.OneMaster :=
  (inv_run hok hrun).oneMaster

namespace LeaseSystem

/-- The first server becomes the master and runs a round, the second asks in
vain; a renewal of the first fails, its lease runs out, and the second becomes
the master. -/
def handOver : List LeaseLabel :=
  [.serve 0, .answer 0 true, .proceed 0, .check 0, .startRound 0, .serve 1, .answer 1 true,
    .tick 5000, .proceed 0, .serve 0, .answer 0 true, .endRound 0, .tick 5000, .proceed 0,
    .answer 0 false, .proceed 0, .tick 5000, .proceed 1, .serve 1, .answer 1 true, .proceed 1,
    .check 1, .startRound 1]

theorem at_most_one_master_handOver : ∃ s,
    (machine fun _ => 10000).run initial handOver = some s ∧
      ((s.servers 1).isMaster, (s.servers 1).round) = (true, .running) ∧ s.OneMaster := by
  have hview : ((machine fun _ => 10000).run initial handOver).map
      (fun s => ((s.servers 1).isMaster, (s.servers 1).round)) = some (true, .running) := by
    decide +kernel
  obtain ⟨s, hs, hv⟩ := Option.map_eq_some_iff.mp hview
  exact ⟨s, hs, hv, at_most_one_master (by decide +kernel) hs⟩

end LeaseSystem

/-- The lease runs out at the service while the first server is in a round, and
the second gets it. -/
theorem two_masters :
    ¬ ∀ (ttlMs : ℕ → ℕ) (ls : List LeaseLabel) (s : LeaseSystem),
      (LeaseSystem.machine ttlMs).run .initial ls = some s → s.OneMaster := by
  intro h
  have hview : ((LeaseSystem.machine fun _ => 10000).run .initial
      [.serve 0, .answer 0 true, .proceed 0, .check 0, .startRound 0, .tick 10000,
        .serve 1, .answer 1 true, .proceed 1, .check 1, .startRound 1]).map
      (fun s => ((s.servers 0).isMaster, (s.servers 1).isMaster)) = some (true, true) := by
    decide +kernel
  obtain ⟨s, hs, hv⟩ := Option.map_eq_some_iff.mp hview
  have h01 : (0 : ℕ) = 1 := (h _ _ s hs).master 0 1 (by simpa using congrArg Prod.fst hv)
    (by simpa using congrArg Prod.snd hv)
  cases h01

end BcmServer.Offline
