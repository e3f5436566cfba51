import BcmServer.Lts.Run
import BcmServer.Util.Keyed
import BcmServer.Util.Ordered
import Mathlib.Algebra.Order.BigOperators.Group.List

/-!
# BcmServer.Metrics.MixMetrics — reports that are counted

A report names a service, a topic, a duration and a return code. It waits in a queue
that may be bounded, and is then counted in a statistic, in the entry of its key, which
is the service and the topic joined by `_`. From time to time the statistic is
replaced by a new one and waits for its output, which gives a line for each return code
of each entry.

`reports_conserved`: no report that finds room in the queue is lost or counted twice, of
those of a key in every run, and of those of a service and topic in every run in which
entries are not shared. An entry is given out under the names of the report that made
it, and names have `_` in them, so that two services and topics may have one key.

Only the mix metrics are treated here, the counters and direct outputs in the same
queues are not.
-/

namespace BcmServer.Metrics

open Util Lts

/-- `ReportMetrics` of the type `MIX_METRICS` -/
structure ReportMetrics where
  serviceName : Bytes
  topic : Bytes
  retCode : Bytes
  duration : Int64
deriving DecidableEq, Repr

/-- What a report is counted as -/
structure Reported where
  serviceName : Bytes
  topic : Bytes
  retCode : Bytes
deriving DecidableEq, Repr

def ReportMetrics.reported (r : ReportMetrics) : Reported := ⟨r.serviceName, r.topic, r.retCode⟩

/-- `mixMetricsKey` -/
def mixMetricsKey (serviceName topic : Bytes) : Bytes := serviceName ++ '_'.toUInt8 :: topic

def ReportMetrics.key (r : ReportMetrics) : Bytes := mixMetricsKey r.serviceName r.topic

/-- A line that is given out -/
structure OutputLine where
  currentTimestampInMs : Int64
  serviceName : Bytes
  topic : Bytes
  appVersion : Bytes
  requestTimes : UInt64
  retCode : Bytes
  avgDuration : Int64
deriving DecidableEq, Repr

/-- The counter of a line -/
def OutputLine.counter (l : OutputLine) : Reported × UInt64 :=
  (⟨l.serviceName, l.topic, l.retCode⟩, l.requestTimes)

/-- The text of a line -/
def OutputLine.text (l : OutputLine) : Bytes :=
  [','.toUInt8].intercalate
    [ascii "mix".toList, intDecimal l.currentTimestampInMs.toInt, l.serviceName, l.topic,
      l.appVersion, decimal l.requestTimes.toNat, l.retCode, intDecimal l.avgDuration.toInt]

/-- The entries of a `std::map`, in the order of their keys -/
def inKeyOrder {α : Type} (key : α → Bytes) (l : List α) : List α :=
  l.mergeSort fun a b => bytesLe (key a) (key b)

/-- `MixMetrics` -/
structure MixMetrics where
  serviceName : Bytes
  topic : Bytes
  appVersion : Bytes
  currentTimestampInMs : Int64
  /-- `m_retCodeMap` -/
  retCodes : List (Bytes × UInt64) := []
  durations : List Int64 := []
deriving DecidableEq, Repr

namespace MixMetrics

def kMaxDurationsSize : ℕ := 5000

def key (m : MixMetrics) : Bytes := mixMetricsKey m.serviceName m.topic

/-- `MixMetrics::markDuration` -/
def markDuration (m : MixMetrics) (duration : Int64) : MixMetrics :=
  if kMaxDurationsSize ≤ m.durations.length then m
  else { m with durations := m.durations ++ [duration] }

/-- A return code is counted. -/
def markRetCode (m : MixMetrics) (retCode : Bytes) : MixMetrics :=
  if (Keyed.find Prod.fst retCode m.retCodes).isSome then
    { m with retCodes := Keyed.update Prod.fst retCode (fun c => (c.1, c.2 + 1)) m.retCodes }
  else { m with retCodes := m.retCodes ++ [(retCode, 1)] }

/-- The mean of the durations -/
def avgDuration (m : MixMetrics) : Int64 :=
  if m.durations.isEmpty then 0
  else m.durations.foldl (· + ·) 0 / Int64.ofNat m.durations.length

/-- `MixMetrics::getMetricsOutput` -/
def getMetricsOutput (m : MixMetrics) : List OutputLine :=
  (inKeyOrder Prod.fst m.retCodes).map fun c =>
    { currentTimestampInMs := m.currentTimestampInMs
      serviceName := m.serviceName
      topic := m.topic
      appVersion := m.appVersion
      requestTimes := c.2
      retCode := c.1
      avgDuration := m.avgDuration }

/-- The counters of an entry -/
def counters (m : MixMetrics) : List (Reported × UInt64) :=
  m.retCodes.map fun c => (⟨m.serviceName, m.topic, c.1⟩, c.2)

end MixMetrics

/-- `MetricsStatistic`, the mix metrics -/
structure MetricsStatistic where
  currentTimestampInMs : Int64
  mixMetrics : List MixMetrics := []
deriving DecidableEq, Repr

namespace MetricsStatistic

/-- `handleMixReportMetrics` -/
def handleMixReportMetrics (s : MetricsStatistic) (appVersion : Bytes) (r : ReportMetrics) :
    MetricsStatistic :=
  match Keyed.find MixMetrics.key r.key s.mixMetrics with
  | none =>
      let m : MixMetrics :=
        { serviceName := r.serviceName
          topic := r.topic
          appVersion := appVersion
          currentTimestampInMs := s.currentTimestampInMs
          retCodes := [(r.retCode, 1)] }
      { s with mixMetrics := s.mixMetrics ++ [m.markDuration r.duration] }
  | some _ =>
      let mark (m : MixMetrics) : MixMetrics := (m.markDuration r.duration).markRetCode r.retCode
      { s with mixMetrics := Keyed.update MixMetrics.key r.key mark s.mixMetrics }

/-- The lines that are given out for a statistic -/
def output (s : MetricsStatistic) : List OutputLine :=
  (inKeyOrder MixMetrics.key s.mixMetrics).flatMap MixMetrics.getMetricsOutput

end MetricsStatistic

/-- `MetricsClient`, with the lines that were given out, and what was reported and dropped -/
structure MetricsClient where
  reportQueueSize : UInt32
  appVersion : Bytes
  reportQueue : List ReportMetrics := []
  statistic : MetricsStatistic
  statisticQueue : List MetricsStatistic := []
  outputs : List OutputLine := []
  made : List Reported := []
  dropped : List Reported := []

namespace MetricsClient

/-- `markMicrosecondAndRetCode`; a queue without a size takes everything. -/
def markMicrosecondAndRetCode (c : MetricsClient) (r : ReportMetrics) : MetricsClient :=
  if c.reportQueueSize ≠ 0 ∧ c.reportQueueSize.toNat ≤ c.reportQueue.length then
    { c with
      made := c.made ++ [r.reported]
      dropped := c.dropped ++ [r.reported] }
  else
    { c with
      made := c.made ++ [r.reported]
      reportQueue := c.reportQueue ++ [r] }

/-- One round of `handleMetricsReport` -/
def handleMetricsReport (c : MetricsClient) : Option MetricsClient :=
  match c.reportQueue with
  | [] => none
  | r :: rest =>
      some
        { c with
          reportQueue := rest
          statistic := c.statistic.handleMixReportMetrics c.appVersion r }

/-- One round of `resetMetricsStatistic` -/
def resetMetricsStatistic (c : MetricsClient) (nowInMilli : Int64) : MetricsClient :=
  { c with
    statisticQueue := c.statisticQueue ++ [c.statistic]
    statistic := { currentTimestampInMs := nowInMilli } }

/-- One round of `outputMetrics` -/
def outputMetrics (c : MetricsClient) : Option MetricsClient :=
  match c.statisticQueue with
  | [] => none
  | ms :: rest =>
      some
        { c with
          statisticQueue := rest
          outputs := c.outputs ++ ms.output }

/-- What the threads do -/
inductive Step where
  | report (r : ReportMetrics)
  | handle
  | reset (nowInMilli : Int64)
  | output
deriving DecidableEq, Repr

def machine : Machine MetricsClient Step where
  step c
    | .report r => some (c.markMicrosecondAndRetCode r)
    | .handle => c.handleMetricsReport
    | .reset nowInMilli => some (c.resetMetricsStatistic nowInMilli)
    | .output => c.outputMetrics

def start (reportQueueSize : UInt32) (appVersion : Bytes) (nowInMilli : Int64) : MetricsClient :=
  { reportQueueSize := reportQueueSize
    appVersion := appVersion
    statistic := { currentTimestampInMs := nowInMilli } }

end MetricsClient

/-! ## What is counted -/

section Tally

variable (P : Reported → Bool)

/-- How often something is counted -/
def tally (counters : List (Reported × UInt64)) : ℕ :=
  (counters.map fun c => if P c.1 then c.2.toNat else 0).sum

/-- How often it is counted in an entry -/
def MixMetrics.count (m : MixMetrics) : ℕ := tally P m.counters

/-- How often it is counted in a statistic -/
def MetricsStatistic.count (s : MetricsStatistic) : ℕ := (s.mixMetrics.map (MixMetrics.count P)).sum

namespace MetricsClient

/-- How often it was given out -/
def given (c : MetricsClient) : ℕ := tally P (c.outputs.map OutputLine.counter)

/-- How often it is still counted: in the statistic, in those that wait for their output, and in
the reports that wait -/
def live (c : MetricsClient) : ℕ :=
  c.statistic.count P + (c.statisticQueue.map (MetricsStatistic.count P)).sum +
    (c.reportQueue.map ReportMetrics.reported).countP P

/-- Every report was dropped, is still counted or was given out. -/
def Conserved (c : MetricsClient) : Prop :=
  c.given P + c.live P + c.dropped.countP P = c.made.countP P

instance (c : MetricsClient) : Decidable (c.Conserved P) := inferInstanceAs (Decidable (_ = _))

end MetricsClient

end Tally

/-- What is reported of one service and topic, with one return code -/
def Reported.is (T : Reported) : Reported → Bool := fun r => r = T

/-- What is reported of all services and topics that have one key -/
def ofKey (key retCode : Bytes) : Reported → Bool :=
  fun r => mixMetricsKey r.serviceName r.topic = key ∧ r.retCode = retCode

namespace MetricsClient

/-- The report that is counted does not find an entry of another service or topic. -/
def Separate (c : MetricsClient) : Step → Prop
  | .handle =>
      ∀ r ∈ c.reportQueue.head?, ∀ m ∈ Keyed.find MixMetrics.key r.key c.statistic.mixMetrics,
        m.serviceName = r.serviceName ∧ m.topic = r.topic
  | _ => True

instance (c : MetricsClient) : DecidablePred c.Separate
  | .handle => inferInstanceAs (Decidable (∀ r ∈ c.reportQueue.head?, ∀ m ∈ Keyed.find _ _ _, _))
  | .report _ => inferInstanceAs (Decidable True)
  | .reset _ => inferInstanceAs (Decidable True)
  | .output => inferInstanceAs (Decidable True)

end MetricsClient

/-! ## Counters -/

section Counters

variable {P : Reported → Bool}

theorem tally_append (as bs : List (Reported × UInt64)) :
    tally P (as ++ bs) = tally P as + tally P bs := by
  rw [tally, List.map_append, List.sum_append, tally, tally]

theorem tally_perm {as bs : List (Reported × UInt64)} (h : as.Perm bs) : tally P as = tally P bs :=
  (h.map _).sum_eq

theorem tally_flatMap {α : Type} (f : α → List (Reported × UInt64)) (l : List α) :
    tally P (l.flatMap f) = (l.map fun a => tally P (f a)).sum := by
  induction l with
  | nil => rfl
  | cons a l ih => rw [List.flatMap_cons, tally_append, ih, List.map_cons, List.sum_cons]

theorem inKeyOrder_perm {α : Type} (key : α → Bytes) (l : List α) : (inKeyOrder key l).Perm l :=
  List.mergeSort_perm l _

namespace MixMetrics

variable (m : MixMetrics)

/-- What a return code counts for in an entry -/
def share (P : Reported → Bool) (m : MixMetrics) (c : Bytes × UInt64) : ℕ :=
  if P ⟨m.serviceName, m.topic, c.1⟩ then c.2.toNat else 0

theorem count_eq_sum : m.count P = (m.retCodes.map (m.share P)).sum := by
  rw [count, tally, counters, List.map_map]
  rfl

theorem markDuration_fields (duration : Int64) :
    (m.markDuration duration).serviceName = m.serviceName ∧
      (m.markDuration duration).topic = m.topic ∧
      (m.markDuration duration).retCodes = m.retCodes := by
  unfold markDuration
  split <;> exact ⟨rfl, rfl, rfl⟩

theorem count_markDuration (duration : Int64) : (m.markDuration duration).count P = m.count P := by
  obtain ⟨hservice, htopic, hcodes⟩ := m.markDuration_fields duration
  rw [count, counters, hservice, htopic, hcodes, count, counters]

theorem counters_output : (m.getMetricsOutput.map OutputLine.counter).Perm m.counters := by
  rw [getMetricsOutput, List.map_map, counters]
  exact (inKeyOrder_perm Prod.fst m.retCodes).map _

/-- A counter that is not full goes up by one. -/
theorem share_succ {n : UInt64} {retCode : Bytes} (hn : n.toNat + 1 < 2 ^ 64) :
    m.share P (retCode, n + 1) =
      m.share P (retCode, n) + if P ⟨m.serviceName, m.topic, retCode⟩ then 1 else 0 := by
  have hsucc : (n + 1).toNat = n.toNat + 1 := by
    rw [UInt64.toNat_add, UInt64.toNat_one, Nat.mod_eq_of_lt hn]
  unfold share
  split
  · exact hsucc
  · rfl

/-- A counter is part of what is counted in its entry. -/
theorem toNat_le_count {c : Bytes × UInt64} (hc : c ∈ m.retCodes)
    (hP : P ⟨m.serviceName, m.topic, c.1⟩ = true) : c.2.toNat ≤ m.count P := by
  have hshare : m.share P c = c.2.toNat := by rw [share, if_pos hP]
  rw [count_eq_sum, ← hshare]
  exact List.le_sum_of_mem (List.mem_map_of_mem hc)

theorem count_markRetCode {retCode : Bytes}
    (hroom : ∀ c ∈ m.retCodes, c.1 = retCode → c.2.toNat + 1 < 2 ^ 64) :
    (m.markRetCode retCode).count P =
      m.count P + if P ⟨m.serviceName, m.topic, retCode⟩ then 1 else 0 := by
  rw [count_eq_sum, count_eq_sum]
  cases hfind : Keyed.find Prod.fst retCode m.retCodes with
  | none =>
      have hcodes : m.markRetCode retCode =
          { m with retCodes := m.retCodes ++ [(retCode, 1)] } := by
        rw [markRetCode, if_neg (by simp [hfind])]
      rw [hcodes, List.map_append, List.sum_append, List.map_singleton, List.sum_singleton]
      rfl
  | some c =>
      obtain ⟨code, n⟩ := c
      have hkey : code = retCode := Keyed.find_key hfind
      subst hkey
      have hmem : (code, n) ∈ m.retCodes := List.mem_of_find?_eq_some hfind
      have hcodes : m.markRetCode code =
          { m with
            retCodes := Keyed.update Prod.fst code (fun c => (c.1, c.2 + 1)) m.retCodes } := by
        rw [markRetCode, if_pos (by simp [hfind])]
      -- of the sum only the share of this counter changes
      have hsum := Keyed.sum_map_update hfind (fun c => (c.1, c.2 + 1)) (m.share P)
      have hshare : m.share P (code, n + 1) =
          m.share P (code, n) + if P ⟨m.serviceName, m.topic, code⟩ then 1 else 0 :=
        m.share_succ (hroom _ hmem rfl)
      change _ + m.share P (code, n) = _ + m.share P (code, n + 1) at hsum
      rw [hcodes]
      change ((Keyed.update _ _ _ m.retCodes).map (m.share P)).sum = _
      omega

end MixMetrics

namespace MetricsStatistic

variable (s : MetricsStatistic)

theorem count_le {m : MixMetrics} (hm : m ∈ s.mixMetrics) : m.count P ≤ s.count P :=
  List.le_sum_of_mem (List.mem_map_of_mem hm)

theorem tally_output : tally P (s.output.map OutputLine.counter) = s.count P := by
  rw [output, List.map_flatMap, tally_flatMap, count]
  calc
    _ = ((inKeyOrder MixMetrics.key s.mixMetrics).map (MixMetrics.count P)).sum := by
      congr 1
      exact List.map_congr_left fun m _ => tally_perm m.counters_output
    _ = (s.mixMetrics.map (MixMetrics.count P)).sum :=
      ((inKeyOrder_perm MixMetrics.key s.mixMetrics).map _).sum_eq

/-- A report is counted under its own names, if the entry it finds counts as one of them. -/
theorem count_handleMixReportMetrics {r : ReportMetrics} (appVersion : Bytes)
    (hagree : ∀ m ∈ Keyed.find MixMetrics.key r.key s.mixMetrics,
      P ⟨m.serviceName, m.topic, r.retCode⟩ = P r.reported)
    (hroom : ∀ m ∈ Keyed.find MixMetrics.key r.key s.mixMetrics, ∀ c ∈ m.retCodes,
      c.1 = r.retCode → c.2.toNat + 1 < 2 ^ 64) :
    (s.handleMixReportMetrics appVersion r).count P =
      s.count P + if P r.reported then 1 else 0 := by
  cases hfind : Keyed.find MixMetrics.key r.key s.mixMetrics with
  | none =>
      simp only [handleMixReportMetrics, hfind]
      rw [count, List.map_append, List.sum_append, List.map_singleton, List.sum_singleton,
        MixMetrics.count_markDuration, MixMetrics.count_eq_sum, count]
      rfl
  | some m =>
      -- the entry that is found counts one more, the others do not change
      have hmark : ((m.markDuration r.duration).markRetCode r.retCode).count P =
          m.count P + if P r.reported then 1 else 0 := by
        obtain ⟨hservice, htopic, hcodes⟩ := m.markDuration_fields r.duration
        rw [MixMetrics.count_markRetCode, MixMetrics.count_markDuration, hservice, htopic,
          hagree m hfind]
        rw [hcodes]
        exact hroom m hfind
      have hsum := Keyed.sum_map_update hfind
        (fun m => (m.markDuration r.duration).markRetCode r.retCode) (MixMetrics.count P)
      simp only [handleMixReportMetrics, hfind, count]
      omega

end MetricsStatistic

end Counters

/-! ## Runs -/

namespace MetricsClient

variable {P : Reported → Bool} {c t : MetricsClient}

/-- The entry that a report finds counts as the report does. -/
def Agrees (P : Reported → Bool) (c : MetricsClient) : Step → Prop
  | .handle =>
      ∀ r ∈ c.reportQueue.head?, ∀ m ∈ Keyed.find MixMetrics.key r.key c.statistic.mixMetrics,
        P ⟨m.serviceName, m.topic, r.retCode⟩ = P r.reported
  | _ => True

/-- Entries are found by their keys. -/
theorem agrees_ofKey (key retCode : Bytes) (c : MetricsClient) (a : Step) :
    c.Agrees (ofKey key retCode) a := by
  cases a with
  | handle =>
      intro r _ m hm
      have hkey : m.key = r.key := Keyed.find_key hm
      rw [MixMetrics.key, ReportMetrics.key] at hkey
      unfold ofKey
      dsimp only
      rw [hkey, ReportMetrics.reported]
  | report r => trivial
  | reset nowInMilli => trivial
  | output => trivial

theorem Separate.agrees {a : Step} (h : c.Separate a) (T : Reported) : c.Agrees T.is a := by
  cases a with
  | handle =>
      intro r hr m hm
      obtain ⟨hservice, htopic⟩ := h r hr m hm
      rw [hservice, htopic, ReportMetrics.reported]
  | report r => trivial
  | reset nowInMilli => trivial
  | output => trivial

theorem conserved_report (h : c.Conserved P) (r : ReportMetrics) :
    (c.markMicrosecondAndRetCode r).Conserved P := by
  unfold markMicrosecondAndRetCode
  split
  · simp only [Conserved, given, live, List.countP_append] at h ⊢
    omega
  · simp only [Conserved, given, live, List.map_append, List.countP_append] at h ⊢
    simp only [List.map_singleton]
    omega

theorem conserved_reset (h : c.Conserved P) (nowInMilli : Int64) :
    (c.resetMetricsStatistic nowInMilli).Conserved P := by
  have hnew : MetricsStatistic.count P { currentTimestampInMs := nowInMilli } = 0 := rfl
  simp only [Conserved, given, live, resetMetricsStatistic, List.map_append, List.sum_append,
    List.map_singleton, List.sum_singleton, hnew] at h ⊢
  omega

theorem conserved_output (h : c.Conserved P) (ht : c.outputMetrics = some t) : t.Conserved P := by
  cases hq : c.statisticQueue with
  | nil =>
      simp only [outputMetrics, hq] at ht
      cases ht
  | cons ms rest =>
      simp only [outputMetrics, hq, Option.some.injEq] at ht
      subst ht
      -- from the statistics that wait to the lines
      simp only [Conserved, given, live, hq, List.map_cons, List.sum_cons, List.map_append,
        tally_append, ms.tally_output] at h ⊢
      omega

/-- A counter that a report finds is not full, unless 2 ^ 64 reports were made. -/
theorem room (h : ∀ key retCode, c.Conserved (ofKey key retCode)) (hmade : c.made.length < 2 ^ 64)
    {r : ReportMetrics} {rest : List ReportMetrics} (hq : c.reportQueue = r :: rest) :
    ∀ m ∈ Keyed.find MixMetrics.key r.key c.statistic.mixMetrics, ∀ n ∈ m.retCodes,
      n.1 = r.retCode → n.2.toNat + 1 < 2 ^ 64 := by
  intro m hm n hn hcode
  have hkey : m.key = r.key := Keyed.find_key hm
  have hentry : n.2.toNat ≤ m.count (ofKey r.key r.retCode) :=
    m.toNat_le_count hn (decide_eq_true ⟨hkey, hcode⟩)
  have hstatistic := c.statistic.count_le (P := ofKey r.key r.retCode)
    (List.mem_of_find?_eq_some hm)
  have hself : ofKey r.key r.retCode r.reported = true := decide_eq_true ⟨rfl, rfl⟩
  -- what the counter counts and the report that waits are among the reports that were made
  have hle : c.made.countP (ofKey r.key r.retCode) ≤ c.made.length := List.countP_le_length
  have hall := h r.key r.retCode
  simp only [Conserved, live, hq, List.map_cons, List.countP_cons, hself, if_true] at hall
  omega

theorem conserved_handle (h : c.Conserved P) (hagree : c.Agrees P .handle)
    (hkeys : ∀ key retCode, c.Conserved (ofKey key retCode)) (hmade : c.made.length < 2 ^ 64)
    (ht : c.handleMetricsReport = some t) : t.Conserved P := by
  cases hq : c.reportQueue with
  | nil =>
      simp only [handleMetricsReport, hq] at ht
      cases ht
  | cons r rest =>
      -- from the queue into the statistic
      have hcount := c.statistic.count_handleMixReportMetrics c.appVersion
        (hagree r (by rw [hq]; rfl)) (room hkeys hmade hq)
      simp only [handleMetricsReport, hq, Option.some.injEq] at ht
      subst ht
      simp only [Conserved, given, live, hq, List.map_cons, List.countP_cons] at h ⊢
      omega

/-- Reports are made one after the other. -/
theorem made_le {a : Step} (ht : machine.step c a = some t) : c.made.length ≤ t.made.length := by
  cases a with
  | report r =>
      cases ht
      unfold markMicrosecondAndRetCode
      split <;> simp
  | handle =>
      change c.handleMetricsReport = some t at ht
      unfold handleMetricsReport at ht
      split at ht <;> cases ht
      rfl
  | reset nowInMilli =>
      cases ht
      rfl
  | output =>
      change c.outputMetrics = some t at ht
      unfold outputMetrics at ht
      split at ht <;> cases ht
      rfl

theorem conserved_step {a : Step} (h : c.Conserved P) (hagree : c.Agrees P a)
    (hkeys : ∀ key retCode, c.Conserved (ofKey key retCode)) (hmade : c.made.length < 2 ^ 64)
    (ht : machine.step c a = some t) : t.Conserved P := by
  cases a with
  | report r =>
      cases ht
      exact conserved_report h r
  | handle => exact conserved_handle h hagree hkeys hmade ht
  | reset nowInMilli =>
      cases ht
      exact conserved_reset h nowInMilli
  | output => exact conserved_output h ht

/-- What is conserved by every step is conserved by a run, if keys are among it. -/
theorem conserved_run (Ps : (Reported → Bool) → Prop)
    (hPs : ∀ key retCode, Ps (ofKey key retCode)) {s : MetricsClient} {as : List Step}
    (hs : ∀ P, Ps P → s.Conserved P)
    (hok : machine.Meets (fun c a => ∀ P, Ps P → c.Agrees P a) s as)
    (hrun : machine.run s as = some t) (hmade : t.made.length < 2 ^ 64) :
    ∀ P, Ps P → t.Conserved P := by
  have hinv : t.made.length < 2 ^ 64 → ∀ P, Ps P → t.Conserved P := by
    refine machine.run_invariant (fun c => c.made.length < 2 ^ 64 → ∀ P, Ps P → c.Conserved P) ?_
      (fun _ => hs) hok hrun
    intro c a u hc hagree hu hlen P hP
    -- there were fewer reports before the step
    have hlen' : c.made.length < 2 ^ 64 := (made_le hu).trans_lt hlen
    have hall := hc hlen'
    exact conserved_step (hall P hP) (hagree P hP) (fun key code => hall _ (hPs key code)) hlen' hu
  exact hinv hmade

theorem conserved_start (P : Reported → Bool) (reportQueueSize : UInt32) (appVersion : Bytes)
    (nowInMilli : Int64) : (start reportQueueSize appVersion nowInMilli).Conserved P := rfl

/-- What is reported of each key and return code is conserved in every run, and what is reported of
each service, topic and return code in every run that keeps them separate. -/
theorem reports_conserved (reportQueueSize : UInt32) (appVersion : Bytes) (nowInMilli : Int64)
    (as : List Step) (t : MetricsClient)
    (hrun : machine.run (start reportQueueSize appVersion nowInMilli) as = some t)
    (hmade : t.made.length < 2 ^ 64) :
    (∀ key retCode, t.Conserved (ofKey key retCode)) ∧
      (machine.Meets Separate (start reportQueueSize appVersion nowInMilli) as →
        ∀ T : Reported, t.Conserved T.is) := by
  constructor
  · intro key retCode
    refine conserved_run (fun P => ∃ key retCode, P = ofKey key retCode)
      (fun key retCode => ⟨key, retCode, rfl⟩) (fun P _ => conserved_start P _ _ _)
      (machine.meets_of_forall ?_ _ as) hrun hmade _ ⟨key, retCode, rfl⟩
    rintro c a P ⟨key, retCode, rfl⟩
    exact agrees_ofKey key retCode c a
  · intro hseparate T
    refine conserved_run
      (fun P => (∃ key retCode, P = ofKey key retCode) ∨ ∃ T : Reported, P = T.is)
      (fun key retCode => Or.inl ⟨key, retCode, rfl⟩) (fun P _ => conserved_start P _ _ _)
      (machine.meets_mono ?_ hseparate) hrun hmade _ (Or.inr ⟨T, rfl⟩)
    rintro c a hsep P (⟨key, retCode, rfl⟩ | ⟨T, rfl⟩)
    · exact agrees_ofKey key retCode c a
    · exact hsep.agrees T

/-- Two reports, and the statistic is replaced between them -/
def twoReports : List Step :=
  let r : ReportMetrics := ⟨ascii "svc".toList, ascii "put".toList, ascii ['0'], 7⟩
  [.report r, .report r, .handle, .reset 1000, .handle, .output]

theorem reports_conserved_twice :
    ∃ t, machine.run (start 2 [] 0) twoReports = some t ∧ t.made.length = 2 ∧
      t.outputs.length = 1 ∧ t.Conserved (ofKey (ascii "svc_put".toList) (ascii ['0'])) ∧
      t.Conserved (Reported.is ⟨ascii "svc".toList, ascii "put".toList, ascii ['0']⟩) :=
  have h := reports_conserved 2 [] 0 twoReports _ rfl (by decide +kernel)
  ⟨_, rfl, by decide +kernel, by decide +kernel, h.1 _ _, h.2 (by decide +kernel) _⟩

/-- A report that finds no room is gone. -/
theorem report_dropped :
    let r : ReportMetrics := ⟨ascii "svc".toList, ascii "put".toList, ascii ['0'], 7⟩
    ∃ t, machine.run (start 1 [] 0) [.report r, .report r] = some t ∧
      t.given r.reported.is + t.live r.reported.is = 1 ∧ t.made.countP r.reported.is = 2 :=
  ⟨_, rfl, by decide +kernel, by decide +kernel⟩

-- `a_b` and `c` have the key of `a` and `b_c`, and are counted as these
example :
    let r : ReportMetrics := ⟨ascii ['a'], ascii "b_c".toList, ascii ['0'], 0⟩
    let q : ReportMetrics := ⟨ascii "a_b".toList, ascii ['c'], ascii ['0'], 0⟩
    (machine.run (start 0 [] 0) [.report r, .report q, .handle, .handle]).map (fun t =>
      (t.live r.reported.is, t.live q.reported.is)) = some (2, 0) := by decide +kernel

end MetricsClient

end BcmServer.Metrics
