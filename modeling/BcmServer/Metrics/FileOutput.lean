import BcmServer.Lts.Run
import BcmServer.Util.Ordered
import Mathlib.Logic.Function.Basic

/-!
# BcmServer.Metrics.FileOutput — rolling of the files that metrics are written to

Lines are written to a file until it is larger than configured; the next lines go to a
new file, whose name is made of the time of day in seconds. The names of the files are
kept in a list, and when they are too many the first ones in their order are deleted.

`history_kept`: the list, the directory and the file that is written stay in agreement
in every run in which each new name is fresh (`Fresh`). The name of a second in which a
file was begun already, and a clock that was set back, are not fresh: the file is emptied
(`rolled_in_one_second`), or deleted while it is written.

A file is the list of what was written to it, what is still in the buffer of the stream
included, and a directory counts as a file without lines. Nobody else changes the files.
The throttle, which makes a writer wait, is left out.
-/

namespace BcmServer.Metrics

open Util Lts

/-! ## File names -/

/-- What a file name tells of a broken-down time -/
structure Tm where
  year : ℤ
  mon : ℕ
  mday : ℕ
  hour : ℕ
  min : ℕ
  sec : ℕ
deriving DecidableEq, Repr

def twoDigits (n : ℕ) : Bytes := [digitByte (n / 10 % 10), digitByte (n % 10)]

/-- `std::put_time` with `%Y%m%d_%H%M%S` -/
def putTime (tm : Tm) : Bytes :=
  intDecimal tm.year ++ twoDigits tm.mon ++ twoDigits tm.mday ++ ['_'.toUInt8] ++
    twoDigits tm.hour ++ twoDigits tm.min ++ twoDigits tm.sec

/-! ## The files -/

/-- The fields of `MetricsConfig` that are about files -/
structure FileConfig where
  metricsDir : Bytes
  metricsFileSizeInBytes : UInt64
  metricsFileCount : UInt32
  clientId : Bytes

/-- A directory: the lines of each file -/
abbrev Dir := Table Bytes (List Bytes)

def Dir.content (dir : Dir) (f : Bytes) : List Bytes := (dir.lookup f).getD []

/-- `MetricsFileOutput`, with the directory, and the lines that were written to each file and were
not removed with it -/
structure MetricsFileOutput where
  metricsPrefix : Bytes
  maxsizeInBytes : UInt64
  fileCount : UInt32
  currentWritingStream : Option Bytes := none
  currentWritingSize : UInt64 := 0
  metricsFiles : List Bytes := []
  dir : Dir
  written : Bytes → List Bytes

/-- What a roll finds: the clock, whether the new file can be opened, and the files that cannot be
removed -/
structure Roll where
  now : Int64
  opened : Bool := true
  stuck : List Bytes := []
deriving DecidableEq, Repr

namespace MetricsFileOutput

variable (localtime : Int64 → Tm) (s : MetricsFileOutput)

/-- `std::remove` -/
def remove (stuck : List Bytes) (f : Bytes) : MetricsFileOutput :=
  if f ∈ stuck ∨ f ∉ s.dir then s
  else
    { s with
      dir := s.dir.erase f
      written := Function.update s.written f [] }

/-- The loop of `deleteFileIfExceedMaxCount`, for the names that are left -/
def deleteFirst (stuck : List Bytes) (s : MetricsFileOutput) : List Bytes → MetricsFileOutput
  | [] => { s with metricsFiles := [] }
  | f :: rest =>
      if s.fileCount.toNat < rest.length + 1 then deleteFirst stuck (s.remove stuck f) rest
      else { s with metricsFiles := f :: rest }

/-- `deleteFileIfExceedMaxCount` -/
def deleteFileIfExceedMaxCount (stuck : List Bytes) : MetricsFileOutput :=
  if s.metricsFiles.length ≤ s.fileCount.toNat then s
  else s.deleteFirst stuck (s.metricsFiles.insertionSort bytesLe)

def fileName (now : Int64) : Bytes :=
  s.metricsPrefix ++ putTime (localtime now) ++ ascii ".log".toList

/-- `rollToNewFile`; the process ends if the file cannot be opened. -/
def rollToNewFile (r : Roll) : Option MetricsFileOutput :=
  let fileName := s.fileName localtime r.now
  if r.opened then
    let s : MetricsFileOutput :=
      { s with
        currentWritingStream := some fileName
        currentWritingSize := 0
        metricsFiles := s.metricsFiles ++ [fileName]
        -- `std::ios::out` empties a file that is there
        dir := s.dir.insert fileName [] }
    some (s.deleteFileIfExceedMaxCount r.stuck)
  else none

/-- `scanMetricsFiles`; a directory that cannot be opened leaves no names. -/
def scanMetricsFiles (opendir : Bool) : MetricsFileOutput :=
  if opendir then
    { s with
      metricsFiles :=
        (s.dir.keys.filter fun f => s.metricsPrefix.isPrefixOf f).insertionSort bytesLe }
  else s

/-- The lines of the directory were written before. -/
def ofConfig (config : FileConfig) (dir : Dir) : MetricsFileOutput :=
  { metricsPrefix := ascii "bcm_metrics_".toList ++ config.clientId ++ ['_'.toUInt8]
    maxsizeInBytes := config.metricsFileSizeInBytes
    fileCount := config.metricsFileCount
    dir := dir
    written := dir.content }

/-- The constructor; the process ends with a configuration that is not good. -/
def construct (config : FileConfig) (dir : Dir) (opendir : Bool) (r : Roll) :
    Option MetricsFileOutput :=
  if config.clientId.length = 5 ∧ config.metricsDir ≠ [] ∧ config.metricsFileSizeInBytes ≠ 0 ∧
      config.metricsFileCount ≠ 0 then
    ((ofConfig config dir).scanMetricsFiles opendir).rollToNewFile localtime r
  else none

/-- A line is written; a file that was deleted takes it with it. -/
def write (s : MetricsFileOutput) (c : Bytes) : MetricsFileOutput :=
  match s.currentWritingStream with
  | none => s
  | some f =>
      { s with
        currentWritingSize := s.currentWritingSize + UInt64.ofNat c.length
        dir := if f ∈ s.dir then s.dir.insert f (s.dir.content f ++ [c]) else s.dir
        written := Function.update s.written f (s.written f ++ [c]) }

/-- The file is rolled before lines are written. -/
def IsFull : Prop := s.maxsizeInBytes < s.currentWritingSize

instance : Decidable s.IsFull := inferInstanceAs (Decidable (s.maxsizeInBytes < _))

/-- `out` -/
def out (r : Roll) (outs : List Bytes) : Option MetricsFileOutput :=
  (if s.IsFull then s.rollToNewFile localtime r else some s).map fun s => outs.foldl write s

/-- A run is a sequence of calls of `out`, each with what its roll finds. -/
def machine : Machine MetricsFileOutput (Roll × List Bytes) where
  step s a := s.out localtime a.1 a.2

/-! ## The history -/

/-- The list, the directory and the file that is written are in agreement. -/
structure KeepsHistory (s : MetricsFileOutput) : Prop where
  nodup : s.metricsFiles.Nodup
  writing : ∀ f ∈ s.currentWritingStream, f ∈ s.dir
  lines : ∀ f, (s.written f).Sublist (s.dir.content f)

/-- As many names are kept as are configured. -/
structure Bounded (n : UInt32) (s : MetricsFileOutput) : Prop where
  configured : s.fileCount = n
  short : s.metricsFiles.length ≤ n.toNat

/-- The new name is not in the list and names no file with lines, and there are not so many names
after it that its file is deleted. -/
structure FreshName (s : MetricsFileOutput) (f : Bytes) : Prop where
  notMem : f ∉ s.metricsFiles
  empty : s.dir.content f = []
  few : (s.metricsFiles.countP fun g => ¬ bytesLe g f) < s.fileCount.toNat

instance (s : MetricsFileOutput) (f : Bytes) : Decidable (s.FreshName f) :=
  decidable_of_iff
    (f ∉ s.metricsFiles ∧ s.dir.content f = [] ∧
      (s.metricsFiles.countP fun g => ¬ bytesLe g f) < s.fileCount.toNat)
    ⟨fun ⟨hnot, hempty, hfew⟩ => ⟨hnot, hempty, hfew⟩,
      fun ⟨hnot, hempty, hfew⟩ => ⟨hnot, hempty, hfew⟩⟩

/-- A file that is full is followed by one with a new name. -/
def Fresh (s : MetricsFileOutput) (a : Roll × List Bytes) : Prop :=
  s.IsFull → s.FreshName (s.fileName localtime a.1.now)

instance (s : MetricsFileOutput) (a : Roll × List Bytes) : Decidable (s.Fresh localtime a) :=
  inferInstanceAs (Decidable (s.IsFull → _))

/-! ## Deleting files -/

section Delete

variable {s : MetricsFileOutput} {stuck : List Bytes} {f g : Bytes}

theorem content_erase (dir : Dir) (f g : Bytes) :
    Dir.content (dir.erase f) g = if g = f then [] else dir.content g := by
  unfold Dir.content
  split
  · rename_i h
    rw [h, AList.lookup_erase, Option.getD_none]
  · rename_i h
    rw [AList.lookup_erase_ne h]

theorem content_insert (dir : Dir) (f g : Bytes) (lines : List Bytes) :
    Dir.content (dir.insert f lines) g = if g = f then lines else dir.content g := by
  unfold Dir.content
  split
  · rename_i h
    rw [h, AList.lookup_insert, Option.getD_some]
  · rename_i h
    rw [AList.lookup_insert_ne h]

/-- What is removed with a file is gone, what else was written is there. -/
theorem lines_remove (stuck : List Bytes) (f : Bytes)
    (h : ∀ g, (s.written g).Sublist (s.dir.content g)) (g : Bytes) :
    ((s.remove stuck f).written g).Sublist ((s.remove stuck f).dir.content g) := by
  unfold remove
  split
  · exact h g
  · dsimp only
    rw [content_erase]
    by_cases hg : g = f
    · rw [hg, Function.update_self]
      exact List.nil_sublist _
    · rw [Function.update_of_ne hg, if_neg hg]
      exact h g

theorem mem_dir_remove (hg : g ≠ f) (h : g ∈ s.dir) : g ∈ (s.remove stuck f).dir := by
  unfold remove
  split
  · exact h
  · exact AList.mem_erase.mpr ⟨hg, h⟩

/-- What a removal leaves as it is -/
theorem remove_fields (stuck : List Bytes) (s : MetricsFileOutput) (f : Bytes) :
    (s.remove stuck f).fileCount = s.fileCount ∧
      (s.remove stuck f).currentWritingStream = s.currentWritingStream := by
  unfold remove
  split <;> exact ⟨rfl, rfl⟩

/-- The loop removes the first files and keeps as many names as are allowed. -/
theorem deleteFirst_eq (stuck l : List Bytes) (s : MetricsFileOutput) :
    s.deleteFirst stuck l =
      { (l.take (l.length - s.fileCount.toNat)).foldl (remove · stuck) s with
        metricsFiles := l.drop (l.length - s.fileCount.toNat) } := by
  induction l generalizing s with
  | nil => simp [deleteFirst]
  | cons f rest ih =>
      rw [deleteFirst, List.length_cons]
      split
      · rename_i hlt
        obtain ⟨k, hk⟩ : ∃ k, rest.length + 1 - s.fileCount.toNat = k + 1 :=
          ⟨rest.length - s.fileCount.toNat, by omega⟩
        have hrest : rest.length - s.fileCount.toNat = k := by omega
        rw [ih, (s.remove_fields stuck f).1, hk, hrest, List.take_succ_cons, List.drop_succ_cons,
          List.foldl_cons]
      · rename_i hle
        have hk : rest.length + 1 - s.fileCount.toNat = 0 := by omega
        rw [hk]
        rfl

/-- Removing files one after the other -/
theorem removeAll_fields (stuck l : List Bytes) (s : MetricsFileOutput) :
    (l.foldl (remove · stuck) s).fileCount = s.fileCount ∧
      (l.foldl (remove · stuck) s).currentWritingStream = s.currentWritingStream := by
  induction l generalizing s with
  | nil => exact ⟨rfl, rfl⟩
  | cons f l ih =>
      obtain ⟨hcount, hstream⟩ := ih (s.remove stuck f)
      obtain ⟨hcount', hstream'⟩ := s.remove_fields stuck f
      exact ⟨hcount.trans hcount', hstream.trans hstream'⟩

theorem lines_removeAll (stuck l : List Bytes) (h : ∀ g, (s.written g).Sublist (s.dir.content g)) :
    ∀ g, ((l.foldl (remove · stuck) s).written g).Sublist
      ((l.foldl (remove · stuck) s).dir.content g) := by
  induction l generalizing s with
  | nil => exact h
  | cons f l ih => exact ih (lines_remove stuck f h)

theorem mem_dir_removeAll {l : List Bytes} (hg : g ∉ l) (h : g ∈ s.dir) :
    g ∈ (l.foldl (remove · stuck) s).dir := by
  induction l generalizing s with
  | nil => exact h
  | cons f l ih =>
      rw [List.mem_cons, not_or] at hg
      exact ih hg.2 (mem_dir_remove hg.1 h)

theorem bounded_delete {n : UInt32} (hcount : s.fileCount = n) :
    (s.deleteFileIfExceedMaxCount stuck).Bounded n := by
  unfold deleteFileIfExceedMaxCount
  split
  · rename_i hshort
    exact ⟨hcount, hcount ▸ hshort⟩
  · generalize s.metricsFiles.insertionSort bytesLe = l
    rw [deleteFirst_eq]
    constructor
    · exact (removeAll_fields stuck _ s).1.trans hcount
    · dsimp only
      rw [List.length_drop, hcount]
      omega

/-- The file that is written keeps its place if there are few names after it. -/
theorem keepsHistory_delete (hnodup : s.metricsFiles.Nodup)
    (hstream : s.currentWritingStream = some f) (hdir : f ∈ s.dir)
    (hlines : ∀ g, (s.written g).Sublist (s.dir.content g))
    (hfew : (s.metricsFiles.countP fun g => ¬ bytesLe g f) < s.fileCount.toNat) :
    (s.deleteFileIfExceedMaxCount stuck).KeepsHistory := by
  have hwriting : ∀ g ∈ s.currentWritingStream, g = f := fun g hg => by
    rw [hstream] at hg
    exact (Option.some.inj hg).symm
  unfold deleteFileIfExceedMaxCount
  split
  · exact ⟨hnodup, fun g hg => hwriting g hg ▸ hdir, hlines⟩
  · have hperm := List.perm_insertionSort bytesLe s.metricsFiles
    have hsorted := List.pairwise_insertionSort bytesLe s.metricsFiles
    generalize s.metricsFiles.insertionSort bytesLe = l at hperm hsorted
    have hnodup' : l.Nodup := hperm.nodup_iff.mpr hnodup
    -- the file that is written is not among the first ones, which are deleted
    have hnot : f ∉ l.take (l.length - s.fileCount.toNat) := by
      refine notMem_take_of_countP_lt hsorted hnodup' ?_
      rw [hperm.countP_eq]
      exact hfew
    rw [deleteFirst_eq]
    constructor
    · exact hnodup'.sublist (List.drop_sublist _ l)
    · intro g hg
      dsimp only at hg
      rw [(removeAll_fields stuck _ s).2] at hg
      rw [hwriting g hg]
      exact mem_dir_removeAll hnot hdir
    · exact lines_removeAll stuck _ hlines

end Delete

/-! ## Runs -/

section Runs

variable {localtime : Int64 → Tm} {s t : MetricsFileOutput} {n : UInt32}

theorem bounded_rollToNewFile {r : Roll} (hcount : s.fileCount = n)
    (ht : s.rollToNewFile localtime r = some t) : t.Bounded n := by
  unfold rollToNewFile at ht
  dsimp only at ht
  split at ht
  · cases ht
    exact bounded_delete hcount
  · cases ht

theorem bounded_writeAll (h : s.Bounded n) (outs : List Bytes) :
    (outs.foldl write s).Bounded n := by
  induction outs generalizing s with
  | nil => exact h
  | cons c outs ih =>
      refine ih ?_
      unfold write
      split
      · exact h
      · exact ⟨h.configured, h.short⟩

theorem bounded_out {a : Roll × List Bytes} (h : s.Bounded n)
    (ht : s.out localtime a.1 a.2 = some t) : t.Bounded n := by
  obtain ⟨u, hu, rfl⟩ := Option.map_eq_some_iff.mp ht
  refine bounded_writeAll ?_ a.2
  split at hu
  · exact bounded_rollToNewFile h.configured hu
  · cases hu
    exact h

theorem bounded_construct {config : FileConfig} {dir : Dir} {opendir : Bool} {r : Roll}
    (hs : construct localtime config dir opendir r = some s) :
    s.Bounded config.metricsFileCount := by
  have hcount : ((ofConfig config dir).scanMetricsFiles opendir).fileCount =
      config.metricsFileCount := by
    unfold scanMetricsFiles
    split <;> rfl
  unfold construct at hs
  split at hs
  · exact bounded_rollToNewFile hcount hs
  · cases hs

/-- The list is never too long, whatever the clock says. -/
theorem files_bounded {config : FileConfig} {dir : Dir} {opendir : Bool} {r : Roll}
    {as : List (Roll × List Bytes)} (hs : construct localtime config dir opendir r = some s)
    (hrun : (machine localtime).run s as = some t) :
    t.metricsFiles.length ≤ config.metricsFileCount.toNat := by
  have hbounded : t.Bounded config.metricsFileCount := by
    refine (machine localtime).run_invariant (Bounded config.metricsFileCount) ?_
      (bounded_construct hs) ((machine localtime).meets_of_forall (fun _ _ => trivial) s as) hrun
    intro s a t h _ ht
    exact bounded_out h ht
  exact hbounded.short

theorem keepsHistory_rollToNewFile {r : Roll} (hnodup : s.metricsFiles.Nodup)
    (hlines : ∀ f, (s.written f).Sublist (s.dir.content f))
    (hfresh : s.FreshName (s.fileName localtime r.now))
    (ht : s.rollToNewFile localtime r = some t) : t.KeepsHistory := by
  obtain ⟨hnot, hempty, hfew⟩ := hfresh
  unfold rollToNewFile at ht
  dsimp only at ht
  generalize s.fileName localtime r.now = f at ht hnot hempty hfew
  split at ht
  · cases ht
    refine keepsHistory_delete ?_ rfl ?_ ?_ ?_
    · exact List.nodup_append.mpr ⟨hnodup, List.nodup_singleton f, fun a ha b hb heq =>
        hnot (List.mem_singleton.mp hb ▸ heq ▸ ha)⟩
    · exact (AList.mem_insert _).mpr (Or.inl rfl)
    · intro g
      dsimp only
      rw [content_insert]
      split
      · rename_i hg
        -- a file that is emptied had no lines
        rw [hg, ← hempty]
        exact hlines f
      · exact hlines g
    · dsimp only
      rw [List.countP_append]
      simpa [refl] using hfew
  · cases ht

theorem keepsHistory_write (h : s.KeepsHistory) (c : Bytes) : (s.write c).KeepsHistory := by
  unfold write
  split
  · exact h
  · rename_i f hf
    have hdir : f ∈ s.dir := h.writing f hf
    rw [if_pos hdir]
    refine ⟨h.nodup, fun g hg => ?_, fun g => ?_⟩
    · exact (AList.mem_insert _).mpr (Or.inr (h.writing g hg))
    · dsimp only
      rw [content_insert]
      by_cases hg : g = f
      · rw [hg, Function.update_self, if_pos rfl]
        exact (h.lines f).append_right [c]
      · rw [Function.update_of_ne hg, if_neg hg]
        exact h.lines g

theorem keepsHistory_writeAll (h : s.KeepsHistory) (outs : List Bytes) :
    (outs.foldl write s).KeepsHistory := by
  induction outs generalizing s with
  | nil => exact h
  | cons c outs ih => exact ih (keepsHistory_write h c)

theorem keepsHistory_out {a : Roll × List Bytes} (h : s.KeepsHistory) (hfresh : s.Fresh localtime a)
    (ht : s.out localtime a.1 a.2 = some t) : t.KeepsHistory := by
  obtain ⟨u, hu, rfl⟩ := Option.map_eq_some_iff.mp ht
  refine keepsHistory_writeAll ?_ a.2
  split at hu
  · rename_i hfull
    exact keepsHistory_rollToNewFile h.nodup h.lines (hfresh hfull) hu
  · cases hu
    exact h

/-- The names that are found in a directory -/
theorem nodup_scanMetricsFiles (config : FileConfig) (dir : Dir) (opendir : Bool) :
    ((ofConfig config dir).scanMetricsFiles opendir).metricsFiles.Nodup := by
  unfold scanMetricsFiles
  split
  · exact (List.perm_insertionSort bytesLe _).nodup_iff.mpr (dir.keys_nodup.filter _)
  · exact List.nodup_nil

theorem lines_scanMetricsFiles (config : FileConfig) (dir : Dir) (opendir : Bool) (f : Bytes) :
    (((ofConfig config dir).scanMetricsFiles opendir).written f).Sublist
      (((ofConfig config dir).scanMetricsFiles opendir).dir.content f) := by
  unfold scanMetricsFiles
  split <;> exact List.Sublist.refl _

theorem keepsHistory_construct {config : FileConfig} {dir : Dir} {opendir : Bool} {r : Roll}
    (hfresh : ((ofConfig config dir).scanMetricsFiles opendir).FreshName
      ((ofConfig config dir).fileName localtime r.now))
    (hs : construct localtime config dir opendir r = some s) : s.KeepsHistory := by
  have hname : ((ofConfig config dir).scanMetricsFiles opendir).fileName localtime r.now =
      (ofConfig config dir).fileName localtime r.now := by
    unfold scanMetricsFiles
    split <;> rfl
  unfold construct at hs
  split at hs
  · exact keepsHistory_rollToNewFile (nodup_scanMetricsFiles config dir opendir)
      (lines_scanMetricsFiles config dir opendir) (hname ▸ hfresh) hs
  · cases hs

/-- A run in which every new name is fresh, that of the constructor included, keeps its history. -/
theorem history_kept (localtime : Int64 → Tm) (config : FileConfig) (dir : Dir) (opendir : Bool)
    (r : Roll) (as : List (Roll × List Bytes)) (s t : MetricsFileOutput)
    (hs : construct localtime config dir opendir r = some s)
    (hfresh : ((ofConfig config dir).scanMetricsFiles opendir).FreshName
      ((ofConfig config dir).fileName localtime r.now))
    (hok : (machine localtime).Meets (Fresh localtime) s as)
    (hrun : (machine localtime).run s as = some t) :
    t.metricsFiles.length ≤ config.metricsFileCount.toNat ∧ t.KeepsHistory := by
  refine ⟨files_bounded hs hrun, ?_⟩
  -- induction on the run: every call of `out` keeps the agreement
  refine (machine localtime).run_invariant KeepsHistory ?_ (keepsHistory_construct hfresh hs) hok
    hrun
  intro s a t h hfresh ht
  exact keepsHistory_out h hfresh ht

/-- The clock in the first hour of a year -/
def newYear (now : Int64) : Tm :=
  let sec := (now.toInt - 1546300800).toNat
  ⟨2019, 1, 1, 0, sec / 60, sec % 60⟩

def twoFiles : FileConfig := ⟨ascii "/tmp/".toList, 4, 2, ascii "00001".toList⟩

/-- Six bytes are written, and a line after them. -/
def fullThenLine (now now' : Int64) : List (Roll × List Bytes) :=
  [(⟨now, true, []⟩, [ascii "abcdef".toList]), (⟨now', true, []⟩, [ascii "xyz".toList])]

theorem history_kept_two_seconds :
    ∃ s t, construct newYear twoFiles ∅ true ⟨1546300800, true, []⟩ = some s ∧
      (machine newYear).run s (fullThenLine 1546300800 1546300801) = some t ∧
      t.metricsFiles.length = 2 ∧ t.KeepsHistory :=
  have h := history_kept newYear twoFiles ∅ true ⟨1546300800, true, []⟩
    (fullThenLine 1546300800 1546300801) _ _ rfl (by decide +kernel) (by decide +kernel) rfl
  ⟨_, _, rfl, rfl, by decide +kernel, h.2⟩

/-- The second file has the name of the first: it is in the list twice, and what was written is
gone. -/
theorem rolled_in_one_second :
    ∃ s t, construct newYear twoFiles ∅ true ⟨1546300800, true, []⟩ = some s ∧
      (machine newYear).run s (fullThenLine 1546300800 1546300800) = some t ∧
      ¬ t.metricsFiles.Nodup ∧ ∃ f ∈ t.currentWritingStream,
        ascii "abcdef".toList ∈ t.written f ∧ ascii "abcdef".toList ∉ t.dir.content f :=
  ⟨_, _, rfl, rfl, by decide +kernel, _, rfl, by decide +kernel, by decide +kernel⟩

-- the clock was set back: the file that is written comes first and is deleted
example :
    let s := construct newYear { twoFiles with metricsFileCount := 1 } ∅ true ⟨1546300801, true, []⟩
    let t := s.bind fun s => (machine newYear).run s (fullThenLine 1546300801 1546300800)
    t.any (fun t => t.currentWritingStream.all fun f => f ∉ t.dir) = true := by decide +kernel

end Runs

end MetricsFileOutput

end BcmServer.Metrics
