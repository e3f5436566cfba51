import BcmServer.Util.Table
import BcmServer.Util.Text
import BcmServer.Util.Thrown

/-!
# BcmServer.Redis.HashReply — what the synchronous client makes of a hash

`RedisConn` returns names and values as C strings, and sends HMGET as a format
with the fields in it: a `%` in a field is a conversion without an argument, and
a field of two words is asked for as two, whose values do not fit into the map.

* `hmget_eq`: if every field stays one word, the result is the map of the fields
  and their values.
* `oneWord_of_hmget`: HMGET gets through only then.
-/

namespace BcmServer.Redis

open BcmServer.Util

/-- A `std::string` made of a `char*` -/
def cString (s : Bytes) : Bytes := s.takeWhile (· ≠ 0)

/-- `m[k] = v` of a `std::map`, as the list of its entries in their order -/
def mapSet (k v : Bytes) : List (Bytes × Bytes) → List (Bytes × Bytes)
  | [] => [(k, v)]
  | e :: m =>
      if k = e.1 then (k, v) :: m
      else if lexLt k e.1 then (k, v) :: e :: m
      else e :: mapSet k v m

/-- The words of a command -/
def commandWords (s : Bytes) : List Bytes := (s.splitOn ' '.toUInt8).filter fun w => !w.isEmpty

/-- A field that stays one word in a command: there is no argument for a
conversion, and no field for the value of another word. -/
def oneWord (field : Bytes) : Bool := !field.contains '%'.toUInt8 && (commandWords field).length = 1

/-- `RedisConn::hmget`, of fields without a NUL byte, which would end the command -/
def hmget (hash : Table Bytes Bytes) (fields : List Bytes) :
    Except Fault (List (Bytes × Bytes)) :=
  let words := fields.flatMap commandWords
  if fields.any (·.contains '%'.toUInt8) || fields.length < words.length then .error .undefined
  else .ok ((fields.zip words).foldl
    (fun m e => mapSet e.1 (cString ((hash.lookup e.2).getD [])) m) [])

/-! ## HMGET -/

theorem cString_self {s : Bytes} (h : 0 ∉ s) : cString s = s := by
  refine List.takeWhile_eq_self_iff.mpr fun c hc => decide_eq_true ?_
  rintro rfl
  exact h hc

theorem zero_notMem_cString (s : Bytes) : 0 ∉ cString s := by
  intro h
  simpa using List.mem_takeWhile_imp h

/-- An entry is set, and the others stay, if none with its key has another value. -/
theorem mem_mapSet {k v : Bytes} {m : List (Bytes × Bytes)} (h : ∀ e ∈ m, e.1 = k → e.2 = v)
    {e : Bytes × Bytes} : e ∈ mapSet k v m ↔ e = (k, v) ∨ e ∈ m := by
  induction m with
  | nil => simp [mapSet]
  | cons e' m ih =>
      have htail := ih fun e he => h e (List.mem_cons_of_mem e' he)
      rw [mapSet]
      split
      · next hk =>
        have he' : e' = (k, v) := Prod.ext hk.symm (h e' List.mem_cons_self hk.symm)
        rw [he', List.mem_cons]
        tauto
      · split
        · rw [List.mem_cons]
        · rw [List.mem_cons, htail, List.mem_cons]
          tauto

/-- The map that replies are put into, if no key has two values. -/
theorem mem_foldl_mapSet {l m : List (Bytes × Bytes)}
    (h : ∀ e ∈ m ++ l, ∀ e' ∈ m ++ l, e.1 = e'.1 → e.2 = e'.2) {e : Bytes × Bytes} :
    e ∈ l.foldl (fun m e => mapSet e.1 e.2 m) m ↔ e ∈ m ∨ e ∈ l := by
  induction l generalizing m with
  | nil => simp
  | cons x l ih =>
      have hx : ∀ e ∈ m, e.1 = x.1 → e.2 = x.2 := fun e he =>
        h e (List.mem_append_left _ he) x (by simp)
      have hsub : ∀ e ∈ mapSet x.1 x.2 m ++ l, e ∈ m ++ x :: l := by
        intro e he
        rcases List.mem_append.mp he with he | he
        · rcases (mem_mapSet hx).mp he with rfl | he
          · simp
          · exact List.mem_append_left _ he
        · simp [he]
      rw [List.foldl_cons, ih fun e he e' he' => h e (hsub e he) e' (hsub e' he'),
        mem_mapSet hx, List.mem_cons]
      tauto

/-- The word of a field that is one -/
def wordOf (field : Bytes) : Bytes := (commandWords field).headD []

theorem oneWord_iff {field : Bytes} :
    oneWord field = true ↔ '%'.toUInt8 ∉ field ∧ (commandWords field).length = 1 := by
  simp [oneWord]

theorem commandWords_eq {field : Bytes} (h : oneWord field = true) :
    commandWords field = [wordOf field] := by
  obtain ⟨w, hw⟩ := List.length_eq_one_iff.mp (oneWord_iff.mp h).2
  rw [wordOf, hw]
  rfl

/-- A field without blanks is its word. -/
theorem commandWords_self {field : Bytes} (hne : field ≠ []) (h : ' '.toUInt8 ∉ field) :
    commandWords field = [field] := by
  rw [commandWords, splitOn_of_notMem h]
  simp [hne]

theorem flatMap_commandWords {fields : List Bytes} (h : ∀ f ∈ fields, oneWord f = true) :
    fields.flatMap commandWords = fields.map wordOf := by
  rw [List.map_eq_flatMap]
  exact List.flatMap_congr fun f hf => commandWords_eq (h f hf)

/-- What HMGET finds for a field -/
def fieldValue (hash : Table Bytes Bytes) (field : Bytes) : Bytes :=
  cString ((hash.lookup (wordOf field)).getD [])

/-- HMGET of fields that are words -/
theorem hmget_eq (hash : Table Bytes Bytes) (fields : List Bytes)
    (h : ∀ f ∈ fields, oneWord f = true) :
    ∃ m, hmget hash fields = .ok m ∧ ∀ e, e ∈ m ↔ ∃ f ∈ fields, e = (f, fieldValue hash f) := by
  have hzip : fields.zip (fields.map wordOf) = fields.map fun f => (f, wordOf f) :=
    List.map_prod_left_eq_zip.symm
  have hpercent : (fields.any fun f => f.contains '%'.toUInt8) = false := by
    simp only [List.any_eq_false, List.contains_iff_mem]
    intro f hf
    exact (oneWord_iff.mp (h f hf)).1
  refine ⟨(fields.map fun f => (f, fieldValue hash f)).foldl (fun m e => mapSet e.1 e.2 m) [],
    ?_, ?_⟩
  · simp only [hmget, hpercent, flatMap_commandWords h, List.length_map, hzip, List.foldl_map,
      Nat.lt_irrefl, decide_false, Bool.or_self, Bool.false_eq_true, if_false]
    rfl
  · intro e
    rw [mem_foldl_mapSet]
    · simp [eq_comm]
    · intro e he e' he' hkey
      simp only [List.nil_append, List.mem_map] at he he'
      obtain ⟨f, -, rfl⟩ := he
      obtain ⟨f', -, rfl⟩ := he'
      exact congrArg (fieldValue hash) hkey

theorem length_le_flatMap {fields : List Bytes} (h : ∀ f ∈ fields, commandWords f ≠ []) :
    fields.length ≤ (fields.flatMap commandWords).length := by
  induction fields with
  | nil => simp
  | cons f fields ih =>
      have hf := List.length_pos_iff.mpr (h f List.mem_cons_self)
      have htail := ih fun f' hf' => h f' (List.mem_cons_of_mem f hf')
      rw [List.flatMap_cons, List.length_append, List.length_cons]
      omega

/-- HMGET does not get through with others. -/
theorem oneWord_of_hmget {hash : Table Bytes Bytes} {fields : List Bytes}
    {m : List (Bytes × Bytes)} (h : hmget hash fields = .ok m)
    (hne : ∀ f ∈ fields, commandWords f ≠ []) : ∀ f ∈ fields, oneWord f = true := by
  unfold hmget at h
  dsimp only at h
  split at h
  · cases h
  · next hguard =>
    simp only [Bool.or_eq_true, decide_eq_true_eq, not_or, List.any_eq_true, not_exists,
      not_and, List.contains_iff_mem, Nat.not_lt] at hguard
    obtain ⟨hpercent, hwords⟩ := hguard
    clear h
    intro f hf
    refine oneWord_iff.mpr ⟨hpercent f hf, ?_⟩
    -- no field has a second word to make up for
    obtain ⟨before, after, rfl⟩ := List.append_of_mem hf
    have hbefore := length_le_flatMap fun f' hf' =>
      hne f' (List.mem_append_left (f :: after) hf')
    have hafter := length_le_flatMap fun f' hf' =>
      hne f' (List.mem_append_right before (List.mem_cons_of_mem f hf'))
    have hone := List.length_pos_iff.mpr (hne f hf)
    simp only [List.flatMap_append, List.flatMap_cons, List.length_append, List.length_cons]
      at hwords
    omega

/-- A name in parts is not blank. -/
theorem commandWords_ne_nil {field a b c : Bytes} (h : field.splitOn '_'.toUInt8 = [a, b, c]) :
    commandWords field ≠ [] := by
  have hmem : '_'.toUInt8 ∈ field := by
    by_contra hnot
    rw [splitOn_of_notMem hnot] at h
    simp at h
  obtain ⟨p, hp, hc⟩ : ∃ p ∈ field.splitOn ' '.toUInt8, '_'.toUInt8 ∈ p :=
    (mem_splitOn (by decide) field).mp hmem
  intro hnil
  have hfilter : p ∈ commandWords field := by
    refine List.mem_filter.mpr ⟨hp, ?_⟩
    simpa using List.ne_nil_of_mem hc
  rw [hnil] at hfilter
  cases hfilter

end BcmServer.Redis
