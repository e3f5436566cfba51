import BcmServer.Util.Bytes

/-!
# BcmServer.Util.Bits — the bits of a byte string

The bits of a byte string are numbered from the first byte on, the low bits of a byte
first. Setting bits one after the other gives every bit the last value it is set to
(`bitAt_setBits`), so two lists of bits with the same last values make the same of a
byte string (`setBits_congr`).
-/

namespace BcmServer.Util

/-- The bit with a number -/
def bitAt (s : Bytes) (p : ℕ) : Bool := (s.getD (p / 8) 0).toBitVec.getLsbD (p % 8)

/-- The byte in which only the bit with the number is set -/
def bitMask (p : ℕ) : UInt8 := UInt8.ofNat (1 <<< (p % 8))

/-- The bit of a byte is set to a value. -/
def setIn (p : ℕ) (v : Bool) (b : UInt8) : UInt8 :=
  if v then b ||| bitMask p else b &&& ~~~bitMask p

/-- A bit is set to a value, if there is one with the number. -/
def setBit (s : Bytes) (p : ℕ) (v : Bool) : Bytes := s.modify (p / 8) (setIn p v)

/-- Bits are set one after the other. -/
def setBits (s : Bytes) (values : List (ℕ × Bool)) : Bytes :=
  values.foldl (fun s e => setBit s e.1 e.2) s

/-- The value that the bit is set to last -/
def lastValue (values : List (ℕ × Bool)) (q : ℕ) : Option Bool :=
  (values.reverse.find? fun e => e.1 = q).map Prod.snd

theorem getLsbD_bitMask (p : ℕ) {j : ℕ} (hj : j < 8) :
    (bitMask p).toBitVec.getLsbD j = decide (j = p % 8) := by
  have hmod : p % 8 < 8 := Nat.mod_lt p (by omega)
  have hall : ∀ k < 8, ∀ j < 8, (UInt8.ofNat (1 <<< k)).toBitVec.getLsbD j = decide (j = k) := by
    decide
  exact hall (p % 8) hmod j hj

theorem getLsbD_setIn (p : ℕ) (v : Bool) (b : UInt8) {j : ℕ} (hj : j < 8) :
    (setIn p v b).toBitVec.getLsbD j = if j = p % 8 then v else b.toBitVec.getLsbD j := by
  unfold setIn
  cases v with
  | true =>
      rw [if_pos rfl, UInt8.toBitVec_or, BitVec.getLsbD_or, getLsbD_bitMask p hj]
      by_cases h : j = p % 8 <;> simp [h]
  | false =>
      rw [if_neg Bool.false_ne_true, UInt8.toBitVec_and, UInt8.toBitVec_not, BitVec.getLsbD_and,
        BitVec.getLsbD_not, getLsbD_bitMask p hj]
      by_cases h : j = p % 8 <;> simp [h, hj]

/-- A bit is tested. -/
theorem and_bitMask_eq_zero (b : UInt8) (p : ℕ) :
    b &&& bitMask p = 0 ↔ b.toBitVec.getLsbD (p % 8) = false := by
  have hmod : p % 8 < 8 := Nat.mod_lt p (by omega)
  constructor
  · intro h
    have hbit := congrArg (fun c : UInt8 => c.toBitVec.getLsbD (p % 8)) h
    simpa [UInt8.toBitVec_and, BitVec.getLsbD_and, getLsbD_bitMask p hmod] using hbit
  · intro h
    apply UInt8.toBitVec_inj.mp
    refine BitVec.eq_of_getLsbD_eq fun j hj => ?_
    rw [UInt8.toBitVec_and, BitVec.getLsbD_and, getLsbD_bitMask p hj]
    by_cases hj' : j = p % 8
    · rw [hj', h, Bool.false_and]
      exact (BitVec.getLsbD_zero ..).symm
    · simp [hj']

@[simp] theorem length_setBit (s : Bytes) (p : ℕ) (v : Bool) :
    (setBit s p v).length = s.length := by
  simp [setBit]

theorem bitAt_setBit {s : Bytes} {p : ℕ} (hp : p < 8 * s.length) (v : Bool) (q : ℕ) :
    bitAt (setBit s p v) q = if q = p then v else bitAt s q := by
  have hindex : p / 8 < s.length := by omega
  have hq : q % 8 < 8 := Nat.mod_lt q (by omega)
  unfold bitAt setBit
  by_cases hbyte : q / 8 = p / 8
  · have hget : (s.modify (p / 8) (setIn p v)).getD (q / 8) 0 =
        setIn p v (s.getD (q / 8) 0) := by
      simp [List.getD_eq_getElem?_getD, hbyte, hindex]
    rw [hget, getLsbD_setIn p v _ hq]
    by_cases h : q = p
    · simp [h]
    · have hmod : q % 8 ≠ p % 8 := by omega
      rw [if_neg hmod, if_neg h]
  · have hget : (s.modify (p / 8) (setIn p v)).getD (q / 8) 0 = s.getD (q / 8) 0 := by
      simp [List.getD_eq_getElem?_getD, Ne.symm hbyte]
    have hne : q ≠ p := fun h => hbyte (by rw [h])
    rw [hget, if_neg hne]

/-- A number beyond the end sets nothing. -/
theorem setBit_of_le {s : Bytes} {p : ℕ} (hp : 8 * s.length ≤ p) (v : Bool) :
    setBit s p v = s := by
  unfold setBit
  exact List.modify_eq_self (by omega)

/-- A byte string is its bits. -/
theorem eq_of_bitAt {s t : Bytes} (hlen : s.length = t.length)
    (h : ∀ q < 8 * s.length, bitAt s q = bitAt t q) : s = t := by
  refine List.ext_getElem hlen fun i hs ht => ?_
  apply UInt8.toBitVec_inj.mp
  refine BitVec.eq_of_getLsbD_eq fun j hj => ?_
  have hbit := h (8 * i + j) (by omega)
  have hdiv : (8 * i + j) / 8 = i := by omega
  have hmod : (8 * i + j) % 8 = j := by omega
  simpa [bitAt, hdiv, hmod, List.getD_eq_getElem?_getD, hs, ht] using hbit

@[simp] theorem length_setBits (s : Bytes) (values : List (ℕ × Bool)) :
    (setBits s values).length = s.length := by
  induction values generalizing s with
  | nil => rfl
  | cons e values ih =>
      exact (ih (setBit s e.1 e.2)).trans (length_setBit s e.1 e.2)

theorem setBits_append (s : Bytes) (values values' : List (ℕ × Bool)) :
    setBits s (values ++ values') = setBits (setBits s values) values' := by
  simp [setBits]

/-- Every bit has the last value it is set to. -/
theorem bitAt_setBits (s : Bytes) (values : List (ℕ × Bool)) {q : ℕ} (hq : q < 8 * s.length) :
    bitAt (setBits s values) q = (lastValue values q).getD (bitAt s q) := by
  induction values using List.reverseRecOn with
  | nil => rfl
  | append_singleton values e ih =>
      rw [setBits_append, lastValue, List.reverse_append, List.reverse_singleton,
        List.singleton_append, List.find?_cons]
      change bitAt (setBit (setBits s values) e.1 e.2) q = _
      by_cases hp : e.1 < 8 * (setBits s values).length
      · rw [bitAt_setBit hp]
        by_cases h : e.1 = q
        · simp [h]
        · rw [if_neg (Ne.symm h), ih]
          simp [h, lastValue]
      · rw [not_lt] at hp
        have hne : e.1 ≠ q := by
          rw [length_setBits] at hp
          omega
        rw [setBit_of_le hp, ih]
        simp [hne, lastValue]

/-- It only matters which values are set last. -/
theorem setBits_congr (s : Bytes) {values values' : List (ℕ × Bool)}
    (h : ∀ q, lastValue values q = lastValue values' q) : setBits s values = setBits s values' := by
  refine eq_of_bitAt (by simp) fun q hq => ?_
  rw [length_setBits] at hq
  rw [bitAt_setBits s values hq, bitAt_setBits s values' hq, h]

/-- Where every bit is set once its value is in the list. -/
theorem lastValue_eq_some_iff {values : List (ℕ × Bool)} (h : (values.map Prod.fst).Nodup)
    {q : ℕ} {v : Bool} : lastValue values q = some v ↔ (q, v) ∈ values := by
  constructor
  · intro hlast
    obtain ⟨⟨p, w⟩, hfind, rfl⟩ := Option.map_eq_some_iff.mp hlast
    have hq := List.find?_some hfind
    have hmem := List.mem_of_find?_eq_some hfind
    simp only [decide_eq_true_eq] at hq
    rw [← hq]
    exact List.mem_reverse.mp hmem
  · intro hmem
    have hsome : (values.reverse.find? fun e => e.1 = q).isSome := by
      rw [List.find?_isSome]
      exact ⟨(q, v), List.mem_reverse.mpr hmem, by simp⟩
    obtain ⟨⟨p, w⟩, hfind⟩ := Option.isSome_iff_exists.mp hsome
    have hp := List.find?_some hfind
    simp only [decide_eq_true_eq] at hp
    have hpw := List.mem_reverse.mp (List.mem_of_find?_eq_some hfind)
    have heq := List.inj_on_of_nodup_map h hpw hmem hp
    rw [lastValue, hfind, heq, Option.map_some]

/-! ## Strings of set bits -/

/-- Every bit is set. -/
def AllSet (s : Bytes) : Prop := ∀ q < 8 * s.length, bitAt s q = true

/-- No bit is set. -/
def AllClear (s : Bytes) : Prop := ∀ q < 8 * s.length, bitAt s q = false

theorem bitAt_replicate {n q : ℕ} (hq : q < 8 * n) (b : UInt8) :
    bitAt (List.replicate n b) q = b.toBitVec.getLsbD (q % 8) := by
  have hindex : q / 8 < n := by omega
  rw [bitAt, List.getD_eq_getElem?_getD, List.getElem?_replicate, if_pos hindex, Option.getD_some]

/-- There are no set bits beyond the end. -/
theorem lt_of_bitAt {s : Bytes} {p : ℕ} (h : bitAt s p = true) : p < 8 * s.length := by
  by_contra hle
  have hindex : s.length ≤ p / 8 := by omega
  have hbyte : s.getD (p / 8) 0 = 0 := by
    rw [List.getD_eq_getElem?_getD, List.getElem?_eq_none hindex, Option.getD_none]
  rw [bitAt, hbyte] at h
  exact absurd ((BitVec.getLsbD_zero ..).symm.trans h) Bool.noConfusion

/-- The bytes of a string are all the same if its bits are those of the byte. -/
theorem all_beq_iff {s : Bytes} {b : UInt8} :
    (s.all fun i => i == b) = true ↔
      ∀ q < 8 * s.length, bitAt s q = b.toBitVec.getLsbD (q % 8) := by
  rw [List.all_eq_true]
  constructor
  · intro h q hq
    have hsame : s = List.replicate s.length b :=
      List.eq_replicate_iff.mpr ⟨rfl, fun i hi => beq_iff_eq.mp (h i hi)⟩
    rw [hsame]
    exact bitAt_replicate hq b
  · intro h i hi
    have hsame : s = List.replicate s.length b := by
      refine eq_of_bitAt List.length_replicate.symm fun q hq => ?_
      rw [h q hq, bitAt_replicate hq b]
    rw [hsame] at hi
    exact beq_iff_eq.mpr (List.eq_of_mem_replicate hi)

theorem all_ff_iff {s : Bytes} : (s.all fun i => i == 0xff) = true ↔ AllSet s := by
  have hff : ∀ j < 8, (0xff : UInt8).toBitVec.getLsbD j = true := by decide
  rw [all_beq_iff]
  refine forall_congr' fun q => imp_congr_right fun _ => ?_
  rw [hff (q % 8) (Nat.mod_lt q (by omega))]

theorem all_zero_iff {s : Bytes} : (s.all fun i => i == 0) = true ↔ AllClear s := by
  have hzero : ∀ j < 8, (0 : UInt8).toBitVec.getLsbD j = false := by decide
  rw [all_beq_iff]
  refine forall_congr' fun q => imp_congr_right fun _ => ?_
  rw [hzero (q % 8) (Nat.mod_lt q (by omega))]

end BcmServer.Util
