import BcmServer.Util.Bytes
import Mathlib.Tactic.IntervalCases

/-!
# BcmServer.Auth.Challenge — the challenge of a registration

Who registers has to find a number, such that the hash of it, the uid and what the
server has asked for begins with a number of zeros.

* `challengeData_injective`: the bytes that are hashed bind all of these.
* `verifyChallenge_iff`: the test of the server counts the leading zero bits.
-/

namespace BcmServer.Auth

open Util

/-- `Sha256Hash` -/
structure Sha256Hash where
  value : Bytes
  length_value : value.length = 32
deriving DecidableEq, Repr

/-- `htobe32`, as the bytes in memory -/
def htobe32 (n : UInt32) : Bytes :=
  [(n >>> 24).toUInt8, (n >>> 16).toUInt8, (n >>> 8).toUInt8, n.toUInt8]

/-- `be32toh` of the first bytes in memory -/
def be32toh (s : Bytes) : UInt32 :=
  (s.getD 0 0).toUInt32 <<< 24 ||| (s.getD 1 0).toUInt32 <<< 16 |||
    (s.getD 2 0).toUInt32 <<< 8 ||| (s.getD 3 0).toUInt32

/-- The bytes that `getChallengeHash` hashes -/
def challengeData (uid : Bytes) (difficulty serverNonce clientNonce : UInt32) : Bytes :=
  ascii ['B', 'C', 'M'] ++ uid ++ htobe32 serverNonce ++ htobe32 difficulty ++ htobe32 clientNonce

variable (getDoubleHash : Bytes → Sha256Hash)

/-- `AccountHelper::getChallengeHash` -/
def getChallengeHash (uid : Bytes) (difficulty serverNonce clientNonce : UInt32) : Sha256Hash :=
  getDoubleHash (challengeData uid difficulty serverNonce clientNonce)

/-- `AccountHelper::verifyChallenge` -/
def verifyChallenge (uid : Bytes) (difficulty serverNonce clientNonce : UInt32) : Bool :=
  if difficulty < 1 then true
  else if difficulty > 32 then false
  else
    let hash := getChallengeHash getDoubleHash uid difficulty serverNonce clientNonce
    let comparing := be32toh hash.value
    let target := UInt32.ofNat (2 ^ (32 - difficulty).toNat)
    comparing < target

/-- A bit of a byte string, from the left -/
def bitFromLeft (s : Bytes) (i : ℕ) : Bool := (s.getD (i / 8) 0).toBitVec.getMsbD (i % 8)

/-! ## What is hashed -/

theorem htobe32_injective : Function.Injective htobe32 := by
  intro n m h
  simp only [htobe32, List.cons.injEq, and_true] at h
  obtain ⟨h₃, h₂, h₁, h₀⟩ := h
  apply UInt32.toNat_inj.mp
  have hn := n.toNat_lt
  have hm := m.toNat_lt
  -- the bytes are digits to the base 256
  replace h₃ := congrArg UInt8.toNat h₃
  replace h₂ := congrArg UInt8.toNat h₂
  replace h₁ := congrArg UInt8.toNat h₁
  replace h₀ := congrArg UInt8.toNat h₀
  simp only [UInt32.toNat_toUInt8, UInt32.toNat_shiftRight, Nat.shiftRight_eq_div_pow] at h₃ h₂ h₁ h₀
  simp at h₃ h₂ h₁ h₀
  omega

theorem length_htobe32 (n : UInt32) : (htobe32 n).length = 4 := rfl

/-- Three numbers of fixed width end the data, so the uid is what comes before them. -/
theorem challengeData_injective {uid uid' : Bytes}
    {difficulty serverNonce clientNonce difficulty' serverNonce' clientNonce' : UInt32}
    (h : challengeData uid difficulty serverNonce clientNonce =
      challengeData uid' difficulty' serverNonce' clientNonce') :
    uid = uid' ∧ difficulty = difficulty' ∧ serverNonce = serverNonce' ∧
      clientNonce = clientNonce' := by
  obtain ⟨h, hclient⟩ := List.append_inj' h (by rw [length_htobe32, length_htobe32])
  obtain ⟨h, hdifficulty⟩ := List.append_inj' h (by rw [length_htobe32, length_htobe32])
  obtain ⟨h, hserver⟩ := List.append_inj' h (by rw [length_htobe32, length_htobe32])
  exact ⟨List.append_cancel_left h, htobe32_injective hdifficulty, htobe32_injective hserver,
    htobe32_injective hclient⟩

/-! ## The leading bits -/

/-- The first bits are those of the number, from the left. -/
theorem testBit_be32toh (s : Bytes) {i : ℕ} (hi : i < 32) :
    (be32toh s).toNat.testBit (31 - i) = bitFromLeft s i := by
  show (be32toh s).toBitVec.getLsbD (31 - i) = _
  interval_cases i <;> simp [be32toh, bitFromLeft, BitVec.getMsbD]

/-- A number is below a power of two if its bits from there on are zero. -/
theorem lt_two_pow_iff {n k : ℕ} : n < 2 ^ k ↔ ∀ j, k ≤ j → n.testBit j = false := by
  constructor
  · intro h j hj
    exact Nat.testBit_lt_two_pow (Nat.lt_of_lt_of_le h (Nat.pow_le_pow_right (by omega) hj))
  · exact Nat.lt_pow_two_of_testBit n

/-- The number in front of a byte string is below a power of two if so many bits are zero. -/
theorem be32toh_lt_iff (s : Bytes) {n : ℕ} (hn : n ≤ 32) :
    (be32toh s).toNat < 2 ^ (32 - n) ↔ ∀ i < n, bitFromLeft s i = false := by
  rw [lt_two_pow_iff]
  constructor
  · intro h i hi
    rw [← testBit_be32toh s (by omega)]
    exact h (31 - i) (by omega)
  · intro h j hj
    by_cases hlt : j < 32
    · have hbit := testBit_be32toh s (show 31 - j < 32 by omega)
      rw [show 31 - (31 - j) = j by omega] at hbit
      rw [hbit]
      exact h (31 - j) (by omega)
    · exact Nat.testBit_lt_two_pow
        (Nat.lt_of_lt_of_le (UInt32.toNat_lt _) (Nat.pow_le_pow_right (by omega) (by omega)))

theorem verifyChallenge_iff (uid : Bytes) {difficulty : UInt32} (serverNonce clientNonce : UInt32)
    (h : 1 ≤ difficulty ∧ difficulty ≤ 32) :
    verifyChallenge getDoubleHash uid difficulty serverNonce clientNonce = true ↔
      ∀ i < difficulty.toNat, bitFromLeft
        (getChallengeHash getDoubleHash uid difficulty serverNonce clientNonce).value i = false := by
  have hle : difficulty.toNat ≤ 32 := h.2
  have hpos : 1 ≤ difficulty.toNat := h.1
  have htarget : (UInt32.ofNat (2 ^ (32 - difficulty).toNat)).toNat = 2 ^ (32 - difficulty.toNat) := by
    have hpow : 2 ^ (32 - difficulty.toNat) ≤ 2 ^ 31 := Nat.pow_le_pow_right (by omega) (by omega)
    rw [UInt32.toNat_sub_of_le _ _ h.2, UInt32.toNat_ofNat']
    exact Nat.mod_eq_of_lt (Nat.lt_of_le_of_lt hpow (by decide))
  rw [verifyChallenge, if_neg (UInt32.not_lt.mpr h.1), if_neg (UInt32.not_lt.mpr h.2),
    decide_eq_true_iff, UInt32.lt_iff_toNat_lt, htarget]
  exact be32toh_lt_iff _ hle

/-- The bytes that are hashed say what the challenge is of, and the answer to it is accepted if
and only if the hash begins with as many zero bits as the difficulty says. -/
theorem challenge_binds (getDoubleHash : Bytes → Sha256Hash) :
    (∀ uid uid' difficulty difficulty' serverNonce serverNonce' clientNonce clientNonce',
      challengeData uid difficulty serverNonce clientNonce =
          challengeData uid' difficulty' serverNonce' clientNonce' →
        uid = uid' ∧ difficulty = difficulty' ∧ serverNonce = serverNonce' ∧
          clientNonce = clientNonce') ∧
    ∀ uid difficulty serverNonce clientNonce, 1 ≤ difficulty ∧ difficulty ≤ 32 →
      (verifyChallenge getDoubleHash uid difficulty serverNonce clientNonce = true ↔
        ∀ i < difficulty.toNat, bitFromLeft
          (getChallengeHash getDoubleHash uid difficulty serverNonce clientNonce).value i =
            false) :=
  ⟨fun _ _ _ _ _ _ _ _ => challengeData_injective, fun uid _ serverNonce clientNonce =>
    verifyChallenge_iff getDoubleHash uid serverNonce clientNonce⟩

end BcmServer.Auth
