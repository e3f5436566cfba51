import Mathlib.Data.Nat.Digits.Lemmas
import Mathlib.Tactic.Common

/-!
# BcmServer.Util.Bytes — byte strings

A `std::string` is a list of bytes. The decimal text of a number
(`std::to_string` of an unsigned integer) is what the server builds channel
names and identities from, so it matters that it determines the number and
never contains a separator: `decimal_injective`, `notMem_decimal`. The same
holds of the text of a signed integer.
-/

namespace BcmServer.Util

/-- A `std::string`. -/
abbrev Bytes := List UInt8

instance : LawfulBEq Bytes := inferInstanceAs (LawfulBEq (List UInt8))

/-- The bytes of an ASCII text. -/
def ascii (cs : List Char) : Bytes := cs.map Char.toUInt8

/-- The byte of a decimal digit. -/
def digitByte (d : ℕ) : UInt8 := UInt8.ofNat (48 + d)

/-- `std::to_string` of an unsigned integer. -/
def decimal (n : ℕ) : Bytes :=
  if n = 0 then [digitByte 0] else (Nat.digits 10 n).reverse.map digitByte

theorem digitByte_inj {d e : ℕ} (hd : d < 10) (he : e < 10) (h : digitByte d = digitByte e) :
    d = e := by
  have hnat := congrArg UInt8.toNat h
  simp only [digitByte, UInt8.toNat_ofNat'] at hnat
  omega

/-- Digit bytes determine the digits. -/
theorem map_digitByte_inj {l m : List ℕ} (hl : ∀ d ∈ l, d < 10) (hm : ∀ d ∈ m, d < 10)
    (h : l.map digitByte = m.map digitByte) : l = m := by
  induction l generalizing m with
  | nil => exact (List.map_eq_nil_iff.mp h.symm).symm
  | cons d l ih =>
      cases m with
      | nil => simp at h
      | cons e m =>
          rw [List.map_cons, List.map_cons, List.cons.injEq] at h
          obtain ⟨hhead, htail⟩ := h
          have hde : d = e := digitByte_inj (hl d (by simp)) (hm e (by simp)) hhead
          have hlm : l = m :=
            ih (fun x hx => hl x (by simp [hx])) (fun x hx => hm x (by simp [hx])) htail
          rw [hde, hlm]

theorem digits_reverse_lt {n : ℕ} : ∀ d ∈ (Nat.digits 10 n).reverse, d < 10 := by
  intro d hd
  exact Nat.digits_lt_base (by omega) (List.mem_reverse.mp hd)

theorem decimal_ne_nil (n : ℕ) : decimal n ≠ [] := by
  unfold decimal
  split
  · simp
  · rename_i hn
    simpa using Nat.digits_ne_nil_iff_ne_zero.mpr hn

/-- A decimal text determines its number. -/
theorem decimal_injective : Function.Injective decimal := by
  intro n m h
  -- zero is the only number whose text is not its digits
  have hzero : ∀ k, k ≠ 0 → [digitByte 0] ≠ (Nat.digits 10 k).reverse.map digitByte := by
    intro k hk heq
    have hdigits := map_digitByte_inj (l := [0]) (by simp) digits_reverse_lt heq
    have hlast := Nat.getLast_digit_ne_zero 10 hk
    have hrev : Nat.digits 10 k = [0] := by
      rw [← List.reverse_reverse (Nat.digits 10 k), ← hdigits, List.reverse_singleton]
    simp [hrev] at hlast
  unfold decimal at h
  split at h <;> split at h
  · omega
  · exact absurd h (hzero m ‹_›)
  · exact absurd h.symm (hzero n ‹_›)
  · have hrev := map_digitByte_inj digits_reverse_lt digits_reverse_lt h
    exact Nat.digits_inj_iff.mp (List.reverse_inj.mp hrev)

theorem notMem_decimal {c : UInt8} (hdigit : ∀ d, d < 10 → digitByte d ≠ c) (n : ℕ) :
    c ∉ decimal n := by
  unfold decimal
  split
  · simp [(hdigit 0 (by omega)).symm]
  · intro hmem
    obtain ⟨d, hd, hbyte⟩ := List.mem_map.mp hmem
    exact hdigit d (digits_reverse_lt d hd) hbyte

/-- `std::to_string` of a signed integer. -/
def intDecimal (n : ℤ) : Bytes :=
  if n < 0 then ascii ['-'] ++ decimal n.natAbs else decimal n.natAbs

theorem intDecimal_injective : Function.Injective intDecimal := by
  intro n m h
  -- the sign is not a digit
  have hsign : ∀ j k, ascii ['-'] ++ decimal j ≠ decimal k := by
    intro j k heq
    have hmem : '-'.toUInt8 ∈ decimal k := by
      rw [← heq]
      exact List.mem_cons_self
    exact notMem_decimal (by decide) k hmem
  unfold intDecimal at h
  split at h <;> split at h
  · have habs := decimal_injective (List.append_cancel_left h)
    omega
  · exact absurd h (hsign _ _)
  · exact absurd h.symm (hsign _ _)
  · have habs := decimal_injective h
    omega

theorem notMem_intDecimal {c : UInt8} (hdigit : ∀ d, d < 10 → digitByte d ≠ c)
    (hsign : c ≠ '-'.toUInt8) (n : ℤ) : c ∉ intDecimal n := by
  unfold intDecimal
  split
  · intro hmem
    obtain hmem | hmem := List.mem_append.mp hmem
    · exact hsign (List.mem_singleton.mp hmem)
    · exact notMem_decimal hdigit _ hmem
  · exact notMem_decimal hdigit _

/-- The separator of addresses is not a digit. -/
def colon : UInt8 := ':'.toUInt8

theorem colon_notMem_decimal (n : ℕ) : colon ∉ decimal n :=
  notMem_decimal (by decide) n

/-- A text is split at its last separator in one way only. -/
theorem append_separator_inj {α : Type*} {c : α} {l l' t t' : List α} (ht : c ∉ t) (ht' : c ∉ t')
    (h : l ++ c :: t = l' ++ c :: t') : l = l' ∧ t = t' := by
  obtain ⟨m, hl, hm⟩ | ⟨m, hl, hm⟩ := List.append_eq_append_iff.mp h
  · cases m with
    | nil => simp_all
    | cons x m =>
        rw [List.cons_append, List.cons.injEq] at hm
        exact absurd (hm.2 ▸ List.mem_append_right m (List.mem_cons_self)) ht
  · cases m with
    | nil => simp_all
    | cons x m =>
        rw [List.cons_append, List.cons.injEq] at hm
        exact absurd (hm.2 ▸ List.mem_append_right m (List.mem_cons_self)) ht'

end BcmServer.Util
