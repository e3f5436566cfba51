import BcmServer.Lts.Loop
import BcmServer.Util.Thrown
import Mathlib.Algebra.Order.Ring.Int

/-!
# BcmServer.Crypto.AnyBase — numbers in a base

`encode` takes the digits of a number from its end, by division, and turns their symbols
around. `decode` has the values of the symbols from ranges of characters of its own.

* `encodeLoop_eq`: the loop makes the digits of the number, with one digit for zero.
* `number_reads_back`: in a base from 2 to 62 a number is read back, and no zero is in front
  of its digits.

The base is an `int` and becomes a `uint64_t` where it meets the number. Division by zero
and a symbol that there is not are undefined.
-/

namespace BcmServer.Crypto.AnyBase

open Util Lts

def kNumberSymbol : Bytes :=
  ascii "0123456789abcdefghijklmnopqrstuvwxyzABCDEFGHIJKLMNOPQRSTUVWXYZ".toList

def kMaxBase : Int32 := 62

/-- An `int` in an operation with a `uint64_t` -/
def converted (base : Int32) : UInt64 := base.toInt64.toUInt64

/-- A round of the loop of `encode`, with `num` and `vtmp` -/
def encodeRound (base : UInt64) :
    Except Fault (UInt64 × Bytes) → Bool × Except Fault (UInt64 × Bytes)
  | .error fault => (true, .error fault)
  | .ok (num, vtmp) =>
      if base = 0 then (true, .error .undefined)
      else
        match kNumberSymbol[(num % base).toNat]? with
        | none => (true, .error .undefined)
        | some symbol => (num / base = 0, .ok (num / base, vtmp ++ [symbol]))

/-- `encode`, with so many rounds at most and the text that is passed in and out; none, if the
loop goes on -/
def encode (rounds : ℕ) (num : UInt64) (base : Int32) (encoded : Bytes) :
    Option (Except Fault (Bool × Bytes)) :=
  if base > kMaxBase then some (.ok (false, encoded))
  else (loop (encodeRound (converted base)) rounds (.ok (num, []))).map
    (·.map fun s => (true, s.2.reverse))

/-- The value of a symbol -/
def symbolValue (c : UInt8) : Option UInt64 :=
  if 48 ≤ c ∧ c ≤ 57 then some (c.toUInt64 - 48)
  else if 97 ≤ c ∧ c ≤ 122 then some (c.toUInt64 - 97 + 10)
  else if 65 ≤ c ∧ c ≤ 90 then some (c.toUInt64 - 65 + 36)
  else none

/-- The loop of `decode`, with the number so far: a character that is no symbol ends it. -/
def decodeLoop (base : UInt64) : Bytes → UInt64 → Bool × UInt64
  | [], num => (true, num)
  | c :: rest, num =>
      match symbolValue c with
      | none => (false, num)
      | some tmp => decodeLoop base rest (num * base + tmp)

/-- `decode`, with the number that is passed in and out -/
def decode (encoded : Bytes) (base : Int32) (num : UInt64) : Bool × UInt64 :=
  if base > kMaxBase then (false, num) else decodeLoop (converted base) encoded 0

/-! ## Symbols -/

/-- The symbol of a digit -/
def symbol (d : ℕ) : UInt8 := kNumberSymbol.getD d 0

theorem kNumberSymbol_get {d : ℕ} (h : d < 62) : kNumberSymbol[d]? = some (symbol d) := by
  have hall : ∀ d < 62, kNumberSymbol[d]? = some (symbol d) := by decide +kernel
  exact hall d h

/-- `decode` knows the symbols of `encode`. -/
theorem symbolValue_symbol {d : ℕ} (h : d < 62) :
    symbolValue (symbol d) = some (UInt64.ofNat d) := by
  have hall : ∀ d < 62, symbolValue (symbol d) = some (UInt64.ofNat d) := by decide +kernel
  exact hall d h

theorem eq_zero_of_symbol {d : ℕ} (h : d < 62) (hzero : symbol d = symbol 0) : d = 0 := by
  have hall : ∀ d < 62, symbol d = symbol 0 → d = 0 := by decide +kernel
  exact hall d h hzero

/-! ## Digits -/

/-- The digits of a number from its end; zero has one. -/
def digits (base n : ℕ) : List ℕ := n % base :: Nat.digits base (n / base)

section Digits

variable {base n : ℕ}

theorem digits_lt (hbase : 2 ≤ base) : ∀ d ∈ digits base n, d < base := by
  intro d hd
  rcases List.mem_cons.mp hd with rfl | hd
  · exact Nat.mod_lt n (by omega)
  · exact Nat.digits_lt_base (by omega) hd

theorem digits_of_lt (h : n < base) : digits base n = [n] := by
  rw [digits, Nat.mod_eq_of_lt h, Nat.div_eq_of_lt h, Nat.digits_zero]

theorem digits_of_le (hbase : 2 ≤ base) (h : base ≤ n) :
    digits base n = n % base :: digits base (n / base) := by
  have hpos : 0 < n / base := Nat.div_pos h (by omega)
  rw [digits, Nat.digits_def' (by omega) hpos]
  rfl

theorem ofDigits_digits (base n : ℕ) : Nat.ofDigits base (digits base n) = n := by
  rw [digits, Nat.ofDigits_cons, Nat.ofDigits_digits]
  exact Nat.mod_add_div n base

theorem length_digits_le (hbase : 2 ≤ base) {k : ℕ} (h : n < base ^ (k + 1)) :
    (digits base n).length ≤ k + 1 := by
  have hdiv : n / base < base ^ k := by
    rw [Nat.div_lt_iff_lt_mul (by omega), ← pow_succ]
    exact h
  exact Nat.succ_le_succ ((Nat.digits_length_le_iff (by omega) _).mpr hdiv)

/-- The last digit is zero for zero alone. -/
theorem digits_getLast (hbase : 2 ≤ base) (h : (digits base n).getLast? = some 0) :
    digits base n = [0] := by
  rcases Nat.lt_or_ge n base with hlt | hge
  · rw [digits_of_lt hlt] at h ⊢
    have hzero : n = 0 := Option.some.inj h
    rw [hzero]
  · have hpos : n / base ≠ 0 := Nat.pos_iff_ne_zero.mp (Nat.div_pos hge (by omega))
    have hne : Nat.digits base (n / base) ≠ [] := Nat.digits_ne_nil_iff_ne_zero.mpr hpos
    have hlast := Nat.getLast_digit_ne_zero base hpos
    rw [digits, List.getLast?_cons, List.getLast?_eq_some_getLast hne, Option.getD_some] at h
    exact absurd (Option.some.inj h) hlast

end Digits

/-! ## Round trips -/

section Base

variable {base : UInt64}

/-- The loop of `encode` collects the digits of the number. -/
theorem encodeLoop_eq (hbase : 2 ≤ base.toNat) (hmax : base.toNat ≤ 62) {rounds : ℕ}
    {num : UInt64} (h : (digits base.toNat num.toNat).length ≤ rounds) (vtmp : Bytes) :
    loop (encodeRound base) rounds (.ok (num, vtmp)) =
      some (.ok (0, vtmp ++ (digits base.toNat num.toNat).map symbol)) := by
  induction rounds generalizing num vtmp with
  | zero => exact absurd h (Nat.not_succ_le_zero _)
  | succ rounds ih =>
      have hne : base ≠ 0 := by
        rintro rfl
        exact absurd hbase (by decide)
      have hdigit : num.toNat % base.toNat < base.toNat := Nat.mod_lt _ (by omega)
      have hround : encodeRound base (.ok (num, vtmp)) = (decide (num / base = 0),
          .ok (num / base, vtmp ++ [symbol (num.toNat % base.toNat)])) := by
        rw [encodeRound, if_neg hne, UInt64.toNat_mod, kNumberSymbol_get (by omega)]
      rw [loop, hround]
      rcases Nat.lt_or_ge num.toNat base.toNat with hlt | hge
      · have hleft : num / base = 0 := by
          rw [← UInt64.toNat_inj, UInt64.toNat_div, Nat.div_eq_of_lt hlt]
          rfl
        rw [digits_of_lt hlt, Nat.mod_eq_of_lt hlt, hleft]
        rfl
      · have hstay : num / base ≠ 0 := by
          rw [ne_eq, ← UInt64.toNat_inj, UInt64.toNat_div]
          exact Nat.pos_iff_ne_zero.mp (Nat.div_pos hge (by omega))
        rw [digits_of_le hbase hge, List.length_cons] at h
        rw [digits_of_le hbase hge]
        simp only [hstay, decide_false, Bool.false_eq_true, if_false]
        rw [ih (by rw [UInt64.toNat_div]; omega), UInt64.toNat_div, List.append_assoc]
        rfl

/-- The loop of `decode` makes a number of symbols, modulo 2^64. -/
theorem decodeLoop_eq {ds : List ℕ} (h : ∀ d ∈ ds, d < 62) (num : ℕ) :
    decodeLoop base (ds.map symbol) (UInt64.ofNat num) =
      (true, UInt64.ofNat (ds.foldl (fun num d => num * base.toNat + d) num)) := by
  induction ds generalizing num with
  | nil => rfl
  | cons d ds ih =>
      have hstep : UInt64.ofNat num * base + UInt64.ofNat d =
          UInt64.ofNat (num * base.toNat + d) := by
        rw [UInt64.ofNat_add, UInt64.ofNat_mul, UInt64.ofNat_toNat]
      rw [List.map_cons, decodeLoop, symbolValue_symbol (h d List.mem_cons_self)]
      simp only [hstep]
      exact ih (fun d' hd' => h d' (List.mem_cons_of_mem d hd')) _

end Base

theorem foldl_reverse_digits (base n : ℕ) :
    (digits base n).reverse.foldl (fun num d => num * base + d) 0 = n := by
  have hfold : ∀ ds : List ℕ, ds.reverse.foldl (fun num d => num * base + d) 0 =
      Nat.ofDigits base ds := by
    intro ds
    induction ds with
    | nil => rfl
    | cons d ds ih =>
        rw [List.reverse_cons, List.foldl_append, ih, Nat.ofDigits_cons, List.foldl_cons,
          List.foldl_nil, Nat.mul_comm, Nat.add_comm]
  rw [hfold, ofDigits_digits]

/-- What a base from 2 to 62 is converted to -/
theorem toNat_converted {base : Int32} (hbase : 2 ≤ base) (hmax : base ≤ 62) :
    2 ≤ (converted base).toNat ∧ (converted base).toNat ≤ 62 := by
  have hlow : 2 ≤ base.toInt := Int32.le_iff_toInt_le.mp hbase
  have hhigh : base.toInt ≤ 62 := Int32.le_iff_toInt_le.mp hmax
  have hnonneg : 0 ≤ base.toInt64 := by
    rw [Int64.le_iff_toInt_le, Int32.toInt_toInt64]
    exact (by decide : (0 : ℤ) ≤ 2).trans hlow
  have hnat : (converted base).toNat = base.toInt.toNat := by
    rw [converted, Int64.toNat_toUInt64_of_le hnonneg, Int64.toNatClampNeg, Int32.toInt_toInt64]
  omega

/-- In a base from 2 to 62, `encode` ends after 64 rounds at most. Its text has no zero in front
of other digits, and `decode` reads the number back. -/
theorem number_reads_back (num : UInt64) (base : Int32) (hbase : 2 ≤ base) (hmax : base ≤ 62)
    (encoded : Bytes) (out : UInt64) :
    ∃ text, (∀ rounds, 64 ≤ rounds → encode rounds num base encoded = some (.ok (true, text))) ∧
      text ≠ [] ∧ (text.head? = some (symbol 0) → text = [symbol 0]) ∧
      decode text base out = (true, num) := by
  obtain ⟨hconverted, hconverted'⟩ := toNat_converted hbase hmax
  have hguard : ¬ base > kMaxBase := Int32.not_lt.mpr hmax
  generalize hb : converted base = b at hconverted hconverted'
  have hlt : num.toNat < b.toNat ^ (63 + 1) :=
    num.toNat_lt.trans_le (Nat.pow_le_pow_left hconverted 64)
  have hlength := length_digits_le hconverted hlt
  have hdigits : ∀ d ∈ (digits b.toNat num.toNat), d < 62 := fun d hd =>
    (digits_lt hconverted d hd).trans_le hconverted'
  refine ⟨(digits b.toNat num.toNat).reverse.map symbol, fun rounds hrounds => ?_, ?_, ?_, ?_⟩
  · rw [encode, if_neg hguard, hb, encodeLoop_eq hconverted hconverted' (hlength.trans hrounds)]
    simp [Except.map]
  · simp [digits]
  · intro hhead
    rw [List.head?_map, List.head?_reverse] at hhead
    obtain ⟨d, hd, hzero⟩ := Option.map_eq_some_iff.mp hhead
    have hmem := List.mem_of_getLast? hd
    rw [eq_zero_of_symbol (hdigits d hmem) hzero] at hd
    rw [digits_getLast hconverted hd]
    rfl
  · rw [decode, if_neg hguard, hb]
    have hreverse : ∀ d ∈ (digits b.toNat num.toNat).reverse, d < 62 := fun d hd =>
      hdigits d (List.mem_reverse.mp hd)
    refine (decodeLoop_eq hreverse 0).trans ?_
    rw [foldl_reverse_digits, UInt64.ofNat_toNat]

/-- The greatest number, in the greatest base -/
theorem number_reads_back_max : ∃ text,
    (∀ rounds, 64 ≤ rounds → encode rounds (-1) 62 [] = some (.ok (true, text))) ∧
      text ≠ [] ∧ (text.head? = some (symbol 0) → text = [symbol 0]) ∧
      decode text 62 0 = (true, -1) :=
  number_reads_back (-1) 62 (by decide) (by decide) [] 0

end BcmServer.Crypto.AnyBase
