import BcmServer.Util.Bytes
import Mathlib.Data.List.TakeWhile

/-!
# BcmServer.Util.Base64 — Base64 texts

Three bytes are four digits of six bits; what is missing at the end is filled with
`=`. A text is read back (`decode_encode`), it has no other byte than its digits and
the filling (`encode_eq_digits`), and its length tells how long the text was.
-/

namespace BcmServer.Util.Base64

/-- `=` -/
def pad : UInt8 := 61

/-- The digit of a number below 64 -/
def digit (n : ℕ) : UInt8 :=
  UInt8.ofNat
    (if n < 26 then n + 65 else if n < 52 then n + 71 else if n < 62 then n - 4
      else if n = 62 then 43 else 47)

/-- The number of a digit -/
def index (c : UInt8) : ℕ :=
  if 97 ≤ c then c.toNat - 71 else if 65 ≤ c then c.toNat - 65
  else if 48 ≤ c then c.toNat + 4 else if c = 43 then 62 else 63

/-- The `i`-th byte from the right -/
def byteAt (n i : ℕ) : UInt8 := UInt8.ofNat (n / 256 ^ i)

def encode : Bytes → Bytes
  | [] => []
  | [a] =>
      let n := a.toNat * 16
      [digit (n / 64), digit (n % 64), pad, pad]
  | [a, b] =>
      let n := (a.toNat * 256 + b.toNat) * 4
      [digit (n / 4096), digit (n / 64 % 64), digit (n % 64), pad]
  | a :: b :: c :: rest =>
      let n := a.toNat * 65536 + b.toNat * 256 + c.toNat
      [digit (n / 262144), digit (n / 4096 % 64), digit (n / 64 % 64), digit (n % 64)] ++
        encode rest

def decode : Bytes → Bytes
  | w :: x :: y :: z :: rest =>
      if y = pad then [UInt8.ofNat ((index w * 64 + index x) / 16)]
      else if z = pad then
        let n := index w * 4096 + index x * 64 + index y
        [UInt8.ofNat (n / 1024), UInt8.ofNat (n / 4)]
      else
        let n := index w * 262144 + index x * 4096 + index y * 64 + index z
        [byteAt n 2, byteAt n 1, byteAt n 0] ++ decode rest
  | _ => []

theorem index_digit {n : ℕ} (h : n < 64) : index (digit n) = n := by
  have hall : ∀ n < 64, index (digit n) = n := by decide
  exact hall n h

theorem digit_ne_pad {n : ℕ} (h : n < 64) : digit n ≠ pad := by
  have hall : ∀ n < 64, digit n ≠ pad := by decide
  exact hall n h

/-- No digit ends a line. -/
theorem digit_ne_return {n : ℕ} (h : n < 64) : digit n ≠ 13 := by
  have hall : ∀ n < 64, digit n ≠ 13 := by decide
  exact hall n h

theorem ofNat_eq {n : ℕ} {a : UInt8} (h : n % 256 = a.toNat) : UInt8.ofNat n = a := by
  apply UInt8.toNat_inj.mp
  rw [UInt8.toNat_ofNat', h]

theorem decode_encode (s : Bytes) : decode (encode s) = s := by
  induction s using encode.induct with
  | case1 => rfl
  | case2 a =>
      have ha := a.toNat_lt
      simp only [encode, decode, if_true]
      rw [index_digit (by omega), index_digit (by omega)]
      rw [ofNat_eq (a := a) (by omega)]
  | case3 a b =>
      have ha := a.toNat_lt
      have hb := b.toNat_lt
      simp only [encode, decode, if_true]
      rw [if_neg (digit_ne_pad (by omega)), index_digit (by omega), index_digit (by omega),
        index_digit (by omega)]
      rw [ofNat_eq (a := a) (by omega), ofNat_eq (a := b) (by omega)]
  | case4 a b c rest ih =>
      have ha := a.toNat_lt
      have hb := b.toNat_lt
      have hc := c.toNat_lt
      simp only [encode, decode, List.cons_append, List.nil_append, byteAt]
      rw [if_neg (digit_ne_pad (by omega)), if_neg (digit_ne_pad (by omega)), ih,
        index_digit (by omega), index_digit (by omega), index_digit (by omega),
        index_digit (by omega)]
      rw [ofNat_eq (a := a) (by omega), ofNat_eq (a := b) (by omega), ofNat_eq (a := c) (by omega)]

/-- The digits of a text -/
def digits : Bytes → Bytes
  | [] => []
  | [a] =>
      let n := a.toNat * 16
      [digit (n / 64), digit (n % 64)]
  | [a, b] =>
      let n := (a.toNat * 256 + b.toNat) * 4
      [digit (n / 4096), digit (n / 64 % 64), digit (n % 64)]
  | a :: b :: c :: rest =>
      let n := a.toNat * 65536 + b.toNat * 256 + c.toNat
      [digit (n / 262144), digit (n / 4096 % 64), digit (n / 64 % 64), digit (n % 64)] ++
        digits rest

/-- A text is its digits and the filling. -/
theorem encode_eq_digits (s : Bytes) :
    encode s = digits s ++ List.replicate ((3 - s.length % 3) % 3) pad := by
  induction s using encode.induct with
  | case1 => rfl
  | case2 a => rfl
  | case3 a b => rfl
  | case4 a b c rest ih =>
      have hlen : (a :: b :: c :: rest).length % 3 = rest.length % 3 := Nat.add_mod_right _ 3
      rw [encode, ih, digits, hlen, List.append_assoc]

theorem length_digits (s : Bytes) : (digits s).length = (4 * s.length + 2) / 3 := by
  induction s using encode.induct with
  | case1 => rfl
  | case2 a => simp [digits]
  | case3 a b => simp [digits]
  | case4 a b c rest ih =>
      rw [digits, List.length_append, ih, List.length_cons, List.length_cons, List.length_cons,
        List.length_cons, List.length_cons, List.length_cons, List.length_cons, List.length_nil]
      omega

theorem mem_digits {s : Bytes} {x : UInt8} (h : x ∈ digits s) : ∃ n < 64, x = digit n := by
  induction s using encode.induct with
  | case1 => cases h
  | case2 a =>
      have ha := a.toNat_lt
      simp only [digits, List.mem_cons, List.not_mem_nil, or_false] at h
      rcases h with rfl | rfl
      · exact ⟨_, by omega, rfl⟩
      · exact ⟨_, by omega, rfl⟩
  | case3 a b =>
      have ha := a.toNat_lt
      have hb := b.toNat_lt
      simp only [digits, List.mem_cons, List.not_mem_nil, or_false] at h
      rcases h with rfl | rfl | rfl
      · exact ⟨_, by omega, rfl⟩
      · exact ⟨_, by omega, rfl⟩
      · exact ⟨_, by omega, rfl⟩
  | case4 a b c rest ih =>
      have ha := a.toNat_lt
      have hb := b.toNat_lt
      have hc := c.toNat_lt
      simp only [digits, List.mem_append, List.mem_cons, List.not_mem_nil, or_false] at h
      rcases h with (rfl | rfl | rfl | rfl) | h
      · exact ⟨_, by omega, rfl⟩
      · exact ⟨_, by omega, rfl⟩
      · exact ⟨_, by omega, rfl⟩
      · exact ⟨_, by omega, rfl⟩
      · exact ih h

/-- A byte that is no digit is not among the digits. -/
theorem notMem_digits {x : UInt8} (hx : ∀ n < 64, digit n ≠ x) (s : Bytes) : x ∉ digits s := by
  intro h
  obtain ⟨n, hn, rfl⟩ := mem_digits h
  exact hx n hn rfl

/-- What ends a text with the digits of another in front, from the end -/
theorem takeWhile_pad_digits (s : Bytes) : (digits s).reverse.takeWhile (· == pad) = [] := by
  rw [List.takeWhile_eq_nil_iff]
  intro h hlast
  have hmem := List.get_mem (digits s).reverse ⟨0, h⟩
  rw [beq_iff_eq.mp hlast] at hmem
  exact notMem_digits (fun _ => digit_ne_pad) s (List.mem_reverse.mp hmem)

theorem encode_ne_nil {s : Bytes} (h : s ≠ []) : encode s ≠ [] := by
  intro hnil
  have hdecode := decode_encode s
  rw [hnil] at hdecode
  exact h hdecode.symm

theorem return_notMem_encode (s : Bytes) : 13 ∉ encode s := by
  rw [encode_eq_digits, List.mem_append, List.mem_replicate, not_or]
  exact ⟨notMem_digits (fun _ => digit_ne_return) s, fun h => absurd h.2 (by decide)⟩

/-- The digits say how long the text was, but for the filling. -/
theorem length_encode (s : Bytes) : (encode s).length / 4 * 3 =
    s.length + ((encode s).reverse.takeWhile (· == pad)).length := by
  rw [encode_eq_digits, List.reverse_append, List.reverse_replicate, List.length_append,
    List.length_replicate, List.takeWhile_append_of_pos (by simp), takeWhile_pad_digits,
    List.append_nil, List.length_replicate, length_digits]
  omega

end BcmServer.Util.Base64
