import BcmServer.Util.Json
import BcmServer.Util.Text
import Mathlib.Data.List.Sort

/-!
# BcmServer.Util.JsonText — the compact text of a JSON value

`dump` prints a value the way `nlohmann::json` does without an indentation, and
`parse` reads such texts. Texts with blanks or floating-point numbers are not read.

* `JsonRoundTrips`: what is assumed of a printer and a parser, for the values whose
  text determines them.
* `parse_dump`: these two satisfy it.
* `utf8_dump`: a text that is printed can be a string of another value.
-/

namespace BcmServer.Util

/-- The bytes are valid UTF-8. -/
def Utf8 (s : Bytes) : Prop := s.toByteArray.IsValidUTF8

theorem utf8_nil : Utf8 [] := ⟨[], rfl⟩

theorem utf8_iff {s : Bytes} : Utf8 s ↔ ∃ cs : List Char, s = cs.flatMap String.utf8EncodeChar := by
  constructor
  · rintro ⟨cs, hcs⟩
    refine ⟨cs, ?_⟩
    have hdata := congrArg (fun b : ByteArray => b.data.toList) hcs
    simpa [List.utf8Encode] using hdata
  · rintro ⟨cs, rfl⟩
    exact ⟨cs, rfl⟩

theorem Utf8.append {s t : Bytes} (hs : Utf8 s) (ht : Utf8 t) : Utf8 (s ++ t) := by
  rw [utf8_iff] at hs ht ⊢
  rcases hs with ⟨cs, rfl⟩
  rcases ht with ⟨ds, rfl⟩
  exact ⟨cs ++ ds, by rw [List.flatMap_append]⟩

/-- The byte is a character of its own. -/
def Ascii (c : UInt8) : Prop := c < 128

instance (c : UInt8) : Decidable (Ascii c) := inferInstanceAs (Decidable (c < 128))

theorem utf8_singleton {c : UInt8} (h : Ascii c) : Utf8 [c] := by
  have hlt : c.toNat < 128 := UInt8.lt_iff_toNat_lt.mp h
  have hvalid : (Char.ofNat c.toNat).val.toNat = c.toNat := by
    have hchar : c.toNat.isValidChar := Or.inl (by omega)
    exact congrArg (fun d : Char => d.val.toNat) (dif_pos hchar)
  rw [utf8_iff]
  refine ⟨[Char.ofNat c.toNat], ?_⟩
  rw [List.flatMap_singleton, String.utf8EncodeChar]
  simp only [hvalid]
  rw [if_pos (by omega), UInt8.ofNat_toNat]

theorem utf8_ascii {s : Bytes} (h : ∀ c ∈ s, Ascii c) : Utf8 s := by
  induction s with
  | nil => exact utf8_nil
  | cons c s ih =>
      rw [List.forall_mem_cons] at h
      exact (utf8_singleton h.1).append (ih h.2)

/-- The test is on the bytes that are there, and not on all 256. -/
theorem forall_mem_of_all {P : UInt8 → Prop} [DecidablePred P] {s : Bytes}
    (h : s.all (fun c => decide (P c)) = true) : ∀ c ∈ s, P c := by
  intro c hc
  exact of_decide_eq_true (List.all_eq_true.mp h c hc)

theorem utf8_of_all {s : Bytes} (h : s.all (fun c => decide (Ascii c)) = true) : Utf8 s :=
  utf8_ascii (forall_mem_of_all h)

/-- A character that is not one byte has no such byte. -/
theorem utf8EncodeChar_cases (c : Char) :
    (∃ b, String.utf8EncodeChar c = [b] ∧ Ascii b) ∨
      ∀ b ∈ String.utf8EncodeChar c, ¬ Ascii b := by
  have hbyte : ∀ n, 128 ≤ n → n < 256 → ¬ Ascii (UInt8.ofNat n) := by
    intro n hle hlt h
    have hnat : (UInt8.ofNat n).toNat < 128 := UInt8.lt_iff_toNat_lt.mp h
    rw [UInt8.toNat_ofNat'] at hnat
    omega
  unfold String.utf8EncodeChar
  generalize c.val.toNat = n
  simp only
  split
  · refine Or.inl ⟨_, rfl, UInt8.lt_iff_toNat_lt.mpr ?_⟩
    rw [UInt8.toNat_ofNat']
    show n % 2 ^ 8 < 128
    omega
  · right
    split
    · simp only [List.forall_mem_cons]
      exact ⟨hbyte _ (by omega) (by omega), hbyte _ (by omega) (by omega), by simp⟩
    split
    · simp only [List.forall_mem_cons]
      exact ⟨hbyte _ (by omega) (by omega), hbyte _ (by omega) (by omega),
        hbyte _ (by omega) (by omega), by simp⟩
    · simp only [List.forall_mem_cons]
      exact ⟨hbyte _ (by omega) (by omega), hbyte _ (by omega) (by omega),
        hbyte _ (by omega) (by omega), hbyte _ (by omega) (by omega), by simp⟩

namespace Json

/-- A value whose text determines it: the numbers are integers of 64 bits, the strings are
UTF-8 and the keys of an object ascend. -/
inductive Storable : Json → Prop where
  | null : Storable null
  | boolean (b : Bool) : Storable (boolean b)
  | number {n : ℤ} (h : -2 ^ 63 ≤ n ∧ n < 2 ^ 64) : Storable (number n)
  | string {s : Bytes} (h : Utf8 s) : Storable (string s)
  | array {elems : List Json} (h : ∀ j ∈ elems, Storable j) : Storable (array elems)
  | object {fields : List (String × Json)} (hkeys : fields.Pairwise fun f g => f.1 < g.1)
      (h : ∀ f ∈ fields, Storable f.2) : Storable (object fields)

/-- The keys of an object are compared alone. -/
theorem Storable.of_keys {fields : List (String × Json)}
    (hkeys : (fields.map Prod.fst).Pairwise (· < ·)) (h : ∀ f ∈ fields, Storable f.2) :
    Storable (Json.object fields) :=
  Storable.object (List.pairwise_map.mp hkeys) h

/-- The fields of an object in the order of their keys, as the `std::map` behind it has them -/
def mapOrder : Json → Json
  | object fields => object (fields.insertionSort fun f g => f.1 ≤ g.1)
  | j => j

theorem lookup_perm {fields fields' : List (String × Json)} (h : fields.Perm fields')
    (hkeys : (fields.map Prod.fst).Nodup) (key : String) :
    fields.lookup key = fields'.lookup key := by
  induction h with
  | nil => rfl
  | cons f _ ih =>
      rw [List.map_cons, List.nodup_cons] at hkeys
      rw [List.lookup_cons, List.lookup_cons, ih hkeys.2]
  | swap f g fields =>
      obtain ⟨f, v⟩ := f
      obtain ⟨g, w⟩ := g
      simp only [List.map_cons, List.nodup_cons, List.mem_cons, not_or] at hkeys
      simp only [List.lookup_cons]
      cases hf : key == f <;> cases hg : key == g <;> try rfl
      rw [beq_iff_eq] at hf hg
      exact absurd (hg.symm.trans hf) hkeys.1.1
  | trans h _ ih ih' => exact (ih hkeys).trans (ih' ((h.map Prod.fst).nodup_iff.mp hkeys))

theorem lookup_mapOrder {fields : List (String × Json)} (hkeys : (fields.map Prod.fst).Nodup)
    (key : String) :
    (fields.insertionSort fun f g => f.1 ≤ g.1).lookup key = fields.lookup key :=
  (lookup_perm (List.perm_insertionSort _ fields).symm hkeys key).symm

end Json

/-- A text that is printed is read as the value it was printed from. -/
def JsonRoundTrips (dump : Json → Bytes) (parse : Bytes → Except JsonError Json) : Prop :=
  ∀ j, j.Storable → parse (dump j) = .ok j

namespace JsonText

def quoteMark : UInt8 := '\x22'.toUInt8

def backslash : UInt8 := '\\'.toUInt8

/-- A lower-case hexadecimal digit -/
def hexDigit (d : ℕ) : UInt8 := if d < 10 then digitByte d else UInt8.ofNat (87 + d)

/-- The letter that a backslash escapes a byte with -/
def shortEscape (c : UInt8) : Option UInt8 :=
  if c = quoteMark ∨ c = backslash then some c
  else if c = 8 then some 'b'.toUInt8
  else if c = 9 then some 't'.toUInt8
  else if c = 10 then some 'n'.toUInt8
  else if c = 12 then some 'f'.toUInt8
  else if c = 13 then some 'r'.toUInt8
  else none

/-- A byte in a string -/
def escapeByte (c : UInt8) : Bytes :=
  match shortEscape c with
  | some letter => [backslash, letter]
  | none =>
      if c < 32 then
        [backslash, 'u'.toUInt8, hexDigit 0, hexDigit 0, hexDigit (c.toNat / 16),
          hexDigit (c.toNat % 16)]
      else [c]

/-- A string, with the quotation marks -/
def quote (s : Bytes) : Bytes := quoteMark :: (s.flatMap escapeByte ++ [quoteMark])

mutual

/-- `nlohmann::json::dump` -/
def dump : Json → Bytes
  | .null => ascii ['n', 'u', 'l', 'l']
  | .boolean true => ascii ['t', 'r', 'u', 'e']
  | .boolean false => ascii ['f', 'a', 'l', 's', 'e']
  | .number n => intDecimal n
  | .float trunc => intDecimal trunc
  | .string s => quote s
  | .array elems => '['.toUInt8 :: dumpElements elems
  | .object fields => '\x7b'.toUInt8 :: dumpMembers fields

/-- The elements of an array up to its end -/
def dumpElements : List Json → Bytes
  | [] => [']'.toUInt8]
  | j :: js => dump j ++ if js.isEmpty then [']'.toUInt8] else ','.toUInt8 :: dumpElements js

/-- The members of an object up to its end -/
def dumpMembers : List (String × Json) → Bytes
  | [] => ['\x7d'.toUInt8]
  | (key, j) :: fields =>
      quote key.toUTF8.data.toList ++ ':'.toUInt8 :: (dump j ++
        if fields.isEmpty then ['\x7d'.toUInt8] else ','.toUInt8 :: dumpMembers fields)

end

/-! ## Reading -/

/-- Where the reader of a string is: in the text, behind a backslash, or in the digits of a
code, so many of which are to come. -/
inductive Reading where
  | plain
  | escape
  | code (missing value : ℕ)

/-- The byte that a letter behind a backslash stands for -/
def unescape (letter : UInt8) : Option UInt8 :=
  if letter = quoteMark ∨ letter = backslash ∨ letter = '/'.toUInt8 then some letter
  else if letter = 'b'.toUInt8 then some 8
  else if letter = 't'.toUInt8 then some 9
  else if letter = 'n'.toUInt8 then some 10
  else if letter = 'f'.toUInt8 then some 12
  else if letter = 'r'.toUInt8 then some 13
  else none

/-- The value of a hexadecimal digit -/
def hexValue (c : UInt8) : Option ℕ :=
  if isDigit c then some (c.toNat - 48)
  else if 97 ≤ c && c ≤ 102 then some (c.toNat - 87)
  else if 65 ≤ c && c ≤ 70 then some (c.toNat - 55)
  else none

/-- A string behind its first quotation mark, with what follows it -/
def unquote : Reading → Bytes → Option (Bytes × Bytes)
  | _, [] => none
  | .plain, c :: s =>
      if c = quoteMark then some ([], s)
      else if c = backslash then unquote .escape s
      else (unquote .plain s).map fun r => (c :: r.1, r.2)
  | .escape, letter :: s =>
      if letter = 'u'.toUInt8 then unquote (.code 4 0) s
      else
        match unescape letter with
        | none => none
        | some c => (unquote .plain s).map fun r => (c :: r.1, r.2)
  | .code missing value, digit :: s =>
      match hexValue digit with
      | none => none
      | some d =>
          if missing ≤ 1 then
            (unquote .plain s).map fun r =>
              (String.utf8EncodeChar (Char.ofNat (16 * value + d)) ++ r.1, r.2)
          else unquote (.code (missing - 1) (16 * value + d)) s

/-- The integer in front of a text, with what follows it -/
def readNumber (s : Bytes) : Option (ℤ × Bytes) :=
  let negative := s.head? = some '-'.toUInt8
  let t := if negative then s.tail else s
  let digits := t.takeWhile isDigit
  if digits.isEmpty then none
  else some (if negative then -digitsValue digits else digitsValue digits, t.dropWhile isDigit)

/-- What follows a byte -/
def expect (c : UInt8) (s : Bytes) : Option Bytes := if s.head? = some c then some s.tail else none

/-- A word that is a value, with what follows it -/
def readWord (word : List Char) (j : Json) (s : Bytes) : Option (Json × Bytes) :=
  if startsWith s (ascii word) then some (j, s.drop word.length) else none

mutual

/-- The value in front of a text, with what follows it; there are no more values in it than the
fuel. -/
def value : ℕ → Bytes → Option (Json × Bytes)
  | 0, _ => none
  | _, [] => none
  | n + 1, c :: s =>
      if c = quoteMark then (unquote .plain s).map fun r => (.string r.1, r.2)
      else if c = '['.toUInt8 then
        if s.head? = some ']'.toUInt8 then some (.array [], s.tail)
        else (elements n s).map fun r => (.array r.1, r.2)
      else if c = '\x7b'.toUInt8 then
        if s.head? = some '\x7d'.toUInt8 then some (.object [], s.tail)
        else (members n s).map fun r => (.object r.1, r.2)
      else if c = 'n'.toUInt8 then readWord ['u', 'l', 'l'] .null s
      else if c = 't'.toUInt8 then readWord ['r', 'u', 'e'] (.boolean true) s
      else if c = 'f'.toUInt8 then readWord ['a', 'l', 's', 'e'] (.boolean false) s
      else (readNumber (c :: s)).map fun r => (.number r.1, r.2)

/-- The elements of an array that has some, and what follows it -/
def elements : ℕ → Bytes → Option (List Json × Bytes)
  | 0, _ => none
  | n + 1, s => do
      let (j, rest) ← value n s
      match rest with
      | [] => none
      | c :: rest =>
          if c = ']'.toUInt8 then some ([j], rest)
          else if c = ','.toUInt8 then (elements n rest).map fun r => (j :: r.1, r.2)
          else none

/-- The members of an object that has some, and what follows it -/
def members : ℕ → Bytes → Option (List (String × Json) × Bytes)
  | 0, _ => none
  | n + 1, s => do
      let (key, rest) ← unquote .plain (← expect quoteMark s)
      let key ← String.fromUTF8? key.toByteArray
      let (j, rest) ← value n (← expect ':'.toUInt8 rest)
      match rest with
      | [] => none
      | c :: rest =>
          if c = '\x7d'.toUInt8 then some ([(key, j)], rest)
          else if c = ','.toUInt8 then (members n rest).map fun r => ((key, j) :: r.1, r.2)
          else none

end

/-- `nlohmann::json::parse`, of the texts that `dump` prints -/
def parse (s : Bytes) : Except JsonError Json :=
  match value (s.length + 1) s with
  | some (j, []) => .ok j
  | _ => .error .parseError

/-! ## Reading what was printed -/

/-- No number goes on into a text. -/
def EndsNumber (rest : Bytes) : Prop := ∀ c ∈ rest.head?, isDigit c = false

theorem hexValue_hexDigit {d : ℕ} (h : d < 16) : hexValue (hexDigit d) = some d := by
  revert d
  decide

theorem utf8EncodeChar_ofNat {n : ℕ} (h : n < 32) :
    String.utf8EncodeChar (Char.ofNat n) = [UInt8.ofNat n] := by
  revert n
  decide +kernel

/-- What stands behind a backslash is not the letter of a code. -/
theorem unescape_shortEscape {c letter : UInt8} (h : shortEscape c = some letter) :
    letter ≠ 'u'.toUInt8 ∧ unescape letter = some c := by
  unfold shortEscape at h
  split_ifs at h with hsame h8 h9 h10 h12 h13
  · cases h
    rcases hsame with rfl | rfl <;> decide
  all_goals
    cases h
    subst_vars
    decide

theorem unquote_escapeByte (c : UInt8) (s : Bytes) :
    unquote .plain (escapeByte c ++ s) = (unquote .plain s).map fun r => (c :: r.1, r.2) := by
  unfold escapeByte
  cases hshort : shortEscape c with
  | some letter =>
      obtain ⟨hletter, hunescape⟩ := unescape_shortEscape hshort
      have hbackslash : backslash ≠ quoteMark := by decide
      simp only [List.cons_append, List.nil_append, unquote, if_neg hbackslash, if_true,
        if_neg hletter, hunescape]
  | none =>
      have hplain : c ≠ quoteMark ∧ c ≠ backslash := by
        rw [← not_or]
        intro h
        simp [shortEscape, h] at hshort
      by_cases hcontrol : c < 32
      · have hlt : c.toNat < 32 := UInt8.lt_iff_toNat_lt.mp hcontrol
        have hhigh : hexValue (hexDigit (c.toNat / 16)) = some (c.toNat / 16) :=
          hexValue_hexDigit (by omega)
        have hlow : hexValue (hexDigit (c.toNat % 16)) = some (c.toNat % 16) :=
          hexValue_hexDigit (by omega)
        have hzero : hexValue (hexDigit 0) = some 0 := hexValue_hexDigit (by omega)
        have hchar : String.utf8EncodeChar (Char.ofNat (16 * (c.toNat / 16) + c.toNat % 16)) =
            [c] := by
          rw [Nat.div_add_mod, utf8EncodeChar_ofNat hlt, UInt8.ofNat_toNat]
        have hbackslash : backslash ≠ quoteMark := by decide
        simp [unquote, hcontrol, hbackslash, hzero, hhigh, hlow, hchar]
      · simp only [if_neg hcontrol, List.cons_append, List.nil_append, unquote, if_neg hplain.1,
          if_neg hplain.2]

theorem unquote_quote (s rest : Bytes) :
    unquote .plain (s.flatMap escapeByte ++ quoteMark :: rest) = some (s, rest) := by
  induction s with
  | nil => simp [unquote]
  | cons c s ih =>
      rw [List.flatMap_cons, List.append_assoc, unquote_escapeByte, ih, Option.map_some]

theorem decimal_digits (n : ℕ) :
    (∀ c ∈ decimal n, isDigit c = true) ∧ digitsValue (decimal n) = n := by
  have hpadded : padded 0 n = decimal n := by simp [padded]
  obtain ⟨l, hl, -, hlt, hvalue⟩ := padded_eq_map 0 n
  rw [← hpadded, hl, digitsValue_map hlt]
  refine ⟨fun c hc => ?_, hvalue⟩
  obtain ⟨d, hd, rfl⟩ := List.mem_map.mp hc
  exact isDigit_digitByte (hlt d hd)

theorem EndsNumber.span {rest : Bytes} (h : EndsNumber rest) :
    rest.takeWhile isDigit = [] ∧ rest.dropWhile isDigit = rest := by
  cases rest with
  | nil => exact ⟨rfl, rfl⟩
  | cons c rest =>
      have hc : isDigit c = false := h c rfl
      simp [hc]

theorem readNumber_intDecimal (n : ℤ) {rest : Bytes} (hrest : EndsNumber rest) :
    readNumber (intDecimal n ++ rest) = some (n, rest) := by
  obtain ⟨hdigit, hvalue⟩ := decimal_digits n.natAbs
  have htake : (decimal n.natAbs ++ rest).takeWhile isDigit = decimal n.natAbs := by
    rw [List.takeWhile_append_of_pos hdigit, hrest.span.1, List.append_nil]
  have hdrop : (decimal n.natAbs ++ rest).dropWhile isDigit = rest := by
    rw [List.dropWhile_append_of_pos hdigit, hrest.span.2]
  have hne : (decimal n.natAbs).isEmpty = false := by
    simpa using decimal_ne_nil n.natAbs
  unfold intDecimal
  split
  · next hneg =>
    have hhead : (ascii ['-'] ++ decimal n.natAbs ++ rest).head? = some '-'.toUInt8 := rfl
    have htail : (ascii ['-'] ++ decimal n.natAbs ++ rest).tail = decimal n.natAbs ++ rest := rfl
    simp only [readNumber, hhead, htail, if_true, htake, hdrop, hne, hvalue, Bool.false_eq_true,
      if_false]
    rw [show -(n.natAbs : ℤ) = n by omega]
  · next hneg =>
    have hhead : (decimal n.natAbs ++ rest).head? ≠ some '-'.toUInt8 := by
      obtain ⟨c, t, hct⟩ := List.exists_cons_of_ne_nil (decimal_ne_nil n.natAbs)
      have hc := hdigit c (by rw [hct]; exact List.mem_cons_self)
      rw [hct]
      rintro heq
      cases heq
      exact absurd hc (by decide)
    simp only [readNumber, hhead, Bool.false_eq_true, if_false, htake, hdrop, hne, hvalue]
    rw [show (n.natAbs : ℤ) = n by omega]

theorem fromUTF8?_key (key : String) :
    String.fromUTF8? key.toUTF8.data.toList.toByteArray = some key := by
  have hbytes : key.toUTF8.data.toList.toByteArray = key.toUTF8 := by
    ext1
    rw [List.data_toByteArray, Array.toArray_toList]
  rw [hbytes]
  exact dif_pos key.isValidUTF8

/-- The first byte of a number is none that another value starts with. -/
theorem head_intDecimal (n : ℤ) : ∃ c s, intDecimal n = c :: s ∧ (isDigit c ∨ c = '-'.toUInt8) := by
  unfold intDecimal
  split
  · exact ⟨_, _, rfl, Or.inr rfl⟩
  · obtain ⟨c, s, hcs⟩ := List.exists_cons_of_ne_nil (decimal_ne_nil n.natAbs)
    have hdigit := (decimal_digits n.natAbs).1 c (by rw [hcs]; exact List.mem_cons_self)
    exact ⟨c, s, hcs, Or.inl hdigit⟩

theorem value_intDecimal (n : ℕ) (k : ℤ) {rest : Bytes} (hrest : EndsNumber rest) :
    value (n + 1) (intDecimal k ++ rest) = some (.number k, rest) := by
  have hread := readNumber_intDecimal k hrest
  obtain ⟨c, s, hcs, hc⟩ := head_intDecimal k
  have hother : ∀ c : UInt8, (isDigit c ∨ c = '-'.toUInt8) → c ≠ quoteMark ∧ c ≠ '['.toUInt8 ∧
      c ≠ '\x7b'.toUInt8 ∧ c ≠ 'n'.toUInt8 ∧ c ≠ 't'.toUInt8 ∧ c ≠ 'f'.toUInt8 := by
    rintro c (hdigit | rfl)
    · refine ⟨?_, ?_, ?_, ?_, ?_, ?_⟩ <;>
      · rintro rfl
        exact absurd hdigit (by decide)
    · decide
  obtain ⟨h₁, h₂, h₃, h₄, h₅, h₆⟩ := hother c hc
  rw [hcs, List.cons_append] at hread ⊢
  rw [value]
  simp only [if_neg h₁, if_neg h₂, if_neg h₃, if_neg h₄, if_neg h₅, if_neg h₆, hread,
    Option.map_some]

/-- The value is read behind its text. -/
def ReadBack (j : Json) : Prop :=
  ∀ n rest, (dump j).length ≤ n → EndsNumber rest → value n (dump j ++ rest) = some (j, rest)

theorem endsNumber_cons {c : UInt8} (hc : isDigit c = false) (s : Bytes) :
    EndsNumber (c :: s) := by
  intro c' hc'
  cases hc'
  exact hc

theorem elements_dumpElements {elems : List Json} (hne : elems ≠ [])
    (h : ∀ j ∈ elems, ReadBack j) {n : ℕ} (hn : (dumpElements elems).length ≤ n) (rest : Bytes) :
    elements n (dumpElements elems ++ rest) = some (elems, rest) := by
  induction elems generalizing n with
  | nil => exact absurd rfl hne
  | cons j js ih =>
      have hj := h j List.mem_cons_self
      rw [dumpElements, List.length_append] at hn
      rw [dumpElements, List.append_assoc]
      cases n with
      | zero =>
          split at hn <;> rw [List.length_cons] at hn <;> omega
      | succ n =>
          rw [elements]
          cases js with
          | nil =>
              rw [List.isEmpty_nil, if_pos rfl, List.length_singleton] at hn
              rw [List.isEmpty_nil, if_pos rfl, List.singleton_append,
                hj n _ (by omega) (endsNumber_cons (by decide) rest)]
              rfl
          | cons j' js =>
              rw [List.isEmpty_cons, if_neg Bool.false_ne_true, List.length_cons] at hn
              have hjs := ih (List.cons_ne_nil j' js)
                (fun k hk => h k (List.mem_cons_of_mem j hk)) (n := n) (by omega)
              have hcomma : ','.toUInt8 ≠ ']'.toUInt8 := by decide
              rw [List.isEmpty_cons, if_neg Bool.false_ne_true, List.cons_append,
                hj n _ (by omega) (endsNumber_cons (by decide) _)]
              simp only [Option.bind_eq_bind, Option.bind_some, if_neg hcomma, if_true, hjs,
                Option.map_some]

/-- The key of a member and the colon behind it are read. -/
theorem members_succ (n : ℕ) (key : String) (s : Bytes) :
    members (n + 1) (quote key.toUTF8.data.toList ++ ':'.toUInt8 :: s) = (do
      let (j, rest) ← value n s
      match rest with
      | [] => none
      | c :: rest =>
          if c = '\x7d'.toUInt8 then some ([(key, j)], rest)
          else if c = ','.toUInt8 then (members n rest).map fun r => ((key, j) :: r.1, r.2)
          else none) := by
  have hkey : unquote .plain (key.toUTF8.data.toList.flatMap escapeByte ++
      quoteMark :: ':'.toUInt8 :: s) = some (key.toUTF8.data.toList, ':'.toUInt8 :: s) :=
    unquote_quote _ _
  rw [members]
  simp only [expect, quote, List.cons_append, List.append_assoc, List.head?_cons, List.tail_cons,
    List.nil_append, if_true, Option.bind_eq_bind, Option.bind_some, hkey, fromUTF8?_key]

theorem members_dumpMembers {fields : List (String × Json)} (hne : fields ≠ [])
    (h : ∀ f ∈ fields, ReadBack f.2) {n : ℕ} (hn : (dumpMembers fields).length ≤ n)
    (rest : Bytes) : members n (dumpMembers fields ++ rest) = some (fields, rest) := by
  induction fields generalizing n with
  | nil => exact absurd rfl hne
  | cons f fields ih =>
      obtain ⟨key, j⟩ := f
      have hj : ReadBack j := h (key, j) List.mem_cons_self
      rw [dumpMembers, List.length_append, List.length_cons, List.length_append] at hn
      rw [dumpMembers, List.append_assoc, List.cons_append, List.append_assoc]
      cases n with
      | zero => omega
      | succ n =>
          rw [members_succ]
          cases fields with
          | nil =>
              rw [List.isEmpty_nil, if_pos rfl, List.length_singleton] at hn
              rw [List.isEmpty_nil, if_pos rfl, List.singleton_append,
                hj n _ (by omega) (endsNumber_cons (by decide) rest)]
              rfl
          | cons f fields =>
              rw [List.isEmpty_cons, if_neg Bool.false_ne_true, List.length_cons] at hn
              have hfields := ih (List.cons_ne_nil f fields)
                (fun g hg => h g (List.mem_cons_of_mem _ hg)) (n := n) (by omega)
              have hcomma : ','.toUInt8 ≠ '\x7d'.toUInt8 := by decide
              rw [List.isEmpty_cons, if_neg Bool.false_ne_true, List.cons_append,
                hj n _ (by omega) (endsNumber_cons (by decide) _)]
              simp only [Option.bind_eq_bind, Option.bind_some, if_neg hcomma, if_true, hfields,
                Option.map_some]

/-- An array or an object with something in it does not end at once. -/
theorem head_dump (j : Json) : ∃ c s, dump j = c :: s ∧ c ≠ ']'.toUInt8 := by
  have hint : ∀ n, ∃ c s, intDecimal n = c :: s ∧ c ≠ ']'.toUInt8 := by
    intro n
    obtain ⟨c, s, hcs, hc⟩ := head_intDecimal n
    refine ⟨c, s, hcs, ?_⟩
    rintro rfl
    exact absurd hc (by decide)
  cases j with
  | null => exact ⟨_, _, rfl, by decide⟩
  | boolean b => cases b <;> exact ⟨_, _, rfl, by decide⟩
  | number n => exact hint n
  | float trunc => exact hint trunc
  | string s => exact ⟨_, _, rfl, by decide⟩
  | array elems => exact ⟨_, _, rfl, by decide⟩
  | object fields => exact ⟨_, _, rfl, by decide⟩

theorem readBack {j : Json} (h : j.Storable) : ReadBack j := by
  induction h with
  | null =>
      intro n rest hn _
      obtain ⟨n, rfl⟩ := Nat.exists_eq_add_of_le' (Nat.le_trans (by decide : 1 ≤ 4) hn)
      rfl
  | boolean b =>
      intro n rest hn _
      cases b with
      | false =>
          obtain ⟨n, rfl⟩ := Nat.exists_eq_add_of_le' (Nat.le_trans (by decide : 1 ≤ 5) hn)
          rfl
      | true =>
          obtain ⟨n, rfl⟩ := Nat.exists_eq_add_of_le' (Nat.le_trans (by decide : 1 ≤ 4) hn)
          rfl
  | number h =>
      intro n rest hn hrest
      obtain ⟨c, s, hcs, -⟩ := head_dump (.number _)
      cases n with
      | zero =>
          rw [hcs, List.length_cons] at hn
          omega
      | succ n =>
          rw [dump]
          exact value_intDecimal n _ hrest
  | @string s h =>
      intro n rest hn _
      cases n with
      | zero =>
          rw [dump, quote, List.length_cons] at hn
          omega
      | succ n =>
          rw [dump, quote, List.cons_append, value, List.append_assoc, List.singleton_append,
            unquote_quote]
          rfl
  | @array elems h ih =>
      intro n rest hn _
      rw [dump, List.length_cons] at hn
      obtain ⟨n, rfl⟩ := Nat.exists_eq_add_of_le' (Nat.le_trans (Nat.le_add_left 1 _) hn)
      cases elems with
      | nil => rfl
      | cons j js =>
          obtain ⟨c, s, hcs, hc⟩ := head_dump j
          have hread := elements_dumpElements (List.cons_ne_nil j js) ih (n := n) (by omega) rest
          have hhead : (dumpElements (j :: js) ++ rest).head? ≠ some ']'.toUInt8 := by
            rw [dumpElements, hcs]
            simpa using hc
          rw [dump, List.cons_append, value, if_neg (by decide), if_pos rfl, if_neg hhead, hread]
          rfl
  | @object fields hkeys h ih =>
      intro n rest hn _
      rw [dump, List.length_cons] at hn
      obtain ⟨n, rfl⟩ := Nat.exists_eq_add_of_le' (Nat.le_trans (Nat.le_add_left 1 _) hn)
      cases fields with
      | nil => rfl
      | cons f fields =>
          have hread := members_dumpMembers (List.cons_ne_nil f fields) ih (n := n) (by omega) rest
          have hhead : (dumpMembers (f :: fields) ++ rest).head? ≠ some '\x7d'.toUInt8 := by
            rw [dumpMembers, quote, List.cons_append, List.cons_append, List.head?_cons]
            decide
          rw [dump, List.cons_append, value, if_neg (by decide), if_neg (by decide), if_pos rfl,
            if_neg hhead, hread]
          rfl

/-- What is printed is read. -/
theorem parse_dump : JsonRoundTrips dump parse := by
  intro j hj
  have hread := readBack hj ((dump j).length + 1) [] (by omega) (by simp [EndsNumber])
  rw [List.append_nil] at hread
  rw [parse, hread]

example : dump (.object [("a", .array [.number (-5), .string [quoteMark, 1]])]) =
    ascii ['\x7b', '\x22', 'a', '\x22', ':', '[', '-', '5', ',', '\x22', '\\', '\x22', '\\', 'u',
      '0', '0', '0', '1', '\x22', ']', '\x7d'] := by
  decide +kernel

/-! ## The text is UTF-8 -/

/-- A byte is escaped with such bytes, and one of a longer character is not escaped. -/
theorem escapeByte_cases (c : UInt8) :
    (Ascii c ∧ ∀ b ∈ escapeByte c, Ascii b) ∨ ¬ Ascii c ∧ escapeByte c = [c] := by
  have hall : ∀ n < 256, (Ascii (UInt8.ofNat n) ∧
        (escapeByte (UInt8.ofNat n)).all (fun b => decide (Ascii b)) = true) ∨
      ¬ Ascii (UInt8.ofNat n) ∧ escapeByte (UInt8.ofNat n) = [UInt8.ofNat n] := by
    decide +kernel
  have hc := hall c.toNat c.toNat_lt
  rw [UInt8.ofNat_toNat] at hc
  rcases hc with ⟨hascii, hescaped⟩ | hnot
  · exact Or.inl ⟨hascii, forall_mem_of_all hescaped⟩
  · exact Or.inr hnot

theorem utf8_escape {s : Bytes} (h : Utf8 s) : Utf8 (s.flatMap escapeByte) := by
  rcases utf8_iff.mp h with ⟨cs, rfl⟩
  clear h
  induction cs with
  | nil => exact utf8_nil
  | cons c cs ih =>
      rw [List.flatMap_cons, List.flatMap_append]
      refine Utf8.append ?_ ih
      rcases utf8EncodeChar_cases c with ⟨b, hb, hascii⟩ | hnot
      · rw [hb, List.flatMap_singleton]
        rcases escapeByte_cases b with ⟨-, hescape⟩ | ⟨hb, -⟩
        · exact utf8_ascii hescape
        · exact absurd hascii hb
      · -- no byte of a longer character is escaped
        have hsame : (String.utf8EncodeChar c).flatMap escapeByte =
            (String.utf8EncodeChar c).flatMap fun b => [b] := by
          refine List.flatMap_congr fun b hb => ?_
          rcases escapeByte_cases b with ⟨hascii, -⟩ | ⟨-, hescape⟩
          · exact absurd hascii (hnot b hb)
          · exact hescape
        rw [hsame, List.flatMap_singleton']
        exact utf8_iff.mpr ⟨[c], (List.flatMap_singleton _ _).symm⟩

theorem utf8_quote {s : Bytes} (h : Utf8 s) : Utf8 (quote s) := by
  have hmark : Utf8 [quoteMark] := utf8_singleton (by decide)
  exact hmark.append ((utf8_escape h).append hmark)

theorem utf8_intDecimal (n : ℤ) : Utf8 (intDecimal n) := by
  have hdecimal : Utf8 (decimal n.natAbs) := by
    refine utf8_ascii fun c hc => ?_
    have hdigit := (decimal_digits n.natAbs).1 c hc
    simp only [isDigit, Bool.and_eq_true, decide_eq_true_eq] at hdigit
    have hle : c.toNat ≤ 57 := UInt8.le_iff_toNat_le.mp hdigit.2
    exact UInt8.lt_iff_toNat_lt.mpr (Nat.lt_of_le_of_lt hle (by decide))
  unfold intDecimal
  split
  · exact (utf8_of_all (by decide)).append hdecimal
  · exact hdecimal

theorem utf8_key (key : String) : Utf8 key.toUTF8.data.toList := by
  rcases key.isValidUTF8 with ⟨cs, hcs⟩
  refine utf8_iff.mpr ⟨cs, ?_⟩
  have hdata := congrArg (fun b : ByteArray => b.data.toList) hcs
  simpa [List.utf8Encode] using hdata

theorem utf8_dumpElements {elems : List Json} (h : ∀ j ∈ elems, Utf8 (dump j)) :
    Utf8 (dumpElements elems) := by
  induction elems with
  | nil => exact utf8_of_all (by decide)
  | cons j js ih =>
      rw [List.forall_mem_cons] at h
      rw [dumpElements]
      refine h.1.append ?_
      split
      · exact utf8_of_all (by decide)
      · exact (utf8_singleton (by decide)).append (ih h.2)

theorem utf8_dumpMembers {fields : List (String × Json)} (h : ∀ f ∈ fields, Utf8 (dump f.2)) :
    Utf8 (dumpMembers fields) := by
  induction fields with
  | nil => exact utf8_of_all (by decide)
  | cons f fields ih =>
      rw [List.forall_mem_cons] at h
      rw [dumpMembers]
      have hcolon : Utf8 [':'.toUInt8] := utf8_singleton (by decide)
      refine (utf8_quote (utf8_key f.1)).append (hcolon.append (h.1.append ?_))
      split
      · exact utf8_of_all (by decide)
      · exact (utf8_singleton (by decide)).append (ih h.2)

/-- The text of a value is UTF-8. -/
theorem utf8_dump {j : Json} (h : j.Storable) : Utf8 (dump j) := by
  induction h with
  | null => exact utf8_of_all (by decide)
  | boolean b => cases b <;> exact utf8_of_all (by decide)
  | number h => exact utf8_intDecimal _
  | string h => exact utf8_quote h
  | array h ih => exact (utf8_singleton (by decide)).append (utf8_dumpElements ih)
  | object hkeys h ih => exact (utf8_singleton (by decide)).append (utf8_dumpMembers ih)

end JsonText

end BcmServer.Util
