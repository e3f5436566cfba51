import BcmServer.Util.Bytes
import Mathlib.Data.List.TakeWhile

/-!
# BcmServer.Util.Text — cutting texts at a separator

The server cuts paths and headers in two ways. `boost::split` keeps every piece,
empty ones included, and gives one piece for the empty text: this is
`List.splitOn`. `std::getline` in a loop (`getlines`) gives the same pieces
except that an empty last one is not given.

`trim` and the case conversions are those of the C locale. `stoi`, `stoll` and
`stoull` read the number in front of a text; a number that was printed is read
back.
-/

namespace BcmServer.Util

/-- The pieces that `std::getline` gives until the stream ends. -/
def getlines (sep : UInt8) (s : Bytes) : List Bytes :=
  if (s.splitOn sep).getLast? = some [] then (s.splitOn sep).dropLast else s.splitOn sep

/-- The two ways of cutting differ in empty pieces only. -/
theorem filter_getlines (sep : UInt8) (s : Bytes) :
    (getlines sep s).filter (fun p => !p.isEmpty) =
      (s.splitOn sep).filter (fun p => !p.isEmpty) := by
  unfold getlines
  split
  · rename_i hlast
    have hne : s.splitOn sep ≠ [] := List.splitOn_ne_nil sep s
    have hget : (s.splitOn sep).getLast hne = [] := by
      rw [List.getLast?_eq_getLast_of_ne_nil hne, Option.some.injEq] at hlast
      exact hlast
    conv_rhs => rw [← List.dropLast_append_getLast hne, hget]
    simp
  · rfl

theorem mem_intercalate {c sep : UInt8} (hc : c ≠ sep) (ps : List Bytes) :
    c ∈ [sep].intercalate ps ↔ ∃ p ∈ ps, c ∈ p := by
  induction ps with
  | nil => simp
  | cons p ps ih =>
      by_cases hps : ps = []
      · simp [hps]
      · rw [List.intercalate_cons_of_ne_nil hps, List.mem_append, List.mem_append, ih]
        simp [hc]

/-- Every byte but the separators is in a piece. -/
theorem mem_splitOn {c sep : UInt8} (hc : c ≠ sep) (s : Bytes) :
    c ∈ s ↔ ∃ p ∈ s.splitOn sep, c ∈ p := by
  rw [← mem_intercalate hc, List.intercalate_splitOn]

theorem splitOn_of_notMem {sep : UInt8} {s : Bytes} (h : sep ∉ s) : s.splitOn sep = [s] := by
  have hsplit : ([sep].intercalate [s]).splitOn sep = [s] :=
    List.splitOn_intercalate sep (by simpa using h) (by simp)
  rwa [List.intercalate_singleton] at hsplit

/-- No piece has the separator in it. -/
theorem separator_notMem_splitOn {sep : UInt8} {s p : Bytes} (h : p ∈ s.splitOn sep) : sep ∉ p := by
  induction s generalizing p with
  | nil =>
      rw [List.splitOn_nil, List.mem_singleton] at h
      rw [h]
      exact List.not_mem_nil
  | cons c s ih =>
      rw [List.splitOn_cons_eq_if_modifyHead] at h
      split at h
      · rcases List.mem_cons.mp h with rfl | hrest
        · exact List.not_mem_nil
        · exact ih hrest
      · next hc =>
        obtain ⟨q, rest, hsplit⟩ := List.exists_cons_of_ne_nil (List.splitOn_ne_nil sep s)
        rw [hsplit, List.modifyHead_cons] at h
        rcases List.mem_cons.mp h with rfl | hrest
        · rw [List.mem_cons, not_or]
          exact ⟨fun heq => hc (beq_iff_eq.mpr heq.symm), ih (hsplit ▸ List.mem_cons_self)⟩
        · exact ih (hsplit ▸ List.mem_cons_of_mem q hrest)

/-- A text up to a separator, and from there on -/
theorem takeWhile_append_separator {sep : UInt8} {s : Bytes} (h : sep ∉ s) (t : Bytes) :
    (s ++ sep :: t).takeWhile (fun c => c ≠ sep) = s := by
  rw [List.takeWhile_append_of_pos fun c hc => decide_eq_true (ne_of_mem_of_not_mem hc h),
    List.takeWhile_cons_of_neg (by simp), List.append_nil]

theorem dropWhile_append_separator {sep : UInt8} {s : Bytes} (h : sep ∉ s) (t : Bytes) :
    (s ++ sep :: t).dropWhile (fun c => c ≠ sep) = sep :: t := by
  rw [List.dropWhile_append_of_pos fun c hc => decide_eq_true (ne_of_mem_of_not_mem hc h),
    List.dropWhile_cons_of_neg (by simp)]

theorem dropWhile_of_notMem {sep : UInt8} {s : Bytes} (h : sep ∉ s) :
    s.dropWhile (fun c => c ≠ sep) = [] := by
  rw [List.dropWhile_eq_nil_iff]
  exact fun c hc => decide_eq_true (ne_of_mem_of_not_mem hc h)

/-- `std::isspace` -/
def isSpace (c : UInt8) : Bool := c == 32 || (9 ≤ c && c ≤ 13)

/-- `boost::trim` -/
def trim (s : Bytes) : Bytes := ((s.dropWhile isSpace).reverse.dropWhile isSpace).reverse

/-- `std::toupper` -/
def toUpper (c : UInt8) : UInt8 := if 97 ≤ c && c ≤ 122 then c - 32 else c

/-- `std::tolower` -/
def toLower (c : UInt8) : UInt8 := if 65 ≤ c && c ≤ 90 then c + 32 else c

/-- `std::string::operator<` -/
def lexLt : Bytes → Bytes → Bool
  | _, [] => false
  | [], _ :: _ => true
  | a :: as, b :: bs => a < b || (a == b && lexLt as bs)

/-- `std::isalpha` -/
def isLetter (c : UInt8) : Bool := (65 ≤ c && c ≤ 90) || (97 ≤ c && c ≤ 122)

/-- `boost::iequals` -/
def iequals (s t : Bytes) : Bool := s.map toUpper == t.map toUpper

def isDigit (c : UInt8) : Bool := 48 ≤ c && c ≤ 57

/-- The value of decimal digits -/
def digitsValue (s : Bytes) : ℕ := s.foldl (fun n c => 10 * n + (c.toNat - 48)) 0

/-- The number in front of a text, as `strtol` reads it: blanks, a sign, digits. -/
def readInt (s : Bytes) : Option ℤ :=
  let t := s.dropWhile isSpace
  let negative := t.head? = some 45
  let ds := (if negative || t.head? = some 43 then t.tail else t).takeWhile isDigit
  if ds.isEmpty then none else some (if negative then -digitsValue ds else digitsValue ds)

/-- `std::stoi`, without a value where it throws. -/
def stoi (s : Bytes) : Option ℤ := (readInt s).filter fun n => -2 ^ 31 ≤ n && n < 2 ^ 31

/-- `std::stoull` (and `std::stoul`, `unsigned long` having 64 bits). A minus sign
negates in the unsigned type. -/
def stoull (s : Bytes) : Option UInt64 :=
  ((readInt s).filter fun n => n.natAbs < 2 ^ 64).map UInt64.ofInt

/-- `std::stoll` and `std::stol`, `long` having 64 bits. -/
def stoll (s : Bytes) : Option Int64 :=
  ((readInt s).filter fun n => -2 ^ 63 ≤ n && n < 2 ^ 63).map Int64.ofInt

/-- `%0<width>lu` -/
def padded (width n : ℕ) : Bytes :=
  List.replicate (width - (decimal n).length) (digitByte 0) ++ decimal n

/-- `%0<width>d` -/
def paddedInt (width : ℕ) (n : ℤ) : Bytes :=
  if n < 0 then ascii ['-'] ++ padded (width - 1) n.natAbs else padded width n.natAbs

/-- What `snprintf` leaves in a buffer, up to the end of the text -/
def snprintf (size : ℕ) (text : Bytes) : Bytes := text.take (size - 1)

/-- The sign and the digits of a text that is a number as a whole -/
def readWhole (s : Bytes) : Option (Bool × ℕ) :=
  let negative := s.head? = some 45
  let ds := if negative || s.head? = some 43 then s.tail else s
  if ds.isEmpty || !ds.all isDigit then none else some (negative, digitsValue ds)

/-- `boost::lexical_cast<uint32_t>`; a minus sign negates in the unsigned type. -/
def lexicalUInt32 (s : Bytes) : Option UInt32 :=
  match readWhole s with
  | some (negative, n) =>
      if n < 2 ^ 32 then some (UInt32.ofInt (if negative then -n else n)) else none
  | none => none

/-- `boost::lexical_cast<uint64_t>` -/
def lexicalUInt64 (s : Bytes) : Option UInt64 :=
  match readWhole s with
  | some (negative, n) =>
      if n < 2 ^ 64 then some (UInt64.ofInt (if negative then -n else n)) else none
  | none => none

/-- `boost::lexical_cast<int32_t>` -/
def lexicalInt32 (s : Bytes) : Option Int32 :=
  match readWhole s with
  | some (negative, n) =>
      if n < 2 ^ 31 || (negative && n = 2 ^ 31) then
        some (Int32.ofInt (if negative then -n else n))
      else none
  | none => none

/-! ## The order of texts -/

theorem lexLt_append_left (u s t : Bytes) : lexLt (u ++ s) (u ++ t) = lexLt s t := by
  induction u with
  | nil => rfl
  | cons c u ih => simp [lexLt, ih]

theorem lexLt_irrefl (s : Bytes) : lexLt s s = false := by
  induction s with
  | nil => rfl
  | cons c s ih => simp [lexLt, ih]

theorem lexLt_asymm {s t : Bytes} (h : lexLt s t = true) : lexLt t s = false := by
  induction s generalizing t with
  | nil => cases t <;> rfl
  | cons a s ih =>
      cases t with
      | nil => simp [lexLt] at h
      | cons b t =>
          simp only [lexLt, Bool.or_eq_true, decide_eq_true_eq, Bool.and_eq_true, beq_iff_eq] at h
          simp only [lexLt, Bool.or_eq_false_iff, decide_eq_false_iff_not, Bool.and_eq_false_iff,
            beq_eq_false_iff_ne, ne_eq]
          obtain hlt | ⟨rfl, hlt⟩ := h
          · exact ⟨UInt8.lt_asymm hlt, Or.inl fun heq => by simp [heq] at hlt⟩
          · exact ⟨UInt8.lt_irrefl a, Or.inr (ih hlt)⟩

/-- Two texts of which neither starts with the other are ordered by what comes first, whatever
follows them. -/
theorem lexLt_append {u v : Bytes} (huv : ¬ u <+: v) (hvu : ¬ v <+: u) (s t : Bytes) :
    lexLt (u ++ s) (v ++ t) = lexLt u v := by
  induction u generalizing v with
  | nil => exact absurd List.nil_prefix huv
  | cons a u ih =>
      cases v with
      | nil => exact absurd List.nil_prefix hvu
      | cons b v =>
          simp only [List.cons_append, lexLt]
          by_cases hab : a = b
          · subst hab
            rw [List.cons_prefix_cons] at huv hvu
            rw [ih (by simpa using huv) (by simpa using hvu)]
          · rw [beq_false_of_ne hab, Bool.false_and, Bool.false_and]

/-- Of two texts one comes first, if they are not the same. -/
theorem lexLt_connex {s t : Bytes} (hst : lexLt s t = false) (hts : lexLt t s = false) : s = t := by
  induction s generalizing t with
  | nil =>
      cases t with
      | nil => rfl
      | cons b t => cases hst
  | cons a s ih =>
      cases t with
      | nil => cases hts
      | cons b t =>
          simp only [lexLt, Bool.or_eq_false_iff, decide_eq_false_iff_not,
            Bool.and_eq_false_iff, beq_eq_false_iff_ne, ne_eq] at hst hts
          have hab : a = b := UInt8.le_antisymm (UInt8.not_lt.mp hts.1) (UInt8.not_lt.mp hst.1)
          rw [hab, ih (hst.2.resolve_left (not_not_intro hab))
            (hts.2.resolve_left (not_not_intro hab.symm))]

theorem lexLt_trans {s t u : Bytes} (hst : lexLt s t = true) (htu : lexLt t u = true) :
    lexLt s u = true := by
  induction s generalizing t u with
  | nil =>
      cases u with
      | nil => cases t <;> cases htu
      | cons c u => rfl
  | cons a s ih =>
      cases t with
      | nil => cases hst
      | cons b t =>
          cases u with
          | nil => cases htu
          | cons c u =>
              simp only [lexLt, Bool.or_eq_true, decide_eq_true_eq, Bool.and_eq_true,
                beq_iff_eq] at hst htu ⊢
              rcases hst with hab | ⟨rfl, hst⟩
              · rcases htu with hbc | ⟨rfl, -⟩
                · exact Or.inl (UInt8.lt_trans hab hbc)
                · exact Or.inl hab
              · rcases htu with hbc | ⟨rfl, htu⟩
                · exact Or.inl hbc
                · exact Or.inr ⟨rfl, ih hst htu⟩

/-- The order in which a `std::set` of texts is gone through -/
def LexLe (s t : Bytes) : Prop := lexLt t s = false

instance : DecidableRel LexLe := fun s t => inferInstanceAs (Decidable (lexLt t s = false))

instance : Std.Antisymm LexLe := ⟨fun _ _ hst hts => lexLt_connex hts hst⟩

instance : Std.Total LexLe := ⟨fun s t => by
  unfold LexLe
  cases hts : lexLt t s with
  | false => exact Or.inl rfl
  | true => exact Or.inr (lexLt_asymm hts)⟩

instance : IsTrans Bytes LexLe := ⟨fun s t u hst htu => by
  unfold LexLe at *
  by_contra hus
  rw [Bool.not_eq_false] at hus
  -- the second text comes before the third, or is the third
  cases hut : lexLt t u with
  | true => rw [lexLt_trans hut hus] at hst; cases hst
  | false => rw [lexLt_connex htu hut, hst] at hus; cases hus⟩

/-! ## Reading back what was printed -/

theorem isDigit_digitByte {d : ℕ} (h : d < 10) : isDigit (digitByte d) = true := by
  revert d
  decide

theorem digitsValue_map {l : List ℕ} (h : ∀ d ∈ l, d < 10) :
    digitsValue (l.map digitByte) = Nat.ofDigits 10 l.reverse := by
  induction l using List.reverseRecOn with
  | nil => rfl
  | append_singleton l d ih =>
      have hd : d < 10 := h d (by simp)
      have hbyte : (digitByte d).toNat - 48 = d := by
        rw [digitByte, UInt8.toNat_ofNat']
        omega
      have hinit := ih fun e he => h e (by simp [he])
      simp only [digitsValue] at hinit ⊢
      rw [List.map_append, List.foldl_append, hinit]
      simp only [List.map_cons, List.map_nil, List.foldl_cons, List.foldl_nil, hbyte,
        List.reverse_append, List.reverse_cons, List.reverse_nil, List.nil_append,
        List.cons_append, Nat.ofDigits_cons]
      omega

/-- The digits of a text that `padded` prints. -/
theorem padded_eq_map (width n : ℕ) : ∃ l : List ℕ, padded width n = l.map digitByte ∧
    l ≠ [] ∧ (∀ d ∈ l, d < 10) ∧ Nat.ofDigits 10 l.reverse = n := by
  unfold padded decimal
  split
  · next hn =>
    refine ⟨List.replicate (width - 1) 0 ++ [0], by simp, by simp, ?_, ?_⟩
    · intro d hd
      rcases List.mem_append.mp hd with hd | hd
      · rw [List.eq_of_mem_replicate hd]
        omega
      · rw [List.mem_singleton.mp hd]
        omega
    · rw [List.reverse_append, List.reverse_replicate, Nat.ofDigits_append_replicate_zero, hn]
      rfl
  · next hn =>
    generalize width - ((Nat.digits 10 n).reverse.map digitByte).length = k
    refine ⟨List.replicate k 0 ++ (Nat.digits 10 n).reverse, by simp, ?_, ?_, ?_⟩
    · simp [Nat.digits_ne_nil_iff_ne_zero.mpr hn]
    · intro d hd
      rcases List.mem_append.mp hd with hd | hd
      · rw [List.eq_of_mem_replicate hd]
        omega
      · exact digits_reverse_lt d hd
    · rw [List.reverse_append, List.reverse_replicate, List.reverse_reverse,
        Nat.ofDigits_append_replicate_zero, Nat.ofDigits_digits]

theorem notMem_padded {c : UInt8} (hc : isDigit c = false) (width n : ℕ) : c ∉ padded width n := by
  obtain ⟨l, hl, -, hlt, -⟩ := padded_eq_map width n
  rw [hl]
  intro hmem
  obtain ⟨d, hd, rfl⟩ := List.mem_map.mp hmem
  rw [isDigit_digitByte (hlt d hd)] at hc
  cases hc

/-- Numbers that are joined are cut at the separator. -/
theorem splitOn_padded {sep : UInt8} (hsep : isDigit sep = false) {ps : List Bytes} (hne : ps ≠ [])
    (h : ∀ p ∈ ps, ∃ width n, p = padded width n) : ([sep].intercalate ps).splitOn sep = ps := by
  refine List.splitOn_intercalate _ (fun p hp => ?_) hne
  obtain ⟨width, n, rfl⟩ := h p hp
  exact notMem_padded hsep width n

/-- A text of digits is read as a whole. -/
theorem readInt_digits {s : Bytes} (hne : s ≠ []) (hdigit : ∀ c ∈ s, isDigit c = true) :
    readInt s = some (digitsValue s : ℤ) := by
  obtain ⟨c, t, rfl⟩ := List.exists_cons_of_ne_nil hne
  have hc := hdigit c List.mem_cons_self
  -- a digit is neither a blank nor a sign
  have hrange : 48 ≤ c.toNat ∧ c.toNat ≤ 57 := by
    simpa [isDigit, UInt8.le_iff_toNat_le] using hc
  have hspace : isSpace c = false := by
    simp only [isSpace, UInt8.le_iff_toNat_le, Bool.or_eq_false_iff, beq_eq_false_iff_ne, ne_eq,
      ← UInt8.toNat_inj, Bool.and_eq_false_iff, decide_eq_false_iff_not]
    exact ⟨fun h => by simp [h] at hrange, Or.inr fun h => by simp at h; omega⟩
  have hminus : c ≠ 45 := by
    rintro rfl
    simp at hrange
  have hplus : c ≠ 43 := by
    rintro rfl
    simp at hrange
  have hdrop : (c :: t).dropWhile isSpace = c :: t := by simp [hspace]
  have htake : (c :: t).takeWhile isDigit = c :: t := List.takeWhile_eq_self_iff.mpr hdigit
  simp [readInt, hdrop, hminus, hplus, htake]

theorem readInt_padded (width n : ℕ) : readInt (padded width n) = some (n : ℤ) := by
  obtain ⟨l, hl, hne, hlt, hvalue⟩ := padded_eq_map width n
  rw [hl, readInt_digits (by simpa using hne), digitsValue_map hlt, hvalue]
  intro c hc
  obtain ⟨d, hd, rfl⟩ := List.mem_map.mp hc
  exact isDigit_digitByte (hlt d hd)

theorem ofInt_toNat_uInt64 (n : UInt64) : UInt64.ofInt n.toNat = n := by
  have hlt : n.toNat < 2 ^ 64 := n.toNat_lt
  apply UInt64.toNat_inj.mp
  rw [UInt64.ofInt, UInt64.toNat_ofNat']
  omega

theorem ofInt_toNat_uInt32 (n : UInt32) : UInt32.ofInt n.toNat = n := by
  have hlt : n.toNat < 2 ^ 32 := n.toNat_lt
  apply UInt32.toNat_inj.mp
  rw [UInt32.ofInt, UInt32.toNat_ofNat']
  omega

theorem stoull_padded (width : ℕ) (n : UInt64) : stoull (padded width n.toNat) = some n := by
  have hlt : n.toNat < 2 ^ 64 := n.toNat_lt
  have hfilter : (some (n.toNat : ℤ)).filter (fun k => k.natAbs < 2 ^ 64) = some (n.toNat : ℤ) := by
    simpa using hlt
  rw [stoull, readInt_padded, hfilter, Option.map_some, ofInt_toNat_uInt64]

theorem padded_injective (width : ℕ) : Function.Injective (padded width) := by
  intro n m h
  have hread := readInt_padded width n
  rw [h, readInt_padded] at hread
  exact (Int.ofNat_inj.mp (Option.some.inj hread)).symm

theorem length_padded {width n : ℕ} (hwidth : 0 < width) (h : n < 10 ^ width) :
    (padded width n).length = width := by
  have hle : (decimal n).length ≤ width := by
    unfold decimal
    split
    · exact hwidth
    · rw [List.length_map, List.length_reverse]
      exact (Nat.digits_length_le_iff (by omega) n).mpr h
  rw [padded, List.length_append, List.length_replicate]
  omega

/-- Digits are ordered as their values. -/
theorem lexLt_digits {l m : List ℕ} (hlen : l.length = m.length) (hl : ∀ d ∈ l, d < 10)
    (hm : ∀ d ∈ m, d < 10) : lexLt (l.map digitByte) (m.map digitByte) =
      decide (Nat.ofDigits 10 l.reverse < Nat.ofDigits 10 m.reverse) := by
  -- the rest of a number is less than one of its first digit
  have hbound : ∀ k : List ℕ, (∀ d ∈ k, d < 10) → Nat.ofDigits 10 k.reverse < 10 ^ k.length := by
    intro k hk
    rw [← List.length_reverse]
    exact Nat.ofDigits_lt_base_pow_length (by omega) fun d hd => hk d (List.mem_reverse.mp hd)
  induction l generalizing m with
  | nil =>
      rw [List.eq_nil_of_length_eq_zero hlen.symm]
      rfl
  | cons d l ih =>
      obtain ⟨e, m, rfl⟩ := List.exists_cons_of_length_eq_add_one hlen.symm
      have hlen' : l.length = m.length := Nat.succ_injective hlen
      have hl' : ∀ x ∈ l, x < 10 := fun x hx => hl x (List.mem_cons_of_mem d hx)
      have hm' : ∀ x ∈ m, x < 10 := fun x hx => hm x (List.mem_cons_of_mem e hx)
      have hd : d < 10 := hl d List.mem_cons_self
      have he : e < 10 := hm e List.mem_cons_self
      have hrestl := hbound l hl'
      have hrestm := hbound m hm'
      have hbyte : digitByte d < digitByte e ↔ d < e := by
        rw [UInt8.lt_iff_toNat_lt, digitByte, digitByte, UInt8.toNat_ofNat', UInt8.toNat_ofNat']
        omega
      have hsame : digitByte d = digitByte e ↔ d = e :=
        ⟨digitByte_inj hd he, congrArg digitByte⟩
      rw [List.map_cons, List.map_cons, lexLt, ih hlen' hl' hm', List.reverse_cons,
        List.reverse_cons, Nat.ofDigits_append, Nat.ofDigits_append, Nat.ofDigits_singleton,
        Nat.ofDigits_singleton, List.length_reverse, List.length_reverse, Bool.eq_iff_iff]
      rw [← hlen'] at hrestm ⊢
      simp only [Bool.or_eq_true, decide_eq_true_eq, Bool.and_eq_true, beq_iff_eq, hbyte, hsame]
      rcases Nat.lt_trichotomy d e with hlt | rfl | hgt
      · have hmul : 10 ^ l.length * (d + 1) ≤ 10 ^ l.length * e := Nat.mul_le_mul_left _ hlt
        rw [Nat.mul_add] at hmul
        exact iff_of_true (Or.inl hlt) (by omega)
      · simp
      · have hmul : 10 ^ l.length * (e + 1) ≤ 10 ^ l.length * d := Nat.mul_le_mul_left _ hgt
        rw [Nat.mul_add] at hmul
        exact iff_of_false (by omega) (by omega)

/-- Numbers of the same width are ordered as their values, and what follows them decides if they
are the same. -/
theorem lexLt_padded_append {width n m : ℕ} (hwidth : 0 < width) (hn : n < 10 ^ width)
    (hm : m < 10 ^ width) (s t : Bytes) :
    lexLt (padded width n ++ s) (padded width m ++ t) = true ↔
      n < m ∨ n = m ∧ lexLt s t = true := by
  by_cases hnm : n = m
  · subst hnm
    rw [lexLt_append_left]
    simp
  · have hlen : (padded width n).length = (padded width m).length := by
      rw [length_padded hwidth hn, length_padded hwidth hm]
    have hne : padded width n ≠ padded width m := fun h => hnm (padded_injective width h)
    rw [lexLt_append (fun h => hne (List.IsPrefix.eq_of_length h hlen))
      fun h => hne (List.IsPrefix.eq_of_length h hlen.symm).symm]
    obtain ⟨l, hl, -, hltl, hvaluel⟩ := padded_eq_map width n
    obtain ⟨k, hk, -, hltk, hvaluek⟩ := padded_eq_map width m
    rw [hl, hk, List.length_map, List.length_map] at hlen
    rw [hl, hk, lexLt_digits hlen hltl hltk, hvaluel, hvaluek, decide_eq_true_iff]
    simp [hnm]

/-- `boost::starts_with` -/
def startsWith (s p : Bytes) : Bool := p.isPrefixOf s

theorem startsWith_iff {s p : Bytes} : startsWith s p = true ↔ ∃ t, s = p ++ t := by
  unfold startsWith
  rw [List.isPrefixOf_iff_prefix]
  constructor
  · rintro ⟨t, rfl⟩
    exact ⟨t, rfl⟩
  · rintro ⟨t, rfl⟩
    exact ⟨t, rfl⟩

/-! ## Texts that are joined without a separator -/

/-- Two lists of the same length are the same but for the value at one place. -/
def AgreeButOne (l m : List ℕ) : Prop :=
  l.length = m.length ∧ ∃ i, l.eraseIdx i = m.eraseIdx i

/-- What is the same but for one value is the same if the sums are. -/
theorem AgreeButOne.eq_of_sum_eq {l m : List ℕ} (h : AgreeButOne l m) (hsum : l.sum = m.sum) :
    l = m := by
  obtain ⟨hlen, i, hi⟩ := h
  induction l generalizing m i with
  | nil => exact (List.eq_nil_of_length_eq_zero hlen.symm).symm
  | cons a l ih =>
      rcases m with _ | ⟨b, m⟩
      · simp at hlen
      rw [List.length_cons, List.length_cons, Nat.add_right_cancel_iff] at hlen
      rw [List.sum_cons, List.sum_cons] at hsum
      cases i with
      | zero =>
          rw [List.eraseIdx_cons_zero, List.eraseIdx_cons_zero] at hi
          subst hi
          rw [Nat.add_right_cancel hsum]
      | succ i =>
          rw [List.eraseIdx_cons_succ, List.eraseIdx_cons_succ, List.cons.injEq] at hi
          obtain ⟨rfl, hi⟩ := hi
          rw [ih (Nat.add_left_cancel hsum) hlen i hi]

/-- Parts that are joined are determined by the text, if their lengths are known but for one. -/
theorem eq_of_flatten_eq {parts parts' : List Bytes}
    (hlen : AgreeButOne (parts.map List.length) (parts'.map List.length))
    (h : parts.flatten = parts'.flatten) : parts = parts' := by
  have hsum : (parts.map List.length).sum = (parts'.map List.length).sum := by
    rw [← List.length_flatten, ← List.length_flatten, h]
  exact List.eq_iff_flatten_eq.mpr ⟨h, hlen.eq_of_sum_eq hsum⟩

end BcmServer.Util
