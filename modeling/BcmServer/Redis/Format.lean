import BcmServer.Redis.RedisConn

/-!
# BcmServer.Redis.Format — the words of a command

`redisCommand` splits its format into the words of the command. Blanks stand between
words, `%%` is a percent sign, and a conversion puts its argument into the word as it is.
So what comes by way of a conversion is in one word, and what is written into the format
may be in none, in many, or be a conversion itself. `redisCommandArgv` sends its words
unchanged.

* `words_plain`: plain words that are written into the format are its words.
* `scanFormat_fields`: without percent signs it is the blanks alone that make words.
* `scanFormat_first`: a text with a percent sign in it gives a shorter word, if any.
-/

namespace BcmServer.Redis

open BcmServer.Util

namespace Format

def blank : UInt8 := ' '.toUInt8

def percent : UInt8 := '%'.toUInt8

/-- What a conversion puts into its word, and the arguments that are left. Without an argument
of its kind it is undefined, as is a conversion that is not known. -/
def conversion (c : UInt8) (args : List FormatArg) : Option (Bytes × List FormatArg) :=
  if c = percent then some ([percent], args)
  else
    match args with
    | [] => none
    | .s str :: args => if c = 's'.toUInt8 then some (cString str, args) else none
    | .b str :: args => if c = 'b'.toUInt8 then some (str, args) else none
    | .d n :: args => if c = 'd'.toUInt8 then some (intDecimal n, args) else none

/-- The loop over the format, with the word that is being read, if it was touched: a percent
sign at the end is one. -/
def scanFormat : Bytes → List FormatArg → Option Bytes → Option (List Bytes)
  | [], _, word => some word.toList
  | [c], _, word => some (if c = blank then word.toList else [word.getD [] ++ [c]])
  | c :: d :: format, args, word =>
      if c = blank then (scanFormat (d :: format) args none).map (word.toList ++ ·)
      else if c = percent then
        match conversion d args with
        | none => none
        | some (str, args) => scanFormat format args (some (word.getD [] ++ str))
      else scanFormat (d :: format) args (some (word.getD [] ++ [c]))

/-- The words of a format, which is a C string; none, if it is undefined -/
def words (format : Bytes) (args : List FormatArg) : Option (List Bytes) :=
  scanFormat (cString format) args none

end Format

/-- The words of a command -/
def Command.words : Command → Option (List Bytes)
  | .format fmt args => Format.words fmt args
  | .argv args => some args

namespace Format

variable {rest k w : Bytes} {args : List FormatArg} {word : Option Bytes} {ws : List Bytes}

/-! ## Words in a format -/

theorem scanFormat_blank (rest : Bytes) (args : List FormatArg) (word : Option Bytes) :
    scanFormat (blank :: rest) args word = (scanFormat rest args none).map (word.toList ++ ·) := by
  cases rest with
  | nil => simp [scanFormat]
  | cons d rest => rw [scanFormat, if_pos rfl]

theorem scanFormat_literal {c : UInt8} (hblank : c ≠ blank) (hpercent : c ≠ percent)
    (rest : Bytes) (args : List FormatArg) (word : Option Bytes) :
    scanFormat (c :: rest) args word = scanFormat rest args (some (word.getD [] ++ [c])) := by
  cases rest with
  | nil => simp [scanFormat, hblank]
  | cons d rest => rw [scanFormat, if_neg hblank, if_neg hpercent]

/-- A word without anything that a format reads as something else -/
structure Plain (w : Bytes) : Prop where
  ne_nil : w ≠ []
  blank : blank ∉ w
  percent : percent ∉ w
  nul : 0 ∉ w

theorem scanFormat_append (hblank : blank ∉ w) (hpercent : percent ∉ w) (u : Bytes) :
    scanFormat (w ++ rest) args (some u) = scanFormat rest args (some (u ++ w)) := by
  induction w generalizing u with
  | nil => simp
  | cons c w ih =>
      rw [List.mem_cons, not_or] at hblank hpercent
      rw [List.cons_append, scanFormat_literal (Ne.symm hblank.1) (Ne.symm hpercent.1),
        ih hblank.2 hpercent.2, List.append_assoc]
      rfl

/-- Words with a blank in front of each -/
def spaced (ws : List Bytes) : Bytes := ws.flatMap fun w => blank :: w

theorem spaced_cons (w : Bytes) (ws : List Bytes) :
    spaced (w :: ws) = blank :: (w ++ spaced ws) := rfl

/-- A blank ends the word before it. -/
theorem scanFormat_spaced (ws : List Bytes) (args : List FormatArg) (word : Option Bytes) :
    scanFormat (spaced ws) args word =
      (scanFormat (spaced ws) args none).map (word.toList ++ ·) := by
  cases ws with
  | nil => simp [spaced, scanFormat]
  | cons w ws =>
      rw [spaced_cons, scanFormat_blank, scanFormat_blank _ _ none]
      simp

/-- A plain word is put together. -/
theorem scanFormat_word (h : Plain w) (rest : Bytes) (args : List FormatArg) :
    scanFormat (w ++ rest) args none = scanFormat rest args (some w) := by
  obtain ⟨c, w, rfl⟩ := List.exists_cons_of_ne_nil h.ne_nil
  obtain ⟨hblank, hblank'⟩ := not_or.mp (List.mem_cons.not.mp h.blank)
  obtain ⟨hpercent, hpercent'⟩ := not_or.mp (List.mem_cons.not.mp h.percent)
  rw [List.cons_append, scanFormat_literal (Ne.symm hblank) (Ne.symm hpercent),
    scanFormat_append hblank' hpercent']
  rfl

theorem scanFormat_spaced_cons (h : Plain w) (ws : List Bytes) (args : List FormatArg) :
    scanFormat (spaced (w :: ws)) args none =
      (scanFormat (spaced ws) args none).map (w :: ·) := by
  rw [spaced_cons, scanFormat_blank, scanFormat_word h, scanFormat_spaced, Option.map_map]
  rfl

/-- A text without percent signs is cut at its blanks, and goes on with the word before it. -/
theorem scanFormat_cut {field : Bytes} (hpercent : percent ∉ field) (ws : List Bytes)
    (args : List FormatArg) {word : Option Bytes} (hword : word ≠ some []) :
    scanFormat (field ++ spaced ws) args word = (scanFormat (spaced ws) args none).map
      ((((field.splitOn blank).modifyHead (word.getD [] ++ ·)).filter
        fun w => !w.isEmpty) ++ ·) := by
  induction field generalizing word with
  | nil =>
      rw [List.nil_append, scanFormat_spaced]
      cases word with
      | none => simp
      | some u => simp [show u ≠ [] from fun hu => hword (hu ▸ rfl)]
  | cons c field ih =>
      rw [List.mem_cons, not_or] at hpercent
      obtain ⟨p, ps, hsplit⟩ := List.exists_cons_of_ne_nil (List.splitOn_ne_nil blank field)
      rw [List.cons_append, List.splitOn_cons_eq_if_modifyHead]
      by_cases hc : c = blank
      · subst hc
        rw [scanFormat_blank, ih hpercent.2 (by simp), Option.map_map]
        cases word with
        | none => simp [Function.comp_def, hsplit]
        | some u =>
            have hne : u ≠ [] := fun hu => hword (hu ▸ rfl)
            simp [Function.comp_def, hsplit, hne]
      · rw [scanFormat_literal hc (Ne.symm hpercent.1), ih hpercent.2 (by simp), hsplit]
        simp [hc]

/-- Fields without percent signs give the words in them. -/
theorem scanFormat_fields {fields : List Bytes} (h : ∀ f ∈ fields, percent ∉ f)
    (args : List FormatArg) :
    scanFormat (spaced fields) args none = some (fields.flatMap commandWords) := by
  induction fields with
  | nil => rfl
  | cons field fields ih =>
      have hhead : (field.splitOn blank).modifyHead ([] ++ ·) = field.splitOn blank := by
        obtain ⟨p, ps, hsplit⟩ := List.exists_cons_of_ne_nil (List.splitOn_ne_nil blank field)
        rw [hsplit]
        rfl
      rw [spaced_cons, scanFormat_blank,
        scanFormat_cut (h field List.mem_cons_self) fields args (by simp),
        ih fun f hf => h f (List.mem_cons_of_mem field hf), Option.getD_none, hhead]
      rfl

theorem scanFormat_spaced_plain (h : ∀ w ∈ ws, Plain w) (args : List FormatArg) :
    scanFormat (spaced ws) args none = some ws := by
  have hwords : ws.flatMap commandWords = ws := by
    rw [List.flatMap_congr fun w hw => commandWords_self (h w hw).ne_nil (h w hw).blank]
    simp
  rw [scanFormat_fields fun w hw => (h w hw).percent, hwords]

theorem nul_notMem_spaced (h : ∀ w ∈ ws, 0 ∉ w) : 0 ∉ spaced ws := by
  intro hmem
  obtain ⟨w, hw, hc⟩ := List.mem_flatMap.mp hmem
  rcases List.mem_cons.mp hc with hc | hc
  · cases hc
  · exact h w hw hc

theorem words_eq {fmt : Bytes} (h : 0 ∉ fmt) (args : List FormatArg) :
    words fmt args = scanFormat fmt args none := by
  rw [words, cString_self h]

/-- A format of plain words -/
theorem words_plain (hw : Plain w) (h : ∀ x ∈ ws, Plain x) :
    words (w ++ spaced ws) [] = some (w :: ws) := by
  have hnul : 0 ∉ w ++ spaced ws := fun hmem => (List.mem_append.mp hmem).elim hw.nul
    (nul_notMem_spaced fun x hx => (h x hx).nul)
  rw [words_eq hnul, scanFormat_word hw, scanFormat_spaced, scanFormat_spaced_plain h]
  rfl

/-- A text that does not begin with a blank touches its word. -/
theorem scanFormat_touch (hne : k ≠ []) (hblank : blank ∉ k) (args : List FormatArg) :
    scanFormat (k ++ rest) args none = scanFormat (k ++ rest) args (some []) := by
  obtain ⟨c, k, rfl⟩ := List.exists_cons_of_ne_nil hne
  rw [List.mem_cons, not_or] at hblank
  generalize htext : k ++ rest = s
  rw [List.cons_append, htext]
  cases s with
  | nil => simp [scanFormat, Ne.symm hblank.1]
  | cons d s =>
      rw [scanFormat, scanFormat, if_neg (Ne.symm hblank.1), if_neg (Ne.symm hblank.1)]
      rfl

/-! ## What a format without arguments can say -/

theorem conversion_nil {c : UInt8} {str : Bytes} {args : List FormatArg}
    (h : conversion c [] = some (str, args)) : c = percent ∧ str = [percent] ∧ args = [] := by
  by_cases hc : c = percent
  · rw [conversion, if_pos hc] at h
    obtain ⟨rfl, rfl⟩ := Prod.mk.inj (Option.some.inj h)
    exact ⟨hc, rfl, rfl⟩
  · rw [conversion, if_neg hc] at h
    cases h

section Chars

variable {P : UInt8 → Prop}

/-- A word that is being read grows by what is not empty. -/
theorem grown_word {str : Bytes} (hword : ∀ u ∈ word, u ≠ [] ∧ ∀ c ∈ u, P c)
    (hne : str ≠ []) (hstr : ∀ c ∈ str, P c) :
    ∀ u ∈ some (word.getD [] ++ str), u ≠ [] ∧ ∀ c ∈ u, P c := by
  rintro u hu
  obtain rfl := Option.some.inj hu
  refine ⟨List.append_ne_nil_of_right_ne_nil _ hne, fun c hc => ?_⟩
  rcases List.mem_append.mp hc with hc | hc
  · cases word with
    | none => cases hc
    | some u => exact (hword u rfl).2 c hc
  · exact hstr c hc

/-- The words are not empty, and made of the bytes of the format other than blanks. -/
theorem mem_scanFormat (h : scanFormat k [] word = some ws) (hk : ∀ c ∈ k, c ≠ blank → P c)
    (hword : ∀ u ∈ word, u ≠ [] ∧ ∀ c ∈ u, P c) : ∀ w ∈ ws, w ≠ [] ∧ ∀ c ∈ w, P c := by
  generalize hargs : ([] : List FormatArg) = args at h
  fun_induction scanFormat k args word generalizing ws with
  | case1 args word =>
      obtain rfl := Option.some.inj h
      exact fun w hw => hword w (Option.mem_toList.mp hw)
  | case2 c args word =>
      obtain rfl := Option.some.inj h
      intro w hw
      split at hw
      · exact hword w (Option.mem_toList.mp hw)
      · next hc =>
        obtain rfl := List.mem_singleton.mp hw
        exact grown_word hword (by simp) (by simpa using hk c (by simp) hc) _ rfl
  | case3 d format args word ih =>
      obtain ⟨ws, hws, rfl⟩ := Option.map_eq_some_iff.mp h
      intro w hw
      rcases List.mem_append.mp hw with hw | hw
      · exact hword w (Option.mem_toList.mp hw)
      · exact ih (fun c hc => hk c (List.mem_cons_of_mem _ hc)) (fun _ hu => nomatch hu) hargs hws
          w hw
  | case4 => cases h
  | case5 d format args word str args' hconversion _ ih =>
      subst hargs
      obtain ⟨rfl, rfl, rfl⟩ := conversion_nil hconversion
      refine ih (fun c hc => hk c (by simp [hc])) (grown_word hword (by simp) ?_) rfl h
      simpa using hk percent List.mem_cons_self (by decide)
  | case6 c d format args word hc _ ih =>
      refine ih (fun c hc => hk c (List.mem_cons_of_mem _ hc)) (grown_word hword (by simp) ?_)
        hargs h
      simpa using hk c List.mem_cons_self hc

end Chars

/-- Its words are not empty, and have no blank in them. -/
theorem mem_words {fmt : Bytes} (h : words fmt [] = some ws) (hw : w ∈ ws) :
    w ≠ [] ∧ blank ∉ w ∧ 0 ∉ w := by
  have hchars : ∀ c ∈ cString fmt, c ≠ blank → c ≠ blank ∧ c ≠ 0 := fun c hc hblank =>
    ⟨hblank, ne_of_mem_of_not_mem hc (zero_notMem_cString fmt)⟩
  obtain ⟨hne, hc⟩ := mem_scanFormat h hchars (fun _ hu => nomatch hu) w hw
  exact ⟨hne, fun hmem => (hc _ hmem).1 rfl, fun hmem => (hc _ hmem).2 rfl⟩

/-- Up to a blank there is one word, which is shorter if there was a percent sign in it. -/
theorem scanFormat_first (hblank : blank ∉ k) {u : Bytes}
    (h : scanFormat (k ++ blank :: rest) [] (some u) = some ws) :
    ∃ w ws', ws = w :: ws' ∧ w.length ≤ u.length + k.length ∧
      (percent ∈ k → w.length < u.length + k.length) := by
  induction hn : k.length using Nat.strong_induction_on generalizing k u with
  | _ n ih =>
  subst hn
  obtain _ | ⟨c, k⟩ := k
  · rw [List.nil_append, scanFormat_blank] at h
    obtain ⟨ws', -, rfl⟩ := Option.map_eq_some_iff.mp h
    exact ⟨u, ws', rfl, by simp⟩
  rw [List.mem_cons, not_or] at hblank
  by_cases hc : c = percent
  · -- the percent sign is that of a conversion, and needs another
    subst hc
    obtain _ | ⟨d, k⟩ := k
    · cases h
    rw [List.cons_append, List.cons_append, scanFormat, if_neg (by decide), if_pos rfl] at h
    cases hconversion : conversion d [] with
    | none =>
        rw [hconversion] at h
        cases h
    | some next =>
        obtain ⟨str, args⟩ := next
        obtain ⟨rfl, rfl, rfl⟩ := conversion_nil hconversion
        rw [hconversion] at h
        obtain ⟨w, ws', rfl, hle, -⟩ := ih k.length (by simp)
          (fun hmem => hblank.2 (List.mem_cons_of_mem _ hmem)) h rfl
        simp only [Option.getD_some, List.length_append, List.length_cons, List.length_nil] at hle
        simp only [List.length_cons]
        exact ⟨w, ws', rfl, by omega, fun _ => by omega⟩
  · rw [List.cons_append, scanFormat_literal (Ne.symm hblank.1) hc] at h
    obtain ⟨w, ws', rfl, hle, hlt⟩ := ih k.length (by simp) hblank.2 h rfl
    simp only [Option.getD_some, List.length_append, List.length_cons, List.length_nil] at hle hlt
    rw [List.length_cons]
    refine ⟨w, ws', rfl, by omega, fun hmem => ?_⟩
    have hshort := hlt (List.mem_of_ne_of_mem (Ne.symm hc) hmem)
    omega

end Format

end BcmServer.Redis
