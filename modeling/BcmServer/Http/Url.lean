import BcmServer.Util.JsonText

/-!
# BcmServer.Http.Url — the parts of a URL

`HttpUrl` reads a URL from its front: the protocol, the host, a port, a path and a query. A
part ends at the first of some characters, and what is behind the query is left. Where a
part is not as it should be, the URL is invalid and has the parts that were read.

`url_parts`: a URL is valid if and only if it is put together from parts that are well
formed, and then these are what is read.

A URL ends at its first zero byte. User names before the host are not known.
-/

namespace BcmServer.Http

open Util

/-- `HttpUrl` -/
structure HttpUrl where
  invalid : Bool := false
  protocol : Bytes := []
  host : Bytes := []
  isIPv6 : Bool := false
  port : Bytes := []
  path : Bytes := []
  query : Bytes := []
deriving DecidableEq, Repr

namespace HttpUrl

/-- A text up to the first of some characters, as `strcspn` finds it, and from there on -/
def cut (stops : List Char) (s : Bytes) : Bytes × Bytes :=
  (s.takeWhile fun c => c ∉ ascii stops, s.dropWhile fun c => c ∉ ascii stops)

/-- The protocol, and `://` -/
def readProtocol (url : Bytes) : Except HttpUrl (HttpUrl × Bytes) :=
  let (protocol, rest) := cut [':'] url
  let u : HttpUrl := { protocol := protocol.map toLower }
  if startsWith rest (ascii [':', '/', '/']) then .ok (u, rest.drop 3) else .error u

/-- The host: one in brackets is followed by another part. -/
def readHost (u : HttpUrl) (url : Bytes) : Except HttpUrl (HttpUrl × Bytes) :=
  if url.head? = some '['.toUInt8 then
    let (host, rest) := cut [']'] url.tail
    if rest.isEmpty then .error u
    else
      let u := { u with host := host, isIPv6 := true }
      if (cut [':', '/', '?', '#'] rest.tail).1.isEmpty then .ok (u, rest.tail) else .error u
  else
    let (host, rest) := cut [':', '/', '?', '#'] url
    .ok ({ u with host := host }, rest)

/-- The port, if there is one, is digits. -/
def readPort (u : HttpUrl) (url : Bytes) : Except HttpUrl (HttpUrl × Bytes) :=
  if url.head? = some ':'.toUInt8 then
    let (port, rest) := cut ['/', '?', '#'] url.tail
    if port.isEmpty then .error u
    else
      let u := { u with port := port }
      if port.all isDigit then .ok (u, rest) else .error u
  else .ok (u, url)

/-- What stands for itself in a path, beside letters and digits -/
def pathMarks : Bytes :=
  ascii ['-', '_', '.', '!', '~', '*', '\'', '(', ')', ':', '@', '&', '=', '+', '$', ',', '/', ';']

/-- `unescapePath` -/
def unescapePath : Bytes → Option Bytes
  | [] => some []
  | c :: rest =>
      if c = '%'.toUInt8 then
        match rest with
        | high :: low :: rest => do
            let high ← JsonText.hexValue high
            let low ← JsonText.hexValue low
            (unescapePath rest).map fun out => UInt8.ofNat (16 * high + low) :: out
        | _ => none
      else if c ∈ pathMarks || isLetter c || isDigit c then (unescapePath rest).map fun out => c :: out
      else none

/-- The path, which is `/` if there is none -/
def readPath (u : HttpUrl) (url : Bytes) : Except HttpUrl (HttpUrl × Bytes) :=
  if url.head? = some '/'.toUInt8 then
    let (path, rest) := cut ['?', '#'] url
    let u := { u with path := path }
    if (unescapePath path).isSome then .ok (u, rest) else .error u
  else .ok ({ u with path := ascii ['/'] }, url)

/-- The query -/
def readQuery (u : HttpUrl) (url : Bytes) : HttpUrl :=
  if url.head? = some '?'.toUInt8 then { u with query := (cut ['#'] url.tail).1 } else u

/-- The parts of a URL up to its query, or what was read of an invalid one -/
def readParts (url : Bytes) : Except HttpUrl HttpUrl := do
  let (u, url) ← readProtocol url
  let (u, url) ← readHost u url
  let (u, url) ← readPort u url
  let (u, url) ← readPath u url
  return readQuery u url

/-- `HttpUrl::HttpUrl`, which parses `c_str()` -/
def ofString (url : Bytes) : HttpUrl :=
  match readParts (url.takeWhile fun c => c ≠ 0) with
  | .error u => { u with invalid := true }
  | .ok u => u

/-- `port()`, unless `stoi` throws -/
def portNumber (u : HttpUrl) : Option ℤ :=
  if !u.port.isEmpty then stoi u.port
  else if u.protocol = ascii "http".toList then some 80
  else if u.protocol = ascii "https".toList then some 443
  else some 0

end HttpUrl

/-! ## Parts -/

/-- What a URL is put together from. -/
structure UrlParts where
  protocol : Bytes
  host : Bytes
  isIPv6 : Bool := false
  port : Option Bytes := none
  path : Option Bytes := none
  query : Option Bytes := none
  fragment : Option Bytes := none
deriving DecidableEq, Repr

namespace UrlParts

def hostText (p : UrlParts) : Bytes :=
  if p.isIPv6 then '['.toUInt8 :: (p.host ++ [']'.toUInt8]) else p.host

/-- A part behind its mark, if there is one -/
def marked (mark : Char) (part : Option Bytes) : Bytes := part.elim [] fun s => mark.toUInt8 :: s

/-- The URL -/
def render (p : UrlParts) : Bytes :=
  p.protocol ++ (ascii [':', '/', '/'] ++ (p.hostText ++ (marked ':' p.port ++ (p.path.getD [] ++
    (marked '?' p.query ++ marked '#' p.fragment)))))

/-- The parts do not go on into each other. -/
structure WellFormed (p : UrlParts) : Prop where
  protocol : ':'.toUInt8 ∉ p.protocol
  host : ∀ c ∈ p.host, c ∉ ascii (if p.isIPv6 then [']'] else [':', '/', '?', '#'])
  noBracket : p.isIPv6 = false → p.host.head? ≠ some '['.toUInt8
  port : ∀ s, p.port = some s → s ≠ [] ∧ s.all isDigit = true
  path : ∀ s, p.path = some s → s.head? = some '/'.toUInt8 ∧ (HttpUrl.unescapePath s).isSome ∧
    ∀ c ∈ s, c ∉ ascii ['?', '#']
  query : ∀ s, p.query = some s → '#'.toUInt8 ∉ s

/-- What is read of it -/
def url (p : UrlParts) : HttpUrl where
  protocol := p.protocol.map toLower
  host := p.host
  isIPv6 := p.isIPv6
  port := p.port.getD []
  path := p.path.getD (ascii ['/'])
  query := p.query.getD []

end UrlParts

/-! ## Reading what is put together -/

/-- The text is empty, or starts with one of the characters. -/
def Starts (stops : List Char) (s : Bytes) : Prop := ∀ c ∈ s.head?, c ∈ ascii stops

namespace HttpUrl

theorem cut_append {stops : List Char} {s rest : Bytes} (hs : ∀ c ∈ s, c ∉ ascii stops)
    (hrest : Starts stops rest) : cut stops (s ++ rest) = (s, rest) := by
  have hall : ∀ c ∈ s, decide (c ∉ ascii stops) = true := fun c hc => decide_eq_true (hs c hc)
  rw [cut, List.takeWhile_append_of_pos hall, List.dropWhile_append_of_pos hall]
  cases rest with
  | nil => simp
  | cons c rest =>
      have hc : c ∈ ascii stops := hrest c rfl
      simp [hc]

/-- What a cut makes of a text -/
theorem cut_spec (stops : List Char) (s : Bytes) : s = (cut stops s).1 ++ (cut stops s).2 ∧
    (∀ c ∈ (cut stops s).1, c ∉ ascii stops) ∧ Starts stops (cut stops s).2 := by
  refine ⟨List.takeWhile_append_dropWhile.symm, ?_, ?_⟩
  · intro c hc
    have hmem := List.mem_takeWhile_imp hc
    simpa using hmem
  · intro c hc
    have hhead := List.head?_dropWhile_not (fun c => decide (c ∉ ascii stops)) s
    simp only [cut] at hc
    rw [Option.mem_def.mp hc] at hhead
    simpa using hhead

theorem starts_nil (stops : List Char) : Starts stops [] := by
  intro c hc
  cases hc

theorem starts_cons (mark : Char) (stops : List Char) (s : Bytes) :
    Starts (mark :: stops) (mark.toUInt8 :: s) := by
  intro c hc
  cases hc
  exact List.mem_cons_self

theorem starts_of_tail {stops : List Char} {s : Bytes} (h : Starts stops s) (mark : Char) :
    Starts (mark :: stops) s := fun c hc => List.mem_cons_of_mem _ (h c hc)

theorem starts_marked (mark : Char) (part : Option Bytes) {stops : List Char} {rest : Bytes}
    (hrest : Starts stops rest) : Starts (mark :: stops) (UrlParts.marked mark part ++ rest) := by
  cases part with
  | none => exact starts_of_tail hrest mark
  | some s => exact starts_cons mark stops (s ++ rest)

/-- A part behind its mark is there if the text starts with the mark. -/
theorem exists_marked {mark : Char} {stops : List Char} {s : Bytes}
    (h : Starts (mark :: stops) s) (hmark : s.head? ≠ some mark.toUInt8) : Starts stops s := by
  intro c hc
  rcases List.mem_cons.mp (h c hc) with hc' | hc'
  · rw [Option.mem_def.mp hc, hc'] at hmark
    exact absurd rfl hmark
  · exact hc'

theorem readProtocol_append {protocol : Bytes} (h : ':'.toUInt8 ∉ protocol) (rest : Bytes) :
    readProtocol (protocol ++ (ascii [':', '/', '/'] ++ rest)) =
      .ok ({ protocol := protocol.map toLower }, rest) := by
  have hcut : cut [':'] (protocol ++ (ascii [':', '/', '/'] ++ rest)) =
      (protocol, ascii [':', '/', '/'] ++ rest) := by
    refine cut_append ?_ ?_
    · intro c hc hmem
      rw [List.mem_singleton.mp hmem] at hc
      exact h hc
    · exact starts_cons ':' [] _
  have hstarts : startsWith (ascii [':', '/', '/'] ++ rest) (ascii [':', '/', '/']) = true :=
    startsWith_iff.mpr ⟨rest, rfl⟩
  rw [readProtocol, hcut]
  simp only [hstarts, if_true]
  rfl

theorem readProtocol_ok {url rest : Bytes} {u : HttpUrl}
    (h : readProtocol url = .ok (u, rest)) :
    ∃ protocol, ':'.toUInt8 ∉ protocol ∧ u = { protocol := protocol.map toLower } ∧
      url = protocol ++ (ascii [':', '/', '/'] ++ rest) := by
  obtain ⟨hurl, hprotocol, -⟩ := cut_spec [':'] url
  simp only [readProtocol] at h
  split at h
  · rename_i hstarts
    cases h
    obtain ⟨tail, htail⟩ := startsWith_iff.mp hstarts
    refine ⟨(cut [':'] url).1, fun hmem => hprotocol _ hmem List.mem_cons_self, rfl, ?_⟩
    rw [htail] at hurl ⊢
    exact hurl
  · cases h

theorem readHost_append {p : UrlParts} (hp : p.WellFormed) (protocol : Bytes) {rest : Bytes}
    (hrest : Starts [':', '/', '?', '#'] rest) :
    readHost { protocol := protocol } (p.hostText ++ rest) =
      .ok ({ protocol := protocol, host := p.host, isIPv6 := p.isIPv6 }, rest) := by
  have hhost := hp.host
  cases hv : p.isIPv6 with
  | true =>
      rw [hv, if_pos rfl] at hhost
      have hcut : cut [']'] (p.host ++ (']'.toUInt8 :: rest)) = (p.host, ']'.toUInt8 :: rest) :=
        cut_append hhost (starts_cons ']' [] rest)
      have hnone : cut [':', '/', '?', '#'] rest = ([], rest) :=
        cut_append (fun c hc => absurd hc List.not_mem_nil) hrest
      have htext : p.hostText ++ rest = '['.toUInt8 :: (p.host ++ (']'.toUInt8 :: rest)) := by
        simp [UrlParts.hostText, hv]
      rw [htext, readHost]
      simp [hcut, hnone]
  | false =>
      rw [hv, if_neg Bool.false_ne_true] at hhost
      have hcut : cut [':', '/', '?', '#'] (p.host ++ rest) = (p.host, rest) :=
        cut_append hhost hrest
      have htext : p.hostText ++ rest = p.host ++ rest := by simp [UrlParts.hostText, hv]
      -- without a host, the text starts with what ends one
      have hbracket : (p.host ++ rest).head? ≠ some '['.toUInt8 := by
        intro hhead
        have hne := hp.noBracket hv
        cases hlist : p.host with
        | nil =>
            rw [hlist, List.nil_append] at hhead
            exact absurd (hrest _ hhead) (by decide)
        | cons c host =>
            rw [hlist] at hhead hne
            exact hne hhead
      rw [htext, readHost, if_neg hbracket]
      simp only [hcut]

theorem readHost_ok {protocol url rest : Bytes} {u : HttpUrl}
    (h : readHost { protocol := protocol } url = .ok (u, rest)) :
    ∃ host isIPv6, u = { protocol := protocol, host := host, isIPv6 := isIPv6 } ∧
      url = (if isIPv6 then '['.toUInt8 :: (host ++ [']'.toUInt8]) else host) ++ rest ∧
      (∀ c ∈ host, c ∉ ascii (if isIPv6 then [']'] else [':', '/', '?', '#'])) ∧
      (isIPv6 = false → host.head? ≠ some '['.toUInt8) ∧ Starts [':', '/', '?', '#'] rest := by
  rw [readHost] at h
  split at h
  · rename_i hbracket
    obtain ⟨hurl, hhost, hstop⟩ := cut_spec [']'] url.tail
    obtain ⟨hrest, -, hnext⟩ := cut_spec [':', '/', '?', '#'] (cut [']'] url.tail).2.tail
    cases hclose : (cut [']'] url.tail).2 with
    | nil => simp [hclose] at h
    | cons c tail =>
        rw [hclose] at hurl hstop hrest hnext
        simp only [hclose, List.isEmpty_cons, List.tail_cons, Bool.false_eq_true, if_false] at h
        split at h
        · rename_i hempty
          cases h
          rw [List.tail_cons] at hrest hnext
          rw [List.isEmpty_iff.mp hempty, List.nil_append] at hrest
          rw [← hrest] at hnext
          have hc : c = ']'.toUInt8 := List.mem_singleton.mp (hstop c rfl)
          refine ⟨(cut [']'] url.tail).1, true, rfl, ?_, hhost, fun h => Bool.noConfusion h, hnext⟩
          obtain ⟨tail', htail⟩ : ∃ tail', url = '['.toUInt8 :: tail' := by
            cases url with
            | nil => cases hbracket
            | cons d tail' =>
                cases hbracket
                exact ⟨tail', rfl⟩
          rw [htail, List.tail_cons, hc] at hurl
          rw [htail, List.tail_cons]
          simpa using hurl
        · cases h
  · rename_i hbracket
    obtain ⟨hurl, hhost, hstop⟩ := cut_spec [':', '/', '?', '#'] url
    cases h
    refine ⟨(cut [':', '/', '?', '#'] url).1, false, rfl, hurl, hhost, ?_, hstop⟩
    intro _ hhead
    rw [hurl, List.head?_append, hhead] at hbracket
    exact hbracket rfl

theorem readPort_append {port : Option Bytes} (hport : ∀ s, port = some s → s ≠ [] ∧
    s.all isDigit = true) {u : HttpUrl} (hu : u.port = []) {rest : Bytes}
    (hrest : Starts ['/', '?', '#'] rest) :
    readPort u (UrlParts.marked ':' port ++ rest) = .ok ({ u with port := port.getD [] }, rest) := by
  cases port with
  | none =>
      have hmark : rest.head? ≠ some ':'.toUInt8 :=
        fun hhead => absurd (hrest _ hhead) (by decide)
      have hu' : { u with port := [] } = u := by rw [← hu]
      simp only [UrlParts.marked, Option.elim_none, List.nil_append, Option.getD_none]
      rw [readPort, if_neg hmark, hu']
  | some s =>
      obtain ⟨hne, hdigits⟩ := hport s rfl
      have hcut : cut ['/', '?', '#'] (s ++ rest) = (s, rest) := by
        refine cut_append ?_ hrest
        intro c hc hmem
        have hdigit := List.all_eq_true.mp hdigits c hc
        simp only [ascii, List.map_cons, List.map_nil, List.mem_cons, List.not_mem_nil,
          or_false] at hmem
        rcases hmem with rfl | rfl | rfl <;> exact absurd hdigit (by decide)
      have hempty : s.isEmpty = false := by simpa using hne
      simp [UrlParts.marked, readPort, hcut, hempty, hdigits]

theorem readPort_ok {u v : HttpUrl} {url rest : Bytes} (hu : u.port = [])
    (hurl : Starts [':', '/', '?', '#'] url) (h : readPort u url = .ok (v, rest)) :
    ∃ port, v = { u with port := Option.getD port [] } ∧ url = UrlParts.marked ':' port ++ rest ∧
      (∀ s, port = some s → s ≠ [] ∧ s.all isDigit = true) ∧ Starts ['/', '?', '#'] rest := by
  rw [readPort] at h
  split at h
  · rename_i hmark
    obtain ⟨tail, htail⟩ := List.head?_eq_some_iff.mp hmark
    obtain ⟨hcut, -, hstop⟩ := cut_spec ['/', '?', '#'] url.tail
    simp only at h
    split at h
    · cases h
    · rename_i hempty
      split at h
      · rename_i hdigits
        cases h
        refine ⟨some (cut ['/', '?', '#'] url.tail).1, rfl, ?_, ?_, hstop⟩
        · simp only [UrlParts.marked, Option.elim_some, List.cons_append]
          rw [← hcut, htail, List.tail_cons]
        · intro s hs
          cases hs
          exact ⟨fun hnil => hempty (List.isEmpty_iff.mpr hnil), hdigits⟩
      · cases h
  · rename_i hmark
    cases h
    refine ⟨none, by rw [Option.getD_none, ← hu], rfl, ?_, exists_marked hurl hmark⟩
    intro s hs
    cases hs

theorem readPath_append {path : Option Bytes} (hpath : ∀ s, path = some s →
    s.head? = some '/'.toUInt8 ∧ (unescapePath s).isSome ∧ ∀ c ∈ s, c ∉ ascii ['?', '#'])
    (u : HttpUrl) {rest : Bytes} (hrest : Starts ['?', '#'] rest) :
    readPath u (path.getD [] ++ rest) = .ok ({ u with path := path.getD (ascii ['/']) }, rest) := by
  cases path with
  | none =>
      have hmark : rest.head? ≠ some '/'.toUInt8 :=
        fun hhead => absurd (hrest _ hhead) (by decide)
      rw [Option.getD_none, Option.getD_none, List.nil_append, readPath, if_neg hmark]
  | some s =>
      obtain ⟨hslash, hescape, hstop⟩ := hpath s rfl
      have hcut : cut ['?', '#'] (s ++ rest) = (s, rest) := cut_append hstop hrest
      have hmark : (s ++ rest).head? = some '/'.toUInt8 := by
        rw [List.head?_append, hslash]
        rfl
      simp only [Option.getD_some, readPath, hmark, if_true, hcut, hescape]

theorem readPath_ok {u v : HttpUrl} {url rest : Bytes} (hurl : Starts ['/', '?', '#'] url)
    (h : readPath u url = .ok (v, rest)) :
    ∃ path, v = { u with path := Option.getD path (ascii ['/']) } ∧
      url = path.getD [] ++ rest ∧ (∀ s, path = some s → s.head? = some '/'.toUInt8 ∧
        (unescapePath s).isSome ∧ ∀ c ∈ s, c ∉ ascii ['?', '#']) ∧ Starts ['?', '#'] rest := by
  rw [readPath] at h
  split at h
  · rename_i hmark
    obtain ⟨hcut, hpath, hstop⟩ := cut_spec ['?', '#'] url
    simp only at h
    split at h
    · rename_i hescape
      cases h
      refine ⟨some (cut ['?', '#'] url).1, rfl, hcut, ?_, hstop⟩
      intro s hs
      cases hs
      refine ⟨?_, hescape, hpath⟩
      -- the slash is in the part, as it does not end it
      obtain ⟨tail, htail⟩ := List.head?_eq_some_iff.mp hmark
      rw [htail]
      rfl
    · cases h
  · rename_i hmark
    cases h
    refine ⟨none, rfl, rfl, ?_, exists_marked hurl hmark⟩
    intro s hs
    cases hs

theorem readQuery_append {query : Option Bytes} (hquery : ∀ s, query = some s → '#'.toUInt8 ∉ s)
    {u : HttpUrl} (hu : u.query = []) {rest : Bytes} (hrest : Starts ['#'] rest) :
    readQuery u (UrlParts.marked '?' query ++ rest) = { u with query := query.getD [] } := by
  cases query with
  | none =>
      have hmark : rest.head? ≠ some '?'.toUInt8 :=
        fun hhead => absurd (hrest _ hhead) (by decide)
      have hu' : { u with query := [] } = u := by rw [← hu]
      simp only [UrlParts.marked, Option.elim_none, List.nil_append, Option.getD_none]
      rw [readQuery, if_neg hmark, hu']
  | some s =>
      have hcut : cut ['#'] (s ++ rest) = (s, rest) := by
        refine cut_append ?_ hrest
        intro c hc hmem
        rw [List.mem_singleton.mp hmem] at hc
        exact hquery s rfl hc
      simp [UrlParts.marked, readQuery, hcut]

/-- A text that is empty or starts with a mark is a part behind that mark. -/
theorem eq_marked {mark : Char} {s : Bytes} (h : Starts [mark] s) :
    ∃ part, s = UrlParts.marked mark part := by
  cases s with
  | nil => exact ⟨none, rfl⟩
  | cons c s =>
      have hc : c = mark.toUInt8 := List.mem_singleton.mp (h c rfl)
      exact ⟨some s, by rw [hc]; rfl⟩

theorem readQuery_eq {u : HttpUrl} (hu : u.query = []) {url : Bytes}
    (hurl : Starts ['?', '#'] url) :
    ∃ query fragment, readQuery u url = { u with query := Option.getD query [] } ∧
      url = UrlParts.marked '?' query ++ UrlParts.marked '#' fragment ∧
      ∀ s, query = some s → '#'.toUInt8 ∉ s := by
  rw [readQuery]
  split
  · rename_i hmark
    obtain ⟨tail, htail⟩ := List.head?_eq_some_iff.mp hmark
    obtain ⟨hcut, hquery, hstop⟩ := cut_spec ['#'] url.tail
    obtain ⟨fragment, hfragment⟩ := eq_marked hstop
    refine ⟨some (cut ['#'] url.tail).1, fragment, rfl, ?_, ?_⟩
    · rw [← hfragment]
      simp only [UrlParts.marked, Option.elim_some, List.cons_append]
      rw [← hcut, htail, List.tail_cons]
    · intro s hs hmem
      cases hs
      exact hquery _ hmem List.mem_cons_self
  · rename_i hmark
    obtain ⟨fragment, hfragment⟩ := eq_marked (exists_marked hurl hmark)
    refine ⟨none, fragment, by rw [Option.getD_none, ← hu], hfragment, ?_⟩
    intro s hs
    cases hs

theorem readParts_render {p : UrlParts} (hp : p.WellFormed) : readParts p.render = .ok p.url := by
  have hfragment : Starts ['#'] (UrlParts.marked '#' p.fragment) := by
    have h := starts_marked '#' p.fragment (starts_nil [])
    rwa [List.append_nil] at h
  have hquery : Starts ['?', '#'] (UrlParts.marked '?' p.query ++ UrlParts.marked '#' p.fragment) :=
    starts_marked '?' p.query hfragment
  have hpath : Starts ['/', '?', '#'] (p.path.getD [] ++
      (UrlParts.marked '?' p.query ++ UrlParts.marked '#' p.fragment)) := by
    cases hs : p.path with
    | none => exact starts_of_tail hquery '/'
    | some s =>
        obtain ⟨tail, htail⟩ := List.head?_eq_some_iff.mp (hp.path s hs).1
        rw [htail]
        exact starts_cons '/' _ _
  have hport := starts_marked ':' p.port hpath
  have hhost := readHost_append hp (p.protocol.map toLower) hport
  simp only [readParts, UrlParts.render, readProtocol_append hp.protocol, hhost, bind, Except.bind,
    pure, Except.pure]
  rw [readPort_append hp.port ?_ hpath]
  · simp only [readPath_append hp.path _ hquery]
    rw [readQuery_append hp.query ?_ hfragment]
    · rfl
    · rfl
  · rfl

theorem readParts_ok {url : Bytes} {u : HttpUrl} (h : readParts url = .ok u) :
    ∃ p : UrlParts, p.WellFormed ∧ url = p.render ∧ u = p.url := by
  simp only [readParts, bind, Except.bind, pure, Except.pure] at h
  split at h
  · cases h
  rename_i r₁ h₁
  split at h
  · cases h
  rename_i r₂ h₂
  split at h
  · cases h
  rename_i r₃ h₃
  split at h
  · cases h
  rename_i r₄ h₄
  obtain ⟨protocol, hprotocol, hu₁, hurl₁⟩ := readProtocol_ok h₁
  rw [hu₁] at h₂
  obtain ⟨host, isIPv6, hu₂, hurl₂, hhost, hbracket, hstop₂⟩ := readHost_ok h₂
  obtain ⟨port, hu₃, hurl₃, hport, hstop₃⟩ := readPort_ok (by rw [hu₂]) hstop₂ h₃
  obtain ⟨path, hu₄, hurl₄, hpath, hstop₄⟩ := readPath_ok hstop₃ h₄
  have hnone : r₄.1.query = [] := by rw [hu₄, hu₃, hu₂]
  obtain ⟨query, fragment, hu₅, hurl₅, hquery⟩ := readQuery_eq hnone hstop₄
  refine ⟨{ protocol, host, isIPv6, port, path, query, fragment },
    ⟨hprotocol, hhost, hbracket, hport, hpath, hquery⟩, ?_, ?_⟩
  · rw [hurl₁, hurl₂, hurl₃, hurl₄, hurl₅]
    rfl
  · rw [← Except.ok.inj h, hu₅, hu₄, hu₃, hu₂]
    rfl

end HttpUrl

/-- Parts that are put together are read. -/
theorem UrlParts.ofString_render {p : UrlParts} (hp : p.WellFormed) (hzero : 0 ∉ p.render) :
    HttpUrl.ofString p.render = p.url := by
  have hall : (p.render.takeWhile fun c => c ≠ 0) = p.render := by
    rw [List.takeWhile_eq_self_iff]
    intro c hc
    exact decide_eq_true fun h => hzero (h ▸ hc)
  rw [HttpUrl.ofString, hall, HttpUrl.readParts_render hp]

/-- A URL is valid exactly if it is put together from well formed parts, and these are what is
read of it. -/
theorem url_parts :
    (∀ p : UrlParts, p.WellFormed → 0 ∉ p.render → HttpUrl.ofString p.render = p.url) ∧
      ∀ url, (HttpUrl.ofString url).invalid = false → ∃ p : UrlParts, p.WellFormed ∧
        (url.takeWhile fun c => c ≠ 0) = p.render ∧ HttpUrl.ofString url = p.url := by
  constructor
  · intro p hp hzero
    exact p.ofString_render hp hzero
  · intro url hvalid
    rw [HttpUrl.ofString] at hvalid ⊢
    cases hread : HttpUrl.readParts (url.takeWhile fun c => c ≠ 0) with
    | error u => rw [hread] at hvalid; cases hvalid
    | ok u =>
        rcases HttpUrl.readParts_ok hread with ⟨p, hp, hurl, hu⟩
        exact ⟨p, hp, hurl, hu⟩

/-- The parts of `https://[::]:8080/a?b=1#c` -/
def sampleParts : UrlParts where
  protocol := ascii "https".toList
  host := ascii "::".toList
  isIPv6 := true
  port := some (ascii "8080".toList)
  path := some (ascii "/a".toList)
  query := some (ascii "b=1".toList)
  fragment := some (ascii "c".toList)

theorem url_parts_sample : HttpUrl.ofString sampleParts.render = sampleParts.url :=
  url_parts.1 sampleParts
    { protocol := by decide
      host := forall_mem_of_all (by decide)
      noBracket := by decide
      port := fun s hs => by cases hs; decide
      path := fun s hs => by
        cases hs
        exact ⟨by decide, by decide +kernel, forall_mem_of_all (by decide)⟩
      query := fun s hs => by cases hs; decide } (by decide)

end BcmServer.Http
