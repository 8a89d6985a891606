import StepOAuth.Go.Host

/-!
# URLs printed and parsed again

`Auth` parses the authorization endpoint, replaces its query and prints it with `String`; the
provider reads the printed URL back. This module says when that gives back the URL `Auth`
started from.

* `Parsed`: what holds of every URL `url.Parse` returns (`parse_parsed`): a lower-case scheme,
  an opaque part only after a scheme, a host `parseHost` returned, a `RawPath` that `setPath`
  could have left, a path that starts with `/` after an authority, and so on.
* `Reparses`: the URLs whose printed form reads back. Four kinds do not: a path-only reference
  whose first segment holds `:` (printed with `./` in front), one whose path starts with exactly
  two slashes (read back as an authority), a host-less URL with `OmitHost` whose path starts
  with `//` (likewise), and a zone with a non-ASCII byte (which `unescape` refuses).
* `parse_string`: a parsed URL in that domain prints to a string `url.Parse` reads back as the
  same URL, up to `RawPath` and `RawFragment`, which may come back as another spelling of the
  same escaped text.
-/

namespace StepOAuth
namespace Go
namespace Url

open Byte

/-! ## Schemes -/

/-- `strings.ToLower` on one byte of a scheme. -/
def lowerByte (c : UInt8) : UInt8 := if 'A'.toUInt8 ≤ c ∧ c ≤ 'Z'.toUInt8 then c + 32 else c

/-- A byte of a scheme after the first: a letter, a digit, `+`, `-` or `.`. -/
def isSchemeByte (c : UInt8) : Bool :=
  isLetter c || ('0'.toUInt8 ≤ c && c ≤ '9'.toUInt8) || isOneOf c ['+', '-', '.']

/-- A scheme as `getScheme` reads it: a letter, then scheme bytes. -/
def SchemeShape : Bytes → Prop
  | [] => False
  | c :: s => isLetter c = true ∧ ∀ d ∈ s, isSchemeByte d = true

/-- The scheme of a URL `parse` returns: none, or a scheme in lower case. -/
def SchemeOk (s : Bytes) : Prop := s = [] ∨ (SchemeShape s ∧ toLower s = s)

theorem toLower_eq (s : Bytes) : toLower s = s.map lowerByte := rfl

theorem toNat_lowerByte (c : UInt8) :
    (lowerByte c).toNat = if 65 ≤ c.toNat ∧ c.toNat ≤ 90 then c.toNat + 32 else c.toNat := by
  unfold lowerByte
  simp only [le_iff, toNat_toUInt8, Char.reduceToNat, Nat.reduceMod]
  split_ifs
  · rw [toNat_add]
    show (c.toNat + 32) % 256 = _
    omega
  · rfl

theorem isLetter_iff (c : UInt8) :
    isLetter c = true ↔ (97 ≤ c.toNat ∧ c.toNat ≤ 122) ∨ (65 ≤ c.toNat ∧ c.toNat ≤ 90) := by
  simp [isLetter, le_iff]

theorem lowerByte_lowerByte (c : UInt8) : lowerByte (lowerByte c) = lowerByte c := by
  rw [eq_iff, toNat_lowerByte, toNat_lowerByte]
  have := toNat_lt c
  split_ifs <;> omega

theorem isLetter_lowerByte (c : UInt8) : isLetter (lowerByte c) = isLetter c := by
  rw [Bool.eq_iff_iff, isLetter_iff, isLetter_iff, toNat_lowerByte]
  split_ifs <;> omega

theorem isSchemeByte_lowerByte (c : UInt8) : isSchemeByte (lowerByte c) = isSchemeByte c := by
  unfold isSchemeByte
  rw [isLetter_lowerByte]
  by_cases h : 'A'.toUInt8 ≤ c ∧ c ≤ 'Z'.toUInt8
  · have hl : isLetter c = true := by
      rw [isLetter_iff]
      simp only [le_iff, toNat_toUInt8, Char.reduceToNat, Nat.reduceMod] at h
      omega
    simp [hl]
  · simp [lowerByte, h]

theorem toLower_toLower (s : Bytes) : toLower (toLower s) = toLower s := by
  simp [toLower_eq, Function.comp_def, lowerByte_lowerByte]

theorem SchemeShape.toLower {s : Bytes} (h : SchemeShape s) : SchemeShape (toLower s) := by
  match s, h with
  | c :: t, ⟨hc, ht⟩ =>
      show SchemeShape (lowerByte c :: t.map lowerByte)
      refine ⟨by rw [isLetter_lowerByte]; exact hc, fun d hd => ?_⟩
      obtain ⟨e, he, rfl⟩ := List.mem_map.1 hd
      rw [isSchemeByte_lowerByte]
      exact ht e he

theorem SchemeShape.append {s : Bytes} (h : SchemeShape s) {c : UInt8}
    (hc : isSchemeByte c = true) : SchemeShape (s ++ [c]) := by
  match s, h with
  | d :: t, ⟨hd, ht⟩ =>
      refine ⟨hd, fun e he => ?_⟩
      rcases List.mem_append.1 he with he | he
      · exact ht e he
      · rw [List.mem_singleton.1 he]
        exact hc

theorem isSchemeByte_of_isLetter {c : UInt8} (h : isLetter c = true) : isSchemeByte c = true := by
  simp [isSchemeByte, h]

/-- The loop of `getScheme` returns no scheme and the whole input, or a scheme it read and a
suffix of the input. -/
theorem getSchemeLoop_ok {raw : Bytes} :
    ∀ {s acc sch rest : Bytes}, (acc = [] ∨ SchemeShape acc) → s <:+ raw →
      getSchemeLoop raw acc s = .ok (sch, rest) → (sch = [] ∨ SchemeShape sch) ∧ rest <:+ raw
  | [], _, _, _, _, _, h => by cases h; exact ⟨.inl rfl, List.suffix_refl _⟩
  | c :: s, acc, sch, rest, hacc, hs, h => by
      have hs' : s <:+ raw := (List.suffix_cons c s).trans hs
      unfold getSchemeLoop at h
      split_ifs at h with hl hd hacc0 hcol hacc1
      · refine getSchemeLoop_ok (.inr ?_) hs' h
        rcases hacc with rfl | hacc
        · exact ⟨hl, by simp⟩
        · exact hacc.append (isSchemeByte_of_isLetter hl)
      · cases h
        exact ⟨.inl rfl, List.suffix_refl _⟩
      · refine getSchemeLoop_ok (.inr ((hacc.resolve_left hacc0).append ?_)) hs' h
        simp only [isSchemeByte]
        rcases hd with hd | hd <;> simp [hd]
      · cases h
        exact ⟨hacc, hs'⟩
      · cases h
        exact ⟨.inl rfl, List.suffix_refl _⟩

/-! ## Text before the fragment -/

/-- Text that may stand in a URL before its fragment: no `#` and no control byte. -/
def Plain (s : Bytes) : Prop := '#'.toUInt8 ∉ s ∧ containsCTLByte s = false

theorem containsCTLByte_infix {s t : Bytes} (h : s <:+: t) (ht : containsCTLByte t = false) :
    containsCTLByte s = false := by
  simp only [containsCTLByte, List.any_eq_false] at ht ⊢
  exact fun c hc => ht c (h.subset hc)

theorem Plain.infix {s t : Bytes} (ht : Plain t) (h : s <:+: t) : Plain s :=
  ⟨fun hs => ht.1 (h.subset hs), containsCTLByte_infix h ht.2⟩

/-- The query split of `parse` leaves a part with no `?`, and a query that is empty when it is
forced. -/
theorem splitQuery_spec (rest : Bytes) :
    (splitQuery rest).1 <+: rest ∧ '?'.toUInt8 ∉ (splitQuery rest).1 ∧
      (splitQuery rest).2.2 <:+ rest ∧
      ((splitQuery rest).2.1 = true → (splitQuery rest).2.2 = []) := by
  unfold splitQuery
  split_ifs with h
  · refine ⟨List.dropLast_prefix _, fun hm => ?_, List.nil_suffix, fun _ => rfl⟩
    obtain ⟨hl, hc⟩ := h
    dsimp only at hm
    rw [← List.dropLast_append_getLast? _ hl, List.count_append] at hc
    have := List.count_pos_iff.2 hm
    simp at hc
    omega
  · rcases @Strings.cut_spec '?'.toUInt8 rest with ⟨x, y, rfl, hx, hc⟩ | ⟨hn, hc⟩
    · simp only [hc]
      exact ⟨List.prefix_append _ _, hx, (List.suffix_cons _ _).trans (List.suffix_append _ _),
        nofun⟩
    · simp only [hc]
      exact ⟨List.prefix_refl _, hn, List.nil_suffix, nofun⟩

/-! ## Paths, fragments and authorities as `parse` leaves them -/

/-- The raw spelling `setPath` and `setFragment` keep beside a decoded part: none, or a valid
spelling of it other than the default escaping. -/
def RawSpelling (mode : Encoding) (s raw : Bytes) : Prop :=
  raw = [] ∨ (escape s mode ≠ raw ∧ unescape mode raw = .ok s)

theorem setPath_ok {p path raw : Bytes} (h : setPath p = .ok (path, raw)) :
    unescape .path p = .ok path ∧ RawSpelling .path path raw ∧ (raw = [] ∨ raw = p) := by
  obtain ⟨path', hp, h⟩ := bind_eq_ok h
  cases h
  rw [mapError_eq_ok] at hp
  refine ⟨hp, ?_⟩
  split_ifs with he
  · exact ⟨.inl rfl, .inl rfl⟩
  · exact ⟨.inr ⟨he, hp⟩, .inr rfl⟩

theorem setFragment_ok {f frag raw : Bytes} (h : setFragment f = .ok (frag, raw)) :
    unescape .fragment f = .ok frag ∧ RawSpelling .fragment frag raw := by
  obtain ⟨frag', hp, h⟩ := bind_eq_ok h
  cases h
  rw [mapError_eq_ok] at hp
  refine ⟨hp, ?_⟩
  split_ifs with he
  · exact .inl rfl
  · exact .inr ⟨he, hp⟩

theorem unescape_eq_nil {m : Encoding} {s : Bytes} (h : unescape m s = .ok []) : s = [] := by
  refine unescape_ok_induction (fun s t => t = [] → s = []) (fun _ => rfl) ?_ ?_ h rfl
  · intro _ _ _ _ _ _ _ _ _ _ h
    cases h
  · intro _ _ _ _ _ _ _ h
    cases h

theorem unescape_slash {m : Encoding} {s t : Bytes} (hm : m ≠ .host ∧ m ≠ .zone)
    (h : unescape m ('/'.toUInt8 :: s) = .ok t) : t.head? = some '/'.toUInt8 := by
  rw [unescape_cons_raw (by decide) (by simp [RawRefused, hm])] at h
  obtain ⟨t', -, rfl⟩ := map_eq_ok h
  rw [unescapeByte, if_neg fun h => absurd h.1 (by decide)]
  rfl

/-- The user information `parseAuthority` returns has no password unless it has a `:`. -/
def UserOk (user : Option Userinfo) : Prop :=
  ∀ ui, user = some ui → ui.passwordSet = false → ui.password = []

theorem parseAuthority_ok {a : Bytes} {user : Option Userinfo} {host : Bytes}
    (h : parseAuthority a = .ok (user, host)) :
    (∃ raw, parseHost raw = .ok host) ∧ UserOk user := by
  unfold parseAuthority at h
  split at h
  · obtain ⟨host', hh, h⟩ := bind_eq_ok h
    cases h
    exact ⟨⟨_, hh⟩, nofun⟩
  · rename_i ui hostPart _
    rcases hh : parseHost hostPart with e | host' <;>
      simp only [hh, bind, Except.bind, pure, Except.pure] at h
    · cases h
    split_ifs at h <;> (repeat' split at h) <;> cases h <;>
      exact ⟨⟨_, hh⟩, by rintro ui ⟨⟩ hp; first | rfl | cases hp⟩

theorem isPrefixOf_slash (s : Bytes) :
    (ascii "/").isPrefixOf s = true ↔ s.head? = some '/'.toUInt8 :=
  isPrefixOf_single _ s

theorem parseAuthorityPart_ok {scheme rest : Bytes} {user : Option Userinfo} {host : Bytes}
    {omitHost : Bool} {rest' : Bytes}
    (h : parseAuthorityPart scheme rest = .ok (user, host, omitHost, rest'))
    (hs : scheme ≠ [] → (ascii "/").isPrefixOf rest = true) :
    (∃ raw, parseHost raw = .ok host) ∧ UserOk user ∧
      (omitHost = true → scheme ≠ [] ∧ host = [] ∧ user = none ∧ rest'.head? = some '/'.toUInt8) ∧
      (scheme ≠ [] ∨ host ≠ [] ∨ user.isSome → rest' = [] ∨ rest'.head? = some '/'.toUInt8) := by
  unfold parseAuthorityPart at h
  split_ifs at h with h1 h2
  · -- an authority, up to the first `/` after it or to the end
    dsimp only at h
    split at h <;>
    · obtain ⟨⟨user', host'⟩, ha, h⟩ := bind_eq_ok h
      cases h
      obtain ⟨hh, hu⟩ := parseAuthority_ok ha
      exact ⟨hh, hu, nofun, fun _ => by first | exact .inr rfl | exact .inl rfl⟩
  · cases h
    refine ⟨⟨[], rfl⟩, nofun, fun _ => ⟨h2.1, rfl, rfl, ?_⟩, fun _ => .inr ?_⟩ <;>
      exact (isPrefixOf_slash rest).1 h2.2
  · cases h
    refine ⟨⟨[], rfl⟩, nofun, nofun, fun hc => ?_⟩
    have hsch : scheme ≠ [] := by simpa using hc
    exact absurd ⟨hsch, hs hsch⟩ h2

/-- `EscapedPath` starts with `/` when the path `setPath` read did. -/
theorem escapedPath_head {u : URL} {p : Bytes} (h : setPath p = .ok (u.path, u.rawPath))
    (hp : p.head? = some '/'.toUInt8) : u.escapedPath.head? = some '/'.toUInt8 := by
  obtain ⟨hu, -, hraw⟩ := setPath_ok h
  obtain ⟨p', rfl⟩ : ∃ p', p = '/'.toUInt8 :: p' := by
    cases p with
    | nil => cases hp
    | cons c p' => cases hp; exact ⟨p', rfl⟩
  have hpath := unescape_slash (by decide) hu
  unfold URL.escapedPath
  split_ifs with h1 h2
  · rcases hraw with h0 | h0
    · exact absurd h0 h1.1
    · rw [h0]
      rfl
  · rw [h2] at hpath
    cases hpath
  · rwa [head?_escape ⟨by decide, by decide, by decide⟩ (by decide)]

/-! ## What `parse` returns -/

/-- What holds of every URL `parse` returns. -/
structure Parsed (u : URL) : Prop where
  scheme : SchemeOk u.scheme
  /-- An opaque part follows a scheme, does not start with `/`, and stands alone. -/
  opaqueData_ok : u.opaqueData ≠ [] → u.scheme ≠ [] ∧ (ascii "/").isPrefixOf u.opaqueData = false ∧
    '?'.toUInt8 ∉ u.opaqueData ∧ u.user = none ∧ u.host = [] ∧ u.path = [] ∧ u.omitHost = false
  opaqueData_plain : Plain u.opaqueData
  host : ∃ raw, parseHost raw = .ok u.host
  user : UserOk u.user
  path : RawSpelling .path u.path u.rawPath
  /-- After a scheme or an authority, the path is empty or starts with `/`. -/
  slash : u.scheme ≠ [] ∨ u.host ≠ [] ∨ u.user.isSome →
    u.escapedPath = [] ∨ u.escapedPath.head? = some '/'.toUInt8
  omitHost_ok : u.omitHost = true →
    u.scheme ≠ [] ∧ u.host = [] ∧ u.user = none ∧ u.escapedPath.head? = some '/'.toUInt8
  fragment : RawSpelling .fragment u.fragment u.rawFragment
  query : Plain u.rawQuery
  forced : u.forceQuery = true → u.rawQuery = []

theorem escapedPath_nil {u : URL} (hw : RawSpelling .path u.path u.rawPath) (hp : u.path = []) :
    u.escapedPath = [] := by
  rcases hw with h | ⟨-, h⟩
  · simp [URL.escapedPath, h, hp]
  · rw [hp] at h
    have := unescape_eq_nil h
    simp [URL.escapedPath, this, hp]

/-- The URL `parseRef` returns, before a fragment is set. -/
theorem parseRef_parsed {raw : Bytes} {u : URL} (hp : '#'.toUInt8 ∉ raw)
    (h : parseRef raw = .ok u) : Parsed u ∧ u.fragment = [] ∧ u.rawFragment = [] := by
  unfold parseRef at h
  split_ifs at h with hctl hstar
  · cases h
    exact ⟨⟨.inl rfl, nofun, ⟨List.not_mem_nil _, rfl⟩, ⟨[], rfl⟩, nofun, .inl rfl, by simp,
      nofun, .inl rfl, ⟨List.not_mem_nil _, rfl⟩, nofun⟩, rfl, rfl⟩
  obtain ⟨⟨sch, rest⟩, hg, h⟩ := bind_eq_ok h
  obtain ⟨hsch, hrest⟩ := getSchemeLoop_ok (.inl rfl) (List.suffix_refl _) hg
  have hplain : Plain rest := Plain.infix ⟨hp, by simpa using hctl⟩ hrest.isInfix
  obtain ⟨hq1, hq2, hq3, hq4⟩ := splitQuery_spec rest
  have hok : SchemeOk (toLower sch) := by
    rcases hsch with rfl | hs
    · exact .inl rfl
    · exact .inr ⟨hs.toLower, toLower_toLower sch⟩
  have hqp : Plain (splitQuery rest).2.2 := hplain.infix hq3.isInfix
  dsimp only at h
  split_ifs at h with hop hcol
  · cases h
    refine ⟨⟨hok, fun _ => ⟨hop.2, (Bool.not_eq_true' _).mp hop.1, hq2, rfl, rfl, rfl, rfl⟩,
      hplain.infix hq1.isInfix, ⟨[], rfl⟩, nofun, .inl rfl, fun _ => .inl rfl, nofun, .inl rfl,
      hqp, hq4⟩, rfl, rfl⟩
  obtain ⟨⟨user, host, omitHost, rest'⟩, ha, h⟩ := bind_eq_ok h
  dsimp only at h
  obtain ⟨⟨path, rawPath⟩, hsp, h⟩ := bind_eq_ok h
  cases h
  have hslash : toLower sch ≠ [] → (ascii "/").isPrefixOf (splitQuery rest).1 = true := by
    intro hs
    by_contra hn
    exact hop ⟨(Bool.not_eq_true' _).mpr (eq_false_of_ne_true hn), hs⟩
  obtain ⟨hh, hu, homit, hrest'⟩ := parseAuthorityPart_ok ha hslash
  obtain ⟨-, hw, -⟩ := setPath_ok hsp
  have hhead : rest'.head? = some '/'.toUInt8 →
      ({ path, rawPath } : URL).escapedPath.head? = some '/'.toUInt8 := escapedPath_head hsp
  have hnil : rest' = [] → ({ path, rawPath } : URL).escapedPath = [] := by
    rintro rfl
    obtain ⟨hu', -⟩ := setPath_ok hsp
    cases hu'
    exact escapedPath_nil hw rfl
  refine ⟨⟨hok, fun h => absurd rfl h, ⟨List.not_mem_nil _, rfl⟩, hh, hu, hw, fun hs => ?_,
    fun ho => ?_, .inl rfl, hqp, hq4⟩, rfl, rfl⟩
  · rcases hrest' hs with h0 | h0
    · exact .inl (hnil h0)
    · exact .inr (hhead h0)
  · obtain ⟨h1, h2, h3, h4⟩ := homit ho
    exact ⟨h1, h2, h3, hhead h4⟩

/-- **Every URL `parse` returns is `Parsed`.** -/
theorem parse_parsed {raw : Bytes} {u : URL} (h : parse raw = .ok u) : Parsed u := by
  unfold parse at h
  obtain ⟨url, hr, h⟩ := bind_eq_ok h
  have hhash : '#'.toUInt8 ∉ (Strings.cut '#'.toUInt8 raw).1 := by
    rcases @Strings.cut_spec '#'.toUInt8 raw with ⟨x, y, rfl, hx, hc⟩ | ⟨hn, hc⟩ <;>
      rw [hc] <;> assumption
  obtain ⟨hurl, -, -⟩ := parseRef_parsed hhash hr
  split_ifs at h
  · cases h
    exact hurl
  · obtain ⟨⟨frag, rawFrag⟩, hf, h⟩ := bind_eq_ok h
    cases h
    exact { hurl with fragment := (setFragment_ok hf).2 }

/-! ## Text `String` writes -/

theorem isOneOf_iff (c : UInt8) (cs : List Char) :
    isOneOf c cs = true ↔ ∃ x ∈ cs, c = x.toUInt8 := by
  induction cs with
  | nil => simp
  | cons d ds ih => simp [ih]

/-- A control byte is none of the printable characters a `switch` names. -/
theorem isOneOf_ctl {c : UInt8} (h : c.toNat < 0x20 ∨ c.toNat = 0x7f) {cs : List Char}
    (hcs : ∀ x ∈ cs, 32 ≤ x.toNat ∧ x.toNat < 127) : isOneOf c cs = false := by
  rw [← Bool.not_eq_true, isOneOf_iff]
  rintro ⟨x, hx, rfl⟩
  have := hcs x hx
  simp only [toNat_toUInt8] at h
  omega

/-- Every encoding escapes a control byte. -/
theorem shouldEscape_ctl {c : UInt8} (h : c.toNat < 0x20 ∨ c.toNat = 0x7f) (m : Encoding) :
    shouldEscape c m = true := by
  have hal : isAlnum c = false := by
    simp only [isAlnum, le_iff, toNat_toUInt8, Char.reduceToNat, Nat.reduceMod,
      Bool.or_eq_false_iff, Bool.and_eq_false_imp, decide_eq_true_eq, decide_eq_false_iff_not]
    omega
  cases m <;> simp (disch := decide) [shouldEscape, hal, isOneOf_ctl h]

theorem containsCTLByte_eq_false {s : Bytes} :
    containsCTLByte s = false ↔ ∀ c ∈ s, ¬ (c.toNat < 0x20 ∨ c.toNat = 0x7f) := by
  simp [containsCTLByte]

theorem containsCTLByte_append (a b : Bytes) :
    containsCTLByte (a ++ b) = (containsCTLByte a || containsCTLByte b) := List.any_append ..

theorem upperhex_printable : ∀ n < 16, 48 ≤ (upperhex n).toNat ∧ (upperhex n).toNat ≤ 70 := by
  decide

/-- Escaped text holds no control byte. -/
theorem containsCTLByte_escape (s : Bytes) (m : Encoding) :
    containsCTLByte (escape s m) = false := by
  rw [containsCTLByte_eq_false]
  intro b hb hctl
  obtain ⟨c, -, hb⟩ := List.mem_flatMap.1 hb
  have hlt := toNat_lt c
  unfold escapeByte at hb
  split_ifs at hb with hsp hesc
  · rw [List.mem_singleton.1 hb] at hctl
    revert hctl
    decide
  · simp only [List.mem_cons, List.mem_singleton, List.not_mem_nil, or_false] at hb
    rcases hb with rfl | rfl | rfl
    · revert hctl
      decide
    · have := upperhex_printable (c.toNat / 16) (by omega)
      omega
    · have := upperhex_printable (c.toNat % 16) (by omega)
      omega
  · rw [List.mem_singleton.1 hb] at hctl
    simp [shouldEscape_ctl hctl] at hesc

/-- Text `validEncoded` accepts holds no control byte, and none of the bytes its encoding
escapes and `validEncoded` does not list. -/
theorem validEncoded_text {s : Bytes} {m : Encoding} (h : validEncoded s m = true)
    (hq : shouldEscape '?'.toUInt8 m = true) (hh : shouldEscape '#'.toUInt8 m = true) :
    '?'.toUInt8 ∉ s ∧ '#'.toUInt8 ∉ s ∧ containsCTLByte s = false := by
  simp only [validEncoded, List.all_eq_true] at h
  refine ⟨fun hm => absurd (h _ hm) (by rw [hq]; decide),
    fun hm => absurd (h _ hm) (by rw [hh]; decide), ?_⟩
  rw [containsCTLByte_eq_false]
  intro c hc hctl
  have := h c hc
  simp (disch := decide) [isOneOf_ctl hctl, shouldEscape_ctl hctl] at this

theorem not_mem_escape_of {x : UInt8} {m : Encoding} (hx : Literal x)
    (hesc : shouldEscape x m = true) (s : Bytes) : x ∉ escape s m :=
  not_mem_escape hx.1 (fun n hn he => absurd hx.2.2 (by rw [he, (upperhex_spec n hn).1]; decide))
    hesc (.inl hx.2.1) s

/-- `EscapedPath` holds no `?`, `#` or control byte. -/
theorem escapedPath_text (u : URL) :
    '?'.toUInt8 ∉ u.escapedPath ∧ '#'.toUInt8 ∉ u.escapedPath ∧
      containsCTLByte u.escapedPath = false := by
  unfold URL.escapedPath
  split_ifs with h1 h2
  · exact validEncoded_text h1.2.1 (by decide) (by decide)
  · decide
  · exact ⟨not_mem_escape_of ⟨by decide, by decide, by decide⟩ (by decide) _,
      not_mem_escape_of ⟨by decide, by decide, by decide⟩ (by decide) _, containsCTLByte_escape _ _⟩

theorem upperhex_alnum : ∀ n < 16, isAlnum (upperhex n) = true := by decide

theorem validUserinfo_append (a b : Bytes) :
    validUserinfo (a ++ b) = (validUserinfo a && validUserinfo b) := List.all_append ..

/-- A byte the user-password encoding keeps is one `validUserinfo` accepts. -/
theorem validUserinfo_of_keep {c : UInt8} (h : shouldEscape c .userPassword = false) :
    validUserinfo [c] = true := by
  unfold shouldEscape at h
  split_ifs at h with ha hh hd hr hf
  · simp [validUserinfo, ha]
  · exact absurd hh.1 (by simp)
  · obtain ⟨x, hx, rfl⟩ := (isOneOf_iff _ _).1 hd
    simp only [List.mem_cons, List.not_mem_nil, or_false] at hx
    rcases hx with rfl | rfl | rfl | rfl <;> decide
  · obtain ⟨x, hx, rfl⟩ := (isOneOf_iff _ _).1 hr
    simp only [List.mem_cons, List.not_mem_nil, or_false] at hx
    revert h
    rcases hx with rfl | rfl | rfl | rfl | rfl | rfl | rfl | rfl | rfl | rfl <;> decide
  · exact hf.1.elim

theorem validUserinfo_escape (s : Bytes) : validUserinfo (escape s .userPassword) = true := by
  induction s with
  | nil => rfl
  | cons c s ih =>
      rw [escape_cons, validUserinfo_append, ih, Bool.and_true]
      have hlt := toNat_lt c
      by_cases hesc : shouldEscape c .userPassword = true
      · rw [show escapeByte .userPassword c =
            ['%'.toUInt8, upperhex (c.toNat / 16), upperhex (c.toNat % 16)] by
          simp [escapeByte, hesc]]
        simp [validUserinfo, upperhex_alnum (c.toNat / 16) (by omega),
          upperhex_alnum (c.toNat % 16) (by omega)]
      · rw [escapeByte_of_not_shouldEscape (by simpa using hesc)]
        exact validUserinfo_of_keep (by simpa using hesc)

theorem Userinfo.string_valid (ui : Userinfo) : validUserinfo ui.string = true := by
  unfold Userinfo.string
  split <;> simp only [validUserinfo_append, validUserinfo_escape, Bool.true_and]
  · show validUserinfo ([':'.toUInt8] ++ escape _ _) = true
    rw [validUserinfo_append, validUserinfo_escape]
    rfl
  · rfl

theorem literal_of (x : UInt8) (h : x ≠ '%'.toUInt8 ∧ x ≠ '+'.toUInt8 ∧ ishex x = false) :
    Literal x := h

/-- The user information `String` writes holds none of the bytes that end it. -/
theorem Userinfo.string_text (ui : Userinfo) :
    '/'.toUInt8 ∉ ui.string ∧ '?'.toUInt8 ∉ ui.string ∧ '#'.toUInt8 ∉ ui.string ∧
      '@'.toUInt8 ∉ ui.string ∧ containsCTLByte ui.string = false := by
  have key : ∀ x, Literal x → shouldEscape x .userPassword = true → x ≠ ':'.toUInt8 →
      x ∉ ui.string := by
    intro x hx he hc h
    unfold Userinfo.string at h
    rcases List.mem_append.1 h with h | h
    · exact not_mem_escape_of hx he _ h
    · split at h
      · rcases List.mem_cons.1 h with h | h
        · exact hc h
        · exact not_mem_escape_of hx he _ h
      · cases h
  refine ⟨key _ (literal_of _ (by decide)) (by decide) (by decide),
    key _ (literal_of _ (by decide)) (by decide) (by decide),
    key _ (literal_of _ (by decide)) (by decide) (by decide),
    key _ (literal_of _ (by decide)) (by decide) (by decide), ?_⟩
  unfold Userinfo.string
  split
  · show containsCTLByte (escape _ _ ++ ([':'.toUInt8] ++ escape _ _)) = false
    simp only [containsCTLByte_append, containsCTLByte_escape, Bool.false_or, Bool.or_false]
    rfl
  · simp [containsCTLByte_append, containsCTLByte_escape]


/-! ## Reading back what `String` writes -/

/-- The user information `String` writes before `@`, if any. -/
def userPart (user : Option Userinfo) : Bytes :=
  match user with
  | some ui => ui.string ++ ['@'.toUInt8]
  | none => []

/-- `parseAuthority` reads back the authority `String` writes. -/
theorem parseAuthority_print {user : Option Userinfo} {host : Bytes} (hu : UserOk user)
    (hh : ∃ raw, parseHost raw = .ok host) (hz : ZoneAscii host) :
    parseAuthority (userPart user ++ escape host .host) = .ok (user, host) := by
  obtain ⟨raw, hr⟩ := hh
  have hph := parseHost_escape hr hz
  have hat : '@'.toUInt8 ∉ escape host .host :=
    not_mem_escape_of (literal_of _ (by decide)) (by decide) _
  unfold parseAuthority
  cases user with
  | none =>
      rw [userPart, List.nil_append, Strings.splitLast_of_not_mem hat]
      simp [hph, bind, Except.bind, pure, Except.pure]
  | some ui =>
      rw [userPart, List.append_assoc, List.singleton_append, Strings.splitLast_append hat]
      simp only [hph, bind, Except.bind, pure, Except.pure, Userinfo.string_valid, Bool.not_true,
        Bool.false_eq_true, if_false]
      have hcolon : ∀ s, ':'.toUInt8 ∉ escape s .userPassword :=
        not_mem_escape_of (literal_of _ (by decide)) (by decide)
      cases hp : ui.passwordSet
      · have hs : ui.string = escape ui.username .userPassword := by simp [Userinfo.string, hp]
        rw [hs, if_pos (hcolon _), unescape_escape (m := .userPassword) fun _ _ => trivial]
        simp only [Except.mapError]
        rw [← hu ui rfl hp, ← hp]
      · have hs : ui.string = escape ui.username .userPassword ++ ':'.toUInt8 ::
            escape ui.password .userPassword := by simp [Userinfo.string, hp]
        rw [hs, if_neg (by simp), Strings.cut_append (hcolon _)]
        simp only [unescape_escape (m := .userPassword) fun _ _ => trivial, Except.mapError]
        rw [← hp]

/-- The three ways `EscapedPath` is chosen. -/
theorem escapedPath_cases (u : URL) :
    (u.escapedPath = u.rawPath ∧ u.rawPath ≠ [] ∧ validEncoded u.rawPath .path = true ∧
        unescape .path u.rawPath = .ok u.path) ∨
      (u.escapedPath = ascii "*" ∧ u.path = ascii "*") ∨
      (u.path ≠ ascii "*" ∧ u.escapedPath = escape u.path .path) := by
  unfold URL.escapedPath
  split_ifs with h1 h2
  · exact .inl ⟨rfl, h1⟩
  · exact .inr (.inl ⟨rfl, h2⟩)
  · exact .inr (.inr ⟨h2, rfl⟩)

theorem unescape_escapedPath (u : URL) : unescape .path u.escapedPath = .ok u.path := by
  rcases escapedPath_cases u with ⟨h, -, -, hu⟩ | ⟨h, hp⟩ | ⟨-, h⟩
  · rw [h, hu]
  · rw [h, hp]
    rfl
  · rw [h, unescape_escape (m := .path) fun _ _ => trivial]

theorem escape_star : escape (ascii "*") .path ≠ ascii "*" := by decide

/-- After a scheme, a parsed path is empty or rooted. -/
theorem Parsed.path_rooted {u : URL} (hu : Parsed u) (hs : u.scheme ≠ []) :
    u.path = [] ∨ u.path.head? = some '/'.toUInt8 := by
  have hun := unescape_escapedPath u
  rcases hu.slash (.inl hs) with h | h
  · rw [h, show unescape .path [] = .ok [] from rfl] at hun
    exact .inl (Except.ok.inj hun).symm
  · obtain ⟨t, ht⟩ : ∃ t, u.escapedPath = '/'.toUInt8 :: t := by
      cases hp : u.escapedPath with
      | nil => rw [hp] at h; cases h
      | cons c t => rw [hp] at h; cases h; exact ⟨t, rfl⟩
    rw [ht] at hun
    exact .inr (unescape_slash (by decide) hun)

/-- `setPath` reads `EscapedPath` back as the same path, beside a raw spelling with the same
`EscapedPath`. -/
theorem setPath_escapedPath {u : URL} (hw : RawSpelling .path u.path u.rawPath) :
    ∃ r, setPath u.escapedPath = .ok (u.path, r) ∧
      ({ u with rawPath := r } : URL).escapedPath = u.escapedPath := by
  have hun := unescape_escapedPath u
  refine ⟨if escape u.path .path = u.escapedPath then [] else u.escapedPath, ?_, ?_⟩
  · simp [setPath, hun, bind, Except.bind, pure, Except.pure, Except.mapError]
  split_ifs with he
  · -- the default escaping comes back with no raw spelling
    have hstar : u.path ≠ ascii "*" := by
      intro hp
      rcases escapedPath_cases u with ⟨h, hne, -, -⟩ | ⟨h, -⟩ | ⟨hs, -⟩
      · rcases hw with hw | hw
        · exact hne hw
        · exact hw.1 (he.trans h)
      · rw [h, hp] at he
        exact escape_star he
      · exact hs hp
    rw [show ({ u with rawPath := [] } : URL).escapedPath = escape u.path .path by
      simp [URL.escapedPath, hstar]]
    exact he
  · -- another spelling is kept as `RawPath` and chosen again
    have hne : u.escapedPath ≠ [] := by
      intro h0
      rw [h0] at hun he
      rw [← Except.ok.inj hun] at he
      exact he rfl
    have hvalid : validEncoded u.escapedPath .path = true := by
      rcases escapedPath_cases u with ⟨h, -, hv, -⟩ | ⟨h, -⟩ | ⟨-, h⟩
      · rwa [h]
      · rw [h]
        rfl
      · exact absurd h.symm he
    show (if u.escapedPath ≠ [] ∧ validEncoded u.escapedPath .path = true ∧
        unescape .path u.escapedPath = .ok u.path then u.escapedPath else _) = _
    rw [if_pos ⟨hne, hvalid, hun⟩]

/-- `setFragment` reads `EscapedFragment` back likewise. -/
theorem setFragment_escapedFragment (u : URL) :
    ∃ f, setFragment u.escapedFragment = .ok (u.fragment, f) ∧
      ({ u with rawFragment := f } : URL).escapedFragment = u.escapedFragment := by
  have hcases : (u.escapedFragment = u.rawFragment ∧ u.rawFragment ≠ [] ∧
      validEncoded u.rawFragment .fragment = true ∧
      unescape .fragment u.rawFragment = .ok u.fragment) ∨
      u.escapedFragment = escape u.fragment .fragment := by
    unfold URL.escapedFragment
    split_ifs with h1
    · exact .inl ⟨rfl, h1⟩
    · exact .inr rfl
  have hun : unescape .fragment u.escapedFragment = .ok u.fragment := by
    rcases hcases with ⟨h, -, -, hu⟩ | h
    · rw [h, hu]
    · rw [h, unescape_escape (m := .fragment) fun _ _ => trivial]
  refine ⟨if escape u.fragment .fragment = u.escapedFragment then [] else u.escapedFragment, ?_, ?_⟩
  · simp [setFragment, hun, bind, Except.bind, pure, Except.pure, Except.mapError]
  split_ifs with he
  · exact he
  · have hne : u.escapedFragment ≠ [] := by
      intro h0
      rw [h0] at hun he
      rw [← Except.ok.inj hun] at he
      exact he rfl
    have hvalid : validEncoded u.escapedFragment .fragment = true := by
      rcases hcases with ⟨h, -, hv, -⟩ | h
      · rwa [h]
      · exact absurd h.symm he
    show (if u.escapedFragment ≠ [] ∧ validEncoded u.escapedFragment .fragment = true ∧
        unescape .fragment u.escapedFragment = .ok u.fragment then u.escapedFragment else _) = _
    rw [if_pos ⟨hne, hvalid, hun⟩]

/-- `getScheme` reads a scheme back from `scheme:`. -/
theorem getSchemeLoop_scheme (raw : Bytes) :
    ∀ {s acc : Bytes}, acc ≠ [] → (∀ d ∈ s, isSchemeByte d = true) → ∀ rest,
      getSchemeLoop raw acc (s ++ ':'.toUInt8 :: rest) = .ok (acc ++ s, rest)
  | [], acc, hacc, _, rest => by
      rw [List.nil_append, getSchemeLoop, if_neg (by decide), if_neg (by decide), if_pos rfl,
        if_neg hacc, List.append_nil]
  | d :: s, acc, hacc, hs, rest => by
      have hd := hs d (List.mem_cons_self _ _)
      have ih := @getSchemeLoop_scheme raw s (acc ++ [d]) (by simp)
        (fun e he => hs e (List.mem_cons_of_mem _ he)) rest
      simp only [isSchemeByte, Bool.or_eq_true, decide_eq_true_eq] at hd
      rw [List.cons_append, getSchemeLoop]
      rcases hd with (hd | hd) | hd
      · rw [if_pos hd, ih, List.append_assoc, List.singleton_append]
      · by_cases hl : isLetter d = true
        · rw [if_pos hl, ih, List.append_assoc, List.singleton_append]
        · rw [if_neg hl, if_pos (.inl (by simpa [Bool.and_eq_true, decide_eq_true_eq] using hd)),
            if_neg hacc, ih, List.append_assoc, List.singleton_append]
      · by_cases hl : isLetter d = true
        · rw [if_pos hl, ih, List.append_assoc, List.singleton_append]
        · rw [if_neg hl, if_pos (.inr hd), if_neg hacc, ih, List.append_assoc,
            List.singleton_append]

theorem getScheme_scheme {scheme : Bytes} (h : SchemeShape scheme) (rest : Bytes) :
    getScheme (scheme ++ ':'.toUInt8 :: rest) = .ok (scheme, rest) := by
  match scheme, h with
  | c :: s, ⟨hc, hs⟩ =>
      show getSchemeLoop _ [] (c :: (s ++ ':'.toUInt8 :: rest)) = _
      rw [getSchemeLoop, if_pos hc, getSchemeLoop_scheme _ (by simp) hs]
      rfl

/-- With no `:` before the first `/` or `?`, `getScheme` finds no scheme. -/
theorem getSchemeLoop_none (raw : Bytes) :
    ∀ {s : Bytes} (acc : Bytes),
      ':'.toUInt8 ∉ (Strings.cut '/'.toUInt8 (Strings.cut '?'.toUInt8 s).1).1 →
      getSchemeLoop raw acc s = .ok ([], raw)
  | [], _, _ => rfl
  | c :: s, acc, h => by
      unfold getSchemeLoop
      have hrec : (c ≠ '/'.toUInt8 ∧ c ≠ '?'.toUInt8) →
          ∀ acc', getSchemeLoop raw acc' s = .ok ([], raw) := by
        rintro ⟨h1, h2⟩ acc'
        refine getSchemeLoop_none raw acc' fun hm => h ?_
        simp [Strings.cut, h1, h2, hm]
      have hcolon : ∀ t, ':'.toUInt8 ∈
          (Strings.cut '/'.toUInt8 (Strings.cut '?'.toUInt8 (':'.toUInt8 :: t)).1).1 := fun t => by
        simp only [Strings.cut, if_neg (show ':'.toUInt8 ≠ '?'.toUInt8 by decide),
          if_neg (show ':'.toUInt8 ≠ '/'.toUInt8 by decide)]
        exact List.mem_cons_self _ _
      split_ifs with hl hd hacc hcol
      · exact hrec (by constructor <;> (rintro rfl; revert hl; decide)) _
      · rfl
      · refine hrec ⟨?_, ?_⟩ _ <;> (rintro rfl; revert hd; decide)
      · exact absurd (hcolon s) (hcol ▸ h)
      · exact absurd (hcolon s) (hcol ▸ h)
      · rfl

theorem getScheme_none {s : Bytes}
    (h : ':'.toUInt8 ∉ (Strings.cut '/'.toUInt8 (Strings.cut '?'.toUInt8 s).1).1) :
    getScheme s = .ok ([], s) :=
  getSchemeLoop_none s [] h

/-- The query part `String` writes. -/
def queryPart (forceQuery : Bool) (rawQuery : Bytes) : Bytes :=
  if forceQuery = true ∨ rawQuery ≠ [] then '?'.toUInt8 :: rawQuery else []

/-- The query split of `parse` reads back the query `String` writes. -/
theorem splitQuery_print {body rq : Bytes} {fq : Bool} (hb : '?'.toUInt8 ∉ body)
    (hf : fq = true → rq = []) : splitQuery (body ++ queryPart fq rq) = (body, fq, rq) := by
  by_cases hrq : rq = []
  · subst hrq
    cases fq
    · have hl : body.getLast? ≠ some '?'.toUInt8 := fun h => hb (List.mem_of_getLast?_eq_some h)
      simp [queryPart, splitQuery, hl, Strings.cut_of_not_mem hb]
    · simp [queryPart, splitQuery, List.count_eq_zero_of_not_mem hb]
  · have hfq : fq = false := by
      cases fq
      · rfl
      · exact absurd (hf rfl) hrq
    subst hfq
    rw [queryPart, if_pos (Or.inr hrq), splitQuery, if_neg, Strings.cut_append hb]
    rintro ⟨hl, hc⟩
    obtain ⟨x, hx⟩ : ∃ x, rq.getLast? = some x := ⟨_, List.getLast?_eq_getLast rq hrq⟩
    rw [List.getLast?_append, List.getLast?_cons, hx] at hl
    rw [Option.getD_some, show (some x).or body.getLast? = some x from rfl] at hl
    have := List.count_pos_iff.2 (Option.some.inj hl ▸ List.mem_of_getLast?_eq_some hx)
    simp [List.count_append, List.count_cons] at hc
    omega

/-- What `parseRef` does once the control-byte check and `*` are passed, the scheme is read and
the query is split off. -/
theorem parseRef_of_split {raw scheme rest body rawQuery : Bytes} {forceQuery : Bool}
    (hctl : containsCTLByte raw = false) (hstar : raw ≠ ascii "*")
    (hg : getScheme raw = .ok (scheme, rest))
    (hq : splitQuery rest = (body, forceQuery, rawQuery)) :
    parseRef raw =
      if (!(ascii "/").isPrefixOf body) = true ∧ toLower scheme ≠ [] then
        .ok { scheme := toLower scheme, opaqueData := body, forceQuery, rawQuery }
      else if (!(ascii "/").isPrefixOf body) = true ∧
          ':'.toUInt8 ∈ (Strings.cut '/'.toUInt8 body).1 then .error .colonInFirstSegment
      else (do
        let (user, host, omitHost, rest) ← parseAuthorityPart (toLower scheme) body
        let (path, rawPath) ← setPath rest
        pure { scheme := toLower scheme, user, host, omitHost, path, rawPath, forceQuery,
               rawQuery }) := by
  unfold parseRef
  rw [if_neg (by simp [hctl]), if_neg hstar, hg]
  simp only [bind, Except.bind, hq]
  rfl

/-! ## The three shapes `String` writes -/

/-- The scheme part `String` writes. -/
def schemePart (scheme : Bytes) : Bytes := if scheme ≠ [] then scheme ++ [':'.toUInt8] else []

/-- The fragment part `String` writes. -/
def fragmentPart (u : URL) : Bytes :=
  if u.fragment ≠ [] then '#'.toUInt8 :: u.escapedFragment else []

/-- A URL with an opaque part, or with a scheme and nothing else before the query, is written
`scheme:opaque`. -/
theorem string_opaque {u : URL} (hs : u.scheme ≠ [])
    (hb : u.opaqueData ≠ [] ∨
      (u.opaqueData = [] ∧ u.host = [] ∧ u.user = none ∧ u.path = [] ∧ u.escapedPath = [] ∧
        u.omitHost = false)) :
    u.string = schemePart u.scheme ++ u.opaqueData ++ queryPart u.forceQuery u.rawQuery ++
      fragmentPart u := by
  rcases hb with h | ⟨h1, h2, h3, h4, h5, h6⟩
  · simp [URL.string, schemePart, queryPart, fragmentPart, hs, h]
  · simp [URL.string, URL.authorityString, schemePart, queryPart, fragmentPart, hs, h1, h2, h3, h4,
      h5, h6]

/-- A URL with an authority is written `scheme://userinfo@host` then the escaped path. -/
theorem string_authority {u : URL} (hop : u.opaqueData = []) (homit : u.omitHost = false)
    (hsome : u.scheme ≠ [] ∨ u.host ≠ [] ∨ u.user.isSome)
    (hne : u.host ≠ [] ∨ u.path ≠ [] ∨ u.user.isSome)
    (hslash : u.escapedPath = [] ∨ u.escapedPath.head? = some '/'.toUInt8) :
    u.string = schemePart u.scheme ++ (ascii "//" ++ (userPart u.user ++ escape u.host .host ++
      u.escapedPath)) ++ queryPart u.forceQuery u.rawQuery ++ fragmentPart u := by
  have hext : ¬ (u.escapedPath ≠ [] ∧ u.escapedPath.head? ≠ some '/'.toUInt8 ∧ u.host ≠ []) := by
    rintro ⟨h1, h2, -⟩
    rcases hslash with h | h
    · exact h1 h
    · exact h2 h
  have hauth : u.authorityString = ascii "//" ++ (userPart u.user ++ escape u.host .host) := by
    simp only [URL.authorityString, if_pos hsome, homit, Bool.false_eq_true, false_and, if_false,
      if_pos hne]
    cases u.user <;> by_cases hh : u.host = [] <;> simp [userPart, hh]
  simp only [URL.string, hop, ne_eq, not_true_eq_false, if_false, hext, hauth, schemePart,
    queryPart, fragmentPart, List.append_nil]
  simp [ascii]

/-- A URL with no authority and no opaque part is written `scheme:` then the escaped path. -/
theorem string_path {u : URL} (hop : u.opaqueData = []) (hh : u.host = []) (hu : u.user = none)
    (hcase : u.scheme = [] ∨ u.omitHost = true)
    (hdot : u.scheme = [] → ':'.toUInt8 ∉ (Strings.cut '/'.toUInt8 u.escapedPath).1) :
    u.string = schemePart u.scheme ++ u.escapedPath ++ queryPart u.forceQuery u.rawQuery ++
      fragmentPart u := by
  have hauth : u.authorityString = [] := by
    rcases hcase with h | h <;> simp [URL.authorityString, h, hh, hu]
  by_cases hs : u.scheme = []
  · simp [URL.string, hop, hauth, hh, hs, hdot hs, schemePart, queryPart, fragmentPart]
  · simp [URL.string, hop, hauth, hh, hs, schemePart, queryPart, fragmentPart]

/-! ## Reading the three shapes back -/

/-- The URLs whose printed form `parse` reads back. Each field rules out one way the text
`String` writes stands for another URL; the last keeps the zone of a host unescapable. -/
structure Reparses (u : URL) : Prop where
  /-- A path-only reference whose first segment holds `:` is written after `./`. -/
  first_segment : u.scheme = [] → u.host = [] → u.user = none →
    ':'.toUInt8 ∉ (Strings.cut '/'.toUInt8 u.escapedPath).1
  /-- A path-only reference that starts with exactly `//` would be read as an authority. -/
  no_authority : u.scheme = [] → u.host = [] → u.user = none →
    (ascii "//").isPrefixOf u.escapedPath = true → (ascii "///").isPrefixOf u.escapedPath = true
  /-- Likewise the path of a URL with `OmitHost`, after its scheme. -/
  omitted_host : u.omitHost = true → (ascii "//").isPrefixOf u.escapedPath = false
  zone : ZoneAscii u.host

theorem plain_append {a b : Bytes} : Plain (a ++ b) ↔ Plain a ∧ Plain b := by
  simp only [Plain, List.mem_append, not_or, containsCTLByte_append, Bool.or_eq_false_iff]
  tauto

/-- Printable bytes other than `#` and `"` are plain. -/
theorem plain_of_bounds {s : Bytes} (h : ∀ c ∈ s, 36 ≤ c.toNat ∧ c.toNat < 127) : Plain s := by
  refine ⟨fun hm => ?_, containsCTLByte_eq_false.2 fun c hc => ?_⟩
  · have := h _ hm
    simp only [toNat_toUInt8, Char.reduceToNat, Nat.reduceMod] at this
    omega
  · have := h c hc
    omega

theorem isSchemeByte_bounds {c : UInt8} (h : isSchemeByte c = true) :
    43 ≤ c.toNat ∧ c.toNat ≤ 122 := by
  simp only [isSchemeByte, Bool.or_eq_true, isLetter_iff, isOneOf_iff, Bool.and_eq_true,
    decide_eq_true_eq, le_iff, toNat_toUInt8, Char.reduceToNat, Nat.reduceMod] at h
  rcases h with (h | h) | ⟨x, hx, rfl⟩
  · omega
  · omega
  · simp only [List.mem_cons, List.mem_singleton, List.not_mem_nil, or_false] at hx
    rcases hx with rfl | rfl | rfl <;> decide

theorem SchemeShape.all {s : Bytes} (h : SchemeShape s) : ∀ c ∈ s, isSchemeByte c = true := by
  match s, h with
  | _ :: _, ⟨hc, ht⟩ => exact List.forall_mem_cons.2 ⟨isSchemeByte_of_isLetter hc, ht⟩

theorem SchemeOk.plain {s : Bytes} (h : SchemeOk s) : Plain (schemePart s) := by
  unfold schemePart
  split_ifs with hs
  · refine plain_of_bounds fun c hc => ?_
    rcases List.mem_append.1 hc with hc | hc
    · have := isSchemeByte_bounds ((h.resolve_left hs).1.all c hc)
      omega
    · rw [List.mem_singleton.1 hc]
      decide
  · exact ⟨List.not_mem_nil _, rfl⟩

theorem SchemeOk.toLower_eq {s : Bytes} (h : SchemeOk s) : toLower s = s := by
  rcases h with rfl | ⟨-, h⟩
  · rfl
  · exact h

theorem Plain.queryPart {rq : Bytes} (h : Plain rq) (fq : Bool) : Plain (queryPart fq rq) := by
  unfold Url.queryPart
  split_ifs
  · exact plain_append.2 (And.intro (a := Plain ['?'.toUInt8]) ⟨by decide, rfl⟩ h)
  · exact ⟨List.not_mem_nil _, rfl⟩

/-- What `String` writes before the fragment is plain. -/
theorem plain_print {s body rq : Bytes} (hs : SchemeOk s) (hb : Plain body) (hrq : Plain rq)
    (fq : Bool) : Plain (schemePart s ++ body ++ queryPart fq rq) :=
  plain_append.2 ⟨plain_append.2 ⟨hs.plain, hb⟩, hrq.queryPart fq⟩

theorem Plain.escapedPath (u : URL) : Plain u.escapedPath :=
  ⟨(escapedPath_text u).2.1, (escapedPath_text u).2.2⟩

theorem plain_userPart (user : Option Userinfo) : Plain (userPart user) := by
  cases user with
  | none => exact ⟨List.not_mem_nil _, rfl⟩
  | some ui =>
      obtain ⟨-, -, hh, -, hc⟩ := ui.string_text
      exact plain_append.2 ⟨⟨hh, hc⟩, ⟨by decide, rfl⟩⟩

theorem plain_escape_host (host : Bytes) : Plain (escape host .host) :=
  ⟨not_mem_escape_of (literal_of _ (by decide)) (by decide) _, containsCTLByte_escape _ _⟩

theorem RawSpelling.nil {m : Encoding} {s raw : Bytes} (h : RawSpelling m s raw) (hs : s = []) :
    raw = [] := by
  rcases h with h | ⟨-, h⟩
  · exact h
  · rw [hs] at h
    exact unescape_eq_nil h

theorem ne_star_of_length {s : Bytes} (h : 2 ≤ s.length) : s ≠ ascii "*" := by
  rintro rfl
  exact absurd h (by decide)

/-- `getScheme` reads back the scheme `String` writes, and leaves the rest. -/
theorem getScheme_print {s body rq : Bytes} {fq : Bool} (hs : SchemeOk s)
    (hb : '?'.toUInt8 ∉ body) (hcol : s = [] → ':'.toUInt8 ∉ (Strings.cut '/'.toUInt8 body).1) :
    getScheme (schemePart s ++ (body ++ queryPart fq rq)) = .ok (s, body ++ queryPart fq rq) := by
  rcases hs with rfl | ⟨hs, -⟩
  · rw [show schemePart [] = [] from rfl, List.nil_append]
    refine getScheme_none ?_
    have hcut : (Strings.cut '?'.toUInt8 (body ++ queryPart fq rq)).1 = body := by
      unfold queryPart
      split_ifs
      · rw [Strings.cut_append hb]
      · rw [List.append_nil, Strings.cut_of_not_mem hb]
    rw [hcut]
    exact hcol rfl
  · have hne : s ≠ [] := by
      rintro rfl
      exact hs
    rw [schemePart, if_pos hne, List.append_assoc, List.singleton_append]
    exact getScheme_scheme hs _

/-- `parseRef` reads back a URL `String` writes as `scheme:opaque`. -/
theorem parseRef_print_opaque {u : URL} (hu : Parsed u) (hs : u.scheme ≠ [])
    (hb : u.opaqueData ≠ [] ∨
      (u.opaqueData = [] ∧ u.host = [] ∧ u.user = none ∧ u.path = [] ∧ u.omitHost = false)) :
    parseRef (schemePart u.scheme ++ u.opaqueData ++ queryPart u.forceQuery u.rawQuery) =
      .ok { u with fragment := [], rawFragment := [] } := by
  obtain ⟨hpre, hq, huser, hhost, hpath, homit⟩ :
      (ascii "/").isPrefixOf u.opaqueData = false ∧ '?'.toUInt8 ∉ u.opaqueData ∧
        u.user = none ∧ u.host = [] ∧ u.path = [] ∧ u.omitHost = false := by
    rcases hb with hb | ⟨h0, h1, h2, h3, h4⟩
    · exact (hu.opaqueData_ok hb).2
    · rw [h0]
      exact ⟨rfl, List.not_mem_nil _, h2, h1, h3, h4⟩
  have hraw := hu.path.nil hpath
  have hplain := plain_print hu.scheme hu.opaqueData_plain hu.query u.forceQuery
  rw [List.append_assoc] at hplain ⊢
  rw [parseRef_of_split hplain.2 (ne_star_of_length ?_)
      (getScheme_print hu.scheme hq (absurd · hs)) (splitQuery_print hq hu.forced),
    hu.scheme.toLower_eq, if_pos ⟨by simp [hpre], hs⟩]
  · cases u
    simp only at huser hhost hpath homit hraw
    subst huser hhost hpath homit hraw
    rfl
  · obtain ⟨c, t, h⟩ := List.exists_cons_of_ne_nil hs
    rw [schemePart, if_pos hs, h]
    simp only [List.length_append, List.length_cons]
    omega

theorem isPrefixOf_append_self (a s : Bytes) : a.isPrefixOf (a ++ s) = true :=
  List.isPrefixOf_iff_prefix.2 (List.prefix_append a s)

theorem escape_ne_nil {s : Bytes} (h : s ≠ []) (m : Encoding) : escape s m ≠ [] := by
  obtain ⟨c, t, rfl⟩ := List.exists_cons_of_ne_nil h
  rw [escape_cons]
  unfold escapeByte
  split_ifs <;> simp

theorem plain_slashes : Plain (ascii "//") := ⟨by decide, by decide⟩

/-- `parseAuthorityPart` reads back the authority `String` writes after `//`, and the path
after it. -/
theorem parseAuthorityPart_print {s A P : Bytes} {user : Option Userinfo} {host : Bytes}
    (hA : '/'.toUInt8 ∉ A) (hne : s ≠ [] ∨ A ≠ []) (hP : P = [] ∨ P.head? = some '/'.toUInt8)
    (ha : parseAuthority A = .ok (user, host)) :
    parseAuthorityPart s (ascii "//" ++ (A ++ P)) = .ok (user, host, false, P) := by
  have h3 : (s ≠ [] ∨ (!(ascii "///").isPrefixOf (ascii "//" ++ (A ++ P))) = true) := by
    refine hne.imp_right fun hA0 => ?_
    obtain ⟨c, A', rfl⟩ := List.exists_cons_of_ne_nil hA0
    have hc : c ≠ '/'.toUInt8 := fun h => hA (h ▸ List.mem_cons_self _ _)
    simp [ascii, List.isPrefixOf, Ne.symm hc]
  unfold parseAuthorityPart
  rw [if_pos ⟨h3, isPrefixOf_append_self _ _⟩,
    show (ascii "//" ++ (A ++ P)).drop 2 = A ++ P from rfl]
  rcases hP with rfl | hP
  · simp only [List.append_nil, Strings.cut_of_not_mem hA, Bool.false_eq_true, ↓reduceIte, ha,
      bind, Except.bind, pure, Except.pure]
  · obtain ⟨P', rfl⟩ : ∃ P', P = '/'.toUInt8 :: P' := by
      cases P with
      | nil => cases hP
      | cons c P' => cases hP; exact ⟨P', rfl⟩
    simp only [Strings.cut_append hA, ↓reduceIte, ha, bind, Except.bind, pure, Except.pure]

/-- The printed user and host hold no `/` and no `?`. -/
theorem slash_question_not_mem_userHost (user : Option Userinfo) (host : Bytes) :
    '/'.toUInt8 ∉ userPart user ++ escape host .host ∧
      '?'.toUInt8 ∉ userPart user ++ escape host .host := by
  have hesc : ∀ x, Literal x → shouldEscape x .host = true → x ≠ '@'.toUInt8 →
      (∀ ui : Userinfo, x ∉ ui.string) → x ∉ userPart user ++ escape host .host := by
    intro x hx he hat hui hm
    rcases List.mem_append.1 hm with hm | hm
    · cases user with
      | none => simp [userPart] at hm
      | some ui =>
          rw [userPart] at hm
          rcases List.mem_append.1 hm with hm | hm
          · exact hui ui hm
          · exact hat (List.mem_singleton.1 hm)
    · exact not_mem_escape_of hx he _ hm
  exact ⟨hesc _ (literal_of _ (by decide)) (by decide) (by decide) fun ui => ui.string_text.1,
    hesc _ (literal_of _ (by decide)) (by decide) (by decide) fun ui => ui.string_text.2.1⟩

/-- `parseRef` reads back a URL `String` writes with an authority. -/
theorem parseRef_print_authority {u : URL} (hu : Parsed u) (hz : ZoneAscii u.host)
    (hop : u.opaqueData = []) (homit : u.omitHost = false)
    (hsome : u.scheme ≠ [] ∨ u.host ≠ [] ∨ u.user.isSome) :
    ∃ r, parseRef (schemePart u.scheme ++ (ascii "//" ++ (userPart u.user ++ escape u.host .host ++
        u.escapedPath)) ++ queryPart u.forceQuery u.rawQuery) =
      .ok { u with rawPath := r, fragment := [], rawFragment := [] } ∧
      ({ u with rawPath := r } : URL).escapedPath = u.escapedPath := by
  obtain ⟨r, hsp, hr⟩ := setPath_escapedPath hu.path
  refine ⟨r, ?_, hr⟩
  have hAplain := plain_append.2 ⟨plain_userPart u.user, plain_escape_host u.host⟩
  have hA := slash_question_not_mem_userHost u.user u.host
  have hAne : u.scheme ≠ [] ∨ userPart u.user ++ escape u.host .host ≠ [] := by
    refine hsome.imp_right fun h => ?_
    rcases h with h | h
    · exact fun h0 => escape_ne_nil h _ (List.append_eq_nil.1 h0).2
    · cases hu' : u.user with
      | none => simp [hu'] at h
      | some ui => simp [userPart]
  have hq :
      '?'.toUInt8 ∉ ascii "//" ++ (userPart u.user ++ escape u.host .host ++ u.escapedPath) := by
    intro hm
    rcases List.mem_append.1 hm with hm | hm
    · exact absurd hm (by decide)
    rcases List.mem_append.1 hm with hm | hm
    · exact hA.2 hm
    · exact (escapedPath_text u).1 hm
  have hplain := plain_print hu.scheme
    (plain_append.2 ⟨plain_slashes, plain_append.2 ⟨hAplain, Plain.escapedPath u⟩⟩) hu.query
    u.forceQuery
  have hslash : (ascii "/").isPrefixOf (ascii "//" ++ (userPart u.user ++ escape u.host .host ++
      u.escapedPath)) = true := (isPrefixOf_slash _).2 rfl
  rw [List.append_assoc] at hplain ⊢
  have hnot : ¬ (!(ascii "/").isPrefixOf (ascii "//" ++ (userPart u.user ++ escape u.host .host ++
      u.escapedPath))) = true := by
    rw [hslash]
    decide
  rw [parseRef_of_split hplain.2 (ne_star_of_length (by simp [ascii]; omega))
      (getScheme_print hu.scheme hq fun _ => by simp [ascii, Strings.cut])
      (splitQuery_print hq hu.forced),
    hu.scheme.toLower_eq, if_neg (hnot ·.1), if_neg (hnot ·.1),
    parseAuthorityPart_print hA.1 hAne (hu.slash hsome) (parseAuthority_print hu.user hu.host hz)]
  simp only [bind, Except.bind, hsp, pure, Except.pure]
  cases u
  simp only at hop homit
  subst hop homit
  rfl

/-- `parseAuthorityPart` finds no authority before a path `String` writes with none. -/
theorem parseAuthorityPart_path {u : URL} (hu : Parsed u) (hr : Reparses u) (hh : u.host = [])
    (huser : u.user = none) (hcase : u.scheme = [] ∨ u.omitHost = true) :
    parseAuthorityPart u.scheme u.escapedPath = .ok (none, [], u.omitHost, u.escapedPath) := by
  unfold parseAuthorityPart
  rcases hcase with hs | ho
  · have homit : u.omitHost = false := by
      cases h : u.omitHost
      · rfl
      · exact absurd hs (hu.omitHost_ok h).1
    have hno : ¬((u.scheme ≠ [] ∨ (!(ascii "///").isPrefixOf u.escapedPath) = true) ∧
        (ascii "//").isPrefixOf u.escapedPath = true) := by
      rintro ⟨h1 | h1, h2⟩
      · exact h1 hs
      · rw [hr.no_authority hs hh huser h2] at h1
        exact absurd h1 (by decide)
    rw [if_neg hno, if_neg (absurd hs ·.1), homit]
  · obtain ⟨hs, -, -, hp⟩ := hu.omitHost_ok ho
    have hno : ¬((u.scheme ≠ [] ∨ (!(ascii "///").isPrefixOf u.escapedPath) = true) ∧
        (ascii "//").isPrefixOf u.escapedPath = true) := by
      rintro ⟨-, h2⟩
      rw [hr.omitted_host ho] at h2
      exact absurd h2 (by decide)
    rw [if_neg hno, if_pos ⟨hs, (isPrefixOf_slash _).2 hp⟩, ho]

/-- The only text `String` writes that is `*` is the path `*` alone. -/
theorem append_queryPart_eq_star {P rq : Bytes} {fq : Bool} (h : P ++ queryPart fq rq = ascii "*") :
    P = ascii "*" ∧ fq = false ∧ rq = [] := by
  unfold queryPart at h
  split_ifs at h with hq
  · cases P with
    | nil => exact absurd (List.cons.inj h).1 (by decide)
    | cons c P' => simp [ascii] at h
  · simp only [not_or, Bool.not_eq_true, ne_eq, not_not] at hq
    exact ⟨by simpa using h, hq⟩

/-- `parseRef` reads back a URL `String` writes with no authority and no opaque part. -/
theorem parseRef_print_path {u : URL} (hu : Parsed u) (hr : Reparses u) (hop : u.opaqueData = [])
    (hh : u.host = []) (huser : u.user = none) (hcase : u.scheme = [] ∨ u.omitHost = true) :
    ∃ r, parseRef (schemePart u.scheme ++ u.escapedPath ++ queryPart u.forceQuery u.rawQuery) =
      .ok { u with rawPath := r, fragment := [], rawFragment := [] } ∧
      ({ u with rawPath := r } : URL).escapedPath = u.escapedPath := by
  have hplain := plain_print hu.scheme (Plain.escapedPath u) hu.query u.forceQuery
  rw [List.append_assoc] at hplain ⊢
  have hq := (escapedPath_text u).1
  have hslash : u.scheme ≠ [] → (ascii "/").isPrefixOf u.escapedPath = true := fun hs =>
    (isPrefixOf_slash _).2 (hu.omitHost_ok (hcase.resolve_left hs)).2.2.2
  have hcol : u.scheme = [] → ':'.toUInt8 ∉ (Strings.cut '/'.toUInt8 u.escapedPath).1 :=
    fun hs => hr.first_segment hs hh huser
  have homit : u.scheme = [] → u.omitHost = false := fun hs => by
    cases h : u.omitHost
    · rfl
    · exact absurd hs (hu.omitHost_ok h).1
  by_cases hstar : schemePart u.scheme ++ (u.escapedPath ++ queryPart u.forceQuery u.rawQuery) =
      ascii "*"
  · -- the text `*` alone is read as the path `*`
    have hs : u.scheme = [] := by
      by_contra hs
      have := congrArg List.length hstar
      rw [schemePart, if_pos hs] at this
      simp only [List.length_append, List.length_singleton] at this
      exact hs (List.length_eq_zero.1 (by simp [ascii] at this; omega))
    rw [hs, show schemePart [] = [] from rfl, List.nil_append] at hstar
    obtain ⟨hP, hfq, hrq⟩ := append_queryPart_eq_star hstar
    have hpath : u.path = ascii "*" := by
      have := unescape_escapedPath u
      rw [hP, show unescape .path (ascii "*") = .ok (ascii "*") from rfl] at this
      exact (Except.ok.inj this).symm
    refine ⟨[], ?_, ?_⟩
    · rw [hs, show schemePart [] = [] from rfl, List.nil_append, hstar, parseRef,
        if_neg (by decide), if_pos rfl]
      have ho := homit hs
      cases u
      simp only at hs hop hh huser hpath ho hfq hrq
      subst hs hop hh huser hpath ho hfq hrq
      rfl
    · rw [hP]
      simp [URL.escapedPath, hpath]
  · obtain ⟨r, hsp, hr'⟩ := setPath_escapedPath hu.path
    refine ⟨r, ?_, hr'⟩
    rw [parseRef_of_split hplain.2 hstar (getScheme_print hu.scheme hq hcol)
        (splitQuery_print hq hu.forced), hu.scheme.toLower_eq,
      if_neg fun ⟨h1, h2⟩ => by rw [hslash h2] at h1; exact absurd h1 (by decide),
      if_neg fun ⟨h1, h2⟩ => by
        by_cases hs : u.scheme = []
        · exact hcol hs h2
        · rw [hslash hs] at h1
          exact absurd h1 (by decide),
      parseAuthorityPart_path hu hr hh huser hcase]
    simp only [bind, Except.bind, hsp, pure, Except.pure]
    cases u
    simp only at hop hh huser
    subst hop hh huser
    rfl

/-- `parse` reads back the fragment `String` writes after text that `parseRef` reads as `u`
without one. -/
theorem parse_fragmentPart {pre r : Bytes} {u : URL} (hp : '#'.toUInt8 ∉ pre)
    (hw : RawSpelling .fragment u.fragment u.rawFragment)
    (hv : parseRef pre = .ok { u with rawPath := r, fragment := [], rawFragment := [] }) :
    ∃ f, parse (pre ++ fragmentPart u) = .ok { u with rawPath := r, rawFragment := f } ∧
      ({ u with rawFragment := f } : URL).escapedFragment = u.escapedFragment := by
  unfold parse fragmentPart
  by_cases hf : u.fragment = []
  · refine ⟨u.rawFragment, ?_, rfl⟩
    have hraw := hw.nil hf
    rw [if_neg (not_not.2 hf), List.append_nil, Strings.cut_of_not_mem hp]
    simp only [hv, bind, Except.bind, ↓reduceIte, pure, Except.pure]
    cases u
    simp only at hf hraw
    subst hf hraw
    rfl
  · obtain ⟨f, hsf, hf'⟩ := setFragment_escapedFragment u
    refine ⟨f, ?_, hf'⟩
    have hne : u.escapedFragment ≠ [] := fun h0 => by
      have h := (setFragment_ok hsf).1
      rw [h0, show unescape .fragment [] = .ok [] from rfl] at h
      exact hf (Except.ok.inj h).symm
    rw [if_pos hf, Strings.cut_append hp]
    simp only [hv, bind, Except.bind, if_neg hne, hsf, pure, Except.pure]

/-- What `String` writes before the fragment is plain text that `parseRef` reads back as `u`,
up to the raw spelling of its path. -/
theorem parseRef_string {u : URL} (hu : Parsed u) (hr : Reparses u) :
    ∃ pre, u.string = pre ++ fragmentPart u ∧ Plain pre ∧ ∃ r,
      parseRef pre = .ok { u with rawPath := r, fragment := [], rawFragment := [] } ∧
      ({ u with rawPath := r } : URL).escapedPath = u.escapedPath := by
  have hquery := hu.query
  by_cases hop : u.opaqueData = []
  · by_cases hpath : (u.scheme = [] ∧ u.host = [] ∧ u.user = none) ∨ u.omitHost = true
    · -- no authority: the path alone after the scheme
      have hh : u.host = [] ∧ u.user = none := by
        rcases hpath with h | h
        · exact h.2
        · exact ⟨(hu.omitHost_ok h).2.1, (hu.omitHost_ok h).2.2.1⟩
      have hcase : u.scheme = [] ∨ u.omitHost = true := hpath.imp_left (·.1)
      exact ⟨_, string_path hop hh.1 hh.2 hcase fun hs => hr.first_segment hs hh.1 hh.2,
        plain_print hu.scheme (Plain.escapedPath u) hquery _,
        parseRef_print_path hu hr hop hh.1 hh.2 hcase⟩
    have homit : u.omitHost = false := by simpa using (not_or.1 hpath).2
    have hsome : u.scheme ≠ [] ∨ u.host ≠ [] ∨ u.user.isSome := by
      by_contra hn
      simp only [ne_eq, not_or, not_not] at hn
      exact hpath (.inl ⟨hn.1, hn.2.1, Option.not_isSome_iff_eq_none.1 hn.2.2⟩)
    by_cases hne : u.host ≠ [] ∨ u.path ≠ [] ∨ u.user.isSome
    · -- an authority
      exact ⟨_, string_authority hop homit hsome hne (hu.slash hsome),
        plain_print hu.scheme (plain_append.2 ⟨plain_slashes, plain_append.2
          ⟨plain_append.2 ⟨plain_userPart u.user, plain_escape_host u.host⟩, Plain.escapedPath u⟩⟩)
          hquery _,
        parseRef_print_authority hu hr.zone hop homit hsome⟩
    · -- a scheme alone
      simp only [ne_eq, not_or, not_not] at hne
      obtain ⟨hh, hp, huser⟩ := hne
      rw [Option.not_isSome_iff_eq_none] at huser
      have hs : u.scheme ≠ [] := by simpa [hh, huser] using hsome
      have hb : u.opaqueData = [] ∧ u.host = [] ∧ u.user = none ∧ u.path = [] ∧
          u.omitHost = false := ⟨hop, hh, huser, hp, homit⟩
      exact ⟨_, string_opaque hs (.inr ⟨hop, hh, huser, hp, escapedPath_nil hu.path hp, homit⟩),
        plain_print hu.scheme hu.opaqueData_plain hquery _, u.rawPath,
        parseRef_print_opaque hu hs (.inr hb), rfl⟩
  · -- an opaque part
    have hs := (hu.opaqueData_ok hop).1
    exact ⟨_, string_opaque hs (.inl hop), plain_print hu.scheme hu.opaqueData_plain hquery _,
      u.rawPath, parseRef_print_opaque hu hs (.inl hop), rfl⟩

/-- **`parse` reads back what `String` writes**, for a parsed URL in the domain `Reparses`: the
same URL, up to the raw spellings of its path and fragment, which come back with the same
`EscapedPath` and `EscapedFragment`. -/
theorem parse_string {u : URL} (hu : Parsed u) (hr : Reparses u) :
    ∃ r f, parse u.string = .ok { u with rawPath := r, rawFragment := f } ∧
      ({ u with rawPath := r } : URL).escapedPath = u.escapedPath ∧
      ({ u with rawFragment := f } : URL).escapedFragment = u.escapedFragment := by
  obtain ⟨pre, hstr, hpl, r, hpre, hpath⟩ := parseRef_string hu hr
  obtain ⟨f, hf, hfrag⟩ := parse_fragmentPart hpl.1 hu.fragment hpre
  exact ⟨r, f, hstr ▸ hf, hpath, hfrag⟩

/-- Raw spellings with the same escaped text print the same. -/
theorem string_raw {u : URL} {r f : Bytes}
    (hr : ({ u with rawPath := r } : URL).escapedPath = u.escapedPath)
    (hf : ({ u with rawFragment := f } : URL).escapedFragment = u.escapedFragment) :
    ({ u with rawPath := r, rawFragment := f } : URL).string = u.string := by
  have h1 : ({ u with rawPath := r, rawFragment := f } : URL).escapedPath = u.escapedPath := hr
  have h2 : ({ u with rawPath := r, rawFragment := f } : URL).escapedFragment =
    u.escapedFragment := hf
  unfold URL.string URL.authorityString
  rw [h1, h2]

/-! ## Replacing the query -/

theorem Parsed.withQuery {u : URL} (hu : Parsed u) {q : Bytes} (hq : Plain q) :
    Parsed { u with rawQuery := q, forceQuery := false } :=
  { hu with query := hq, forced := nofun }

theorem Reparses.withQuery {u : URL} (hr : Reparses u) (q : Bytes) (fq : Bool) :
    Reparses { u with rawQuery := q, forceQuery := fq } :=
  ⟨hr.first_segment, hr.no_authority, hr.omitted_host, hr.zone⟩

/-- With a query to write, `String` writes the same text whether the query was forced. -/
theorem string_withQuery (u : URL) {q : Bytes} (hq : q ≠ []) :
    ({ u with rawQuery := q } : URL).string =
      ({ u with rawQuery := q, forceQuery := false } : URL).string := by
  simp only [URL.string, ne_eq, hq, not_false_eq_true, or_true, ↓reduceIte]
  rfl

/-- **A parsed URL with its query replaced reads back**, with that query, up to the raw
spellings of its path and fragment. -/
theorem parse_string_withQuery {u : URL} (hu : Parsed u) (hr : Reparses u) {q : Bytes}
    (hq : Plain q) (hne : q ≠ []) :
    ∃ r f, parse ({ u with rawQuery := q } : URL).string =
      .ok { u with rawQuery := q, forceQuery := false, rawPath := r, rawFragment := f } := by
  obtain ⟨r, f, h, -, -⟩ := parse_string (hu.withQuery hq) (hr.withQuery q false)
  exact ⟨r, f, string_withQuery u hne ▸ h⟩

/-! ## What `Encode` writes -/

theorem plain_iff {s : Bytes} :
    Plain s ↔ ∀ c ∈ s, c ≠ '#'.toUInt8 ∧ ¬(c.toNat < 0x20 ∨ c.toNat = 0x7f) :=
  ⟨fun h c hc => ⟨fun he => h.1 (he ▸ hc), containsCTLByte_eq_false.1 h.2 c hc⟩,
    fun h => ⟨fun hm => (h _ hm).1 rfl, containsCTLByte_eq_false.2 fun c hc => (h c hc).2⟩⟩

theorem mem_of_mem_intersperse {α : Type} {sep x : α} :
    ∀ {l : List α}, x ∈ l.intersperse sep → x = sep ∨ x ∈ l
  | [], h => by simp at h
  | [_], h => .inr h
  | y :: z :: l, h => by
      rw [List.intersperse_cons₂] at h
      rcases List.mem_cons.1 h with rfl | h
      · exact .inr (List.mem_cons_self _ _)
      rcases List.mem_cons.1 h with rfl | h
      · exact .inl rfl
      rcases mem_of_mem_intersperse h with h | h
      · exact .inl h
      · exact .inr (List.mem_cons_of_mem _ h)

theorem plain_intercalate {sep : Bytes} (hs : Plain sep) {ls : List Bytes}
    (h : ∀ l ∈ ls, Plain l) : Plain (sep.intercalate ls) := by
  refine plain_iff.2 fun c hc => ?_
  obtain ⟨l, hl, hcl⟩ := List.mem_flatten.1 hc
  rcases mem_of_mem_intersperse hl with rfl | hl
  · exact plain_iff.1 hs c hcl
  · exact plain_iff.1 (h l hl) c hcl

theorem plain_queryEscape (s : Bytes) : Plain (queryEscape s) :=
  ⟨not_mem_escape_of (literal_of _ (by decide)) (by decide) _, containsCTLByte_escape _ _⟩

/-- `Encode` writes plain text. -/
theorem plain_encode (v : Values) : Plain v.encode := by
  refine plain_intercalate ⟨by decide, by decide⟩ fun l hl => ?_
  obtain ⟨k, -, hk⟩ := List.mem_flatMap.1 hl
  obtain ⟨x, -, rfl⟩ := List.mem_map.1 hk
  exact plain_append.2 ⟨plain_queryEscape k,
    plain_append.2
      (And.intro (a := Plain ['='.toUInt8]) ⟨by decide, by decide⟩ (plain_queryEscape x))⟩

/-- `Encode` writes something for a map that holds a value. -/
theorem encode_ne_nil {v : Values} (hv : v ≠ []) : v.encode ≠ [] := fun h => by
  obtain ⟨⟨k, x⟩, v', rfl⟩ := List.exists_cons_of_ne_nil hv
  have hk := lookup_parseQuery_encode ((k, x) :: v') k
  rw [h, show parseQuery [] = ([], none) from rfl] at hk
  simp [Values.lookup] at hk

end Url
end Go
end StepOAuth
