import StepOAuth.Go.Bytes

/-!
# Percent-escaping in `net/url`

The escaping core of Go's `net/url` (as of Go 1.21): `shouldEscape`, `escape`, `unescape`,
`validEncoded`, and `QueryEscape`/`QueryUnescape` built on them. Every URL the source builds or
reads goes through these: `Auth` escapes the query it appends, `url.Parse` unescapes each part
it reads, `Exchange` escapes its form body.

`escape` is a map over bytes, so it is written with `flatMap` of `escapeByte`. `unescape` is
written as one left-to-right pass; the source makes a checking pass and then a copying pass,
and the checking pass reports the first bad escape from the left, as this one does.

The main result is `unescape_escape`: escaping and then unescaping in the same encoding gives
the input back, for every input in the path, user-password, query and fragment encodings, and
for the bytes a host or a zone may hold in the host and zone encodings.
-/

namespace StepOAuth
namespace Go
namespace Url

open Byte

/-- `net/url`'s `encoding`: which part of a URL a string is escaped for. -/
inductive Encoding
  | path
  | pathSegment
  | host
  | zone
  | userPassword
  | queryComponent
  | fragment
  deriving DecidableEq, Repr

/-- Letters and digits, which are never escaped. -/
def isAlnum (c : UInt8) : Bool :=
  ('a'.toUInt8 ≤ c && c ≤ 'z'.toUInt8) || ('A'.toUInt8 ≤ c && c ≤ 'Z'.toUInt8) ||
    ('0'.toUInt8 ≤ c && c ≤ '9'.toUInt8)

/-- `shouldEscape(c, mode)`: whether `c` must be written `%XX` in the part `mode`. -/
def shouldEscape (c : UInt8) (mode : Encoding) : Bool :=
  if isAlnum c then false
  else if (mode = .host ∨ mode = .zone) ∧ isOneOf c
      ['!', '$', '&', '\'', '(', ')', '*', '+', ',', ';', '=', ':', '[', ']', '<', '>', '"'] then
    false
  else if isOneOf c ['-', '_', '.', '~'] then false
  else if isOneOf c ['$', '&', '+', ',', '/', ':', ';', '=', '?', '@'] then
    match mode with
    | .path => c = '?'.toUInt8
    | .pathSegment => isOneOf c ['/', ';', ',', '?']
    | .userPassword => isOneOf c ['@', '/', '?', ':']
    | .queryComponent => true
    | .fragment => false
    | .host | .zone => true
  else if mode = .fragment ∧ isOneOf c ['!', '(', ')', '*'] then false
  else true

/-- `ishex(c)`. -/
def ishex (c : UInt8) : Bool :=
  ('0'.toUInt8 ≤ c && c ≤ '9'.toUInt8) || ('a'.toUInt8 ≤ c && c ≤ 'f'.toUInt8) ||
    ('A'.toUInt8 ≤ c && c ≤ 'F'.toUInt8)

/-- `unhex(c)`. -/
def unhex (c : UInt8) : Nat :=
  if '0'.toUInt8 ≤ c ∧ c ≤ '9'.toUInt8 then c.toNat - '0'.toNat
  else if 'a'.toUInt8 ≤ c ∧ c ≤ 'f'.toUInt8 then c.toNat - 'a'.toNat + 10
  else if 'A'.toUInt8 ≤ c ∧ c ≤ 'F'.toUInt8 then c.toNat - 'A'.toNat + 10
  else 0

/-- `upperhex[n]`, with `const upperhex = "0123456789ABCDEF"`. -/
def upperhex (n : Nat) : UInt8 := (ascii "0123456789ABCDEF").getD n 0

/-- What `escape` writes for one byte: `+` for a space in a query component, `%XX` for a byte
`shouldEscape` names, the byte itself otherwise. -/
def escapeByte (mode : Encoding) (c : UInt8) : Bytes :=
  if c = ' '.toUInt8 ∧ mode = .queryComponent then ['+'.toUInt8]
  else if shouldEscape c mode then ['%'.toUInt8, upperhex (c.toNat / 16), upperhex (c.toNat % 16)]
  else [c]

/-- `escape(s, mode)`. -/
def escape (s : Bytes) (mode : Encoding) : Bytes := s.flatMap (escapeByte mode)

/-- `url.EscapeError` and `url.InvalidHostError`, with the bytes they quote. -/
inductive EscapeError
  | escape (s : Bytes)
  | invalidHost (s : Bytes)
  deriving DecidableEq, Repr

/-- `unescape(s, mode)`. -/
def unescape (mode : Encoding) : Bytes → Except EscapeError Bytes
  | [] => .ok []
  | c :: s =>
      if c = '%'.toUInt8 then
        match s with
        | a :: b :: rest =>
            if ishex a ∧ ishex b then
              let v := UInt8.ofNat (unhex a * 16 + unhex b)
              if mode = .host ∧ unhex a < 8 ∧ [c, a, b] ≠ ascii "%25" then
                .error (.escape [c, a, b])
              else if mode = .zone ∧ [c, a, b] ≠ ascii "%25" ∧ v ≠ ' '.toUInt8 ∧
                  shouldEscape v .host then
                .error (.escape [c, a, b])
              else (v :: ·) <$> unescape mode rest
            else .error (.escape [c, a, b])
        | _ => .error (.escape (c :: s))
      else if c = '+'.toUInt8 then
        ((if mode = .queryComponent then ' '.toUInt8 else '+'.toUInt8) :: ·) <$> unescape mode s
      else if (mode = .host ∨ mode = .zone) ∧ c.toNat < 0x80 ∧ shouldEscape c mode then
        .error (.invalidHost [c])
      else (c :: ·) <$> unescape mode s

theorem unescape_percent (mode : Encoding) (a b : UInt8) (rest : Bytes) :
    unescape mode ('%'.toUInt8 :: a :: b :: rest) =
      if ishex a ∧ ishex b then
        let v := UInt8.ofNat (unhex a * 16 + unhex b)
        if mode = .host ∧ unhex a < 8 ∧ ['%'.toUInt8, a, b] ≠ ascii "%25" then
          .error (.escape ['%'.toUInt8, a, b])
        else if mode = .zone ∧ ['%'.toUInt8, a, b] ≠ ascii "%25" ∧ v ≠ ' '.toUInt8 ∧
            shouldEscape v .host then
          .error (.escape ['%'.toUInt8, a, b])
        else (v :: ·) <$> unescape mode rest
      else .error (.escape ['%'.toUInt8, a, b]) := rfl

theorem unescape_cons_of_ne {c : UInt8} (hc : c ≠ '%'.toUInt8) (mode : Encoding) (s : Bytes) :
    unescape mode (c :: s) =
      if c = '+'.toUInt8 then
        ((if mode = .queryComponent then ' '.toUInt8 else '+'.toUInt8) :: ·) <$> unescape mode s
      else if (mode = .host ∨ mode = .zone) ∧ c.toNat < 0x80 ∧ shouldEscape c mode then
        .error (.invalidHost [c])
      else (c :: ·) <$> unescape mode s := by
  rcases s with _ | ⟨a, _ | ⟨b, rest⟩⟩
  · rw [unescape.eq_3 _ _ _ (by simp), if_neg hc]
  · rw [unescape.eq_3 _ _ _ (by simp), if_neg hc]
  · rw [unescape.eq_2, if_neg hc]

/-- `validEncoded(s, mode)`: `s` is already a valid escaping for `mode`. -/
def validEncoded (s : Bytes) (mode : Encoding) : Bool :=
  s.all fun c =>
    isOneOf c ['!', '$', '&', '\'', '(', ')', '*', '+', ',', ';', '=', ':', '@', '[', ']', '%'] ||
      !shouldEscape c mode

/-- `url.QueryEscape(s)`. -/
def queryEscape (s : Bytes) : Bytes := escape s .queryComponent

/-- `url.QueryUnescape(s)`. -/
def queryUnescape (s : Bytes) : Except EscapeError Bytes := unescape .queryComponent s

/-! ## Escaping then unescaping -/

/-- The bytes that come back from `escape` then `unescape` in `mode`: every byte, except that
a host keeps only `%`, non-ASCII bytes and the ASCII bytes it may hold raw, and a zone keeps
only `%`, the space and the ASCII bytes a host may hold raw. -/
def Unescapable (mode : Encoding) (c : UInt8) : Prop :=
  match mode with
  | .host => shouldEscape c .host = false ∨ c = '%'.toUInt8 ∨ 128 ≤ c.toNat
  | .zone => shouldEscape c .host = false ∨ c = '%'.toUInt8 ∨ c = ' '.toUInt8
  | _ => True

theorem upperhex_spec : ∀ n < 16, ishex (upperhex n) = true ∧ unhex (upperhex n) = n := by
  decide

theorem shouldEscape_percent (m : Encoding) : shouldEscape '%'.toUInt8 m = true := by
  cases m <;> decide

theorem shouldEscape_plus_query : shouldEscape '+'.toUInt8 .queryComponent = true := by decide

theorem shouldEscape_zone_eq (c : UInt8) : shouldEscape c .zone = shouldEscape c .host := by
  simp [shouldEscape]

theorem escapeByte_percent_eq (c : UInt8) (h : c = '%'.toUInt8) :
    ['%'.toUInt8, upperhex (c.toNat / 16), upperhex (c.toNat % 16)] = ascii "%25" := by
  subst h; decide

theorem plus_ne_percent : '+'.toUInt8 ≠ '%'.toUInt8 := by decide

theorem hex_join (c : UInt8) : UInt8.ofNat (c.toNat / 16 * 16 + c.toNat % 16) = c := by
  rw [Nat.div_add_mod', ofNat_toNat]

theorem hi_ge_eight {c : UInt8} (h : 128 ≤ c.toNat) : ¬ c.toNat / 16 < 8 := by omega

/-- One escaped byte reads back as that byte. -/
theorem unescape_escapeByte {m : Encoding} {c : UInt8} (hc : Unescapable m c) (rest : Bytes) :
    unescape m (escapeByte m c ++ rest) = (c :: ·) <$> unescape m rest := by
  have hlt := toNat_lt c
  obtain ⟨hhi, hhi'⟩ := upperhex_spec (c.toNat / 16) (by omega)
  obtain ⟨hlo, hlo'⟩ := upperhex_spec (c.toNat % 16) (by omega)
  unfold escapeByte
  split_ifs with hsp hesc
  · -- a space in a query component is written `+`
    obtain ⟨rfl, rfl⟩ := hsp
    simp [unescape_cons_of_ne plus_ne_percent]
  · -- `%XX`
    simp only [List.cons_append, List.nil_append, unescape_percent, if_true, hhi, hlo, and_self,
      hhi', hlo', hex_join]
    cases m with
    | host =>
        rcases hc with h | h | h
        · simp [h] at hesc
        · simp [escapeByte_percent_eq c h]
        · simp [hi_ge_eight h]
    | zone =>
        rcases hc with h | h | h
        · simp [h]
        · simp [escapeByte_percent_eq c h]
        · simp [h]
    | _ => simp
  · -- a byte written as itself
    have hpct : c ≠ '%'.toUInt8 := by rintro rfl; simp [shouldEscape_percent] at hesc
    rw [List.singleton_append, unescape_cons_of_ne hpct]
    split_ifs with hplus hq hhost
    · subst hplus hq; simp [shouldEscape_plus_query] at hesc
    · subst hplus; simp [hq]
    · simp [hesc] at hhost
    · rfl

/-- **Escaping then unescaping gives the input back**, followed by whatever comes after. -/
theorem unescape_escape_append {m : Encoding} {s : Bytes} (h : ∀ c ∈ s, Unescapable m c)
    (rest : Bytes) : unescape m (escape s m ++ rest) = (s ++ ·) <$> unescape m rest := by
  induction s with
  | nil => simp [escape]
  | cons c s ih =>
      have hs : ∀ x ∈ s, Unescapable m x := fun x hx => h x (List.mem_cons_of_mem _ hx)
      rw [escape, List.flatMap_cons, List.append_assoc, unescape_escapeByte
        (h c (List.mem_cons_self _ _)), ← escape, ih hs]
      simp [Functor.map_map]

theorem unescape_escape {m : Encoding} {s : Bytes} (h : ∀ c ∈ s, Unescapable m c) :
    unescape m (escape s m) = .ok s := by
  simpa [unescape] using unescape_escape_append h []

/-! ## What escaped text is made of -/

@[simp] theorem escape_nil (m : Encoding) : escape [] m = [] := rfl

@[simp] theorem escape_append (a b : Bytes) (m : Encoding) :
    escape (a ++ b) m = escape a m ++ escape b m := List.flatMap_append ..

/-- A byte that escaping always writes as `%XX` and that is neither `%` nor a hex digit never
appears in escaped text. -/
theorem not_mem_escape {x : UInt8} {m : Encoding} (hpct : x ≠ '%'.toUInt8)
    (hhex : ∀ n < 16, x ≠ upperhex n) (hesc : shouldEscape x m = true)
    (hplus : x ≠ '+'.toUInt8 ∨ m ≠ .queryComponent) (s : Bytes) : x ∉ escape s m := by
  simp only [escape, List.mem_flatMap, not_exists, not_and]
  intro c _ hx
  unfold escapeByte at hx
  have hlt := toNat_lt c
  split_ifs at hx with hsp hc
  · obtain ⟨-, rfl⟩ := hsp
    simp only [List.mem_singleton] at hx
    rcases hplus with h | h <;> simp_all
  · simp only [List.mem_cons, List.mem_singleton, List.not_mem_nil, or_false] at hx
    rcases hx with rfl | rfl | rfl
    · exact hpct rfl
    · exact hhex _ (by omega) rfl
    · exact hhex _ (by omega) rfl
  · simp only [List.mem_singleton] at hx
    subst hx
    simp [hesc] at hc

end Url
end Go
end StepOAuth
