import StepOAuth.Go.Url

/-!
# Hosts printed and parsed again

`URL.String` writes the host with `escape(host, encodeHost)` and `url.Parse` reads it back with
`parseHost`. The main result, `parseHost_escape`, says the host comes back unchanged, for every
host `parseHost` returns whose zone (what follows `%25` in a bracketed IP literal) is ASCII. A
non-ASCII zone byte is written `%XX`, which the zone encoding refuses to unescape.

The ground work is about escaped and unescaped text:

* escaped text holds a byte that is not `%`, `+` or a hex digit only where its input did, so
  `escape` commutes with the cuts `parseHost` and `parseAuthority` make at `]`, `:` and `@`;
* `%25` first occurs in escaped text where `%` first occurs in its input;
* every ok outcome of `unescape` is built by the steps of `unescape_ok_induction`, from which
  follow the bytes a decoded host or zone can hold, and where a decoded `%` came from.
-/

namespace StepOAuth
namespace Go
namespace Url

open Byte

/-! ## Bytes that escaping writes only as themselves -/

/-- A byte escaped text holds only where its input did: not `%`, which starts an escape, not
`+`, which stands for a space in a query, and not a hex digit, which ends an escape. -/
def Literal (x : UInt8) : Prop := x ≠ '%'.toUInt8 ∧ x ≠ '+'.toUInt8 ∧ ishex x = false

theorem unhex_lt (c : UInt8) : unhex c < 16 := by
  unfold unhex
  split_ifs <;>
    simp only [le_iff, toNat_toUInt8, Char.reduceToNat, Nat.reduceMod] at * <;> omega

theorem shouldEscape_space (m : Encoding) : shouldEscape ' '.toUInt8 m = true := by
  cases m <;> decide

@[simp] theorem escape_cons (c : UInt8) (s : Bytes) (m : Encoding) :
    escape (c :: s) m = escapeByte m c ++ escape s m := List.flatMap_cons ..

theorem escapeByte_of_not_shouldEscape {c : UInt8} {m : Encoding} (h : shouldEscape c m = false) :
    escapeByte m c = [c] := by
  have hsp : c ≠ ' '.toUInt8 := by rintro rfl; simp [shouldEscape_space] at h
  simp [escapeByte, hsp, h]

theorem escape_eq_self {s : Bytes} {m : Encoding} (h : ∀ c ∈ s, shouldEscape c m = false) :
    escape s m = s := by
  induction s with
  | nil => rfl
  | cons c s ih =>
      simp only [List.mem_cons, forall_eq_or_imp] at h
      rw [escape_cons, escapeByte_of_not_shouldEscape h.1, ih h.2]
      rfl

theorem eq_of_mem_escapeByte {x c : UInt8} {m : Encoding} (hx : Literal x)
    (h : x ∈ escapeByte m c) : x = c := by
  obtain ⟨hpct, hplus, hhex⟩ := hx
  have hlt := toNat_lt c
  unfold escapeByte at h
  split_ifs at h
  · exact absurd (List.mem_singleton.1 h) hplus
  · simp only [List.mem_cons, List.mem_singleton, List.not_mem_nil, or_false] at h
    rcases h with rfl | rfl | rfl
    · exact absurd rfl hpct
    · simp [(upperhex_spec (c.toNat / 16) (by omega)).1] at hhex
    · simp [(upperhex_spec (c.toNat % 16) (by omega)).1] at hhex
  · exact List.mem_singleton.1 h

theorem mem_of_mem_escape {x : UInt8} {m : Encoding} {s : Bytes} (hx : Literal x)
    (h : x ∈ escape s m) : x ∈ s := by
  obtain ⟨c, hc, hxc⟩ := List.mem_flatMap.1 h
  exact eq_of_mem_escapeByte hx hxc ▸ hc

theorem escape_append_cons {x : UInt8} {m : Encoding} (hk : shouldEscape x m = false)
    (a b : Bytes) : escape (a ++ x :: b) m = escape a m ++ x :: escape b m := by
  rw [escape_append, escape_cons, escapeByte_of_not_shouldEscape hk]
  rfl

theorem head?_escape {x : UInt8} {m : Encoding} (hx : Literal x) (hk : shouldEscape x m = false)
    (s : Bytes) : (escape s m).head? = some x ↔ s.head? = some x := by
  cases s with
  | nil => simp
  | cons c s =>
      simp only [escape_cons, List.head?_cons, Option.some.injEq]
      constructor
      · intro h
        have hmem : x ∈ escapeByte m c := by
          cases hc : escapeByte m c with
          | nil => simp [escapeByte] at hc; split_ifs at hc
          | cons d _ => simp [hc] at h; simp [h]
        exact (eq_of_mem_escapeByte hx hmem).symm
      · rintro rfl
        simp [escapeByte_of_not_shouldEscape hk]

/-! ## Where `%25` first occurs -/

theorem percent25_eq : ascii "%25" = ['%'.toUInt8, '2'.toUInt8, '5'.toUInt8] := rfl

theorem splitAt?_cons_of_ne {p b : UInt8} (ps s : Bytes) (h : b ≠ p) :
    Strings.splitAt? (p :: ps) (b :: s) =
      (Strings.splitAt? (p :: ps) s).map fun r => (b :: r.1, r.2) := by
  simp [Strings.splitAt?, List.isPrefixOf, Ne.symm h]

/-- `splitAt?` finds no occurrence only where there is none. -/
theorem splitAt?_eq_none {pat s : Bytes} (hp : pat ≠ []) (h : Strings.splitAt? pat s = none) :
    ¬ pat <:+: s := by
  induction s with
  | nil => exact fun hi => hp (List.eq_nil_of_infix_nil hi)
  | cons b s ih =>
      simp only [Strings.splitAt?] at h
      split_ifs at h with hpre
      rw [List.infix_cons_iff, not_or]
      exact ⟨fun h' => hpre (List.isPrefixOf_iff_prefix.2 h'), ih (by simpa using h)⟩

/-- `splitAt?` cuts at the first occurrence. -/
theorem splitAt?_eq_some {pat s a b : Bytes} (hp : pat ≠ [])
    (h : Strings.splitAt? pat s = some (a, b)) : s = a ++ b ∧ pat <+: b ∧ ¬ pat <:+: a := by
  induction s generalizing a with
  | nil => simp [Strings.splitAt?, hp] at h
  | cons c s ih =>
      simp only [Strings.splitAt?] at h
      split_ifs at h with hpre
      · cases h
        exact ⟨rfl, List.isPrefixOf_iff_prefix.1 hpre, fun hi => hp (List.eq_nil_of_infix_nil hi)⟩
      · obtain ⟨⟨a', b'⟩, h', he⟩ := Option.map_eq_some'.1 h
        cases he
        obtain ⟨rfl, hb, ha⟩ := ih h'
        refine ⟨rfl, hb, ?_⟩
        rw [List.infix_cons_iff, not_or]
        exact ⟨fun h'' => hpre (List.isPrefixOf_iff_prefix.2
          (h''.trans (List.prefix_append _ _))), ha⟩

theorem upperhex_ne_percent : ∀ n < 16, upperhex n ≠ '%'.toUInt8 := by decide

theorem upperhex_inj : ∀ n < 16, ∀ k < 16, upperhex n = upperhex k → n = k := by decide

/-- Escaping a byte other than `%` never starts an occurrence of `%25`. -/
theorem splitAt?_escapeByte_append {c : UInt8} {m : Encoding} (hc : c ≠ '%'.toUInt8)
    (rest : Bytes) :
    Strings.splitAt? (ascii "%25") (escapeByte m c ++ rest) =
      (Strings.splitAt? (ascii "%25") rest).map fun r => (escapeByte m c ++ r.1, r.2) := by
  have hlt := toNat_lt c
  rw [percent25_eq]
  unfold escapeByte
  split_ifs
  · rw [List.singleton_append, splitAt?_cons_of_ne _ _ (by decide)]
    rfl
  · have hhi := upperhex_ne_percent (c.toNat / 16) (by omega)
    have hlo := upperhex_ne_percent (c.toNat % 16) (by omega)
    have hne : ¬ ['%'.toUInt8, '2'.toUInt8, '5'.toUInt8].isPrefixOf
        ('%'.toUInt8 :: upperhex (c.toNat / 16) :: upperhex (c.toNat % 16) :: rest) := by
      simp only [List.isPrefixOf, beq_self_eq_true, Bool.true_and, Bool.and_eq_true, beq_iff_eq]
      rintro ⟨h2, h5, -⟩
      have := upperhex_inj _ (by omega) 2 (by omega) h2.symm
      have := upperhex_inj _ (by omega) 5 (by omega) h5.symm
      exact hc (eq_iff.2 (by simp; omega))
    simp only [List.cons_append, List.nil_append]
    rw [Strings.splitAt?, if_neg hne, splitAt?_cons_of_ne _ _ hhi, splitAt?_cons_of_ne _ _ hlo,
      Option.map_map, Option.map_map]
    rfl
  · rw [List.singleton_append, splitAt?_cons_of_ne _ _ hc]
    rfl

/-- `%25` occurs in escaped text only where the input has a `%`. -/
theorem splitAt?_escape_of_not_mem {m : Encoding} {s : Bytes} (h : '%'.toUInt8 ∉ s) :
    Strings.splitAt? (ascii "%25") (escape s m) = none := by
  induction s with
  | nil => rfl
  | cons c s ih =>
      simp only [List.mem_cons, not_or] at h
      rw [escape_cons, splitAt?_escapeByte_append (fun e => h.1 e.symm), ih h.2]
      rfl

theorem escapeByte_percent (m : Encoding) : escapeByte m '%'.toUInt8 = ascii "%25" := by
  cases m <;> decide

/-- The first `%25` of escaped text is the escape of the first `%` of the input. -/
theorem splitAt?_escape_append {m : Encoding} {a : Bytes} (h : '%'.toUInt8 ∉ a) (b : Bytes) :
    Strings.splitAt? (ascii "%25") (escape (a ++ '%'.toUInt8 :: b) m) =
      some (escape a m, ascii "%25" ++ escape b m) := by
  induction a with
  | nil =>
      rw [List.nil_append, escape_cons, escapeByte_percent, percent25_eq]
      simp [Strings.splitAt?, List.isPrefixOf]
  | cons c a ih =>
      simp only [List.mem_cons, not_or] at h
      rw [List.cons_append, escape_cons, splitAt?_escapeByte_append (fun e => h.1 e.symm), ih h.2]
      rfl

/-! ## What unescaping yields -/

/-- What `unescape` writes for a byte that starts no escape: a space for `+` in a query
component, the byte itself otherwise. -/
def unescapeByte (mode : Encoding) (c : UInt8) : UInt8 :=
  if c = '+'.toUInt8 ∧ mode = .queryComponent then ' '.toUInt8 else c

theorem unescapeByte_of_ne {m : Encoding} (hm : m ≠ .queryComponent) (c : UInt8) :
    unescapeByte m c = c := by
  simp [unescapeByte, hm]

/-- The check `unescape` makes of a byte that starts no escape: the host and zone encodings
refuse the ASCII bytes they escape. -/
def RawRefused (mode : Encoding) (c : UInt8) : Prop :=
  (mode = .host ∨ mode = .zone) ∧ c.toNat < 0x80 ∧ shouldEscape c mode = true

theorem unescape_cons_raw {m : Encoding} {c : UInt8} (hc : c ≠ '%'.toUInt8)
    (hg : ¬ RawRefused m c) (s : Bytes) :
    unescape m (c :: s) = (unescapeByte m c :: ·) <$> unescape m s := by
  rw [unescape_cons_of_ne hc]
  by_cases hp : c = '+'.toUInt8
  · subst hp
    by_cases hq : m = .queryComponent <;> simp [unescapeByte, hq]
  · unfold RawRefused at hg
    rw [if_neg hp, if_neg hg]
    simp [unescapeByte, hp]

theorem unescape_percent25 (m : Encoding) (s : Bytes) :
    unescape m (ascii "%25" ++ s) = ('%'.toUInt8 :: ·) <$> unescape m s := by
  cases m <;> rfl

/-- Every ok outcome of `unescape` is built by three steps: the empty input, an escape `%ab`
the mode accepts, and a byte that starts no escape and that the mode accepts raw. A relation
between input and output kept by the three steps holds of every decoding. -/
theorem unescape_ok_induction {m : Encoding} (P : Bytes → Bytes → Prop) (nil : P [] [])
    (pct : ∀ a b rest t, ishex a = true → ishex b = true →
      ¬(m = .host ∧ unhex a < 8 ∧ ['%'.toUInt8, a, b] ≠ ascii "%25") →
      ¬(m = .zone ∧ ['%'.toUInt8, a, b] ≠ ascii "%25" ∧
        UInt8.ofNat (unhex a * 16 + unhex b) ≠ ' '.toUInt8 ∧
        shouldEscape (UInt8.ofNat (unhex a * 16 + unhex b)) .host = true) →
      unescape m rest = .ok t → P rest t →
      P ('%'.toUInt8 :: a :: b :: rest) (UInt8.ofNat (unhex a * 16 + unhex b) :: t))
    (raw : ∀ c s t, c ≠ '%'.toUInt8 → ¬ RawRefused m c → unescape m s = .ok t → P s t →
      P (c :: s) (unescapeByte m c :: t)) :
    ∀ {s t}, unescape m s = .ok t → P s t := by
  intro s
  induction s using unescape.induct m with
  | case1 => intro t h; cases h; exact nil
  | case2 a b rest hab hg => intro t h; simp [unescape_percent, hab, hg] at h
  | case3 a b rest hab v hg =>
      rename_i hz
      intro t h
      simp only [v] at hz
      simp [unescape_percent, hab, hg, hz] at h
  | case4 a b rest hab v hg hz =>
      rename_i ih
      intro t h
      simp only [v] at hz
      rw [unescape_percent, if_pos hab] at h
      dsimp only at h
      rw [if_neg hg, if_neg hz] at h
      obtain ⟨t', ht', rfl⟩ := map_eq_ok h
      exact pct a b rest t' hab.1 hab.2 hg hz ht' (ih ht')
  | case5 a b rest hab => intro t h; simp [unescape_percent, hab] at h
  | case6 s hs =>
      intro t h
      rcases s with _ | ⟨a, _ | ⟨b, rest⟩⟩
      · cases h
      · cases h
      · exact absurd rfl (hs a b rest)
  | case7 s _ ih =>
      intro t h
      have hg : ¬ RawRefused m '+'.toUInt8 := by
        unfold RawRefused; cases m <;> decide
      rw [unescape_cons_raw plus_ne_percent hg] at h
      obtain ⟨t', ht', rfl⟩ := map_eq_ok h
      exact raw _ s t' plus_ne_percent hg ht' (ih ht')
  | case8 c s hc hp hg => intro t h; rw [unescape_cons_of_ne hc, if_neg hp, if_pos hg] at h; cases h
  | case9 c s hc _ hg ih =>
      intro t h
      rw [unescape_cons_raw hc hg] at h
      obtain ⟨t', ht', rfl⟩ := map_eq_ok h
      exact raw c s t' hc hg ht' (ih ht')

/-- An escape the host encoding accepts is `%25`, or stands for a non-ASCII byte. -/
theorem host_escape {a b : UInt8} (hg : ¬(unhex a < 8 ∧ ['%'.toUInt8, a, b] ≠ ascii "%25")) :
    (a = '2'.toUInt8 ∧ b = '5'.toUInt8) ∨ 128 ≤ (UInt8.ofNat (unhex a * 16 + unhex b)).toNat := by
  by_cases h8 : unhex a < 8
  · have h25 : ['%'.toUInt8, a, b] = ascii "%25" := not_not.1 fun hne => hg ⟨h8, hne⟩
    simp only [percent25_eq, List.cons.injEq, true_and, and_true] at h25
    exact .inl h25
  · have := unhex_lt a
    have := unhex_lt b
    right
    rw [toNat_ofNat, Nat.mod_eq_of_lt (by omega)]
    omega

theorem unescape_host_unescapable {s t : Bytes} (h : unescape .host s = .ok t) :
    ∀ c ∈ t, Unescapable .host c := by
  refine unescape_ok_induction (fun _ t => ∀ c ∈ t, Unescapable .host c) (by simp) ?_ ?_ h
  · intro a b _ _ _ _ hg _ _ ih
    refine List.forall_mem_cons.2 ⟨?_, ih⟩
    rcases host_escape (fun h => hg ⟨rfl, h⟩) with ⟨rfl, rfl⟩ | h
    · exact .inr (.inl rfl)
    · exact .inr (.inr h)
  · intro c _ _ _ hg _ ih
    refine List.forall_mem_cons.2 ⟨?_, ih⟩
    simp only [RawRefused, true_or, true_and, not_and, Bool.not_eq_true] at hg
    rw [unescapeByte_of_ne (by decide)]
    by_cases hc : c.toNat < 128
    · exact .inl (hg hc)
    · exact .inr (.inr (by omega))

/-- A zone decodes to bytes a host may hold raw, `%`, the space, and non-ASCII bytes, which the
zone encoding accepts raw. -/
theorem unescape_zone_bytes {s t : Bytes} (h : unescape .zone s = .ok t) :
    ∀ c ∈ t, Unescapable .zone c ∨ 128 ≤ c.toNat := by
  refine unescape_ok_induction (fun _ t => ∀ c ∈ t, Unescapable .zone c ∨ 128 ≤ c.toNat)
    (by simp) ?_ ?_ h
  · intro a b _ _ _ _ _ hz _ ih
    refine List.forall_mem_cons.2 ⟨.inl ?_, ih⟩
    by_cases h25 : ['%'.toUInt8, a, b] = ascii "%25"
    · simp only [percent25_eq, List.cons.injEq, true_and, and_true] at h25
      obtain ⟨rfl, rfl⟩ := h25
      exact .inr (.inl rfl)
    · by_cases hsp : UInt8.ofNat (unhex a * 16 + unhex b) = ' '.toUInt8
      · exact .inr (.inr hsp)
      · exact .inl (by simpa [h25, hsp] using hz)
  · intro c _ _ _ hg _ ih
    refine List.forall_mem_cons.2 ⟨?_, ih⟩
    simp only [RawRefused, or_true, true_and, not_and, Bool.not_eq_true, shouldEscape_zone_eq]
      at hg
    rw [unescapeByte_of_ne (by decide)]
    by_cases hc : c.toNat < 128
    · exact .inl (.inl (hg hc))
    · exact .inr (by omega)

/-- A host decodes to `%` only from `%25`. -/
theorem percent25_infix_of_unescape {s t : Bytes} (h : unescape .host s = .ok t)
    (hp : '%'.toUInt8 ∈ t) : ascii "%25" <:+: s := by
  refine unescape_ok_induction (fun s t => '%'.toUInt8 ∈ t → ascii "%25" <:+: s) (by simp) ?_ ?_
    h hp
  · intro a b rest _ _ _ hg _ _ ih hmem
    rcases List.mem_cons.1 hmem with hv | hv
    · rcases host_escape (fun h => hg ⟨rfl, h⟩) with ⟨rfl, rfl⟩ | h
      · exact ⟨[], rest, rfl⟩
      · rw [← hv] at h
        exact absurd h (by decide)
    · exact ((ih hv).trans (List.infix_cons (List.infix_cons (List.infix_refl _)))).trans
        (List.infix_cons (List.infix_refl _))
  · intro c _ _ hc _ _ ih hmem
    rcases List.mem_cons.1 hmem with hv | hv
    · exact absurd (by simpa [unescapeByte] using hv.symm) hc
    · exact List.infix_cons (ih hv)

/-- In the host encoding, every decoded ASCII byte other than `%` stood in the input. -/
theorem mem_of_mem_unescape_host {s t : Bytes} (h : unescape .host s = .ok t) {c : UInt8}
    (hc : c ∈ t) (hlt : c.toNat < 128) (hp : c ≠ '%'.toUInt8) : c ∈ s := by
  refine unescape_ok_induction (fun s t => c ∈ t → c ∈ s) (by simp) ?_ ?_ h hc
  · intro a b rest _ _ _ hg _ _ ih hmem
    rcases List.mem_cons.1 hmem with rfl | hv
    · rcases host_escape (fun h => hg ⟨rfl, h⟩) with ⟨rfl, rfl⟩ | h
      · exact absurd rfl hp
      · omega
    · exact List.mem_cons_of_mem _ (List.mem_cons_of_mem _ (List.mem_cons_of_mem _ (ih hv)))
  · intro d _ _ _ _ _ ih hmem
    rcases List.mem_cons.1 hmem with rfl | hv
    · simp [unescapeByte]
    · exact List.mem_cons_of_mem _ (ih hv)

/-- A decoded host starts with `[` only when its input did. -/
theorem head?_unescape_host {s t : Bytes} (h : unescape .host s = .ok t)
    (hb : t.head? = some '['.toUInt8) : s.head? = some '['.toUInt8 := by
  refine unescape_ok_induction (fun s t => t.head? = some '['.toUInt8 → s.head? = some '['.toUInt8)
    (by simp) ?_ ?_ h hb
  · intro a b _ _ _ _ hg _ _ _ hv
    simp only [List.head?_cons, Option.some.injEq] at hv
    rcases host_escape (fun h => hg ⟨rfl, h⟩) with ⟨rfl, rfl⟩ | h
    · exact absurd hv (by decide)
    · rw [hv] at h
      exact absurd h (by decide)
  · intro c _ _ _ _ _ _ hv
    simpa [unescapeByte] using hv

/-- What comes before and after a literal byte the mode accepts raw decodes on its own. -/
theorem unescape_append_cons {m : Encoding} {x : UInt8} (hx : Literal x) {a b t : Bytes}
    (h : unescape m (a ++ x :: b) = .ok t) :
    ∃ ta tb, unescape m a = .ok ta ∧ unescape m b = .ok tb ∧ t = ta ++ unescapeByte m x :: tb := by
  refine unescape_ok_induction (fun s t => ∀ a b, s = a ++ x :: b →
      ∃ ta tb, unescape m a = .ok ta ∧ unescape m b = .ok tb ∧ t = ta ++ unescapeByte m x :: tb)
    (by simp) ?_ ?_ h a b rfl
  · intro a0 b0 rest t ha hb hg hz _ ih a b hs
    rcases a with _ | ⟨c1, _ | ⟨c2, _ | ⟨c3, a⟩⟩⟩
    · cases hs
      exact absurd rfl hx.1
    · cases hs
      simp [ha, Literal] at hx
    · cases hs
      simp [hb, Literal] at hx
    · simp only [List.cons_append, List.cons.injEq] at hs
      obtain ⟨rfl, rfl, rfl, rfl⟩ := hs
      obtain ⟨ta, tb, h1, h2, rfl⟩ := ih a b rfl
      refine ⟨_ :: ta, tb, ?_, h2, rfl⟩
      rw [unescape_percent, if_pos ⟨ha, hb⟩]
      dsimp only
      rw [if_neg hg, if_neg hz, h1]
      rfl
  · intro c s t hc hg hs' ih a b hs
    rcases a with _ | ⟨c1, a⟩
    · cases hs
      exact ⟨[], t, rfl, hs', rfl⟩
    · simp only [List.cons_append, List.cons.injEq] at hs
      obtain ⟨rfl, rfl⟩ := hs
      obtain ⟨ta, tb, h1, h2, rfl⟩ := ih a b rfl
      exact ⟨_ :: ta, tb, by rw [unescape_cons_raw hc hg, h1]; rfl, h2, rfl⟩

/-! ## `parseHost` after `escape` -/

/-- The bytes after the first `%` of a bracketed host, where its zone is, are ASCII. -/
def ZoneAscii (host : Bytes) : Prop :=
  (ascii "[").isPrefixOf host = true → ∀ c ∈ (Strings.cut '%'.toUInt8 host).2.1, c.toNat < 128

instance (host : Bytes) : Decidable (ZoneAscii host) := inferInstanceAs (Decidable (_ → _))

theorem isPrefixOf_single (x : UInt8) (s : Bytes) : [x].isPrefixOf s = true ↔ s.head? = some x := by
  cases s with
  | nil => simp [List.isPrefixOf]
  | cons c s =>
      simp only [List.isPrefixOf, List.head?_cons, Option.some.injEq, Bool.and_true, beq_iff_eq]
      exact eq_comm

theorem isPrefixOf_bracket (s : Bytes) :
    (ascii "[").isPrefixOf s = true ↔ s.head? = some '['.toUInt8 :=
  isPrefixOf_single _ s

theorem literal_colon : Literal ':'.toUInt8 := ⟨by decide, by decide, by decide⟩

theorem literal_bracket : Literal ']'.toUInt8 := ⟨by decide, by decide, by decide⟩

theorem literal_open_bracket : Literal '['.toUInt8 := ⟨by decide, by decide, by decide⟩

/-- A port `validOptionalPort` accepts is written as itself in a host, and holds neither `]`
nor `%`. -/
theorem validOptionalPort_plain {p : Bytes} (h : validOptionalPort p = true) :
    ∀ c ∈ p, shouldEscape c .host = false ∧ c ≠ ']'.toUInt8 ∧ c ≠ '%'.toUInt8 := by
  match p, h with
  | [], _ => simp
  | c :: port, h =>
      simp only [validOptionalPort, Bool.and_eq_true, decide_eq_true_eq, List.all_eq_true,
        Bool.and_eq_true, decide_eq_true_eq] at h
      obtain ⟨rfl, hd⟩ := h
      refine List.forall_mem_cons.2 ⟨by decide, fun d hd' => ?_⟩
      obtain ⟨h0, h9⟩ := hd d hd'
      simp only [le_iff, toNat_toUInt8, Char.reduceToNat, Nat.reduceMod] at h0 h9
      refine ⟨by simp [shouldEscape, isAlnum, le_iff, h0, h9], ?_, ?_⟩ <;>
        (rw [Ne, eq_iff]; simp only [toNat_toUInt8, Char.reduceToNat, Nat.reduceMod]; omega)

theorem unescape_host_plain {p : Bytes} (h : ∀ c ∈ p, shouldEscape c .host = false) :
    unescape .host p = .ok p := by
  conv_lhs => rw [← escape_eq_self h]
  exact unescape_escape fun c hc => .inl (h c hc)

theorem escape_zone_eq_host (s : Bytes) : escape s .zone = escape s .host := by
  unfold escape
  congr 1
  funext c
  simp [escapeByte, shouldEscape_zone_eq]

theorem head_unescape_bracket {s t : Bytes} (h : unescape .host ('['.toUInt8 :: s) = .ok t) :
    t.head? = some '['.toUInt8 := by
  rw [unescape_cons_raw (by decide) (by unfold RawRefused; decide)] at h
  obtain ⟨t', -, rfl⟩ := map_eq_ok h
  rfl

/-- A name with an optional port. -/
theorem parseHost_escape_plain {raw host : Bytes} (hb : (ascii "[").isPrefixOf raw = false)
    (hu : unescape .host raw = .ok host)
    (hp : ∀ a port, Strings.splitLast ':'.toUInt8 raw = some (a, port) →
      validOptionalPort (':'.toUInt8 :: port) = true) :
    parseHost (escape host .host) = .ok host := by
  have hhead : (ascii "[").isPrefixOf (escape host .host) = false := by
    rw [← Bool.not_eq_true, isPrefixOf_bracket, head?_escape literal_open_bracket (by decide)]
    intro h
    have := (isPrefixOf_bracket raw).2 (head?_unescape_host hu h)
    simp [hb] at this
  have hback : unescape .host (escape host .host) = .ok host :=
    unescape_escape (unescape_host_unescapable hu)
  unfold parseHost
  rw [if_neg (by simp [hhead])]
  by_cases hc : ':'.toUInt8 ∈ raw
  · obtain ⟨ra, rp, hr, hrp⟩ := Strings.exists_split_last hc
    have hv := hp ra rp (by rw [hr]; exact Strings.splitLast_append hrp ra)
    have hplain := validOptionalPort_plain hv
    obtain ⟨ta, tb, -, htb, rfl⟩ := unescape_append_cons literal_colon (hr ▸ hu)
    rw [unescape_host_plain fun c hc => (hplain c (List.mem_cons_of_mem _ hc)).1] at htb
    cases htb
    have he : escape (ta ++ unescapeByte .host ':'.toUInt8 :: rp) .host =
        escape ta .host ++ ':'.toUInt8 :: rp := by
      rw [unescapeByte_of_ne (by decide), escape_append_cons (by decide),
        escape_eq_self fun c hc => (hplain c (List.mem_cons_of_mem _ hc)).1]
    rw [he, Strings.splitLast_append hrp]
    simp only [hv, Bool.not_true, Bool.false_eq_true, if_false]
    rw [← he, hback]
    rfl
  · have hnc : ':'.toUInt8 ∉ escape host .host := fun h =>
      hc (mem_of_mem_unescape_host hu (mem_of_mem_escape literal_colon h) (by decide) (by decide))
    rw [Strings.splitLast_of_not_mem hnc, hback]
    rfl

/-- A bracketed IP literal without a zone, and an optional port. -/
theorem parseHost_escape_bracket {raw inside cp host : Bytes}
    (hb : (ascii "[").isPrefixOf raw = true)
    (hs : Strings.splitLast ']'.toUInt8 raw = some (inside, cp)) (hp : validOptionalPort cp = true)
    (hz : Strings.splitAt? (ascii "%25") inside = none) (hu : unescape .host raw = .ok host) :
    parseHost (escape host .host) = .ok host := by
  obtain ⟨hr, hcp⟩ := Strings.splitLast_spec hs
  have hplain := validOptionalPort_plain hp
  have hback : unescape .host (escape host .host) = .ok host :=
    unescape_escape (unescape_host_unescapable hu)
  have hhead : (ascii "[").isPrefixOf (escape host .host) = true := by
    rw [isPrefixOf_bracket, head?_escape literal_open_bracket (by decide)]
    rw [isPrefixOf_bracket] at hb
    obtain ⟨r, rfl⟩ : ∃ r, raw = '['.toUInt8 :: r := by
      cases raw with
      | nil => cases hb
      | cons c r => cases hb; exact ⟨r, rfl⟩
    exact head_unescape_bracket hu
  obtain ⟨ti, tc, hti, htc, rfl⟩ := unescape_append_cons literal_bracket (hr ▸ hu)
  rw [unescape_host_plain fun c hc => (hplain c hc).1] at htc
  cases htc
  have hpct : '%'.toUInt8 ∉ ti := fun h =>
    splitAt?_eq_none (by decide) hz (percent25_infix_of_unescape hti h)
  have he : escape (ti ++ unescapeByte .host ']'.toUInt8 :: cp) .host =
      escape ti .host ++ ']'.toUInt8 :: cp := by
    rw [unescapeByte_of_ne (by decide), escape_append_cons (by decide),
      escape_eq_self fun c hc => (hplain c hc).1]
  unfold parseHost
  rw [if_pos hhead, he, Strings.splitLast_append fun h => (hplain _ h).2.1 rfl]
  simp only [hp, Bool.not_true, Bool.false_eq_true, if_false]
  rw [splitAt?_escape_of_not_mem hpct]
  dsimp only
  rw [← he, hback]
  rfl

/-- A bracketed IP literal with a `%25` zone, and an optional port. -/
theorem parseHost_escape_zone {raw inside cp before zone host1 host2 host3 : Bytes}
    (hb : (ascii "[").isPrefixOf raw = true)
    (hs : Strings.splitLast ']'.toUInt8 raw = some (inside, cp)) (hp : validOptionalPort cp = true)
    (hz : Strings.splitAt? (ascii "%25") inside = some (before, zone))
    (h1 : unescape .host before = .ok host1) (h2 : unescape .zone zone = .ok host2)
    (h3 : unescape .host (']'.toUInt8 :: cp) = .ok host3)
    (ha : ZoneAscii (host1 ++ host2 ++ host3)) :
    parseHost (escape (host1 ++ host2 ++ host3) .host) = .ok (host1 ++ host2 ++ host3) := by
  obtain ⟨hr, hcp⟩ := Strings.splitLast_spec hs
  obtain ⟨rfl, ⟨z, rfl⟩, hbef⟩ := splitAt?_eq_some (by decide) hz
  have hplain := validOptionalPort_plain hp
  have hcp3 : ∀ c ∈ ']'.toUInt8 :: cp, shouldEscape c .host = false :=
    List.forall_mem_cons.2 ⟨by decide, fun c hc => (hplain c hc).1⟩
  rw [unescape_host_plain hcp3] at h3
  cases h3
  rw [unescape_percent25] at h2
  obtain ⟨hz', hz'ok, rfl⟩ := map_eq_ok h2
  -- `before` is not empty, since the literal starts with `[`, so its decoding starts with `[`
  obtain ⟨br, rfl⟩ : ∃ br, before = '['.toUInt8 :: br := by
    rw [hr, isPrefixOf_bracket] at hb
    cases before with
    | nil => cases hb
    | cons c br => cases hb; exact ⟨br, rfl⟩
  have hpct : '%'.toUInt8 ∉ host1 := fun h => hbef (percent25_infix_of_unescape h1 h)
  have hhead1 := head_unescape_bracket h1
  have hcut : Strings.cut '%'.toUInt8 (host1 ++ ('%'.toUInt8 :: hz') ++ (']'.toUInt8 :: cp)) =
      (host1, hz' ++ ']'.toUInt8 :: cp, true) := by
    rw [List.append_assoc, List.cons_append, Strings.cut_append hpct]
  have hzone : ∀ c ∈ hz', Unescapable .zone c := by
    intro c hc
    have hlt := ha (by
      rw [isPrefixOf_bracket]
      cases host1 with
      | nil => cases hhead1
      | cons d t => exact hhead1) c (by rw [hcut]; exact List.mem_append_left _ hc)
    rcases unescape_zone_bytes hz'ok c hc with h | h
    · exact h
    · omega
  have he : escape (host1 ++ ('%'.toUInt8 :: hz') ++ (']'.toUInt8 :: cp)) .host =
      escape (host1 ++ '%'.toUInt8 :: hz') .host ++ ']'.toUInt8 :: cp := by
    rw [escape_append_cons (by decide), escape_eq_self fun c hc => (hplain c hc).1]
  have hhead : (ascii "[").isPrefixOf (escape (host1 ++ ('%'.toUInt8 :: hz') ++
      (']'.toUInt8 :: cp)) .host) = true := by
    rw [isPrefixOf_bracket, head?_escape literal_open_bracket (by decide)]
    cases host1 with
    | nil => cases hhead1
    | cons d t => exact hhead1
  have hzback : unescape .zone (ascii "%25" ++ escape hz' .host) = .ok ('%'.toUInt8 :: hz') := by
    rw [unescape_percent25, ← escape_zone_eq_host, unescape_escape hzone]
    rfl
  unfold parseHost
  rw [if_pos hhead, he, Strings.splitLast_append fun h => (hplain _ h).2.1 rfl]
  simp only [hp, Bool.not_true, Bool.false_eq_true, if_false]
  rw [splitAt?_escape_append hpct]
  dsimp only
  rw [unescape_escape (unescape_host_unescapable h1), hzback, unescape_host_plain hcp3]
  rfl

/-- **A host prints and parses back unchanged**, for every host `parseHost` returns whose zone
is ASCII. -/
theorem parseHost_escape {raw host : Bytes} (h : parseHost raw = .ok host) (ha : ZoneAscii host) :
    parseHost (escape host .host) = .ok host := by
  unfold parseHost at h
  split_ifs at h with hb
  · rcases hs : Strings.splitLast ']'.toUInt8 raw with _ | ⟨inside, cp⟩ <;> rw [hs] at h
    · cases h
    · dsimp only at h
      split_ifs at h with hp
      simp only [Bool.not_eq_true', Bool.not_eq_false] at hp
      rcases hz : Strings.splitAt? (ascii "%25") inside with _ | ⟨before, zone⟩ <;>
        rw [hz] at h <;> dsimp only at h
      · exact parseHost_escape_bracket hb hs (by simpa using hp) hz (mapError_eq_ok.1 h)
      · obtain ⟨host1, h1, h⟩ := bind_eq_ok (mapError_eq_ok.1 h)
        obtain ⟨host2, h2, h⟩ := bind_eq_ok h
        obtain ⟨host3, h3, h⟩ := bind_eq_ok h
        cases h
        exact parseHost_escape_zone hb hs (by simpa using hp) hz h1 h2 h3 ha
  · have hb' : (ascii "[").isPrefixOf raw = false := eq_false_of_ne_true hb
    rcases hs : Strings.splitLast ':'.toUInt8 raw with _ | ⟨a, port⟩ <;> rw [hs] at h <;>
      dsimp only at h
    · exact parseHost_escape_plain hb' (mapError_eq_ok.1 h) (by simp [hs])
    · split_ifs at h with hp
      exact parseHost_escape_plain hb' (mapError_eq_ok.1 h) fun _ _ h' => by
        rw [hs] at h'
        cases h'
        simpa using hp

end Url
end Go
end StepOAuth
