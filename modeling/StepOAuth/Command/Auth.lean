import StepOAuth.Command.Types

/-!
# `Auth` and `Exchange`

The two operations of an authorization attempt:

* `Auth` parses the authorization endpoint, appends the request's parameters to its query
  (`client_id`, `redirect_uri`, the response type with the PKCE challenge in code flow, `scope`,
  `prompt`, `state`, `nonce`, `login_hint`), and prints the URL back;
* `Exchange` posts the code with the client's credentials, the same `redirect_uri`, and the
  PKCE verifier, and decodes the reply.

The PKCE challenge is `base64.RawURLEncoding` of `sha256.Sum256` of the verifier. The encoder is
modelled, and shown to lose nothing of the digest; SHA-256 is a parameter, so every statement
here holds for any hash function.
-/

namespace StepOAuth
namespace Go
namespace Base64

/-- The URL-safe alphabet of `base64.RawURLEncoding`. -/
def urlAlphabet : Bytes := ascii "ABCDEFGHIJKLMNOPQRSTUVWXYZabcdefghijklmnopqrstuvwxyz0123456789-_"

/-- The character for a 6-bit value. -/
def sextet (n : Nat) : UInt8 := urlAlphabet.getD (n % 64) 0

/-- `base64.RawURLEncoding.EncodeToString(src)`: three bytes to four characters, no padding. -/
def rawURLEncode : Bytes → Bytes
  | a :: b :: c :: rest =>
      let n := a.toNat * 65536 + b.toNat * 256 + c.toNat
      [sextet (n / 262144), sextet (n / 4096), sextet (n / 64), sextet n] ++ rawURLEncode rest
  | [a, b] =>
      let n := a.toNat * 65536 + b.toNat * 256
      [sextet (n / 262144), sextet (n / 4096), sextet (n / 64)]
  | [a] =>
      let n := a.toNat * 65536
      [sextet (n / 262144), sextet (n / 4096)]
  | [] => []

/-! ### What the encoder keeps

Each group of three bytes becomes four characters of an alphabet without repeats, and a last
group of one or two bytes two or three: the characters spell the group's bits. So the encoding
is injective (`rawURLEncode_inj`), `⌈4n/3⌉` long (`length_rawURLEncode`), and written in the
alphabet (`mem_rawURLEncode`).
-/

theorem urlAlphabet_toNat : urlAlphabet.map UInt8.toNat =
    List.range' 65 26 ++ List.range' 97 26 ++ List.range' 48 10 ++ [45, 95] := by
  decide

/-- No character of the alphabet repeats: its four ranges are apart. -/
theorem nodup_urlAlphabet : urlAlphabet.Nodup := by
  refine List.Nodup.of_map UInt8.toNat ?_
  rw [urlAlphabet_toNat]
  simp only [List.nodup_append, List.Disjoint, List.mem_append, List.mem_range'_1,
    List.mem_cons, List.nodup_cons, List.mem_singleton, List.not_mem_nil, List.nodup_nil,
    or_false]
  refine ⟨⟨⟨List.nodup_range' _ _, List.nodup_range' _ _, ?_⟩, List.nodup_range' _ _, ?_⟩, ?_, ?_⟩
  all_goals first | decide | (intro x h1 h2; omega)

theorem mod_lt_length_urlAlphabet (n : Nat) : n % 64 < urlAlphabet.length :=
  Nat.mod_lt _ (by decide)

theorem sextet_eq (n : Nat) : sextet n = urlAlphabet.get ⟨n % 64, mod_lt_length_urlAlphabet n⟩ := by
  rw [sextet, List.getD_eq_getElem?_getD, List.getElem?_eq_getElem (mod_lt_length_urlAlphabet n)]
  rfl

theorem sextet_mem (n : Nat) : sextet n ∈ urlAlphabet := by
  rw [sextet_eq]
  exact List.get_mem _ _ _

/-- The alphabet has no repeats, so a character gives its 6-bit value back. -/
theorem sextet_inj {m n : Nat} (h : sextet m = sextet n) : m % 64 = n % 64 := by
  rw [sextet_eq, sextet_eq] at h
  exact Fin.mk.inj_iff.1 (nodup_urlAlphabet.get_inj_iff.1 h)

theorem length_rawURLEncode : ∀ s : Bytes, (rawURLEncode s).length = (4 * s.length + 2) / 3
  | _ :: _ :: _ :: rest => by
      simp only [rawURLEncode, List.length_append, List.length_cons, List.length_nil,
        length_rawURLEncode rest]
      omega
  | [_, _] | [_] | [] => by simp [rawURLEncode]

theorem mem_rawURLEncode : ∀ (s : Bytes), ∀ x ∈ rawURLEncode s, x ∈ urlAlphabet
  | _ :: _ :: _ :: rest, x, hx => by
      simp only [rawURLEncode, List.cons_append, List.mem_cons, List.nil_append] at hx
      rcases hx with rfl | rfl | rfl | rfl | hx
      any_goals exact sextet_mem _
      exact mem_rawURLEncode rest x hx
  | [_, _], x, hx | [_], x, hx => by
      simp only [rawURLEncode, List.mem_cons, List.mem_nil_iff, or_false] at hx
      rcases hx with rfl | rfl | rfl <;> exact sextet_mem _
  | [], _, hx => absurd hx (List.not_mem_nil _)

/-- A number below `2^24` is spelled by its four 6-bit digits. -/
theorem eq_of_digits {N N' : Nat} (hN : N < 16777216) (hN' : N' < 16777216)
    (h1 : N / 262144 % 64 = N' / 262144 % 64) (h2 : N / 4096 % 64 = N' / 4096 % 64)
    (h3 : N / 64 % 64 = N' / 64 % 64) (h4 : N % 64 = N' % 64) : N = N' := by
  omega

/-- The four characters of a group of three bytes spell its 24 bits. -/
theorem eq_of_sextets {a b c a' b' c' : UInt8}
    (h1 : sextet ((a.toNat * 65536 + b.toNat * 256 + c.toNat) / 262144) =
      sextet ((a'.toNat * 65536 + b'.toNat * 256 + c'.toNat) / 262144))
    (h2 : sextet ((a.toNat * 65536 + b.toNat * 256 + c.toNat) / 4096) =
      sextet ((a'.toNat * 65536 + b'.toNat * 256 + c'.toNat) / 4096))
    (h3 : sextet ((a.toNat * 65536 + b.toNat * 256 + c.toNat) / 64) =
      sextet ((a'.toNat * 65536 + b'.toNat * 256 + c'.toNat) / 64))
    (h4 : sextet (a.toNat * 65536 + b.toNat * 256 + c.toNat) =
      sextet (a'.toNat * 65536 + b'.toNat * 256 + c'.toNat)) :
    a = a' ∧ b = b' ∧ c = c' := by
  have := Byte.toNat_lt a; have := Byte.toNat_lt b; have := Byte.toNat_lt c
  have := Byte.toNat_lt a'; have := Byte.toNat_lt b'; have := Byte.toNat_lt c'
  have := eq_of_digits (by omega) (by omega) (sextet_inj h1) (sextet_inj h2) (sextet_inj h3)
    (sextet_inj h4)
  simp only [Byte.eq_iff]
  omega

/-- The three characters of two last bytes spell their 16 bits. -/
theorem eq_of_sextets_two {a b a' b' : UInt8}
    (h1 : sextet ((a.toNat * 65536 + b.toNat * 256) / 262144) =
      sextet ((a'.toNat * 65536 + b'.toNat * 256) / 262144))
    (h2 : sextet ((a.toNat * 65536 + b.toNat * 256) / 4096) =
      sextet ((a'.toNat * 65536 + b'.toNat * 256) / 4096))
    (h3 : sextet ((a.toNat * 65536 + b.toNat * 256) / 64) =
      sextet ((a'.toNat * 65536 + b'.toNat * 256) / 64)) :
    a = a' ∧ b = b' := by
  have := Byte.toNat_lt a; have := Byte.toNat_lt b
  have := Byte.toNat_lt a'; have := Byte.toNat_lt b'
  have := eq_of_digits (by omega) (by omega) (sextet_inj h1) (sextet_inj h2) (sextet_inj h3)
    (by omega)
  simp only [Byte.eq_iff]
  omega

/-- The two characters of one last byte spell its 8 bits. -/
theorem eq_of_sextets_one {a a' : UInt8}
    (h1 : sextet (a.toNat * 65536 / 262144) = sextet (a'.toNat * 65536 / 262144))
    (h2 : sextet (a.toNat * 65536 / 4096) = sextet (a'.toNat * 65536 / 4096)) : a = a' := by
  have := Byte.toNat_lt a; have := Byte.toNat_lt a'
  have := eq_of_digits (by omega) (by omega) (sextet_inj h1) (sextet_inj h2) (by omega) (by omega)
  rw [Byte.eq_iff]
  omega

theorem length_eq_of_rawURLEncode {s t : Bytes} (h : rawURLEncode s = rawURLEncode t) :
    s.length = t.length := by
  have := congrArg List.length h
  rw [length_rawURLEncode, length_rawURLEncode] at this
  omega

/-- **The encoding can be read back**: inputs with the same encoding are equal. -/
theorem rawURLEncode_inj : ∀ {s t : Bytes}, rawURLEncode s = rawURLEncode t → s = t
  | a :: b :: c :: s, a' :: b' :: c' :: t, h => by
      simp only [rawURLEncode, List.cons_append, List.nil_append, List.cons.injEq] at h
      obtain ⟨h1, h2, h3, h4, hr⟩ := h
      obtain ⟨rfl, rfl, rfl⟩ := eq_of_sextets h1 h2 h3 h4
      rw [rawURLEncode_inj hr]
  | [a, b], [a', b'], h => by
      simp only [rawURLEncode, List.cons.injEq, and_true] at h
      obtain ⟨rfl, rfl⟩ := eq_of_sextets_two h.1 h.2.1 h.2.2
      rfl
  | [a], [a'], h => by
      simp only [rawURLEncode, List.cons.injEq, and_true] at h
      rw [eq_of_sextets_one h.1 h.2]
  | [], [], _ => rfl
  | _ :: _ :: _ :: _, [_, _], h | _ :: _ :: _ :: _, [_], h | _ :: _ :: _ :: _, [], h
  | [_, _], _ :: _ :: _ :: _, h | [_, _], [_], h | [_, _], [], h
  | [_], _ :: _ :: _ :: _, h | [_], [_, _], h | [_], [], h
  | [], _ :: _ :: _ :: _, h | [], [_, _], h | [], [_], h => by
      have := length_eq_of_rawURLEncode h
      simp only [List.length_cons, List.length_nil] at this
      omega

end Base64
end Go

namespace Command

open Go Url

/-- The PKCE `code_challenge` for a verifier: `base64url(sha256(verifier))` without padding. -/
def codeChallengeS256 (sha256 : Bytes → Bytes) (verifier : Bytes) : Bytes :=
  Base64.rawURLEncode (sha256 verifier)

/-- The query `Auth` writes: the endpoint's own query `q`, then its parameters in order. -/
def authQuery (sha256 : Bytes → Bytes) (o : Oauth) (q : Values) : Values :=
  let q := (q.add "client_id" o.clientID).add "redirect_uri" o.redirectURI
  let q :=
    if o.implicit then q.add "response_type" "id_token token"
    else ((q.add "response_type" "code").add "code_challenge_method" "S256").add
      "code_challenge" (codeChallengeS256 sha256 o.codeChallenge)
  let q := q.add "scope" o.scope
  let q := if o.prompt ≠ [] then q.add "prompt" o.prompt else q
  let q := (q.add "state" o.state).add "nonce" o.nonce
  if o.loginHint ≠ [] then q.add "login_hint" o.loginHint else q

/-- `o.Auth()`: the authorization URL. -/
def Oauth.auth (sha256 : Bytes → Bytes) (o : Oauth) : Except Err Bytes :=
  match Url.parse o.authzEndpoint with
  | .error e => .error (.url e)
  | .ok u => .ok { u with rawQuery := (authQuery sha256 o u.query).encode }.string

/-- The form `Exchange` posts: `data.Set` of the code, the client's credentials, the
`redirect_uri` of the session, the grant type, and the PKCE verifier. -/
def exchangeForm (o : Oauth) (code : Bytes) : Values :=
  let data : Values := Values.set [] "code" code
  let data := data.set "client_id" o.clientID
  let data := data.set "client_secret" o.clientSecret
  let data := data.set "redirect_uri" o.redirectURI
  let data := data.set "grant_type" "authorization_code"
  data.set "code_verifier" o.codeChallenge

end Command
end StepOAuth
