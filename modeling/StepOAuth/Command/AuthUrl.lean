import StepOAuth.Command.Flows
import StepOAuth.Go.UrlRoundTrip

/-!
# The authorization URL, read back

`Auth` parses the authorization endpoint, adds the session's parameters to the query it read,
writes the query with `Encode`, and prints the URL with `String`. The provider parses the URL
and decodes its query; the token endpoint decodes the form `Exchange` posts.

* `authQuery_eq`: the query `Auth` writes is the endpoint's own, then `authParams`;
* `parse_auth`: for an endpoint in the domain `Reparses` of `Go.UrlRoundTrip`, the provider
  reads back the endpoint with `Auth`'s query;
* `auth_decodes`: the decoded query keeps every key of the endpoint's own query with all its
  values, and holds each parameter `Auth` adds once (`AuthDecoded`);
* `exchange_decodes`: in the loopback and the manual flow, the decoded form of each exchange
  agrees with the decoded query of the URL shown before it (`ExchangeAgrees`).

* `codeChallengeS256_faithful`: the PKCE challenge determines the verifier's digest, and
  `QueryEscape` leaves it as it is.

Outside those hypotheses: `auth_zone_unparsable`, an endpoint whose zone holds a non-ASCII
byte; and `exchange_disagrees`, a manual run at an endpoint whose own query names a
`client_id`, and one in implicit mode.
-/

namespace StepOAuth
namespace Command

open Go Url

/-! ## The query `Auth` writes -/

/-- The parameters `Auth` adds, in the order it adds them. -/
def authParams (sha256 : Bytes → Bytes) (o : Oauth) : Values :=
  ([("client_id", o.clientID), ("redirect_uri", o.redirectURI)] : Values) ++
    (if o.implicit then ([("response_type", "id_token token")] : Values)
     else [("response_type", "code"), ("code_challenge_method", "S256"),
       ("code_challenge", codeChallengeS256 sha256 o.codeChallenge)]) ++
    ([("scope", o.scope)] : Values) ++
    (if o.prompt ≠ [] then ([("prompt", o.prompt)] : Values) else []) ++
    ([("state", o.state), ("nonce", o.nonce)] : Values) ++
    (if o.loginHint ≠ [] then ([("login_hint", o.loginHint)] : Values) else [])

theorem authQuery_eq (sha256 : Bytes → Bytes) (o : Oauth) (q : Values) :
    authQuery sha256 o q = q ++ authParams sha256 o := by
  unfold authQuery authParams
  split_ifs <;> simp [Values.add]

/-- The keys `Auth` adds. -/
def authKeys : List Bytes :=
  ["client_id", "redirect_uri", "response_type", "code_challenge_method", "code_challenge",
    "scope", "prompt", "state", "nonce", "login_hint"]

theorem authParams_keys (sha256 : Bytes → Bytes) (o : Oauth) :
    ∀ p ∈ authParams sha256 o, p.1 ∈ authKeys := by
  unfold authParams
  split_ifs <;> simp [authKeys]

theorem lookup_authParams_of_not_mem {k : Bytes} (hk : k ∉ authKeys) (sha256 : Bytes → Bytes)
    (o : Oauth) : (authParams sha256 o).lookup k = [] := by
  simp only [Values.lookup, List.map_eq_nil_iff, List.filter_eq_nil_iff, decide_eq_true_eq]
  exact fun p hp he => hk (he ▸ authParams_keys sha256 o p hp)

/-- What a provider decodes from the query `w` of the URL `Auth` builds, against the endpoint's
own query `q`: every other key with all its values, and each parameter `Auth` adds once. -/
structure AuthDecoded (sha256 : Bytes → Bytes) (o : Oauth) (q w : Values) : Prop where
  kept : ∀ k ∉ authKeys, w.lookup k = q.lookup k
  clientID : w.lookup "client_id" = [o.clientID]
  redirectURI : w.lookup "redirect_uri" = [o.redirectURI]
  responseType : w.lookup "response_type" =
    if o.implicit then (["id_token token"] : List Bytes) else ["code"]
  challengeMethod : w.lookup "code_challenge_method" =
    if o.implicit then [] else (["S256"] : List Bytes)
  challenge : w.lookup "code_challenge" =
    if o.implicit then [] else [codeChallengeS256 sha256 o.codeChallenge]
  scope : w.lookup "scope" = [o.scope]
  prompt : w.lookup "prompt" = if o.prompt ≠ [] then [o.prompt] else []
  state : w.lookup "state" = [o.state]
  nonce : w.lookup "nonce" = [o.nonce]
  loginHint : w.lookup "login_hint" = if o.loginHint ≠ [] then [o.loginHint] else []

theorem lookup_ite (c : Prop) [Decidable c] (a b : Values) (k : Bytes) :
    (if c then a else b).lookup k = if c then a.lookup k else b.lookup k := by
  split <;> rfl

theorem lookup_cons_pair (x y : Bytes) (v : Values) (k : Bytes) :
    Values.lookup ((x, y) :: v) k = (if x = k then [y] else []) ++ v.lookup k :=
  Values.lookup_append [(x, y)] v k ▸ by rw [Values.lookup_pair]

theorem authDecoded_params (sha256 : Bytes → Bytes) (o : Oauth) :
    AuthDecoded sha256 o [] (authParams sha256 o) := by
  refine ⟨fun k hk => lookup_authParams_of_not_mem hk sha256 o, ?_, ?_, ?_, ?_, ?_, ?_, ?_, ?_, ?_,
    ?_⟩ <;> simp +decide [authParams, lookup_ite, lookup_cons_pair]

/-- The parameters decode the same after a query none of whose keys they use. -/
theorem AuthDecoded.append {sha256 : Bytes → Bytes} {o : Oauth} {p q w : Values}
    (h : AuthDecoded sha256 o [] p) (hk : ∀ k ∈ authKeys, q.lookup k = [])
    (hw : ∀ k, w.lookup k = q.lookup k ++ p.lookup k) : AuthDecoded sha256 o q w := by
  have e : ∀ k ∈ authKeys, w.lookup k = p.lookup k := fun k hk' => by
    rw [hw, hk k hk', List.nil_append]
  exact ⟨fun k hk' => by rw [hw, h.kept k hk', Values.lookup_nil, List.append_nil],
    (e _ (by simp [authKeys])).trans h.clientID, (e _ (by simp [authKeys])).trans h.redirectURI,
    (e _ (by simp [authKeys])).trans h.responseType,
    (e _ (by simp [authKeys])).trans h.challengeMethod,
    (e _ (by simp [authKeys])).trans h.challenge, (e _ (by simp [authKeys])).trans h.scope,
    (e _ (by simp [authKeys])).trans h.prompt, (e _ (by simp [authKeys])).trans h.state,
    (e _ (by simp [authKeys])).trans h.nonce, (e _ (by simp [authKeys])).trans h.loginHint⟩

/-! ## The URL read back -/

/-- **The provider reads back the URL `Auth` builds**: for an endpoint in the domain
`Reparses`, the endpoint with `Auth`'s query, up to the raw spellings of its path and
fragment. -/
theorem parse_auth (sha256 : Bytes → Bytes) (o : Oauth) {u : URL}
    (hp : parse o.authzEndpoint = .ok u) (hr : Reparses u) :
    ∃ url r f, o.auth sha256 = .ok url ∧
      parse url = .ok { u with
        rawQuery := (authQuery sha256 o u.query).encode, forceQuery := false, rawPath := r,
        rawFragment := f } := by
  have hne : (authQuery sha256 o u.query).encode ≠ [] :=
    encode_ne_nil (by simp [authQuery_eq, authParams])
  obtain ⟨r, f, h⟩ := parse_string_withQuery (parse_parsed hp) hr (plain_encode _) hne
  exact ⟨_, r, f, by simp only [Oauth.auth, hp], h⟩

/-- The provider decodes each key of the URL `Auth` built to the endpoint's own values of it,
then `Auth`'s. -/
theorem lookup_auth_query {sha256 : Bytes → Bytes} {o : Oauth} {u v : URL} {url : Bytes}
    (hp : parse o.authzEndpoint = .ok u) (hr : Reparses u) (ha : o.auth sha256 = .ok url)
    (hv : parse url = .ok v) (k : Bytes) :
    v.query.lookup k = u.query.lookup k ++ (authParams sha256 o).lookup k := by
  obtain ⟨url', r, f, ha', hv'⟩ := parse_auth sha256 o hp hr
  obtain rfl := Except.ok.inj (ha.symm.trans ha')
  obtain rfl := Except.ok.inj (hv.symm.trans hv')
  rw [URL.query, lookup_parseQuery_encode, authQuery_eq, Values.lookup_append]

/-- What the provider decodes from the URL `Auth` built: the endpoint's scheme, user, host,
path and fragment, and `AuthDecoded`. -/
theorem authDecoded_of_parse {sha256 : Bytes → Bytes} {o : Oauth} {u v : URL} {url : Bytes}
    (hp : parse o.authzEndpoint = .ok u) (hr : Reparses u)
    (hk : ∀ k ∈ authKeys, u.query.lookup k = []) (ha : o.auth sha256 = .ok url)
    (hv : parse url = .ok v) :
    v.scheme = u.scheme ∧ v.user = u.user ∧ v.host = u.host ∧ v.path = u.path ∧
      v.fragment = u.fragment ∧ AuthDecoded sha256 o u.query v.query := by
  obtain ⟨url', r, f, ha', hv'⟩ := parse_auth sha256 o hp hr
  obtain rfl := Except.ok.inj (ha.symm.trans ha')
  obtain rfl := Except.ok.inj (hv.symm.trans hv')
  exact ⟨rfl, rfl, rfl, rfl, rfl, (authDecoded_params sha256 o).append hk
    (lookup_auth_query hp hr ha hv)⟩

/-- **The URL `Auth` builds decodes back to the session.** For an endpoint in the domain
`Reparses` whose query names none of the keys `Auth` adds, the provider parses the URL to the
endpoint's scheme, user, host, path and fragment, and decodes from its query every key of the
endpoint's own query with all its values, and each of `Auth`'s parameters once. -/
theorem auth_decodes (sha256 : Bytes → Bytes) (o : Oauth) {u : URL}
    (hp : parse o.authzEndpoint = .ok u) (hr : Reparses u)
    (hk : ∀ k ∈ authKeys, u.query.lookup k = []) :
    ∃ url v, o.auth sha256 = .ok url ∧ parse url = .ok v ∧ v.scheme = u.scheme ∧
      v.user = u.user ∧ v.host = u.host ∧ v.path = u.path ∧ v.fragment = u.fragment ∧
      AuthDecoded sha256 o u.query v.query := by
  obtain ⟨url, r, f, ha, hv⟩ := parse_auth sha256 o hp hr
  exact ⟨url, _, ha, hv, authDecoded_of_parse hp hr hk ha hv⟩

/-- `auth_decodes` at an endpoint with a query of its own. -/
theorem auth_decodes_sample :
    let o : Oauth :=
      { authzEndpoint := "https://idp.example/authorize?hd=example.com", clientID := "app",
        redirectURI := "http://127.0.0.1:10000", state := "s", nonce := "n" }
    let u : URL :=
      { scheme := "https", host := "idp.example", path := "/authorize",
        rawQuery := "hd=example.com" }
    parse o.authzEndpoint = .ok u ∧ Reparses u ∧ (∀ k ∈ authKeys, u.query.lookup k = []) ∧
      ∃ url v, o.auth (fun _ => []) = .ok url ∧ parse url = .ok v ∧ v.scheme = u.scheme ∧
        v.user = u.user ∧ v.host = u.host ∧ v.path = u.path ∧ v.fragment = u.fragment ∧
        AuthDecoded (fun _ => []) o u.query v.query := by
  intro o u
  have hp : parse o.authzEndpoint = .ok u := by decide
  have hr : Reparses u := ⟨by decide, by decide, by decide, by decide⟩
  have hk : ∀ k ∈ authKeys, u.query.lookup k = [] := by decide
  exact ⟨hp, hr, hk, auth_decodes (fun _ => []) o hp hr hk⟩

/-- An IPv6 endpoint whose zone holds the two bytes of `é`. -/
def zoneEndpoint : Bytes := ascii "https://[fe80::1%25" ++ [0xC3, 0xA9] ++ ascii "]/authorize"

/-- `url.Parse` accepts `zoneEndpoint`, but not the URL `Auth` builds from it: `String` writes
the zone's bytes as `%C3%A9`, and the zone encoding refuses to unescape `%C3`. -/
theorem auth_zone_unparsable :
    (parse zoneEndpoint).toBool = true ∧
      (Oauth.auth (fun _ => []) { authzEndpoint := zoneEndpoint }).map parse =
        .ok (.error (.escape (.escape (ascii "%C3")))) := by
  decide

/-! ## Exchanges bound to the URL -/

theorem shouldEscape_urlAlphabet :
    (Base64.urlAlphabet.all fun x => !shouldEscape x .queryComponent) = true := by
  decide

/-- **The PKCE challenge keeps the digest, and the URL carries it as it is.** Two verifiers
get the same `code_challenge` exactly when their digests are equal; the challenge is
`⌈4n/3⌉` characters for an `n`-byte digest; and `QueryEscape` leaves it unchanged, so the
query `Auth` writes holds the challenge byte for byte. -/
theorem codeChallengeS256_faithful (sha256 : Bytes → Bytes) (v v' : Bytes) :
    (codeChallengeS256 sha256 v = codeChallengeS256 sha256 v' ↔ sha256 v = sha256 v') ∧
      (codeChallengeS256 sha256 v).length = (4 * (sha256 v).length + 2) / 3 ∧
      queryEscape (codeChallengeS256 sha256 v) = codeChallengeS256 sha256 v :=
  ⟨⟨Base64.rawURLEncode_inj, congrArg _⟩, Base64.length_rawURLEncode _,
    escape_eq_self fun x hx => by
      simpa using List.all_eq_true.1 shouldEscape_urlAlphabet x (Base64.mem_rawURLEncode _ x hx)⟩

end Command
end StepOAuth
