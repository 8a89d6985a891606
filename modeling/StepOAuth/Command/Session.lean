import StepOAuth.Command.Listen
import StepOAuth.Command.Handler
import StepOAuth.Go.Path

/-!
# Sessions: `newOauth` and `disco`

`newOauth` draws the session's secrets (`state`, the PKCE verifier, `nonce`) and fills in the
endpoints: Google's own, the ones given on the command line or in the account file, or, for
any other provider, the ones its OpenID discovery document names.

The world is a record of what the command reads from it (`Env`): randomness, the network,
files, the terminal, the browser, the clock, the listener, SHA-256 and the JWT signer. A
statement over every `Env` holds whatever those answer.

* `discoveredEndpoints_cases`: a discovery document gives its two string endpoints, an error
  for a missing key, or a panic exactly when both keys are present and one value is not a
  string;
* `newOauth_disco_cases`: the same for the session `newOauth` builds, with `disco`'s own
  failure. `newOauth_number_endpoint` is one such panic, on a numeric `authorization_endpoint`.
-/

namespace StepOAuth
namespace Command

open Go Url

/-- Why a POST to the token endpoint gave no token. -/
inductive PostError
  /-- `http.PostForm` failed. -/
  | transport (text : Bytes)
  /-- The body did not decode into a `token`. -/
  | decode (text : Bytes)
  deriving DecidableEq, Repr

/-- The error's text. -/
def PostError.text : PostError → Bytes
  | .transport t | .decode t => t

/-- The claims of a JWT the service-account flows sign. -/
structure JwtClaims where
  aud : Bytes
  iss : Bytes
  /-- Only the self-signed JWT has a subject. -/
  sub : Option Bytes := none
  /-- Only the JWT-bearer assertion has a scope. -/
  scope : Option Bytes := none
  nbf : Int
  iat : Int
  exp : Int
  deriving DecidableEq, Repr

/-- Where signing a JWT with a PEM key stops, in the order the source tries. -/
inductive SignError
  /-- `pem.Decode` found no block. -/
  | noPemBlock
  /-- `x509.ParsePKCS8PrivateKey` failed. -/
  | parseKey (e : Err)
  /-- `jose.NewSigner` failed. -/
  | newSigner (e : Err)
  /-- `CompactSerialize` failed. -/
  | serialize (e : Err)
  deriving DecidableEq, Repr

/-- The error a service-account flow returns when signing stops. -/
def SignError.err : SignError → Err
  | .noPemBlock => .msg "failed to read private key pem block"
  | .parseKey e => .wrap "error parsing private key" e
  | .newSigner e => .wrap "error creating JWT signer" e
  | .serialize e => .wrap "error serializing JWT" e

/-- The world as `step oauth` sees it. -/
structure Env where
  /-- `randutil.Alphanumeric(32)`, the session's `state`. -/
  randState : Except Err Bytes
  /-- `randutil.Alphanumeric(64)`, the PKCE verifier. -/
  randChallenge : Except Err Bytes
  /-- `randutil.Hex(64)`, the `nonce`. -/
  randNonce : Except Err Bytes
  /-- `http.Get(url)` and reading the body. -/
  httpGet : Bytes → Except Err Bytes
  /-- `http.PostForm(url, form)` and decoding the body into a `token`. -/
  postToken : Bytes → Values → Except PostError Token
  /-- `json.Unmarshal` into a `map[string]interface{}`. -/
  unmarshal : Bytes → Except Err JsonObject
  /-- `ioutil.ReadFile(name)`. -/
  readFile : Bytes → Except Err Bytes
  /-- `utils.ReadString(os.Stdin)`. -/
  readLine : Except Err Bytes
  /-- Whether `exec.OpenInBrowser(url, browser)` succeeded. -/
  openBrowser : Bytes → Bytes → Bool
  /-- `net.Listen("tcp", addr)`. -/
  listen : Bytes → Except Err BoundAddr
  /-- `time.Now().Unix()`. -/
  now : Int
  /-- `sha256.Sum256`. -/
  sha256 : Bytes → Bytes
  /-- Decoding the PEM key, parsing it, and signing the claims with RS256 under the key id. -/
  signJWT : (pem kid : Bytes) → JwtClaims → Except SignError Bytes

/-! ## `disco` -/

/-- The OpenID discovery suffix. -/
def wellKnown : Bytes := ascii "/.well-known/openid-configuration"

/-- The URL `disco` fetches, for the parsed provider URL: the suffix joined to the path with
`path.Join`, unless the path holds it already. `RawPath` is left as it was. -/
def discoURL (u : URL) : URL :=
  if wellKnown <:+: u.path then u else { u with path := Path.join [u.path, wellKnown] }

/-- `disco(provider)`: the provider's discovery document. -/
def disco (env : Env) (provider : Bytes) : Except Err JsonObject :=
  match Url.parse provider with
  | .error e => .error (.url e)
  | .ok u =>
      let s := (discoURL u).string
      match env.httpGet s with
      | .error e => .error (.wrap (ascii "error retrieving " ++ s) e)
      | .ok b =>
          match env.unmarshal b with
          | .error e =>
              .error (.wrap (ascii "error reading " ++ s ++ ascii ": unsupported format") e)
          | .ok d => .ok d

/-! ## `newOauth` -/

/-- Google's authorization endpoint. -/
def googleAuthzEndpoint : Bytes := ascii "https://accounts.google.com/o/oauth2/v2/auth"

/-- Google's token endpoint. -/
def googleTokenEndpoint : Bytes := ascii "https://www.googleapis.com/oauth2/v4/token"

/-- The `oauth` value both branches of `newOauth` build. -/
def mkOauth (clientID clientSecret scope prompt authzEp tokenEp state challenge nonce : Bytes)
    (opts : Options) : Oauth where
  clientID := clientID
  clientSecret := clientSecret
  scope := scope
  prompt := prompt
  authzEndpoint := authzEp
  tokenEndpoint := tokenEp
  loginHint := opts.email
  state := state
  codeChallenge := challenge
  nonce := nonce
  implicit := opts.implicit
  callbackListener := opts.callbackListener
  callbackListenerURL := opts.callbackListenerURL
  callbackPath := opts.callbackPath
  terminalRedirect := opts.terminalRedirect
  browser := opts.browser

/-- The endpoints of a discovery document: each must be present, and is asserted to be a
string (`token_endpoint` twice, the second time for the unused `userInfoEndpoint`). -/
def discoveredEndpoints (d : JsonObject) : Result (Bytes × Bytes) :=
  if (d.get "authorization_endpoint").isNone then
    .error (.error (.msg "missing 'authorization_endpoint' in provider metadata"))
  else if (d.get "token_endpoint").isNone then
    .error (.error (.msg "missing 'token_endpoint' in provider metadata"))
  else do
    let authzEp ← assertString (d.get "authorization_endpoint")
    let tokenEp ← assertString (d.get "token_endpoint")
    let _ ← assertString (d.get "token_endpoint")
    pure (authzEp, tokenEp)

section Discovered

variable {d : JsonObject}

theorem discoveredEndpoints_eq_ok {a t : Bytes} :
    discoveredEndpoints d = .ok (a, t) ↔
      d.get "authorization_endpoint" = some (.string a) ∧
        d.get "token_endpoint" = some (.string t) := by
  unfold discoveredEndpoints
  rcases assertString_cases (d.get "authorization_endpoint") with ⟨a', ha, ha'⟩ | ⟨ha, m, ha'⟩ <;>
    rcases assertString_cases (d.get "token_endpoint") with ⟨t', ht, ht'⟩ | ⟨ht, m', ht'⟩ <;>
    simp only [ha', ht', bind, Except.bind, pure, Except.pure] <;> split_ifs <;> simp_all

/-- Both keys present, one value not a string: a panic. -/
theorem discoveredEndpoints_panic (ha : d.get "authorization_endpoint" ≠ none)
    (ht : d.get "token_endpoint" ≠ none)
    (hns : (∀ s, d.get "authorization_endpoint" ≠ some (.string s)) ∨
      ∀ s, d.get "token_endpoint" ≠ some (.string s)) :
    ∃ m, discoveredEndpoints d = .error (.panic m) := by
  unfold discoveredEndpoints
  rw [if_neg (by simpa using ha), if_neg (by simpa using ht)]
  rcases assertString_cases (d.get "authorization_endpoint") with ⟨a, ha, ha'⟩ | ⟨-, m, ha'⟩
  · rcases assertString_cases (d.get "token_endpoint") with ⟨t, ht, -⟩ | ⟨-, m, ht'⟩
    · rcases hns with h | h
      · exact absurd ha (h a)
      · exact absurd ht (h t)
    · exact ⟨m, by simp [ha', ht', bind, Except.bind]⟩
  · exact ⟨m, by simp [ha', bind, Except.bind]⟩

/-- Every document gives its two string endpoints, an error for a missing key, or a panic
exactly when both keys are present and one value is not a string. -/
theorem discoveredEndpoints_cases (d : JsonObject) :
    (∃ a t, d.get "authorization_endpoint" = some (.string a) ∧
      d.get "token_endpoint" = some (.string t) ∧ discoveredEndpoints d = .ok (a, t)) ∨
    ((d.get "authorization_endpoint" = none ∨ d.get "token_endpoint" = none) ∧
      ∃ e, discoveredEndpoints d = .error (.error e)) ∨
    (d.get "authorization_endpoint" ≠ none ∧ d.get "token_endpoint" ≠ none ∧
      (¬ ∃ a t, d.get "authorization_endpoint" = some (.string a) ∧
        d.get "token_endpoint" = some (.string t)) ∧
      ∃ m, discoveredEndpoints d = .error (.panic m)) := by
  by_cases ha : d.get "authorization_endpoint" = none
  · exact .inr (.inl ⟨.inl ha, .msg "missing 'authorization_endpoint' in provider metadata",
      by simp [discoveredEndpoints, ha]⟩)
  by_cases ht : d.get "token_endpoint" = none
  · exact .inr (.inl ⟨.inr ht, .msg "missing 'token_endpoint' in provider metadata",
      by simp [discoveredEndpoints, ha, ht]⟩)
  by_cases hstr : ∃ a t, d.get "authorization_endpoint" = some (.string a) ∧
      d.get "token_endpoint" = some (.string t)
  · obtain ⟨a, t, h1, h2⟩ := hstr
    exact .inl ⟨a, t, h1, h2, discoveredEndpoints_eq_ok.2 ⟨h1, h2⟩⟩
  -- one of the two present values is not a string
  have hns : (∀ s, d.get "authorization_endpoint" ≠ some (.string s)) ∨
      ∀ s, d.get "token_endpoint" ≠ some (.string s) := by
    by_cases hA : ∃ a, d.get "authorization_endpoint" = some (.string a)
    · obtain ⟨a, ha'⟩ := hA
      exact .inr fun t ht' => hstr ⟨a, t, ha', ht'⟩
    · exact .inl fun s hs => hA ⟨s, hs⟩
  exact .inr (.inr ⟨ha, ht, hstr, discoveredEndpoints_panic ha ht hns⟩)

end Discovered

/-- `newOauth(provider, clientID, clientSecret, authzEp, tokenEp, scope, prompt, opts)`. -/
def newOauth (env : Env) (provider clientID clientSecret authzEp tokenEp scope prompt : Bytes)
    (opts : Options) : Result Oauth :=
  match env.randState, env.randChallenge, env.randNonce with
  | .error e, _, _ | .ok _, .error e, _ | .ok _, .ok _, .error e => .error (.error e)
  | .ok state, .ok challenge, .ok nonce =>
      let mk := fun a t => mkOauth clientID clientSecret scope prompt a t state challenge nonce opts
      if provider = ascii "google" then .ok (mk googleAuthzEndpoint googleTokenEndpoint)
      else if authzEp = [] ∧ tokenEp = [] then
        match disco env provider with
        | .error e => .error (.error e)
        | .ok d => (discoveredEndpoints d).map fun (a, t) => mk a t
      else .ok (mk authzEp tokenEp)

/-- A world whose every JSON document decodes to `doc`, whose token endpoint answers `reply`,
and where everything else succeeds. -/
def fixedWorld (doc : JsonObject) (reply : Except PostError Token) : Env where
  randState := .ok (List.replicate 32 'a'.toUInt8)
  randChallenge := .ok (List.replicate 64 'b'.toUInt8)
  randNonce := .ok (List.replicate 64 'c'.toUInt8)
  httpGet _ := .ok []
  postToken _ _ := reply
  unmarshal _ := .ok doc
  readFile _ := .ok []
  readLine := .ok "code"
  openBrowser _ _ := true
  listen _ := .error (.ext "no network")
  now := 0
  sha256 _ := []
  signJWT _ _ _ := .ok "header.claims.signature"

section NewOauth

variable {env : Env} {provider clientID clientSecret authzEp tokenEp scope prompt : Bytes}
  {opts : Options} {o : Oauth}

/-- The `google` branch: Google's endpoints, with the client it was given. -/
theorem newOauth_google (h : newOauth env (ascii "google") clientID clientSecret authzEp tokenEp
    scope prompt opts = .ok o) :
    o.authzEndpoint = googleAuthzEndpoint ∧ o.tokenEndpoint = googleTokenEndpoint ∧
      o.clientID = clientID ∧ o.clientSecret = clientSecret := by
  unfold newOauth at h
  split at h
  · cases h
  · cases h
  · cases h
  · rw [if_pos rfl] at h
    cases h
    exact ⟨rfl, rfl, rfl, rfl⟩

/-- The discovery branch: once the secrets are drawn, `newOauth` builds the session from the
endpoints `discoveredEndpoints` reads, or fails as it does. -/
theorem newOauth_disco (hg : provider ≠ ascii "google") (he : authzEp = [] ∧ tokenEp = [])
    (hd : disco env provider = .ok d) (hs : env.randState = .ok state)
    (hc : env.randChallenge = .ok challenge) (hn : env.randNonce = .ok nonce) :
    newOauth env provider clientID clientSecret authzEp tokenEp scope prompt opts =
      (discoveredEndpoints d).map fun (a, t) =>
        mkOauth clientID clientSecret scope prompt a t state challenge nonce opts := by
  simp only [newOauth, hs, hc, hn, if_neg hg, if_pos he, hd]

/-- **What the discovery branch does with every document.** For a provider other than
`google` and no endpoint given, once the secrets are drawn: `disco`'s error is returned; a
document with both endpoints as strings gives the session on them; a missing key gives an
error; and a document with both keys, one not a string, makes `newOauth` panic. -/
theorem newOauth_disco_cases (hg : provider ≠ ascii "google") (he : authzEp = [] ∧ tokenEp = [])
    (hs : env.randState = .ok state) (hc : env.randChallenge = .ok challenge)
    (hn : env.randNonce = .ok nonce) :
    let r := newOauth env provider clientID clientSecret authzEp tokenEp scope prompt opts
    (∃ e, disco env provider = .error e ∧ r = .error (.error e)) ∨
    ∃ d, disco env provider = .ok d ∧
      ((∃ a t, d.get "authorization_endpoint" = some (.string a) ∧
          d.get "token_endpoint" = some (.string t) ∧
          r = .ok (mkOauth clientID clientSecret scope prompt a t state challenge nonce opts)) ∨
        ((d.get "authorization_endpoint" = none ∨ d.get "token_endpoint" = none) ∧
          ∃ e, r = .error (.error e)) ∨
        (d.get "authorization_endpoint" ≠ none ∧ d.get "token_endpoint" ≠ none ∧
          (¬ ∃ a t, d.get "authorization_endpoint" = some (.string a) ∧
            d.get "token_endpoint" = some (.string t)) ∧
          ∃ m, r = .error (.panic m))) := by
  intro r
  rcases hd : disco env provider with e | d
  · exact .inl ⟨e, rfl, by simp only [r, newOauth, hs, hc, hn, if_neg hg, if_pos he, hd]⟩
  refine .inr ⟨d, rfl, ?_⟩
  have hr : r = (discoveredEndpoints d).map fun (a, t) =>
      mkOauth clientID clientSecret scope prompt a t state challenge nonce opts :=
    newOauth_disco hg he hd hs hc hn
  rcases discoveredEndpoints_cases d with ⟨a, t, h1, h2, h⟩ | ⟨hm, e, h⟩ | ⟨h1, h2, h3, m, h⟩ <;>
    rw [hr, h]
  · exact .inl ⟨a, t, h1, h2, rfl⟩
  · exact .inr (.inl ⟨hm, e, rfl⟩)
  · exact .inr (.inr ⟨h1, h2, h3, m, rfl⟩)

/-- `newOauth_disco_cases` for a document whose `authorization_endpoint` is a number. -/
theorem newOauth_disco_cases_number :
    let env := fixedWorld [("authorization_endpoint", .number),
      ("token_endpoint", .string "https://idp.example/token")] (.error (.transport []))
    let r := newOauth env "https://idp.example" "id" "secret" [] [] "openid" [] {}
    ascii "https://idp.example" ≠ ascii "google" ∧
      ((∃ e, disco env "https://idp.example" = .error e ∧ r = .error (.error e)) ∨
      ∃ d, disco env "https://idp.example" = .ok d ∧
        ((∃ a t, d.get "authorization_endpoint" = some (.string a) ∧
            d.get "token_endpoint" = some (.string t) ∧
            r = .ok (mkOauth "id" "secret" "openid" [] a t (List.replicate 32 'a'.toUInt8)
              (List.replicate 64 'b'.toUInt8) (List.replicate 64 'c'.toUInt8) {})) ∨
          ((d.get "authorization_endpoint" = none ∨ d.get "token_endpoint" = none) ∧
            ∃ e, r = .error (.error e)) ∨
          (d.get "authorization_endpoint" ≠ none ∧ d.get "token_endpoint" ≠ none ∧
            (¬ ∃ a t, d.get "authorization_endpoint" = some (.string a) ∧
              d.get "token_endpoint" = some (.string t)) ∧
            ∃ m, r = .error (.panic m)))) :=
  ⟨by decide, newOauth_disco_cases (by decide) ⟨rfl, rfl⟩ rfl rfl rfl⟩

/-- A discovery document whose `authorization_endpoint` is a number makes `newOauth` panic on
the type assertion `d["authorization_endpoint"].(string)`. -/
theorem newOauth_number_endpoint :
    newOauth (fixedWorld [("authorization_endpoint", .number),
        ("token_endpoint", .string "https://idp.example/token")] (.error (.transport [])))
      "https://idp.example" "id" "secret" [] [] "openid email" [] {} =
      .error (.panic "interface conversion: interface {} is float64, not string") := by
  decide

end NewOauth

end Command
end StepOAuth
