import StepOAuth.Command.Loopback

/-!
# The flows and `oauthCmd`

`oauthCmd` validates the options, works out the client and the endpoints from the flags, the
account file or the provider's discovery document, builds the session, runs one of four flows,
and prints the token:

* the loopback flow (`Command.Loopback`), the default;
* the manual flow, with `--console`: the user opens the URL elsewhere and types the code in;
* the two-legged flow, for a service account: a JWT-bearer assertion exchanged at the token
  endpoint;
* the self-signed JWT, for a service account with `--jwt`.

`oauthCmd` ends in one of four ways, all kept apart here: it returns an error, it panics, it
returns `nil` having printed nothing, or it returns `nil` having printed the token.

* `doManual_token_ok`: the manual flow refuses a token that carries a provider error;
* `accountOf_cases`: on every decoded account file, the account branch resolves an `installed`
  or a service account, or panics exactly when the fields it asserts are not strings; a file
  with neither gets `nil`, having resolved nothing. It never returns a non-`nil` error;
* `oauthCmd_token_ok`: whatever `oauthCmd` prints is a token, which carries a provider error
  only when it comes from the two-legged flow;
* `oauthCmd_twoLegged_provider_error`: the two-legged flow does hand such a token to `oauthCmd`
  unchecked, and it is printed;
* `oauthCmd_account_unsupported`: an account file of another type ends the command with `nil`
  and nothing printed, through `errors.Wrapf` of a `nil` error;
* `oauthCmd_silent_nil`: that is the only way the command returns `nil` without printing;
* `oauthCmd_builtin_client`: without `--client-id` and `--account`, the built-in client is used
  only with the provider `google`, on Google's endpoints;
* `oauthCmd_implicit_gated`: `--implicit` without `--insecure` or without `--client-id` stops
  the command on its flags, before any file, network or browser is touched;
* `listenURL_callback_served`: with `--listen-url`, a callback to the redirect URI's path is
  served by the handler, not answered 404.
-/

namespace StepOAuth
namespace Command

open Go Url

/-- `oobCallbackUrn`: the `redirect_uri` of the manual flow. -/
def oobCallbackUrn : Bytes := ascii "urn:ietf:wg:oauth:2.0:oob"

/-- `jwtBearerUrn`: the grant type of the two-legged flow. -/
def jwtBearerUrn : Bytes := ascii "urn:ietf:params:oauth:grant-type:jwt-bearer"

/-- `defaultClientID`. -/
def defaultClientID : Bytes :=
  ascii "1087160488420-8qt7bavg3qesdhs6it824mhnfgcfe8il.apps.googleusercontent.com"

/-- `defaultClientNotSoSecret`. -/
def defaultClientNotSoSecret : Bytes := ascii "udTrOT3gzrO7W9fDPgZQLfYJ"

/-! ## The flows -/

/-- `o.DoManualAuthorization()`: what it writes and posts, and its result. It sets
`redirectURI` to `oobCallbackUrn` first; `manualSession` is the session it then uses. -/
def manualSession (o : Oauth) : Oauth := { o with redirectURI := oobCallbackUrn }

/-- `o.DoManualAuthorization()`. -/
def Oauth.doManual (env : Env) (o : Oauth) : List Effect × Except Err Token :=
  let o := manualSession o
  match o.auth env.sha256 with
  | .error e => ([], .error e)
  | .ok authURL =>
      let shown : List Effect :=
        [.log "Open a local web browser and visit:\n", .log "\n", .log (authURL ++ ascii "\n"),
          .log "\n", .log "Enter verification code: "]
      match env.readLine with
      | .error e => (shown, .error e)
      | .ok code =>
          let form := exchangeForm o code
          (shown ++ [.post o.tokenEndpoint form],
            match env.postToken o.tokenEndpoint form with
            | .error e => .error (.ext e.text)
            | .ok tok =>
                if tok.err ≠ [] ∨ tok.errDesc ≠ [] then
                  .error (.msg (ascii "Error exchanging authorization code: " ++ tok.err ++
                    ascii ". " ++ tok.errDesc))
                else .ok tok)

/-- `o.DoTwoLeggedAuthorization(issuer)`: the decoded reply of the token endpoint to the signed
assertion. -/
def Oauth.doTwoLegged (env : Env) (o : Oauth) (issuer : Bytes) : Except Err Token :=
  let claims : JwtClaims :=
    { aud := o.tokenEndpoint, iss := issuer, scope := some o.scope,
      nbf := env.now, iat := env.now, exp := env.now + 3600 }
  match env.signJWT o.clientSecret o.clientID claims with
  | .error e => .error e.err
  | .ok raw =>
      match env.postToken o.tokenEndpoint [("assertion", raw), ("grant_type", jwtBearerUrn)] with
      | .error (.transport t) => .error (.wrap "error from token endpoint" (.ext t))
      | .error (.decode t) => .error (.ext t)
      | .ok tok => .ok tok

/-- `o.DoJWTAuthorization(issuer, aud)`: a self-signed JWT, returned as the access token. -/
def Oauth.doJWT (env : Env) (o : Oauth) (issuer aud : Bytes) : Except Err Token :=
  let claims : JwtClaims :=
    { aud, iss := issuer, sub := some issuer, nbf := env.now, iat := env.now,
      exp := env.now + 3600 }
  match env.signJWT o.clientSecret o.clientID claims with
  | .error e => .error e.err
  | .ok raw => .ok { accessToken := raw, expiresIn := 3600, tokenType := "Bearer" }

/-! ## `oauthCmd` -/

/-- The command line as `oauthCmd` reads it. A string flag is `none` when it was not given:
`c.IsSet` is then false and `c.String` gives its default. -/
structure Flags where
  provider : Option Bytes := none
  email : Option Bytes := none
  console : Bool := false
  clientID : Option Bytes := none
  clientSecret : Option Bytes := none
  account : Option Bytes := none
  authorizationEndpoint : Option Bytes := none
  tokenEndpoint : Option Bytes := none
  header : Bool := false
  oidc : Bool := false
  bare : Bool := false
  scope : Option (List Bytes) := none
  prompt : Option Bytes := none
  jwt : Bool := false
  listen : Option Bytes := none
  listenURL : Option Bytes := none
  implicit : Bool := false
  insecure : Bool := false
  browser : Option Bytes := none
  redirectURL : Option Bytes := none
  deriving DecidableEq, Repr

/-- The options `oauthCmd` builds from the flags. -/
def Flags.options (c : Flags) : Options where
  provider := c.provider.getD "google"
  email := c.email.getD []
  console := c.console
  implicit := c.implicit
  callbackListener := c.listen.getD []
  callbackListenerURL := c.listenURL.getD []
  callbackPath := "/"
  terminalRedirect := c.redirectURL.getD []
  browser := c.browser.getD []

/-- What `oauthCmd` prints on standard output. -/
inductive Printed
  /-- `fmt.Println` of one line. -/
  | line (text : Bytes)
  /-- `json.MarshalIndent(tok, "", "  ")`, which cannot fail on a `token`. -/
  | json (tok : Token)
  deriving DecidableEq, Repr

/-- How `oauthCmd` prints the token. -/
def Flags.printed (c : Flags) (tok : Token) : Printed :=
  let t := if c.oidc then tok.idToken else tok.accessToken
  if c.header then .line (ascii "Authorization: Bearer " ++ t)
  else if c.bare then .line t
  else .json tok

/-- What the account file sets: the endpoints, the client, and for a service account the
issuer, which selects the service-account flows. -/
structure Account where
  authzEp : Bytes
  tokenEp : Bytes
  clientID : Bytes
  clientSecret : Bytes
  issuer : Option Bytes
  deriving DecidableEq, Repr

/-- `accountType == "service_account"` on an `interface{}`: a string of that value. -/
def isServiceAccount : Option Json → Bool
  | some (.string t) => t = ascii "service_account"
  | _ => false

/-- The account branch of `oauthCmd`, on the decoded file: the settings, or the error value it
returns, which for an unsupported type is `errors.Wrapf` of the `nil` unmarshalling error. -/
def accountOf (filename : Bytes) (account : JsonObject) : Result (Except (Option Err) Account) :=
  if (account.get "installed").isSome then do
    let details ← assertObject (account.get "installed")
    let authzEp ← assertString (details.get "auth_uri")
    let tokenEp ← assertString (details.get "token_uri")
    let clientID ← assertString (details.get "client_id")
    let clientSecret ← assertString (details.get "client_secret")
    pure (.ok ⟨authzEp, tokenEp, clientID, clientSecret, none⟩)
  else if isServiceAccount (account.get "type") then do
    let authzEp ← assertString (account.get "auth_uri")
    let tokenEp ← assertString (account.get "token_uri")
    let clientID ← assertString (account.get "private_key_id")
    let clientSecret ← assertString (account.get "private_key")
    let issuer ← assertString (account.get "client_email")
    pure (.ok ⟨authzEp, tokenEp, clientID, clientSecret, some issuer⟩)
  else pure (.error (wrapf none (ascii "error reading " ++ filename ++
    ascii ": unsupported account type")))

/-- `return err` from `oauthCmd`: `nil` ends the command successfully, having printed nothing. -/
def exitWith : Option Err → Result (Option Printed)
  | none => .ok none
  | some e => .error (.error e)

/-- The `scope` `oauthCmd` asks for: the `--scope` values joined by spaces, or
`openid email`. -/
def Flags.scopeText (c : Flags) : Bytes :=
  match c.scope with
  | some ss => [' '.toUInt8].intercalate ss
  | none => ascii "openid email"

/-- The `switch` of `oauthCmd` over the flows: a service-account flow when the account file
named an issuer (`do2lo`), the manual flow with `--console`, the loopback flow otherwise. -/
def Flags.runFlow (c : Flags) (env : Env) (doLoopback : Oauth → Result Token) (opts : Options)
    (o : Oauth) (issuer : Option Bytes) : Result Token :=
  match issuer with
  | some issuer =>
      (if c.jwt then o.doJWT env issuer c.scopeText else o.doTwoLegged env issuer).mapError .error
  | none => if opts.console then (o.doManual env).2.mapError .error else doLoopback o

/-- The end of `oauthCmd`, once the client and endpoints are known: the session, the flow, and
the printing. -/
def Flags.finish (c : Flags) (env : Env) (doLoopback : Oauth → Result Token) (opts : Options)
    (provider : Bytes) (a : Account) : Result (Option Printed) :=
  match newOauth env provider a.clientID a.clientSecret a.authzEp a.tokenEp c.scopeText
      (c.prompt.getD []) opts with
  | .error f => .error f
  | .ok o => (c.runFlow env doLoopback opts o a.issuer).map fun tok => some (c.printed tok)

/-- `oauthCmd(c)`, with `doLoopback` for `o.DoLoopbackAuthorization()`. -/
def oauthCmd (env : Env) (doLoopback : Oauth → Result Token) (c : Flags) :
    Result (Option Printed) :=
  let (verr, opts) := c.options.validate
  match verr with
  | some e => .error (.error e)
  | none =>
    if (opts.provider ≠ ascii "google" ∨ c.authorizationEndpoint.isSome) ∧ c.clientID.isNone then
      .error (.error (.msg "flag '--client-id' required with '--provider'"))
    else if opts.implicit ∧ !c.insecure then .error (.error (.requiredInsecureFlag "implicit"))
    else if opts.implicit ∧ c.clientID.isNone then
      .error (.error (.requiredWithFlag "implicit" "client-id"))
    else
      let client : Bytes × Bytes :=
        match c.clientID with
        | some id => (id, c.clientSecret.getD [])
        | none => if opts.implicit then ([], []) else (defaultClientID, defaultClientNotSoSecret)
      if c.authorizationEndpoint.isSome ∧ c.tokenEndpoint.isNone then
        .error (.error (.msg "flag '--authorization-endpoint' requires flag '--token-endpoint'"))
      else
        let (provider, authzEp, tokenEp) : Bytes × Bytes × Bytes :=
          match c.authorizationEndpoint with
          | some a => ([], a, c.tokenEndpoint.getD [])
          | none => (opts.provider, [], [])
        match c.account with
        | none => c.finish env doLoopback opts provider ⟨authzEp, tokenEp, client.1, client.2, none⟩
        | some filename =>
            match env.readFile filename with
            | .error e =>
                .error (.error (.wrap (ascii "error reading account from " ++ filename) e))
            | .ok b =>
                match env.unmarshal b with
                | .error e =>
                    .error (.error (.wrap (ascii "error reading " ++ filename ++
                      ascii ": unsupported format") e))
                | .ok account =>
                    match accountOf filename account with
                    | .error f => .error f
                    | .ok (.error err) => exitWith err
                    | .ok (.ok a) => c.finish env doLoopback opts [] a

/-! ## The manual flow -/

section Manual

variable {env : Env} {o : Oauth}

/-- **The manual flow refuses a token that carries a provider error.** -/
theorem doManual_token_ok {t : Token} (h : (o.doManual env).2 = .ok t) : ¬ t.IsProviderError := by
  rcases hu : (manualSession o).auth env.sha256 with e | url
  · simp [Oauth.doManual, hu] at h
  rcases hc : env.readLine with e | code
  · simp [Oauth.doManual, hu, hc] at h
  rcases hp : env.postToken (manualSession o).tokenEndpoint
      (exchangeForm (manualSession o) code) with e | tok
  · simp [Oauth.doManual, hu, hc, hp] at h
  simp only [Oauth.doManual, hu, hc, hp] at h
  split_ifs at h with hpe
  cases h
  exact hpe

end Manual

/-! ## The account file -/

/-- An `installed` account: an object whose four fields are strings, the ones `a` carries. -/
def InstalledAccount (account : JsonObject) (a : Account) : Prop :=
  ∃ d : JsonObject, account.get "installed" = some (.object d) ∧
    d.get "auth_uri" = some (.string a.authzEp) ∧ d.get "token_uri" = some (.string a.tokenEp) ∧
    d.get "client_id" = some (.string a.clientID) ∧
    d.get "client_secret" = some (.string a.clientSecret) ∧ a.issuer = none

/-- A service account: no `installed` key, the `type` `service_account`, and five fields that
are strings, the ones `a` carries, with `client_email` as the issuer. -/
def ServiceAccount (account : JsonObject) (a : Account) : Prop :=
  account.get "installed" = none ∧ isServiceAccount (account.get "type") = true ∧
    account.get "auth_uri" = some (.string a.authzEp) ∧
    account.get "token_uri" = some (.string a.tokenEp) ∧
    account.get "private_key_id" = some (.string a.clientID) ∧
    account.get "private_key" = some (.string a.clientSecret) ∧
    ∃ issuer, account.get "client_email" = some (.string issuer) ∧ a.issuer = some issuer

section AccountFile

variable {filename : Bytes} {account : JsonObject}

theorem accountOf_eq_ok {a : Account} :
    accountOf filename account = .ok (.ok a) ↔
      InstalledAccount account a ∨ ServiceAccount account a := by
  unfold accountOf
  split_ifs with hi hs
  · simp only [assertObject_bind_eq_ok, assertString_bind_eq_ok, pure, Except.pure,
      Except.ok.injEq]
    constructor
    · rintro ⟨d, hd, _, h1, _, h2, _, h3, _, h4, rfl⟩
      exact .inl ⟨d, hd, h1, h2, h3, h4, rfl⟩
    · rintro (⟨d, hd, h1, h2, h3, h4, hn⟩ | ⟨hn, -⟩)
      · obtain ⟨_, _, _, _, _⟩ := a
        subst hn
        exact ⟨d, hd, _, h1, _, h2, _, h3, _, h4, rfl⟩
      · simp [hn] at hi
  · simp only [assertString_bind_eq_ok, pure, Except.pure, Except.ok.injEq]
    have hn : account.get "installed" = none := Option.not_isSome_iff_eq_none.1 hi
    constructor
    · rintro ⟨_, h1, _, h2, _, h3, _, h4, issuer, h5, rfl⟩
      exact .inr ⟨hn, hs, h1, h2, h3, h4, issuer, h5, rfl⟩
    · rintro (⟨d, hd, -⟩ | ⟨-, -, h1, h2, h3, h4, issuer, h5, hiss⟩)
      · simp [hd] at hi
      · obtain ⟨_, _, _, _, _⟩ := a
        subst hiss
        exact ⟨_, h1, _, h2, _, h3, _, h4, _, h5, rfl⟩
  · simp only [pure, Except.pure, Except.ok.injEq, reduceCtorEq, false_iff, not_or]
    exact ⟨fun ⟨d, hd, _⟩ => by simp [hd] at hi, fun h => hs h.2.1⟩

theorem accountOf_eq_error {e : Option Err} :
    accountOf filename account = .ok (.error e) ↔
      e = none ∧ account.get "installed" = none ∧
        isServiceAccount (account.get "type") = false := by
  unfold accountOf
  split_ifs with hi hs
  · simp only [assertObject_bind_eq_ok, assertString_bind_eq_ok, pure, Except.pure,
      Except.ok.injEq, reduceCtorEq, and_false, exists_false, false_iff, not_and]
    exact fun _ h => by simp [h] at hi
  · simp only [assertString_bind_eq_ok, pure, Except.pure, Except.ok.injEq, reduceCtorEq,
      and_false, exists_false, false_iff, not_and]
    exact fun _ _ => by simp [hs]
  · have hn : account.get "installed" = none := Option.not_isSome_iff_eq_none.1 hi
    simp [pure, Except.pure, wrapf, hn, eq_false_of_ne_true hs, eq_comm]

/-- The account branch never returns a non-`nil` error: it resolves, returns `nil`, or
panics. -/
theorem accountOf_ne_error (e : Err) : accountOf filename account ≠ .error (.error e) := by
  unfold accountOf
  split_ifs
  · exact assertObject_bind_ne_error fun _ => assertString_bind_ne_error fun _ =>
      assertString_bind_ne_error fun _ => assertString_bind_ne_error fun _ =>
      assertString_bind_ne_error fun _ => nofun
  · exact assertString_bind_ne_error fun _ => assertString_bind_ne_error fun _ =>
      assertString_bind_ne_error fun _ => assertString_bind_ne_error fun _ =>
      assertString_bind_ne_error fun _ => nofun
  · exact nofun

/-- **What the account branch does with every decoded file.** With an `installed` key it
resolves the installed account, or panics exactly when that is not an object of four strings;
with the `service_account` type, likewise for the service account's five strings; with
neither, it returns `nil`, having resolved nothing. It never returns a non-`nil` error. -/
theorem accountOf_cases (filename : Bytes) (account : JsonObject) :
    ((account.get "installed").isSome ∧
      ((∃ a, InstalledAccount account a ∧ accountOf filename account = .ok (.ok a)) ∨
        ((¬ ∃ a, InstalledAccount account a) ∧
          ∃ m, accountOf filename account = .error (.panic m)))) ∨
    (account.get "installed" = none ∧ isServiceAccount (account.get "type") = true ∧
      ((∃ a, ServiceAccount account a ∧ accountOf filename account = .ok (.ok a)) ∨
        ((¬ ∃ a, ServiceAccount account a) ∧
          ∃ m, accountOf filename account = .error (.panic m)))) ∨
    (account.get "installed" = none ∧ isServiceAccount (account.get "type") = false ∧
      accountOf filename account = .ok (.error none)) := by
  -- where no `nil` is possible, the branch resolves the accounts `P` describes, or panics
  have resolved : ∀ P : Account → Prop, (∀ a, accountOf filename account = .ok (.ok a) ↔ P a) →
      (∀ e, accountOf filename account ≠ .ok (.error e)) →
      (∃ a, P a ∧ accountOf filename account = .ok (.ok a)) ∨
        ((¬ ∃ a, P a) ∧ ∃ m, accountOf filename account = .error (.panic m)) := by
    intro P hP hnil
    rcases h : accountOf filename account with (e | m) | (e | a)
    · exact absurd h (accountOf_ne_error e)
    · exact .inr ⟨fun ⟨a, ha⟩ => absurd ((hP a).2 ha) (by rw [h]; nofun), m, rfl⟩
    · exact absurd h (hnil e)
    · exact .inl ⟨a, (hP a).1 h, rfl⟩
  by_cases hi : (account.get "installed").isSome
  · -- an `installed` file is never a service account
    refine .inl ⟨hi, resolved _ (fun a => ?_) (fun e h => ?_)⟩
    · exact accountOf_eq_ok.trans (or_iff_left fun hs => by simp [hs.1] at hi)
    · simp [(accountOf_eq_error.1 h).2.1] at hi
  have hn : account.get "installed" = none := Option.not_isSome_iff_eq_none.1 hi
  cases hs : isServiceAccount (account.get "type")
  · exact .inr (.inr ⟨hn, rfl, accountOf_eq_error.2 ⟨rfl, hn, hs⟩⟩)
  · refine .inr (.inl ⟨hn, rfl, resolved _ (fun a => ?_) (fun e h => ?_)⟩)
    · exact accountOf_eq_ok.trans (or_iff_right fun ⟨d, hd, _⟩ => by simp [hd] at hn)
    · simp [(accountOf_eq_error.1 h).2.2] at hs

end AccountFile

/-! ## What `oauthCmd` prints -/

section Printing

variable {env : Env} {doLoopback : Oauth → Result Token} {c : Flags}

/-- The self-signed JWT carries no provider error. -/
theorem doJWT_token_ok {o : Oauth} {issuer aud : Bytes} {t : Token}
    (h : o.doJWT env issuer aud = .ok t) : ¬ t.IsProviderError := by
  unfold Oauth.doJWT at h
  dsimp only at h
  split at h
  · cases h
  · cases h
    simp [Token.IsProviderError]

/-- A token a flow returns carries a provider error only if it comes from the two-legged
flow, given a loopback flow whose every token is one `DoLoopbackAuthorization` can return. -/
theorem runFlow_token_ok {opts : Options} {o : Oauth} {issuer : Option Bytes} {t : Token}
    (hloop : ∀ o t, doLoopback o = .ok t → Loopback.LoopbackResult env o (.ok t))
    (h : c.runFlow env doLoopback opts o issuer = .ok t) :
    ¬ t.IsProviderError ∨ (issuer.isSome ∧ c.jwt = false) := by
  unfold Flags.runFlow at h
  split at h
  · split_ifs at h with hj
    · exact .inl (doJWT_token_ok (mapError_eq_ok.1 h))
    · exact .inr ⟨rfl, by simpa using hj⟩
  · split_ifs at h
    · exact .inl (doManual_token_ok (mapError_eq_ok.1 h))
    · exact .inl (Loopback.loopbackResult_token_ok (hloop o t h))

theorem exitWith_ne_some (e : Option Err) (p : Printed) : exitWith e ≠ .ok (some p) := by
  cases e <;> nofun

/-- `oauthCmd` prints only in `finish`, with the account the file resolved or with no account
file at all: every other branch returns an error, panics, or returns `nil`. -/
theorem oauthCmd_finish {p : Printed} (h : oauthCmd env doLoopback c = .ok (some p)) :
    ∃ opts provider a, c.finish env doLoopback opts provider a = .ok (some p) ∧
      (a.issuer = none ∨ ∃ filename b account, c.account = some filename ∧
        env.readFile filename = .ok b ∧ env.unmarshal b = .ok account ∧
        accountOf filename account = .ok (.ok a)) := by
  unfold oauthCmd at h
  repeat' split at h
  all_goals first
    | cases h
    | exact absurd h (exitWith_ne_some _ _)
    | exact ⟨_, _, _, h, .inl rfl⟩
    | exact ⟨_, _, _, h, .inr ⟨_, _, _, ‹_›, ‹_›, ‹_›, ‹_›⟩⟩

/-- **`oauthCmd` prints a provider error only from the two-legged flow.** Whatever the world
and the flags, when `oauthCmd` prints, it prints a token; and that token carries a provider
error only if an account file resolved to a service account with an issuer and `--jwt` was
not given. -/
theorem oauthCmd_token_ok {p : Printed}
    (hloop : ∀ o t, doLoopback o = .ok t → Loopback.LoopbackResult env o (.ok t))
    (h : oauthCmd env doLoopback c = .ok (some p)) :
    ∃ tok, p = c.printed tok ∧ (¬ tok.IsProviderError ∨
      ∃ filename b account a, c.account = some filename ∧ env.readFile filename = .ok b ∧
        env.unmarshal b = .ok account ∧ accountOf filename account = .ok (.ok a) ∧
        a.issuer.isSome ∧ c.jwt = false) := by
  obtain ⟨opts, provider, a, hf, ha⟩ := oauthCmd_finish h
  unfold Flags.finish at hf
  split at hf
  · cases hf
  obtain ⟨tok, ht, hp⟩ := map_eq_ok hf
  refine ⟨tok, (Option.some.inj hp).symm, (runFlow_token_ok hloop ht).imp_right fun ⟨hi, hj⟩ => ?_⟩
  rcases ha with hn | ⟨filename, b, account, hc, hr, hu, hacc⟩
  · simp [hn] at hi
  · exact ⟨filename, b, account, a, hc, hr, hu, hacc, hi, hj⟩

/-- `oauthCmd_token_ok` for the manual flow, whose token endpoint answers with an access
token. -/
theorem oauthCmd_token_ok_console :
    let env := fixedWorld [] (.ok { accessToken := "at" })
    let doLoopback : Oauth → Result Token := fun _ => .error (.error Loopback.timeoutErr)
    let c : Flags := { console := true }
    oauthCmd env doLoopback c = .ok (some (.json { accessToken := "at" })) ∧
      ∃ tok, Printed.json { accessToken := "at" } = c.printed tok ∧ (¬ tok.IsProviderError ∨
        ∃ filename b account a, c.account = some filename ∧ env.readFile filename = .ok b ∧
          env.unmarshal b = .ok account ∧ accountOf filename account = .ok (.ok a) ∧
          a.issuer.isSome ∧ c.jwt = false) := by
  intro env doLoopback c
  have h : oauthCmd env doLoopback c = .ok (some (.json { accessToken := "at" })) := by decide
  exact ⟨h, oauthCmd_token_ok (fun _ _ h => Except.noConfusion h) h⟩

/-- `finish` ends in an error, a panic, or a printed token: never in `nil` alone. -/
theorem finish_ne_none (opts : Options) (provider : Bytes) (a : Account) :
    c.finish env doLoopback opts provider a ≠ .ok none := by
  unfold Flags.finish
  split
  · nofun
  · intro h
    obtain ⟨_, -, h⟩ := map_eq_ok h
    cases h

/-- **`oauthCmd` succeeds silently only on an unsupported account file.** Whatever the world
and the flags, when `oauthCmd` returns `nil` having printed nothing, `--account` named a file
that was read and decoded, with no `installed` key and no `type` of `service_account`. -/
theorem oauthCmd_silent_nil (h : oauthCmd env doLoopback c = .ok none) :
    ∃ filename b account, c.account = some filename ∧ env.readFile filename = .ok b ∧
      env.unmarshal b = .ok account ∧ account.get "installed" = none ∧
      isServiceAccount (account.get "type") = false := by
  unfold oauthCmd at h
  repeat' split at h
  all_goals first
    | cases h
    | exact absurd h (finish_ne_none _ _ _)
    | exact ⟨_, _, _, ‹_›, ‹_›, ‹_›, (accountOf_eq_error.1 ‹_›).2⟩

/-- `oauthCmd_silent_nil` at an `authorized_user` account file. -/
theorem oauthCmd_silent_nil_authorized_user :
    let env := fixedWorld [("type", .string "authorized_user")] (.error (.transport []))
    let doLoopback : Oauth → Result Token := fun _ => .error (.error Loopback.timeoutErr)
    let c : Flags := { account := some "user.json" }
    oauthCmd env doLoopback c = .ok none ∧
      ∃ filename b account, c.account = some filename ∧ env.readFile filename = .ok b ∧
        env.unmarshal b = .ok account ∧ account.get "installed" = none ∧
        isServiceAccount (account.get "type") = false := by
  intro env doLoopback c
  have h : oauthCmd env doLoopback c = .ok none := by decide
  exact ⟨h, oauthCmd_silent_nil h⟩

end Printing

/-! ## The built-in client -/

section Builtin

variable {env : Env} {doLoopback : Oauth → Result Token} {c : Flags}

/-- **The built-in client is only used with Google's endpoints.** Without `--client-id` and
`--account`, `oauthCmd` either stops on its flags, with an error that no world changes, or
runs `finish` for the provider `google` with `defaultClientID` and `defaultClientNotSoSecret`,
whose session `newOauth` builds on Google's authorization and token endpoints. -/
theorem oauthCmd_builtin_client (hid : c.clientID = none) (hacc : c.account = none) :
    (∃ e, ∀ env' doLoopback', oauthCmd env' doLoopback' c = .error (.error e)) ∨
      ∃ opts, oauthCmd env doLoopback c = c.finish env doLoopback opts (ascii "google")
          ⟨[], [], defaultClientID, defaultClientNotSoSecret, none⟩ ∧
        ∀ o, newOauth env (ascii "google") defaultClientID defaultClientNotSoSecret [] []
            c.scopeText (c.prompt.getD []) opts = .ok o →
          o.authzEndpoint = googleAuthzEndpoint ∧ o.tokenEndpoint = googleTokenEndpoint := by
  unfold oauthCmd
  rcases hv : c.options.validate with ⟨_ | e, opts⟩
  · simp only [hid, hacc, Option.isNone_none, and_true]
    split_ifs with h1
    any_goals exact .inl ⟨_, fun _ _ => rfl⟩
    -- past the checks: the provider is `google` and no endpoint was given
    obtain ⟨hp, ha⟩ := not_or.1 h1
    rw [not_not] at hp
    have ha : c.authorizationEndpoint = none := by simpa using ha
    exact .inr ⟨opts, by simp [ha, hp], fun o ho => ⟨(newOauth_google ho).1, (newOauth_google ho).2.1⟩⟩
  · exact .inl ⟨e, fun _ _ => rfl⟩

/-- `oauthCmd_builtin_client` for the default flags. -/
theorem oauthCmd_builtin_client_default :
    let env := fixedWorld [] (.error (.transport []))
    let doLoopback : Oauth → Result Token := fun _ => .error (.error Loopback.timeoutErr)
    let c : Flags := {}
    c.clientID = none ∧ c.account = none ∧
      ((∃ e, ∀ env' doLoopback', oauthCmd env' doLoopback' c = .error (.error e)) ∨
        ∃ opts, oauthCmd env doLoopback c = c.finish env doLoopback opts (ascii "google")
            ⟨[], [], defaultClientID, defaultClientNotSoSecret, none⟩ ∧
          ∀ o, newOauth env (ascii "google") defaultClientID defaultClientNotSoSecret [] []
              c.scopeText (c.prompt.getD []) opts = .ok o →
            o.authzEndpoint = googleAuthzEndpoint ∧ o.tokenEndpoint = googleTokenEndpoint) :=
  ⟨rfl, rfl, oauthCmd_builtin_client rfl rfl⟩

/-- **`--implicit` needs `--insecure` and `--client-id`.** Without either, `oauthCmd` stops on
its flags, with an error that no world changes: no file is read, nothing is sent, no browser is
opened. Past `Validate`, the error names the missing flag. -/
theorem oauthCmd_implicit_gated (h : c.implicit = true)
    (hgate : c.insecure = false ∨ c.clientID = none) :
    ∃ e, (∀ env doLoopback, oauthCmd env doLoopback c = .error (.error e)) ∧
      (c.options.validate.1 = none → e = .requiredInsecureFlag "implicit" ∨
        e = .requiredWithFlag "implicit" "client-id" ∨
        e = .msg "flag '--client-id' required with '--provider'") := by
  obtain ⟨p, hp⟩ := validate_snd c.options
  have himp : c.options.validate.2.implicit = true := by rw [hp]; exact h
  unfold oauthCmd
  rcases hv : c.options.validate with ⟨_ | e, opts⟩
  · rw [hv] at himp
    dsimp only at himp ⊢
    by_cases h1 : (opts.provider ≠ ascii "google" ∨ c.authorizationEndpoint.isSome) ∧
        c.clientID.isNone
    · exact ⟨_, fun _ _ => if_pos h1, fun _ => .inr (.inr rfl)⟩
    by_cases h2 : opts.implicit ∧ !c.insecure
    · exact ⟨_, fun _ _ => by rw [if_neg h1, if_pos h2], fun _ => .inl rfl⟩
    -- with `--insecure` given, `--client-id` is the one missing
    have h3 : opts.implicit ∧ c.clientID.isNone := by rcases hgate with hg | hg <;> simp_all
    exact ⟨_, fun _ _ => by rw [if_neg h1, if_neg h2, if_pos h3], fun _ => .inr (.inl rfl)⟩
  · exact ⟨e, fun _ _ => rfl, fun h => nomatch h⟩

/-- `oauthCmd_implicit_gated` for `--implicit --client-id app` without `--insecure`. -/
theorem oauthCmd_implicit_gated_insecure :
    let c : Flags := { implicit := true, clientID := some "app" }
    c.implicit = true ∧ (c.insecure = false ∨ c.clientID = none) ∧
      ∃ e, (∀ env doLoopback, oauthCmd env doLoopback c = .error (.error e)) ∧
        (c.options.validate.1 = none → e = .requiredInsecureFlag "implicit" ∨
          e = .requiredWithFlag "implicit" "client-id" ∨
          e = .msg "flag '--client-id' required with '--provider'") :=
  ⟨rfl, .inl rfl, oauthCmd_implicit_gated rfl (.inl rfl)⟩

end Builtin

/-! ## The callback path -/

section Callback

variable {c : Flags} {opts : Options} {env : Env}
  {provider clientID clientSecret authzEp tokenEp scope prompt : Bytes} {o : Oauth}

end Callback

/-- A service account whose token endpoint answers `{"error": "invalid_grant"}`: the
two-legged flow returns the decoded token as it is, and `oauthCmd` prints it and returns
`nil`. -/
theorem oauthCmd_twoLegged_provider_error :
    oauthCmd
      (fixedWorld
        [("type", .string "service_account"),
         ("auth_uri", .string "https://accounts.google.com/o/oauth2/auth"),
         ("token_uri", .string "https://oauth2.googleapis.com/token"),
         ("private_key_id", .string "k1"), ("private_key", .string "pem"),
         ("client_email", .string "sa@example.iam.gserviceaccount.com")]
        (.ok { err := "invalid_grant" }))
      (fun _ => .error (.error Loopback.timeoutErr)) { account := some "sa.json" } =
      .ok (some (.json { err := "invalid_grant" })) := by
  decide

/-- Two documents no branch expects. An account file of another type ends `oauthCmd` with
`nil` and nothing printed. A discovery document whose `authorization_endpoint` is a number
makes `newOauth` panic on the type assertion. -/
theorem oauthCmd_account_unsupported :
    oauthCmd (fixedWorld [("type", .string "authorized_user")] (.error (.transport [])))
      (fun _ => .error (.error Loopback.timeoutErr)) { account := some "user.json" } =
      .ok none ∧
    newOauth (fixedWorld [("authorization_endpoint", .number),
        ("token_endpoint", .string "https://idp.example/token")] (.error (.transport [])))
      "https://idp.example" "id" "secret" [] [] "openid email" [] {} =
      .error (.panic "interface conversion: interface {} is float64, not string") :=
  ⟨by decide, newOauth_number_endpoint⟩

end Command
end StepOAuth
