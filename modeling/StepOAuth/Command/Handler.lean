import StepOAuth.Command.Auth
import StepOAuth.Go.Strconv

/-!
# The callback handler

`ServeHTTP` answers every request the loopback server receives. In code flow it checks the
path, the provider's `error`, the `code` and the `state`, exchanges the code at the token
endpoint, and hands the token (or the failure) to the waiting flow on one of two unbuffered
channels. In implicit mode it defers to `implicitHandler`, which first serves a page whose
script sends the URL fragment back as a query (`urlhash=true`), then reads the token from it.

A handler invocation is modelled as the list of its observable actions in program order
(`Effect`): the response it writes, its lines on standard error, its POST to the token
endpoint, and its sends. The reply of the token endpoint is an input: a transport or decoding
error's text, or the decoded token.

The results:

* `serveHTTP_cases`: the five shapes of an invocation;
* `serveHTTP_sendLast`: a send, if any, is the invocation's last action, and there is at most
  one (the loopback model relies on both);
* `serveHTTP_posts` and `serveHTTP_sendTok`: what a request must carry to reach the token
  endpoint, and to have a token delivered;
* `serveHTTP_failure`: a failure page always comes with exactly one error and no token;
* `notFound_mem_serveHTTP`: the handler answers 404 exactly off the callback path;
* `serveHTTP_gating`: these facts together, per request, with `serveHTTP_error_param`: a
  callback carrying an `error` sends that error whatever else its query holds;
* `implicitHandler_token`: the token the implicit flow builds from the query.
-/

namespace StepOAuth
namespace Command

open Go Url

/-- An HTTP request as the handler reads it: the client's address and the request URL. -/
structure Request where
  remoteAddr : Bytes := []
  url : URL := {}
  deriving DecidableEq, Repr

/-- What a handler writes back. -/
inductive Response
  /-- `http.NotFound`: 404. -/
  | notFound
  /-- `http.Error(w, text, code)`. -/
  | error (text : Bytes) (code : Nat)
  /-- `http.Redirect(w, req, url, code)`. -/
  | redirect (url : Bytes) (code : Nat)
  /-- `o.success(w)`: 200 and the success page. -/
  | success
  /-- `o.badRequest(w, msg)`'s page: 400 and the failure page with `msg`. -/
  | failure (msg : Bytes)
  /-- `implicitHandler`'s page: 200 and the script that loads `redirectURI?urlhash=true&`
  followed by the URL fragment. -/
  | fragmentRelay (redirectURI : Bytes)
  deriving DecidableEq, Repr

/-- An observable action of a handler invocation. -/
inductive Effect
  /-- The response written. -/
  | respond (r : Response)
  /-- A line on standard error. -/
  | log (line : Bytes)
  /-- `http.PostForm(endpoint, form)`. -/
  | post (endpoint : Bytes) (form : Values)
  /-- `o.tokCh <- tok`. -/
  | sendTok (tok : Token)
  /-- `o.errCh <- err`. -/
  | sendErr (err : Err)
  deriving DecidableEq, Repr

namespace Effect

/-- A send on one of the session's channels. -/
def isSend : Effect → Bool
  | .sendTok _ | .sendErr _ => true
  | _ => false

/-- A call of the token endpoint. -/
def isPost : Effect → Bool
  | .post _ _ => true
  | _ => false

/-- A send on `errCh`. -/
def isSendErr : Effect → Bool
  | .sendErr _ => true
  | _ => false

/-- What a send hands to its receiver: the token, or the error. -/
def received : Effect → Option (Except Err Token)
  | .sendTok t => some (.ok t)
  | .sendErr e => some (.error e)
  | _ => none

theorem received_isSome (e : Effect) : e.received.isSome = e.isSend := by
  cases e <;> rfl

end Effect

/-- `o.badRequest(w, msg)`: the failure page, then `errors.New(msg)` on `errCh`. -/
def badRequest (msg : Bytes) : List Effect := [.respond (.failure msg), .sendErr (.msg msg)]

/-- The response to an accepted callback: the redirect to `--redirect-url` if one is set,
else the success page. -/
def Oauth.finish (o : Oauth) : Response :=
  if o.terminalRedirect ≠ [] then .redirect o.terminalRedirect 302 else .success

theorem Oauth.finish_ne_failure (o : Oauth) (msg : Bytes) : o.finish ≠ .failure msg := by
  unfold Oauth.finish; split <;> simp

/-- The token `implicitHandler` builds from the query; `strconv.Atoi`'s error is dropped. -/
def implicitToken (q : Values) : Token where
  accessToken := q.get "access_token"
  idToken := q.get "id_token"
  refreshToken := q.get "refresh_token"
  expiresIn := (Strconv.atoi (q.get "expires_in")).1
  tokenType := q.get "token_type"

/-- `o.implicitHandler(w, req)`. -/
def Oauth.implicitHandler (o : Oauth) (req : Request) : List Effect :=
  let q := req.url.query
  if q.get "urlhash" = ascii "true" then
    let state := q.get "state"
    if state = [] ∨ state ≠ o.state then
      badRequest "Failed to authenticate: missing or invalid state"
    else if q.get "access_token" = [] then
      badRequest "Failed to authenticate: missing access token"
    else [.respond o.finish, .sendTok (implicitToken q)]
  else [.respond (.fragmentRelay o.redirectURI)]

/-- What `ServeHTTP` does once `Exchange` has returned `reply`. -/
def Oauth.afterExchange (o : Oauth) (reply : Except Bytes Token) : List Effect :=
  match reply with
  | .error e => badRequest (ascii "Failed exchanging authorization code: " ++ e)
  | .ok tok =>
      if tok.err ≠ [] ∨ tok.errDesc ≠ [] then
        badRequest (ascii "Failed exchanging authorization code: " ++ tok.err ++ ascii ". " ++
          tok.errDesc)
      else [.respond o.finish, .sendTok tok]

/-- What `ServeHTTP` does with a code-flow callback that lacks a code or a state. -/
def invalidCallback (req : Request) : List Effect :=
  [.log (ascii "Invalid request received: http://" ++ req.remoteAddr ++ req.url.string ++
      ascii "\n"),
    .log "You may have an app or browser plugin that needs to be turned off\n",
    .respond (.error "400 bad request" 400)]

/-- `o.ServeHTTP(w, req)`, with `reply` the token endpoint's answer should it be called. The
second test of `code` can never fail; it is kept as the source has it. -/
def Oauth.serveHTTP (o : Oauth) (req : Request) (reply : Except Bytes Token) : List Effect :=
  if req.url.path ≠ o.callbackPath then [.respond .notFound]
  else
    let q := req.url.query
    let errStr := q.get "error"
    if errStr ≠ [] then badRequest (ascii "Failed to authenticate: " ++ errStr)
    else if o.implicit then o.implicitHandler req
    else
      let code := q.get "code"
      let state := q.get "state"
      if code = [] ∨ state = [] then invalidCallback req
      else if code = [] then badRequest "Failed to authenticate: missing or invalid code"
      else if state = [] ∨ state ≠ o.state then
        badRequest "Failed to authenticate: missing or invalid state"
      else .post o.tokenEndpoint (exchangeForm o code) :: o.afterExchange reply

/-! ## What one invocation can do -/

section Cases

variable (o : Oauth) (req : Request) (reply : Except Bytes Token)

/-- The checks an implicit-mode callback passes before its token is delivered. -/
def ImplicitAccepted : Prop :=
  req.url.query.get "urlhash" = ascii "true" ∧ req.url.query.get "state" ≠ [] ∧
    req.url.query.get "state" = o.state ∧ req.url.query.get "access_token" ≠ []

/-- The checks a code-flow callback passes before its code is exchanged. -/
def ExchangeGate : Prop :=
  req.url.path = o.callbackPath ∧ req.url.query.get "error" = [] ∧ o.implicit = false ∧
    req.url.query.get "code" ≠ [] ∧ req.url.query.get "state" ≠ [] ∧
    req.url.query.get "state" = o.state

theorem implicitHandler_cases :
    (req.url.query.get "urlhash" ≠ ascii "true" ∧
      o.implicitHandler req = [.respond (.fragmentRelay o.redirectURI)]) ∨
    (∃ msg, o.implicitHandler req = badRequest msg) ∨
    (ImplicitAccepted o req ∧
      o.implicitHandler req = [.respond o.finish, .sendTok (implicitToken req.url.query)]) := by
  unfold Oauth.implicitHandler ImplicitAccepted
  dsimp only
  split_ifs with hh hs ha
  · exact .inr (.inl ⟨_, rfl⟩)
  · exact .inr (.inl ⟨_, rfl⟩)
  · push_neg at hs
    exact .inr (.inr ⟨⟨hh, hs.1, hs.2, ha⟩, rfl⟩)
  · exact .inl ⟨hh, rfl⟩

theorem afterExchange_cases :
    (∃ msg, o.afterExchange reply = badRequest msg) ∨
    (∃ tok, reply = .ok tok ∧ ¬ tok.IsProviderError ∧
      o.afterExchange reply = [.respond o.finish, .sendTok tok]) := by
  unfold Oauth.afterExchange
  rcases reply with e | tok
  · exact .inl ⟨_, rfl⟩
  · by_cases h : tok.IsProviderError
    · exact .inl ⟨_, if_pos h⟩
    · exact .inr ⟨tok, rfl, h, if_neg h⟩

/-- **Inversion of `ServeHTTP`**: every invocation is a 404 off the callback path, a failure,
the implicit handler, the 400 of an incomplete code-flow callback, or a token exchange. -/
theorem serveHTTP_cases :
    (req.url.path ≠ o.callbackPath ∧ o.serveHTTP req reply = [.respond .notFound]) ∨
    (req.url.path = o.callbackPath ∧
      (req.url.query.get "error" ≠ [] ∨
        (o.implicit = false ∧ req.url.query.get "code" ≠ [] ∧ req.url.query.get "state" ≠ [] ∧
          req.url.query.get "state" ≠ o.state)) ∧
      ∃ msg, o.serveHTTP req reply = badRequest msg) ∨
    (req.url.path = o.callbackPath ∧ req.url.query.get "error" = [] ∧ o.implicit = true ∧
      o.serveHTTP req reply = o.implicitHandler req) ∨
    (req.url.path = o.callbackPath ∧ req.url.query.get "error" = [] ∧ o.implicit = false ∧
      (req.url.query.get "code" = [] ∨ req.url.query.get "state" = []) ∧
      o.serveHTTP req reply = invalidCallback req) ∨
    (ExchangeGate o req ∧ o.serveHTTP req reply =
      .post o.tokenEndpoint (exchangeForm o (req.url.query.get "code")) ::
        o.afterExchange reply) := by
  unfold Oauth.serveHTTP ExchangeGate
  dsimp only
  split_ifs with hp he hi hcs hc hs
  · exact .inl ⟨hp, rfl⟩
  · exact .inr (.inl ⟨not_not.mp hp, .inl he, _, rfl⟩)
  · exact .inr (.inr (.inl ⟨not_not.mp hp, not_not.mp he, hi, rfl⟩))
  · exact .inr (.inr (.inr (.inl ⟨not_not.mp hp, not_not.mp he, by simpa using hi, hcs, rfl⟩)))
  · exact absurd hc (not_or.mp hcs).1
  · exact .inr (.inl ⟨not_not.mp hp, .inr ⟨by simpa using hi, (not_or.mp hcs).1,
      (not_or.mp hcs).2, hs.resolve_left (not_or.mp hcs).2⟩, _, rfl⟩)
  · push_neg at hcs hs
    exact .inr (.inr (.inr (.inr ⟨⟨not_not.mp hp, not_not.mp he, by simpa using hi, hcs.1,
      hcs.2, hs.2⟩, rfl⟩)))

/-- A callback carrying an `error` parameter fails with it, whatever else the query holds. -/
theorem serveHTTP_error_param (hp : req.url.path = o.callbackPath)
    (he : req.url.query.get "error" ≠ []) :
    o.serveHTTP req reply =
      badRequest (ascii "Failed to authenticate: " ++ req.url.query.get "error") := by
  simp only [Oauth.serveHTTP, hp, ne_eq, not_true_eq_false, if_false, he, not_false_eq_true, if_true]

end Cases

/-! ## What one invocation does -/

section Properties

variable (o : Oauth) (req : Request) (reply : Except Bytes Token)

instance : Decidable (ExchangeGate o req) := inferInstanceAs (Decidable (_ ∧ _))

/-- At most one send, and only as the last action: a handler that reaches a send has nothing
left to do after it. -/
def SendLast (effs : List Effect) : Prop := ∀ e ∈ effs.dropLast, e.isSend = false

theorem SendLast.cons {e : Effect} {effs : List Effect} (he : e.isSend = false)
    (h : SendLast effs) : SendLast (e :: effs) := by
  cases effs with
  | nil => simp [SendLast]
  | cons f fs =>
      rw [SendLast, List.dropLast_cons₂]
      rintro x (_ | ⟨_, hx⟩)
      exacts [he, h x hx]

theorem SendLast.filter_length_le : ∀ {effs : List Effect}, SendLast effs →
    (effs.filter Effect.isSend).length ≤ 1
  | [], _ => by simp
  | [e], _ => (List.length_filter_le _ _).trans (by simp)
  | e :: f :: es, h => by
      have he : e.isSend = false := h e (by simp)
      have ht : SendLast (f :: es) := fun x hx => h x (by simp [hx])
      simpa [List.filter_cons, he] using ht.filter_length_le

theorem sendLast_badRequest (msg : Bytes) : SendLast (badRequest msg) := by
  simp [SendLast, badRequest, Effect.isSend]

theorem implicitHandler_sendLast : SendLast (o.implicitHandler req) := by
  rcases implicitHandler_cases o req with ⟨-, h⟩ | ⟨m, h⟩ | ⟨-, h⟩ <;>
    simp [h, SendLast, badRequest, Effect.isSend]

theorem afterExchange_sendLast : SendLast (o.afterExchange reply) := by
  rcases afterExchange_cases o reply with ⟨m, h⟩ | ⟨t, -, -, h⟩ <;>
    simp [h, SendLast, badRequest, Effect.isSend]

/-- **A handler sends at most once, as its last action.** -/
theorem serveHTTP_sendLast : SendLast (o.serveHTTP req reply) := by
  rcases serveHTTP_cases o req reply with ⟨-, h⟩ | ⟨-, -, m, h⟩ | ⟨-, -, -, h⟩ | ⟨-, -, -, -, h⟩ |
      ⟨-, h⟩ <;> rw [h]
  · simp [SendLast]
  · exact sendLast_badRequest m
  · exact implicitHandler_sendLast o req
  · simp [SendLast, invalidCallback, Effect.isSend]
  · exact (afterExchange_sendLast o reply).cons rfl

theorem afterExchange_posts : (o.afterExchange reply).filter Effect.isPost = [] := by
  rcases afterExchange_cases o reply with ⟨m, h⟩ | ⟨t, -, -, h⟩ <;>
    simp [h, badRequest, Effect.isPost]

theorem implicitHandler_posts : (o.implicitHandler req).filter Effect.isPost = [] := by
  rcases implicitHandler_cases o req with ⟨-, h⟩ | ⟨m, h⟩ | ⟨-, h⟩ <;>
    simp [h, badRequest, Effect.isPost]

/-- **The token endpoint is called once, with the exchange form, exactly when the request
passes the code-flow checks**, and never otherwise. -/
theorem serveHTTP_posts :
    (o.serveHTTP req reply).filter Effect.isPost =
      if ExchangeGate o req then
        [.post o.tokenEndpoint (exchangeForm o (req.url.query.get "code"))]
      else [] := by
  rcases serveHTTP_cases o req reply with ⟨hp, h⟩ | ⟨-, hg, m, h⟩ | ⟨-, -, hi, h⟩ |
      ⟨-, -, -, hcs, h⟩ | ⟨hg, h⟩
  · simp [h, ExchangeGate, hp, Effect.isPost]
  · have : ¬ ExchangeGate o req := by
      unfold ExchangeGate; rcases hg with hg | hg <;> simp [hg]
    simp [h, this, badRequest, Effect.isPost]
  · simp [h, ExchangeGate, hi, implicitHandler_posts]
  · have : ¬ ExchangeGate o req := by
      unfold ExchangeGate; rcases hcs with hc | hc <;> simp [hc]
    simp [h, this, invalidCallback, Effect.isPost]
  · simp [h, hg, Effect.isPost, afterExchange_posts]

/-- Every POST of a handler is the exchange of the request's code at the session's token
endpoint, made in code flow. -/
theorem serveHTTP_post_mem {e : Effect} (he : e ∈ o.serveHTTP req reply) (hp : e.isPost) :
    o.implicit = false ∧ e = .post o.tokenEndpoint (exchangeForm o (req.url.query.get "code")) := by
  have : e ∈ (o.serveHTTP req reply).filter Effect.isPost := List.mem_filter.mpr ⟨he, hp⟩
  rw [serveHTTP_posts] at this
  split_ifs at this with hg
  · exact ⟨hg.2.2.1, List.mem_singleton.1 this⟩
  · cases this

theorem afterExchange_sendTok {t : Token} (h : .sendTok t ∈ o.afterExchange reply) :
    reply = .ok t ∧ ¬ t.IsProviderError := by
  rcases afterExchange_cases o reply with ⟨m, he⟩ | ⟨t', hr, hp, he⟩ <;>
    simp [he, badRequest] at h
  exact h ▸ ⟨hr, hp⟩

theorem implicitHandler_sendTok {t : Token} (h : .sendTok t ∈ o.implicitHandler req) :
    ImplicitAccepted o req ∧ t = implicitToken req.url.query := by
  rcases implicitHandler_cases o req with ⟨-, he⟩ | ⟨m, he⟩ | ⟨ha, he⟩ <;>
    simp [he, badRequest] at h
  exact ⟨ha, h⟩

/-- **What a delivered token needs**: the callback path, no `error`, the session's `state`;
in code flow a successful exchange whose token carries no provider error, in implicit mode the
relayed fragment with an access token. -/
theorem serveHTTP_sendTok {t : Token} (h : .sendTok t ∈ o.serveHTTP req reply) :
    req.url.path = o.callbackPath ∧ req.url.query.get "error" = [] ∧
      req.url.query.get "state" = o.state ∧
      (o.implicit = false → reply = .ok t ∧ t.err = [] ∧ t.errDesc = []) ∧
      (o.implicit = true → ImplicitAccepted o req ∧ t = implicitToken req.url.query) := by
  rcases serveHTTP_cases o req reply with ⟨-, he⟩ | ⟨-, -, m, he⟩ | ⟨hp, he', hi, he⟩ |
      ⟨-, -, -, -, he⟩ | ⟨hg, he⟩ <;> rw [he] at h
  · simp at h
  · simp [badRequest] at h
  · obtain ⟨ha, rfl⟩ := implicitHandler_sendTok o req h
    exact ⟨hp, he', ha.2.2.1, by simp [hi], fun _ => ⟨ha, rfl⟩⟩
  · simp [invalidCallback] at h
  · obtain ⟨hr, hpe⟩ := afterExchange_sendTok o reply (by simpa using h)
    simp only [Token.IsProviderError, not_or, not_not] at hpe
    exact ⟨hg.1, hg.2.1, hg.2.2.2.2.2, fun _ => ⟨hr, hpe⟩, fun hi => by simp [hg.2.2.1] at hi⟩

/-- A delivered token never carries a provider error, in either mode. -/
theorem serveHTTP_sendTok_ok {t : Token} (h : .sendTok t ∈ o.serveHTTP req reply) :
    ¬ t.IsProviderError := by
  obtain ⟨-, -, -, hc, hi⟩ := serveHTTP_sendTok o req reply h
  cases hm : o.implicit
  · obtain ⟨-, he, hd⟩ := hc hm
    simp [Token.IsProviderError, he, hd]
  · simp [(hi hm).2, Token.IsProviderError, implicitToken]

/-- **A failure page comes with exactly one send, its error on `errCh`.** -/
theorem serveHTTP_failure {msg : Bytes} (h : .respond (.failure msg) ∈ o.serveHTTP req reply) :
    (o.serveHTTP req reply).filter Effect.isSend = [.sendErr (.msg msg)] := by
  have bad : ∀ m, .respond (.failure msg) ∈ badRequest m →
      (badRequest m).filter Effect.isSend = [.sendErr (.msg msg)] := by
    intro m hm; simp [badRequest] at hm; simp [badRequest, hm, Effect.isSend]
  rcases serveHTTP_cases o req reply with ⟨-, he⟩ | ⟨-, -, m, he⟩ | ⟨-, -, -, he⟩ |
      ⟨-, -, -, -, he⟩ | ⟨-, he⟩ <;> rw [he] at h ⊢
  · simp at h
  · exact bad m h
  · rcases implicitHandler_cases o req with ⟨-, hi⟩ | ⟨m, hi⟩ | ⟨-, hi⟩ <;> rw [hi] at h ⊢
    · simp at h
    · exact bad m h
    · simp [(o.finish_ne_failure msg).symm] at h
  · simp [invalidCallback] at h
  · rcases afterExchange_cases o reply with ⟨m, hx⟩ | ⟨t, -, -, hx⟩ <;>
      simp only [hx, List.mem_cons, List.filter_cons] at h ⊢
    · simpa [Effect.isSend] using bad m (by simpa using h)
    · simp [(o.finish_ne_failure msg).symm] at h

/-- **No send without a decision**: a request off the callback path, an incomplete code-flow
callback, and the first, fragment-relaying visit of an implicit-mode callback end without a
send; the incomplete callback gets the 400 and nothing else. -/
theorem serveHTTP_quiet :
    (req.url.path ≠ o.callbackPath → (o.serveHTTP req reply).filter Effect.isSend = []) ∧
    (req.url.path = o.callbackPath → req.url.query.get "error" = [] → o.implicit = false →
      (req.url.query.get "code" = [] ∨ req.url.query.get "state" = []) →
      (o.serveHTTP req reply).filter Effect.isSend = [] ∧
      ∀ r, .respond r ∈ o.serveHTTP req reply → r = .error "400 bad request" 400) ∧
    (req.url.query.get "error" = [] → o.implicit = true →
      req.url.query.get "urlhash" ≠ ascii "true" →
      (o.serveHTTP req reply).filter Effect.isSend = []) := by
  refine ⟨fun hp => by simp [Oauth.serveHTTP, hp, Effect.isSend], fun hp he hi hcs => ?_,
    fun he hi hh => ?_⟩
  · have : o.serveHTTP req reply = invalidCallback req := by
      simp [Oauth.serveHTTP, hp, he, hi, hcs]
    simp [this, invalidCallback, Effect.isSend]
  · by_cases hp : req.url.path = o.callbackPath
    · have : o.serveHTTP req reply = [.respond (.fragmentRelay o.redirectURI)] := by
        simp [Oauth.serveHTTP, Oauth.implicitHandler, hp, he, hi, hh]
      simp [this, Effect.isSend]
    · simp [Oauth.serveHTTP, hp, Effect.isSend]

end Properties

/-! ## The gating of one request -/

/-- **Per-request gating of the callback handler.** (a) the token endpoint is called at most
once, and exactly when the request passes the code-flow checks; (b) a delivered token needs
the callback path, no `error`, the session's `state`, and a clean exchange (code flow) or a
relayed fragment with an access token (implicit mode); (c) at most one send, none off the
callback path, and none for an error-free request that is an incomplete code-flow callback
(which gets only the 400) or an implicit-mode callback without `urlhash=true`, while a
callback with an `error` parameter sends that error on `errCh` whatever its code, state or
`urlhash`; (d) a failure page comes with exactly one send, its error on `errCh`. -/
theorem serveHTTP_gating (o : Oauth) (req : Request) (reply : Except Bytes Token) :
    ((o.serveHTTP req reply).filter Effect.isPost =
      if ExchangeGate o req then
        [.post o.tokenEndpoint (exchangeForm o (req.url.query.get "code"))]
      else []) ∧
    (∀ t, .sendTok t ∈ o.serveHTTP req reply →
      req.url.path = o.callbackPath ∧ req.url.query.get "error" = [] ∧
      req.url.query.get "state" = o.state ∧
      (o.implicit = false → reply = .ok t ∧ t.err = [] ∧ t.errDesc = []) ∧
      (o.implicit = true →
        req.url.query.get "urlhash" = ascii "true" ∧ req.url.query.get "access_token" ≠ [])) ∧
    ((o.serveHTTP req reply).filter Effect.isSend).length ≤ 1 ∧
    (req.url.path ≠ o.callbackPath → (o.serveHTTP req reply).filter Effect.isSend = []) ∧
    (req.url.path = o.callbackPath → req.url.query.get "error" = [] → o.implicit = false →
      (req.url.query.get "code" = [] ∨ req.url.query.get "state" = []) →
      (o.serveHTTP req reply).filter Effect.isSend = [] ∧
      ∀ r, .respond r ∈ o.serveHTTP req reply → r = .error "400 bad request" 400) ∧
    (req.url.query.get "error" = [] → o.implicit = true →
      req.url.query.get "urlhash" ≠ ascii "true" →
      (o.serveHTTP req reply).filter Effect.isSend = []) ∧
    (req.url.path = o.callbackPath → req.url.query.get "error" ≠ [] →
      (o.serveHTTP req reply).filter Effect.isSend =
        [.sendErr (.msg (ascii "Failed to authenticate: " ++ req.url.query.get "error"))]) ∧
    (∀ msg, .respond (.failure msg) ∈ o.serveHTTP req reply →
      (o.serveHTTP req reply).filter Effect.isSend = [.sendErr (.msg msg)]) := by
  obtain ⟨off, incomplete, relay⟩ := serveHTTP_quiet o req reply
  refine ⟨serveHTTP_posts o req reply, fun _ ht => ?_,
    (serveHTTP_sendLast o req reply).filter_length_le, off, incomplete, relay,
    fun hp he => ?_, fun _ h => serveHTTP_failure o req reply h⟩
  · obtain ⟨hp, he, hs, hc, hi⟩ := serveHTTP_sendTok o req reply ht
    exact ⟨hp, he, hs, hc, fun hm => ⟨(hi hm).1.1, (hi hm).1.2.2.2⟩⟩
  · rw [serveHTTP_error_param o req reply hp he]
    simp [badRequest, Effect.isSend]

/-- A provider's error redirect to the callback path carries no code, yet the code-flow
handler answers it with a send on `errCh`. -/
theorem serveHTTP_error_without_code_sends :
    ({ callbackPath := "/" } : Oauth).implicit = false ∧
    (({ url := { path := "/", rawQuery := "error=access_denied" } } : Request).url.query.get
      "code" = []) ∧
    (({ callbackPath := "/" } : Oauth).serveHTTP
        { url := { path := "/", rawQuery := "error=access_denied" } } (.error [])).filter
      Effect.isSend = [.sendErr (.msg "Failed to authenticate: access_denied")] := by
  decide

/-! ## The implicit-flow token -/

/-- **The token of an implicit-mode callback**: once the fragment comes back with the session's
(non-empty) `state` and an access token, exactly one token is sent, made of the first values of
the query's fields, with no provider error, and with `expires_in` read by `strconv.Atoi`: the
value of a decimal numeral within `int`'s range, the nearest bound for one out of range, and
`0` for anything else (`Strconv.atoiValue`). -/
theorem implicitHandler_token (o : Oauth) (req : Request)
    (hh : req.url.query.get "urlhash" = ascii "true") (hs : req.url.query.get "state" = o.state)
    (hne : o.state ≠ []) (ha : req.url.query.get "access_token" ≠ []) :
    (o.implicitHandler req).filter Effect.isSend =
      [.sendTok { accessToken := req.url.query.get "access_token",
                  idToken := req.url.query.get "id_token",
                  refreshToken := req.url.query.get "refresh_token",
                  expiresIn := Strconv.atoiValue (req.url.query.get "expires_in"),
                  tokenType := req.url.query.get "token_type",
                  err := [], errDesc := [] }] := by
  have hsn : req.url.query.get "state" ≠ [] := hs ▸ hne
  simp [Oauth.implicitHandler, hh, hs, hne, ha, Effect.isSend, implicitToken, Strconv.atoi_fst]

/-- `implicitHandler_token` for a fragment with an access token and a lifetime. -/
theorem implicitHandler_token_sample :
    let o : Oauth := { state := "xyz" }
    let req : Request :=
      { url := { rawQuery := "urlhash=true&state=xyz&access_token=at&expires_in=3600" } }
    req.url.query.get "urlhash" = ascii "true" ∧ req.url.query.get "state" = o.state ∧
      o.state ≠ [] ∧ req.url.query.get "access_token" ≠ [] ∧
      (o.implicitHandler req).filter Effect.isSend =
        [.sendTok { accessToken := "at", expiresIn := Strconv.atoiValue "3600" }] := by
  intro o req
  have hh : req.url.query.get "urlhash" = ascii "true" := by decide
  have hs : req.url.query.get "state" = o.state := by decide
  have hne : o.state ≠ [] := by decide
  have ha : req.url.query.get "access_token" ≠ [] := by decide
  exact ⟨hh, hs, hne, ha, implicitHandler_token o req hh hs hne ha⟩

/-- An `expires_in` one past `int`'s range is not read as `0`: `strconv.Atoi` returns the
largest `int` with its range error, and the handler keeps the value. -/
theorem implicitHandler_expires_in_overflow :
    (({ state := "xyz" } : Oauth).implicitHandler
        { url := { rawQuery :=
          "urlhash=true&state=xyz&access_token=at&expires_in=9223372036854775808" } }).filter
      Effect.isSend = [.sendTok { accessToken := "at", expiresIn := 9223372036854775807 }] := by
  decide

end Command
end StepOAuth
