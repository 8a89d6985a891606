import StepOAuth.Command.Types

/-!
# `--listen` and `--listen-url`

`Validate` checks the provider and the two listener options, and takes the callback path from
`--listen-url`; `NewServer` listens where `--listen` says and works out the URL the browser is
sent back to.

* `validate_error_iff`: `Validate` fails exactly for a bad provider, a `--listen` that
  `net.SplitHostPort` rejects, or a `--listen-url` that `url.Parse` rejects. A `--listen-url`
  that parses without a scheme passes, since `errors.Wrapf` of a `nil` error is `nil`, and it
  leaves the callback path alone (`validate_schemeless_listen_url`).
* `newServer_listen_addr`: `net.Listen` is asked for the host and port `--listen` names
  (`127.0.0.1` for an empty host), and `NewServer` fails only where `net.Listen` fails.
* `newServer_url_splits`: when the listen host has no `:`, the server URL is `http://` and an
  authority that `net.SplitHostPort` splits into that host and the bound port. An IPv6 host is
  written without brackets and its URL does not split (`newServer_ipv6_url`).

`net.Listen` is a parameter: for an address it gives the error, or the address the socket is
bound to, as `l.Addr().String()` prints it.
-/

namespace StepOAuth
namespace Command

open Go

/-! ## `Validate` -/

/-- The `--listen` check of `Validate`: the error of `net.SplitHostPort`, if any. -/
def Options.listenError (o : Options) : Option Err :=
  if o.callbackListener = [] then none
  else match Net.splitHostPort o.callbackListener with
    | .error e => some (.addr e)
    | .ok _ => none

/-- The `--listen-url` check of `Validate`, and the callback path it takes from the URL. -/
def Options.validateListenURL (o : Options) : Option Err × Options :=
  if o.callbackListenerURL = [] then (none, o)
  else
    let text := ascii "invalid value '" ++ o.callbackListenerURL ++
      ascii "' for flag '--listen-url'"
    match Url.parse o.callbackListenerURL with
    | .error e => (wrapf (some (.url e)) text, o)
    | .ok u =>
        -- `err` is `nil` here, and so is `errors.Wrapf(err, ...)`
        if u.scheme = [] then (wrapf none text, o)
        else (none, if u.path ≠ [] then { o with callbackPath := u.path } else o)

/-- `o.Validate()`: the error, and the options as it leaves them (it may set `CallbackPath`). -/
def Options.validate (o : Options) : Option Err × Options :=
  if o.provider ≠ ascii "google" ∧ ¬ (ascii "https://").isPrefixOf o.provider then
    (some (.msg "use a valid provider: google"), o)
  else
    match o.listenError with
    | some e =>
        (wrapf (some e) (ascii "invalid value '" ++ o.callbackListener ++
          ascii "' for flag '--listen'"), o)
    | none => o.validateListenURL

/-- A provider `Validate` refuses. -/
def Options.ProviderInvalid (o : Options) : Prop :=
  o.provider ≠ ascii "google" ∧ ¬ (ascii "https://").isPrefixOf o.provider

/-- A `--listen` value `net.SplitHostPort` rejects. -/
def Options.ListenInvalid (o : Options) : Prop :=
  o.callbackListener ≠ [] ∧ ∃ e, Net.splitHostPort o.callbackListener = .error e

/-- A `--listen-url` value `url.Parse` rejects. -/
def Options.ListenURLUnparsable (o : Options) : Prop :=
  o.callbackListenerURL ≠ [] ∧ ∃ e, Url.parse o.callbackListenerURL = .error e

theorem listenError_ne_none (o : Options) : o.listenError ≠ none ↔ o.ListenInvalid := by
  unfold Options.listenError Options.ListenInvalid
  split_ifs with hl
  · simp [hl]
  · rcases Net.splitHostPort o.callbackListener with e | r <;> simp [hl]

theorem validateListenURL_ne_none (o : Options) :
    o.validateListenURL.1 ≠ none ↔ o.ListenURLUnparsable := by
  unfold Options.validateListenURL Options.ListenURLUnparsable
  split_ifs with hu
  · simp [hu]
  · rcases Url.parse o.callbackListenerURL with e | u
    · simp [hu, wrapf]
    · dsimp only
      split_ifs <;> simp [wrapf]

/-- **What `Validate` rejects**: a bad provider, a bad `--listen`, or a `--listen-url` that does
not parse; a URL that parses is accepted whatever its scheme. -/
theorem validate_error_iff (o : Options) :
    o.validate.1 ≠ none ↔ o.ProviderInvalid ∨ o.ListenInvalid ∨ o.ListenURLUnparsable := by
  rw [← listenError_ne_none, ← validateListenURL_ne_none]
  unfold Options.validate
  split_ifs with hp
  · exact iff_of_true (by simp) (.inl hp)
  · have hp' : ¬ o.ProviderInvalid := hp
    rcases o.listenError with _ | e <;> simp [hp', wrapf]

/-- `Validate` leaves every option but the callback path as it was. -/
theorem validate_snd (o : Options) : ∃ p, o.validate.2 = { o with callbackPath := p } := by
  unfold Options.validate Options.validateListenURL
  repeat' split
  all_goals exact ⟨_, rfl⟩

/-- A `--listen-url` without a scheme is accepted: `localhost/cb` parses as a relative
reference, `Validate` returns `nil`, and the callback path stays `/`. -/
theorem validate_schemeless_listen_url :
    Url.parse (ascii "localhost/cb") = .ok { path := "localhost/cb" } ∧
    ({ provider := "google", callbackListenerURL := "localhost/cb", callbackPath := "/" } :
      Options).validate =
      (none,
        { provider := "google", callbackListenerURL := "localhost/cb", callbackPath := "/" }) := by
  decide

/-! ## `NewServer` -/

/-- An address a listener is bound to. `IP.String()` never writes brackets. -/
structure BoundAddr where
  ip : Bytes
  port : Nat
  ip_unbracketed : '['.toUInt8 ∉ ip ∧ ']'.toUInt8 ∉ ip

/-- `l.Addr().String()`. -/
def BoundAddr.string (a : BoundAddr) : Bytes := Net.joinHostPort a.ip (Net.itoa a.port)

/-- `o.NewServer()`, with `listen` standing for `net.Listen("tcp", ·)`: the server's URL.
Without `--listen` it is `httptest.NewServer`, which tries `127.0.0.1:0`, then `[::1]:0`, then
panics. -/
def Oauth.newServer (o : Oauth) (listen : Bytes → Except Err BoundAddr) : Result Bytes :=
  if o.callbackListener = [] then
    match listen "127.0.0.1:0" with
    | .ok a => .ok (ascii "http://" ++ a.string)
    | .error _ =>
        match listen "[::1]:0" with
        | .ok a => .ok (ascii "http://" ++ a.string)
        | .error _ => .error (.panic "httptest: failed to listen on a port")
  else
    match Net.splitHostPort o.callbackListener with
    | .error e => .error (.error (.addr e))
    | .ok (host, port) =>
        let host := if host = [] then ascii "127.0.0.1" else host
        match listen (Net.joinHostPort host port) with
        | .error e => .error (.error (.wrap (ascii "error listening on " ++ o.callbackListener) e))
        | .ok a =>
            if host ≠ ascii "127.0.0.1" then
              match Net.splitHostPort a.string with
              | .error e => .error (.error (.wrap (ascii "error parsing " ++ a.string) (.addr e)))
              | .ok (_, p) => .ok (ascii "http://" ++ host ++ ascii ":" ++ p)
            else .ok (ascii "http://" ++ a.string)

/-- `net.SplitHostPort` reads a bound address back. -/
theorem splitHostPort_boundAddr (a : BoundAddr) :
    Net.splitHostPort a.string = .ok (a.ip, Net.itoa a.port) :=
  Net.splitHostPort_joinHostPort a.ip_unbracketed.1 a.ip_unbracketed.2 (Net.itoa_plain _).1
    (Net.itoa_plain _).2.1 (Net.itoa_plain _).2.2

/-- **`NewServer` listens where `--listen` says, and fails only there.** For a `--listen` that
`net.SplitHostPort` accepts, `net.Listen` is asked for an address that splits back into the same
host (`127.0.0.1` for an empty one) and port, an IPv6 host included. `NewServer` fails exactly
when `net.Listen` fails there: the bound address always splits, so the `error parsing` branch
is never taken. -/
theorem newServer_listen_addr (o : Oauth) (listen : Bytes → Except Err BoundAddr)
    {host port : Bytes} (hs : Net.splitHostPort o.callbackListener = .ok (host, port)) :
    let host' := if host = [] then ascii "127.0.0.1" else host
    Net.splitHostPort (Net.joinHostPort host' port) = .ok (host', port) ∧
      ∀ e, o.newServer listen = .error e ↔ ∃ e', listen (Net.joinHostPort host' port) = .error e' ∧
        e = .error (.wrap (ascii "error listening on " ++ o.callbackListener) e') := by
  intro host'
  have hl : o.callbackListener ≠ [] := by
    rintro h
    rw [h] at hs
    cases hs
  obtain ⟨hob, hcb, hp, hpo, hpc⟩ := Net.splitHostPort_ok hs
  have hbr : '['.toUInt8 ∉ host' ∧ ']'.toUInt8 ∉ host' := by
    by_cases h0 : host = []
    · simp only [host', if_pos h0]; decide
    · simp only [host', if_neg h0]; exact ⟨hob, hcb⟩
  refine ⟨Net.splitHostPort_joinHostPort hbr.1 hbr.2 hp hpo hpc, fun e => ?_⟩
  unfold Oauth.newServer
  rw [if_neg hl, hs]
  dsimp only
  rcases listen (Net.joinHostPort host' port) with e' | a
  · simp [eq_comm]
  · -- the bound address splits, so only a successful URL is left
    split_ifs <;> simp [splitHostPort_boundAddr]

/-- `newServer_listen_addr` for `--listen [::1]:8080`: the listener is asked for `[::1]:8080`,
and its error is what `NewServer` returns. -/
theorem newServer_listen_addr_ipv6 :
    let o : Oauth := { callbackListener := ascii "[::1]:8080" }
    let listen : Bytes → Except Err BoundAddr := fun _ => .error (.msg (ascii "address in use"))
    Net.splitHostPort o.callbackListener = .ok (ascii "::1", ascii "8080") ∧
      Net.splitHostPort (Net.joinHostPort (ascii "::1") (ascii "8080")) =
        .ok (ascii "::1", ascii "8080") ∧
      ∀ e, o.newServer listen = .error e ↔
        ∃ e', listen (Net.joinHostPort (ascii "::1") (ascii "8080")) = .error e' ∧
          e = .error (.wrap (ascii "error listening on " ++ o.callbackListener) e') := by
  intro o listen
  have hs : Net.splitHostPort o.callbackListener = .ok (ascii "::1", ascii "8080") := by decide
  exact ⟨hs, newServer_listen_addr o listen hs⟩

/-- **The server URL splits back** when the listen host has no `:`: into the listen host (or,
when that is `127.0.0.1` or empty, the IP the listener reports) and the bound port. -/
theorem newServer_url_splits (o : Oauth) (listen : Bytes → Except Err BoundAddr)
    {host port : Bytes} {a : BoundAddr}
    (hs : Net.splitHostPort o.callbackListener = .ok (host, port))
    (hb : listen (Net.joinHostPort (if host = [] then ascii "127.0.0.1" else host) port) = .ok a)
    (hc : ':'.toUInt8 ∉ host) :
    ∃ authority, o.newServer listen = .ok (ascii "http://" ++ authority) ∧
      Net.splitHostPort authority =
        .ok (if host = [] ∨ host = ascii "127.0.0.1" then a.ip else host, Net.itoa a.port) := by
  have hl : o.callbackListener ≠ [] := by
    rintro h
    rw [h] at hs
    cases hs
  obtain ⟨hob, hcb, -⟩ := Net.splitHostPort_ok hs
  unfold Oauth.newServer
  rw [if_neg hl, hs]
  dsimp only
  rw [hb]
  dsimp only
  by_cases h127 : host = [] ∨ host = ascii "127.0.0.1"
  · have : (if host = [] then ascii "127.0.0.1" else host) = ascii "127.0.0.1" := by
      rcases h127 with h | h <;> simp [h]
    rw [if_neg (not_not.mpr this), if_pos h127]
    exact ⟨_, rfl, splitHostPort_boundAddr a⟩
  · obtain ⟨h0, h1⟩ := not_or.mp h127
    rw [if_neg h0, if_pos h1, if_neg h127, splitHostPort_boundAddr]
    refine ⟨host ++ ':'.toUInt8 :: Net.itoa a.port, by simp [ascii], ?_⟩
    obtain ⟨hp1, hp2, hp3⟩ := Net.itoa_plain a.port
    exact Net.splitHostPort_plain hc hp1 (by simp [hob, hp2]; decide)
      (by simp [hcb, hp3]; decide)

/-- `newServer_url_splits` for `--listen localhost:10000`. -/
theorem newServer_url_splits_sample :
    let o : Oauth := { callbackListener := "localhost:10000" }
    let a : BoundAddr := ⟨"127.0.0.1", 10000, by decide⟩
    Net.splitHostPort o.callbackListener = .ok ("localhost", "10000") ∧
      ':'.toUInt8 ∉ ascii "localhost" ∧
      ∃ authority, o.newServer (fun _ => .ok a) = .ok (ascii "http://" ++ authority) ∧
        Net.splitHostPort authority = .ok ("localhost", Net.itoa 10000) := by
  intro o a
  have hs : Net.splitHostPort o.callbackListener = .ok ("localhost", "10000") := by decide
  have hc : ':'.toUInt8 ∉ ascii "localhost" := by decide
  exact ⟨hs, hc, newServer_url_splits o (fun _ => .ok a) hs rfl hc⟩

/-- An IPv6 host is written into the URL without brackets: with `--listen [::1]:0` and the
port `54321` bound, the URL is `http://::1:54321`, whose authority `net.SplitHostPort`
rejects. -/
theorem newServer_ipv6_url :
    ({ callbackListener := "[::1]:0" } : Oauth).newServer
        (fun _ => .ok ⟨ascii "::1", 54321, by decide⟩) = .ok (ascii "http://::1:54321") ∧
    Net.splitHostPort (ascii "::1:54321") =
      .error ⟨ascii "too many colons in address", ascii "::1:54321"⟩ := by
  decide

end Command
end StepOAuth
