import StepOAuth.Go.Url
import StepOAuth.Go.Net
import StepOAuth.Go.Json

/-!
# The data of `step oauth`

The types of `command/oauth/cmd.go`: the `token` a flow returns, the `options` of the command
line, and the `oauth` value that holds one authorization attempt's configuration and secrets.
Around them, how Go code fails: an `error` it returns (`Err`), or a panic, which the model
keeps as a value of `Fault` so that a run that panics can be told from one that returns.

The `oauth` struct's `provider` and `userInfoEndpoint` fields are written but never read, and
its two channels are the subject of `Command.Loopback`; none of them is kept here.
-/

namespace StepOAuth
namespace Command

open Go

/-- An `error` value. The source's own errors keep their text; the errors of other packages
keep their kind. -/
inductive Err
  /-- `errors.New`, `errors.Errorf` or `fmt.Errorf`. -/
  | msg (text : Bytes)
  /-- `errors.Wrapf(cause, text)`, whose message is `text: cause`. -/
  | wrap (text : Bytes) (cause : Err)
  /-- A `*url.Error` from `url.Parse`. -/
  | url (e : Url.ParseError)
  /-- A `*net.AddrError` from `net.SplitHostPort`. -/
  | addr (e : Net.AddrError)
  /-- `errs.RequiredInsecureFlag(c, flag)`. -/
  | requiredInsecureFlag (flag : Bytes)
  /-- `errs.RequiredWithFlag(c, flag, required)`. -/
  | requiredWithFlag (flag required : Bytes)
  /-- An error of a collaborator the model does not compute (I/O, JSON, crypto, HTTP). -/
  | ext (text : Bytes)
  deriving DecidableEq, Repr

/-- How a call ends when it does not return a value: an `error`, or a panic. -/
inductive Fault
  | error (e : Err)
  | panic (msg : Bytes)
  deriving DecidableEq, Repr

/-- A Go call that returns a value, returns an error, or panics. -/
abbrev Result := Except Fault

/-- `errors.Wrapf(err, text)`: a `nil` error stays `nil`. -/
def wrapf : Option Err → Bytes → Option Err
  | none, _ => none
  | some e, text => some (.wrap text e)

/-- `v.(string)` on a value read from a decoded JSON map: a panic unless it holds a string. -/
def assertString (v : Option Json) : Result Bytes :=
  match v with
  | some (.string s) => .ok s
  | v => .error (.panic (ascii
      ("interface conversion: interface {} is " ++ Json.typeName v ++ ", not string")))

/-- `v.(map[string]interface{})`: a panic unless it holds an object. -/
def assertObject (v : Option Json) : Result JsonObject :=
  match v with
  | some (.object m) => .ok m
  | v => .error (.panic (ascii
      ("interface conversion: interface {} is " ++ Json.typeName v ++
        ", not map[string]interface {}")))

section Assertions

variable {β : Type} {v : Option Json} {f : Bytes → Result β} {g : JsonObject → Result β} {r : β}

/-- What `.(string)` does: the string, or a panic on any other value. -/
theorem assertString_cases (v : Option Json) :
    (∃ s, v = some (.string s) ∧ assertString v = .ok s) ∨
      ((∀ s, v ≠ some (.string s)) ∧ ∃ m, assertString v = .error (.panic m)) := by
  rcases v with _ | (_ | _ | _ | s | _ | _) <;> simp [assertString]

/-- What `.(map[string]interface{})` does: the object, or a panic on any other value. -/
theorem assertObject_cases (v : Option Json) :
    (∃ m, v = some (.object m) ∧ assertObject v = .ok m) ∨
      ((∀ m, v ≠ some (.object m)) ∧ ∃ msg, assertObject v = .error (.panic msg)) := by
  rcases v with _ | (_ | _ | _ | _ | _ | m) <;> simp [assertObject]

theorem assertString_bind_eq_ok : assertString v >>= f = .ok r ↔
    ∃ s, v = some (.string s) ∧ f s = .ok r := by
  rcases assertString_cases v with ⟨s, rfl, h⟩ | ⟨hn, m, h⟩
  · simp [h, bind, Except.bind]
  · simp [h, bind, Except.bind, hn]

theorem assertObject_bind_eq_ok : assertObject v >>= g = .ok r ↔
    ∃ m, v = some (.object m) ∧ g m = .ok r := by
  rcases assertObject_cases v with ⟨m, rfl, h⟩ | ⟨hn, msg, h⟩
  · simp [h, bind, Except.bind]
  · simp [h, bind, Except.bind, hn]

/-- A failed type assertion is a panic, never an `error`: after one, the code fails with an
`error` only if what follows does. -/
theorem assertString_bind_ne_error {e : Err} (hf : ∀ s, f s ≠ .error (.error e)) :
    assertString v >>= f ≠ .error (.error e) := by
  rcases assertString_cases v with ⟨s, -, h⟩ | ⟨-, m, h⟩ <;> rw [h]
  exacts [hf s, nofun]

theorem assertObject_bind_ne_error {e : Err} (hg : ∀ m, g m ≠ .error (.error e)) :
    assertObject v >>= g ≠ .error (.error e) := by
  rcases assertObject_cases v with ⟨m, -, h⟩ | ⟨-, msg, h⟩ <;> rw [h]
  exacts [hg m, nofun]

end Assertions

/-- `token`: what the token endpoint returns, and what every flow hands back. -/
structure Token where
  accessToken : Bytes := []
  idToken : Bytes := []
  refreshToken : Bytes := []
  expiresIn : Int := 0
  tokenType : Bytes := []
  err : Bytes := []
  errDesc : Bytes := []
  deriving DecidableEq, Repr

/-- A token that carries a provider's `error` or `error_description`. -/
def Token.IsProviderError (t : Token) : Prop := t.err ≠ [] ∨ t.errDesc ≠ []

instance (t : Token) : Decidable t.IsProviderError := inferInstanceAs (Decidable (_ ∨ _))

/-- `options`: what the command line asks for. -/
structure Options where
  provider : Bytes := []
  email : Bytes := []
  console : Bool := false
  implicit : Bool := false
  callbackListener : Bytes := []
  callbackListenerURL : Bytes := []
  callbackPath : Bytes := []
  terminalRedirect : Bytes := []
  browser : Bytes := []
  deriving DecidableEq, Repr

/-- `oauth`: one authorization attempt, its endpoints, client, and per-run secrets. As with
every struct here, a field left out of a literal has Go's zero value. -/
structure Oauth where
  clientID : Bytes := []
  clientSecret : Bytes := []
  scope : Bytes := []
  prompt : Bytes := []
  loginHint : Bytes := []
  redirectURI : Bytes := []
  tokenEndpoint : Bytes := []
  authzEndpoint : Bytes := []
  state : Bytes := []
  codeChallenge : Bytes := []
  nonce : Bytes := []
  implicit : Bool := false
  callbackListener : Bytes := []
  callbackListenerURL : Bytes := []
  callbackPath : Bytes := []
  terminalRedirect : Bytes := []
  browser : Bytes := []
  deriving DecidableEq, Repr

end Command
end StepOAuth
