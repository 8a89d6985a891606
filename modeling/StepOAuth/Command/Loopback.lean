import StepOAuth.Command.Session

/-!
# The loopback flow as a concurrent system

`DoLoopbackAuthorization` starts the callback server, sets `redirectURI`, builds and shows the
authorization URL, and waits in one `select` on the two unbuffered channels of the session
and a two-minute timer; its deferred `srv.Close` then waits for every handler still running.
The server runs one `ServeHTTP` per request, concurrently, as many as arrive.

A state of a run (`Run`) is where the main goroutine is, the handler invocations in flight
(each a request, the token endpoint's reply should it ask, and how many of its actions it has
done), and the trace of what has been done. One `step` is one `Event`: the main goroutine
sets up and shows the URL, a request arrives, a handler does its next action, a handler's send
meets the `select`, the timer fires, or `srv.Close` returns. A send is a rendezvous: it can
only happen while the main goroutine waits in the `select`, which it then leaves for good.
A handler reads the session when it acts, so one that started before `redirectURI` was set
sees the new value afterwards.

The model over-approximates the server in one respect. `step` lets a request arrive while
`srv.Close` waits (`main = .closing`), although `httptest`'s `Close` closes the listener
first, so the model has more runs than the real server. A statement over every run therefore
holds of the real server's runs as well. The runs that `LoopbackOutcome` builds to show that
a result is reachable let no request arrive once the `select` has resolved.

What holds of every run, from the initial state and over every interleaving, follows from the
invariant `Inv`, which every step keeps (`Inv.step`); among its parts, `Decided` says what a
resolved `select` took, as the trace records it:

* `loopback_channel_use`: at most one send ever completes; and a handler that reaches its
  send once the `select` has resolved stays blocked there whatever happens next, so that
  `srv.Close`, hence `DoLoopbackAuthorization`, never returns (`run_blocked`);
  `two_callbacks_block` is a run that gets there with two valid callbacks;
* `reachable_token_ok`: a token the run returns never carries a provider error, and
  `reachable_token_callback`: it came from a handler whose request was on the callback path
  with the session's `state`;
* `reachable_exchange_bound`: every token-endpoint POST made after the URL was shown uses the
  session the URL was built from, and `Reachable.session`: a run changes the session only by
  setting its `redirectURI`.
-/

namespace StepOAuth
namespace Command
namespace Loopback

open Go

/-- Where the goroutine of `DoLoopbackAuthorization` is. -/
inductive Main
  /-- `NewServer` has returned: requests are served, `redirectURI` is not set yet. -/
  | started
  /-- The URL is shown; the goroutine waits in the `select`. -/
  | selecting
  /-- The result is decided; the deferred `srv.Close` waits for the handlers in flight. -/
  | closing (r : Except Err Token)
  /-- `srv.Close` has returned, and so has `DoLoopbackAuthorization`, with `r`. -/
  | returned (r : Except Err Token)
  deriving DecidableEq, Repr

/-- A handler invocation: the request, the reply of the token endpoint should the handler call
it, and how many of its actions are done. -/
structure Invocation where
  req : Request
  reply : Except Bytes Token
  pc : Nat := 0
  deriving DecidableEq, Repr

/-- A state of a loopback run. `shown` is the URL the main goroutine showed, with the length
the trace had then. -/
structure Run where
  o : Oauth
  main : Main
  handlers : List Invocation
  trace : List Effect
  shown : Option (Bytes × Nat)
  deriving DecidableEq, Repr

/-- What can happen next in a run. -/
inductive Event
  /-- The main goroutine sets `redirectURI`, calls `Auth`, and shows the URL. -/
  | begin
  /-- The server starts a handler for a request. -/
  | arrive (req : Request) (reply : Except Bytes Token)
  /-- Handler `i` does its next action, which is not a send. -/
  | act (i : Nat)
  /-- Handler `i`'s send meets the `select`. -/
  | deliver (i : Nat)
  /-- The two-minute timer fires in the `select`. -/
  | timeout
  /-- `srv.Close` returns. -/
  | close
  deriving DecidableEq, Repr

/-- The initial state: `NewServer` has returned, nothing else has happened. -/
def init (o : Oauth) : Run := { o, main := .started, handlers := [], trace := [], shown := none }

/-- The next action of an invocation, with the session as it is now. -/
def Run.next (s : Run) (h : Invocation) : Option Effect := (s.o.serveHTTP h.req h.reply)[h.pc]?

/-- Invocation `i` has done its next action `e`. -/
def Run.advance (s : Run) (i : Nat) (h : Invocation) (e : Effect) : Run :=
  { s with handlers := s.handlers.set i { h with pc := h.pc + 1 }, trace := s.trace ++ [e] }

/-- The session once `DoLoopbackAuthorization` has set its `redirectURI`. -/
def loopbackSession (o : Oauth) (srvURL : Bytes) : Oauth :=
  { o with redirectURI := if o.callbackListenerURL ≠ [] then o.callbackListenerURL else srvURL }

/-- What `DoLoopbackAuthorization` writes on standard error once it has the URL, depending on
whether the browser could be opened. -/
def browserLines (opened : Bool) (authURL : Bytes) : List Effect :=
  (if opened then [.log "Your default web browser has been opened to visit:\n"]
   else [.log "Cannot open a web browser on your platform.\n", .log "\n",
     .log "Open a local web browser and visit:\n"]) ++
  [.log "\n", .log (authURL ++ ascii "\n"), .log "\n"]

/-- The error of the timer's branch of the `select`. -/
def timeoutErr : Err := .msg "oauth command timed out, please try again"

/-- What a run depends on besides the session: the server's URL, and the two functions of the
world the main goroutine calls. -/
structure Setup where
  srvURL : Bytes
  sha256 : Bytes → Bytes
  openBrowser : Bytes → Bytes → Bool

variable (w : Setup)

/-- One step of a run. -/
def step (s : Run) : Event → Option Run
  | .begin =>
      match s.main with
      | .started =>
          let o := loopbackSession s.o w.srvURL
          match o.auth w.sha256 with
          | .error e => some { s with o, main := .closing (.error e) }
          | .ok url =>
              some { s with o, main := .selecting,
                            trace := s.trace ++ browserLines (w.openBrowser url o.browser) url,
                            shown := some (url, s.trace.length) }
      | _ => none
  | .arrive req reply =>
      match s.main with
      | .returned _ => none
      | _ => some { s with handlers := s.handlers ++ [{ req, reply }] }
  | .act i =>
      match s.handlers[i]? with
      | none => none
      | some h =>
          match s.next h with
          | some e => if e.isSend then none else some (s.advance i h e)
          | none => none
  | .deliver i =>
      match s.main, s.handlers[i]? with
      | .selecting, some h =>
          match s.next h with
          | some (.sendTok t) => some { s.advance i h (.sendTok t) with main := .closing (.ok t) }
          | some (.sendErr e) =>
              some { s.advance i h (.sendErr e) with main := .closing (.error e) }
          | _ => none
      | _, _ => none
  | .timeout =>
      match s.main with
      | .selecting => some { s with main := .closing (.error timeoutErr) }
      | _ => none
  | .close =>
      match s.main with
      | .closing r =>
          if s.handlers.all fun h => (s.next h).isNone then some { s with main := .returned r }
          else none
      | _ => none

/-- A run: the events in order, or `none` as soon as one cannot happen. -/
def run (s : Run) : List Event → Option Run
  | [] => some s
  | e :: es => (step w s e).bind fun s' => run s' es

/-- The states a run from `init o` can reach. -/
def Reachable (o : Oauth) (s : Run) : Prop := ∃ es, run w (init o) es = some s

/-- The `select` is over. -/
def Main.resolved : Main → Bool
  | .closing _ | .returned _ => true
  | _ => false

/-- Handler `i` is at a send. -/
def Run.atSend (s : Run) (i : Nat) : Bool :=
  match s.handlers[i]? with
  | some h => (s.next h).any Effect.isSend
  | none => false

/-- Handler `i` waits at a send that nothing will ever receive: the `select` is over. -/
def Run.blocked (s : Run) (i : Nat) : Bool := s.main.resolved && s.atSend i

/-! ## What one step can do -/

section Step

variable {w} {s s' : Run} {ev : Event}

@[simp] theorem advance_o (i : Nat) (h : Invocation) (e : Effect) : (s.advance i h e).o = s.o := rfl

@[simp] theorem advance_trace (i : Nat) (h : Invocation) (e : Effect) :
    (s.advance i h e).trace = s.trace ++ [e] := rfl

@[simp] theorem advance_main (i : Nat) (h : Invocation) (e : Effect) :
    (s.advance i h e).main = s.main := rfl

@[simp] theorem advance_shown (i : Nat) (h : Invocation) (e : Effect) :
    (s.advance i h e).shown = s.shown := rfl

/-- **Inversion of `step`**: the main goroutine shows the URL or fails in `Auth`; a request
arrives; a handler does an action that is not a send; a send meets the `select`; the timer
fires; `srv.Close` returns once no handler has anything left to do. -/
theorem step_cases (h : step w s ev = some s') :
    (s.main = .started ∧ ∃ e, (loopbackSession s.o w.srvURL).auth w.sha256 = .error e ∧
      s' = { s with o := loopbackSession s.o w.srvURL, main := .closing (.error e) }) ∨
    (s.main = .started ∧ ∃ url, (loopbackSession s.o w.srvURL).auth w.sha256 = .ok url ∧
      s' = { s with
        o := loopbackSession s.o w.srvURL, main := .selecting,
        trace := s.trace ++
          browserLines (w.openBrowser url (loopbackSession s.o w.srvURL).browser) url,
        shown := some (url, s.trace.length) }) ∨
    ((∀ r, s.main ≠ .returned r) ∧
      ∃ req reply, s' = { s with handlers := s.handlers ++ [{ req, reply }] }) ∨
    (∃ i h e, s.handlers[i]? = some h ∧ s.next h = some e ∧ e.isSend = false ∧
      s' = s.advance i h e) ∨
    (s.main = .selecting ∧ ∃ i h e r, s.handlers[i]? = some h ∧ s.next h = some e ∧
      e.received = some r ∧ s' = { s.advance i h e with main := .closing r }) ∨
    (s.main = .selecting ∧ s' = { s with main := .closing (.error timeoutErr) }) ∨
    (∃ r, s.main = .closing r ∧ (∀ h ∈ s.handlers, s.next h = none) ∧
      s' = { s with main := .returned r }) := by
  cases ev with
  | begin =>
      simp only [step] at h
      split at h
      · rename_i hm
        split at h <;> rename_i hr <;> cases h
        · exact .inl ⟨hm, _, hr, rfl⟩
        · exact .inr (.inl ⟨hm, _, hr, rfl⟩)
      · cases h
  | arrive req reply =>
      simp only [step] at h
      split at h
      · cases h
      · rename_i hm
        cases h
        exact .inr (.inr (.inl ⟨fun r he => hm r he, req, reply, rfl⟩))
  | act i =>
      simp only [step] at h
      split at h
      · cases h
      · rename_i hd
        split at h
        · rename_i e he
          split at h
          · cases h
          · rename_i hs
            cases h
            exact .inr (.inr (.inr (.inl ⟨i, _, e, hd, he, by simpa using hs, rfl⟩)))
        · cases h
  | deliver i =>
      simp only [step] at h
      split at h
      · rename_i hm hd
        split at h <;> rename_i hn <;> cases h
        · exact .inr (.inr (.inr (.inr (.inl ⟨hm, i, _, _, _, hd, hn, rfl, rfl⟩))))
        · exact .inr (.inr (.inr (.inr (.inl ⟨hm, i, _, _, _, hd, hn, rfl, rfl⟩))))
      · cases h
  | timeout =>
      simp only [step] at h
      split at h
      · cases h
        exact .inr (.inr (.inr (.inr (.inr (.inl ⟨by assumption, rfl⟩)))))
      · cases h
  | close =>
      simp only [step] at h
      split at h
      · rename_i r hm
        split at h
        · rename_i hall
          cases h
          refine .inr (.inr (.inr (.inr (.inr (.inr ⟨r, hm, fun h' hh => ?_, rfl⟩)))))
          simpa using List.all_eq_true.mp hall h' hh
        · cases h
      · cases h

end Step

/-! ## What every run keeps -/

theorem browserLines_quiet {opened : Bool} {url : Bytes} {e : Effect}
    (he : e ∈ browserLines opened url) : e.isSend = false ∧ e.isPost = false := by
  unfold browserLines at he
  split at he <;> simp at he <;> rcases he with rfl | rfl | rfl | rfl | rfl | rfl <;>
    exact ⟨rfl, rfl⟩

theorem filter_browserLines (opened : Bool) (url : Bytes) :
    (browserLines opened url).filter Effect.isSend = [] :=
  List.filter_eq_nil_iff.mpr fun _ he => by simp [(browserLines_quiet he).1]

theorem next_mem {s : Run} {h : Invocation} {e : Effect} (hn : s.next h = some e) :
    e ∈ s.o.serveHTTP h.req h.reply :=
  List.getElem?_mem hn

/-- What the `select` decided, as the trace records it: `Auth` failed before the URL was shown,
or the URL was shown and then the timer fired with no send, or exactly one send met it. -/
def Decided (s : Run) (r : Except Err Token) : Prop :=
  (∃ e, s.o.auth w.sha256 = .error e ∧ r = .error e ∧ s.trace.filter Effect.isSend = []) ∨
  ((∃ url, s.o.auth w.sha256 = .ok url) ∧
    ((r = .error timeoutErr ∧ s.trace.filter Effect.isSend = []) ∨
      ∃ e, s.trace.filter Effect.isSend = [e] ∧ e.received = some r))

/-- What holds in every reachable state of a run. -/
structure Inv (s : Run) : Prop where
  /-- No send has completed before the `select` has resolved. -/
  quiet : s.main = .started ∨ s.main = .selecting → s.trace.filter Effect.isSend = []
  /-- The main goroutine waits in the `select` only once `Auth` has given the URL. -/
  selecting_auth : s.main = .selecting → ∃ url, s.o.auth w.sha256 = .ok url
  /-- A resolved `select` took what the trace says. -/
  outcome : ∀ r, s.main = .closing r ∨ s.main = .returned r → Decided w s r
  /-- A send that completed is in the response of a handler in flight to its own request. -/
  provenance : ∀ e ∈ s.trace, e.isSend →
    ∃ (i : Nat) (h : Invocation), s.handlers[i]? = some h ∧ e ∈ s.o.serveHTTP h.req h.reply
  /-- Once `srv.Close` has returned, no handler has anything left to do. -/
  finished : ∀ r, s.main = .returned r → ∀ h ∈ s.handlers, s.next h = none
  /-- Nothing is shown before the main goroutine moves. -/
  unshown : s.main = .started → s.shown = none
  /-- The URL shown is what `Auth` gives for the session as it is, and every POST since then
  exchanges a code for that session, in code flow. -/
  bound : ∀ url n, s.shown = some (url, n) → s.o.auth w.sha256 = .ok url ∧ n ≤ s.trace.length ∧
    ∀ e ∈ s.trace.drop n, e.isPost → s.o.implicit = false ∧
      ∃ code, e = .post s.o.tokenEndpoint (exchangeForm s.o code)

theorem inv_init (o : Oauth) : Inv w (init o) where
  quiet _ := rfl
  selecting_auth h := by simp [init] at h
  outcome _ h := by simp [init] at h
  provenance _ h := by simp [init] at h
  finished _ h := by simp [init] at h
  unshown _ := rfl
  bound _ _ h := by simp [init] at h

variable {w} {s s' : Run} {ev : Event}

/-- Appending an effect that, if it is a POST, exchanges a code for the session keeps the
`bound` part of the invariant. -/
theorem bound_snoc {o : Oauth} {n : Nat} {tr : List Effect} {e : Effect} (hn : n ≤ tr.length)
    (hp : ∀ e' ∈ tr.drop n, e'.isPost →
      o.implicit = false ∧ ∃ code, e' = .post o.tokenEndpoint (exchangeForm o code))
    (he : e.isPost → o.implicit = false ∧ ∃ code, e = .post o.tokenEndpoint (exchangeForm o code)) :
    n ≤ (tr ++ [e]).length ∧ ∀ e' ∈ (tr ++ [e]).drop n, e'.isPost →
      o.implicit = false ∧ ∃ code, e' = .post o.tokenEndpoint (exchangeForm o code) := by
  refine ⟨by simp; omega, fun e' he' => ?_⟩
  rw [List.drop_append_of_le_length hn] at he'
  rcases List.mem_append.mp he' with he' | he'
  · exact hp e' he'
  · exact List.mem_singleton.mp he' ▸ he

theorem isSend_of_quiet {e : Effect} {tr : List Effect} (hq : tr.filter Effect.isSend = [])
    (he : e ∈ tr) : e.isSend = false := by
  simpa using List.filter_eq_nil_iff.1 hq e he

/-- Advancing one handler keeps every handler's request and reply at its place. -/
theorem advance_handlers {i j : Nat} {h h' : Invocation} {e : Effect}
    (hd : s.handlers[i]? = some h) (hd' : s.handlers[j]? = some h') :
    ∃ h'', (s.advance i h e).handlers[j]? = some h'' ∧ h''.req = h'.req ∧ h''.reply = h'.reply := by
  by_cases hji : j = i
  · subst hji
    rw [hd] at hd'
    cases hd'
    exact ⟨{ h with pc := h.pc + 1 },
      List.getElem?_set_self (List.getElem?_eq_some_iff.mp hd).1, rfl, rfl⟩
  · exact ⟨h', (List.getElem?_set_ne (Ne.symm hji)).trans hd', rfl, rfl⟩

/-- Advancing a handler keeps the `provenance` part of the invariant, its new action
included. -/
theorem provenance_advance {i : Nat} {h : Invocation} {e : Effect} (hd : s.handlers[i]? = some h)
    (hn : s.next h = some e)
    (hp : ∀ x ∈ s.trace, x.isSend → ∃ (j : Nat) (h' : Invocation),
      s.handlers[j]? = some h' ∧ x ∈ s.o.serveHTTP h'.req h'.reply) :
    ∀ x ∈ (s.advance i h e).trace, x.isSend → ∃ (j : Nat) (h' : Invocation),
      (s.advance i h e).handlers[j]? = some h' ∧
        x ∈ (s.advance i h e).o.serveHTTP h'.req h'.reply := by
  intro x hx hs
  rw [advance_trace] at hx
  rcases List.mem_append.mp hx with hx | hx
  · obtain ⟨j, h', hd', hm⟩ := hp x hx hs
    obtain ⟨h'', hd'', hq, hr⟩ := advance_handlers (e := e) hd hd'
    exact ⟨j, h'', hd'', by rw [hq, hr]; exact hm⟩
  · obtain rfl := List.mem_singleton.mp hx
    obtain ⟨h'', hd'', hq, hr⟩ := advance_handlers (e := x) hd hd
    exact ⟨i, h'', hd'', by rw [hq, hr]; exact next_mem hn⟩

/-- **One step keeps the invariant.** -/
theorem Inv.step (hi : Inv w s) (h : step w s ev = some s') : Inv w s' := by
  rcases step_cases h with ⟨hm, e, ha, rfl⟩ | ⟨hm, url, ha, rfl⟩ | ⟨hm, req, reply, rfl⟩ |
      ⟨i, hv, e, hd, hn, hs, rfl⟩ | ⟨hm, i, hv, e, r, hd, hn, hr, rfl⟩ | ⟨hm, rfl⟩ |
      ⟨r, hm, hall, rfl⟩
  · -- `Auth` failed
    have hq := hi.quiet (.inl hm)
    refine { quiet := by simp, selecting_auth := by simp, outcome := fun r hr => ?_,
             provenance := fun x hx hs => absurd hs (by simp [isSend_of_quiet hq hx]),
             finished := by simp, unshown := by simp, bound := by simp [hi.unshown hm] }
    obtain rfl : Except.error e = r := by simpa using hr
    exact .inl ⟨e, ha, rfl, hq⟩
  · -- the URL is shown
    have hq := hi.quiet (.inl hm)
    refine { quiet := fun _ => by simp [hq, filter_browserLines],
             selecting_auth := fun _ => ⟨url, ha⟩, outcome := by simp,
             provenance := fun x hx hs => absurd hs ?_, finished := by simp,
             unshown := by simp, bound := ?_ }
    · rcases List.mem_append.mp hx with hx | hx
      · simp [isSend_of_quiet hq hx]
      · simp [(browserLines_quiet hx).1]
    · rintro url' n hs
      cases hs
      refine ⟨ha, by simp, fun e he hp => ?_⟩
      rw [List.drop_left] at he
      simp [(browserLines_quiet he).2] at hp
  · -- a request arrives
    refine { quiet := hi.quiet, selecting_auth := hi.selecting_auth, outcome := hi.outcome,
             provenance := fun x hx hs => ?_, finished := fun r hr => (hm r hr).elim,
             unshown := hi.unshown, bound := hi.bound }
    obtain ⟨i, h, hd, hmem⟩ := hi.provenance x hx hs
    exact ⟨i, h, by rw [List.getElem?_append_left (List.getElem?_eq_some_iff.mp hd).1, hd], hmem⟩
  · -- a handler acts
    have hf : (s.advance i hv e).trace.filter Effect.isSend = s.trace.filter Effect.isSend := by
      simp [hs]
    refine { quiet := fun hq => hf.trans (hi.quiet hq), selecting_auth := hi.selecting_auth,
             outcome := fun r hr => by rw [Decided, hf]; exact hi.outcome r hr,
             provenance := provenance_advance hd hn hi.provenance,
             finished := fun r hr => ?_, unshown := hi.unshown, bound := fun url n hsh => ?_ }
    · exact absurd hn (by simp [hi.finished r hr hv (List.getElem?_mem hd)])
    · obtain ⟨ha, hn', hp⟩ := hi.bound url n hsh
      refine ⟨ha, bound_snoc hn' hp fun hp' => ?_⟩
      obtain ⟨hi', he'⟩ := serveHTTP_post_mem _ _ _ (next_mem hn) hp'
      exact ⟨hi', _, he'⟩
  · -- a send meets the `select`
    have hq := hi.quiet (.inr hm)
    have hsend : e.isSend = true := by rw [← Effect.received_isSome, hr]; rfl
    refine { quiet := by simp, selecting_auth := by simp, outcome := fun r' hr' => ?_,
             provenance := provenance_advance hd hn hi.provenance,
             finished := by simp, unshown := by simp, bound := fun url n hsh => ?_ }
    · obtain rfl : r = r' := by simpa using hr'
      exact .inr ⟨hi.selecting_auth hm, .inr ⟨e, by simp [hq, hsend], hr⟩⟩
    · obtain ⟨ha, hn', hp⟩ := hi.bound url n hsh
      refine ⟨ha, bound_snoc hn' hp fun hp' => ?_⟩
      cases e <;> simp [Effect.isSend, Effect.isPost] at hsend hp'
  · -- the timer fires
    refine { quiet := by simp, selecting_auth := by simp, outcome := fun r hr => ?_,
             provenance := hi.provenance, finished := by simp, unshown := by simp,
             bound := hi.bound }
    obtain rfl : Except.error timeoutErr = r := by simpa using hr
    exact .inr ⟨hi.selecting_auth hm, .inl ⟨rfl, hi.quiet (.inr hm)⟩⟩
  · -- `srv.Close` returns
    refine { quiet := by simp, selecting_auth := by simp,
             outcome := fun r' hr' => hi.outcome r' (.inl ?_), provenance := hi.provenance,
             finished := fun _ _ => hall, unshown := by simp, bound := hi.bound }
    obtain rfl : r = r' := by simpa using hr'
    exact hm

/-- **A whole run keeps the invariant.** -/
theorem Inv.run : ∀ {s : Run} {es : List Event} {s' : Run}, Inv w s →
    Loopback.run w s es = some s' → Inv w s'
  | _, [], _, hi, h => by cases h; exact hi
  | _, _ :: _, _, hi, h => by
      simp only [Loopback.run, Option.bind_eq_some] at h
      obtain ⟨s₁, h₁, h₂⟩ := h
      exact Inv.run (hi.step h₁) h₂

theorem Reachable.inv {o : Oauth} (h : Reachable w o s) : Inv w s :=
  Inv.run (inv_init w o) h.choose_spec

/-- At most one send has completed. -/
theorem Inv.sends_le_one (hi : Inv w s) : (s.trace.filter Effect.isSend).length ≤ 1 := by
  have decided : ∀ r, Decided w s r → (s.trace.filter Effect.isSend).length ≤ 1 := by
    rintro r (⟨-, -, -, h⟩ | ⟨-, ⟨-, h⟩ | ⟨e, h, -⟩⟩) <;> simp [h]
  cases hm : s.main with
  | started => simp [hi.quiet (.inl hm)]
  | selecting => simp [hi.quiet (.inr hm)]
  | closing r => exact decided r (hi.outcome r (.inl hm))
  | returned r => exact decided r (hi.outcome r (.inr hm))

/-- A token the `select` took was sent. -/
theorem Inv.result_sent (hi : Inv w s) (t : Token)
    (ht : s.main = .closing (.ok t) ∨ s.main = .returned (.ok t)) : .sendTok t ∈ s.trace := by
  rcases hi.outcome _ ht with ⟨_, -, h, -⟩ | ⟨-, ⟨h, -⟩ | ⟨e, hf, he⟩⟩
  · cases h
  · cases h
  · have hmem := (List.mem_filter.1 (hf ▸ List.mem_singleton_self e)).1
    cases e <;> simp [Effect.received] at he
    exact he ▸ hmem

/-- A token that was sent carries no provider error. -/
theorem Inv.token_ok (hi : Inv w s) (t : Token) (ht : .sendTok t ∈ s.trace) :
    ¬ t.IsProviderError := by
  obtain ⟨i, h, -, hm⟩ := hi.provenance _ ht rfl
  exact serveHTTP_sendTok_ok _ _ _ hm

/-! ## Blocked handlers -/

theorem atSend_iff {i : Nat} : s.atSend i = true ↔
    ∃ hv e, s.handlers[i]? = some hv ∧ s.next hv = some e ∧ e.isSend = true := by
  unfold Run.atSend
  rcases s.handlers[i]? with _ | hv
  · simp
  · cases hn : s.next hv <;> simp [hn]

theorem resolved_iff {m : Main} : m.resolved = true ↔ m ≠ .started ∧ m ≠ .selecting := by
  cases m <;> simp [Main.resolved]

theorem blocked_iff {i : Nat} : s.blocked i = true ↔
    (s.main ≠ .started ∧ s.main ≠ .selecting) ∧
      ∃ hv e, s.handlers[i]? = some hv ∧ s.next hv = some e ∧ e.isSend = true := by
  rw [Run.blocked, Bool.and_eq_true, resolved_iff, atSend_iff]

/-- **A blocked handler stays blocked**, and the main goroutine stays where it is: no event can
move the handler, and `srv.Close` cannot return while it waits. -/
theorem step_blocked {i : Nat} (hb : s.blocked i = true) (h : step w s ev = some s') :
    s'.blocked i = true ∧ s'.main = s.main := by
  obtain ⟨⟨hs, hsel⟩, hv, e, hd, hn, he⟩ := blocked_iff.mp hb
  rcases step_cases h with ⟨hm, -⟩ | ⟨hm, -⟩ | ⟨-, req, reply, rfl⟩ |
      ⟨j, hv', e', hd', hn', hs', rfl⟩ | ⟨hm, -⟩ | ⟨hm, -⟩ | ⟨r, hm, hall, rfl⟩
  · exact absurd hm hs
  · exact absurd hm hs
  · -- a request arrives: the handler keeps its place
    refine ⟨blocked_iff.mpr ⟨⟨hs, hsel⟩, hv, e, ?_, hn, he⟩, rfl⟩
    rw [List.getElem?_append_left (List.getElem?_eq_some_iff.mp hd).1, hd]
  · -- another handler acts
    have hji : j ≠ i := by
      rintro rfl
      rw [hd] at hd'
      cases hd'
      rw [hn] at hn'
      cases hn'
      simp [he] at hs'
    refine ⟨blocked_iff.mpr ⟨⟨hs, hsel⟩, hv, e, ?_, hn, he⟩, rfl⟩
    simpa [Run.advance, List.getElem?_set_ne hji] using hd
  · exact absurd hm hsel
  · exact absurd hm hsel
  · simp [hall hv (List.getElem?_mem hd)] at hn

/-- **A blocked handler is blocked forever**, and the run never returns. -/
theorem run_blocked : ∀ {s : Run} {es : List Event} {s' : Run} {i : Nat}, s.blocked i = true →
    Loopback.run w s es = some s' → s'.blocked i = true ∧ s'.main = s.main
  | _, [], _, _, hb, h => by cases h; exact ⟨hb, rfl⟩
  | _, _ :: _, _, _, hb, h => by
      simp only [Loopback.run, Option.bind_eq_some] at h
      obtain ⟨s₁, h₁, h₂⟩ := h
      obtain ⟨hb₁, hm₁⟩ := step_blocked hb h₁
      obtain ⟨hb', hm'⟩ := run_blocked hb₁ h₂
      exact ⟨hb', hm'.trans hm₁⟩

/-- **Channel use in a loopback run.** In every reachable state at most one send has
completed. A handler that has reached its send once the `select` has resolved stays there
through every continuation of the run, and `DoLoopbackAuthorization` never returns. -/
theorem loopback_channel_use (o : Oauth) :
    (∀ s, Reachable w o s → (s.trace.filter Effect.isSend).length ≤ 1) ∧
    (∀ s i, Reachable w o s → s.blocked i = true →
      ∀ es s', Loopback.run w s es = some s' →
        s'.blocked i = true ∧ ∀ r, s'.main ≠ .returned r) := by
  refine ⟨fun s hs => hs.inv.sends_le_one, fun s i hs hb es s' h => ?_⟩
  obtain ⟨hb', hm⟩ := run_blocked hb h
  refine ⟨hb', fun r hr => ?_⟩
  obtain ⟨-, hv, e, hd, hn, -⟩ := blocked_iff.mp hb
  have := hs.inv.finished r (hm ▸ hr) hv (List.getElem?_mem hd)
  simp [this] at hn

/-- Two valid callbacks: the first token is taken by the `select`, and the handler of the
second waits at its send to `tokCh` with nothing left to receive it. -/
theorem two_callbacks_block :
    (Loopback.run ⟨ascii "http://127.0.0.1:5000", fun _ => [], fun _ _ => true⟩
      (init { authzEndpoint := "https://idp.example/auth", state := "st", callbackPath := "/" })
      [.begin,
       .arrive { url := { path := "/", rawQuery := "code=c&state=st" } }
         (.ok { accessToken := "a" }),
       .arrive { url := { path := "/", rawQuery := "code=c&state=st" } }
         (.ok { accessToken := "b" }),
       .act 0, .act 0, .act 1, .act 1, .deliver 0]).map
      (fun s => (s.main, s.blocked 1)) =
      some (.closing (.ok { accessToken := "a" }), true) := by
  decide

/-! ## What a run returns -/

/-- **The loopback flow returns no provider error as a token.** -/
theorem reachable_token_ok {o : Oauth} {t : Token} (hs : Reachable w o s)
    (hr : s.main = .returned (.ok t)) : ¬ t.IsProviderError :=
  hs.inv.token_ok t (hs.inv.result_sent t (.inr hr))

/-- The session of a run is the one given until the main goroutine moves, and from then on the
one with `redirectURI` set: a step keeps this. -/
theorem step_session {o : Oauth} (h : step w s ev = some s')
    (hs : s.o = if s.main = .started then o else loopbackSession o w.srvURL) :
    s'.o = if s'.main = .started then o else loopbackSession o w.srvURL := by
  rcases step_cases h with ⟨hm, -, -, rfl⟩ | ⟨hm, -, -, rfl⟩ | ⟨-, -, -, rfl⟩ |
      ⟨-, -, -, -, -, -, rfl⟩ | ⟨hm, -, -, -, -, -, -, -, rfl⟩ | ⟨hm, rfl⟩ | ⟨_, hm, -, rfl⟩
  all_goals first | exact hs | simp_all

theorem run_session {o : Oauth} : ∀ {s : Run} {es : List Event} {s' : Run},
    (s.o = if s.main = .started then o else loopbackSession o w.srvURL) →
    Loopback.run w s es = some s' →
      s'.o = if s'.main = .started then o else loopbackSession o w.srvURL
  | _, [], _, hs, h => by cases h; exact hs
  | _, _ :: _, _, hs, h => by
      simp only [Loopback.run, Option.bind_eq_some] at h
      obtain ⟨s₁, h₁, h₂⟩ := h
      exact run_session (step_session h₁ hs) h₂

theorem Reachable.session_eq {o : Oauth} (h : Reachable w o s) :
    s.o = if s.main = .started then o else loopbackSession o w.srvURL :=
  run_session (by simp [init]) h.choose_spec

/-- A run changes the session only by setting its `redirectURI`. -/
theorem Reachable.session {o : Oauth} (h : Reachable w o s) :
    ∃ r, s.o = { o with redirectURI := r } := by
  rw [h.session_eq]
  split
  exacts [⟨o.redirectURI, rfl⟩, ⟨_, rfl⟩]

/-- **The token a run returns came from a callback.** Some handler in flight had a request on
the session's callback path, with no `error` and the session's `state`; in code flow the token
endpoint answered it with that token, and in implicit mode the request carried it. -/
theorem reachable_token_callback {o : Oauth} {t : Token} (hs : Reachable w o s)
    (hr : s.main = .returned (.ok t)) :
    ∃ h ∈ s.handlers, h.req.url.path = o.callbackPath ∧ h.req.url.query.get "error" = [] ∧
      h.req.url.query.get "state" = o.state ∧
      (o.implicit = false → h.reply = .ok t ∧ t.err = [] ∧ t.errDesc = []) ∧
      (o.implicit = true → ImplicitAccepted o h.req ∧ t = implicitToken h.req.url.query) := by
  obtain ⟨i, h, hd, hm⟩ := hs.inv.provenance _ (hs.inv.result_sent t (.inr hr)) rfl
  obtain ⟨r, ho⟩ := hs.session
  rw [ho] at hm
  exact ⟨h, List.getElem?_mem hd, serveHTTP_sendTok { o with redirectURI := r } _ _ hm⟩

/-- `reachable_token_callback` on a code-flow run with one callback. -/
theorem reachable_token_callback_code :
    let w : Setup := ⟨ascii "http://127.0.0.1:5000", fun _ => [], fun _ _ => true⟩
    let o : Oauth :=
      { authzEndpoint := "https://idp.example/auth", state := "st", callbackPath := "/" }
    let t : Token := { accessToken := "a" }
    ∃ s, Reachable w o s ∧ s.main = .returned (.ok t) ∧
      ∃ h ∈ s.handlers, h.req.url.path = o.callbackPath ∧ h.req.url.query.get "error" = [] ∧
        h.req.url.query.get "state" = o.state ∧
        (o.implicit = false → h.reply = .ok t ∧ t.err = [] ∧ t.errDesc = []) ∧
        (o.implicit = true → ImplicitAccepted o h.req ∧ t = implicitToken h.req.url.query) := by
  intro w o t
  obtain ⟨s, hrun, hm⟩ := Option.map_eq_some'.1 (by decide :
    (Loopback.run w (init o)
      [.begin, .arrive { url := { path := "/", rawQuery := "code=c&state=st" } } (.ok t),
       .act 0, .act 0, .deliver 0, .close]).map Run.main = some (.returned (.ok t)))
  exact ⟨s, ⟨_, hrun⟩, hm, reachable_token_callback ⟨_, hrun⟩ hm⟩

/-! ## `DoLoopbackAuthorization` -/

/-- The results `DoLoopbackAuthorization` can return for a session: the failure of
`NewServer`, or what a run from the started server returns, over any interleaving. -/
def LoopbackResult (env : Env) (o : Oauth) (r : Result Token) : Prop :=
  match o.newServer env.listen with
  | .error f => r = .error f
  | .ok srvURL => ∃ s r', Reachable ⟨srvURL, env.sha256, env.openBrowser⟩ o s ∧
      s.main = .returned r' ∧ r = r'.mapError .error

/-- The loopback flow never returns a token that carries a provider error. -/
theorem loopbackResult_token_ok {env : Env} {o : Oauth} {t : Token}
    (h : LoopbackResult env o (.ok t)) : ¬ t.IsProviderError := by
  unfold LoopbackResult at h
  split at h
  · cases h
  · obtain ⟨s, r', hs, hm, hr⟩ := h
    cases r' with
    | error e => cases hr
    | ok t' =>
        cases hr
        exact reachable_token_ok hs hm

end Loopback
end Command
end StepOAuth
