import StepOAuth.Command.Loopback

/-!
# What the loopback flow returns

`Command.Loopback` says what every run of `DoLoopbackAuthorization` keeps. This module says
when a run can return, and with what.

* `closing_returns_iff`: once the `select` has resolved, some continuation returns exactly when
  no handler in flight has a send still ahead of it: `run_returns` lets the handlers finish and
  `srv.Close` return, and `run_sendAhead` shows that a send ahead keeps `srv.Close` waiting;
* `loopbackResult_iff`: `DoLoopbackAuthorization` returns exactly the failure of `NewServer`,
  the failure of `Auth`, the timeout, or what the handler of some callback sends. For the last
  case `callback_returns` builds the run: the callback arrives, its handler does its actions up
  to its send (`run_acts`), the send meets the `select`, and `srv.Close` returns.
-/

namespace StepOAuth
namespace Command
namespace Loopback

open Go

variable {w : Setup}

/-! ## When `DoLoopbackAuthorization` can return -/

/-- Invocation `h` has a send still ahead of it. -/
def Run.sendAhead (s : Run) (h : Invocation) : Bool :=
  ((s.o.serveHTTP h.req h.reply).drop h.pc).any Effect.isSend

section Return

variable {s s' : Run} {ev : Event} {r : Except Err Token} {h : Invocation}

/-- What lies ahead of a handler is its next action, then what lies ahead after it. -/
theorem sendAhead_of_next {e : Effect} (hn : s.next h = some e) :
    s.sendAhead h = (e.isSend || s.sendAhead { h with pc := h.pc + 1 }) := by
  obtain ⟨hlt, hget⟩ := List.getElem?_eq_some_iff.1 hn
  simp only [Run.sendAhead]
  rw [List.drop_eq_getElem_cons hlt, List.any_cons, hget]

theorem next_of_sendAhead (ha : s.sendAhead h = true) : ∃ e, s.next h = some e := by
  obtain ⟨e, he, -⟩ := List.any_eq_true.1 ha
  have hlt : h.pc < (s.o.serveHTTP h.req h.reply).length := by
    by_contra hge
    rw [List.drop_eq_nil_of_le (by omega)] at he
    cases he
  exact ⟨_, List.getElem?_eq_getElem hlt⟩

/-- Once the `select` has resolved, a handler with a send ahead keeps it ahead whatever
happens, and the main goroutine stays in `srv.Close`. -/
theorem step_sendAhead {i : Nat} (hm : s.main = .closing r) (hd : s.handlers[i]? = some h)
    (ha : s.sendAhead h = true) (hs : step w s ev = some s') :
    s'.main = .closing r ∧ ∃ h', s'.handlers[i]? = some h' ∧ s'.sendAhead h' = true := by
  rcases step_cases hs with ⟨hm', -⟩ | ⟨hm', -⟩ | ⟨-, req, reply, rfl⟩ |
      ⟨j, hv, e, hd', hn, hse, rfl⟩ | ⟨hm', -⟩ | ⟨hm', -⟩ | ⟨r', -, hall, rfl⟩
  · simp [hm] at hm'
  · simp [hm] at hm'
  · -- a request arrives: the handler keeps its place
    exact ⟨hm, h, by rw [List.getElem?_append_left (List.getElem?_eq_some_iff.mp hd).1, hd], ha⟩
  · -- a handler acts: the send is still ahead of it, or it is another handler
    refine ⟨hm, ?_⟩
    by_cases hji : j = i
    · subst hji
      rw [hd] at hd'
      cases hd'
      refine ⟨{ h with pc := h.pc + 1 }, ?_, ?_⟩
      · simp [Run.advance, List.getElem?_set_self (List.getElem?_eq_some_iff.mp hd).1]
      · simpa [sendAhead_of_next hn, hse] using ha
    · exact ⟨h, by simpa [Run.advance, List.getElem?_set_ne hji] using hd, ha⟩
  · simp [hm] at hm'
  · simp [hm] at hm'
  · -- `srv.Close` cannot return: the handler has an action left
    obtain ⟨e, he⟩ := next_of_sendAhead ha
    simp [hall h (List.getElem?_mem hd)] at he

/-- **A send ahead of a handler once the `select` has resolved keeps `srv.Close` waiting
forever**: no continuation of the run returns. -/
theorem run_sendAhead : ∀ {s : Run} {es : List Event} {s' : Run} {i : Nat} {h : Invocation},
    s.main = .closing r → s.handlers[i]? = some h → s.sendAhead h = true →
    Loopback.run w s es = some s' → s'.main = .closing r
  | _, [], _, _, _, hm, _, _, hr => by cases hr; exact hm
  | _, _ :: _, _, _, _, hm, hd, ha, hr => by
      simp only [Loopback.run, Option.bind_eq_some] at hr
      obtain ⟨s₁, h₁, h₂⟩ := hr
      obtain ⟨hm₁, h', hd', ha'⟩ := step_sendAhead hm hd ha h₁
      exact run_sendAhead hm₁ hd' ha' h₂

/-- Advancing one entry of a list by one step of a measure lowers the measure's sum by one. -/
theorem sum_map_set {α : Type} {f : α → Nat} : ∀ {l : List α} {i : Nat} {x y : α},
    l[i]? = some y → f x + 1 = f y →
      ((l.set i x).map f).foldr (· + ·) 0 + 1 = (l.map f).foldr (· + ·) 0
  | [], _, _, _, hi, _ => by simp at hi
  | _ :: _, 0, _, _, hi, hf => by
      simp only [List.getElem?_cons_zero, Option.some.injEq] at hi
      subst hi
      simp only [List.set_cons_zero, List.map_cons, List.foldr_cons]
      omega
  | _ :: _, i + 1, _, _, hi, hf => by
      have := sum_map_set (i := i) (by simpa using hi) hf
      simp only [List.set_cons_succ, List.map_cons, List.foldr_cons]
      omega

/-- With no send ahead of any handler, the handlers can run to their end and `srv.Close`
return. -/
theorem run_returns (hm : s.main = .closing r) (hq : ∀ h ∈ s.handlers, s.sendAhead h = false) :
    ∃ es s', Loopback.run w s es = some s' ∧ s'.main = .returned r := by
  -- induction on the actions the handlers have left
  obtain ⟨n, hn⟩ : ∃ n,
      (s.handlers.map fun h => (s.o.serveHTTP h.req h.reply).length - h.pc).foldr (· + ·) 0 = n :=
    ⟨_, rfl⟩
  induction n using Nat.strong_induction_on generalizing s with
  | _ n ih =>
  by_cases hall : ∀ h ∈ s.handlers, s.next h = none
  · -- every handler is done: `srv.Close` returns
    refine ⟨[.close], { s with main := .returned r }, ?_, rfl⟩
    simp [Loopback.run, step, hm]
    exact hall
  · -- a handler acts, which is not a send
    push_neg at hall
    obtain ⟨h, hmem, hne⟩ := hall
    obtain ⟨e, he⟩ := Option.ne_none_iff_exists'.1 hne
    obtain ⟨i, hd⟩ := List.mem_iff_getElem?.1 hmem
    have hq' := hq h hmem
    rw [sendAhead_of_next he, Bool.or_eq_false_iff] at hq'
    have hstep : step w s (.act i) = some (s.advance i h e) := by
      simp [step, hd, he, hq'.1]
    have hlt := (List.getElem?_eq_some_iff.1 he).1
    have hsum := sum_map_set (f := fun h => (s.o.serveHTTP h.req h.reply).length - h.pc)
      (x := { h with pc := h.pc + 1 }) hd (by dsimp only; omega)
    rw [hn] at hsum
    obtain ⟨es, s', hr, hm'⟩ := ih _ (Nat.lt_of_succ_le hsum.le) (s := s.advance i h e) hm
      (fun h' hh' => by
        rcases List.mem_or_eq_of_mem_set hh' with hh' | rfl
        exacts [hq h' hh', hq'.2]) rfl
    exact ⟨.act i :: es, s', by simp [Loopback.run, hstep, hr], hm'⟩

/-- **When `DoLoopbackAuthorization` can return.** Once the `select` has resolved, some
continuation of the run returns exactly when no handler in flight has a send still ahead of
it; a handler that has one keeps `srv.Close` waiting forever. -/
theorem closing_returns_iff (hm : s.main = .closing r) :
    (∃ es s', Loopback.run w s es = some s' ∧ s'.main = .returned r) ↔
      ∀ h ∈ s.handlers, s.sendAhead h = false := by
  refine ⟨fun ⟨es, s', hr, hm'⟩ h hmem => ?_, run_returns hm⟩
  by_contra ha
  obtain ⟨i, hd⟩ := List.mem_iff_getElem?.1 hmem
  have := run_sendAhead hm hd (by simpa using ha) hr
  rw [hm'] at this
  cases this

/-- `closing_returns_iff` after two valid callbacks: the `select` took the first token, and the
second handler still has its send ahead, so no continuation returns. -/
theorem closing_returns_two_callbacks :
    let w : Setup := ⟨ascii "http://127.0.0.1:5000", fun _ => [], fun _ _ => true⟩
    let o : Oauth :=
      { authzEndpoint := "https://idp.example/auth", state := "st", callbackPath := "/" }
    let cb : Request := { url := { path := "/", rawQuery := "code=c&state=st" } }
    let es : List Event := [.begin, .arrive cb (.ok { accessToken := "a" }),
      .arrive cb (.ok { accessToken := "b" }), .act 0, .act 0, .act 1, .act 1, .deliver 0]
    ∃ s, Loopback.run w (init o) es = some s ∧ s.main = .closing (.ok { accessToken := "a" }) ∧
      (∃ h ∈ s.handlers, s.sendAhead h = true) ∧
      ((∃ es' s', Loopback.run w s es' = some s' ∧
          s'.main = .returned (.ok { accessToken := "a" })) ↔
        ∀ h ∈ s.handlers, s.sendAhead h = false) := by
  intro w o cb es
  obtain ⟨s, hs⟩ : ∃ s, Loopback.run w (init o) es = some s :=
    Option.isSome_iff_exists.1 (by decide)
  have hm : (Loopback.run w (init o) es).map Run.main =
      some (.closing (.ok { accessToken := "a" })) := by decide
  have ha : (Loopback.run w (init o) es).map (fun s => s.handlers.any s.sendAhead) = some true := by
    decide
  rw [hs, Option.map_some', Option.some.injEq] at hm ha
  exact ⟨s, hs, hm, List.any_eq_true.1 ha, closing_returns_iff hm⟩

end Return

/-! ## Runs put together -/

section Compose

variable {s s' : Run}

theorem run_append (s : Run) (es₁ es₂ : List Event) :
    Loopback.run w s (es₁ ++ es₂) =
      (Loopback.run w s es₁).bind fun s' => Loopback.run w s' es₂ := by
  induction es₁ generalizing s with
  | nil => rfl
  | cons e es ih =>
      simp only [List.cons_append, Loopback.run, List.append_eq, ih, Option.bind_assoc]

/-- A run from a reachable state reaches a reachable state. -/
theorem Reachable.extend {o : Oauth} {es : List Event} (hs : Reachable w o s)
    (h : Loopback.run w s es = some s') : Reachable w o s' := by
  obtain ⟨es₀, h₀⟩ := hs
  exact ⟨es₀ ++ es, by rw [run_append, h₀]; exact h⟩

theorem set_self_of_getElem? {α : Type} {l : List α} {i : Nat} {a : α} (h : l[i]? = some a) :
    l.set i a = l :=
  List.ext_getElem? fun j => by
    by_cases hj : i = j
    · subst hj
      rw [List.getElem?_set_self (List.getElem?_eq_some_iff.1 h).1, h]
    · exact List.getElem?_set_ne hj

/-- **Handler `i` does its next `k` actions**, none of which is a send. -/
theorem run_acts {i : Nat} : ∀ (k : Nat) {s : Run} {h : Invocation}, s.handlers[i]? = some h →
    h.pc + k ≤ (s.o.serveHTTP h.req h.reply).length →
    (∀ e ∈ ((s.o.serveHTTP h.req h.reply).drop h.pc).take k, e.isSend = false) →
    Loopback.run w s (List.replicate k (.act i)) =
      some { s with handlers := s.handlers.set i { h with pc := h.pc + k },
                    trace := s.trace ++ ((s.o.serveHTTP h.req h.reply).drop h.pc).take k }
  | 0, s, h, hd, _, _ => by
      have hh : ({ h with pc := h.pc + 0 } : Invocation) = h := rfl
      rw [hh, set_self_of_getElem? hd]
      simp [Loopback.run]
  | k + 1, s, h, hd, hk, hq => by
      have hlt : h.pc < (s.o.serveHTTP h.req h.reply).length := by omega
      have hdrop := List.drop_eq_getElem_cons hlt
      have hx : (s.o.serveHTTP h.req h.reply)[h.pc].isSend = false :=
        hq _ (by rw [hdrop]; exact List.mem_cons_self _ _)
      have hstep :
          step w s (.act i) = some (s.advance i h (s.o.serveHTTP h.req h.reply)[h.pc]) := by
        simp [step, hd, Run.next, List.getElem?_eq_getElem hlt, hx]
      have hrest := run_acts k (s := s.advance i h (s.o.serveHTTP h.req h.reply)[h.pc])
        (h := { h with pc := h.pc + 1 })
        (List.getElem?_set_self (List.getElem?_eq_some_iff.1 hd).1) (by simp; omega)
        (fun e he => hq e (by rw [hdrop]; exact List.mem_cons_of_mem _ he))
      have hpc : h.pc + 1 + k = h.pc + (k + 1) := by omega
      rw [List.replicate_succ, Loopback.run, hstep, Option.some_bind, hrest]
      simp only [Run.advance, List.set_set, hdrop, List.take_succ_cons, List.append_assoc,
        List.singleton_append, hpc]

/-- A send that meets the `select` resolves it with what was sent. -/
theorem step_deliver {i : Nat} {h : Invocation} {e : Effect} {r : Except Err Token}
    (hm : s.main = .selecting) (hd : s.handlers[i]? = some h) (hn : s.next h = some e)
    (he : e.received = some r) :
    step w s (.deliver i) = some { s.advance i h e with main := .closing r } := by
  cases e <;> simp [Effect.received] at he <;> subst he <;> simp [step, hm, hd, hn]

end Compose

/-! ## What `DoLoopbackAuthorization` returns -/

/-- `Auth` gives the URL, and a callback arrives. -/
theorem run_begin_arrive {o : Oauth} {url : Bytes} (req : Request) (reply : Except Bytes Token)
    (ha : (loopbackSession o w.srvURL).auth w.sha256 = .ok url) :
    ∃ s, Loopback.run w (init o) [.begin, .arrive req reply] = some s ∧ s.main = .selecting ∧
      s.o = loopbackSession o w.srvURL ∧ s.handlers = [{ req, reply }] :=
  ⟨{ o := loopbackSession o w.srvURL, main := .selecting, handlers := [{ req, reply }],
     trace := browserLines (w.openBrowser url (loopbackSession o w.srvURL).browser) url,
     shown := some (url, 0) }, by simp [Loopback.run, step, init, ha], rfl, rfl, rfl⟩

/-- **A callback's send can end the run.** Once `Auth` has given the URL, a callback arrives;
its handler does its actions up to its send, which is its last; the send meets the `select`,
and `srv.Close` returns with what was sent. -/
theorem callback_returns {o : Oauth} {url : Bytes} {req : Request} {reply : Except Bytes Token}
    {e : Effect} {r : Except Err Token} (ha : (loopbackSession o w.srvURL).auth w.sha256 = .ok url)
    (he : e ∈ (loopbackSession o w.srvURL).serveHTTP req reply) (hr : e.received = some r) :
    ∃ s, Reachable w o s ∧ s.main = .returned r := by
  -- the send is the handler's last action
  have hsend : e.isSend = true := by rw [← Effect.received_isSome, hr]; rfl
  obtain ⟨pre, hL⟩ : ∃ pre, (loopbackSession o w.srvURL).serveHTTP req reply = pre ++ [e] := by
    have hsplit := (List.dropLast_concat_getLast (List.ne_nil_of_mem he)).symm
    rcases List.mem_append.1 (hsplit ▸ he) with hd | hd
    · exact absurd (serveHTTP_sendLast _ req reply e hd) (by simp [hsend])
    · exact ⟨_, by rwa [← List.mem_singleton.1 hd] at hsplit⟩
  have hpre : ∀ x ∈ pre, x.isSend = false := fun x hx =>
    serveHTTP_sendLast _ req reply x (by rw [hL, List.dropLast_concat]; exact hx)
  -- the callback arrives, and its handler does its actions up to the send
  obtain ⟨s₁, h₁, hm₁, ho₁, hh₁⟩ := run_begin_arrive req reply ha
  have hd₁ : s₁.handlers[0]? = some { req := req, reply := reply } := by rw [hh₁]; rfl
  obtain ⟨s₂, h₂, hm₂, ho₂, hh₂⟩ : ∃ s₂, Loopback.run w s₁ (List.replicate pre.length (.act 0)) =
      some s₂ ∧ s₂.main = .selecting ∧ s₂.o = loopbackSession o w.srvURL ∧
      s₂.handlers = [{ req := req, reply := reply, pc := pre.length }] :=
    ⟨_, run_acts pre.length hd₁ (by simp [ho₁, hL]) (by simpa [ho₁, hL] using hpre), hm₁, ho₁,
      by simp [hh₁]⟩
  -- the send meets the `select`, and no send is left ahead
  obtain ⟨s₃, h₃, hm₃, hq₃⟩ : ∃ s₃, step w s₂ (.deliver 0) = some s₃ ∧ s₃.main = .closing r ∧
      ∀ h ∈ s₃.handlers, s₃.sendAhead h = false :=
    ⟨_, step_deliver (i := 0) (h := { req := req, reply := reply, pc := pre.length })
      hm₂ (by rw [hh₂]; rfl) (by simp [Run.next, ho₂, hL]) hr, rfl, fun h hh => by
        simp [Run.advance, hh₂] at hh
        simp [hh, Run.sendAhead, ho₂, hL]⟩
  -- `srv.Close` returns
  obtain ⟨es, s₄, h₄, hm₄⟩ := run_returns hm₃ hq₃
  have hR₁ : Reachable w o s₁ := ⟨_, h₁⟩
  have h₃' : Loopback.run w s₂ [.deliver 0] = some s₃ := by rw [Loopback.run, h₃]; rfl
  have hR₃ := (hR₁.extend h₂).extend h₃'
  exact ⟨s₄, hR₃.extend h₄, hm₄⟩

/-- The results a run can return: `Auth`'s failure; or, once `Auth` has given the URL, the
timeout or what the handler of some callback sends. -/
theorem returns_iff (o : Oauth) (r : Except Err Token) :
    (∃ s, Reachable w o s ∧ s.main = .returned r) ↔
      (∃ e, (loopbackSession o w.srvURL).auth w.sha256 = .error e ∧ r = .error e) ∨
      ((∃ url, (loopbackSession o w.srvURL).auth w.sha256 = .ok url) ∧
        (r = .error timeoutErr ∨
          ∃ req reply e, e ∈ (loopbackSession o w.srvURL).serveHTTP req reply ∧
            e.received = some r)) := by
  constructor
  · rintro ⟨s, hs, hm⟩
    have ho : s.o = loopbackSession o w.srvURL := by simpa [hm] using hs.session_eq
    rcases hs.inv.outcome r (.inr hm) with ⟨e, ha, rfl, -⟩ | ⟨hurl, ⟨rfl, -⟩ | ⟨e, hf, he⟩⟩
    · exact .inl ⟨e, ho ▸ ha, rfl⟩
    · exact .inr ⟨ho ▸ hurl, .inl rfl⟩
    · obtain ⟨hmem, hsend⟩ := List.mem_filter.1 (hf ▸ List.mem_singleton_self e)
      obtain ⟨i, h, -, hh⟩ := hs.inv.provenance e hmem hsend
      exact .inr ⟨ho ▸ hurl, .inr ⟨h.req, h.reply, e, ho ▸ hh, he⟩⟩
  · rintro (⟨e, ha, rfl⟩ | ⟨⟨url, ha⟩, rfl | ⟨req, reply, e, he, hr⟩⟩)
    · -- `Auth` fails, and `srv.Close` returns at once
      exact ⟨{ o := loopbackSession o w.srvURL, main := .returned (.error e), handlers := [],
               trace := [], shown := none },
        ⟨[.begin, .close], by simp [Loopback.run, step, init, ha]⟩, rfl⟩
    · -- the timer fires before any callback
      exact ⟨{ o := loopbackSession o w.srvURL, main := .returned (.error timeoutErr),
               handlers := [],
               trace := browserLines (w.openBrowser url (loopbackSession o w.srvURL).browser) url,
               shown := some (url, 0) },
        ⟨[.begin, .timeout, .close], by simp [Loopback.run, step, init, ha]⟩, rfl⟩
    · exact callback_returns ha he hr

/-- **What `DoLoopbackAuthorization` returns**, over every interleaving of callbacks, handler
actions and the timer: the failure of `NewServer`; or, with the server's URL as the
`redirectURI`, the failure of `Auth`, the timeout, or what the handler of some callback sends.
Each of these is what some run returns. -/
theorem loopbackResult_iff (env : Env) (o : Oauth) (r : Result Token) :
    LoopbackResult env o r ↔
      (∃ f, o.newServer env.listen = .error f ∧ r = .error f) ∨
      ∃ srvURL r', o.newServer env.listen = .ok srvURL ∧ r = r'.mapError .error ∧
        ((∃ e, (loopbackSession o srvURL).auth env.sha256 = .error e ∧ r' = .error e) ∨
          ((∃ url, (loopbackSession o srvURL).auth env.sha256 = .ok url) ∧
            (r' = .error timeoutErr ∨
              ∃ req reply e, e ∈ (loopbackSession o srvURL).serveHTTP req reply ∧
                e.received = some r'))) := by
  unfold LoopbackResult
  cases o.newServer env.listen with
  | error f => simp
  | ok srvURL =>
    let w : Setup := ⟨srvURL, env.sha256, env.openBrowser⟩
    constructor
    · rintro ⟨s, r', hs, hm, rfl⟩
      exact .inr ⟨srvURL, r', rfl, rfl, (returns_iff (w := w) o r').1 ⟨s, hs, hm⟩⟩
    · rintro (⟨f, hf, -⟩ | ⟨_, r', ⟨⟩, rfl, hr'⟩)
      · cases hf
      · obtain ⟨s, hs, hm⟩ := (returns_iff (w := w) o r').2 hr'
        exact ⟨s, r', hs, hm, rfl⟩

end Loopback
end Command
end StepOAuth
