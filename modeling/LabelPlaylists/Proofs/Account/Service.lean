import LabelPlaylists.Proofs.Account.Renewal
import LabelPlaylists.Proofs.Result

namespace LabelPlaylists

open Account (renewed)
open Spotify (Call Grant Schema Trouble)

-- The call of an exchange with Spotify, and the reply to it.
def Exchange.call? : Exchange → Option (Call × Except Trouble Json)
  | ⟨.call _ c, reply⟩ => some (c, reply)
  | _                  => none

-- The calls that have been made in the course of a run, each with the reply to it.
def called (es : List Exchange) : List (Call × Except Trouble Json) := es.filterMap Exchange.call?

@[simp]
theorem called_nil : called [] = [] := rfl

@[simp]
theorem called_cons (e : Exchange) (es : List Exchange) :
    called (e :: es) = e.call?.toList ++ called es := by
  unfold called
  cases h : e.call? <;> simp [h]

@[simp]
theorem called_append (es rest : List Exchange) : called (es ++ rest) = called es ++ called rest :=
  List.filterMap_append

theorem called_eq_nil {es : List Exchange} (h : ∀ e ∈ es, e.call? = none) : called es = [] :=
  List.filterMap_eq_nil_iff.mpr h

theorem Exchange.call?_eq_some {e : Exchange} {c : Call × Except Trouble Json} (h : e.call? = some c) :
    ∃ token, e.request = .call token c.1 := by
  obtain ⟨r, reply⟩ := e
  cases r <;> cases h
  exact ⟨_, rfl⟩

-- The requests by which a program comes by a valid token, none of them a call of Spotify.
def Request.IsAside : Request → Prop
  | .library (.setTokens ..) | .grant _ | .now | .log _ | .session | .setSession _ => True
  | _ => False

theorem Exchange.call?_eq_none {e : Exchange} (h : e.request.IsAside) : e.call? = none := by
  obtain ⟨r, reply⟩ := e
  cases r <;> first | rfl | cases h

-- Requests among which are all by which a program comes by a valid token.
structure Request.Covers (P : Request → Prop) : Prop where
  log        : ∀ level logger message, P (.log { level, logger, message })
  session    : P .session
  setSession : ∀ x, P (.setSession x)
  now        : P .now
  grant      : ∀ f, P (.grant f)
  setTokens  : ∀ (u : Int) (access : String) m (refresh : Option String),
    P (.library (.setTokens (.integer u) (.text access) m (.ofOption refresh)))

theorem Request.Covers.mono {P Q : Request → Prop} (h : Covers P) (hp : ∀ {r}, P r → Q r) : Covers Q where
  log level logger message     := hp (h.log level logger message)
  session                      := hp h.session
  setSession x                 := hp (h.setSession x)
  now                          := hp h.now
  grant f                      := hp (h.grant f)
  setTokens u access m refresh := hp (h.setTokens u access m refresh)

theorem Request.covers_aside : Covers IsAside := by
  constructor <;> intros <;> trivial

namespace Account

open Program (Asks)

variable {P : Request → Prop}

theorem asks_log {level : Log.Level} {logger message : String} (hl : P (.log { level, logger, message })) :
    (Program.log level logger message).Asks P :=
  .ask hl fun _ => .done

theorem asks_session (hs : P .session) : Program.session.Asks P :=
  .ask hs fun reply => by cases reply <;> constructor

theorem asks_now (hn : P .now) : Program.now.Asks P :=
  .ask hn fun reply => by cases reply <;> constructor

theorem asks_requestGrant {f : Grant.Form} (hg : P (.grant f))
    (hl : ∀ level logger message, P (.log { level, logger, message })) : (requestGrant f).Asks P := by
  refine .ask hg fun reply => ?_
  cases reply
  case error => exact .fail
  case ok a =>
    dsimp only
    split
    case isFalse => exact (asks_log (hl ..)).bind fun _ => .fail
    case isTrue =>
      split
      case h_1 => exact .fail
      case h_2 => split <;> constructor

theorem asks_expiry {lifetime : Int} (hn : P .now) : (expiry lifetime).Asks P :=
  (asks_now hn).bind fun _ => by split <;> constructor

theorem asks_refresh (h : Request.Covers P) : refresh.Asks P := by
  refine (asks_session h.session).bind fun s => (asks_requestGrant (h.grant _) h.log).bind fun g => ?_
  refine (asks_expiry h.now).bind fun m => Asks.bind (.ask (h.setTokens ..) fun reply => ?_) fun _ => ?_
  · cases reply <;> constructor
  · exact Asks.bind (.ask (h.setSession _) fun _ => .done) fun _ => asks_log (h.log ..)

theorem asks_validToken (h : Request.Covers P) : validToken.Asks P := by
  refine (asks_session h.session).bind fun s => (asks_now h.now).bind fun m => ?_
  have ht : (Program.session >>= fun x => pure x.accessToken).Asks P :=
    (asks_session h.session).bind fun _ => .done
  split
  case isTrue  => exact (asks_log (h.log ..)).bind fun _ => (asks_refresh h).bind fun _ => ht
  case isFalse => exact ht

end Account

namespace Surroundings

variable {σ : Type} {S : Surroundings σ} {s s' s'' : σ} {es : List Exchange}

-- The scene is as it was, up to new tokens of the user in session.
def Rests (S : Surroundings σ) (s s' : σ) : Prop :=
  S.scene s' = S.scene s ∨
  ∃ x g m, (S.scene s).session = some x ∧ S.Renewed x g m s s'

-- Scenes of which something holds that new tokens and calls of Spotify do not change.
structure Lasting (S : Surroundings σ) (J : Scene → Prop) : Prop where
  rests : ∀ {s s'}, S.Rests s s' → J (S.scene s) → J (S.scene s')
  call  : ∀ {a} c, J a → J { a with calls := a.calls ++ [c] }

namespace Runs

variable {t : Program α} {o : Except Failure α}

theorem called_eq_nil (h : S.Runs t s es o s') (ht : t.Asks Request.IsAside) : called es = [] :=
  LabelPlaylists.called_eq_nil fun e he => e.call?_eq_none (h.forall_mem ht e he)

-- A call is made by a request for it.
theorem forall_mem_called {P : Request → Prop} (h : S.Runs t s es o s') (ht : t.Asks P) :
    ∀ c ∈ called es, ∃ token, P (.call token c.1) := by
  intro c hc
  have ⟨e, he, hc⟩ := List.mem_filterMap.mp hc
  have ⟨token, hr⟩ := Exchange.call?_eq_some hc
  exact ⟨token, hr ▸ h.forall_mem ht e he⟩

-- The replies to calls are those of the surroundings.
theorem forall_called {P : Call → Except Trouble Json → Prop} (h : S.Runs t s es o s')
    (hp : ∀ {token c s}, P c (S.answer (.call token c) s).1) : ∀ c ∈ called es, P c.1 c.2 := by
  induction h
  case done => exact List.forall_mem_nil _
  case fail => exact List.forall_mem_nil _
  case ask r _ _ _ _ _ _ hr =>
    cases r
    case call => exact List.forall_mem_cons.mpr ⟨hp, hr⟩
    all_goals exact hr

theorem validToken_rests {o : Except Failure String} (h : S.Runs Account.validToken s es o s') :
    S.Rests s s' := by
  cases hx : (S.scene s).session
  case none =>
    have ⟨rest, he, h⟩ := h.ask_inv
    have ⟨hr, hs⟩ := Prod.mk.inj (S.session (s := s))
    rw [hr, hx] at h
    exact .inl (h.fail_inv.right.right ▸ hs)
  case some x =>
    rcases h.validToken_inv hx with ⟨hs, _⟩ | ⟨g, m, hr, _⟩
    case inl => exact .inl hs
    case inr => exact .inr ⟨x, g, m, hx, hr⟩

-- A failure that is logged before.
theorem log_fail_inv {level : Log.Level} {logger message : String} {e : Failure}
    (h : S.Runs (Program.log level logger message >>= fun _ => (.fail e : Program α)) s es o s') :
    called es = [] ∧ S.scene s' = S.scene s ∧ o = .error e := by
  have ⟨_, _, _, he, hs, h⟩ := h.log_bind_inv
  have ⟨hn, ho, hs'⟩ := h.fail_inv
  exact ⟨by rw [he, hn]; rfl, hs' ▸ hs, ho⟩

-- A call is made once, and the reply to it tells what it comes to.
theorem execute_inv {token : String} {c : Call} {schema : Schema α}
    (h : S.Runs (Account.Service.execute token c schema) s es o s') :
    called es = [(c, (S.answer (.call token c) s).1)] ∧
      S.scene s' = { S.scene s with calls := (S.scene s).calls ++ [c] } ∧
      o = told schema (S.answer (.call token c) s).1 := by
  obtain ⟨rest, he, hr⟩ := h.ask_inv
  suffices hs : called rest = [] ∧ S.scene s' = S.scene (S.answer (.call token c) s).2 ∧
      o = told schema (S.answer (.call token c) s).1 by
    obtain ⟨hn, hs, ho⟩ := hs
    exact ⟨by rw [he, called_cons, hn]; rfl, hs.trans S.call, ho⟩
  cases ha : (S.answer (.call token c) s).1 <;> rw [ha] at hr
  case error trouble =>
    cases trouble
    case refused     => exact hr.log_fail_inv
    case unreachable => exact hr.log_fail_inv
    all_goals
      obtain ⟨hn, ho, hs⟩ := fail_inv hr
      exact ⟨hn ▸ rfl, hs ▸ rfl, ho⟩
  case ok body =>
    cases hb : schema.read body <;> simp only [hb] at hr
    case error faults =>
      obtain ⟨hn, hs, ho⟩ := hr.log_fail_inv
      exact ⟨hn, hs, by rw [ho, told, hb]; rfl⟩
    case ok a =>
      obtain ⟨hn, ho, hs⟩ := hr.done_inv
      exact ⟨hn ▸ rfl, hs ▸ rfl, by rw [ho, told, hb]; rfl⟩

-- If it comes to something, there is nothing else to it.
theorem execute_ok_eq {token : String} {c : Call} {schema : Schema α} {a : α}
    (h : S.Runs (Account.Service.execute token c schema) s es (.ok a) s') :
    es = [⟨.call token c, (S.answer (.call token c) s).1⟩] ∧ heard schema (S.answer (.call token c) s).1 = some a := by
  have ⟨_, _, ho⟩ := h.execute_inv
  obtain ⟨rest, he, h⟩ := h.ask_inv
  refine ⟨?_, (toOption_told.symm.trans (congrArg Except.toOption ho.symm))⟩
  cases ha : (S.answer (.call token c) s).1 <;> rw [ha] at ho he h
  case error   => cases ho
  case ok body =>
    cases hb : schema.read body <;> simp only [hb, told, Except.mapError] at h ho
    case error => cases ho
    case ok    => rw [he, h.done_inv.left]

-- A call fails for want of a token, or it is made once, with a token that is valid by then.
theorem call_inv {c : Call} {schema : Schema α}
    (h : S.Runs (Account.Service.call c schema) s es o s') :
    (S.Rests s s' ∧ called es = [] ∧ ∃ e, o = .error e) ∨
    ∃ token s₁ before, S.Runs Account.validToken s before (.ok token) s₁ ∧
      called es = [(c, (S.answer (.call token c) s₁).1)] ∧
      S.scene s' = { S.scene s₁ with calls := (S.scene s₁).calls ++ [c] } ∧
      o = told schema (S.answer (.call token c) s₁).1 := by
  rcases h.bind_inv with ⟨e, ho, h⟩ | ⟨token, s₁, before, rest, he, h, h'⟩
  case inl => exact .inl ⟨h.validToken_rests, h.called_eq_nil (Account.asks_validToken Request.covers_aside), e, ho⟩
  case inr =>
    have ⟨hc, hs, ho⟩ := h'.execute_inv
    refine .inr ⟨token, s₁, before, h, ?_, hs, ho⟩
    rw [he, called_append, h.called_eq_nil (Account.asks_validToken Request.covers_aside), hc, List.nil_append]

theorem call_ok_inv {c : Call} {schema : Schema α} {a : α}
    (h : S.Runs (Account.Service.call c schema) s es (.ok a) s') :
    ∃ token s₁ before, S.Runs Account.validToken s before (.ok token) s₁ ∧
      called es = [(c, (S.answer (.call token c) s₁).1)] ∧
      S.scene s' = { S.scene s₁ with calls := (S.scene s₁).calls ++ [c] } ∧
      heard schema (S.answer (.call token c) s₁).1 = some a := by
  rcases h.call_inv with ⟨_, _, _, he⟩ | ⟨token, s₁, before, ht, hc, hs, ho⟩
  case inl => cases he
  case inr => exact ⟨token, s₁, before, ht, hc, hs, by rw [← toOption_told, ← ho]; rfl⟩

-- A call is made by whoever renews tokens.
theorem call_told {G : σ → Prop} {u : Int} {c : Call} {schema : Schema α} (hr : S.Renews G) (hk : S.Keeps G)
    (hu : Datum.IsStorable u) (hs : S.Serves G u s) (h : S.Runs (Account.Service.call c schema) s es o s') :
    ∃ token s₁, S.Idles G u s s₁ ∧ called es = [(c, (S.answer (.call token c) s₁).1)] ∧
      o = told schema (S.answer (.call token c) s₁).1 := by
  rcases h.bind_inv with ⟨_, _, h₁⟩ | ⟨token, s₁, before, rest, he, h₁, h⟩ <;>
    rcases h₁.leads (leads_validToken hk hu (.refl hs)) with ⟨_, ho₁, hi⟩ | ⟨_, ho₁, hn⟩ <;> cases ho₁
  case inl.inr => exact absurd hr hn.left
  case inr.inl =>
    have ⟨hc, _, ho⟩ := h.execute_inv
    refine ⟨token, s₁, hi, ?_, ho⟩
    rw [he, called_append, h₁.called_eq_nil (Account.asks_validToken Request.covers_aside), hc, List.nil_append]

-- A call that is answered as expected by whoever renews tokens.
theorem call_succeeds {G : σ → Prop} {u : Int} {c : Call} {schema : Schema α} (hr : S.Renews G)
    (hk : S.Keeps G) (hu : Datum.IsStorable u) (hs : S.Serves G u s)
    (hc : ∀ token s, G s → (heard schema (S.answer (.call token c) s).1).isSome)
    (h : S.Runs (Account.Service.call c schema) s es o s') :
    ∃ a reply, o = .ok a ∧ called es = [(c, reply)] ∧ heard schema reply = some a := by
  have ⟨token, s₁, hi, he, ho⟩ := h.call_told hr hk hu hs
  have ⟨a, ha⟩ := Option.isSome_iff_exists.mp (hc token s₁ hi.serves.good)
  refine ⟨a, _, ?_, he, ha⟩
  rw [← toOption_told, ← ho] at ha
  exact eq_ok_of_toOption ha

end Runs

namespace Preserves

variable {J : Scene → Prop}

theorem validToken (hj : S.Lasting J) : S.Preserves J Account.validToken :=
  fun _ _ _ _ h => hj.rests h.validToken_rests

theorem call (hj : S.Lasting J) {c : Call} {schema : Schema α} :
    S.Preserves J (Account.Service.call c schema) := by
  intro _ _ _ _ h hs
  rcases h.call_inv with ⟨hr, _⟩ | ⟨_, _, _, ht, _, hc, _⟩
  case inl => exact hj.rests hr hs
  case inr => exact hc ▸ hj.call c (hj.rests ht.validToken_rests hs)

theorem artists (hj : S.Lasting J) {ids : List String} :
    S.Preserves J (Account.Service.artists ids) := by
  unfold Account.Service.artists
  induction pieces Account.Service.moreArtists ids
  case nil => exact .done
  case cons batch rest hr =>
    exact Preserves.bind .log fun _ => (call hj).bind fun _ => hr.bind fun _ => .done

end Preserves

end Surroundings

end LabelPlaylists
