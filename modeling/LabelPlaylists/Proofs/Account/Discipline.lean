import LabelPlaylists.Proofs.Account.Agreement
import LabelPlaylists.Proofs.Program.Parallel

namespace LabelPlaylists

open Account (renewed)
open Spotify (Call Grant Schema)

-- What goes out to the token endpoint and to Spotify. A call goes out by a client of its own, built with the
-- given access token.
inductive Sent where
  | post (f : Grant.Form)
  | call (token : String) (c : Call)
deriving DecidableEq

def Exchange.sent? : Exchange → Option Sent
  | ⟨.grant f, _⟩      => some (.post f)
  | ⟨.call token c, _⟩ => some (.call token c)
  | _                  => none

-- All that goes out in the course of a run.
def sent (es : List Exchange) : List Sent := es.filterMap Exchange.sent?

@[simp]
theorem sent_nil : sent [] = [] := rfl

@[simp]
theorem sent_cons (e : Exchange) (es : List Exchange) : sent (e :: es) = e.sent?.toList ++ sent es := by
  unfold sent
  cases h : e.sent? <;> simp [h]

@[simp]
theorem sent_append (es rest : List Exchange) : sent (es ++ rest) = sent es ++ sent rest :=
  List.filterMap_append

-- Requests by which nothing goes out.
def Request.IsInner : Request → Prop
  | .library (.setTokens ..) | .now | .log _ | .session | .setSession _ => True
  | _ => False

theorem Exchange.eq_none_of_isInner {e : Exchange} (h : e.request.IsInner) : e.sent? = none ∧ e.grant? = none := by
  obtain ⟨r, reply⟩ := e
  cases r <;> first | exact ⟨rfl, rfl⟩ | cases h

-- A refresh that has succeeded: the grant, and until when its access token is used.
abbrev Renewal := Grant × Moment

namespace Session

variable {x : Session} {rs : List Renewal}

-- The access token of the most recent renewal, and its expiry.

def lastAccess (x : Session) (rs : List Renewal) : String := (rs.getLast?.map (·.1.accessToken)).getD x.accessToken

def lastExpiry (x : Session) (rs : List Renewal) : Moment := (rs.getLast?.map (·.2)).getD x.expiresAt

-- The refresh token of the most recent renewal that has come with one that is not empty.
def lastRefresh (x : Session) (rs : List Renewal) : String :=
  (rs.filterMap fun r => r.1.refreshToken.filter (· ≠ "")).getLast?.getD x.refreshToken

def after (x : Session) (rs : List Renewal) : Session :=
  { x with accessToken := x.lastAccess rs, refreshToken := x.lastRefresh rs, expiresAt := x.lastExpiry rs }

@[simp]
theorem after_nil : x.after [] = x := rfl

@[simp]
theorem lastExpiry_append {r : Renewal} : x.lastExpiry (rs ++ [r]) = r.2 := by
  simp [lastExpiry]

-- A session goes on from renewal to renewal.
theorem after_append {g : Grant} {m : Moment} : x.after (rs ++ [(g, m)]) = renewed (x.after rs) g m := by
  have hr : x.lastRefresh (rs ++ [(g, m)]) = (renewed (x.after rs) g m).refreshToken := by
    simp only [renewed, after, lastRefresh, List.filterMap_append]
    cases hg : g.refreshToken
    case none => simp [hg]
    case some token => by_cases ht : token = "" <;> simp [hg, ht, Option.filter_some]
  rw [after, hr]
  simp [lastAccess, after, renewed]

end Session

namespace Surroundings

variable {σ : Type}

-- How the underlying call of a helper goes, after the renewals that there have been. The clock is read.
-- 1. if it cannot be read, nothing goes out
-- 2. by the expiry, the call goes out with the most recent access token
-- 3. past it, the most recent refresh token goes out first, and if nothing comes of it that is all
-- 4. if it comes to a renewal, the call goes out with the new access token
inductive CallGoes (S : Surroundings σ) (x : Session) (rs : List Renewal) (c : Call) (s : σ) :
    List Exchange → Option Renewal → σ → Prop
  | unread {rest s'} :
    sent rest = [] → S.scene s' = S.scene s →
    CallGoes S x rs c s (⟨.session, some (x.after rs)⟩ :: ⟨.now, none⟩ :: rest) none s'
  | valid {m : Moment} {rest s'} :
    m.instant ≤ (x.lastExpiry rs).instant → sent rest = [.call (x.lastAccess rs) c] →
    S.scene s' = { S.scene s with calls := (S.scene s).calls ++ [c] } →
    CallGoes S x rs c s (⟨.session, some (x.after rs)⟩ :: ⟨.now, some m⟩ :: rest) none s'
  | failed {m : Moment} {rest s'} :
    (x.lastExpiry rs).instant < m.instant → sent rest = [.post (.ofRefresh (x.lastRefresh rs))] →
    S.scene s' = S.scene s →
    CallGoes S x rs c s (⟨.session, some (x.after rs)⟩ :: ⟨.now, some m⟩ :: rest) none s'
  | renewed {m : Moment} {rest g e s₁ s'} :
    (x.lastExpiry rs).instant < m.instant →
    sent rest = [.post (.ofRefresh (x.lastRefresh rs)), .call g.accessToken c] → grants rest = [g] →
    S.Renewed (x.after rs) g e s s₁ → S.scene s' = { S.scene s₁ with calls := (S.scene s₁).calls ++ [c] } →
    CallGoes S x rs c s (⟨.session, some (x.after rs)⟩ :: ⟨.now, some m⟩ :: rest) (some (g, e)) s'

-- One underlying call after the other, from the renewals that there have been to those that there are then.
-- Between them nothing goes out, and the scene stays as it is.
inductive Course (S : Surroundings σ) (x : Session) :
    List Renewal → σ → List Exchange → List Call → List Renewal → σ → Prop
  | nil {rs s} : Course S x rs s [] [] rs s
  | aside {rs s es s₁ more cs rs' s'} :
    sent es = [] → S.scene s₁ = S.scene s → Course S x rs s₁ more cs rs' s' →
    Course S x rs s (es ++ more) cs rs' s'
  | attempt {rs c s es r s₁ more cs rs' s'} :
    S.CallGoes x rs c s es r s₁ → Course S x (rs ++ r.toList) s₁ more cs rs' s' →
    Course S x rs s (es ++ more) (c :: cs) rs' s'

-- The session in use is the one that the renewals have led to. Its expiry is told with a zone.
structure InUse (S : Surroundings σ) (x : Session) (rs : List Renewal) (s : σ) : Prop where
  session : (S.scene s).session = some (x.after rs)
  zone    : (x.lastExpiry rs).zone.isSome

variable {S : Surroundings σ} {x : Session} {rs rs' : List Renewal} {c : Call} {s s' s₁ : σ}
variable {es rest : List Exchange}

namespace Runs

variable {t : Program α} {o : Except Failure α}

theorem inner (h : S.Runs t s es o s') (ht : t.Asks Request.IsInner) : sent es = [] ∧ grants es = [] := by
  have hi := h.forall_mem ht
  exact ⟨List.filterMap_eq_nil_iff.mpr fun e he => (e.eq_none_of_isInner (hi e he)).left,
    List.filterMap_eq_nil_iff.mpr fun e he => (e.eq_none_of_isInner (hi e he)).right⟩

-- The token endpoint is asked once, whatever it replies.
theorem requestGrant_sent {f : Grant.Form} {o : Except Failure Grant}
    (h : S.Runs (Account.requestGrant f) s es o s') : sent es = [.post f] := by
  obtain ⟨rest, he, hr⟩ := h.ask_inv
  suffices hn : sent rest = [] by rw [he, sent_cons, hn]; rfl
  refine (hr.inner ?_).left
  split
  case h_1 => exact .fail
  case h_2 =>
    split
    case isFalse => exact (Account.asks_log trivial).bind fun _ => .fail
    case isTrue =>
      split
      case h_1 => exact .fail
      case h_2 => split <;> constructor

-- A refresh posts the refresh token of the session once, whatever comes of it.
theorem refresh_sent {o : Except Failure Unit} (hx : (S.scene s).session = some x)
    (h : S.Runs Account.refresh s es o s') : sent es = [.post (.ofRefresh x.refreshToken)] := by
  have ⟨r₁, s₁, he₁, _, h⟩ := h.session_bind_inv hx
  rcases h.bind_inv with ⟨e, _, h₂⟩ | ⟨g, s₂, es₂, r₂, he₂, h₂, h⟩
  case inl => rw [he₁, sent_cons, h₂.requestGrant_sent]; rfl
  case inr =>
    have hn : sent r₂ = [] := by
      refine (h.inner ((Account.asks_expiry trivial).bind fun m => Program.Asks.bind ?_ fun _ => ?_)).left
      · exact .ask trivial fun reply => by cases reply <;> constructor
      · exact Program.Asks.bind (.ask trivial fun _ => .done) fun _ => Account.asks_log trivial
    rw [he₁, he₂, sent_cons, sent_append, h₂.requestGrant_sent, hn]
    rfl

theorem accessToken_sent {o : Except Failure String}
    (h : S.Runs (Program.session >>= fun x => pure x.accessToken) s es o s') : sent es = [] :=
  (h.inner ((Account.asks_session trivial).bind fun _ => .done)).left

-- How a valid token is come by: the clock is read, and if the token has expired it is renewed.
theorem validToken_sent {o : Except Failure String} (hx : (S.scene s).session = some x)
    (hz : x.expiresAt.zone.isSome) (h : S.Runs Account.validToken s es o s') :
    ∃ reading rest, es = ⟨.session, some x⟩ :: ⟨.now, reading⟩ :: rest ∧
      (reading = none ∧ sent rest = [] ∧ S.scene s' = S.scene s ∧ (∃ e, o = .error e) ∨
      ∃ m, reading = some m ∧
        (m.instant ≤ x.expiresAt.instant ∧ sent rest = [] ∧ S.scene s' = S.scene s ∧ o = .ok x.accessToken ∨
        x.expiresAt.instant < m.instant ∧ sent rest = [.post (.ofRefresh x.refreshToken)] ∧
          (S.scene s' = S.scene s ∧ (∃ e, o = .error e) ∨
          ∃ g e, S.Renewed x g e s s' ∧ grants rest = [g] ∧ o = .ok g.accessToken))) := by
  have ⟨r₁, s₁, he₁, hs₁, h⟩ := h.session_bind_inv hx
  have ⟨rest, he₂, h⟩ := h.ask_inv
  have ⟨hn, hs₂⟩ := Prod.mk.inj (S.now (s := s₁))
  have hs₂ := hs₂.trans hs₁
  refine ⟨_, rest, by rw [he₁, he₂], ?_⟩
  cases hr : (S.answer .now s₁).1 <;> rw [hr] at h
  case none =>
    have ⟨hrest, ho, hs'⟩ := h.fail_inv
    exact .inl ⟨rfl, hrest ▸ rfl, hs' ▸ hs₂, _, ho⟩
  case some m =>
    have hm : m.zone = some 0 := by
      rw [hn] at hr
      split at hr <;> cases hr
      rfl
    have hexp : x.isExpired? m = some (decide (x.expiresAt.instant < m.instant)) := by
      have ⟨z, hz⟩ := Option.isSome_iff_exists.mp hz
      rw [Session.isExpired?, Moment.isAfter?, hm, hz]
    refine .inr ⟨m, rfl, ?_⟩
    simp only [Program.done_bind] at h
    split at h
    case isFalse he =>
      have ⟨hs₃, ho, _⟩ := h.accessToken_inv (hs₂ ▸ hx)
      refine .inl ⟨?_, h.accessToken_sent, hs₃.trans hs₂, ho⟩
      simpa [hexp] using he
    case isTrue he =>
      have hlt : x.expiresAt.instant < m.instant := by simpa [hexp] using he
      have ⟨_, r₃, s₃, he₃, hs₃, h⟩ := h.log_bind_inv
      have hs₃ := hs₃.trans hs₂
      rcases h.bind_inv with ⟨e, ho, h₄⟩ | ⟨_, s₄, es₄, r₄, he₄, h₄, h⟩ <;>
        have hpost := h₄.refresh_sent (hs₃ ▸ hx) <;>
        rcases h₄.refresh_inv (hs₃ ▸ hx) with ⟨hs₄, _, ho₄⟩ | ⟨g, e, ⟨hi, hz, now, t, n, ht, hs₄⟩, ho₄, hg⟩ <;>
        cases ho₄
      case inl.inl.refl => exact .inr ⟨hlt, by rw [he₃, sent_cons, hpost]; rfl, .inl ⟨hs₄.trans hs₃, e, ho⟩⟩
      case inr.inr.refl =>
        have ⟨hs₅, ho, hn₅⟩ := h.accessToken_inv (x := renewed x g e) (by rw [hs₄])
        refine .inr ⟨hlt, ?_, .inr ⟨g, e, ⟨hi, hz, now, t, n, hs₃ ▸ ht, by rw [hs₅, hs₄, hs₃]⟩, ?_, ho⟩⟩
        case refine_1 => rw [he₃, he₄, sent_cons, sent_append, hpost, h.accessToken_sent]; rfl
        case refine_2 => rw [he₃, he₄, grants_cons, grants_append, hg, hn₅]; rfl

-- A call is made once, whatever is replied.
theorem execute_sent {token : String} {schema : Schema α}
    (h : S.Runs (Account.Service.execute token c schema) s es o s') : sent es = [.call token c] ∧ grants es = [] := by
  obtain ⟨rest, he, hr⟩ := h.ask_inv
  suffices hn : sent rest = [] ∧ grants rest = [] by
    rw [he, sent_cons, grants_cons, hn.left, hn.right]
    exact ⟨rfl, rfl⟩
  generalize (S.answer (.call token c) s).1 = reply at hr
  refine hr.inner ?_
  cases reply
  case error trouble =>
    refine Program.Asks.bind ?_ fun _ => .fail
    cases trouble <;> first | exact .done | exact Account.asks_log trivial
  case ok =>
    dsimp only
    split
    case h_1 => exact .done
    case h_2 => exact (Account.asks_log trivial).bind fun _ => .fail

end Runs

theorem Course.trans {more : List Exchange} {cs ds : List Call} {rs'' : List Renewal} (h : S.Course x rs s es cs rs' s₁)
    (h' : S.Course x rs' s₁ more ds rs'' s') : S.Course x rs s (es ++ more) (cs ++ ds) rs'' s' := by
  induction h
  case nil => exact h'
  case aside hn hk _ hi =>
    rw [List.append_assoc]
    exact .aside hn hk (hi h')
  case attempt ha _ hi =>
    rw [List.append_assoc]
    exact .attempt ha (hi h')

theorem InUse.of_scene (h : S.InUse x rs s) (hk : S.scene s' = S.scene s) : S.InUse x rs s' :=
  ⟨hk ▸ h.session, h.zone⟩

-- One call, by whatever schema its answer is read.
theorem Runs.call_goes {schema : Schema α} {o : Except Failure α} (hx : S.InUse x rs s)
    (h : S.Runs (Account.Service.call c schema) s es o s') :
    ∃ r, S.CallGoes x rs c s es r s' ∧ S.InUse x (rs ++ r.toList) s' := by
  rcases h.bind_inv with ⟨e, ho, h₁⟩ | ⟨token, s₁, before, after, he, h₁, h⟩ <;>
    have ⟨reading, rest, hes, hv⟩ := h₁.validToken_sent hx.session hx.zone
  case inl =>
    rcases hv with ⟨rfl, hn, hk, _⟩ | ⟨m, rfl, ⟨_, _, _, ho₁⟩ | ⟨hlt, hp, ⟨hk, _⟩ | ⟨_, _, _, _, ho₁⟩⟩⟩
    case inl => exact ⟨none, hes ▸ .unread hn hk, by simpa using hx.of_scene hk⟩
    case inr.inl => cases ho₁
    case inr.inr.inl => exact ⟨none, hes ▸ .failed hlt hp hk, by simpa using hx.of_scene hk⟩
    case inr.inr.inr => cases ho₁
  case inr =>
    have ⟨_, hk', _⟩ := h.execute_inv
    have ⟨hc, hng⟩ := h.execute_sent
    subst he hes
    rcases hv with ⟨_, _, _, _, ho₁⟩ | ⟨m, rfl, ⟨hle, hn, hk, ho₁⟩ | ⟨hlt, hp, ⟨_, _, ho₁⟩ | ⟨g, e, hr, hg, ho₁⟩⟩⟩ <;>
      cases ho₁
    case inr.inl.refl =>
      rw [hk] at hk'
      have hsent : sent (rest ++ after) = [.call (x.lastAccess rs) c] := by rw [sent_append, hn, hc]; rfl
      refine ⟨none, .valid hle hsent hk', ?_⟩
      rw [Option.toList_none, List.append_nil]
      exact ⟨by rw [hk']; exact hx.session, hx.zone⟩
    case inr.inr.inr.refl =>
      have hsent : sent (rest ++ after) = [.post (.ofRefresh (x.lastRefresh rs)), .call g.accessToken c] := by
        rw [sent_append, hp, hc]
        rfl
      have hgrants : grants (rest ++ after) = [g] := by rw [grants_append, hg, hng]; rfl
      refine ⟨some (g, e), .renewed hlt hsent hgrants hr hk', ?_⟩
      have ⟨_, hz, _, _, _, _, hs₁⟩ := hr
      rw [Option.toList_some]
      refine ⟨?_, by simp [hz]⟩
      rw [hk', hs₁, Session.after_append]

-- A program that makes the given calls one after the other, each as it is to be made, and stops only if it fails.
def Disciplined (S : Surroundings σ) (x : Session) (t : Program α) (cs : List Call) : Prop :=
  ∀ rs s es o s', S.InUse x rs s → S.Runs t s es o s' →
    ∃ ds rs', S.Course x rs s es ds rs' s' ∧ S.InUse x rs' s' ∧ ds <+: cs ∧ ((∃ a, o = .ok a) → ds = cs)

namespace Disciplined

variable {cs ds : List Call} {t : Program α}

theorem done {a : α} : S.Disciplined x (.done a) [] := by
  intro rs s es o s' hx h
  have ⟨he, _, hs⟩ := h.done_inv
  subst he hs
  exact ⟨[], rs, .nil, hx, List.prefix_refl _, fun _ => rfl⟩

theorem log {level : Log.Level} {logger message : String} :
    S.Disciplined x (Program.log level logger message) [] := by
  intro rs s es o s' hx h
  have ⟨⟨r, he⟩, _, hk⟩ := h.log_inv
  subst he
  have hn : sent [⟨.log r, ()⟩] = [] := rfl
  have hc : S.Course x rs s ([⟨.log r, ()⟩] ++ []) [] rs s' := .aside hn hk .nil
  exact ⟨[], rs, hc, hx.of_scene hk, List.prefix_refl _, fun _ => rfl⟩

theorem call {schema : Schema α} : S.Disciplined x (Account.Service.call c schema) [c] := by
  intro rs s es o s' hx h
  have ⟨r, ha, hx'⟩ := h.call_goes hx
  have hc : S.Course x rs s _ [c] _ s' := .attempt ha .nil
  exact ⟨[c], _, List.append_nil es ▸ hc, hx', List.prefix_refl _, fun _ => rfl⟩

theorem bind {f : α → Program β} (ht : S.Disciplined x t cs) (hf : ∀ a, S.Disciplined x (f a) ds) :
    S.Disciplined x (t >>= f) (cs ++ ds) := by
  intro rs s es o s' hx h
  rcases h.bind_inv with ⟨e, ho, h₁⟩ | ⟨a, s₁, before, after, he, h₁, h⟩ <;>
    have ⟨cs₁, rs₁, hc₁, hx₁, hp₁, hall⟩ := ht _ _ _ _ _ hx h₁
  case inl =>
    refine ⟨cs₁, rs₁, hc₁, hx₁, hp₁.trans (List.prefix_append _ _), ?_⟩
    rintro ⟨_, ho'⟩
    cases ho.symm.trans ho'
  case inr =>
    have ⟨ds₁, rs₂, hc₂, hx₂, hp₂, hall₂⟩ := hf a _ _ _ _ _ hx₁ h
    cases hall ⟨a, rfl⟩
    exact ⟨cs ++ ds₁, rs₂, he ▸ hc₁.trans hc₂, hx₂, (List.prefix_append_right_inj _).mpr hp₂,
      fun ho => congrArg _ (hall₂ ho)⟩

-- Nobody but the user in session is asked for.
theorem session {f : Session → Program α} (hf : ∀ y, y.spotifyId = x.spotifyId → S.Disciplined x (f y) cs) :
    S.Disciplined x (Program.session >>= f) cs := by
  intro rs s es o s' hx h
  have ⟨rest, s₁, he, hk, h⟩ := h.session_bind_inv hx.session
  have ⟨ds, rs', hc, hx', hp⟩ := hf (x.after rs) rfl _ _ _ _ _ (hx.of_scene hk) h
  subst he
  have hn : sent [⟨.session, some (x.after rs)⟩] = [] := rfl
  exact ⟨ds, rs', .aside hn hk hc, hx', hp⟩

end Disciplined

end Surroundings

-- The helpers, with what they are given.
inductive Helper where
  | profile
  | savedTracks (offset limit : Int)
  | artists (ids : List String)
  | createPlaylist (name description : String) (isPublic : Bool)
  | replaceItems (playlist : String) (uris : List String)
  | addItems (playlist : String) (uris : List String)
  | removeItems (playlist : String) (uris : List String)

namespace Helper

open Account

-- What a helper comes to is of no account here.
def program : Helper → Program Unit
  | profile => do
    let _ ← Service.profile
  | savedTracks offset limit => do
    let _ ← Service.savedTracks offset limit
  | artists ids => do
    let _ ← Service.artists ids
  | createPlaylist name description isPublic => do
    let _ ← Service.createPlaylist name description isPublic
  | replaceItems playlist uris => do
    let _ ← Service.replaceItems playlist uris
  | addItems playlist uris => do
    let _ ← Service.addItems playlist uris
  | removeItems playlist uris => do
    let _ ← Service.removeItems playlist uris

-- The underlying calls of a helper, for a user.
def calls (user : String) : Helper → List Call
  | profile                                  => [.profile]
  | savedTracks offset limit                 => [.savedTracks limit offset]
  | artists ids                              => (pieces Service.moreArtists ids).map .artists
  | createPlaylist name description isPublic => [.createPlaylist user name isPublic description]
  | replaceItems playlist uris               => [.replaceItems playlist uris]
  | addItems playlist uris                   => [.addItems playlist uris]
  | removeItems playlist uris                => [.removeItems playlist uris]

end Helper

open Surroundings (Disciplined)

variable {σ : Type} {S : Surroundings σ} {x : Session} {s s' : σ} {es : List Exchange}

theorem Account.Service.artistsOf_disciplined {batches : List (List String)} :
    S.Disciplined x (artistsOf batches) (batches.map .artists) := by
  induction batches
  case nil             => exact .done
  case cons batch _ hr =>
    rw [List.map_cons, ← List.append_nil (List.map _ _)]
    show S.Disciplined x _ ([] ++ ([.artists batch] ++ (_ ++ [])))
    exact Disciplined.log.bind fun _ => Disciplined.call.bind fun _ => hr.bind fun _ => .done

theorem Helper.disciplined (h : Helper) : S.Disciplined x h.program (h.calls x.spotifyId) := by
  rw [← List.append_nil (h.calls _)]
  cases h
  case profile        => exact Disciplined.call.bind fun _ => .done
  case savedTracks    => exact (Disciplined.log.bind fun _ => .call).bind fun _ => .done
  case artists ids    => exact Account.Service.artistsOf_disciplined.bind fun _ => .done
  case createPlaylist =>
    refine Disciplined.bind (Disciplined.session fun y hy => ?_) fun _ => .done
    rw [calls, ← hy]
    exact Disciplined.log.bind fun _ => .call
  case replaceItems   => exact (Disciplined.log.bind fun _ => .call).bind fun _ => .done
  case addItems       => exact (Disciplined.log.bind fun _ => .call).bind fun _ => .done
  case removeItems    => exact (Disciplined.log.bind fun _ => .call).bind fun _ => .done

-- The underlying calls that are attempted when helpers are called one after the other: all of a helper that
-- succeeds, and those up to the failure of one that fails.
inductive Helper.Attempts (user : String) : List (Helper × Except Failure Unit) → List Call → Prop
  | nil : Attempts user [] []
  | cons {h o found ds cs} :
    ds <+: h.calls user → ((∃ a, o = .ok a) → ds = h.calls user) → Attempts user found cs →
    Attempts user ((h, o) :: found) (ds ++ cs)

-- Helpers are called one after the other in a session, whatever becomes of them. Each underlying call goes as it
-- is to go, and the session ends up as the renewals have made it.
theorem Surroundings.Each.helpers_disciplined {helpers : List Helper} {found : List (Helper × Except Failure Unit)}
    (hx : (S.scene s).session = some x) (hz : x.expiresAt.zone.isSome)
    (h : S.Each Helper.program helpers s es found s') :
    ∃ cs rs, S.Course x [] s es cs rs s' ∧ Helper.Attempts x.spotifyId found cs ∧
      (S.scene s').session = some (x.after rs) := by
  suffices hall : ∀ rs, S.InUse x rs s → ∃ cs rs', S.Course x rs s es cs rs' s' ∧
      Helper.Attempts x.spotifyId found cs ∧ S.InUse x rs' s' by
    have ⟨cs, rs, hc, ha, hu⟩ := hall [] ⟨hx, hz⟩
    exact ⟨cs, rs, hc, ha, hu.session⟩
  clear hx
  induction h
  case nil => exact fun rs hu => ⟨[], rs, .nil, .nil, hu⟩
  case cons h₁ _ hr =>
    intro rs hu
    have ⟨ds, rs₁, hc, hu, hp, hall⟩ := Helper.disciplined _ _ _ _ _ _ hu h₁
    have ⟨cs, rs', hc', ha, hu⟩ := hr rs₁ hu
    exact ⟨ds ++ cs, rs', hc.trans hc', .cons hp hall ha, hu⟩

namespace Account.Sample

def oldSession : Session := ⟨1, "alice", "old", "refresh", .ofDay ⟨2024, 1, 1⟩ 0 (some 0)⟩

def grantText (token lifetime refresh : String) : String :=
  "\x7b\"access_token\": \"" ++ token ++ "\", \"expires_in\": " ++ lifetime ++ refresh ++ "\x7d"

-- The token endpoint is about to grant a token that has expired at once, with a new refresh token, and then one
-- that lasts.
def rotating : Simulation.World :=
  { world with
    grants := [
      .ok ⟨200, grantText "first" "0" ", \"refresh_token\": \"next\""⟩, .ok ⟨200, grantText "second" "3600" ""⟩] }

-- The calendar does not reach as far as the first token is to last.
def endless : Simulation.World :=
  { world with
    grants := [
      .ok ⟨200, grantText "first" "999999999999" ", \"refresh_token\": \"next\""⟩,
      .ok ⟨200, grantText "second" "3600" ""⟩] }

end Account.Sample

namespace Simulation.World

-- Helpers that are called one after the other in a world.
def courseOf (w : World) : List Helper → List Exchange × List (Helper × Except Failure Unit) × World
  | [] => ([], [], w)
  | h :: rest =>
    let (es, o, w) := surroundings.trace h.program w
    let (more, found, w) := w.courseOf rest
    (es ++ more, (h, o) :: found, w)

theorem each_courseOf (w : World) (helpers : List Helper) :
    surroundings.Each Helper.program helpers w (w.courseOf helpers).1 (w.courseOf helpers).2.1
      (w.courseOf helpers).2.2 := by
  induction helpers generalizing w
  case nil            => exact .nil
  case cons h rest hr => exact .cons (surroundings.runs_trace _ w) (hr _)

end Simulation.World

open Account.Sample Simulation in
-- A refresh token that has been granted along with an expiry beyond the calendar is not used.
theorem refreshToken_endless_dropped :
    ∃ es found w, World.surroundings.Each Helper.program [.profile, .profile] endless es found w ∧
      (grants es).map (·.refreshToken) = [some "next", none] ∧
      sent es = [.post (.ofRefresh "refresh"), .post (.ofRefresh "refresh"), .call "second" .profile] := by
  have h := World.each_courseOf endless [.profile, .profile]
  have hq : (grants (endless.courseOf [.profile, .profile]).1).map (·.refreshToken) = [some "next", none] ∧
      sent (endless.courseOf [.profile, .profile]).1
        = [.post (.ofRefresh "refresh"), .post (.ofRefresh "refresh"), .call "second" .profile] := by
    decide +kernel
  generalize World.courseOf endless [.profile, .profile] = r at h hq
  exact ⟨_, _, _, h, hq⟩

open Account.Sample Simulation in
-- A renewed refresh token is the one that goes out next.
theorem helpers_disciplined_rotating :
    ∃ es found cs rs w, World.surroundings.Each Helper.program [.profile, .profile] rotating es found w ∧
      World.surroundings.Course oldSession [] rotating es cs rs w ∧ w.scene.session = some (oldSession.after rs) ∧
      sent es = [.post (.ofRefresh "refresh"), .call "first" .profile, .post (.ofRefresh "next"),
        .call "second" .profile] := by
  have h := World.each_courseOf rotating [.profile, .profile]
  have hx : rotating.session = some oldSession := by decide +kernel
  have hq : sent (rotating.courseOf [.profile, .profile]).1
      = [.post (.ofRefresh "refresh"), .call "first" .profile, .post (.ofRefresh "next"),
        .call "second" .profile] := by
    decide +kernel
  generalize World.courseOf rotating [.profile, .profile] = r at h hq
  have ⟨cs, rs, hc, _, hsession⟩ := h.helpers_disciplined hx rfl
  exact ⟨_, _, cs, rs, _, h, hc, hsession, hq⟩

end LabelPlaylists
