import LabelPlaylists.Proofs.Account.Token
import LabelPlaylists.Proofs.Program.Run

namespace LabelPlaylists

open Account (renewed requestGrant)
open Spotify (Grant Schema)

namespace Library

variable {u : Int} {access : String} {refresh : Option String}

-- Users that are changed in all but their numbers are found as before.
theorem Tables.user?_map {t : Tables} {f : User → User} (hf : ∀ v, (f v).id = v.id) :
    { t with users := t.users.map f }.user? u = (t.user? u).map f := by
  simp only [user?, List.find?_map, Function.comp_def, hf]

-- The user of the given number is given the tokens.
theorem Tables.user?_setTokens {t t' : Tables} {v : User} {expiresAt now : String} {n : Nat}
    (hv : t.user? u = some v)
    (h : t.setTokens (.integer u) (.text access) expiresAt (.ofOption refresh) now = .ok (t', n)) :
    t'.user? u = some
      { v with
        accessToken := access, expiresAt, updatedAt := now,
        refreshToken := refresh.getD v.refreshToken } := by
  have hr : (Datum.ofOption refresh).text? = refresh := by cases refresh <;> rfl
  have hi : v.id = u := by simpa using List.find?_some hv
  simp only [setTokens, Datum.whole?, Option.bind_some, hv, hr] at h
  cases h
  rw [user?_map (fun w => by split <;> rfl), hv, Option.map_some, if_pos rfl]

-- New tokens for a user are stored for good, or nothing is changed.
theorem Store.perform_setTokens_cases (s : Store) (now expiresAt : Moment) :
    (∃ e, s.perform now (.setTokens (.integer u) (.text access) expiresAt (.ofOption refresh))
      = (.error e, s)) ∨
    ∃ t n, s.tables.setTokens (.integer u) (.text access) expiresAt.text (.ofOption refresh)
        now.inUtc.text = .ok (t, n) ∧
      s.perform now (.setTokens (.integer u) (.text access) expiresAt (.ofOption refresh))
        = (.ok (), { s with saved := t, tables := t, changes := s.changes + n }) := by
  by_cases hn : now.inUtc.InRange
  case neg => exact .inl ⟨.timeOutOfRange, by simp [perform, work, Work.stamp, hn, bind, Work.bind]⟩
  case pos =>
    have hs : Work.stamp now s = (.ok now.inUtc.text, s) := if_pos hn
    by_cases hu : Datum.IsStorable u
    case neg =>
      have hb : Work.bound [.text access, .text expiresAt.text, .ofOption refresh,
          .text now.inUtc.text, .integer u] s = (.error .numberTooLarge, s) := by
        cases refresh <;> simp [Work.bound, Work.refusal?, Datum.ofOption, hu]
      refine .inl ⟨.numberTooLarge, ?_⟩
      rw [perform, work, Work.bind_ok hs]
      simp [bind, Work.bind, hb]
    case pos =>
      have hv : ∀ v ∈ [.text access, .text expiresAt.text, .ofOption refresh, .text now.inUtc.text,
          .integer u], Accepts v := by simp [hu]
      obtain ⟨t, n, ht⟩ : ∃ t n, s.tables.setTokens (.integer u) (.text access) expiresAt.text
          (.ofOption refresh) now.inUtc.text = .ok (t, n) := by
        unfold Tables.setTokens
        split <;> exact ⟨_, _, rfl⟩
      refine .inr ⟨t, n, ht, perform_ok ?_⟩
      rw [work, Work.bind_ok hs, Work.bind_ok (Work.bound_ok hv s), Work.bind_ok (Work.change_ok ht)]
      rfl

end Library

-- The grant of an exchange with the token endpoint, if it gives one.
def Exchange.grant? : Exchange → Option Grant
  | ⟨.grant _, reply⟩ => granted reply
  | _                 => none

-- The grants that have been given in the course of a run.
def grants (es : List Exchange) : List Grant := es.filterMap Exchange.grant?

@[simp]
theorem grants_nil : grants [] = [] := rfl

@[simp]
theorem grants_cons (e : Exchange) (es : List Exchange) :
    grants (e :: es) = e.grant?.toList ++ grants es := by
  unfold grants
  cases h : e.grant? <;> simp [h]

@[simp]
theorem grants_append (es rest : List Exchange) : grants (es ++ rest) = grants es ++ grants rest :=
  List.filterMap_append

namespace Surroundings.Runs

variable {σ : Type} {S : Surroundings σ} {s s' : σ} {es : List Exchange}

-- The token endpoint gives a grant or it does not; the scene stays as it is.
theorem requestGrant_inv {f : Grant.Form} {o : Except Failure Grant}
    (h : S.Runs (requestGrant f) s es o s') :
    S.scene s' = S.scene s ∧
      ((∃ g, o = .ok g ∧ grants es = [g]) ∨ (∃ e, o = .error e ∧ grants es = [])) := by
  obtain ⟨rest, he, hr⟩ := h.ask_inv
  rw [he]
  cases ha : (S.answer (.grant f) s).1 <;> rw [ha] at hr
  case error e =>
    obtain ⟨hn, ho, hs⟩ := hr.fail_inv
    exact ⟨hs ▸ S.grant, .inr ⟨_, ho, hn ▸ rfl⟩⟩
  case ok a =>
    by_cases hs : a.status < 400 ∨ 600 ≤ a.status <;> simp only [hs, if_true, if_false] at hr
    case neg =>
      have hg : granted (.ok a) = none := by simp [granted, hs]
      obtain ⟨_, _, _, he, hs, hr⟩ := hr.log_bind_inv
      obtain ⟨hn, ho, hs'⟩ := hr.fail_inv
      rw [he, hn]
      exact ⟨(hs' ▸ hs).trans S.grant, .inr ⟨_, ho, by simp [Exchange.grant?, hg]⟩⟩
    case pos =>
      cases hj : Json.read? a.text <;> simp only [hj] at hr
      case none =>
        have hg : granted (.ok a) = none := by simp [granted, hs, hj]
        obtain ⟨hn, ho, hs⟩ := hr.fail_inv
        rw [hn]
        exact ⟨hs ▸ S.grant, .inr ⟨_, ho, by simp [Exchange.grant?, hg]⟩⟩
      case some body =>
        cases hg : Schema.grant.read body <;> simp only [hg] at hr
        case error =>
          have hg : granted (.ok a) = none := by simp [granted, hs, hj, hg, Except.toOption]
          obtain ⟨hn, ho, hs⟩ := hr.fail_inv
          rw [hn]
          exact ⟨hs ▸ S.grant, .inr ⟨_, ho, by simp [Exchange.grant?, hg]⟩⟩
        case ok g =>
          have hg : granted (.ok a) = some g := by simp [granted, hs, hj, hg, Except.toOption]
          obtain ⟨hn, ho, hs⟩ := hr.done_inv
          rw [hn]
          exact ⟨hs ▸ S.grant, .inl ⟨_, ho, by simp [Exchange.grant?, hg]⟩⟩

-- The new expiry is in UTC.
theorem expiry_inv {lifetime : Int} {o : Except Failure Moment}
    (h : S.Runs (Account.expiry lifetime) s es o s') :
    S.scene s' = S.scene s ∧ grants es = [] ∧
      ((∃ m, o = .ok m ∧ m.InRange ∧ m.zone = some 0) ∨ ∃ e, o = .error e) := by
  rcases h.bind_inv with ⟨e, ho, hn⟩ | ⟨now, _, _, rest, he, hn, hf⟩
  case inl =>
    have ⟨⟨_, he⟩, hs, _⟩ := hn.now_inv
    exact ⟨hs, he ▸ rfl, .inr ⟨e, ho⟩⟩
  case inr =>
    have ⟨⟨_, hb⟩, hs, hn⟩ := hn.now_inv
    have hn : now = (S.clock s).inUtc := by
      rcases hn with ⟨hn, _⟩ | hn <;> cases hn
      rfl
    subst hn he hb
    cases hm : Session.expiry? (S.clock s).inUtc lifetime <;> simp only [hm] at hf
    case none =>
      have ⟨hr, ho, hs'⟩ := hf.fail_inv
      exact ⟨hs' ▸ hs, by rw [hr]; rfl, .inr ⟨_, ho⟩⟩
    case some m =>
      have ⟨hr, ho, hs'⟩ := hf.done_inv
      have hm : m.InRange ∧ m.zone = some 0 := by
        simp only [Session.expiry?, Moment.addSeconds?] at hm
        split at hm <;> cases hm
        case isTrue hi => exact ⟨hi, rfl⟩
      exact ⟨hs' ▸ hs, by rw [hr]; rfl, .inl ⟨m, ho, hm⟩⟩

-- New tokens for a user are stored for good, or the scene stays as it is.
theorem setTokens_inv {u : Int} {access : String} {m : Moment} {refresh : Option String}
    {o : Except Failure Unit}
    (h : S.Runs (Program.library (.setTokens (.integer u) (.text access) m (.ofOption refresh))) s es o s') :
    grants es = [] ∧
      ((S.scene s' = S.scene s ∧ ∃ e, o = .error e) ∨
        o = .ok () ∧ ∃ now t n,
          (S.scene s).library.tables.setTokens (.integer u) (.text access) m.text (.ofOption refresh) now
            = .ok (t, n) ∧
          S.scene s' =
            { S.scene s with
              library := { (S.scene s).library with
                saved := t, tables := t, changes := (S.scene s).library.changes + n } }) := by
  have ⟨he, ho, hs⟩ := h.library_inv fun _ _ h => by cases h
  refine ⟨he ▸ rfl, ?_⟩
  rcases (S.scene s).library.perform_setTokens_cases (S.clock s) m
    with ⟨e, hl⟩ | ⟨t, n, ht, hl⟩ <;> rw [hl] at ho hs
  case inl => exact .inl ⟨hs, _, ho⟩
  case inr => exact .inr ⟨ho, _, t, n, ht, hs⟩

end Surroundings.Runs

namespace Surroundings

variable {σ : Type} {S : Surroundings σ} {x : Session} {s s' : σ} {es : List Exchange}

-- The tokens of a grant have been stored for the user in session and are those in session.
def Renewed (S : Surroundings σ) (x : Session) (g : Grant) (m : Moment) (s s' : σ) : Prop :=
  m.InRange ∧ m.zone = some 0 ∧ ∃ now t n,
    (S.scene s).library.tables.setTokens (.integer x.userId) (.text g.accessToken) m.text
      (.ofOption g.refreshToken) now = .ok (t, n) ∧
    S.scene s' =
      { S.scene s with
        library := { (S.scene s).library with
          saved := t, tables := t, changes := (S.scene s).library.changes + n }
        session := some (renewed x g m) }

namespace Runs

theorem refresh_inv {o : Except Failure Unit} (hx : (S.scene s).session = some x)
    (h : S.Runs Account.refresh s es o s') :
    (S.scene s' = S.scene s ∧ ∃ e, o = .error e) ∨
    ∃ g m, S.Renewed x g m s s' ∧ o = .ok () ∧ grants es = [g] := by
  have ⟨r₁, s₁, he₁, hs₁, h⟩ := h.session_bind_inv hx
  rcases h.bind_inv with ⟨e, ho, h₂⟩ | ⟨g, s₂, es₂, r₂, he₂, h₂, h⟩
  case inl => exact .inl ⟨h₂.requestGrant_inv.left.trans hs₁, e, ho⟩
  have ⟨hs₂, h₂⟩ := h₂.requestGrant_inv
  rcases h.bind_inv with ⟨e, ho, h₃⟩ | ⟨m, s₃, es₃, r₃, he₃, h₃, h⟩
  case inl => exact .inl ⟨h₃.expiry_inv.left.trans (hs₂.trans hs₁), e, ho⟩
  have ⟨hs₃, hn₃, h₃⟩ := h₃.expiry_inv
  have hs := hs₃.trans (hs₂.trans hs₁)
  rcases h.bind_inv with ⟨e, ho, h₄⟩ | ⟨_, s₄, es₄, r₄, he₄, h₄, h⟩
  case inl =>
    rcases h₄.setTokens_inv.right with ⟨hs₄, _⟩ | ⟨ho₄, _⟩
    case inl => exact .inl ⟨hs₄.trans hs, e, ho⟩
    case inr => cases ho₄
  have ⟨hn₄, h₄⟩ := h₄.setTokens_inv
  have ⟨r₅, s₅, he₅, hs₅, h⟩ := h.setSession_bind_inv
  have ⟨⟨_, he₆⟩, ho, hs₆⟩ := h.log_inv
  refine .inr ⟨g, m, ?_, ho, ?_⟩
  case refine_1 =>
    rcases h₃ with ⟨_, hm, hi, hz⟩ | ⟨_, hm⟩ <;> cases hm
    rcases h₄ with ⟨_, _, ho₄⟩ | ⟨_, now, t, n, ht, hs₄⟩
    case inl => cases ho₄
    case inr =>
      rw [hs] at ht hs₄
      exact ⟨hi, hz, now, t, n, ht, by rw [hs₆, hs₅, hs₄]⟩
  case refine_2 =>
    rcases h₂ with ⟨_, hg, h₂⟩ | ⟨_, hg, _⟩ <;> cases hg
    simp [he₁, he₂, he₃, he₄, he₅, he₆, h₂, hn₃, hn₄, Exchange.grant?]

-- The token of the session is read.
theorem accessToken_inv {o : Except Failure String} (hx : (S.scene s).session = some x)
    (h : S.Runs (Program.session >>= fun x => pure x.accessToken) s es o s') :
    S.scene s' = S.scene s ∧ o = .ok x.accessToken ∧ grants es = [] := by
  have ⟨_, _, he, hs, h⟩ := h.session_bind_inv hx
  have ⟨hn, ho, hs'⟩ := h.done_inv
  exact ⟨hs' ▸ hs, ho, by rw [he, hn]; rfl⟩

-- A valid token is that of the session, or it is renewed before; if that fails, all is as it was.
theorem validToken_inv {o : Except Failure String} (hx : (S.scene s).session = some x)
    (h : S.Runs Account.validToken s es o s') :
    (S.scene s' = S.scene s ∧ (o = .ok x.accessToken ∧ grants es = [] ∨ ∃ e, o = .error e)) ∨
    ∃ g m, S.Renewed x g m s s' ∧ o = .ok g.accessToken ∧ grants es = [g] := by
  have ⟨r₁, s₁, he₁, hs₁, h⟩ := h.session_bind_inv hx
  rcases h.bind_inv with ⟨e, ho, h₂⟩ | ⟨now, s₂, es₂, r₂, he₂, h₂, h⟩
  case inl => exact .inl ⟨h₂.now_inv.right.left.trans hs₁, .inr ⟨e, ho⟩⟩
  have ⟨⟨_, hn₂⟩, hs₂, _⟩ := h₂.now_inv
  have hs := hs₂.trans hs₁
  split at h
  case isFalse =>
    have ⟨hs₃, ho, hn⟩ := h.accessToken_inv (hs ▸ hx)
    exact .inl ⟨hs₃.trans hs, .inl ⟨ho, by simp [he₁, he₂, hn₂, hn, Exchange.grant?]⟩⟩
  case isTrue =>
    have ⟨_, r₃, s₃, he₃, hs₃, h⟩ := h.log_bind_inv
    have hs := hs₃.trans hs
    rcases h.bind_inv with ⟨e, ho, h₄⟩ | ⟨_, s₄, es₄, r₄, he₄, h₄, h⟩
    case inl =>
      rcases h₄.refresh_inv (hs ▸ hx) with ⟨hs₄, _⟩ | ⟨_, _, _, ho₄, _⟩
      case inl => exact .inl ⟨hs₄.trans hs, .inr ⟨e, ho⟩⟩
      case inr => cases ho₄
    case inr =>
      rcases h₄.refresh_inv (hs ▸ hx) with ⟨_, _, ho₄⟩ | ⟨g, m, ⟨hi, hz, now, t, n, ht, hs₄⟩, _, hg⟩
      case inl => cases ho₄
      case inr =>
        have ⟨hs₅, ho, hn⟩ := h.accessToken_inv (x := renewed x g m) (by rw [hs₄])
        refine .inr ⟨g, m, ⟨hi, hz, now, t, n, hs ▸ ht, by rw [hs₅, hs₄, hs]⟩, ho, ?_⟩
        simp [he₁, he₂, he₃, he₄, hn₂, hg, hn, Exchange.grant?]

end Runs

end Surroundings

end LabelPlaylists
